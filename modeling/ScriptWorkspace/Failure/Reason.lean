import ScriptWorkspace.Storage.Fault
import ScriptWorkspace.Text.Utf8

/-
  The reasons behind a failure.

  A failure of a command is often due to something that went
  wrong below: a file that is missing, a text that cannot be
  read. Such a reason is shown after the failure itself.

  Key definitions include:
    * `Reason`
    * `Reason.message`
-/

namespace ScriptWorkspace

/- What went wrong below a failure. -/
inductive Reason
  | system (fault : Storage.StorageFault)
  | encoding (fault : Utf8.Fault)
  | notToml
  | noSuchDate
  | notEditable
  | repeatedKey
  | reopenedTable
  | wrongShape
  | notJson
  | timeout (command : List OsText) (seconds : Int)
  | transport (kind : Text)
deriving DecidableEq, Repr

/- The words of a command in brackets. -/
def quotedList (words : List OsText) : Text :=
  "[" ++
    Text.joinWith [',', ' '] (words.map OsText.quoted) ++ "]"

/- The wording for a reason. -/
def Reason.message : Reason → Text
  | .system fault => fault.message
  | .encoding fault => fault.message
  | .notToml => "invalid TOML document"
  | .noSuchDate => "invalid date"
  | .notEditable => "invalid TOML document"
  | .repeatedKey => "a key is present more than once"
  | .reopenedTable => "a table is defined more than once"
  | .wrongShape => "a value has an unexpected type"
  | .notJson => "invalid JSON document"
  | .timeout command seconds =>
    "Command '" ++ quotedList command ++
      "' timed out after " ++ Text.ofInt seconds ++
      " seconds"
  | .transport _ => "failed"

end ScriptWorkspace
