import ScriptWorkspace.Calendar
import ScriptWorkspace.Number.Binary64

/-
  TOML values.

  A table keeps its members in the order in which their keys
  first appear.

  Key definitions include:
    * `Toml`
    * `Toml.Table`
    * `Toml.find?`
    * `Toml.text?`
-/

namespace ScriptWorkspace

/- A TOML value. -/
inductive Toml
  | string (text : Text)
  | int (value : Int)
  | float (value : Binary64)
  | bool (value : Bool)
  | date (date : Date)
  | time (time : TimeOfDay)
  | dateTime
      (date : Date)
      (time : TimeOfDay)
      (offset : Option Int)
  | array (items : List Toml)
  | table (members : List (Text × Toml))
deriving Repr

namespace Toml

/- The members of a table. -/
abbrev Table := List (Text × Toml)

/- The value of a key of a table. -/
def find? (key : Text) (table : Table) : Option Toml :=
  table.lookup key

/- A table with a member put in, at its old place if any. -/
def put
    (key : Text)
    (value : Toml) :
    Table → Table
  | [] => [(key, value)]
  | (name, old) :: members =>
    if name = key then (name, value) :: members
    else (name, old) :: put key value members

/- The text of a string. -/
def text? : Toml → Option Text
  | string text => some text
  | _ => none

/- The members of a table. -/
def table? : Toml → Option Table
  | table members => some members
  | _ => none

/- The value is an array or a table. -/
def isComposite : Toml → Bool
  | array _ => true
  | table _ => true
  | _ => false

end Toml

end ScriptWorkspace
