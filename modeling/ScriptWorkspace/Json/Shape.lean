import ScriptWorkspace.Json.Value

/-
  Reading values of a known shape.

  Keys that are not asked for are ignored. A key that may be
  missing has a default, but if it is there its value has to
  be of the right shape.

  Key definitions include:
    * `Json.isObject`
    * `Json.required?`
    * `Json.optional?`
    * `Json.textList?`
    * `Json.truth?`
-/

namespace ScriptWorkspace

namespace Json

------------------------------------------------------------
-- Members
------------------------------------------------------------

/- The value is an object. -/
def isObject : Json → Bool
  | .object _ => true
  | _ => false

/- The member of an object that has to be there. -/
def required?
    {α : Type}
    (key : Text)
    (shape : Json → Option α)
    (value : Json) : Option α :=
  (value.member? key).bind shape

/- The member of an object, or what stands for it. -/
def optional?
    {α : Type}
    (key : Text)
    (default : α)
    (shape : Json → Option α)
    (value : Json) : Option α :=
  match value.member? key with
  | none => some default
  | some found => shape found

------------------------------------------------------------
-- Shapes
------------------------------------------------------------

/- Nothing, or a value of a shape. -/
def nullable?
    {α : Type}
    (shape : Json → Option α) :
    Json → Option (Option α)
  | .null => some none
  | value => (shape value).map some

/- The values of an array, all of one shape. -/
def listOf?
    {α : Type}
    (shape : Json → Option α) :
    Json → Option (List α)
  | .array items => items.mapM shape
  | _ => none

/- The texts of an array. -/
def textList? : Json → Option (List Text) :=
  listOf? text?

/- The members of an object, all with values of one shape. -/
def membersOf?
    {α : Type}
    (shape : Json → Option α) :
    Json → Option (List (Text × α))
  | .object members =>
    members.mapM fun (key, value) => do
      return (← key, ← shape value)
  | _ => none

/- The words that stand for true. -/
def trueWords : List Text :=
  ["1", "on", "t", "true", "y", "yes"]

/- The words that stand for false. -/
def falseWords : List Text :=
  ["0", "off", "f", "false", "n", "no"]

/- The truth value that a value stands for. -/
def truth? : Json → Option Bool
  | .bool value => some value
  | .int 0 => some false
  | .int 1 => some true
  | .float value =>
    if value.render = "0.0" ∨ value.render = "-0.0" then
      some false
    else if value.render = "1.0" then
      some true
    else
      none
  | .string (some word) =>
    let lower := Text.lowerAscii word
    if trueWords.contains lower then some true
    else if falseWords.contains lower then some false
    else none
  | _ => none

end Json

end ScriptWorkspace
