import ScriptWorkspace.Number.Binary64

/-
  JSON values.

  An object keeps its members in the order in which their
  keys first appear. A string that names half of a surrogate
  pair has no text: nothing can be done with it but refuse
  it where a text is wanted.

  Key definitions include:
    * `Json`
    * `Json.member?`
    * `Json.hasBrokenString`
-/

namespace ScriptWorkspace

/- A JSON value. -/
inductive Json
  | null
  | bool (value : Bool)
  | int (value : Int)
  | float (value : Binary64)
  | string (text : Option Text)
  | array (items : List Json)
  | object (members : List (Option Text × Json))
deriving Repr

namespace Json

/- A member of an object with a new value, or a new member. -/
def setMember
    (key : Option Text)
    (value : Json) :
    List (Option Text × Json) →
    List (Option Text × Json)
  | [] => [(key, value)]
  | (name, old) :: members =>
    if name = key then (key, value) :: members
    else (name, old) :: setMember key value members

/- The value of a member of an object. -/
def member? (key : Text) : Json → Option Json
  | .object members => members.lookup (some key)
  | _ => none

/- The text of a string. -/
def text? : Json → Option Text
  | .string text => text
  | _ => none

mutual

/- Some string of the value, or some key, has no text. -/
def hasBrokenString : Json → Bool
  | .string text => text.isNone
  | .array items => anyBroken items
  | .object members => anyMemberBroken members
  | _ => false

/- Some string of the values has no text. -/
def anyBroken : List Json → Bool
  | [] => false
  | item :: items => hasBrokenString item || anyBroken items

/- Some string of the members, or some key, has no text. -/
def anyMemberBroken : List (Option Text × Json) → Bool
  | [] => false
  | (key, value) :: members =>
    key.isNone || hasBrokenString value ||
      anyMemberBroken members

end

end Json

end ScriptWorkspace
