import ScriptWorkspace.Text.Utf8

/-
  The addresses of gists.

  An address has a path, a query and a fragment. Everything
  in it that is not a plain visible character is escaped byte
  by byte. The address that is shown is resolved in the way a
  link is; the address that is asked for keeps the path as it
  is but for its dots, and has no fragment.

  Key definitions include:
    * `Address.Reference`
    * `Address.read?`
    * `Address.shown`
    * `Address.requested`
-/

namespace ScriptWorkspace

namespace Address

------------------------------------------------------------
-- Escapes
------------------------------------------------------------

/- A byte as it is escaped. -/
def escapeByte (byte : UInt8) : Text :=
  '%' :: (Text.hex 2 byte.toNat).map Char.toUpper

/- The character is visible, or a space. -/
def isVisible (c : Char) : Bool :=
  decide (0x20 ≤ c.toNat ∧ c.toNat < 0x7f)

/- A text without the characters that have to be escaped. -/
def escaped
    (reserved : String)
    (text : Text) : Text :=
  text.flatMap fun c =>
    if isVisible c && !reserved.toList.contains c then [c]
    else (Utf8.encodeChar c).flatMap escapeByte

/- A path in an address. -/
def escapedPath : Text → Text :=
  escaped " \"#<>?\x60\x7b\x7d"

/- A query in an address. -/
def escapedQuery : Text → Text :=
  escaped " \"#<>"

/- A fragment in an address. -/
def escapedFragment : Text → Text :=
  escaped " \"<>\x60"

------------------------------------------------------------
-- References
------------------------------------------------------------

/- A path with a query and a fragment, if it has them. -/
structure Reference where
  path : Text
  query : Option Text
  fragment : Option Text
deriving DecidableEq, Repr

/- The character controls a device. -/
def isControl (c : Char) : Bool :=
  decide (c.toNat < 0x20 ∨ c.toNat = 0x7f)

/- Split a text at a character, if it has it. -/
def splitAt? (separator : Char) (text : Text) :
    Text × Option Text :=
  match Text.splitFirst? separator text with
  | some (before, after) => (before, some after)
  | none => (text, none)

/- The reference that a text is, if it can be one. -/
def read? (text : Text) : Option Reference :=
  if text.any isControl then
    none
  else
    let (before, fragment) := splitAt? '#' text
    let (path, query) := splitAt? '?' before
    some
      { path := escapedPath path
        query := query.map escapedQuery
        fragment := fragment.map escapedFragment }

------------------------------------------------------------
-- Resolution
------------------------------------------------------------

/- The address of the store. -/
def base : Text := "https://api.github.com"

/- Segments after single and double dots are followed. -/
def followDots (segments : List Text) : List Text :=
  (segments.foldl
    (fun done segment =>
      if segment = ['.'] then done
      else if segment = ['.', '.'] then done.drop 1
      else segment :: done)
    []).reverse

/- The path without its parameters, and the parameters. -/
def splitParameters (path : Text) : Text × Text :=
  let last := (path.reverse.takeWhile (· != '/')).reverse
  let before := path.take (path.length - last.length)
  match Text.splitFirst? ';' last with
  | some (name, parameters) => (before ++ name, parameters)
  | none => (path, [])

/- A path from the root, resolved in the way of a link. -/
def resolvedPath (path : Text) : Text :=
  let (plain, parameters) := splitParameters path
  let segments := Text.splitOn '/' plain
  let ending := segments.getLast?.toList
  let inner :=
    segments.dropLast.filter fun segment => !segment.isEmpty
  let followed := followDots ([] :: inner ++ ending)
  let isDots :=
    ending == [['.']] || ending == [['.', '.']]
  let joined :=
    Text.joinWith ['/']
      (if isDots then followed ++ [[]] else followed)
  (if joined.head? == some '/' then joined
    else '/' :: joined) ++
    (if parameters.isEmpty then [] else ';' :: parameters)

/- A part that is written only if there is anything in it. -/
def written (mark : Char) (part : Option Text) : Text :=
  match part with
  | some (c :: text) => mark :: c :: text
  | _ => []

/- The address as it is shown. -/
def shown (reference : Reference) : Text :=
  base ++ resolvedPath reference.path ++
    written '?' reference.query ++
      written '#' reference.fragment

/- A path without segments of dots. -/
def plainPath (path : Text) : Text :=
  let segments := Text.splitOn '/' path
  let followed :=
    segments.foldl
      (fun done segment =>
        if segment = ['.'] then done
        else if segment = ['.', '.'] then
          if done = [[]] then done else done.drop 1
        else segment :: done)
      []
  Text.joinWith ['/'] followed.reverse

/- The address that is asked for. -/
def requested (reference : Reference) : Text :=
  base ++
    plainPath
      ('/' :: reference.path.dropWhile (· == '/')) ++
        match reference.query with
        | some query => '?' :: query
        | none => []

end Address

end ScriptWorkspace
