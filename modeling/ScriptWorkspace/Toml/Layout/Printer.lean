import ScriptWorkspace.Toml.Layout.Basic

/-
  Writing a document with its layout.

  The key of a table that no header spells out is put
  together from the keys of the tables around it. An implied
  table gets a header of its own as soon as it holds more
  than tables.

  Key definitions include:
    * `Layout.renderPlain`
    * `Layout.renderTableHeading`
    * `Layout.Place`
    * `Layout.renderEntries`
    * `Layout.render`
-/

namespace ScriptWorkspace

namespace Toml

namespace Layout

------------------------------------------------------------
-- Parts
------------------------------------------------------------

/- A spelled key after the key of what is around it. -/
def underKey (outer : Option Text) (spelled : Text) : Text :=
  match outer with
  | none => spelled
  | some key => key ++ '.' :: spelled

/- An entry that is no table. -/
def renderPlain (outer : Option Text) : Entry → Text
  | .blank text => text
  | .comment margin =>
    margin.indent ++ margin.comment ++ margin.trail
  | .pair label separator value margin =>
    margin.indent ++ underKey outer label.spelled ++
      separator ++ value.render ++ margin.gap ++
        margin.comment ++ margin.trail
  | _ => []

/- A header with its brackets. -/
def renderHeading
    (opening closing key : Text)
    (margin : Margin) : Text :=
  margin.indent ++ opening ++ key ++ closing ++
    margin.gap ++ margin.comment ++ margin.trail

/- A text that does not end its line, ended. -/
def breakBefore
    (written : Text)
    (heading : Heading) : Text :=
  let bare := Text.dropRightWhile (· == ' ') written
  if bare.isEmpty || bare.getLast? == some '\n' ||
      heading.margin.indent.any (· == '\n') then
    written
  else
    written ++ ['\n']

/- What is written for the header of a table. -/
def renderTableHeading
    (key : Text)
    (kind : TableKind)
    (heading : Heading)
    (body : List Entry) : Text :=
  let margin := heading.margin
  if kind = .declared ∨
      kind = .implied ∧ body.any Entry.isPlain then
    renderHeading ['['] [']'] key margin ++
      if margin.trail.any (· == '\n') ||
          !body.any (fun entry => entry.name?.isSome) then
        []
      else
        ['\n']
  else if margin.indent = ['\n'] then
    ['\n']
  else
    []

------------------------------------------------------------
-- Places
------------------------------------------------------------

/-
  What entries are in: the document, a table, which may be
  dotted, or an element of an array of tables.
-/
inductive Place
  | document
  | table (key : Text) (dotted : Bool)
  | element (key : Text)
deriving DecidableEq, Repr

namespace Place

/- The key of what is around an array of tables. -/
def key? : Place → Option Text
  | document => none
  | table key _ => some key
  | element key => some key

/- The key of what is around a table of a kind. -/
def outer (kind : TableKind) : Place → Option Text
  | document => none
  | table key dotted =>
    if kind = .dotted ∧ !dotted then none else some key
  | element key => if kind = .dotted then none else some key

/- The key of what is around an entry that is no table. -/
def plainOuter : Place → Option Text
  | table key true => some key
  | _ => none

/- What is written before a table with a heading. -/
def before
    (written : Text)
    (heading : Heading) : Place → Text
  | element _ => written
  | _ => breakBefore written heading

end Place

------------------------------------------------------------
-- Entries
------------------------------------------------------------

mutual

/- Entries of a place after what is already written. -/
def renderEntries
    (place : Place)
    (written : Text) :
    List Entry → Text
  | [] => written
  | .table label kind heading body :: entries =>
    let key :=
      heading.shown.getD
        (underKey (place.outer kind) label.spelled)
    let header := renderTableHeading key kind heading body
    renderEntries place
      (place.before written heading ++
        renderEntries (.table key (kind = .dotted)) header
          body)
      entries
  | .elements label tables :: entries =>
    renderEntries place
      (written ++
        renderElements
          (underKey place.key? label.spelled) tables)
      entries
  | entry :: entries =>
    renderEntries place
      (written ++ renderPlain place.plainOuter entry)
      entries

/- The elements of an array of tables with a key. -/
def renderElements
    (key : Text) :
    List (Heading × List Entry) → Text
  | [] => []
  | (heading, body) :: tables =>
    renderEntries (.element key)
        (renderHeading ['[', '['] [']', ']'] key
          heading.margin)
        body ++
      renderElements key tables

end

/- The text of a document. -/
def render (document : Document) : Text :=
  renderEntries .document [] document

end Layout

end Toml

end ScriptWorkspace
