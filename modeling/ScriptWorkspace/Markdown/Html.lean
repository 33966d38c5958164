import ScriptWorkspace.Text.Blank
import ScriptWorkspace.Markdown.Row

/-
  Beginnings and ends of HTML blocks.

  A line begins one of seven kinds of block: raw text
  elements, comments, processing instructions, declarations,
  character data, block elements, and any other complete tag
  alone on its line. The first five end at a line that holds
  their closing mark, the last two at an empty line.

  Key definitions include:
    * `HtmlKind`
    * `HtmlKind.ofLine?`
    * `HtmlKind.endsAt`
-/

namespace ScriptWorkspace

namespace Markdown

------------------------------------------------------------
-- Letters
------------------------------------------------------------

/-
  A letter without regard to case. Four letters beyond the
  unaccented ones count as variants of those.
-/
def foldLetter (c : Char) : Char :=
  if c = 'ſ' then 's'
  else if c = 'ı' ∨ c = 'İ' then 'i'
  else if c = '\u212a' then 'k'
  else c.toLower

/- What follows a word in any case, if the text begins so. -/
def stripWord? (word text : Text) : Option Text :=
  if word.isPrefixOf (text.map foldLetter) then
    some (text.drop word.length)
  else
    none

/- The text holds a word in any case. -/
def holdsWord (word text : Text) : Bool :=
  Text.contains word (text.map foldLetter)

------------------------------------------------------------
-- Tags
------------------------------------------------------------

/- The character may begin the name of an attribute. -/
def beginsAttribute (c : Char) : Bool :=
  Text.isLetter c || c == '_' || c == ':'

/- The character may stand in the name of an attribute. -/
def inAttribute (c : Char) : Bool :=
  beginsAttribute c || Text.isDigit c || c == '.' || c == '-'

/- The character may stand in the name of a tag. -/
def inTagName (c : Char) : Bool :=
  Text.isLetter c || Text.isDigit c || c == '-'

/- The character may stand in a value without quotes. -/
def inBareValue (c : Char) : Bool :=
  decide (c.toNat > 0x20) &&
    !(['"', '\'', '=', '<', '>', '`'].contains c)

/- All that is left of a text after its longest beginnings. -/
def tailsWhile (p : Char → Bool) : Text → List Text
  | [] => [[]]
  | c :: rest =>
    if p c then tailsWhile p rest ++ [c :: rest]
    else [c :: rest]

/- What may follow the value of an attribute. -/
def afterValue : Text → List Text
  | '"' :: rest =>
    match rest.dropWhile (· ≠ '"') with
    | [] => []
    | _ :: after => [after]
  | '\'' :: rest =>
    match rest.dropWhile (· ≠ '\'') with
    | [] => []
    | _ :: after => [after]
  | c :: rest =>
    if inBareValue c then tailsWhile inBareValue rest else []
  | [] => []

/- A tag ends here, and only white space follows it. -/
def closesTag (text : Text) : Bool :=
  let text := text.stripLeft
  let text := (Text.stripPrefix? ['/'] text).getD text
  match text with
  | '>' :: rest => rest.all Text.isBlank
  | _ => false

/- Attributes, the end of a tag and white space follow. -/
def attributesClose :
    (fuel : Nat) →
    Text →
    Bool
  | 0, _ => false
  | fuel + 1, text =>
    closesTag text ||
      (match text with
      | [] => false
      | blank :: _ =>
        Text.isBlank blank &&
          (match text.stripLeft with
          | [] => false
          | c :: rest =>
            beginsAttribute c &&
              (let after := rest.dropWhile inAttribute
              attributesClose fuel after ||
                (match Text.stripLeft after with
                | '=' :: value =>
                  (afterValue (Text.stripLeft value)).any
                    (attributesClose fuel)
                | _ => false))))

/- The line is one complete tag and white space. -/
def isTagLine (text : Text) : Bool :=
  match text with
  | '<' :: '/' :: c :: rest =>
    Text.isLetter c &&
      (match Text.stripLeft (rest.dropWhile inTagName) with
      | '>' :: after => after.all Text.isBlank
      | _ => false)
  | '<' :: c :: rest =>
    Text.isLetter c &&
      attributesClose (rest.length + 1)
        (rest.dropWhile inTagName)
  | _ => false

------------------------------------------------------------
-- Kinds Of Blocks
------------------------------------------------------------

/- The elements whose content is raw text. -/
def rawElements : List Text :=
  ["script".toList, "pre".toList, "style".toList,
    "textarea".toList]

/- The elements that begin a block of their own. -/
def blockElements : List Text :=
  ["address", "article", "aside", "base", "basefont",
    "blockquote", "body", "caption", "center", "col",
    "colgroup", "dd", "details", "dialog", "dir", "div",
    "dl", "dt", "fieldset", "figcaption", "figure",
    "footer", "form", "frame", "frameset", "h1", "h2",
    "h3", "h4", "h5", "h6", "head", "header", "hr", "html",
    "iframe", "legend", "li", "link", "main", "menu",
    "menuitem", "nav", "noframes", "ol", "optgroup",
    "option", "p", "param", "section", "source", "summary",
    "table", "tbody", "td", "tfoot", "th", "thead",
    "title", "tr", "track", "ul"].map String.toList

/- The kinds of HTML blocks. -/
inductive HtmlKind
  | rawText
  | comment
  | instruction
  | declaration
  | characterData
  | blockElement
  | loneTag
deriving DecidableEq, Repr

/- A word boundary in a tag that begins a raw text block. -/
def endsRawName (text : Text) : Bool :=
  match text with
  | [] => true
  | c :: _ => Text.isBlank c || c == '>'

/- A word boundary in a tag that begins a block element. -/
def endsBlockName (text : Text) : Bool :=
  endsRawName text || text.startsWith ['/', '>']

/- The text begins with one of some words that ends there. -/
def beginsWith
    (words : List Text)
    (ends : Text → Bool)
    (text : Text) : Bool :=
  words.any fun word =>
    match stripWord? word text with
    | none => false
    | some rest => ends rest

namespace HtmlKind

/- The kind of HTML block that a line begins. -/
def ofLine? (text : Text) : Option HtmlKind :=
  match text with
  | '<' :: rest =>
    if beginsWith rawElements endsRawName rest then
      some .rawText
    else if Text.startsWith rest ['!', '-', '-'] then
      some .comment
    else if Text.startsWith rest ['?'] then
      some .instruction
    else if Text.startsWith rest ['!'] &&
        (match rest.drop 1 with
        | c :: _ => decide ('A' ≤ c ∧ c ≤ 'Z')
        | [] => false) then
      some .declaration
    else if Text.startsWith rest "![CDATA[" then
      some .characterData
    else if beginsWith blockElements endsBlockName
        ((Text.stripPrefix? ['/'] rest).getD rest) then
      some .blockElement
    else if isTagLine text then
      some .loneTag
    else
      none
  | _ => none

/- A block of the kind ends with a line of the given text. -/
def endsAt (kind : HtmlKind) (text : Text) : Bool :=
  match kind with
  | .rawText =>
    rawElements.any fun word =>
      holdsWord ("</" ++ word ++ ">") text
  | .comment => Text.contains "-->" text
  | .instruction => Text.contains "?>" text
  | .declaration => Text.contains ">" text
  | .characterData => Text.contains "]]>" text
  | .blockElement => text.isEmpty
  | .loneTag => text.isEmpty

/- A block of the kind may interrupt a paragraph. -/
def interrupts (kind : HtmlKind) : Bool :=
  kind ≠ .loneTag

end HtmlKind

end Markdown

end ScriptWorkspace
