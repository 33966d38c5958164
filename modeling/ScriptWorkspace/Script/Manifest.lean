import ScriptWorkspace.Markdown.Event
import ScriptWorkspace.Script.Header

/-
  The manifest inside a script.

  The manifest of a script is the content of the first fenced
  block marked `cargo` in its documentation comment. It can
  be read out, and it can be replaced: then the lines of the
  new manifest take the places of the old ones, lines that
  are no documentation stay where they are, and a line that
  does not change keeps its exact spelling.

  Key definitions include:
    * `ScriptFault`
    * `manifestInfo`
    * `ManifestPlace`
    * `Source.manifestPlace`
    * `terminated`
    * `renderDoc`
    * `Source.splice`
    * `extract`
    * `replace`
-/

namespace ScriptWorkspace

namespace Script

------------------------------------------------------------
-- Faults
------------------------------------------------------------

/-
  Why a script has no manifest that can be read or replaced.
  The last two would be faults of the search for the block,
  which ends at the boundaries of documentation lines.
-/
inductive ScriptFault
  | header (fault : HeaderFault)
  | noManifest
  | offBoundary (offset : Nat)
  | noDocLine
deriving DecidableEq, Repr

------------------------------------------------------------
-- The Place Of The Manifest
------------------------------------------------------------

/- The info of the fence around a manifest. -/
def manifestInfo : Text := ['c', 'a', 'r', 'g', 'o']

/-
  Where the manifest is: its text, and the documentation lines
  that hold it, the last one excluded.
-/
structure ManifestPlace where
  text : Text
  first : Nat
  stop : Nat
deriving DecidableEq, Repr

namespace Source

/- Read a source, or report its header. -/
def read (script : Text) : Except ScriptFault Source :=
  match ofText script with
  | .ok source => .ok source
  | .error fault => .error (.header fault)

/- The offsets of the manifest in the body. -/
def manifestSpan
    (source : Source) :
    Except ScriptFault Markdown.Span :=
  match Markdown.locate? manifestInfo source.body with
  | some span => .ok span
  | none => .error .noManifest

/- The part of the body that a span covers. -/
def bodyPart
    (source : Source)
    (span : Markdown.Span) : Text :=
  (source.body.take span.stop).drop span.start

/- The documentation line that begins at an offset. -/
def docIndex
    (source : Source)
    (offset : Nat) : Except ScriptFault Nat :=
  match source.docIndexAt? offset with
  | some index => .ok index
  | none => .error (.offBoundary offset)

/- The place of the manifest in a source. -/
def manifestPlace
    (source : Source) :
    Except ScriptFault ManifestPlace := do
  let span ← source.manifestSpan
  let first ← source.docIndex span.start
  let stop ← source.docIndex span.stop
  return { text := source.bodyPart span, first, stop }

end Source

------------------------------------------------------------
-- Writing
------------------------------------------------------------

/- A manifest that is not empty ends with a line feed. -/
def terminated (manifest : Text) : Text :=
  if manifest.isEmpty || manifest.endsWith ['\n'] then
    manifest
  else
    manifest ++ ['\n']

/- The lines of a manifest that ends with a line feed. -/
def manifestLines (manifest : Text) : List Text :=
  (manifest.splitOn '\n').dropLast

/- A text without one carriage return at its end. -/
def dropCarriageReturn (text : Text) : Text :=
  if text.endsWith ['\r'] then text.dropLast else text

/-
  A new documentation line, indented and ended like the line
  of the opening fence.
-/
def renderDoc
    (anchor : Line)
    (newline content : Text) : Text :=
  let content := dropCarriageReturn content
  let token := anchor.indentation ++ docToken
  if content.isEmpty then
    token ++ newline
  else
    token ++ [' '] ++ content ++ newline

/-
  Put new contents into lines: each documentation line takes
  the next content or goes, and contents that are left over
  follow as further lines.
-/
def respell
    (render : Text → Text) :
    List Line →
    List Text →
    List Text
  | [], contents => contents.map render
  | line :: lines, contents =>
    match line.doc, contents with
    | none, _ => line.raw :: respell render lines contents
    | some _, [] => respell render lines []
    | some doc, content :: rest =>
      (if doc.content = content then line.raw
        else render content) ::
        respell render lines rest

/-
  Lines put together. A line that others follow is ended if
  it was not.
-/
def joinLines (newline : Text) : List Text → Text
  | [] => []
  | [last] => last
  | line :: lines =>
    (if line.endsWith ['\n'] then line else line ++ newline)
      ++ joinLines newline lines

/-
  The source with the documentation lines from `first` up to
  `stop` replaced by the lines of a manifest.
-/
def Source.splice
    (source : Source)
    (first stop : Nat)
    (manifest : Text) : Except ScriptFault Text :=
  match source.docLine? (first - 1),
      source.docIndices[first]?,
      source.docIndices[stop - 1]? with
  | some anchor, some start, some last =>
    let newline :=
      match anchor.terminator with
      | .none => ['\n']
      | terminator => terminator.toText
    let before := source.lines.take start
    let region :=
      (source.lines.take (last + 1)).drop start
    let after := source.lines.drop (last + 1)
    .ok
      (joinLines newline
        (before.map Line.raw ++
          respell (renderDoc anchor newline) region
            (manifestLines manifest) ++
          after.map Line.raw))
  | _, _, _ => .error .noDocLine

------------------------------------------------------------
-- Reading And Replacing
------------------------------------------------------------

/- The manifest of a script. -/
def extract (script : Text) : Except ScriptFault Text := do
  let source ← Source.read script
  let span ← source.manifestSpan
  return source.bodyPart span

/- The script with another manifest, and the old manifest. -/
def replace
    (script manifest : Text) :
    Except ScriptFault (Text × Text) := do
  let source ← Source.read script
  let place ← source.manifestPlace
  let replaced ←
    source.splice place.first place.stop
      (terminated manifest)
  return (replaced, place.text)

end Script

end ScriptWorkspace
