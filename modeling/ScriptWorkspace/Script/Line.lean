import ScriptWorkspace.Text.Blank

/-
  The physical lines of a script.

  A line keeps its text, the characters that end it and its
  offset in the script, so that the lines of a script put
  together again are the script. A line of the leading
  documentation comment also keeps where its content begins.

  Key definitions include:
    * `Terminator`
    * `DocText`
    * `DocText.ofLine?`
    * `Line`
    * `Line.raw`
    * `Line.splitText`
-/

namespace ScriptWorkspace

namespace Script

------------------------------------------------------------
-- Documentation Lines
------------------------------------------------------------

/- The token that begins an inner documentation line. -/
def docToken : Text := ['/', '/', '!']

/-
  The two parts of a documentation line: the indentation,
  the token and the spaces after it, and then the content.
-/
structure DocText where
  marker : Text
  content : Text
deriving DecidableEq, Repr

/- The parts of a line, if it is a documentation line. -/
def DocText.ofLine? (text : Text) : Option DocText :=
  match Text.stripPrefix? docToken text.stripLeft with
  | none => none
  | some rest =>
    some
      { marker :=
          text.indentation ++ docToken ++
            rest.takeWhile (· == ' ')
        content := rest.dropWhile (· == ' ') }

------------------------------------------------------------
-- Lines
------------------------------------------------------------

/- The characters that end a line. -/
inductive Terminator
  | none
  | lineFeed
  | carriageReturnLineFeed
deriving DecidableEq, Repr

/- The characters themselves. -/
def Terminator.toText : Terminator → Text
  | .none => []
  | .lineFeed => ['\n']
  | .carriageReturnLineFeed => ['\r', '\n']

/- A line of a script. -/
structure Line where
  text : Text
  terminator : Terminator
  start : Nat
  doc : Option DocText := none
deriving DecidableEq, Repr

namespace Line

/- The line with its terminator. -/
def raw (line : Line) : Text :=
  line.text ++ line.terminator.toText

/- The offset of the line that follows. -/
def stop (line : Line) : Nat :=
  line.start + line.raw.length

/- The white space in front of the line. -/
def indentation (line : Line) : Text :=
  line.text.indentation

/- The line belongs to the documentation comment. -/
def isDoc (line : Line) : Bool :=
  line.doc.isSome

end Line

------------------------------------------------------------
-- Splitting
------------------------------------------------------------

/- The text and the terminator of a line with its end. -/
def splitTerminator : Text → Text × Terminator
  | [] => ([], .none)
  | ['\n'] => ([], .lineFeed)
  | ['\r', '\n'] => ([], .carriageReturnLineFeed)
  | c :: rest =>
    let (text, terminator) := splitTerminator rest
    (c :: text, terminator)

/- Lines that follow each other from an offset on. -/
def placeLines (start : Nat) : List Text → List Line
  | [] => []
  | raw :: raws =>
    let (text, terminator) := splitTerminator raw
    { text, terminator, start } ::
      placeLines (start + raw.length) raws

/- The lines of a script. -/
def Line.splitText (script : Text) : List Line :=
  placeLines 0 script.rawLines

end Script

end ScriptWorkspace
