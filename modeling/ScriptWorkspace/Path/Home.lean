import ScriptWorkspace.Path.Basic

/-
  Paths below the home directory.

  Settings keep such a path with a tilde in the place of the
  home directory, so that they hold for every home. A path
  that is no text cannot be kept.

  Key definitions include:
    * `Path.compress?`
    * `Path.expand`
-/

namespace ScriptWorkspace

namespace Path

/- A text without the slashes at its end. -/
def trimSeparators (text : OsText) : OsText :=
  (text.reverse.dropWhile isSeparator).reverse

/- The text of a path with the home directory shortened. -/
def compressText
    (text : Text)
    (home : OsText) : Text :=
  let base := trimSeparators home
  let full : OsText := text
  if full = home then
    ['~']
  else if (base ++ [OsChar.char '/']).isPrefixOf full then
    '~' :: text.drop base.length
  else
    text

/- The form of a path in settings, if it is a text. -/
def compress? (path home : Path) : Option Text :=
  path.text.toText?.map fun text =>
    compressText text home.text

/- The path that a form in settings stands for. -/
def expand (text : Text) (home : Path) : Path :=
  match text with
  | ['~'] => home
  | '~' :: '/' :: rest => home.join rest
  | _ => ofText text

end Path

end ScriptWorkspace
