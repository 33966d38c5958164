import ScriptWorkspace.Path.Home
import ScriptWorkspace.Proofs.Path.Spelling

/-
  Forms of paths in settings.

  The form of a path stands for that path again. A text below
  the one of the home directory differs from it by a slash,
  so the names after that slash are the other names of the
  path, and they do not begin anew at the root.

  Main declarations:
    * `Path.pieces_joinNames_append`
    * `Path.join_of_below`
    * `Path.expand_compressText`
    * `Path.expand_compress?`
-/

namespace ScriptWorkspace

namespace Path

------------------------------------------------------------
-- Texts Below A Directory
------------------------------------------------------------

/- The first pieces end where joined names do. -/
theorem pieces_joinNames_append
    {names : List OsText}
    (rest : OsText)
    (hNames : ∀ name ∈ names, IsProperName name)
    (hNonempty : names ≠ []) :
    pieces (joinNames names ++ .char '/' :: rest) =
      names ++ pieces rest := by
  induction names with
  | nil => exact absurd rfl hNonempty
  | cons name names ih =>
      rcases List.forall_mem_cons.mp hNames with
        ⟨hName, hRest⟩
      cases names with
      | nil => exact pieces_append_separator rest hName.2
      | cons next names =>
          have hNext : next :: names ≠ [] :=
            List.cons_ne_nil _ _
          rw [joinNames, List.append_assoc, List.cons_append,
            pieces_append_separator _ hName.2,
            ih hRest hNext]
          · rfl
          · exact hNext

/- A text of proper pieces stands for a path from elsewhere. -/
theorem anchorOf_of_pieces
    {text : OsText}
    (hPieces : ∀ piece ∈ pieces text, IsProperName piece) :
    anchorOf text = .relative := by
  cases text with
  | nil => rfl
  | cons unit rest =>
      have hUnit : isSeparator unit = false := by
        cases hSlash : isSeparator unit with
        | false => rfl
        | true =>
            have hMem : [] ∈ pieces (unit :: rest) := by
              rw [pieces, if_pos hSlash]
              exact List.mem_cons_self
            cases (hPieces [] hMem).1
      rw [anchorOf, List.takeWhile_cons_of_neg (by simp [hUnit])]
      rfl

theorem ofText_of_pieces
    {text : OsText}
    (hPieces : ∀ piece ∈ pieces text, IsProperName piece) :
    ofText text =
      { anchor := .relative
        names := pieces text } := by
  have hNames : (pieces text).filter isName = pieces text :=
    List.filter_eq_self.mpr fun piece hMem =>
      (hPieces piece hMem).1
  rw [ofText, anchorOf_of_pieces hPieces, hNames]

/- Names that are joined end in a unit that is no slash. -/
theorem exists_joinNames_eq_concat
    {names : List OsText}
    (hNames : ∀ name ∈ names, IsProperName name)
    (hNonempty : names ≠ []) :
    ∃ front unit,
      joinNames names = front ++ [unit] ∧
        isSeparator unit = false := by
  induction names with
  | nil => exact absurd rfl hNonempty
  | cons name names ih =>
      rcases List.forall_mem_cons.mp hNames with
        ⟨hName, hRest⟩
      cases names with
      | nil =>
          rcases List.eq_nil_or_concat name with
            rfl | ⟨front, unit, rfl⟩
          · cases hName.1
          · exact
              ⟨front, unit, by simp [joinNames],
                hName.2 unit (by simp)⟩
      | cons next names =>
          rcases ih hRest (List.cons_ne_nil _ _) with
            ⟨front, unit, hFront, hUnit⟩
          refine
            ⟨name ++ .char '/' :: front, unit, ?_, hUnit⟩
          rw [joinNames, hFront]
          · simp
          · exact List.cons_ne_nil _ _

/- The text of a directory ends in a slash at the root only. -/
theorem trimSeparators_text
    {names : List OsText}
    (hNames : ∀ name ∈ names, IsProperName name) :
    trimSeparators (text { anchor := .root, names }) =
      if names = [] then []
      else .char '/' :: joinNames names := by
  by_cases hEmpty : names = []
  · subst hEmpty
    rfl
  · rcases exists_joinNames_eq_concat hNames hEmpty with
      ⟨front, unit, hFront, hUnit⟩
    simp [text, Anchor.text, trimSeparators, hEmpty, hFront,
      hUnit]

------------------------------------------------------------
-- Reading A Form
------------------------------------------------------------

/- The names of a path below another one go on from it. -/
theorem append_pieces_of_below
    {names homeNames : List OsText}
    {rest : OsText}
    (hNames : ∀ name ∈ names, IsProperName name)
    (hHome : ∀ name ∈ homeNames, IsProperName name)
    (hNonempty : names ≠ [])
    (hBelow :
      .char '/' :: joinNames names =
        (if homeNames = [] then []
          else .char '/' :: joinNames homeNames) ++
          .char '/' :: rest) :
    homeNames ++ pieces rest = names := by
  by_cases hRoot : homeNames = []
  · rw [if_pos hRoot, List.nil_append,
      List.cons.injEq] at hBelow
    rw [hRoot, ← hBelow.2, pieces_joinNames hNames hNonempty,
      List.nil_append]
  · rw [if_neg hRoot, List.cons_append,
      List.cons.injEq] at hBelow
    rw [← pieces_joinNames_append rest hHome hRoot,
      ← hBelow.2, pieces_joinNames hNames hNonempty]

/- A path below the home directory is found from there. -/
theorem join_of_below
    {names homeNames : List OsText}
    {rest : OsText}
    (hNames : ∀ name ∈ names, IsProperName name)
    (hHome : ∀ name ∈ homeNames, IsProperName name)
    (hBelow :
      text { anchor := .root, names } =
        trimSeparators
            (text { anchor := .root, names := homeNames }) ++
          .char '/' :: rest) :
    join { anchor := .root, names := homeNames } rest =
      { anchor := .root, names } := by
  rw [trimSeparators_text hHome] at hBelow
  by_cases hEmpty : names = []
  · -- The root is below itself only.
    subst hEmpty
    by_cases hRoot : homeNames = []
    · subst hRoot
      have hRest : rest = [] := by
        simpa [text, Anchor.text, joinNames] using hBelow
      rw [hRest]
      rfl
    · simp [text, Anchor.text, joinNames, hRoot] at hBelow
  · have hAll :=
      append_pieces_of_below hNames hHome hEmpty hBelow
    have hRest :
        ∀ piece ∈ pieces rest, IsProperName piece := by
      intro piece hMem
      rw [← hAll] at hNames
      exact hNames piece (List.mem_append_right _ hMem)
    rw [join, ofText_of_pieces hRest, append,
      if_neg (by simp [isAbsolute]), hAll]

/- A tilde and a slash stand for the home directory. -/
theorem expand_tilde
    {wording : Text}
    {front rest : OsText}
    (home : Path)
    (hWording :
      (wording : OsText) = front ++ .char '/' :: rest) :
    expand ('~' :: wording.drop front.length) home =
      home.join rest := by
  have hDrop :
      ((wording.drop front.length : Text) : OsText) =
        .char '/' :: rest := by
    rw [List.map_drop, hWording, List.drop_left]
  rcases List.map_eq_cons_iff.mp hDrop with
    ⟨c, tail, hTail, hSlash, rfl⟩
  cases hSlash
  rw [hTail]
  rfl

/- A text that begins with a slash stands for itself. -/
theorem expand_of_slash
    {wording : Text}
    {rest : OsText}
    (home : Path)
    (hWording : (wording : OsText) = .char '/' :: rest) :
    expand wording home = ofText wording := by
  rcases List.map_eq_cons_iff.mp hWording with
    ⟨c, tail, rfl, hSlash, _⟩
  cases hSlash
  rfl

/- The form of a path in settings stands for that path. -/
theorem expand_compressText
    {path home : Path}
    {wording : Text}
    (hPath : path.IsProper)
    (hHome : home.IsProper)
    (hPathRoot : path.anchor = .root)
    (hHomeRoot : home.anchor = .root)
    (hWording : (wording : OsText) = path.text) :
    expand (compressText wording home.text) home = path := by
  rcases path with ⟨_, names⟩
  rcases home with ⟨_, homeNames⟩
  cases hPathRoot
  cases hHomeRoot
  simp only [compressText]
  split
  case isTrue hSame =>
    rw [hWording] at hSame
    rw [← ofText_text hPath, hSame, ofText_text hHome]
    rfl
  case isFalse hOther =>
    split
    case isTrue hBelow =>
      rcases List.isPrefixOf_iff_prefix.mp hBelow with
        ⟨rest, hRest⟩
      rw [List.append_assoc, List.singleton_append] at hRest
      rw [expand_tilde _ hRest.symm]
      exact
        join_of_below hPath hHome (hWording.symm.trans hRest.symm)
    case isFalse hOutside =>
      rw [expand_of_slash _ hWording, hWording,
        ofText_text hPath]

theorem expand_compress?
    {path home : Path}
    {form : Text}
    (hPath : path.IsProper)
    (hHome : home.IsProper)
    (hPathRoot : path.anchor = .root)
    (hHomeRoot : home.anchor = .root)
    (hForm : path.compress? home = some form) :
    expand form home = path := by
  rcases Option.map_eq_some_iff.mp hForm with
    ⟨wording, hWording, rfl⟩
  exact
    expand_compressText hPath hHome hPathRoot hHomeRoot
      (OsText.eq_of_toText? hWording)

end Path

end ScriptWorkspace
