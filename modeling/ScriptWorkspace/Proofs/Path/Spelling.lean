import ScriptWorkspace.Proofs.Gist.Stored

/-
  Paths as texts.

  A path that a text stands for is read back from its own
  text. What leads to it from a directory above is a path
  again, and following that from the directory gives the path.

  Main declarations:
    * `Path.IsProper`
    * `Path.isProper_ofText`
    * `Path.ofText_text`
    * `Path.join_relativeTo?`
    * `OsText.eq_of_toText?`
-/

namespace ScriptWorkspace

------------------------------------------------------------
-- Texts
------------------------------------------------------------

/- A system text that is a text is that text. -/
theorem OsText.eq_of_toText?
    {wording : OsText}
    {text : Text}
    (hText : wording.toText? = some text) :
    (text : OsText) = wording := by
  induction wording generalizing text with
  | nil =>
      cases hText
      rfl
  | cons unit rest ih =>
      cases unit with
      | byte b => cases hText
      | char c =>
          rcases Option.map_eq_some_iff.mp hText with
            ⟨tail, hTail, rfl⟩
          rw [List.map_cons, ih hTail]

/- Texts are told apart as system texts. -/
theorem OsText.eq_of_texts
    {text other : Text}
    (hSame : (text : OsText) = other) :
    text = other :=
  List.map_injective_iff.mpr
    (fun _ _ hChar => OsChar.char.inj hChar) hSame

namespace Path

------------------------------------------------------------
-- Names
------------------------------------------------------------

/- The piece is a name, and it is one piece. -/
def IsProperName (name : OsText) : Prop :=
  isName name = true ∧
    ∀ unit ∈ name, isSeparator unit = false

/- All names of a path are what a text can spell. -/
def IsProper (path : Path) : Prop :=
  ∀ name ∈ path.names, IsProperName name

/- No piece of a text has a slash in it. -/
theorem isSeparator_of_mem_pieces
    {text piece : OsText}
    (hPiece : piece ∈ pieces text) :
    ∀ unit ∈ piece, isSeparator unit = false := by
  induction text generalizing piece with
  | nil =>
      cases List.mem_singleton.mp hPiece
      exact List.forall_mem_nil _
  | cons unit rest ih =>
      rw [pieces] at hPiece
      split at hPiece
      case isTrue hUnit =>
        rcases List.mem_cons.mp hPiece with rfl | hRest
        · exact List.forall_mem_nil _
        · exact ih hRest
      case isFalse hUnit =>
        have hFirst : isSeparator unit = false := by
          simpa using hUnit
        cases hPieces : pieces rest with
        | nil =>
            rw [hPieces] at hPiece
            cases List.mem_singleton.mp hPiece
            simpa using hFirst
        | cons first more =>
            rw [hPieces] at hPiece ih
            rcases List.mem_cons.mp hPiece with rfl | hMore
            · refine List.forall_mem_cons.mpr ⟨hFirst, ?_⟩
              exact ih List.mem_cons_self
            · exact ih (List.mem_cons_of_mem _ hMore)

/- Every text stands for a proper path. -/
theorem isProper_ofText (text : OsText) :
    (ofText text).IsProper := by
  intro name hMem
  rcases List.mem_filter.mp hMem with ⟨hPiece, hName⟩
  exact ⟨hName, isSeparator_of_mem_pieces hPiece⟩

------------------------------------------------------------
-- Reading Back
------------------------------------------------------------

/- The first piece ends at the first slash. -/
theorem pieces_append_separator
    {name : OsText}
    (rest : OsText)
    (hName : ∀ unit ∈ name, isSeparator unit = false) :
    pieces (name ++ .char '/' :: rest) =
      name :: pieces rest := by
  induction name with
  | nil => rfl
  | cons unit name ih =>
      rcases List.forall_mem_cons.mp hName with
        ⟨hUnit, hRest⟩
      rw [List.cons_append, pieces, hUnit, ih hRest]
      rfl

/- Names are the pieces of what they are joined to. -/
theorem pieces_joinNames
    {names : List OsText}
    (hNames : ∀ name ∈ names, IsProperName name)
    (hNonempty : names ≠ []) :
    pieces (joinNames names) = names := by
  induction names with
  | nil => exact absurd rfl hNonempty
  | cons name names ih =>
      rcases List.forall_mem_cons.mp hNames with
        ⟨hName, hRest⟩
      cases names with
      | nil => exact pieces_of_no_separator hName.2
      | cons next names =>
          have hNext : next :: names ≠ [] :=
            List.cons_ne_nil _ _
          rw [joinNames, pieces_append_separator _ hName.2,
            ih hRest hNext]
          exact hNext

theorem filter_isName_pieces_joinNames
    {names : List OsText}
    (hNames : ∀ name ∈ names, IsProperName name) :
    (pieces (joinNames names)).filter isName = names := by
  cases names with
  | nil => rfl
  | cons name names =>
      rw [pieces_joinNames hNames (List.cons_ne_nil _ _)]
      exact
        List.filter_eq_self.mpr fun other hMem =>
          (hNames other hMem).1

/- Names that are joined do not begin with a slash. -/
theorem takeWhile_joinNames
    {names : List OsText}
    (hNames : ∀ name ∈ names, IsProperName name) :
    (joinNames names).takeWhile isSeparator = [] := by
  cases names with
  | nil => rfl
  | cons name names =>
      rcases hNames name List.mem_cons_self with
        ⟨hName, hUnits⟩
      cases name with
      | nil => cases hName
      | cons unit name =>
          have hUnit := hUnits unit List.mem_cons_self
          cases names with
          | nil => simp [joinNames, hUnit]
          | cons next names => simp [joinNames, hUnit]

/- A path is what its text stands for. -/
theorem ofText_text
    {path : Path}
    (hPath : path.IsProper) :
    ofText path.text = path := by
  rcases path with ⟨anchor, names⟩
  have hNames := filter_isName_pieces_joinNames hPath
  have hStart := takeWhile_joinNames hPath
  have hSlash : isSeparator (.char '/') = true := rfl
  have hDropped : isName [] = false := rfl
  cases anchor with
  | relative =>
      cases names with
      | nil => rfl
      | cons name names =>
          simp [ofText, text, anchorOf, Anchor.text, hStart,
            hNames]
  | root =>
      simp [ofText, text, anchorOf, Anchor.text, pieces,
        hSlash, hDropped, hStart, hNames]
  | doubleRoot =>
      simp [ofText, text, anchorOf, Anchor.text, pieces,
        hSlash, hDropped, hStart, hNames]

/-
  An absolute path is found again from any other one by what
  leads from that one to it, or else by the whole of it.
-/
theorem join_relativeTo?
    (base : Path)
    {path : Path}
    (hPath : path.IsProper)
    (hAbsolute : path.isAbsolute = true) :
    base.join ((path.relativeTo? base).getD path).text =
      path := by
  unfold join
  cases hBelow : path.relativeTo? base with
  | none =>
      rw [Option.getD_none, ofText_text hPath, append,
        if_pos hAbsolute]
  | some entry =>
      unfold relativeTo? at hBelow
      split at hBelow
      case isFalse => cases hBelow
      case isTrue hBase =>
        cases hBelow
        rw [Bool.and_eq_true, decide_eq_true_iff,
          List.isPrefixOf_iff_prefix] at hBase
        rcases hBase with ⟨hAnchor, rest, hRest⟩
        have hEntry :
            IsProper
              { anchor := .relative
                names := path.names.drop base.names.length } :=
          fun name hMem =>
            hPath name (List.mem_of_mem_drop hMem)
        rw [Option.getD_some, ofText_text hEntry, append,
          if_neg (by simp [isAbsolute])]
        rw [← hRest, List.drop_left, hRest, ← hAnchor]

/- What leads to a path below another one is relative. -/
theorem isProper_of_relativeTo?
    {base path entry : Path}
    (hPath : path.IsProper)
    (hBelow : path.relativeTo? base = some entry) :
    entry.IsProper ∧ entry.isAbsolute = false := by
  unfold relativeTo? at hBelow
  split at hBelow
  case isFalse => cases hBelow
  case isTrue =>
    cases hBelow
    exact
      ⟨fun name hMem => hPath name (List.mem_of_mem_drop hMem),
        rfl⟩

/- What leads to a path that is followed from another one. -/
theorem relativeTo?_append
    (base : Path)
    {path : Path}
    (hRelative : path.isAbsolute = false) :
    (base.append path).relativeTo? base = some path := by
  rcases path with ⟨anchor, names⟩
  have hAnchor : anchor = .relative := by
    simpa [isAbsolute] using hRelative
  subst hAnchor
  simp [append, isAbsolute, relativeTo?]

end Path

end ScriptWorkspace
