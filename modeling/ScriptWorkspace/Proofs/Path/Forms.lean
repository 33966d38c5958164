import ScriptWorkspace.Proofs.Path.Home

/-
  Which paths are shortened in settings.

  A path has a tilde in its form if and only if its names
  begin with those of the home directory. A directory beside
  it whose name is merely longer is kept as it is. As a form
  stands for one path only, no two paths have the same form.

  Main declarations:
    * `Path.joinNames_append`
    * `Path.isPrefixOf_text_iff`
    * `Path.head?_compressText_iff`
    * `Path.form_stands_for_path`
-/

namespace ScriptWorkspace

namespace Path

variable {names homeNames : List OsText}

------------------------------------------------------------
-- Texts Below The Home Directory
------------------------------------------------------------

/- A name is joined to others that follow it. -/
theorem joinNames_cons
    (name : OsText)
    (hNames : names ≠ []) :
    joinNames (name :: names) =
      name ++ .char '/' :: joinNames names := by
  cases names with
  | nil => exact absurd rfl hNames
  | cons next names => rfl

/- Names are joined in two parts. -/
theorem joinNames_append
    {front back : List OsText}
    (hFront : front ≠ [])
    (hBack : back ≠ []) :
    joinNames (front ++ back) =
      joinNames front ++ .char '/' :: joinNames back := by
  induction front with
  | nil => exact absurd rfl hFront
  | cons name front ih =>
      by_cases hRest : front = []
      · subst hRest
        exact joinNames_cons name hBack
      · have hBoth : front ++ back ≠ [] :=
          List.append_ne_nil_of_left_ne_nil hRest back
        rw [List.cons_append, joinNames_cons name hBoth,
          ih hRest, joinNames_cons name hRest,
          List.append_assoc, List.cons_append]

/- The text of a path from the root begins with a slash. -/
theorem text_root (names : List OsText) :
    text { anchor := .root, names } =
      .char '/' :: joinNames names :=
  rfl

/- A text goes on after a slash if names go on. -/
theorem isPrefixOf_text_iff
    (hNames : ∀ name ∈ names, IsProperName name)
    (hHome : ∀ name ∈ homeNames, IsProperName name)
    (hOther : names ≠ homeNames) :
    trimSeparators
          (text { anchor := .root, names := homeNames }) ++
        [.char '/'] <+:
        text { anchor := .root, names } ↔
      homeNames <+: names := by
  rw [trimSeparators_text hHome, text_root]
  constructor
  · rintro ⟨rest, hRest⟩
    rw [List.append_assoc, List.singleton_append] at hRest
    by_cases hEmpty : names = []
    · -- The text of the root ends with its slash.
      subst hEmpty
      split at hRest
      case isTrue hRoot => exact absurd hRoot.symm hOther
      case isFalse => simp [joinNames] at hRest
    · have hAll :=
        append_pieces_of_below hNames hHome hEmpty hRest.symm
      exact ⟨pieces rest, hAll⟩
  · rintro ⟨more, rfl⟩
    have hMore : more ≠ [] := by
      rintro rfl
      exact hOther (List.append_nil _)
    refine ⟨joinNames more, ?_⟩
    split
    case isTrue hRoot =>
      subst hRoot
      rfl
    case isFalse hRoot =>
      rw [joinNames_append hRoot hMore]
      simp

------------------------------------------------------------
-- Forms
------------------------------------------------------------

/- The form has a tilde just for what is not outside. -/
theorem head?_compressText_iff
    {path home : Path}
    {wording : Text}
    (hPath : path.IsProper)
    (hHome : home.IsProper)
    (hPathRoot : path.anchor = .root)
    (hHomeRoot : home.anchor = .root)
    (hWording : (wording : OsText) = path.text) :
    (compressText wording home.text).head? = some '~' ↔
      home.names <+: path.names := by
  rcases path with ⟨_, names⟩
  rcases home with ⟨_, homeNames⟩
  cases hPathRoot
  cases hHomeRoot
  have hSame :
      (wording : OsText) =
            text { anchor := .root, names := homeNames } ↔
        names = homeNames := by
    rw [hWording]
    constructor
    · intro hText
      have hRead := congrArg ofText hText
      rw [ofText_text hPath, ofText_text hHome] at hRead
      exact (mk.inj hRead).2
    · rintro rfl
      rfl
  simp only [compressText]
  split
  case isTrue hText =>
    obtain rfl := hSame.mp hText
    simp
  case isFalse hText =>
    have hOther : names ≠ homeNames :=
      fun hNames => hText (hSame.mpr hNames)
    have hBelow := isPrefixOf_text_iff hPath hHome hOther
    rw [← hWording, ← List.isPrefixOf_iff_prefix] at hBelow
    split
    case isTrue hPrefix => simp [hBelow.mp hPrefix]
    case isFalse hPrefix =>
      rw [text_root] at hWording
      rcases List.map_eq_cons_iff.mp hWording with
        ⟨c, tail, rfl, hSlash, _⟩
      cases hSlash
      constructor
      · intro hTilde
        cases hTilde
      · exact fun hNames => absurd (hBelow.mpr hNames) hPrefix

/-
  The form of a path stands for that path and for no other
  one. It has a tilde if and only if the path is the home
  directory or is below it.
-/
theorem form_stands_for_path
    (path home : OsText)
    (hPath : (ofText path).anchor = .root)
    (hHome : (ofText home).anchor = .root)
    (hText : (ofText path).text.toText?.isSome = true) :
    ∃ form,
      (ofText path).compress? (ofText home) = some form ∧
        expand form (ofText home) = ofText path ∧
        (form.head? = some '~' ↔
          (ofText home).names <+: (ofText path).names) ∧
        ∀ other,
          (ofText other).anchor = .root →
            (ofText other).compress? (ofText home) =
                some form →
              ofText other = ofText path := by
  have hProper := isProper_ofText path
  have hHomeProper := isProper_ofText home
  rcases Option.isSome_iff_exists.mp hText with
    ⟨wording, hWording⟩
  have hForm :
      (ofText path).compress? (ofText home) =
        some (compressText wording (ofText home).text) := by
    rw [compress?, hWording, Option.map_some]
  have hExpand :=
    expand_compress? hProper hHomeProper hPath hHome hForm
  refine ⟨_, hForm, hExpand, ?_, ?_⟩
  · exact
      head?_compressText_iff hProper hHomeProper hPath hHome
        (OsText.eq_of_toText? hWording)
  · intro other hOther hSame
    rw [← hExpand]
    exact
      (expand_compress? (isProper_ofText other) hHomeProper
        hOther hHome hSame).symm

/- The name of a directory that begins with another one. -/
theorem form_stands_for_path_beside :
    (ofText ("/home/me" : String)).anchor = .root ∧
      (ofText ("/home/me-too" : String)).anchor = .root ∧
      ∃ form,
        (ofText ("/home/me-too" : String)).compress?
              (ofText ("/home/me" : String)) =
            some form ∧
          expand form (ofText ("/home/me" : String)) =
            ofText ("/home/me-too" : String) ∧
          form.head? ≠ some '~' := by
  have hHome :
      (ofText ("/home/me" : String)).anchor = .root := by
    decide
  have hPath :
      (ofText ("/home/me-too" : String)).anchor = .root := by
    decide
  rcases form_stands_for_path ("/home/me-too" : String)
      ("/home/me" : String) hPath hHome (by decide) with
    ⟨form, hForm, hExpand, hTilde, _⟩
  have hBeside :
      ¬ (ofText ("/home/me" : String)).names <+:
          (ofText ("/home/me-too" : String)).names := by
    decide
  exact
    ⟨hHome, hPath, form, hForm, hExpand,
      fun hHead => hBeside (hTilde.mp hHead)⟩

end Path

end ScriptWorkspace
