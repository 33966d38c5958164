import ScriptWorkspace.Settings.Basic

/-
  Registries of gists.

  Main declarations:
    * `GistIds.find?_put_self`
    * `GistIds.find?_put_of_ne`
    * `GistIds.put_of_find?_eq_some`
-/

namespace ScriptWorkspace

namespace GistIds

theorem find?_put_self
    (package gistId : Text)
    (gistIds : GistIds) :
    (gistIds.put package gistId).find? package =
      some gistId := by
  induction gistIds with
  | nil => simp [put, find?]
  | cons entry gistIds ih =>
      rcases entry with ⟨name, old⟩
      by_cases hName : name = package
      · simp [put, find?, hName]
      · have hBeq : (package == name) = false :=
          beq_false_of_ne (Ne.symm hName)
        simpa [put, find?, hName, List.lookup_cons, hBeq]
          using ih

/- The gists of other packages are as they were. -/
theorem find?_put_of_ne
    {package name : Text}
    (gistId : Text)
    (gistIds : GistIds)
    (hOther : name ≠ package) :
    (gistIds.put package gistId).find? name =
      gistIds.find? name := by
  have hNew : (name == package) = false :=
    beq_false_of_ne hOther
  induction gistIds with
  | nil => simp [put, find?, List.lookup_cons, hNew]
  | cons entry gistIds ih =>
      rcases entry with ⟨first, old⟩
      by_cases hFirst : first = package
      · simp [put, find?, List.lookup_cons, hFirst, hNew]
      · simp only [find?] at ih
        simp [put, find?, hFirst, List.lookup_cons, ih]

/- Registering a gist again changes nothing. -/
theorem put_of_find?_eq_some
    {package gistId : Text}
    {gistIds : GistIds}
    (hKnown : gistIds.find? package = some gistId) :
    gistIds.put package gistId = gistIds := by
  induction gistIds with
  | nil => simp [find?] at hKnown
  | cons entry gistIds ih =>
      rcases entry with ⟨name, old⟩
      by_cases hName : name = package
      · simp_all [put, find?]
      · have hBeq : (package == name) = false :=
          beq_false_of_ne (Ne.symm hName)
        have hRest :
            GistIds.find? package gistIds = some gistId := by
          simpa only [find?, List.lookup_cons, hBeq]
            using hKnown
        simp [put, hName, ih hRest]

end GistIds

end ScriptWorkspace
