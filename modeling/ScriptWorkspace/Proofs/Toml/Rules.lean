import ScriptWorkspace.Proofs.Toml.PlainScalars
import ScriptWorkspace.Toml.Parser

/-
  What a reader has read when it succeeds.

  One rule for each reader of keys, values and statements: it
  lists the parts that were read in their order, each with
  the text that it left to the next one.

  Main declarations:
    * `Toml.readScalar_eq_of_none`
    * `Toml.readKey_eq_ok_iff`
    * `Toml.readArray_eq_ok_iff`
    * `Toml.readItems_eq_ok_iff`
    * `Toml.readMembers_eq_ok_iff`
    * `Toml.readStatements_eq_ok_iff`
-/

namespace ScriptWorkspace

namespace Toml

section Readings

variable {ε α β : Type}

/- The text begins with another character, or not at all. -/
theorem head?_ne_iff
    {c : Char}
    {text : Text} :
    text.head? ≠ some c ↔ ∀ rest, text ≠ c :: rest := by
  cases text with
  | nil => simp
  | cons d text => simp

/- Two readings in a row succeed when each of them does. -/
theorem bind_eq_ok_iff
    {first : Except ε α}
    {next : α → Except ε β}
    {found : β} :
    first >>= next = .ok found ↔
      ∃ value, first = .ok value ∧ next value = .ok found := by
  cases first with
  | error fault => simp [bind, Except.bind]
  | ok value => simp [bind, Except.bind]

/- A reading with its value replaced. -/
theorem map_eq_ok_iff
    {reading : Except ε α}
    {f : α → β}
    {found : β} :
    reading.map f = .ok found ↔
      ∃ value, reading = .ok value ∧ f value = found := by
  cases reading with
  | error fault => simp [Except.map]
  | ok value => simp [Except.map]

end Readings

------------------------------------------------------------
-- Scalars
------------------------------------------------------------

/- A scalar that is no string. -/
def plain?
    (text : Text) : Option (Except Fault Toml × Text) :=
  (word? ['t', 'r', 'u', 'e'] (.ok (.bool true)) text).or
    ((word? ['f', 'a', 'l', 's', 'e'] (.ok (.bool false))
      text).or
      ((moment? text).or (number? text)))

theorem staysOnLine_plain? : StaysOnLine plain? :=
  (staysOnLine_word? (by decide) _).or
    ((staysOnLine_word? (by decide) _).or
      (staysOnLine_moment?.or staysOnLine_number?))

theorem readScalar_eq_of_none
    {text : Text}
    (hString : readString? text = none) :
    readScalar text =
      (delivered (plain? text)).getD (.error .grammar) := by
  unfold readScalar plain? word?
  rw [hString, delivered_or, delivered_or, delivered_or,
    ← readMoment?_eq, ← readNumber?_eq]
  cases Text.stripPrefix? ['t', 'r', 'u', 'e'] text with
  | some rest => rfl
  | none =>
      cases
        Text.stripPrefix? ['f', 'a', 'l', 's', 'e'] text with
      | some rest => rfl
      | none => rfl

/- A scalar is a string, or what its line alone tells. -/
theorem readScalar_eq_ok_iff
    {text rest : Text}
    {value : Toml} :
    readScalar text = .ok (value, rest) ↔
      (∃ content,
        readString? text = some (.ok (content, rest)) ∧
          value = .string content) ∨
        readString? text = none ∧
          plain? text = some (.ok value, rest) := by
  cases hString : readString? text with
  | none =>
      rw [readScalar_eq_of_none hString]
      cases plain? text with
      | none => simp [delivered]
      | some found =>
          rcases found with ⟨outcome, after⟩
          cases outcome with
          | error fault => simp [delivered, Except.map]
          | ok found => simp [delivered, Except.map]
  | some reading =>
      unfold readScalar
      rw [hString]
      simp only [map_eq_ok_iff, Option.some.injEq]
      constructor
      · rintro ⟨⟨content, after⟩, hRead, hValue⟩
        cases hValue
        exact .inl ⟨content, hRead, rfl⟩
      · rintro (⟨content, hRead, rfl⟩ | ⟨hNone, _⟩)
        · exact ⟨(content, rest), hRead, rfl⟩
        · cases hNone

------------------------------------------------------------
-- Comments And Keys
------------------------------------------------------------

/- A comment goes up to the end of the line. -/
theorem skipComment_eq_ok_iff
    {text rest : Text} :
    skipComment ('#' :: text) = .ok rest ↔
      (text.takeWhile (· != '\n')).any isControl = false ∧
        rest = text.dropWhile (· != '\n') := by
  have hDrop :=
    drop_takeWhile_length (· != '\n') text []
  rw [List.append_nil, List.append_nil] at hDrop
  rw [skipComment, hDrop]
  cases (text.takeWhile (· != '\n')).any isControl with
  | true => simp
  | false => simp [eq_comm]

theorem skipComment_of_ne
    {text : Text}
    (hOther : text.head? ≠ some '#') :
    skipComment text = .ok text := by
  unfold skipComment
  split
  · exact absurd rfl hOther
  · rfl

theorem skipLayout_eq_ok_iff
    {fuel : Nat}
    {text rest : Text} :
    skipLayout (fuel + 1) text = .ok rest ↔
      (∃ comment after,
        text.dropWhile isSpaceOrNewline = '#' :: comment ∧
          skipComment ('#' :: comment) = .ok after ∧
          skipLayout fuel after = .ok rest) ∨
        (text.dropWhile isSpaceOrNewline).head? ≠ some '#' ∧
          text.dropWhile isSpaceOrNewline = rest := by
  rw [skipLayout]
  split
  · next comment hNext =>
    rw [bind_eq_ok_iff, hNext]
    simp
  · next hOther =>
    have hHead := head?_ne_iff.mpr hOther
    rw [Except.ok.injEq]
    constructor
    · intro hRest
      exact .inr ⟨hHead, hRest⟩
    · rintro (⟨comment, after, hNext, _⟩ | ⟨_, hRest⟩)
      · exact absurd hNext (hOther comment)
      · exact hRest

theorem readKeyName_eq_ok_iff
    {text name rest : Text} :
    readKeyName text = .ok (name, rest) ↔
      readShortString? text = some (.ok (name, rest)) ∨
        readShortString? text = none ∧
          takeSome? isBareKeyChar text = some (name, rest) := by
  unfold readKeyName takeSome?
  cases readShortString? text with
  | some reading => simp
  | none =>
      simp only
      split
      · simp
      · simp

theorem readKey_eq_ok_iff
    {fuel : Nat}
    {text rest : Text}
    {key : Key} :
    readKey (fuel + 1) text = .ok (key, rest) ↔
      ∃ name after,
        readKeyName text = .ok (name, after) ∧
          ((∃ more names,
            skipSpaces after = '.' :: more ∧
              readKey fuel (skipSpaces more) =
                .ok (names, rest) ∧
              key = name :: names) ∨
            (skipSpaces after).head? ≠ some '.' ∧
              skipSpaces after = rest ∧ key = [name]) := by
  rw [readKey, bind_eq_ok_iff]
  constructor
  · rintro ⟨⟨name, after⟩, hName, hNext⟩
    refine ⟨name, after, hName, ?_⟩
    simp only at hNext
    split at hNext
    · next more hDot =>
      rcases bind_eq_ok_iff.mp hNext with
        ⟨⟨names, last⟩, hNames, hKey⟩
      cases hKey
      exact .inl ⟨more, names, hDot, hNames, rfl⟩
    · next hOther =>
      cases hNext
      exact .inr ⟨head?_ne_iff.mpr hOther, rfl, rfl⟩
  · rintro ⟨name, after, hName, hNext⟩
    refine ⟨(name, after), hName, ?_⟩
    rcases hNext with
      ⟨more, names, hDot, hNames, rfl⟩ | ⟨hOther, hRest, rfl⟩
    · simp only [hDot]
      exact bind_eq_ok_iff.mpr ⟨(names, rest), hNames, rfl⟩
    · simp only
      split
      · next more hDot =>
        exact absurd hDot (head?_ne_iff.mp hOther more)
      · rw [hRest]
        rfl

------------------------------------------------------------
-- Values
------------------------------------------------------------

theorem readValue_of_ne
    {text : Text}
    (hArray : text.head? ≠ some '[')
    (hTable : text.head? ≠ some '\x7b')
    (fuel : Nat) :
    readValue (fuel + 1) text = readScalar text := by
  rw [readValue]
  · exact head?_ne_iff.mp hArray
  · exact head?_ne_iff.mp hTable

theorem readArray_eq_ok_iff
    {fuel : Nat}
    {text rest : Text}
    {value : Toml} :
    readValue (fuel + 1) ('[' :: text) = .ok (value, rest) ↔
      ∃ start items,
        skipLayout text.length text = .ok start ∧
          readItems fuel start = .ok (items, rest) ∧
          value = .array items := by
  rw [readValue]
  simp only
  rw [bind_eq_ok_iff]
  constructor
  · rintro ⟨start, hStart, hNext⟩
    rcases bind_eq_ok_iff.mp hNext with
      ⟨⟨items, last⟩, hItems, hValue⟩
    cases hValue
    exact ⟨start, items, hStart, hItems, rfl⟩
  · rintro ⟨start, items, hStart, hItems, rfl⟩
    refine ⟨start, hStart, ?_⟩
    exact bind_eq_ok_iff.mpr ⟨(items, rest), hItems, rfl⟩

theorem readInline_eq_ok_iff
    {fuel : Nat}
    {text rest : Text}
    {value : Toml} :
    readValue (fuel + 1) ('\x7b' :: text) =
        .ok (value, rest) ↔
      (skipSpaces text = '\x7d' :: rest ∧ value = .table []) ∨
        (skipSpaces text).head? ≠ some '\x7d' ∧
          ∃ members,
            readMembers fuel [] [] (skipSpaces text) =
                .ok (members, rest) ∧
              value = .table members := by
  rw [readValue]
  simp only
  split
  · next more hClose =>
    rw [hClose]
    constructor
    · intro hValue
      cases hValue
      exact .inl ⟨rfl, rfl⟩
    · rintro (⟨hSame, rfl⟩ | ⟨hOther, _⟩)
      · cases hSame
        rfl
      · exact absurd rfl hOther
  · next hOther =>
    rw [bind_eq_ok_iff]
    constructor
    · rintro ⟨⟨members, last⟩, hMembers, hValue⟩
      cases hValue
      exact
        .inr
          ⟨head?_ne_iff.mpr hOther, members, hMembers, rfl⟩
    · rintro (⟨hClose, _⟩ | ⟨_, members, hMembers, rfl⟩)
      · exact absurd hClose (hOther rest)
      · exact ⟨(members, rest), hMembers, rfl⟩

theorem readItems_close
    (fuel : Nat)
    (rest : Text) :
    readItems (fuel + 1) (']' :: rest) = .ok ([], rest) := by
  rw [readItems]

/- An item, with what follows it. -/
theorem readItems_eq_ok_iff
    {fuel : Nat}
    {text rest : Text}
    (hClose : text.head? ≠ some ']')
    {items : List Toml} :
    readItems (fuel + 1) text = .ok (items, rest) ↔
      ∃ item after next,
        readValue fuel text = .ok (item, after) ∧
          skipLayout after.length after = .ok next ∧
          (next = ']' :: rest ∧ items = [item] ∨
            ∃ more start others,
              next = ',' :: more ∧
                skipLayout more.length more = .ok start ∧
                readItems fuel start = .ok (others, rest) ∧
                items = item :: others) := by
  rw [readItems, bind_eq_ok_iff]
  constructor
  · rintro ⟨⟨item, after⟩, hItem, hNext⟩
    rcases bind_eq_ok_iff.mp hNext with
      ⟨next, hLayout, hNext⟩
    refine ⟨item, after, next, hItem, hLayout, ?_⟩
    simp only at hNext
    split at hNext
    · cases hNext
      exact .inl ⟨rfl, rfl⟩
    · next more =>
      rcases bind_eq_ok_iff.mp hNext with
        ⟨start, hStart, hNext⟩
      rcases bind_eq_ok_iff.mp hNext with
        ⟨⟨others, last⟩, hOthers, hItems⟩
      cases hItems
      exact
        .inr ⟨more, start, others, rfl, hStart, hOthers, rfl⟩
    · cases hNext
  · rintro ⟨item, after, next, hItem, hLayout, hNext⟩
    refine ⟨(item, after), hItem, ?_⟩
    refine bind_eq_ok_iff.mpr ⟨next, hLayout, ?_⟩
    rcases hNext with
      ⟨rfl, rfl⟩ |
        ⟨more, start, others, rfl, hStart, hOthers, rfl⟩
    · rfl
    · refine bind_eq_ok_iff.mpr ⟨start, hStart, ?_⟩
      exact bind_eq_ok_iff.mpr ⟨(others, rest), hOthers, rfl⟩
  · exact head?_ne_iff.mp hClose

/- A member, with what follows it. -/
theorem readMembers_eq_ok_iff
    {fuel : Nat}
    {complete : List Key}
    {members table : Table}
    {text rest : Text} :
    readMembers (fuel + 1) complete members text =
        .ok (table, rest) ↔
      ∃ key after value last wider,
        readWholeKey text = .ok (key, '=' :: after) ∧
          readValue fuel (skipSpaces after) =
            .ok (value, last) ∧
          insertInline? complete members key value =
            some wider ∧
          (skipSpaces last = '\x7d' :: rest ∧ table = wider ∨
            ∃ more,
              skipSpaces last = ',' :: more ∧
                readMembers fuel
                    (if value.isComposite then key :: complete
                      else complete)
                    wider (skipSpaces more) =
                  .ok (table, rest)) := by
  rw [readMembers, bind_eq_ok_iff]
  constructor
  · rintro ⟨⟨key, next⟩, hKey, hNext⟩
    simp only at hNext
    split at hNext
    · next after =>
      rcases bind_eq_ok_iff.mp hNext with
        ⟨⟨value, last⟩, hValue, hNext⟩
      simp only at hNext
      split at hNext
      · cases hNext
      · next wider hWider =>
        refine
          ⟨key, after, value, last, wider, hKey, hValue,
            hWider, ?_⟩
        split at hNext
        · next hClose =>
          cases hNext
          exact .inl ⟨hClose, rfl⟩
        · next more hComma =>
          exact .inr ⟨more, hComma, hNext⟩
        · cases hNext
    · cases hNext
  · rintro
      ⟨key, after, value, last, wider, hKey, hValue, hWider,
        hNext⟩
    refine ⟨(key, '=' :: after), hKey, ?_⟩
    refine bind_eq_ok_iff.mpr ⟨(value, last), hValue, ?_⟩
    simp only [hWider]
    rcases hNext with ⟨hClose, rfl⟩ | ⟨more, hComma, hMembers⟩
    · rw [hClose]
      rfl
    · rw [hComma]
      exact hMembers

------------------------------------------------------------
-- Statements
------------------------------------------------------------

theorem allowed_eq_ok_iff
    {step : Option Draft}
    {draft : Draft} :
    allowed step = .ok draft ↔ step = some draft := by
  cases step with
  | none => simp [allowed]
  | some found => simp [allowed]

theorem readElementHeader_eq_ok_iff
    {draft changed : Draft}
    {text rest : Text} :
    readElementHeader draft text = .ok (changed, rest) ↔
      ∃ key,
        readWholeKey (skipSpaces text) =
            .ok (key, ']' :: ']' :: rest) ∧
          draft.declareElement? key = some changed := by
  unfold readElementHeader
  rw [bind_eq_ok_iff]
  constructor
  · rintro ⟨⟨key, next⟩, hKey, hNext⟩
    rcases bind_eq_ok_iff.mp hNext with
      ⟨found, hFound, hNext⟩
    split at hNext
    · cases hNext
      exact ⟨key, hKey, allowed_eq_ok_iff.mp hFound⟩
    · cases hNext
  · rintro ⟨key, hKey, hFound⟩
    refine ⟨(key, ']' :: ']' :: rest), hKey, ?_⟩
    exact
      bind_eq_ok_iff.mpr
        ⟨changed, allowed_eq_ok_iff.mpr hFound, rfl⟩

theorem readHeader_eq_ok_iff
    {draft changed : Draft}
    {text rest : Text} :
    readHeader draft text = .ok (changed, rest) ↔
      ∃ key,
        readWholeKey (skipSpaces text) =
            .ok (key, ']' :: rest) ∧
          draft.declare? key = some changed := by
  unfold readHeader
  rw [bind_eq_ok_iff]
  constructor
  · rintro ⟨⟨key, next⟩, hKey, hNext⟩
    rcases bind_eq_ok_iff.mp hNext with
      ⟨found, hFound, hNext⟩
    split at hNext
    · cases hNext
      exact ⟨key, hKey, allowed_eq_ok_iff.mp hFound⟩
    · cases hNext
  · rintro ⟨key, hKey, hFound⟩
    refine ⟨(key, ']' :: rest), hKey, ?_⟩
    exact
      bind_eq_ok_iff.mpr
        ⟨changed, allowed_eq_ok_iff.mpr hFound, rfl⟩

theorem readAssignment_eq_ok_iff
    {draft changed : Draft}
    {text rest : Text} :
    readAssignment draft text = .ok (changed, rest) ↔
      ∃ key after value,
        readWholeKey text = .ok (key, '=' :: after) ∧
          readWholeValue (skipSpaces after) =
            .ok (value, rest) ∧
          draft.assign? key value = some changed := by
  unfold readAssignment
  rw [bind_eq_ok_iff]
  constructor
  · rintro ⟨⟨key, next⟩, hKey, hNext⟩
    simp only at hNext
    split at hNext
    · next after =>
      rcases bind_eq_ok_iff.mp hNext with
        ⟨⟨value, last⟩, hValue, hNext⟩
      rcases bind_eq_ok_iff.mp hNext with
        ⟨found, hFound, hSame⟩
      cases hSame
      exact
        ⟨key, after, value, hKey, hValue,
          allowed_eq_ok_iff.mp hFound⟩
    · cases hNext
  · rintro ⟨key, after, value, hKey, hValue, hFound⟩
    refine ⟨(key, '=' :: after), hKey, ?_⟩
    refine bind_eq_ok_iff.mpr ⟨(value, rest), hValue, ?_⟩
    exact
      bind_eq_ok_iff.mpr
        ⟨changed, allowed_eq_ok_iff.mpr hFound, rfl⟩

/- A line with its statement and its comment. -/
theorem readStatements_eq_ok_iff
    {fuel : Nat}
    {draft : Draft}
    {text : Text}
    {table : Table} :
    readStatements (fuel + 1) draft text = .ok table ↔
      ∃ changed after last,
        readStatement draft (skipSpaces text) =
            .ok (changed, after) ∧
          skipComment (skipSpaces after) = .ok last ∧
          (last = [] ∧ table = changed.members ∨
            ∃ more,
              last = '\n' :: more ∧
                readStatements fuel changed more =
                  .ok table) := by
  rw [readStatements, bind_eq_ok_iff]
  constructor
  · rintro ⟨⟨changed, after⟩, hStatement, hNext⟩
    rcases bind_eq_ok_iff.mp hNext with ⟨last, hLast, hNext⟩
    refine ⟨changed, after, last, hStatement, hLast, ?_⟩
    split at hNext
    · cases hNext
      exact .inl ⟨rfl, rfl⟩
    · next more => exact .inr ⟨more, rfl, hNext⟩
    · cases hNext
  · rintro ⟨changed, after, last, hStatement, hLast, hNext⟩
    refine ⟨(changed, after), hStatement, ?_⟩
    refine bind_eq_ok_iff.mpr ⟨last, hLast, ?_⟩
    rcases hNext with ⟨rfl, rfl⟩ | ⟨more, rfl, hMore⟩
    · rfl
    · exact hMore

end Toml

end ScriptWorkspace
