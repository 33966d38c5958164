import ScriptWorkspace.Proofs.Toml.Members
import ScriptWorkspace.Proofs.Toml.Rules
import ScriptWorkspace.Toml.Layout.Document

/-
  Documents as they are read.

  In a document that was read, two entries share a name only
  if both are tables, and the keys of an inline table do not
  clash. So what is found by a name in the document is the
  value that the name has in the table of the document.

  Main declarations:
    * `Layout.IsOrderly`
    * `Layout.isOrderly_readBody`
    * `Layout.isOrderly_appendEntry`
    * `Layout.isOrderly_parse`
-/

namespace ScriptWorkspace

namespace Toml

namespace Layout

------------------------------------------------------------
-- Order
------------------------------------------------------------

/- Entries of these shapes share a name only as tables. -/
def ShapesFit (left right : Option Text × Bool) : Prop :=
  ∀ name, left.1 = some name → right.1 = some name →
    left.2 = true ∧ right.2 = true

/- The keys of a value that is an inline table are apart. -/
def Value.IsApart : Value → Prop
  | .cell _ => True
  | .inline members => members.Pairwise Member.IsApart

/- The keys of an entry that is an inline table are apart. -/
def Entry.IsApart : Entry → Prop
  | .pair _ _ value _ => value.IsApart
  | _ => True

/- No name is used twice, unless for parts of one table. -/
structure IsOrderly (body : List Entry) : Prop where
  shapes : (body.map Entry.shape).Pairwise ShapesFit
  apart : ∀ entry ∈ body, entry.IsApart

theorem isOrderly_nil : IsOrderly [] :=
  { shapes := .nil, apart := List.forall_mem_nil _ }

/- Entries of the same shapes are as orderly. -/
theorem IsOrderly.of_shapes
    {body after : List Entry}
    (hBody : IsOrderly body)
    (hShapes : after.map Entry.shape = body.map Entry.shape)
    (hApart : ∀ entry ∈ after, entry.IsApart) :
    IsOrderly after where
  shapes := by
    rw [hShapes]
    exact hBody.shapes
  apart := hApart

/- An entry that comes after others of an orderly body. -/
theorem IsOrderly.concat
    {body : List Entry}
    {entry : Entry}
    (hBody : IsOrderly body)
    (hEntry : entry.IsApart)
    (hFits :
      ∀ other ∈ body, ShapesFit other.shape entry.shape) :
    IsOrderly (body ++ [entry]) where
  shapes := by
    rw [List.map_append, List.pairwise_append]
    refine
      ⟨hBody.shapes, List.pairwise_singleton _ _, ?_⟩
    intro left hLeft right hRight
    rcases List.mem_map.mp hLeft with ⟨other, hOther, rfl⟩
    rw [List.map_singleton, List.mem_singleton] at hRight
    rw [hRight]
    exact hFits other hOther
  apart := by
    intro other hMem
    rcases List.mem_append.mp hMem with hIn | hIn
    · exact hBody.apart other hIn
    · rw [List.mem_singleton.mp hIn]
      exact hEntry

/- An entry before others of an orderly body. -/
theorem IsOrderly.cons
    {body : List Entry}
    {entry : Entry}
    (hBody : IsOrderly body)
    (hEntry : entry.IsApart)
    (hFits :
      ∀ other ∈ body, ShapesFit entry.shape other.shape) :
    IsOrderly (entry :: body) where
  shapes := by
    refine List.pairwise_cons.mpr ⟨?_, hBody.shapes⟩
    intro right hRight
    rcases List.mem_map.mp hRight with ⟨other, hOther, rfl⟩
    exact hFits other hOther
  apart := List.forall_mem_cons.mpr ⟨hEntry, hBody.apart⟩

/- Entries without a name fit everything. -/
theorem shapesFit_of_name?_eq_none
    {left right : Entry}
    (hNone : left.name? = none ∨ right.name? = none) :
    ShapesFit left.shape right.shape := by
  intro name hLeft hRight
  rcases hNone with hNone | hNone
  · rw [Entry.shape, hNone] at hLeft
    cases hLeft
  · rw [Entry.shape, hNone] at hRight
    cases hRight

------------------------------------------------------------
-- Bodies
------------------------------------------------------------

/- A statement with an inline table whose keys are apart. -/
def Statement.IsApart : Statement → Prop
  | .pair _ _ value _ => value.IsApart
  | _ => True

/- An entry of the first name of a key is a table inside it. -/
def Entry.Avoids (key : List Label) (entry : Entry) : Prop :=
  ∀ first more, key = first :: more →
    entry.name? = some first.name →
      entry.isOneTable = true ∧ more ≠ []

theorem name?_pairEntry
    (separator : Text)
    (value : Value)
    (margin : Margin)
    (label : Label)
    (labels : List Label) :
    (pairEntry separator value margin label labels).name? =
      some label.name := by
  cases labels <;> rfl

theorem isApart_pairEntry
    (separator : Text)
    {value : Value}
    (margin : Margin)
    (label : Label)
    (labels : List Label)
    (hValue : value.IsApart) :
    (pairEntry separator value margin label
      labels).IsApart := by
  cases labels with
  | nil => exact hValue
  | cons next labels => trivial

theorem isOneTable_pairEntry
    (separator : Text)
    (value : Value)
    (margin : Margin)
    (label : Label)
    {labels : List Label}
    (hLabels : labels ≠ []) :
    (pairEntry separator value margin label
        labels).isOneTable =
      true := by
  cases labels with
  | nil => exact absurd rfl hLabels
  | cons next labels => rfl

/- Keys that begin with one name clash unless both go on. -/
theorem ne_nil_of_not_keysClash
    {first label : Label}
    {more labels : List Label}
    (hName : first.name = label.name)
    (hClash :
      keysClash (first :: more) (label :: labels) = false) :
    more ≠ [] ∧ labels ≠ [] := by
  constructor
  · rintro rfl
    simp [keysClash, hName] at hClash
  · rintro rfl
    simp [keysClash, hName] at hClash

/- An entry of a pair avoids the keys that came before. -/
theorem avoids_pairEntry
    (separator : Text)
    (value : Value)
    (margin : Margin)
    {key : List Label}
    {label : Label}
    {labels : List Label}
    (hClash : keysClash key (label :: labels) = false) :
    (pairEntry separator value margin label
      labels).Avoids key := by
  rintro first more rfl hName
  rw [name?_pairEntry, Option.some.injEq] at hName
  rcases ne_nil_of_not_keysClash hName.symm hClash with
    ⟨hMore, hLabels⟩
  exact
    ⟨isOneTable_pairEntry separator value margin label
      hLabels, hMore⟩

/- An orderly body that keys before it do not clash with. -/
structure IsOrderlyAfter
    (keys : List (List Label))
    (entries : List Entry) : Prop where
  orderly : IsOrderly entries
  avoids :
    ∀ key ∈ keys, ∀ entry ∈ entries, entry.Avoids key

theorem isOrderlyAfter_nil (keys : List (List Label)) :
    IsOrderlyAfter keys [] where
  orderly := isOrderly_nil
  avoids _ _ := List.forall_mem_nil _

/- An entry without a name clashes with nothing. -/
theorem IsOrderlyAfter.cons_unnamed
    {keys : List (List Label)}
    {entries : List Entry}
    {entry : Entry}
    (hAfter : IsOrderlyAfter keys entries)
    (hEntry : entry.IsApart)
    (hName : entry.name? = none) :
    IsOrderlyAfter keys (entry :: entries) where
  orderly :=
    hAfter.orderly.cons hEntry fun _ _ =>
      shapesFit_of_name?_eq_none (.inl hName)
  avoids := by
    intro key hKey
    refine
      List.forall_mem_cons.mpr ⟨?_, hAfter.avoids key hKey⟩
    intro first more _ hSome
    rw [hName] at hSome
    cases hSome

/- A pair whose key was one of those before the body. -/
theorem IsOrderlyAfter.cons_pair
    {keys : List (List Label)}
    {entries : List Entry}
    {label : Label}
    {labels : List Label}
    {value : Value}
    (separator : Text)
    (margin : Margin)
    (hAfter :
      IsOrderlyAfter ((label :: labels) :: keys) entries)
    (hValue : value.IsApart)
    (hClash :
      ∀ key ∈ keys,
        keysClash key (label :: labels) = false) :
    IsOrderlyAfter keys
      (pairEntry separator value margin label labels ::
        entries) := by
  rcases List.forall_mem_cons.mp hAfter.avoids with
    ⟨hOwn, hEarlier⟩
  constructor
  case orderly =>
    refine
      hAfter.orderly.cons
        (isApart_pairEntry separator margin label labels
          hValue) fun other hMem => ?_
    intro name hLeft hRight
    rw [Entry.shape, name?_pairEntry,
      Option.some.injEq] at hLeft
    subst hLeft
    rcases hOwn other hMem label labels rfl hRight with
      ⟨hTable, hLabels⟩
    exact
      ⟨isOneTable_pairEntry separator value margin label
        hLabels, hTable⟩
  case avoids =>
    intro key hKey
    refine List.forall_mem_cons.mpr ⟨?_, hEarlier key hKey⟩
    exact
      avoids_pairEntry separator value margin
        (hClash key hKey)

/- The pairs of a body do not clash with each other. -/
theorem isOrderly_readBody
    {fault : Clash → LayoutFault}
    {keys : List (List Label)}
    {statements rest : List Statement}
    {entries : List Entry}
    (hApart :
      ∀ statement ∈ statements, statement.IsApart)
    (hRead :
      readBody fault keys statements = .ok (entries, rest)) :
    IsOrderlyAfter keys entries := by
  induction statements generalizing keys entries rest with
  | nil =>
      cases hRead
      exact isOrderlyAfter_nil keys
  | cons statement statements ih =>
      rcases List.forall_mem_cons.mp hApart with
        ⟨hFirst, hRest⟩
      cases statement with
      | blank text =>
          rcases bind_eq_ok_iff.mp hRead with
            ⟨⟨others, left⟩, hOthers, hSame⟩
          cases hSame
          exact (ih hRest hOthers).cons_unnamed trivial rfl
      | comment margin =>
          rcases bind_eq_ok_iff.mp hRead with
            ⟨⟨others, left⟩, hOthers, hSame⟩
          cases hSame
          exact (ih hRest hOthers).cons_unnamed trivial rfl
      | header isElement labels margin =>
          cases hRead
          exact isOrderlyAfter_nil keys
      | broken found => cases hRead
      | pair labels separator value margin =>
          rw [readBody] at hRead
          split at hRead
          case isTrue => cases hRead
          case isFalse hNoClash =>
            have hClash :
                ∀ key ∈ keys, keysClash key labels = false := by
              simpa using hNoClash
            rcases bind_eq_ok_iff.mp hRead with
              ⟨⟨others, left⟩, hOthers, hSame⟩
            have hAfter := ih hRest hOthers
            cases labels with
            | nil =>
                cases hSame
                rcases List.forall_mem_cons.mp
                    hAfter.avoids with
                  ⟨_, hEarlier⟩
                exact ⟨hAfter.orderly, hEarlier⟩
            | cons label labels =>
                cases hSame
                exact
                  hAfter.cons_pair separator margin hFirst
                    hClash

------------------------------------------------------------
-- Tables After Bodies
------------------------------------------------------------

/- A body in which the last entry of a name is changed. -/
theorem mapLast_cases
    (name : Text)
    (change : Entry → Entry)
    (body : List Entry) :
    mapLast name change body = body ∨
      ∃ before entry after,
        body = before ++ entry :: after ∧
          mapLast name change body =
            before ++ change entry :: after := by
  unfold mapLast
  simp only [drop_length_takeWhile]
  split
  case h_1 => exact .inl rfl
  case h_2 entry earlier hDrop =>
    refine .inr ⟨_, entry, _, ?_, rfl⟩
    have hBody :=
      List.takeWhile_append_dropWhile
        (l := body.reverse)
        (p := fun entry => !entry.isNamed name)
    rw [hDrop] at hBody
    simpa using (congrArg List.reverse hBody).symm

theorem IsOrderly.mapLast
    {body : List Entry}
    {change : Entry → Entry}
    (hBody : IsOrderly body)
    (name : Text)
    (hShape : ∀ entry, (change entry).shape = entry.shape)
    (hApart :
      ∀ entry, entry.IsApart → (change entry).IsApart) :
    IsOrderly (mapLast name change body) := by
  rcases mapLast_cases name change body with
    hSame | ⟨before, entry, after, rfl, hSame⟩
  · rwa [hSame]
  · rw [hSame]
    refine hBody.of_shapes (by simp [hShape]) ?_
    intro other hMem
    rcases List.mem_append.mp hMem with hIn | hIn
    · exact hBody.apart other (List.mem_append_left _ hIn)
    · rcases List.mem_cons.mp hIn with rfl | hIn
      · exact hApart entry (hBody.apart entry (by simp))
      · refine hBody.apart other ?_
        exact
          List.mem_append_right _ (List.mem_cons_of_mem _ hIn)

/- Entries of the name of a last table are tables. -/
theorem IsOrderly.isOneTable_of_last
    {name : Text}
    {body : List Entry}
    {last : Entry}
    (hBody : IsOrderly body)
    (hLast : lastNamed? name body = some last)
    (hTable : last.isOneTable = true) :
    ∀ entry ∈ body,
      entry.isNamed name = true → entry.isOneTable = true := by
  intro entry hMem hNamed
  rcases lastNamed?_eq_some_iff.mp hLast with
    ⟨hName, before, after, rfl, hAfter⟩
  rcases List.mem_append.mp hMem with hIn | hIn
  · have hPair := List.pairwise_map.mp hBody.shapes
    have hAcross :=
      (List.pairwise_append.mp hPair).2.2 entry hIn last
        List.mem_cons_self
    exact
      (hAcross name (Entry.isNamed_iff.mp hNamed)
        (Entry.isNamed_iff.mp hName)).1
  · rcases List.mem_cons.mp hIn with rfl | hIn
    · exact hTable
    · rw [hAfter entry hIn] at hNamed
      cases hNamed

/- An entry of a new name fits all others. -/
theorem shapesFit_of_lastNamed?_eq_none
    {body : List Entry}
    {entry : Entry}
    {name : Text}
    (hName : entry.name? = some name)
    (hNone : lastNamed? name body = none) :
    ∀ other ∈ body, ShapesFit other.shape entry.shape := by
  intro other hMem found hLeft hRight
  rw [Entry.shape, hName, Option.some.injEq] at hRight
  have hOther := lastNamed?_eq_none_iff.mp hNone other hMem
  rw [hRight, Entry.isNamed_iff.mpr hLeft] at hOther
  cases hOther

/- A check that succeeds gives back what was checked. -/
theorem checked_eq_ok
    {checks : Checks}
    {scrutiny : Scrutiny}
    {implied : Bool}
    {name : Text}
    {body after : List Entry}
    (hChecked :
      checked checks scrutiny implied name body = .ok after) :
    after = body := by
  have hJoin
      (hFound :
        (if scrutiny = .everything then do
            checks.joining name body
            return body
          else
            return body : Except Clash (List Entry)) =
          .ok after) :
      after = body := by
    split at hFound
    case isTrue =>
      rcases bind_eq_ok_iff.mp hFound with ⟨_, _, hSame⟩
      cases hSame
      rfl
    case isFalse =>
      cases hFound
      rfl
  simp only [checked] at hChecked
  split at hChecked
  case isTrue =>
    rcases bind_eq_ok_iff.mp hChecked with ⟨_, _, hNext⟩
    exact hJoin hNext
  case isFalse => exact hJoin hChecked

/- An entry without a name comes last. -/
theorem IsOrderly.concat_unnamed
    {body : List Entry}
    {entry : Entry}
    (hBody : IsOrderly body)
    (hEntry : entry.IsApart)
    (hName : entry.name? = none) :
    IsOrderly (body ++ [entry]) :=
  hBody.concat hEntry fun _ _ =>
    shapesFit_of_name?_eq_none (.inr hName)

/- An entry with a new name comes last. -/
theorem IsOrderly.concat_new
    {body : List Entry}
    {entry : Entry}
    {name : Text}
    (hBody : IsOrderly body)
    (hEntry : entry.IsApart)
    (hName : entry.name? = some name)
    (hNone : lastNamed? name body = none) :
    IsOrderly (body ++ [entry]) :=
  hBody.concat hEntry
    (shapesFit_of_lastNamed?_eq_none hName hNone)

/- A table with other entries in it. -/
def Entry.withBody (body : List Entry) : Entry → Entry
  | .table label kind heading _ =>
    .table label kind heading body
  | entry => entry

/-
  A table that goes into a body comes last, where all others
  of its name are tables, or it is merged with the last.
-/
theorem appendTable_cases
    {checks : Checks}
    {scrutiny : Scrutiny}
    {body inner after : List Entry}
    {label : Label}
    {kind : TableKind}
    {heading : Heading}
    (hAppend :
      appendWith checks scrutiny body
          (.table label kind heading inner) =
        .ok after) :
    (∀ last,
        lastNamed? label.name body = some last →
          last.isOneTable = true) ∧
      (after = body ++ [.table label kind heading inner] ∨
        ∃ merged,
          after =
            mapLast label.name (Entry.withBody merged)
              body) := by
  rw [appendWith] at hAppend
  split at hAppend
  case h_1 hNone =>
    cases hAppend
    exact ⟨by simp [hNone], .inl rfl⟩
  case h_2 old current currentHeading currentBody hLast =>
    have hTable :
        ∀ last,
          lastNamed? label.name body = some last →
            last.isOneTable = true := by
      rw [hLast]
      rintro _ ⟨⟩
      rfl
    refine ⟨hTable, ?_⟩
    have hChecked
        {implied : Bool}
        (hFound :
          checked checks scrutiny implied label.name
              (body ++ [.table label kind heading inner]) =
            .ok after) :
        after = body ++ [.table label kind heading inner] :=
      checked_eq_ok hFound
    split at hAppend
    case isTrue =>
      split at hAppend
      case isTrue => cases hAppend
      case isFalse => exact .inl (hChecked hAppend)
    case isFalse =>
      split at hAppend
      case isTrue =>
        split at hAppend
        case isTrue => cases hAppend
        case isFalse => exact .inl (hChecked hAppend)
      case isFalse =>
        split at hAppend
        case isTrue => exact .inl (hChecked hAppend)
        case isFalse =>
          rcases bind_eq_ok_iff.mp hAppend with
            ⟨merged, _, hSame⟩
          cases hSame
          refine .inr ⟨merged, ?_⟩
          refine congrArg (mapLast label.name · body) ?_
          funext entry
          cases entry <;> rfl
  case h_3 => cases hAppend

theorem isOrderly_appendTable
    {checks : Checks}
    {scrutiny : Scrutiny}
    {body inner after : List Entry}
    {label : Label}
    {kind : TableKind}
    {heading : Heading}
    (hBody : IsOrderly body)
    (hAppend :
      appendWith checks scrutiny body
          (.table label kind heading inner) =
        .ok after) :
    IsOrderly after := by
  rcases appendTable_cases hAppend with
    ⟨hLast, rfl | ⟨merged, rfl⟩⟩
  · refine hBody.concat trivial fun other hMem => ?_
    intro name hLeft hRight
    cases hRight
    have hNamed := Entry.isNamed_iff.mpr hLeft
    cases hFound : lastNamed? label.name body with
    | none =>
        have hOther := lastNamed?_eq_none_iff.mp hFound
        exact absurd hNamed (by simp [hOther other hMem])
    | some last =>
        exact
          ⟨hBody.isOneTable_of_last hFound
            (hLast last hFound) other hMem hNamed, rfl⟩
  · refine hBody.mapLast _ (fun entry => ?_) ?_
    · cases entry <;> rfl
    · intro entry hApart
      cases entry <;> exact hApart

/- An entry that goes into a body leaves it orderly. -/
theorem isOrderly_appendEntry
    {scrutiny : Scrutiny}
    {body after : List Entry}
    {entry : Entry}
    (hBody : IsOrderly body)
    (hEntry : entry.IsApart)
    (hAppend : appendEntry scrutiny body entry = .ok after) :
    IsOrderly after := by
  unfold appendEntry at hAppend
  cases entry with
  | blank text =>
      simp only [appendWith, Except.ok.injEq] at hAppend
      rw [← hAppend]
      exact hBody.concat_unnamed trivial rfl
  | comment margin =>
      simp only [appendWith, Except.ok.injEq] at hAppend
      rw [← hAppend]
      exact hBody.concat_unnamed trivial rfl
  | pair label separator value margin =>
      simp only [appendWith] at hAppend
      split at hAppend
      case h_1 hNone =>
        cases hAppend
        exact hBody.concat_new hEntry rfl hNone
      case h_2 => cases hAppend
  | elements label tables =>
      simp only [appendWith] at hAppend
      split at hAppend
      case h_1 hNone =>
        cases hAppend
        exact hBody.concat_new trivial rfl hNone
      case h_2 =>
        cases hAppend
        refine hBody.mapLast _ (fun entry => ?_) ?_
        · cases entry <;> rfl
        · intro entry hApart
          cases entry <;> exact hApart
      case h_3 => cases hAppend
  | table label kind heading inner =>
      exact isOrderly_appendTable hBody hAppend

------------------------------------------------------------
-- Statements
------------------------------------------------------------

/- Keys of which one does not begin with the other. -/
theorem isApart_of_not_memberClash
    {members : List Member}
    {labels : List Label}
    (indent separator : Text)
    (cell : Cell)
    (hClash : memberClash members labels = false) :
    ∀ member ∈ members,
      member.IsApart (.pair labels indent separator cell) := by
  intro member hMem
  have hMember := List.any_eq_false.mp hClash member hMem
  rcases member with
    text | ⟨_ | ⟨label, others⟩, _, _, other⟩
  · trivial
  · trivial
  · cases labels with
    | nil => trivial
    | cons next labels => exact Bool.eq_false_iff.mpr hMember

/- Blanks are apart from everything. -/
theorem pairwise_append_blankMember
    {members : List Member}
    (text : Text)
    (hMembers : members.Pairwise Member.IsApart) :
    (members ++ blankMember text).Pairwise
      Member.IsApart := by
  unfold blankMember
  simp only
  split
  case isTrue => rwa [List.append_nil]
  case isFalse =>
    rw [List.pairwise_append]
    refine
      ⟨hMembers, List.pairwise_singleton _ _, ?_⟩
    intro left _ right hRight
    rw [List.mem_singleton.mp hRight]
    rcases left with text | ⟨_ | ⟨label, labels⟩, _, _, cell⟩
      <;> trivial

/- The keys of an inline table do not clash when it is read. -/
theorem pairwise_readMembers
    {fuel : Nat}
    {members found : List Member}
    {afterComma : Option Bool}
    {text rest : Text}
    (hMembers : members.Pairwise Member.IsApart)
    (hRead :
      readMembers fuel members afterComma text =
        .ok (found, rest)) :
    found.Pairwise Member.IsApart := by
  induction fuel generalizing members afterComma text with
  | zero =>
      rw [readMembers] at hRead
      cases hRead
  | succ fuel ih =>
      have hLonger :=
        pairwise_append_blankMember text hMembers
      rw [readMembers] at hRead
      generalize members ++ blankMember text = longer
        at hRead hLonger
      simp only at hRead
      split at hRead
      case h_1 =>
        split at hRead
        case isTrue => cases hRead
        case isFalse =>
          cases hRead
          exact hLonger
      case h_2 => 
        split at hRead
        case isTrue => cases hRead
        case isFalse =>
          rcases bind_eq_ok_iff.mp hRead with
            ⟨⟨labels, afterKey⟩, _, hRead⟩
          rcases bind_eq_ok_iff.mp hRead with
            ⟨⟨separator, afterSign⟩, _, hRead⟩
          rcases bind_eq_ok_iff.mp hRead with
            ⟨reading, _, hRead⟩
          split at hRead
          case isTrue => cases hRead
          case isFalse hClash =>
            have hNext (cell : Cell) :
                (longer ++
                      [Member.pair labels [] separator cell] ++
                    blankMember reading.rest).Pairwise
                  Member.IsApart := by
              refine pairwise_append_blankMember _ ?_
              rw [List.pairwise_append]
              refine
                ⟨hLonger, List.pairwise_singleton _ _, ?_⟩
              intro left hLeft right hRight
              rw [List.mem_singleton.mp hRight]
              exact
                isApart_of_not_memberClash [] separator cell
                  (by simpa using hClash) left hLeft
            split at hRead
            case h_1 => exact ih (hNext _) hRead
            case h_2 => exact ih (hNext _) hRead

/- The keys of a value that is read do not clash. -/
theorem isApart_readValue
    {fuel : Nat}
    {text : Text}
    {reading : Reading Value}
    (hRead : readValue fuel text = .ok reading) :
    reading.found.IsApart := by
  cases fuel with
  | zero =>
      rw [readValue] at hRead
      cases hRead
  | succ fuel =>
      rw [readValue.eq_def] at hRead
      simp only at hRead
      split at hRead
      case h_1 =>
        rcases bind_eq_ok_iff.mp hRead with
          ⟨⟨pieces, rest⟩, _, hSame⟩
        cases hSame
        trivial
      case h_2 =>
        rcases bind_eq_ok_iff.mp hRead with
          ⟨⟨members, rest⟩, hMembers, hSame⟩
        cases hSame
        exact pairwise_readMembers .nil hMembers
      case h_3 =>
        rcases bind_eq_ok_iff.mp hRead with
          ⟨plain, _, hSame⟩
        cases hSame
        trivial

/- The value is one that can be read. -/
def Value.IsRead (value : Value) : Prop :=
  ∃ fuel text reading,
    readValue fuel text = .ok reading ∧ reading.found = value

/- The value of a statement that is a pair was read. -/
def Statement.IsRead : Statement → Prop
  | .pair _ _ value _ => value.IsRead
  | _ => True

theorem isRead_readPair
    {text rest : Text}
    {statement : Statement}
    (hRead : readPair text = .ok (statement, rest)) :
    statement.IsRead := by
  unfold readPair at hRead
  rcases bind_eq_ok_iff.mp hRead with
    ⟨⟨labels, afterKey⟩, _, hRead⟩
  rcases bind_eq_ok_iff.mp hRead with
    ⟨⟨separator, afterSign⟩, _, hRead⟩
  rcases bind_eq_ok_iff.mp hRead with
    ⟨reading, hReading, hRead⟩
  rcases bind_eq_ok_iff.mp hRead with
    ⟨⟨margin, afterTrail⟩, _, hSame⟩
  cases hSame
  exact ⟨_, _, reading, hReading, rfl⟩

theorem isRead_readHeader
    {indent text rest : Text}
    {statement : Statement}
    (hRead : readHeader indent text = .ok (statement, rest)) :
    statement.IsRead := by
  unfold readHeader at hRead
  rcases bind_eq_ok_iff.mp hRead with
    ⟨⟨labels, afterKey⟩, _, hRead⟩
  simp only at hRead
  split at hRead
  case h_1 =>
    rcases bind_eq_ok_iff.mp hRead with
      ⟨⟨margin, afterTrail⟩, _, hSame⟩
    cases hSame
    trivial
  case h_2 => cases hRead

theorem isRead_readStatement
    {text rest : Text}
    {statement : Statement}
    (hRead : readStatement text = .ok (statement, rest)) :
    statement.IsRead := by
  unfold readStatement at hRead
  simp only at hRead
  split at hRead
  case h_1 =>
    cases hRead
    trivial
  case h_2 =>
    cases hRead
    trivial
  case h_3 =>
    rcases bind_eq_ok_iff.mp hRead with
      ⟨⟨margin, afterTrail⟩, _, hSame⟩
    cases hSame
    trivial
  case h_4 => exact isRead_readHeader hRead
  case h_5 => exact isRead_readPair hRead

theorem isRead_statementsFrom
    (fuel : Nat)
    (text : Text) :
    ∀ statement ∈ statementsFrom fuel text,
      statement.IsRead := by
  induction fuel generalizing text with
  | zero => exact List.forall_mem_nil _
  | succ fuel ih =>
      cases text with
      | nil => exact List.forall_mem_nil _
      | cons c text =>
          rw [statementsFrom]
          split
          case h_1 fault _ =>
            exact
              List.forall_mem_singleton.mpr trivial
          case h_2 statement rest hRead =>
            exact
              List.forall_mem_cons.mpr
                ⟨isRead_readStatement hRead, ih rest⟩
          case x_2 => exact nofun

theorem Statement.IsRead.isApart
    {statement : Statement}
    (hRead : statement.IsRead) :
    statement.IsApart := by
  cases statement with
  | pair labels separator value margin =>
      rcases hRead with ⟨_, _, reading, hReading, rfl⟩
      exact isApart_readValue hReading
  | blank text => trivial
  | comment margin => trivial
  | header isElement labels margin => trivial
  | broken fault => trivial

------------------------------------------------------------
-- Documents
------------------------------------------------------------

/- What a header makes is a table or an array of tables. -/
theorem isTable_headerEntry
    (margin : Margin)
    {innermost : Label → Entry}
    (label : Label)
    (labels : List Label)
    (hInner : ∀ label, (innermost label).isTable = true) :
    (headerEntry margin innermost label labels).isTable =
      true := by
  cases labels with
  | nil => exact hInner label
  | cons next labels => rfl

theorem isTable_readTable
    {fuel : Nat}
    {outer : List Text}
    {isElement : Bool}
    {labels : List Label}
    {margin : Margin}
    {statements rest : List Statement}
    {entry : Entry}
    (hRead :
      readTable fuel outer isElement labels margin statements =
        .ok (entry, rest)) :
    entry.isTable = true := by
  cases fuel with
  | zero =>
      rw [readTable] at hRead
      cases hRead
  | succ fuel =>
      rw [readTable] at hRead
      rcases bind_eq_ok_iff.mp hRead with
        ⟨⟨body, afterSection⟩, _, hRead⟩
      simp only at hRead
      split at hRead
      case h_1 => cases hRead
      case h_2 label inner hLabels =>
        split at hRead
        case isTrue =>
          cases hRead
          exact isTable_headerEntry _ _ _ fun _ => rfl
        case isFalse =>
          split at hRead
          case isTrue =>
            rcases bind_eq_ok_iff.mp hRead with
              ⟨⟨tables, afterElements⟩, _, hSame⟩
            cases hSame
            exact isTable_headerEntry _ _ _ fun _ => rfl
          case isFalse =>
            cases hRead
            exact isTable_headerEntry _ _ _ fun _ => rfl

theorem Entry.isApart_of_isTable
    {entry : Entry}
    (hTable : entry.isTable = true) :
    entry.IsApart := by
  cases entry with
  | pair label separator value margin => cases hTable
  | blank text => trivial
  | comment margin => trivial
  | table label kind heading body => trivial
  | elements label tables => trivial

/- A clash at the top is no document. -/
theorem atTop_eq_ok_iff
    {α : Type}
    {result : Except Clash α}
    {found : α} :
    atTop result = .ok found ↔ result = .ok found := by
  cases result with
  | ok value => simp [atTop]
  | error clash => simp [atTop]

theorem isOrderly_readTables
    {fuel : Nat}
    {body : List Entry}
    {statements : List Statement}
    {document : Document}
    (hBody : IsOrderly body)
    (hRead : readTables fuel body statements = .ok document) :
    IsOrderly document := by
  induction fuel generalizing body statements with
  | zero => cases hRead
  | succ fuel ih =>
      rw [readTables.eq_def] at hRead
      simp only at hRead
      split at hRead
      case h_1 isElement labels margin rest =>
        rcases bind_eq_ok_iff.mp hRead with
          ⟨⟨entry, afterTable⟩, hEntry, hRead⟩
        rcases bind_eq_ok_iff.mp hRead with
          ⟨longer, hLonger, hRead⟩
        refine ih ?_ hRead
        exact
          isOrderly_appendEntry hBody
            (Entry.isApart_of_isTable
              (isTable_readTable hEntry))
            (atTop_eq_ok_iff.mp hLonger)
      case h_2 => cases hRead
      case h_3 =>
        cases hRead
        exact hBody

/- A document that is read is orderly. -/
theorem isOrderly_parse
    {text : Text}
    {document : Document}
    (hParse : parse text = .ok document) :
    IsOrderly document := by
  unfold parse at hParse
  rcases bind_eq_ok_iff.mp hParse with
    ⟨⟨body, rest⟩, hBody, hTables⟩
  have hStatements :
      ∀ statement ∈ statements text, statement.IsApart :=
    fun statement hMem =>
      (isRead_statementsFrom _ text statement hMem).isApart
  exact
    isOrderly_readTables
      (isOrderly_readBody hStatements hBody).orderly hTables

end Layout

end Toml

end ScriptWorkspace
