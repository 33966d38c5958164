import ScriptWorkspace.Proofs.Toml.Distinct
import ScriptWorkspace.Proofs.Toml.Lookup

/-
  What is looked up in a document is what the document says.

  A name of a document leads to the value that the name has in
  the table of the document, and inside of a table it leads to
  a text exactly if its value there is that text. A table is
  never found as a cell, which has no keys to look up.

  Main declarations:
    * `Layout.isRead_parse`
    * `Layout.table?_of_lookup_cell`
    * `Layout.find?_of_looksUp`
    * `Layout.find?_of_lookup`
    * `Layout.bind_text?_of_lookup`
    * `Layout.bind_text?_of_lookupMember`
    * `Layout.Target.IsReadable`
    * `Layout.isReadable_of_names`
-/

namespace ScriptWorkspace

namespace Toml

namespace Layout

------------------------------------------------------------
-- Plain Values
------------------------------------------------------------

theorem table?_of_looseMoment?
    {text : Text}
    {value : Toml}
    (hValue : looseMoment? text = some value) :
    value.table? = none := by
  grind [looseMoment?, table?]

theorem table?_of_looseNumber?
    {text : Text}
    {value : Toml}
    (hValue : looseNumber? text = some value) :
    value.table? = none := by
  unfold looseNumber? at hValue
  simp only at hValue
  -- The number is of one kind with any sign.
  split at hValue
  all_goals
    split at hValue
    case isTrue => cases hValue
    case isFalse =>
      split at hValue
      case isTrue => cases hValue
      case isFalse =>
        split at hValue
        case isTrue =>
          split at hValue
          case isTrue => cases hValue
          case isFalse =>
            cases hValue
            rfl
        case isFalse =>
          split at hValue
          case isTrue =>
            cases hValue
            rfl
          case isFalse =>
            rcases Option.map_eq_some_iff.mp hValue with
              ⟨float, _, rfl⟩
            rfl

theorem table?_of_readNumeric
    {text : Text}
    {reading : Reading Cell}
    (hRead : readNumeric text = .ok reading) :
    reading.found.value.table? = none := by
  unfold readNumeric at hRead
  simp only at hRead
  split at hRead
  case h_1 =>
    unfold readDated at hRead
    simp only at hRead
    split at hRead
    case isTrue =>
      cases hRead
      rfl
    case isFalse =>
      split at hRead
      case h_1 value hValue =>
        cases hRead
        exact table?_of_looseMoment? hValue
      case h_2 => cases hRead
  case h_2 =>
    split at hRead
    case h_1 value hValue =>
      cases hRead
      rcases Option.or_eq_some_iff.mp hValue with
        hMoment | ⟨_, hNumber⟩
      · exact table?_of_looseMoment? hMoment
      · exact table?_of_looseNumber? hNumber
    case h_2 => cases hRead

theorem table?_of_readPlain
    {text : Text}
    {reading : Reading Cell}
    (hRead : readPlain text = .ok reading) :
    reading.found.value.table? = none := by
  unfold readPlain at hRead
  split at hRead
  case h_1 =>
    rcases bind_eq_ok_iff.mp hRead with
      ⟨⟨content, rest⟩, _, hSame⟩
    cases hSame
    rfl
  case h_2 =>
    split at hRead
    case h_1 =>
      cases hRead
      rfl
    case h_2 =>
      cases hRead
      rfl
    case h_3 =>
      split at hRead
      case isTrue => exact table?_of_readNumeric hRead
      case isFalse => cases hRead
    case h_4 => cases hRead

/- A cell that is read in its own right holds no table. -/
theorem Value.IsRead.table?_eq_none
    {content : Cell}
    (hRead : (Value.cell content).IsRead) :
    content.value.table? = none := by
  rcases hRead with ⟨fuel, text, reading, hReading, hFound⟩
  cases fuel with
  | zero =>
      rw [readValue] at hReading
      cases hReading
  | succ fuel =>
      rw [readValue.eq_def] at hReading
      simp only at hReading
      split at hReading
      case h_1 =>
        rcases bind_eq_ok_iff.mp hReading with
          ⟨⟨pieces, rest⟩, _, hSame⟩
        cases hSame
        cases hFound
        rfl
      case h_2 =>
        rcases bind_eq_ok_iff.mp hReading with
          ⟨⟨members, rest⟩, _, hSame⟩
        cases hSame
        cases hFound
      case h_3 =>
        rcases bind_eq_ok_iff.mp hReading with
          ⟨plain, hPlain, hSame⟩
        cases hSame
        cases hFound
        exact table?_of_readPlain hPlain

------------------------------------------------------------
-- Entries That Are Read
------------------------------------------------------------

/- The value of an entry that is a pair was read. -/
def Entry.IsRead : Entry → Prop
  | .pair _ _ value _ => value.IsRead
  | _ => True

theorem Entry.isRead_of_isTable
    {entry : Entry}
    (hTable : entry.isTable = true) :
    entry.IsRead := by
  cases entry with
  | pair label separator value margin => cases hTable
  | blank text => trivial
  | comment margin => trivial
  | table label kind heading body => trivial
  | elements label tables => trivial

theorem isRead_pairEntry
    (separator : Text)
    {value : Value}
    (margin : Margin)
    (label : Label)
    (labels : List Label)
    (hValue : value.IsRead) :
    (pairEntry separator value margin label
      labels).IsRead := by
  cases labels with
  | nil => exact hValue
  | cons next labels => trivial

/- The pairs of a body are among the statements. -/
theorem isRead_readBody
    {fault : Clash → LayoutFault}
    {keys : List (List Label)}
    {statements rest : List Statement}
    {entries : List Entry}
    (hStatements :
      ∀ statement ∈ statements, statement.IsRead)
    (hRead :
      readBody fault keys statements = .ok (entries, rest)) :
    ∀ entry ∈ entries, entry.IsRead := by
  induction statements generalizing keys entries rest with
  | nil =>
      cases hRead
      exact List.forall_mem_nil _
  | cons statement statements ih =>
      rcases List.forall_mem_cons.mp hStatements with
        ⟨hFirst, hRest⟩
      cases statement with
      | blank text =>
          rcases bind_eq_ok_iff.mp hRead with
            ⟨⟨others, left⟩, hOthers, hSame⟩
          cases hSame
          exact
            List.forall_mem_cons.mpr
              ⟨trivial, ih hRest hOthers⟩
      | comment margin =>
          rcases bind_eq_ok_iff.mp hRead with
            ⟨⟨others, left⟩, hOthers, hSame⟩
          cases hSame
          exact
            List.forall_mem_cons.mpr
              ⟨trivial, ih hRest hOthers⟩
      | header isElement labels margin =>
          cases hRead
          exact List.forall_mem_nil _
      | broken found => cases hRead
      | pair labels separator value margin =>
          rw [readBody] at hRead
          split at hRead
          case isTrue => cases hRead
          case isFalse =>
            rcases bind_eq_ok_iff.mp hRead with
              ⟨⟨others, left⟩, hOthers, hSame⟩
            have hLater := ih hRest hOthers
            cases labels with
            | nil =>
                cases hSame
                exact hLater
            | cons label labels =>
                cases hSame
                refine
                  List.forall_mem_cons.mpr ⟨?_, hLater⟩
                exact
                  isRead_pairEntry separator margin label
                    labels hFirst

/- What is changed in a body is a table, if it changes. -/
theorem mem_mapLast
    {name : Text}
    {change : Entry → Entry}
    {body : List Entry}
    (hChange :
      ∀ entry,
        change entry = entry ∨
          (change entry).isTable = true) :
    ∀ entry ∈ mapLast name change body,
      entry ∈ body ∨ entry.isTable = true := by
  rcases mapLast_cases name change body with
    hSame | ⟨before, last, after, rfl, hSame⟩
  · rw [hSame]
    exact fun entry => .inl
  · rw [hSame]
    intro entry hMem
    rcases List.mem_append.mp hMem with hIn | hIn
    · exact .inl (List.mem_append_left _ hIn)
    · rcases List.mem_cons.mp hIn with rfl | hIn
      · refine (hChange last).imp_left fun hKept => ?_
        rw [hKept]
        exact List.mem_append_cons_self
      · exact
          .inl
            (List.mem_append_right _
              (List.mem_cons_of_mem _ hIn))

/- The last entry is the only one that is new in a body. -/
theorem mem_concat
    {body : List Entry}
    {entry other : Entry}
    (hMem : other ∈ body ++ [entry]) :
    other ∈ body ∨ other = entry ∨ other.isTable = true := by
  rcases List.mem_append.mp hMem with hIn | hLast
  · exact .inl hIn
  · exact .inr (.inl (List.mem_singleton.mp hLast))

/- An entry that is added changes tables at most. -/
theorem mem_appendEntry
    {scrutiny : Scrutiny}
    {body after : List Entry}
    {entry : Entry}
    (hAppend : appendEntry scrutiny body entry = .ok after) :
    ∀ other ∈ after,
      other ∈ body ∨ other = entry ∨ other.isTable = true := by
  unfold appendEntry at hAppend
  intro other hMem
  cases entry with
  | blank text =>
      simp only [appendWith, Except.ok.injEq] at hAppend
      rw [← hAppend] at hMem
      exact mem_concat hMem
  | comment margin =>
      simp only [appendWith, Except.ok.injEq] at hAppend
      rw [← hAppend] at hMem
      exact mem_concat hMem
  | pair label separator value margin =>
      simp only [appendWith] at hAppend
      split at hAppend
      case h_1 =>
        cases hAppend
        exact mem_concat hMem
      case h_2 => cases hAppend
  | elements label tables =>
      simp only [appendWith] at hAppend
      split at hAppend
      case h_1 =>
        cases hAppend
        exact mem_concat hMem
      case h_2 =>
        cases hAppend
        refine
          (mem_mapLast (fun entry => ?_) other hMem).imp_right
            .inr
        cases entry with
        | elements label others => exact .inr rfl
        | blank text => exact .inl rfl
        | comment margin => exact .inl rfl
        | pair label separator value margin => exact .inl rfl
        | table label kind heading body => exact .inl rfl
      case h_3 => cases hAppend
  | table label kind heading inner =>
      rcases appendTable_cases hAppend with
        ⟨_, rfl | ⟨merged, rfl⟩⟩
      · exact mem_concat hMem
      · refine
          (mem_mapLast (fun entry => ?_) other hMem).imp_right
            .inr
        cases entry with
        | table label kind heading body => exact .inr rfl
        | blank text => exact .inl rfl
        | comment margin => exact .inl rfl
        | pair label separator value margin => exact .inl rfl
        | elements label tables => exact .inl rfl

theorem isRead_readTables
    {fuel : Nat}
    {body : List Entry}
    {statements : List Statement}
    {document : Document}
    (hBody : ∀ entry ∈ body, entry.IsRead)
    (hRead : readTables fuel body statements = .ok document) :
    ∀ entry ∈ document, entry.IsRead := by
  induction fuel generalizing body statements with
  | zero => cases hRead
  | succ fuel ih =>
      rw [readTables.eq_def] at hRead
      simp only at hRead
      split at hRead
      case h_1 isElement labels margin rest =>
        rcases bind_eq_ok_iff.mp hRead with
          ⟨⟨table, afterTable⟩, hTable, hRead⟩
        rcases bind_eq_ok_iff.mp hRead with
          ⟨longer, hLonger, hRead⟩
        refine ih (fun entry hMem => ?_) hRead
        have hAppend := atTop_eq_ok_iff.mp hLonger
        rcases mem_appendEntry hAppend entry hMem with
          hIn | rfl | hChanged
        · exact hBody entry hIn
        · exact
            Entry.isRead_of_isTable (isTable_readTable hTable)
        · exact Entry.isRead_of_isTable hChanged
      case h_2 => cases hRead
      case h_3 =>
        cases hRead
        exact hBody

/- The pairs of a document were read as they are. -/
theorem isRead_parse
    {text : Text}
    {document : Document}
    (hParse : parse text = .ok document) :
    ∀ entry ∈ document, entry.IsRead := by
  unfold parse at hParse
  rcases bind_eq_ok_iff.mp hParse with
    ⟨⟨body, rest⟩, hBody, hTables⟩
  refine isRead_readTables ?_ hTables
  exact isRead_readBody (isRead_statementsFrom _ text) hBody

------------------------------------------------------------
-- Looking Up Values
------------------------------------------------------------

/- A table of a document that is read is no cell. -/
theorem table?_of_lookup_cell
    {name text : Text}
    {document : Document}
    {content : Cell}
    (hParse : parse text = .ok document)
    (hLookup : lookup name document = .ok (.cell content)) :
    content.value.table? = none := by
  rcases looksUp_of_lookup hLookup with _ | hLast
  have hRead :=
    isRead_parse hParse _ (lastNamed?_mem hLast).1
  exact Value.IsRead.table?_eq_none hRead

/- The last entry of a name decides, over what was before. -/
theorem exists_valueOver_of_lastNamed?
    {name : Text}
    {body : List Entry}
    {last : Entry}
    (hLast : lastNamed? name body = some last) :
    ∃ earlier,
      find? name (bodyTable body) = last.valueOver earlier := by
  rcases lastNamed?_eq_some_iff.mp hLast with
    ⟨hNamed, before, after, rfl, hAfter⟩
  refine ⟨valueAfter name before none, ?_⟩
  rw [find?_bodyTable, valueAfter_append, valueAfter_cons,
    if_pos hNamed, valueAfter_of_not_named _ hAfter]

/-
  What a name of any body leads to is its value, but for the
  members of tables.
-/
theorem find?_of_looksUp
    {name : Text}
    {body : List Entry}
    {target : Target}
    (hLooksUp : LooksUp name body target) :
    find? name (bodyTable body) = target.value? ∨
      ∃ members entries,
        find? name (bodyTable body) = some (.table members) ∧
          target = .body entries := by
  cases hLooksUp with
  | missing hNone =>
      left
      rw [find?_bodyTable, valueAfter_of_not_named _ hNone]
      rfl
  | cell hLast =>
      rcases exists_valueOver_of_lastNamed? hLast with
        ⟨earlier, hValue⟩
      exact .inl hValue
  | inline hLast =>
      rcases exists_valueOver_of_lastNamed? hLast with
        ⟨earlier, hValue⟩
      exact .inl hValue
  | elements hLast =>
      rcases exists_valueOver_of_lastNamed? hLast with
        ⟨earlier, hValue⟩
      exact .inl hValue
  | body hLast hTable hEntries =>
      rcases exists_valueOver_of_lastNamed? hLast with
        ⟨earlier, hValue⟩
      rw [Entry.valueOver_of_isOneTable hTable] at hValue
      exact .inr ⟨_, _, hValue, rfl⟩

/- What a name of an orderly document leads to is its value. -/
theorem find?_of_lookup
    {name : Text}
    {document : Document}
    {target : Target}
    (hDocument : IsOrderly document)
    (hLookup : lookup name document = .ok target) :
    find? name (bodyTable document) = target.value? := by
  rcases find?_of_looksUp (looksUp_of_lookup hLookup) with
    hValue | ⟨_, entries, _, rfl⟩
  · exact hValue
  · exact
      (leadsTo_lookup hDocument hLookup rfl).find?_bodyTable

/- A name of any body leads to a text if its value is one. -/
theorem bind_text?_of_lookup
    {name : Text}
    {body : List Entry}
    {target : Target}
    (hLookup : lookup name body = .ok target) :
    (find? name (bodyTable body)).bind text? =
      target.value?.bind text? := by
  rcases find?_of_looksUp (looksUp_of_lookup hLookup) with
    hValue | ⟨members, entries, hValue, rfl⟩
  · rw [hValue]
  · rw [hValue]
    rfl

/- Keys of several names put no text where they begin. -/
theorem bind_text?_foldl_putMember
    {name : Text}
    {members : List Member}
    {table : Table}
    (hTable : (find? name table).bind text? = none)
    (hMembers :
      ∀ member ∈ members, ¬ ∃ cell, IsPairOf name cell member) :
    (find? name (members.foldl putMember table)).bind text? =
      none := by
  induction members generalizing table with
  | nil => exact hTable
  | cons member members ih =>
      rcases List.forall_mem_cons.mp hMembers with
        ⟨hFirst, hRest⟩
      refine ih ?_ hRest
      rcases member with
        text | ⟨_ | ⟨label, _ | ⟨next, labels⟩⟩, indent,
          separator, cell⟩
      · exact hTable
      · exact hTable
      · rw [find?_putMember_of_not_named]
        · exact hTable
        · refine Bool.eq_false_iff.mpr fun hNamed => hFirst ?_
          exact
            ⟨cell, label, indent, separator,
              beq_iff_eq.mp hNamed, rfl⟩
      · rw [putMember, List.map_cons, List.map_cons, putAt,
          find?_put]
        · split
          case isTrue => rfl
          case isFalse => exact hTable
        · exact List.cons_ne_nil _ _

/- Which of two keys comes first does not matter. -/
theorem Member.IsApart.symm
    {member other : Member}
    (hApart : member.IsApart other) :
    other.IsApart member := by
  rcases member with text | ⟨_ | ⟨label, labels⟩, _, _, cell⟩
  · rcases other with _ | ⟨_ | _, _, _, _⟩ <;> trivial
  · rcases other with _ | ⟨_ | _, _, _, _⟩ <;> trivial
  · rcases other with text | ⟨_ | ⟨next, others⟩, _, _, cell⟩
    · trivial
    · trivial
    · exact (Bool.or_comm _ _).trans hApart

/- A key of one name is all that its name leads to. -/
theorem hasMember_of_isPairOf
    {name : Text}
    {cell : Cell}
    {members : List Member}
    {member : Member}
    (hApart : members.Pairwise Member.IsApart)
    (hMem : member ∈ members)
    (hPair : IsPairOf name cell member) :
    HasMember name members (.cell cell) := by
  rcases List.append_of_mem hMem with ⟨before, after, rfl⟩
  rcases List.pairwise_append.mp hApart with
    ⟨_, hTail, hAcross⟩
  refine .cell rfl hPair fun other hOther => ?_
  rcases List.mem_append.mp hOther with hBefore | hAfter
  · refine not_named_of_isApart hPair ?_
    have hBoth :=
      hAcross other hBefore member List.mem_cons_self
    exact Member.IsApart.symm hBoth
  · exact
      not_named_of_isApart hPair
        (List.rel_of_pairwise_cons hTail hAfter)

/- A name of an inline table leads to a text in the same way. -/
theorem bind_text?_of_lookupMember
    {members : List Member}
    (hApart : members.Pairwise Member.IsApart)
    (name : Text) :
    (find? name (membersTable members)).bind text? =
      (lookupMember name members).value?.bind text? := by
  cases hTable : (lookupMember name members).isTable with
  | false =>
      have hMember := hasMember_lookupMember hApart hTable
      rw [hMember.find?_membersTable]
  | true =>
      have hNone :
          (lookupMember name members).value?.bind text? =
            none := by
        generalize lookupMember name members = target
          at hTable
        cases target with
        | inline under => rfl
        | body entries => rfl
        | missing => cases hTable
        | cell content => cases hTable
        | elements tables => cases hTable
      rw [hNone, membersTable_eq_foldl]
      refine bind_text?_foldl_putMember rfl ?_
      rintro member hMem ⟨cell, hPair⟩
      have hMember := hasMember_of_isPairOf hApart hMem hPair
      rw [hMember.lookupMember_eq] at hTable
      cases hTable

/- A table in which a key can get a value has each key once. -/
theorem CanPut.hasDistinctKeys
    {name key : Text}
    {document : Document}
    {members : Table}
    (hCan : CanPut name key document)
    (hMembers :
      find? name (bodyTable document) =
        some (.table members)) :
    HasDistinctKeys members := by
  cases hCan with
  | body hTables =>
      rw [find?_bodyTable, valueAfter_tables hTables]
        at hMembers
      cases hMembers
      exact hasDistinctKeys_bodyTable _
  | inline hDocument hAlone hMember =>
      rw [hDocument, find?_of_isAlone hAlone] at hMembers
      cases hMembers
      exact hasDistinctKeys_membersTable _

------------------------------------------------------------
-- Documents Without Clashes
------------------------------------------------------------

/- All that keys lead to can be looked up, at any depth. -/
inductive Target.IsReadable : Target → Prop
  | missing : IsReadable .missing
  | cell (content : Cell) : IsReadable (.cell content)
  | inline (members : List Member) :
      IsReadable (.inline members)
  | body
      {entries : List Entry}
      (hLookup :
        ∀ name, ∃ target, lookup name entries = .ok target)
      (hTargets :
        ∀ name target,
          lookup name entries = .ok target →
            IsReadable target) :
      IsReadable (.body entries)
  | elements
      {tables : List (Heading × List Entry)}
      (hTables :
        ∀ table ∈ tables, IsReadable (.body table.2)) :
      IsReadable (.elements tables)

/- Only the names that entries have need to be looked up. -/
theorem isReadable_of_names
    {entries : List Entry}
    (hNames :
      ∀ entry ∈ entries,
        ∀ name,
          entry.name? = some name →
            ∃ target,
              lookup name entries = .ok target ∧
                target.IsReadable) :
    (Target.body entries).IsReadable := by
  have hLookup (name : Text) :
      ∃ target,
        lookup name entries = .ok target ∧
          target.IsReadable := by
    by_cases hNamed :
        ∃ entry ∈ entries, entry.name? = some name
    · rcases hNamed with ⟨entry, hMem, hName⟩
      exact hNames entry hMem name hName
    · refine ⟨.missing, ?_, .missing⟩
      have hNone : lastNamed? name entries = none := by
        refine
          lastNamed?_eq_none_iff.mpr fun entry hMem => ?_
        refine
          Bool.eq_false_iff.mpr fun hSome => hNamed ?_
        exact ⟨entry, hMem, Entry.isNamed_iff.mp hSome⟩
      rw [lookup, hNone]
  constructor
  case hLookup =>
    intro name
    rcases hLookup name with ⟨target, hFound, _⟩
    exact ⟨target, hFound⟩
  case hTargets =>
    intro name other hOther
    rcases hLookup name with ⟨target, hFound, hTarget⟩
    cases hFound.symm.trans hOther
    exact hTarget

end Layout

end Toml

end ScriptWorkspace
