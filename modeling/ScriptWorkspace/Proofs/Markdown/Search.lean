import ScriptWorkspace.Proofs.Markdown.Fence

/-
  What the search for a fenced block finds.

  The search sees events, not blocks. Up to the first fence
  with the wanted info it waits. If that fence has content
  then the search ends there. If it has none then the search
  takes the next text for the content, whatever block it is
  from, and ends with the next fence that has the info.

  Main declarations:
    * `exists_range_of_text`
    * `locate?_of_noneMarked`
    * `locate?_of_filled`
    * `locate?_of_stray`
    * `wanted?`
    * `Misled`
    * `located_iff_not_misled`
-/

namespace ScriptWorkspace

namespace Markdown

open Text

------------------------------------------------------------
-- Events Of Blocks
------------------------------------------------------------

section Inner

variable (lines : List Text) {first stop : Nat}

mutual

/- Inside a container there are texts only. -/
theorem Block.exists_of_mem_innerEvents :
    ∀ {block : Block} {event : Event},
      block.Within first stop →
        event ∈ block.innerEvents lines →
          ∃ begins ends,
            event = textEvent lines begins ends ∧
              first ≤ begins ∧ begins < stop ∧ begins < ends
  | .fence fenced, event, hWithin, hMem => by
    have hFence : fenced.Within first stop := hWithin
    simp only [Block.innerEvents,
      List.mem_singleton] at hMem
    have hLt := hFence.lt_contentStop
    have hLe := hFence.contentStop_le
    have hStop := hFence.stop_le
    exact
      ⟨_, _, hMem, hFence.first_le, by omega, by omega⟩
  | .text begins ends, event, hWithin, hMem => by
    simp only [Block.innerEvents,
      List.mem_singleton] at hMem
    exact ⟨begins, ends, hMem, hWithin⟩
  | .container blocks, event, hWithin, hMem =>
    exists_of_mem_innerEventsOf hWithin hMem

theorem exists_of_mem_innerEventsOf :
    ∀ {blocks : List Block} {event : Event},
      AllWithin first stop blocks →
        event ∈ innerEventsOf lines blocks →
          ∃ begins ends,
            event = textEvent lines begins ends ∧
              first ≤ begins ∧ begins < stop ∧ begins < ends
  | [], event, _, hMem => by simp [innerEventsOf] at hMem
  | block :: blocks, event, hWithin, hMem => by
    rw [innerEventsOf, List.mem_append] at hMem
    rcases hMem with hHere | hMore
    · exact
        Block.exists_of_mem_innerEvents hWithin.1 hHere
    · exact exists_of_mem_innerEventsOf hWithin.2 hMore

end

end Inner

/- Texts have an empty info, and no other kind of event. -/
theorem Block.mem_events_cases
    {lines : List Text}
    {first stop : Nat}
    {block : Block}
    (hWithin : block.Within first stop)
    {event : Event}
    (hMem : event ∈ block.events lines) :
    (∃ fenced, block = .fence fenced ∧
      event ∈ fenced.events lines) ∨
      ∃ begins ends,
        event = textEvent lines begins ends ∧
          first ≤ begins ∧ begins < stop ∧
            begins < ends := by
  cases block with
  | fence fenced => exact Or.inl ⟨fenced, rfl, hMem⟩
  | text begins ends =>
      exact
        Or.inr
          (Block.exists_of_mem_innerEvents lines hWithin
            hMem)
  | container blocks =>
      exact
        Or.inr
          (Block.exists_of_mem_innerEvents lines hWithin
            hMem)

/- Only fences of the top level start and finish. -/
theorem Block.exists_fence_of_kind_ne_text
    {lines : List Text}
    {first stop : Nat}
    {block : Block}
    (hWithin : block.Within first stop)
    {event : Event}
    (hMem : event ∈ block.events lines)
    (hKind : event.kind ≠ .text) :
    ∃ fenced,
      block = .fence fenced ∧
        event.info = Text.strip fenced.info := by
  rcases Block.mem_events_cases hWithin hMem with
    ⟨fenced, rfl, hEvent⟩ | ⟨begins, ends, rfl, _⟩
  · refine ⟨fenced, rfl, ?_⟩
    simp only [Fence.events] at hEvent
    split at hEvent
    · simp only [List.mem_cons, List.not_mem_nil,
        or_false] at hEvent
      rcases hEvent with rfl | rfl | rfl
      · rfl
      · rfl
      · rfl
    · simp only [List.mem_cons, List.not_mem_nil,
        or_false] at hEvent
      rcases hEvent with rfl | rfl
      · rfl
      · rfl
  · exact absurd rfl hKind

/- A fence of the top level finishes. -/
theorem Fence.exists_finish
    (lines : List Text)
    (fenced : Fence) :
    ∃ event ∈ fenced.events lines,
      event.kind = .finish ∧
        event.info = Text.strip fenced.info := by
  refine
    ⟨{ kind := .finish, info := Text.strip fenced.info
       span := lineSpan lines fenced.textStop fenced.stop },
      ?_, rfl, rfl⟩
  simp only [Fence.events]
  split
  · simp
  · simp

/- A text covers rows of its block. -/
theorem exists_range_of_text
    {lines : List Text}
    {first stop : Nat}
    {block : Block}
    (hWithin : block.Within first stop)
    (hTextStop :
      ∀ fenced, block = .fence fenced →
        fenced.textStop = fenced.contentStop)
    {event : Event}
    (hMem : event ∈ block.events lines)
    (hKind : event.kind = .text) :
    ∃ begins ends,
      event.span = lineSpan lines begins ends ∧
        first ≤ begins ∧ begins < stop ∧ begins < ends := by
  rcases Block.mem_events_cases hWithin hMem with
    ⟨fenced, rfl, hEvent⟩ |
    ⟨begins, ends, rfl, hRange⟩
  · have hFence : fenced.Within first stop := hWithin
    have hFirst := hFence.first_le
    have hLe := hFence.contentStop_le
    have hStop := hFence.stop_le
    simp only [Fence.events] at hEvent
    split at hEvent
    · simp only [List.mem_cons, List.not_mem_nil,
        or_false] at hEvent
      rcases hEvent with rfl | rfl | rfl
      · simp at hKind
      · refine
          ⟨_, _, rfl, by omega, by omega, ?_⟩
        rwa [hTextStop fenced rfl]
      · simp at hKind
    · simp only [List.mem_cons, List.not_mem_nil,
        or_false] at hEvent
      rcases hEvent with rfl | rfl
      · simp at hKind
      · simp at hKind
  · exact ⟨begins, ends, rfl, hRange⟩

------------------------------------------------------------
-- Runs Of The Search
------------------------------------------------------------

namespace Search

variable {info : Text} {events : List Event} {span : Span}

/- The text that the search has found. -/
def span? : Search → Option Span
  | .found span => some span
  | .closed span => some span
  | _ => none

theorem span?_step
    {search : Search}
    {event : Event}
    (hSpan : (step info search event).span? = some span) :
    search.span? = some span ∨
      event.kind = .text ∧ event.span = span := by
  cases search with
  | waiting =>
      have hNone : (step info .waiting event).span? = none := by
        unfold step
        cases event.kind with
        | start =>
            simp only
            split
            · rfl
            · rfl
        | text => rfl
        | finish => rfl
      simp [hNone] at hSpan
  | opened =>
      cases hKind : event.kind with
      | start => simp [step, hKind, span?] at hSpan
      | text =>
          refine Or.inr ⟨rfl, ?_⟩
          simpa [step, hKind, span?] using hSpan
      | finish => simp [step, hKind, span?] at hSpan
  | found other =>
      have hSame :
          (step info (.found other) event).span? =
            some other := by
        unfold step
        cases event.kind with
        | start => rfl
        | text => rfl
        | finish =>
            simp only
            split
            · rfl
            · rfl
      exact Or.inl (hSame.symm.trans hSpan)
  | closed other => exact Or.inl hSpan

/- What is found is the range of some text. -/
theorem span?_foldl
    {search : Search}
    (hSpan :
      (events.foldl (step info) search).span? = some span) :
    search.span? = some span ∨
      ∃ event ∈ events,
        event.kind = .text ∧ event.span = span := by
  induction events generalizing search with
  | nil => exact Or.inl hSpan
  | cons event events ih =>
      rcases ih hSpan with hStep | ⟨other, hMem, hOther⟩
      · rcases span?_step hStep with hHere | hEvent
        · exact Or.inl hHere
        · exact Or.inr ⟨event, by simp, hEvent⟩
      · exact
          Or.inr
            ⟨other, List.mem_cons_of_mem _ hMem, hOther⟩

theorem foldl_waiting
    (hStart :
      ∀ event ∈ events,
        event.kind = .start → event.info ≠ info) :
    events.foldl (step info) .waiting = .waiting := by
  induction events with
  | nil => rfl
  | cons event events ih =>
      have hHead := hStart event (by simp)
      have hTail :=
        ih fun other hMem =>
          hStart other (List.mem_cons_of_mem _ hMem)
      have hStep : step info .waiting event = .waiting := by
        unfold step
        cases hKind : event.kind with
        | start => simp [hHead hKind]
        | text => rfl
        | finish => rfl
      rw [List.foldl_cons, hStep, hTail]

theorem foldl_opened
    (hText : ∀ event ∈ events, event.kind ≠ .text) :
    events.foldl (step info) .opened = .opened := by
  induction events with
  | nil => rfl
  | cons event events ih =>
      have hHead := hText event (by simp)
      have hTail :=
        ih fun other hMem =>
          hText other (List.mem_cons_of_mem _ hMem)
      have hStep : step info .opened event = .opened := by
        unfold step
        cases hKind : event.kind with
        | start => rfl
        | text => exact absurd hKind hHead
        | finish => rfl
      rw [List.foldl_cons, hStep, hTail]

theorem foldl_found
    (hFinish :
      ∀ event ∈ events,
        event.kind = .finish → event.info ≠ info) :
    events.foldl (step info) (.found span) =
      .found span := by
  induction events with
  | nil => rfl
  | cons event events ih =>
      have hHead := hFinish event (by simp)
      have hTail :=
        ih fun other hMem =>
          hFinish other (List.mem_cons_of_mem _ hMem)
      have hStep :
          step info (.found span) event = .found span := by
        unfold step
        cases hKind : event.kind with
        | start => rfl
        | text => rfl
        | finish => simp [hHead hKind]
      rw [List.foldl_cons, hStep, hTail]

theorem foldl_closed
    (events : List Event) :
    events.foldl (step info) (.closed span) =
      .closed span := by
  induction events with
  | nil => rfl
  | cons event events ih =>
      rw [List.foldl_cons]
      exact ih

/- A found text is kept up to the next finish. -/
theorem foldl_found_of_mem
    {event : Event}
    (hMem : event ∈ events)
    (hKind : event.kind = .finish)
    (hInfo : event.info = info) :
    events.foldl (step info) (.found span) =
      .closed span := by
  induction events with
  | nil => simp at hMem
  | cons other events ih =>
      rw [List.foldl_cons]
      rcases List.mem_cons.mp hMem with rfl | hMem
      · have hStep :
            step info (.found span) event =
              .closed span := by
          simp [step, hKind, hInfo]
        rw [hStep, foldl_closed]
      · have hStep :
            step info (.found span) other = .found span ∨
              step info (.found span) other =
                .closed span := by
          unfold step
          cases other.kind with
          | start => exact Or.inl rfl
          | text => exact Or.inl rfl
          | finish =>
              simp only
              split
              · exact Or.inr rfl
              · exact Or.inl rfl
        rcases hStep with hStep | hStep
        · rw [hStep, ih hMem]
        · rw [hStep, foldl_closed]

/- After an opening the first text is found. -/
theorem foldl_opened_of_text
    {before after : List Event}
    {event : Event}
    (hBefore : ∀ other ∈ before, other.kind ≠ .text)
    (hKind : event.kind = .text) :
    (before ++ event :: after).foldl (step info) .opened =
      after.foldl (step info) (.found event.span) := by
  rw [List.foldl_append, foldl_opened hBefore,
    List.foldl_cons]
  have hStep :
      step info .opened event = .found event.span := by
    simp [step, hKind]
  rw [hStep]

end Search

------------------------------------------------------------
-- Runs Over Blocks
------------------------------------------------------------

/- None of the blocks is a fence with the info. -/
def NoneMarked (info : Text) (blocks : List Block) : Prop :=
  ∀ fenced, .fence fenced ∈ blocks →
    fenced.marked info = false

theorem not_noneMarked_iff
    {info : Text}
    {blocks : List Block} :
    ¬ NoneMarked info blocks ↔
      ∃ fenced, .fence fenced ∈ blocks ∧
        fenced.marked info = true := by
  simp [NoneMarked]

/- The events of a block have a text among them. -/
def Block.hasText
    (lines : List Text)
    (block : Block) : Bool :=
  (block.events lines).any fun event =>
    decide (event.kind = .text)

section Blocks

variable {info : Text} {lines : List Text}
variable {first stop : Nat}
variable {blocks : List Block}

theorem info_ne_of_noneMarked
    (hWithin : AllWithin first stop blocks)
    (hNone : NoneMarked info blocks)
    {event : Event}
    (hMem : event ∈ blocks.flatMap (Block.events lines))
    (hKind : event.kind ≠ .text) :
    event.info ≠ info := by
  rcases List.mem_flatMap.mp hMem with
    ⟨block, hBlock, hEvent⟩
  rcases Block.exists_fence_of_kind_ne_text
      (Block.Within.of_mem hWithin hBlock) hEvent hKind with
    ⟨fenced, rfl, hInfo⟩
  have hMarked := hNone fenced hBlock
  unfold Fence.marked at hMarked
  rw [hInfo]
  simpa using hMarked

theorem kind_ne_text_of_hasText
    (hText : ∀ block ∈ blocks, block.hasText lines = false)
    {event : Event}
    (hMem : event ∈ blocks.flatMap (Block.events lines)) :
    event.kind ≠ .text := by
  rcases List.mem_flatMap.mp hMem with
    ⟨block, hBlock, hEvent⟩
  have hNone := hText block hBlock
  unfold Block.hasText at hNone
  rw [List.any_eq_false] at hNone
  simpa using hNone event hEvent

/- A fence with the info finishes the search. -/
theorem foldl_found_of_marked
    {fenced : Fence}
    (hMem : .fence fenced ∈ blocks)
    (hMarked : fenced.marked info = true)
    (span : Span) :
    (blocks.flatMap (Block.events lines)).foldl
        (Search.step info) (.found span) =
      .closed span := by
  rcases fenced.exists_finish lines with
    ⟨event, hEvent, hKind, hInfo⟩
  have hIn : event ∈ blocks.flatMap (Block.events lines) :=
    List.mem_flatMap.mpr ⟨_, hMem, hEvent⟩
  refine Search.foldl_found_of_mem hIn hKind ?_
  unfold Fence.marked at hMarked
  rw [hInfo]
  simpa using hMarked

/- Before a fence with the info the search waits. -/
theorem foldl_waiting_of_noneMarked
    (hWithin : AllWithin first stop blocks)
    (hNone : NoneMarked info blocks) :
    (blocks.flatMap (Block.events lines)).foldl
        (Search.step info) .waiting =
      .waiting := by
  apply Search.foldl_waiting
  intro event hMem hKind
  exact
    info_ne_of_noneMarked hWithin hNone hMem (by simp [hKind])

/- And a text that it has found is not taken for finished. -/
theorem foldl_found_of_noneMarked
    (hWithin : AllWithin first stop blocks)
    (hNone : NoneMarked info blocks)
    (span : Span) :
    (blocks.flatMap (Block.events lines)).foldl
        (Search.step info) (.found span) =
      .found span := by
  apply Search.foldl_found
  intro event hMem hKind
  exact
    info_ne_of_noneMarked hWithin hNone hMem (by simp [hKind])

/- The first text of a block. -/
theorem exists_first_text
    {block : Block}
    (hText : block.hasText lines = true) :
    ∃ before event after,
      block.events lines = before ++ event :: after ∧
        event.kind = .text ∧
        ∀ other ∈ before, other.kind ≠ .text := by
  unfold Block.hasText at hText
  cases hFind :
    (block.events lines).find? fun event =>
      decide (event.kind = .text) with
  | none =>
      rw [List.find?_eq_none] at hFind
      rw [List.any_eq_true] at hText
      rcases hText with ⟨event, hMem, hKind⟩
      exact absurd hKind (hFind event hMem)
  | some event =>
      rcases List.find?_eq_some_iff_append.mp hFind with
        ⟨hKind, before, after, hEvents, hBefore⟩
      refine
        ⟨before, event, after, hEvents,
          by simpa using hKind, ?_⟩
      intro other hMem
      simpa using hBefore other hMem

/- A block without the info gives its first text. -/
theorem foldl_opened_of_noneMarked
    {block : Block}
    (hWithin : block.Within first stop)
    (hNone : NoneMarked info [block])
    {before after : List Event}
    {event : Event}
    (hEvents : block.events lines = before ++ event :: after)
    (hKind : event.kind = .text)
    (hBefore : ∀ other ∈ before, other.kind ≠ .text) :
    (block.events lines).foldl (Search.step info) .opened =
      .found event.span := by
  rw [hEvents, Search.foldl_opened_of_text hBefore hKind]
  apply Search.foldl_found
  intro other hMem hOther
  have hIn : other ∈ [block].flatMap (Block.events lines) := by
    simp [hEvents, hMem]
  have hAll : AllWithin first stop [block] :=
    ⟨hWithin, True.intro⟩
  exact
    info_ne_of_noneMarked hAll hNone hIn (by simp [hOther])

section Marked

variable {fenced : Fence}
variable (hMarked : fenced.marked info = true)

include hMarked

/- A fence with the info and some content is found. -/
theorem foldl_events_of_filled
    (hFilled : fenced.filled = true)
    {search : Search}
    (hSearch : search = .waiting ∨ search = .opened) :
    (fenced.events lines).foldl (Search.step info) search =
      .closed
        (lineSpan lines (fenced.first + 1)
          fenced.textStop) := by
  unfold Fence.marked at hMarked
  unfold Fence.filled at hFilled
  simp only [decide_eq_true_eq] at hMarked hFilled
  rcases hSearch with rfl | rfl
  · simp [Fence.events, hFilled, Search.step, hMarked]
  · simp [Fence.events, hFilled, Search.step, hMarked]

/- Without content it only opens the search. -/
theorem foldl_events_of_not_filled
    (hFilled : fenced.filled = false) :
    (fenced.events lines).foldl (Search.step info)
        .waiting =
      .opened := by
  unfold Fence.marked at hMarked
  unfold Fence.filled at hFilled
  simp only [decide_eq_true_eq] at hMarked
  simp only [decide_eq_false_iff_not] at hFilled
  simp [Fence.events, hFilled, Search.step, hMarked]

end Marked

/- A fence of the top level has a text if it has content. -/
theorem hasText_fence
    (fenced : Fence) :
    (Block.fence fenced).hasText lines = fenced.filled := by
  unfold Block.hasText Fence.filled
  simp only [Block.events, Fence.events]
  split
  · next hFilled => simp [hFilled]
  · next hFilled => simp [hFilled]

end Blocks

------------------------------------------------------------
-- What Is Located
------------------------------------------------------------

section Documents

variable {info text : Text}

/- The search ends in the state that the blocks lead to. -/
theorem locate?_eq_some_iff
    (span : Span) :
    locate? info text = some span ↔
      ((blocks (plainText text)).flatMap
          (Block.events (rawLines text))).foldl
        (Search.step info) .waiting = .closed span := by
  have hEvents :
      events text =
        (blocks (plainText text)).flatMap
          (Block.events (rawLines text)) := rfl
  unfold locate?
  rw [hEvents]
  cases
    ((blocks (plainText text)).flatMap
      (Block.events (rawLines text))).foldl
        (Search.step info) .waiting with
  | waiting => simp
  | opened => simp
  | found other => simp
  | closed other => simp

theorem locate?_eq_none
    {search : Search}
    (hSearch :
      ((blocks (plainText text)).flatMap
          (Block.events (rawLines text))).foldl
        (Search.step info) .waiting = search)
    (hOpen : ∀ span, search ≠ .closed span) :
    locate? info text = none := by
  rw [Option.eq_none_iff_forall_ne_some]
  intro span hSome
  rw [locate?_eq_some_iff, hSearch] at hSome
  exact hOpen span hSome

/- The blocks of a document are in it. -/
theorem allWithin_of_append
    {before after : List Block}
    (hSplit : blocks (plainText text) = before ++ after) :
    AllWithin 0 (documentFrame text).limit before ∧
      AllWithin 0 (documentFrame text).limit after := by
  have hAll := blocks_within (plainText text)
  rw [hSplit, allWithin_append] at hAll
  exact hAll

/- Without a fence that has the info nothing is found. -/
theorem locate?_of_noneMarked
    (hNone : NoneMarked info (blocks (plainText text))) :
    locate? info text = none :=
  locate?_eq_none
    (foldl_waiting_of_noneMarked
      (blocks_within (plainText text)) hNone)
    (by simp)

section Split

variable {before after : List Block} {fence : Fence}
variable
  (hSplit :
    blocks (plainText text) =
      before ++ .fence fence :: after)
variable (hBefore : NoneMarked info before)
variable (hMarked : fence.marked info = true)

include hSplit hBefore hMarked

/- If the first fence with the info has content, it is it. -/
theorem locate?_of_filled
    (hFilled : fence.filled = true) :
    locate? info text =
      some
        (lineSpan (rawLines text) (fence.first + 1)
          fence.textStop) := by
  rw [locate?_eq_some_iff, hSplit, List.flatMap_append,
    List.foldl_append,
    foldl_waiting_of_noneMarked
      (allWithin_of_append hSplit).1 hBefore,
    List.flatMap_cons, List.foldl_append]
  change
    List.foldl _
      ((fence.events (rawLines text)).foldl
        (Search.step info) .waiting) _ = _
  rw [foldl_events_of_filled hMarked hFilled (Or.inl rfl),
    Search.foldl_closed]

/- If it has none, the search goes on behind it. -/
theorem foldl_blocks_of_not_filled
    (hFilled : fence.filled = false) :
    ((blocks (plainText text)).flatMap
          (Block.events (rawLines text))).foldl
        (Search.step info) .waiting =
      (after.flatMap (Block.events (rawLines text))).foldl
        (Search.step info) .opened := by
  rw [hSplit, List.flatMap_append, List.foldl_append,
    foldl_waiting_of_noneMarked
      (allWithin_of_append hSplit).1 hBefore,
    List.flatMap_cons, List.foldl_append]
  change
    List.foldl _
      ((fence.events (rawLines text)).foldl
        (Search.step info) .waiting) _ = _
  rw [foldl_events_of_not_filled hMarked hFilled]

/- Behind it there is no text. -/
theorem locate?_of_textless
    (hFilled : fence.filled = false)
    (hText :
      ∀ block ∈ after,
        block.hasText (rawLines text) = false) :
    locate? info text = none := by
  have hSearch :=
    foldl_blocks_of_not_filled hSplit hBefore hMarked hFilled
  rw [Search.foldl_opened fun event hMem =>
    kind_ne_text_of_hasText hText hMem] at hSearch
  exact locate?_eq_none hSearch (by simp)

variable {between rest : List Block} {stray : Block}
variable (hAfter : after = between ++ stray :: rest)
variable
  (hBetween :
    ∀ block ∈ between,
      block.hasText (rawLines text) = false)

include hAfter hBetween

/- The search comes to the next block with some text. -/
theorem foldl_blocks_of_stray
    (hFilled : fence.filled = false) :
    ((blocks (plainText text)).flatMap
          (Block.events (rawLines text))).foldl
        (Search.step info) .waiting =
      (rest.flatMap (Block.events (rawLines text))).foldl
        (Search.step info)
        ((stray.events (rawLines text)).foldl
          (Search.step info) .opened) := by
  rw [foldl_blocks_of_not_filled hSplit hBefore hMarked
      hFilled, hAfter, List.flatMap_append,
    List.foldl_append,
    Search.foldl_opened fun event hMem =>
      kind_ne_text_of_hasText hBetween hMem,
    List.flatMap_cons, List.foldl_append]

/- A fence with the info and some content is found there. -/
theorem locate?_of_stray_marked
    (hFilled : fence.filled = false)
    {other : Fence}
    (hStray : stray = .fence other)
    (hOther : other.marked info = true)
    (hContent : other.filled = true) :
    locate? info text =
      some
        (lineSpan (rawLines text) (other.first + 1)
          other.textStop) := by
  rw [locate?_eq_some_iff,
    foldl_blocks_of_stray hSplit hBefore hMarked hAfter
      hBetween hFilled, hStray]
  change
    List.foldl _
      ((other.events (rawLines text)).foldl
        (Search.step info) .opened) _ = _
  rw [foldl_events_of_filled hOther hContent (Or.inr rfl),
    Search.foldl_closed]

variable (hStray : NoneMarked info [stray])
variable {ahead behind : List Event} {event : Event}
variable
  (hEvents :
    stray.events (rawLines text) = ahead ++ event :: behind)
variable (hKind : event.kind = .text)
variable (hAhead : ∀ other ∈ ahead, other.kind ≠ .text)

include hStray hEvents hKind hAhead

/- Any other text is found as soon as a fence has the info. -/
theorem locate?_of_stray
    (hFilled : fence.filled = false)
    (hRest : ¬ NoneMarked info rest) :
    locate? info text = some event.span := by
  have hMem : stray ∈ blocks (plainText text) := by
    rw [hSplit, hAfter]
    simp
  have hWithin :=
    Block.Within.of_mem (blocks_within _) hMem
  rcases not_noneMarked_iff.mp hRest with
    ⟨other, hMem, hOther⟩
  rw [locate?_eq_some_iff,
    foldl_blocks_of_stray hSplit hBefore hMarked hAfter
      hBetween hFilled,
    foldl_opened_of_noneMarked hWithin hStray hEvents hKind
      hAhead]
  exact foldl_found_of_marked hMem hOther _

theorem locate?_of_stray_of_noneMarked
    (hFilled : fence.filled = false)
    (hRest : NoneMarked info rest) :
    locate? info text = none := by
  have hMem : stray ∈ blocks (plainText text) := by
    rw [hSplit, hAfter]
    simp
  have hWithin :=
    Block.Within.of_mem (blocks_within _) hMem
  have hBehind := (allWithin_of_append hSplit).2
  rw [hAfter] at hBehind
  simp only [AllWithin, allWithin_append] at hBehind
  have hSearch :=
    foldl_blocks_of_stray hSplit hBefore hMarked hAfter
      hBetween hFilled
  rw [foldl_opened_of_noneMarked hWithin hStray hEvents
      hKind hAhead,
    foldl_found_of_noneMarked hBehind.2.2.2 hRest]
    at hSearch
  exact locate?_eq_none hSearch (by simp)

end Split

/- What is located covers rows of the document. -/
theorem exists_range_of_locate?
    (hEnded : ∀ line ∈ rawLines text, EndedLine line)
    {span : Span}
    (hSpan : locate? info text = some span) :
    ∃ begins ends,
      span = lineSpan (rawLines text) begins ends ∧
        begins < (rawLines text).length ∧ begins < ends := by
  rw [locate?_eq_some_iff] at hSpan
  rcases Search.span?_foldl
      (congrArg Search.span? hSpan) with
    hNone | ⟨event, hMem, hKind, rfl⟩
  · simp [Search.span?] at hNone
  · rcases List.mem_flatMap.mp hMem with
      ⟨block, hBlock, hEvent⟩
    rcases exists_range_of_text
        (Block.Within.of_mem (blocks_within _) hBlock)
        (textStop_of_mem_blocks hEnded hBlock) hEvent
        hKind with
      ⟨begins, ends, hRange, _, hBegins, hEnds⟩
    refine ⟨begins, ends, hRange, ?_, hEnds⟩
    rw [← limit_documentFrame hEnded]
    exact hBegins

------------------------------------------------------------
-- The First Filled Fence
------------------------------------------------------------

/- The first fence with the info, if it has content. -/
theorem locate?_of_find?_marked
    (hEnded : ∀ line ∈ rawLines text, EndedLine line)
    {fence : Fence}
    (hFind :
      (fences text).find? (Fence.marked info) = some fence)
    (hFilled : fence.filled = true) :
    locate? info text = some (contentSpan text fence) := by
  rcases layout_of_mem_fences hEnded
      (List.mem_of_find?_eq_some hFind) with
    ⟨opening, hLayout⟩
  unfold fences at hFind
  rw [find?_filterMap_fence?_eq_some_iff] at hFind
  rcases hFind with
    ⟨hMarked, before, after, hSplit, hBefore⟩
  rw [locate?_of_filled hSplit hBefore hMarked hFilled,
    hLayout.textStop]
  rfl

/- The first fence with the info that has content. -/
def wanted? (info text : Text) : Option Fence :=
  (fences text).find? fun fence =>
    fence.marked info && fence.filled

theorem wanted?_eq_none
    (hNone :
      ∀ fence, .fence fence ∈ blocks (plainText text) →
        fence.marked info = true → fence.filled = false) :
    wanted? info text = none := by
  unfold wanted?
  rw [List.find?_eq_none]
  intro fence hMem
  rw [mem_fences_iff] at hMem
  cases hMarked : fence.marked info with
  | false => simp
  | true => simp [hNone fence hMem hMarked]

theorem wanted?_eq_some
    {before after : List Block}
    {fence : Fence}
    (hSplit :
      blocks (plainText text) =
        before ++ .fence fence :: after)
    (hMarked : fence.marked info = true)
    (hFilled : fence.filled = true)
    (hBefore :
      ∀ other, .fence other ∈ before →
        other.marked info = true → other.filled = false) :
    wanted? info text = some fence := by
  unfold wanted? fences
  rw [find?_filterMap_fence?_eq_some_iff]
  refine
    ⟨by simp [hMarked, hFilled], before, after, hSplit, ?_⟩
  intro other hMem
  cases hOther : other.marked info with
  | false => rfl
  | true => simp [hBefore other hMem hOther]

/-
  The search is misled: the first fence with the info has no
  content, the next block with some text is another one, and
  a fence with the info follows behind it.
-/
def Misled (info text : Text) : Prop :=
  ∃ before fence between stray rest,
    blocks (plainText text) =
        before ++
          .fence fence :: (between ++ stray :: rest) ∧
      NoneMarked info before ∧
      fence.marked info = true ∧
      fence.filled = false ∧
      (∀ block ∈ between,
        block.hasText (rawLines text) = false) ∧
      stray.hasText (rawLines text) = true ∧
      NoneMarked info [stray] ∧
      ¬ NoneMarked info rest

/- A fence without text in front of it has no content. -/
theorem filled_eq_false_of_hasText
    {blocks : List Block}
    (hText :
      ∀ block ∈ blocks,
        block.hasText (rawLines text) = false)
    {fence : Fence}
    (hMem : .fence fence ∈ blocks) :
    fence.filled = false := by
  have hFence := hText _ hMem
  rwa [hasText_fence] at hFence

/- Nor has one up to the first fence, if that has none. -/
theorem filled_eq_false_of_mem_append
    {before between : List Block}
    {fence : Fence}
    (hBefore : NoneMarked info before)
    (hFilled : fence.filled = false)
    (hText :
      ∀ block ∈ between,
        block.hasText (rawLines text) = false)
    {other : Fence}
    (hMem :
      .fence other ∈ before ++ .fence fence :: between)
    (hMarked : other.marked info = true) :
    other.filled = false := by
  rcases List.mem_append.mp hMem with hMem | hMem
  · simp [hBefore other hMem] at hMarked
  · rcases List.mem_cons.mp hMem with hEq | hMem
    · cases hEq
      exact hFilled
    · exact filled_eq_false_of_hasText hText hMem

/- Behind a fence without content some text comes next. -/
theorem locate?_eq_of_stray
    (hEnded : ∀ line ∈ rawLines text, EndedLine line)
    (hNot : ¬ Misled info text)
    {before after between rest : List Block}
    {fence : Fence}
    {stray : Block}
    (hSplit :
      blocks (plainText text) =
        before ++ .fence fence :: after)
    (hBefore : NoneMarked info before)
    (hMarked : fence.marked info = true)
    (hFilled : fence.filled = false)
    (hAfter : after = between ++ stray :: rest)
    (hBetween :
      ∀ block ∈ between,
        block.hasText (rawLines text) = false)
    (hText : stray.hasText (rawLines text) = true) :
    locate? info text =
      (wanted? info text).map (contentSpan text) := by
  have hStraySplit :
      blocks (plainText text) =
        (before ++ .fence fence :: between) ++
          stray :: rest := by
    rw [hSplit, hAfter]
    simp
  by_cases hStray : NoneMarked info [stray]
  · have hRest : NoneMarked info rest := by
      apply Classical.byContradiction
      intro hRest
      apply hNot
      exact
        ⟨before, fence, between, stray, rest,
          by rw [hSplit, hAfter], hBefore, hMarked,
          hFilled, hBetween, hText, hStray, hRest⟩
    rcases exists_first_text hText with
      ⟨ahead, event, behind, hEvents, hKind, hAhead⟩
    rw [locate?_of_stray_of_noneMarked hSplit hBefore
      hMarked hAfter hBetween hStray hEvents hKind hAhead
      hFilled hRest, wanted?_eq_none]
    · rfl
    · intro other hMem hOther
      rw [hStraySplit] at hMem
      rcases List.mem_append.mp hMem with hMem | hMem
      · exact
          filled_eq_false_of_mem_append hBefore hFilled
            hBetween hMem hOther
      · rcases List.mem_cons.mp hMem with hEq | hMem
        · simp [hStray other (by simp [hEq])] at hOther
        · simp [hRest other hMem] at hOther
  · rcases not_noneMarked_iff.mp hStray with
      ⟨other, hMem, hOther⟩
    have hEq := List.mem_singleton.mp hMem
    subst hEq
    rw [hasText_fence] at hText
    have hMem : other ∈ fences text := by
      rw [mem_fences_iff, hStraySplit]
      simp
    rcases layout_of_mem_fences hEnded hMem with
      ⟨opening, hLayout⟩
    rw [locate?_of_stray_marked hSplit hBefore hMarked
        hAfter hBetween hFilled rfl hOther hText,
      wanted?_eq_some hStraySplit hOther hText,
      hLayout.textStop]
    · rfl
    · intro first hFirst
      exact
        filled_eq_false_of_mem_append hBefore hFilled
          hBetween hFirst

/-
  Each case is one way in which the blocks behind the first
  fence with the info can go on.
-/
theorem locate?_eq_of_not_misled
    (hEnded : ∀ line ∈ rawLines text, EndedLine line)
    (hNot : ¬ Misled info text) :
    locate? info text =
      (wanted? info text).map (contentSpan text) := by
  cases hFind : (fences text).find? (Fence.marked info) with
  | none =>
      have hNone :
          NoneMarked info (blocks (plainText text)) := by
        intro fence hMem
        rw [List.find?_eq_none] at hFind
        simpa using hFind fence (mem_fences_iff.mpr hMem)
      rw [locate?_of_noneMarked hNone, wanted?_eq_none]
      · rfl
      · intro fence hMem hMarked
        simp [hNone fence hMem] at hMarked
  | some fence =>
      have hFirst := hFind
      unfold fences at hFirst
      rw [find?_filterMap_fence?_eq_some_iff] at hFirst
      rcases hFirst with
        ⟨hMarked, before, after, hSplit, hBefore⟩
      cases hFilled : fence.filled with
      | true =>
          rw [locate?_of_find?_marked hEnded hFind hFilled,
            wanted?_eq_some hSplit hMarked hFilled]
          · rfl
          · intro other hMem hOther
            simp [hBefore other hMem] at hOther
      | false =>
          cases hText :
            after.find? (Block.hasText (rawLines text)) with
          | none =>
              have hTextless :
                  ∀ block ∈ after,
                    block.hasText (rawLines text) =
                      false := by
                rw [List.find?_eq_none] at hText
                simpa using hText
              rw [locate?_of_textless hSplit hBefore hMarked
                hFilled hTextless, wanted?_eq_none]
              · rfl
              · intro other hMem
                rw [hSplit] at hMem
                exact
                  filled_eq_false_of_mem_append hBefore
                    hFilled hTextless hMem
          | some stray =>
              rcases List.find?_eq_some_iff_append.mp
                  hText with
                ⟨hStrayText, between, rest, hAfter,
                  hNoText⟩
              have hBetween :
                  ∀ block ∈ between,
                    block.hasText (rawLines text) =
                      false := by
                intro block hMem
                simpa using hNoText block hMem
              exact
                locate?_eq_of_stray hEnded hNot hSplit
                  hBefore hMarked hFilled hAfter hBetween
                  hStrayText

/-
  The text that a misled search finds begins before the first
  filled fence does, so it is not the content of that one.
-/
theorem locate?_ne_of_misled
    (hEnded : ∀ line ∈ rawLines text, EndedLine line)
    (hMisled : Misled info text) :
    locate? info text ≠
      (wanted? info text).map (contentSpan text) := by
  rcases hMisled with
    ⟨before, fence, between, stray, rest, hSplit, hBefore,
      hMarked, hFilled, hBetween, hText, hStray, hRest⟩
  rcases exists_first_text hText with
    ⟨ahead, event, behind, hEvents, hKind, hAhead⟩
  rw [locate?_of_stray hSplit hBefore hMarked rfl hBetween
    hStray hEvents hKind hAhead hFilled hRest]
  intro hEq
  rcases Option.map_eq_some_iff.mp hEq.symm with
    ⟨other, hWanted, hSpan⟩
  have hFound := List.find?_some hWanted
  simp only [Bool.and_eq_true] at hFound
  have hMem := List.mem_of_find?_eq_some hWanted
  rw [mem_fences_iff, hSplit] at hMem
  have hParts :
      blocks (plainText text) =
        (before ++ .fence fence :: between ++ [stray]) ++
          rest := by
    rw [hSplit]
    simp
  rcases blocks_append_within hParts with
    ⟨middle, hFront, hBack⟩
  -- The filled fence lies behind the stray text.
  have hIn : .fence other ∈ rest := by
    rw [← hSplit, hParts] at hMem
    rcases List.mem_append.mp hMem with hMem | hMem
    · exfalso
      rcases List.mem_append.mp hMem with hMem | hMem
      · have hNone :=
          filled_eq_false_of_mem_append hBefore hFilled
            hBetween hMem hFound.1
        simp [hNone] at hFound
      · simp [hStray other hMem] at hFound
    · exact hMem
  have hOther : other.Within middle _ :=
    Block.Within.of_mem hBack hIn
  have hStrayIn :
      stray ∈
        before ++ .fence fence :: between ++ [stray] :=
    List.mem_append_right _ List.mem_cons_self
  have hStrayMem : stray ∈ blocks (plainText text) := by
    rw [hParts]
    exact List.mem_append_left _ hStrayIn
  have hEvent : event ∈ stray.events (rawLines text) := by
    rw [hEvents]
    simp
  rcases exists_range_of_text
      (Block.Within.of_mem hFront hStrayIn)
      (textStop_of_mem_blocks hEnded hStrayMem) hEvent
      hKind with
    ⟨begins, ends, hRange, _, hBegins, _⟩
  have hFirst := hOther.first_le
  have hLast := hOther.lt_contentStop
  have hStop :=
    Nat.le_trans hOther.contentStop_le hOther.stop_le
  have hLimit := limit_documentFrame hEnded
  have hLt :
      lineOffset (rawLines text) begins <
        lineOffset (rawLines text) (other.first + 1) := by
    apply lineOffset_lt
    · intro line hMem
      exact (hEnded line hMem).isLine.ne_nil
    · omega
    · rw [← hLimit]
      exact Nat.le_trans hLast hStop
  have hStart := congrArg Span.start hSpan
  rw [hRange] at hStart
  change
    lineOffset (rawLines text) (other.first + 1) =
      lineOffset (rawLines text) begins at hStart
  omega

/- What is located comes behind the row of some fence. -/
theorem start_pos_of_locate?
    (hEnded : ∀ line ∈ rawLines text, EndedLine line)
    {span : Span}
    (hSpan : locate? info text = some span) :
    0 < span.start := by
  have hOffset :
      ∀ row, 0 < row → row ≤ (rawLines text).length →
        0 < lineOffset (rawLines text) row := by
    intro row hRow hLength
    have hLt :=
      lineOffset_lt
        (fun line hMem => (hEnded line hMem).isLine.ne_nil)
        hRow hLength
    exact Nat.lt_of_le_of_lt (Nat.zero_le _) hLt
  by_cases hMisled : Misled info text
  · rcases hMisled with
      ⟨before, fence, between, stray, rest, hSplit, hBefore,
        hMarked, hFilled, hBetween, hText, hStray, hRest⟩
    rcases exists_first_text hText with
      ⟨ahead, event, behind, hEvents, hKind, hAhead⟩
    rw [locate?_of_stray hSplit hBefore hMarked rfl hBetween
      hStray hEvents hKind hAhead hFilled hRest,
      Option.some.injEq] at hSpan
    have hParts :
        blocks (plainText text) =
          (before ++ .fence fence :: between) ++
            stray :: rest := by
      rw [hSplit]
      simp
    rcases blocks_append_within hParts with
      ⟨middle, hFront, hBack⟩
    have hFenceMem :
        .fence fence ∈ before ++ .fence fence :: between :=
      List.mem_append_right _ List.mem_cons_self
    have hFence : fence.Within 0 middle :=
      Block.Within.of_mem hFront hFenceMem
    have hStrayMem : stray ∈ blocks (plainText text) := by
      rw [hParts]
      simp
    have hEvent : event ∈ stray.events (rawLines text) := by
      rw [hEvents]
      simp
    rcases exists_range_of_text hBack.1
        (textStop_of_mem_blocks hEnded hStrayMem) hEvent
        hKind with
      ⟨begins, ends, hRange, hFirst, hBegins, _⟩
    have hLast := hFence.lt_contentStop
    have hStop :=
      Nat.le_trans hFence.contentStop_le hFence.stop_le
    have hLimit := limit_documentFrame hEnded
    rw [← hSpan, hRange]
    apply hOffset begins (by omega)
    rw [← hLimit]
    exact Nat.le_of_lt hBegins
  · rw [locate?_eq_of_not_misled hEnded hMisled] at hSpan
    rcases Option.map_eq_some_iff.mp hSpan with
      ⟨fence, hWanted, rfl⟩
    rcases layout_of_mem_fences hEnded
        (List.mem_of_find?_eq_some hWanted) with
      ⟨opening, hLayout⟩
    exact
      hOffset (fence.first + 1) (Nat.succ_pos _)
        (Nat.le_trans hLayout.lt_contentStop
          hLayout.contentStop_le)

/-
  What is located is the content of the first fence that has
  the info and some content, unless the search is misled.
-/
theorem located_iff_not_misled
    (info : Text)
    {text : Text}
    (hEnds : text.endsWith ['\n'] = true) :
    locate? info text =
        (wanted? info text).map (contentSpan text) ↔
      ¬ Misled info text := by
  have hEnded := forall_ended_of_endsWith hEnds
  constructor
  · intro hEq hMisled
    exact locate?_ne_of_misled hEnded hMisled hEq
  · intro hNot
    exact locate?_eq_of_not_misled hEnded hNot

/-
  A paragraph between an empty fence and a filled one is
  taken for the content of the second.
-/
theorem not_located_behind_paragraph :
    ¬ (locate? "cargo"
          "```cargo\n```\n\ntext\n\n```cargo\nx = 1\n```\n" =
        (wanted? "cargo"
          "```cargo\n```\n\ntext\n\n```cargo\nx = 1\n```\n").map
          (contentSpan
            "```cargo\n```\n\ntext\n\n```cargo\nx = 1\n```\n")) := by
  decide +kernel

theorem located_iff_of_empty_first :
    (locate? "cargo"
          "```cargo\n```\n\n```cargo\nx = 1\n```\n" =
        (wanted? "cargo"
          "```cargo\n```\n\n```cargo\nx = 1\n```\n").map
          (contentSpan
            "```cargo\n```\n\n```cargo\nx = 1\n```\n")) ↔
      ¬ Misled "cargo"
        "```cargo\n```\n\n```cargo\nx = 1\n```\n" :=
  located_iff_not_misled "cargo" (by decide)

end Documents

end Markdown

end ScriptWorkspace
