import ScriptWorkspace.Proofs.Markdown.Order
import ScriptWorkspace.Proofs.Markdown.Search

/-
  What the events of a document cover.

  Every event covers whole lines. The events of a fence of
  the top level cover its lines without a gap: the one that
  opens it, those of its content, and the one that closes it,
  if there is one. Other blocks make an event for each run of
  text in them, and since the blocks follow each other, and
  the parts of a container begin in order, the events do.

  Main declarations:
    * `Tiles`
    * `Fence.IsCovered`
    * `Block.exists_rows_of_mem_events`
    * `Block.pairwise_events`
    * `events_cover_lines`
-/

namespace ScriptWorkspace

namespace Markdown

open Text

------------------------------------------------------------
-- Spans Side By Side
------------------------------------------------------------

/- Spans from one offset to another, without a gap. -/
def Tiles (start stop : Nat) : List Span → Prop
  | [] => start = stop
  | span :: spans =>
    span.start = start ∧ span.start ≤ span.stop ∧
      Tiles span.stop stop spans

/- The event begins where the other one does, or before. -/
def Event.StartsBefore (event later : Event) : Prop :=
  event.span.start ≤ later.span.start

theorem Tiles.le_start
    {start stop : Nat}
    {spans : List Span}
    (hTiles : Tiles start stop spans)
    {span : Span}
    (hMem : span ∈ spans) :
    start ≤ span.start := by
  induction spans generalizing start with
  | nil => simp at hMem
  | cons first spans ih =>
      rcases hTiles with ⟨hStart, hLe, hRest⟩
      rcases List.mem_cons.mp hMem with rfl | hMem
      · exact Nat.le_of_eq hStart.symm
      · have hMore := ih hRest hMem
        omega

/- Such spans begin one after the other. -/
theorem Tiles.pairwise
    {start stop : Nat}
    {events : List Event}
    (hTiles : Tiles start stop (events.map Event.span)) :
    events.Pairwise Event.StartsBefore := by
  induction events generalizing start with
  | nil => exact List.Pairwise.nil
  | cons event events ih =>
      rcases hTiles with ⟨_, hLe, hRest⟩
      apply List.Pairwise.cons
      · intro later hLater
        exact
          Nat.le_trans hLe
            (hRest.le_start (List.mem_map_of_mem hLater))
      · exact ih hRest

/- A later line has a later offset, or the same one. -/
theorem lineOffset_mono
    (lines : List Text)
    {first second : Nat}
    (hLe : first ≤ second) :
    lineOffset lines first ≤ lineOffset lines second := by
  rcases Nat.exists_eq_add_of_le hLe with ⟨more, rfl⟩
  rw [lineOffset_eq_length, lineOffset_eq_length,
    List.take_add, List.flatten_append, List.length_append]
  exact Nat.le_add_right _ _

/- Rows that are not there add nothing to a span. -/
theorem exists_lines_of_lineSpan
    (lines : List Text)
    {first stop : Nat}
    (hLe : first ≤ stop) :
    ∃ begins ends,
      begins ≤ ends ∧ ends ≤ lines.length ∧
        lineSpan lines first stop =
          lineSpan lines begins ends := by
  refine
    ⟨min first lines.length, min stop lines.length, by omega,
      Nat.min_le_right _ _, ?_⟩
  unfold lineSpan
  rw [lineOffset_min, lineOffset_min]

------------------------------------------------------------
-- Fences
------------------------------------------------------------

/- An event of a fence that covers some lines. -/
def Fence.event
    (text : Text)
    (fence : Fence)
    (kind : EventKind)
    (first stop : Nat) : Event :=
  { kind
    info := Text.strip fence.info
    span := lineSpan (rawLines text) first stop }

/-
  The events of a fence: one for the line that opens it, one
  for the lines up to the first that closes it, if there are
  any, and one for the line that closes it. In a fence that
  is not closed the content goes on up to the last line of
  the document, and the last event is empty.
-/
structure Fence.IsCovered
    (text : Text)
    (opening : FenceOpening)
    (fence : Fence) : Prop
    extends fence.Layout text opening where
  stop_eq :
    fence.stop =
      min (fence.contentStop + 1) (rawLines text).length
  events_eq :
    fence.events (rawLines text) =
      [fence.event text .start fence.first
          (fence.first + 1)] ++
        (if fence.first + 1 < fence.contentStop then
          [fence.event text .text (fence.first + 1)
            fence.contentStop]
        else
          []) ++
        [fence.event text .finish fence.contentStop
          fence.stop]
  tiles :
    Tiles (lineOffset (rawLines text) fence.first)
      (lineOffset (rawLines text) fence.stop)
      ((fence.events (rawLines text)).map Event.span)

section Documents

variable {text : Text}
variable (hEnded : ∀ line ∈ rawLines text, EndedLine line)

include hEnded

/- A fence ends behind the line that closes it. -/
theorem Fence.Layout.stop_eq
    {fence : Fence}
    (hMem : fence ∈ fences text)
    {opening : FenceOpening}
    (hLayout : fence.Layout text opening) :
    fence.stop =
      min (fence.contentStop + 1) (rawLines text).length := by
  have hLimit := limit_documentFrame hEnded
  rcases exists_fenceOpening?_of_mem_fences hMem with
    ⟨other, _, hOpening, hFence⟩
  have hSame : other = opening :=
    Option.some.inj (hOpening.symm.trans hLayout.opens)
  have hBlock :=
    fenceBlock_documentFrame hEnded hLayout.lt_contentStop
      hLayout.not_closes
      (hLimit ▸ hLayout.contentStop_le)
      (hLimit ▸ hLayout.closes)
  rw [← hSame, ← hFence, hLimit] at hBlock
  have hStop := congrArg Fence.stop hBlock
  have hLe := hLayout.contentStop_le
  simp only at hStop
  rw [hStop]
  split
  · omega
  · omega

/- Every fence of a document is covered so. -/
theorem exists_isCovered_of_mem_fences
    {fence : Fence}
    (hMem : fence ∈ fences text) :
    ∃ opening, fence.IsCovered text opening := by
  rcases layout_of_mem_fences hEnded hMem with
    ⟨opening, hLayout⟩
  have hStop := hLayout.stop_eq hEnded hMem
  have hFirst := hLayout.lt_contentStop
  have hContent := hLayout.contentStop_le
  refine
    ⟨opening,
      { toLayout := hLayout
        stop_eq := hStop
        events_eq := ?_
        tiles := ?_ }⟩
  · unfold Fence.events Fence.event
    rw [hLayout.textStop]
    split
    · rfl
    · rfl
  · unfold Fence.events
    rw [hLayout.textStop]
    have hOpened :=
      lineOffset_mono (rawLines text)
        (Nat.le_add_right fence.first 1)
    have hFilled :=
      lineOffset_mono (rawLines text)
        (Nat.succ_le_of_lt hFirst)
    have hClosed :
        lineOffset (rawLines text) fence.contentStop ≤
          lineOffset (rawLines text) fence.stop := by
      apply lineOffset_mono
      omega
    split
    · exact ⟨rfl, hOpened, rfl, hFilled, rfl, hClosed, rfl⟩
    · next hEmpty =>
        have hNext : fence.contentStop = fence.first + 1 := by
          omega
        rw [hNext] at hClosed ⊢
        exact ⟨rfl, hOpened, rfl, hClosed, rfl⟩

end Documents

------------------------------------------------------------
-- Events Of Blocks
------------------------------------------------------------

section Blocks

variable (lines : List Text) {first stop : Nat}
variable {block : Block}

/- An event covers rows from a row of its block on. -/
theorem Block.exists_rows_of_mem_events
    (hWithin : block.Within first stop)
    (hTextStop :
      ∀ fence, block = .fence fence →
        fence.textStop = fence.contentStop)
    {event : Event}
    (hMem : event ∈ block.events lines) :
    ∃ begins ends,
      event.span = lineSpan lines begins ends ∧
        first ≤ begins ∧
        begins ≤ stop ∧
        begins ≤ ends := by
  rcases Block.mem_events_cases hWithin hMem with
    ⟨fence, rfl, hEvent⟩ |
    ⟨begins, ends, rfl, hFirst, hStop, hLt⟩
  · have hFence : fence.Within first stop := hWithin
    have hFirst := hFence.first_le
    have hLt := hFence.lt_contentStop
    have hLe := hFence.contentStop_le
    have hStop := hFence.stop_le
    simp only [Fence.events, hTextStop fence rfl] at hEvent
    split at hEvent
    · simp only [List.mem_cons, List.not_mem_nil,
        or_false] at hEvent
      rcases hEvent with rfl | rfl | rfl
      · exact ⟨_, _, rfl, by omega, by omega, by omega⟩
      · exact ⟨_, _, rfl, by omega, by omega, by omega⟩
      · exact ⟨_, _, rfl, by omega, by omega, by omega⟩
    · simp only [List.mem_cons, List.not_mem_nil,
        or_false] at hEvent
      rcases hEvent with rfl | rfl
      · exact ⟨_, _, rfl, by omega, by omega, by omega⟩
      · exact ⟨_, _, rfl, by omega, by omega, by omega⟩
  · exact
      ⟨begins, ends, rfl, hFirst, Nat.le_of_lt hStop,
        Nat.le_of_lt hLt⟩

mutual

/- Inside a container the events begin with the parts. -/
theorem Block.map_start_innerEvents :
    ∀ block : Block,
      (block.innerEvents lines).map (·.span.start) =
        block.starts.map (lineOffset lines)
  | .fence _ => rfl
  | .text _ _ => rfl
  | .container blocks => map_start_innerEventsOf blocks

theorem map_start_innerEventsOf :
    ∀ blocks : List Block,
      (innerEventsOf lines blocks).map (·.span.start) =
        (startsOf blocks).map (lineOffset lines)
  | [] => rfl
  | block :: blocks => by
    rw [innerEventsOf, startsOf, List.map_append,
      List.map_append, Block.map_start_innerEvents block,
      map_start_innerEventsOf blocks]

end

theorem Block.pairwise_innerEvents
    (hOrdered : block.starts.Pairwise (· ≤ ·)) :
    (block.innerEvents lines).Pairwise
      Event.StartsBefore := by
  have hOffsets :
      (block.starts.map (lineOffset lines)).Pairwise
        (· ≤ ·) := by
    rw [List.pairwise_map]
    exact hOrdered.imp (lineOffset_mono lines)
  rw [← Block.map_start_innerEvents,
    List.pairwise_map] at hOffsets
  exact hOffsets

/- The events of one block begin in order. -/
theorem Block.pairwise_events
    (hOrdered : block.starts.Pairwise (· ≤ ·))
    (hTiles :
      ∀ fence, block = .fence fence →
        Tiles (lineOffset lines fence.first)
          (lineOffset lines fence.stop)
          ((fence.events lines).map Event.span)) :
    (block.events lines).Pairwise Event.StartsBefore := by
  cases block with
  | fence fence => exact (hTiles fence rfl).pairwise
  | text begins ends =>
      exact Block.pairwise_innerEvents lines hOrdered
  | container blocks =>
      exact Block.pairwise_innerEvents lines hOrdered

end Blocks

------------------------------------------------------------
-- Events Of Documents
------------------------------------------------------------

section Documents

variable {text : Text}
variable (hEnded : ∀ line ∈ rawLines text, EndedLine line)

include hEnded

/- Every event of a document covers whole lines. -/
theorem exists_lines_of_mem_events
    {event : Event}
    (hMem : event ∈ events text) :
    ∃ first stop,
      first ≤ stop ∧ stop ≤ (rawLines text).length ∧
        event.span = lineSpan (rawLines text) first stop := by
  rcases List.mem_flatMap.mp hMem with
    ⟨block, hBlock, hEvent⟩
  rcases Block.exists_rows_of_mem_events (rawLines text)
      (Block.Within.of_mem (blocks_within _) hBlock)
      (textStop_of_mem_blocks hEnded hBlock) hEvent with
    ⟨begins, ends, hSpan, _, _, hLe⟩
  rw [hSpan]
  exact exists_lines_of_lineSpan _ hLe

/- The events of a document begin in order. -/
theorem pairwise_events :
    (events text).Pairwise Event.StartsBefore := by
  have hOrdered := blocks_ordered (plainText text)
  unfold AreOrdered at hOrdered
  rw [startsOf_eq_flatMap, List.pairwise_flatMap] at hOrdered
  unfold events
  rw [List.pairwise_flatMap]
  constructor
  · intro block hBlock
    apply Block.pairwise_events _ (hOrdered.1 block hBlock)
    rintro fence rfl
    rcases exists_isCovered_of_mem_fences hEnded
        (mem_fences_iff.mpr hBlock) with
      ⟨_, hCovered⟩
    exact hCovered.tiles
  · apply (pairwise_blocks (plainText text)).imp_of_mem
    rintro block later hBlock hLater
      ⟨middle, hWithin, hWithin'⟩ event hEvent other hOther
    rcases Block.exists_rows_of_mem_events _ hWithin
        (textStop_of_mem_blocks hEnded hBlock) hEvent with
      ⟨_, _, hSpan, _, hStop, _⟩
    rcases Block.exists_rows_of_mem_events _ hWithin'
        (textStop_of_mem_blocks hEnded hLater) hOther with
      ⟨_, _, hSpan', hFirst, _, _⟩
    unfold Event.StartsBefore
    rw [hSpan, hSpan']
    exact lineOffset_mono _ (Nat.le_trans hStop hFirst)

end Documents

/-
  In a document whose lines are all ended, the events of a
  fence of the top level stand together and cover its lines,
  every event covers whole lines, and none begins before an
  earlier one.
-/
theorem events_cover_lines
    {text : Text}
    (hEnded : ∀ line ∈ rawLines text, EndedLine line) :
    (∀ fence ∈ fences text,
        ∃ opening ahead behind,
          fence.IsCovered text opening ∧
            events text =
              ahead ++ fence.events (rawLines text) ++
                behind) ∧
      (∀ event ∈ events text,
        ∃ first stop,
          first ≤ stop ∧ stop ≤ (rawLines text).length ∧
            event.span =
              lineSpan (rawLines text) first stop) ∧
      (events text).Pairwise Event.StartsBefore := by
  refine
    ⟨?_, fun _ => exists_lines_of_mem_events hEnded,
      pairwise_events hEnded⟩
  intro fence hMem
  rcases exists_isCovered_of_mem_fences hEnded hMem with
    ⟨opening, hCovered⟩
  rcases List.append_of_mem (mem_fences_iff.mp hMem) with
    ⟨before, after, hBlocks⟩
  have hEvents :
      events text =
        before.flatMap (Block.events (rawLines text)) ++
            fence.events (rawLines text) ++
          after.flatMap (Block.events (rawLines text)) := by
    unfold events
    rw [hBlocks, List.flatMap_append, List.flatMap_cons,
      ← List.append_assoc]
    rfl
  exact ⟨opening, _, _, hCovered, hEvents⟩

/- A fence that is closed, and one that is not. -/
def twoFences : Text :=
  "```cargo\na = 1\n```\n~~~\nb\n"

theorem events_cover_lines_of_two_fences :
    (∀ line ∈ rawLines twoFences, EndedLine line) ∧
      (fences twoFences).map (fun fence =>
          (fence.first, fence.contentStop, fence.stop)) =
        [(0, 2, 3), (3, 5, 5)] ∧
      (∀ fence ∈ fences twoFences,
        ∃ opening, fence.IsCovered twoFences opening) ∧
      (events twoFences).map (fun event =>
          (event.kind, event.span.start, event.span.stop)) =
        [(.start, 0, 9), (.text, 9, 15), (.finish, 15, 19),
          (.start, 19, 23), (.text, 23, 25),
          (.finish, 25, 25)] ∧
      (events twoFences).Pairwise Event.StartsBefore := by
  have hEnded :
      ∀ line ∈ rawLines twoFences, EndedLine line :=
    forall_ended_of_endsWith (by decide)
  have hCover := events_cover_lines hEnded
  refine ⟨hEnded, ?_, ?_, ?_, hCover.2.2⟩
  · decide +kernel
  · intro fence hMem
    rcases hCover.1 fence hMem with
      ⟨opening, _, _, hCovered, _⟩
    exact ⟨opening, hCovered⟩
  · decide +kernel

end Markdown

end ScriptWorkspace
