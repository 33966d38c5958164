import ScriptWorkspace.Proofs.Markdown.Progress

/-
  The rows at which the parts of a document begin.

  A reader takes the rows in order, and so do the readers of
  what containers hold. So among the runs of text and the
  fences of a document, at whatever depth, none begins before
  an earlier one. The reader of a block puts its parts between
  its first row and the row that it reaches, which is where
  the next block is looked for, and from this the order goes
  through by induction over the levels.

  Main declarations:
    * `Block.starts`
    * `AreOrdered`
    * `BlockReader.IsOrdered`
    * `readBlock_ordered`
    * `readBlocksFrom_ordered`
    * `readerAt_ordered`
    * `blocks_ordered`
-/

namespace ScriptWorkspace

namespace Markdown

------------------------------------------------------------
-- First Rows
------------------------------------------------------------

mutual

/- The rows at which the parts of a block begin. -/
def Block.starts : Block → List Nat
  | .fence fenced => [fenced.first]
  | .text first _ => [first]
  | .container blocks => startsOf blocks

/- The rows at which the parts of some blocks begin. -/
def startsOf : List Block → List Nat
  | [] => []
  | block :: blocks => block.starts ++ startsOf blocks

end

theorem startsOf_eq_flatMap (blocks : List Block) :
    startsOf blocks = blocks.flatMap Block.starts := by
  induction blocks with
  | nil => rfl
  | cons block blocks ih =>
      rw [startsOf, ih, List.flatMap_cons]

mutual

/- The parts of a block begin in its range. -/
theorem Block.bounds_of_mem_starts
    {first stop row : Nat} :
    ∀ {block : Block},
      block.Within first stop →
        row ∈ block.starts → first ≤ row ∧ row < stop
  | .fence fenced, hWithin, hMem => by
    have hFence : fenced.Within first stop := hWithin
    have hFirst := hFence.first_le
    have hLt := hFence.lt_contentStop
    have hLe := hFence.contentStop_le
    have hStop := hFence.stop_le
    rw [Block.starts, List.mem_singleton] at hMem
    omega
  | .text _ _, ⟨hBegins, hLt, _⟩, hMem => by
    rw [Block.starts, List.mem_singleton] at hMem
    omega
  | .container _, hWithin, hMem =>
    bounds_of_mem_startsOf hWithin hMem

theorem bounds_of_mem_startsOf
    {first stop row : Nat} :
    ∀ {blocks : List Block},
      AllWithin first stop blocks →
        row ∈ startsOf blocks → first ≤ row ∧ row < stop
  | [], _, hMem => by simp [startsOf] at hMem
  | block :: blocks, hWithin, hMem => by
    rw [startsOf, List.mem_append] at hMem
    rcases hMem with hHere | hMore
    · exact Block.bounds_of_mem_starts hWithin.1 hHere
    · exact bounds_of_mem_startsOf hWithin.2 hMore

end

/- No part of some blocks begins before an earlier one. -/
def AreOrdered (blocks : List Block) : Prop :=
  (startsOf blocks).Pairwise (· ≤ ·)

theorem areOrdered_nil : AreOrdered [] :=
  List.Pairwise.nil

theorem areOrdered_text (first stop : Nat) :
    AreOrdered [.text first stop] :=
  List.pairwise_singleton _ _

theorem areOrdered_fence (fenced : Fence) :
    AreOrdered [.fence fenced] :=
  List.pairwise_singleton _ _

theorem areOrdered_container_iff (blocks : List Block) :
    AreOrdered [.container blocks] ↔ AreOrdered blocks := by
  unfold AreOrdered
  rw [startsOf, startsOf, List.append_nil, Block.starts]

/- Blocks up to a row, and then blocks from this row on. -/
theorem AreOrdered.append
    {first middle stop : Nat}
    {before after : List Block}
    (hBefore : AreOrdered before)
    (hAfter : AreOrdered after)
    (hFront : AllWithin first middle before)
    (hBack : AllWithin middle stop after) :
    AreOrdered (before ++ after) := by
  unfold AreOrdered at *
  rw [startsOf_eq_flatMap, List.flatMap_append,
    ← startsOf_eq_flatMap, ← startsOf_eq_flatMap,
    List.pairwise_append]
  refine ⟨hBefore, hAfter, ?_⟩
  intro row hRow other hOther
  have hLt := (bounds_of_mem_startsOf hFront hRow).2
  have hLe := (bounds_of_mem_startsOf hBack hOther).1
  omega

------------------------------------------------------------
-- Readers
------------------------------------------------------------

/- What a reader answers with is ordered. -/
def BlockReader.IsOrdered (reader : BlockReader) : Prop :=
  ∀ frame line stop,
    stop ≤ frame.limit →
      AreOrdered (reader frame line stop).1

namespace Frame

section Containers

variable {content : BlockReader}
variable (hOrdered : content.IsOrdered)

include hOrdered

theorem readQuote_ordered
    (frame : Frame)
    {line stop : Nat}
    (hLine : line < stop)
    (hStop : stop ≤ frame.limit) :
    AreOrdered (frame.readQuote content line stop).1 := by
  have hRows :=
    frame.quoteRows_bounds (stop - line)
      (Nat.succ_le_of_lt hLine)
      (frame.row line).unquoted.isEmpty
      (frame.setRow line (frame.row line).unquoted)
  simp only [readQuote]
  generalize hResult :
    frame.quoteRows stop (stop - line) (line + 1)
      (frame.row line).unquoted.isEmpty
      (frame.setRow line (frame.row line).unquoted) =
        result at hRows ⊢
  rcases result with ⟨inner, last, ended⟩
  simp only at hRows ⊢
  rw [areOrdered_container_iff]
  apply hOrdered
  simp only
  split
  · exact Nat.le_refl _
  · exact Nat.le_trans hRows.2.1 hStop

theorem readItem_ordered
    {frame : Frame}
    (marker : ItemMarker)
    (line : Nat)
    {stop : Nat}
    (hStop : stop ≤ frame.limit) :
    AreOrdered
      (frame.readItem content marker line stop).1 := by
  simp only [readItem]
  split
  · exact areOrdered_nil
  · exact hOrdered _ line stop hStop

variable (hContent : content.Advances)

include hContent

/- Each item ends where the next one begins. -/
theorem readItems_ordered
    {frame : Frame}
    {stop : Nat}
    (hStop : stop ≤ frame.limit)
    (fuel : Nat)
    (marker : ItemMarker)
    {line : Nat}
    (hLine : line < stop) :
    AreOrdered
      (frame.readItems content stop fuel marker line).1 := by
  induction fuel generalizing marker line with
  | zero => exact areOrdered_nil
  | succ fuel ih =>
      have hItem :=
        readItem_ordered hOrdered marker line hStop
      have hWithin :=
        (readItem_advances hContent marker hLine hStop).2
      simp only [readItems]
      generalize
        frame.readItem content marker line stop = result
          at hItem hWithin ⊢
      rcases result with ⟨blocks, next⟩
      simp only at hItem hWithin ⊢
      split
      · exact hItem
      · next hOn =>
          have hNext : next < stop := by
            simp only [ge_iff_le, Bool.or_eq_true,
              decide_eq_true_eq, not_or, Nat.not_le] at hOn
            exact hOn.1.1.1
          split
          · exact hItem
          · split
            · exact hItem
            · next following _ _ =>
                have hMore :=
                  readItems_advances hContent hStop fuel
                    following hNext
                rw [Nat.min_eq_right
                  (Nat.le_of_lt hNext)] at hWithin
                exact
                  hItem.append (ih following hNext) hWithin
                    hMore.2.2

end Containers

/- The cells of a table are in the order of its rows. -/
theorem tableBlocks_ordered
    (columns first stop : Nat) :
    AreOrdered (tableBlocks columns first stop) := by
  have hStarts :
      ∀ line row,
        row ∈ ((if line = first + 1 then []
            else List.replicate columns
              (.text line (line + 1)) :
            List Block)).flatMap Block.starts →
          row = line := by
    intro line row hMem
    rcases List.mem_flatMap.mp hMem with
      ⟨block, hBlock, hRow⟩
    split at hBlock
    · simp at hBlock
    · rw [(List.mem_replicate.mp hBlock).2, Block.starts,
        List.mem_singleton] at hRow
      exact hRow
  unfold AreOrdered tableBlocks
  rw [startsOf_eq_flatMap, List.flatMap_assoc,
    List.pairwise_flatMap]
  constructor
  · intro line _
    apply List.pairwise_of_forall_mem_list
    intro row hRow other hOther
    have hSame := hStarts line other hOther
    exact Nat.le_of_eq ((hStarts line row hRow).trans hSame.symm)
  · apply (List.pairwise_lt_range' 1).imp
    intro line later hLt row hRow other hOther
    rw [hStarts line row hRow, hStarts later other hOther]
    exact Nat.le_of_lt hLt

end Frame

section Blocks

variable {quoted listed : BlockReader}
variable (hQuoted : quoted.IsOrdered)
variable (hListed : listed.IsOrdered)
variable (hAdvances : listed.Advances)

include hQuoted hListed hAdvances

/- Only containers have several parts. -/
theorem readBlock_ordered
    {frame : Frame}
    {line stop : Nat}
    (hLine : line < stop)
    (hStop : stop ≤ frame.limit) :
    AreOrdered
      (readBlock quoted listed frame line stop).1 := by
  unfold readBlock
  split
  · rw [areOrdered_container_iff]
    exact Frame.tableBlocks_ordered _ _ _
  · split
    · exact areOrdered_text _ _
    · split
      · exact areOrdered_fence _
      · split
        · exact
            Frame.readQuote_ordered hQuoted frame hLine hStop
        · split
          · exact areOrdered_nil
          · split
            · next marker _ =>
                rw [areOrdered_container_iff]
                exact
                  Frame.readItems_ordered hListed hAdvances
                    hStop _ marker hLine
            · split
              · exact areOrdered_nil
              · split
                · exact areOrdered_nil
                · split
                  · exact areOrdered_text _ _
                  · split
                    · exact areOrdered_text _ _
                    · exact areOrdered_text _ _

variable (hAdvances' : quoted.Advances)

include hAdvances'

/- Each block ends before the next one is looked for. -/
theorem readBlocksFrom_ordered
    {frame : Frame}
    {stop : Nat}
    (hStop : stop ≤ frame.limit)
    (fuel line : Nat) :
    AreOrdered
      (readBlocksFrom quoted listed frame stop
        fuel line).1 := by
  induction fuel generalizing line with
  | zero => exact areOrdered_nil
  | succ fuel ih =>
      rw [readBlocksFrom_succ]
      split
      · exact areOrdered_nil
      · split
        · exact areOrdered_nil
        · next hOn =>
            have hLt := Nat.lt_of_not_le (not_or.mp hOn).1
            have hBlock :=
              readBlock_ordered hQuoted hListed hAdvances hLt
                hStop
            have hFront :=
              (readBlock_advances hAdvances' hAdvances hLt
                hStop).2
            have hAfter :=
              frame.le_afterBlock stop
                (readBlock quoted listed frame
                  (frame.skipEmpty line) stop).2
            have hBack :=
              (readBlocksFrom_advances hAdvances' hAdvances
                hStop fuel
                (frame.afterBlock stop
                  (readBlock quoted listed frame
                    (frame.skipEmpty line) stop).2)).2
            exact
              hBlock.append (ih _)
                (AllWithin.mono (Nat.le_refl _)
                  (Nat.le_trans (Nat.min_le_right _ _) hAfter)
                  hFront)
                hBack

theorem readBlocks_ordered :
    (readBlocks quoted listed).IsOrdered :=
  fun _ line _ hStop =>
    readBlocksFrom_ordered hQuoted hListed hAdvances
      hAdvances' hStop _ line

end Blocks

theorem skipContent_ordered :
    BlockReader.IsOrdered skipContent := by
  intro frame line stop _
  simp only [skipContent]
  split
  · exact areOrdered_nil
  · exact areOrdered_nil

/- The readers of every depth keep the order. -/
theorem readerAt_ordered
    (levels : Nat) :
    (readerAt levels).IsOrdered := by
  induction levels using readerAt.induct with
  | case1 => exact skipContent_ordered
  | case2 =>
      exact
        readBlocks_ordered skipContent_ordered
          skipContent_ordered skipContent_advances
          skipContent_advances
  | case3 levels ihQuoted ihListed =>
      exact
        readBlocks_ordered ihQuoted ihListed
          (readerAt_advances levels)
          (readerAt_advances (levels + 1))

/- So the parts of a document begin in order. -/
theorem blocks_ordered (text : Text) :
    AreOrdered (blocks text) :=
  readerAt_ordered maxLevels _ 0 _ (Nat.le_refl _)

/- A block of a document ends where a later one begins. -/
theorem pairwise_blocks (text : Text) :
    (blocks text).Pairwise fun block later =>
      ∃ middle,
        block.Within 0 middle ∧
          later.Within middle (Frame.ofText text).limit := by
  rw [List.pairwise_iff_getElem]
  intro index next hIndex hNext hLt
  have hSplit :=
    List.take_append_drop (index + 1) (blocks text)
  rcases blocks_append_within hSplit.symm with
    ⟨middle, hBefore, hAfter⟩
  refine
    ⟨middle, Block.Within.of_mem hBefore ?_,
      Block.Within.of_mem hAfter ?_⟩
  · rw [List.mem_take_iff_getElem]
    exact ⟨index, by omega, rfl⟩
  · rw [List.mem_drop_iff_getElem]
    exact ⟨next - (index + 1), by omega, by congr 1; omega⟩

end Markdown

end ScriptWorkspace
