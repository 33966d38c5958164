import ScriptWorkspace.Proofs.Script.CarriageReturns
import ScriptWorkspace.Proofs.Script.RoundTrip
import ScriptWorkspace.Proofs.Toml.Documents
import ScriptWorkspace.Proofs.Toml.Equality

/-
  What a manifest says after it was put into a script.

  A manifest that is put into a script and read again may
  have lost carriage returns and the spaces in front of its
  lines. It describes the same table if no line that begins
  inside of a string begins with a space, and if no line
  closes the fence.

  Main declarations:
    * `joinLineEnds_linesText`
    * `unindented_linesText`
    * `parse_linesText_of_areReread`
    * `embed_keeps_table`
    * `table_lost_in_indented_string`
-/

namespace ScriptWorkspace

namespace Script

open Text Markdown

------------------------------------------------------------
-- Line Ends Of Documents
------------------------------------------------------------

theorem dropCarriageReturn_cons
    {c : Char}
    {content : Text}
    (hLast : ¬ (c = '\r' ∧ content = [])) :
    dropCarriageReturn (c :: content) =
      c :: dropCarriageReturn content := by
  rcases List.eq_nil_or_concat content with
    rfl | ⟨init, d, rfl⟩
  · have hChar : c ≠ '\r' := by
      intro hChar
      exact hLast ⟨hChar, rfl⟩
    exact dropCarriageReturn_append_of_ne hChar []
  · rw [List.concat_eq_append, ← List.cons_append]
    by_cases hChar : d = '\r'
    · subst d
      rw [dropCarriageReturn_append, dropCarriageReturn_append]
    · rw [dropCarriageReturn_append_of_ne hChar,
        dropCarriageReturn_append_of_ne hChar]
      rfl

/- A carriage return goes with the line feed behind it. -/
theorem joinLineEnds_line
    {content : Text}
    (hFeed : '\n' ∉ content)
    (rest : Text) :
    Toml.joinLineEnds (content ++ '\n' :: rest) =
      dropCarriageReturn content ++
        '\n' :: Toml.joinLineEnds rest := by
  induction content with
  | nil => rfl
  | cons c content ih =>
      rw [List.mem_cons, not_or] at hFeed
      by_cases hLast : c = '\r' ∧ content = []
      · rcases hLast with ⟨rfl, rfl⟩
        rfl
      · have hJoin :
            Toml.joinLineEnds (c :: (content ++ '\n' :: rest)) =
              c :: Toml.joinLineEnds
                (content ++ '\n' :: rest) := by
          apply Toml.joinLineEnds.eq_3
          rintro after rfl hAfter
          cases content with
          | nil => exact hLast ⟨rfl, rfl⟩
          | cons d content =>
              cases hAfter
              exact hFeed.2 List.mem_cons_self
        have hDrop :
            dropCarriageReturn (c :: content) =
              c :: dropCarriageReturn content :=
          dropCarriageReturn_cons hLast
        rw [List.cons_append, hJoin, ih hFeed.2, hDrop]
        rfl

theorem joinLineEnds_linesText
    {contents : List Text}
    (hFeed : ∀ content ∈ contents, '\n' ∉ content) :
    Toml.joinLineEnds (linesText contents) =
      linesText (contents.map dropCarriageReturn) := by
  induction contents with
  | nil => rfl
  | cons content contents ih =>
      have hRest :=
        ih fun other hMem =>
          hFeed other (List.mem_cons_of_mem _ hMem)
      unfold linesText at hRest ⊢
      rw [List.flatMap_cons, List.append_assoc,
        List.singleton_append,
        joinLineEnds_line (hFeed _ List.mem_cons_self), hRest]
      simp

/- The spaces in front of a line go. -/
theorem unindented_line
    {content : Text}
    (hFeed : '\n' ∉ content)
    (rest : Text) :
    Toml.unindented true (content ++ '\n' :: rest) =
      content.dropWhile (· == ' ') ++
        '\n' :: Toml.unindented true rest := by
  induction content with
  | nil => rfl
  | cons c content ih =>
      have hLine := hFeed
      rw [List.mem_cons, not_or] at hFeed
      by_cases hSpace : c = ' '
      · subst c
        exact ih hFeed.2
      · have hHead :
            (c :: (content ++ '\n' :: rest)).head? ≠
              some ' ' := by
          simpa using hSpace
        rw [List.cons_append,
          Toml.unindented_true_of_ne hHead, ← List.cons_append,
          Toml.unindented_append hLine,
          Toml.unindented_newline,
          List.dropWhile_cons_of_neg (by simpa using hSpace)]

theorem unindented_linesText
    {contents : List Text}
    (hFeed : ∀ content ∈ contents, '\n' ∉ content) :
    Toml.unindented true (linesText contents) =
      linesText (contents.map (List.dropWhile (· == ' '))) := by
  induction contents with
  | nil => rfl
  | cons content contents ih =>
      have hRest :=
        ih fun other hMem =>
          hFeed other (List.mem_cons_of_mem _ hMem)
      unfold linesText at hRest ⊢
      rw [List.flatMap_cons, List.append_assoc,
        List.singleton_append,
        unindented_line (hFeed _ List.mem_cons_self), hRest]
      simp

/- A line end behind a text that has no stray one before it. -/
theorem joinLineEnds_append_newline
    {text : Text}
    (hReturn : '\r' ∉ Toml.joinLineEnds text) :
    Toml.joinLineEnds (text ++ ['\n']) =
      Toml.joinLineEnds text ++ ['\n'] := by
  fun_induction Toml.joinLineEnds text with
  | case1 => rfl
  | case2 rest ih =>
      rw [List.mem_cons, not_or] at hReturn
      rw [List.cons_append, List.cons_append,
        Toml.joinLineEnds, ih hReturn.2]
      rfl
  | case3 c rest hOther ih =>
      rw [List.mem_cons, not_or] at hReturn
      rw [List.cons_append, Toml.joinLineEnds.eq_3,
        ih hReturn.2]
      · rfl
      · rintro after rfl hAfter
        exact hReturn.1 rfl

theorem joinLineEnds_terminated
    {manifest : Text}
    (hReturn : '\r' ∉ Toml.joinLineEnds manifest) :
    ∃ ending : Text,
      (ending = [] ∨ ending = ['\n']) ∧
        Toml.joinLineEnds (terminated manifest) =
          Toml.joinLineEnds manifest ++ ending := by
  unfold terminated
  split
  · exact ⟨[], .inl rfl, by simp⟩
  · exact
      ⟨['\n'], .inr rfl, joinLineEnds_append_newline hReturn⟩

------------------------------------------------------------
-- Manifests That Keep Their Tables
------------------------------------------------------------

/- The lines of a manifest without their carriage returns. -/
theorem joinLineEnds_manifestLines (manifest : Text) :
    Toml.joinLineEnds (terminated manifest) =
      linesText
        ((manifestLines (terminated manifest)).map
          dropCarriageReturn) := by
  rw [← joinLineEnds_linesText
      (fun _ => not_mem_of_mem_manifestLines),
    linesText_manifestLines]

/- No line of a document has a stray carriage return. -/
theorem not_mem_dropCarriageReturn_of_parse
    {manifest : Text}
    {table : Toml.Table}
    (hParse : Toml.parse manifest = .ok table) :
    ∀ line ∈ manifestLines (terminated manifest),
      '\r' ∉ dropCarriageReturn line := by
  have hReturn := Toml.not_mem_joinLineEnds_of_parse hParse
  rcases joinLineEnds_terminated hReturn with
    ⟨ending, hEnding, hEnded⟩
  have hNone : '\r' ∉ Toml.joinLineEnds manifest ++ ending := by
    rcases hEnding with rfl | rfl
    · simpa using hReturn
    · simpa using hReturn
  rw [← hEnded, joinLineEnds_manifestLines] at hNone
  intro line hLine hMem
  apply hNone
  exact
    List.mem_flatMap.mpr
      ⟨dropCarriageReturn line, List.mem_map_of_mem hLine,
        List.mem_append_left _ hMem⟩

/- What is read again of a document describes its table. -/
theorem parse_linesText_of_areReread
    {manifest : Text}
    {table : Toml.Table}
    (hParse : Toml.parse manifest = .ok table)
    (hFlush : Toml.IsFlush (terminated manifest))
    {news : List Text}
    (hNews :
      AreReread (manifestLines (terminated manifest)) news)
    (hFeed : ∀ new ∈ news, '\n' ∉ new) :
    Toml.parse (linesText news) = .ok table := by
  rcases joinLineEnds_terminated
      (Toml.not_mem_joinLineEnds_of_parse hParse) with
    ⟨ending, hEnding, hEnded⟩
  unfold Toml.IsFlush at hFlush
  rw [hEnded] at hFlush
  have hLineFeed :
      ∀ line ∈
          (manifestLines (terminated manifest)).map
            dropCarriageReturn,
        '\n' ∉ line := by
    intro line hMem
    rcases List.mem_map.mp hMem with ⟨whole, hWhole, rfl⟩
    exact
      not_mem_dropCarriageReturn
        (not_mem_of_mem_manifestLines hWhole)
  apply Toml.parse_of_unindented hParse hEnding hFlush
  rw [← hEnded, joinLineEnds_manifestLines,
    unindented_linesText hLineFeed, List.map_map,
    joinLineEnds_linesText hFeed, hNews]
  rfl

/-
  A manifest that is put into a source describes the same
  table when it is read out of the script. None of its lines
  may close the fence, and none that begins inside of a
  string may begin with a space.
-/
theorem embed_keeps_table
    {script : Text}
    {source : Source}
    (hRead : Source.read script = .ok source)
    {fence : Fence}
    (hFind :
      (fences source.body).find?
          (Fence.marked manifestInfo) =
        some fence)
    (hFilled : fence.filled = true)
    {opening : FenceOpening}
    (hOpening :
      (documentFrame source.body).fenceOpening?
          fence.first =
        some opening)
    {manifest : Text}
    (hNe : manifest ≠ [])
    {table : Toml.Table}
    (hParse : Toml.parse manifest = .ok table)
    (hFlush : Toml.IsFlush (terminated manifest))
    (hOpen :
      ∀ line ∈ manifest.splitOn '\n',
        ¬ IsClosingLine opening.mark opening.length
          (dropCarriageReturn line)) :
    ∃ whole found,
      embed script manifest = .ok whole ∧
        extract whole = .ok found ∧
        Toml.parse found = .ok table := by
  rcases extract_replace_reread hRead hFind hFilled hOpening
      hNe (not_mem_dropCarriageReturn_of_parse hParse)
      (fun line hMem =>
        hOpen line (mem_splitOn_of_mem_manifestLines hMem))
    with ⟨whole, old, news, hReplace, hExtract, hNews, hFeed⟩
  have hEmbed : embed script manifest = .ok whole := by
    unfold embed
    rw [hReplace]
    rfl
  exact
    ⟨whole, linesText news, hEmbed, hExtract,
      parse_linesText_of_areReread hParse hFlush hNews hFeed⟩

/-
  Carriage returns, an indented key, and a string of several
  lines with a line that looks like a fence.
-/
theorem embed_keeps_table_of_long_string :
    Toml.parse
          "[a]\r\n  b = 1\r\nc = '''\r\n``` x\r\n'''" =
        .ok
          [("a",
            .table
              [("b", .int 1), ("c", .string "``` x\n")])] ∧
      ∃ whole found,
        embed "//! ```cargo\n//! x = 1\n//! ```\n"
            "[a]\r\n  b = 1\r\nc = '''\r\n``` x\r\n'''" =
          .ok whole ∧
          extract whole = .ok found ∧
          Toml.parse found =
            .ok
              [("a",
                .table
                  [("b", .int 1),
                    ("c", .string "``` x\n")])] := by
  have hParse :
      Toml.parse
          "[a]\r\n  b = 1\r\nc = '''\r\n``` x\r\n'''" =
        .ok
          [("a",
            .table
              [("b", .int 1), ("c", .string "``` x\n")])] := by
    decide +kernel
  have hOpening :
      (documentFrame plainSource.body).fenceOpening?
          plainFence.first =
        some { mark := '`', length := 3, info := "cargo" } := by
    decide +kernel
  have hVisible :
      ∀ line ∈
          splitOn '\n'
            "[a]\r\n  b = 1\r\nc = '''\r\n``` x\r\n'''",
        (dropCarriageReturn line).any
            (fun c => c != '`' && !isSpaceOrTab c) =
          true := by
    decide +kernel
  refine
    ⟨hParse,
      embed_keeps_table read_plainSource find?_plainSource
        (by decide) hOpening (by decide) hParse
        (by decide +kernel) ?_⟩
  intro line hMem
  rcases List.any_eq_true.mp (hVisible line hMem) with
    ⟨c, hIn, hVisible⟩
  simp only [Bool.and_eq_true, bne_iff_ne,
    Bool.not_eq_true'] at hVisible
  exact not_isClosingLine_of_mem hIn hVisible.1 hVisible.2

/-
  A line of a string loses the spaces in front of it, and the
  manifest that is read says something else.
-/
theorem table_lost_in_indented_string :
    Source.read "//! ```cargo\n//! x = 1\n//! ```\n" =
        .ok plainSource ∧
      (fences plainSource.body).find?
          (Fence.marked manifestInfo) =
        some plainFence ∧
      plainFence.filled = true ∧
      Toml.parse "a = \"\"\"\n  x\"\"\"\n" =
        .ok [("a", .string "  x")] ∧
      embed "//! ```cargo\n//! x = 1\n//! ```\n"
          "a = \"\"\"\n  x\"\"\"\n" =
        .ok
          "//! ```cargo\n//! a = \"\"\"\n//!   x\"\"\"\n//! ```\n" ∧
      ¬ ∃ found,
          extract
              "//! ```cargo\n//! a = \"\"\"\n//!   x\"\"\"\n//! ```\n" =
            .ok found ∧
            Toml.parse found = .ok [("a", .string "  x")] := by
  refine
    ⟨read_plainSource, find?_plainSource, by decide,
      by decide +kernel, by decide +kernel, ?_⟩
  rintro ⟨found, hExtract, hParse⟩
  have hFound :
      extract
          "//! ```cargo\n//! a = \"\"\"\n//!   x\"\"\"\n//! ```\n" =
        .ok "a = \"\"\"\nx\"\"\"\n" := by
    decide +kernel
  have hOther :
      Toml.parse "a = \"\"\"\nx\"\"\"\n" =
        .ok [("a", .string "x")] := by
    decide +kernel
  rw [hFound, Except.ok.injEq] at hExtract
  rw [← hExtract, hOther] at hParse
  cases hParse

end Script

end ScriptWorkspace
