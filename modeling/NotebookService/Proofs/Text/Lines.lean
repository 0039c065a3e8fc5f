/-
# `NotebookService.Proofs.Text.Lines` — lines put together and taken apart

A text is put together from lines by `unlines`.  Taking it apart gives the same pieces
back as long as no piece holds a line feed; that is all that `splitAtFeeds` needs.
`lines` does more: a carriage return at the end of a line goes with the line feed, and a
last piece without anything in it is no line.

What the lines of a text are thus hangs on what follows each of them.
`lines_unlines_append` keeps that apart: the first lines come back as they were put in,
up to a carriage return, and those that follow are the lines of the rest.
-/
import NotebookService.Proofs.Text.Trim
import NotebookService.Text.Lines

namespace NotebookService.Text

/-! ## Pieces -/

theorem splitAtFeeds_of_not_mem {l : List Char} (h : '\n' ∉ l) :
    splitAtFeeds l = [l] := by
  induction l with
  | nil => rfl
  | cons c l ih =>
      obtain ⟨hc, hl⟩ := not_or.1 (mt List.mem_cons.2 h)
      rw [splitAtFeeds, if_neg (Ne.symm hc), ih hl]

theorem exists_splitAtFeeds_eq (s : List Char) :
    ∃ ls, splitAtFeeds s = s.takeWhile (· ≠ '\n') :: ls := by
  induction s with
  | nil => exact ⟨[], rfl⟩
  | cons c s ih =>
      obtain ⟨ls, ih⟩ := ih
      by_cases hc : c = '\n'
      · exact ⟨splitAtFeeds s, by simp [splitAtFeeds, hc]⟩
      · exact ⟨ls, by simp [splitAtFeeds, hc, ih]⟩

/-- A line feed ends a piece wherever it stands. -/
theorem splitAtFeeds_append (s t : List Char) :
    splitAtFeeds (s ++ '\n' :: t) = splitAtFeeds s ++ splitAtFeeds t := by
  induction s with
  | nil => rfl
  | cons c s ih =>
      rw [List.cons_append, splitAtFeeds, splitAtFeeds, ih]
      split
      · rfl
      · obtain ⟨ls, hs⟩ := exists_splitAtFeeds_eq s
        rw [hs]
        rfl

theorem splitAtFeeds_append_feed {l : List Char} (h : '\n' ∉ l) (s : List Char) :
    splitAtFeeds (l ++ '\n' :: s) = l :: splitAtFeeds s := by
  rw [splitAtFeeds_append, splitAtFeeds_of_not_mem h, List.singleton_append]

theorem splitAtFeeds_append_of_not_mem {s t : List Char} (hs : '\n' ∉ s) {l : List Char}
    {ls : List (List Char)} (ht : splitAtFeeds t = l :: ls) :
    splitAtFeeds (s ++ t) = (s ++ l) :: ls := by
  induction s with
  | nil => exact ht
  | cons c s ih =>
      obtain ⟨hc, hs⟩ := not_or.1 (mt List.mem_cons.2 hs)
      rw [List.cons_append, splitAtFeeds, if_neg (Ne.symm hc), ih hs]
      rfl

theorem exists_mem_splitAtFeeds {s : List Char} {c : Char} :
    (∃ l ∈ splitAtFeeds s, c ∈ l) ↔ c ∈ s ∧ c ≠ '\n' := by
  induction s with
  | nil => simp [splitAtFeeds]
  | cons d s ih =>
      obtain ⟨ls, hs⟩ := exists_splitAtFeeds_eq s
      rw [splitAtFeeds]
      split
      · simp only [List.mem_cons, exists_eq_or_imp, ih]
        grind
      · rw [hs] at ih ⊢
        simp only [List.mem_cons, exists_eq_or_imp] at ih ⊢
        grind

theorem unlines_cons_cons (l m : List Char) (ls : List (List Char)) :
    unlines (l :: m :: ls) = l ++ '\n' :: unlines (m :: ls) := by
  simp [unlines, List.intercalate]

theorem unlines_cons (l : List Char) (ls : List (List Char)) :
    unlines (l :: ls) = l ++ ls.flatMap ('\n' :: ·) := by
  induction ls generalizing l with
  | nil => simp [unlines, List.intercalate]
  | cons m ls ih => rw [unlines_cons_cons, ih, List.flatMap_cons, List.cons_append]

theorem mem_unlines {ls : List (List Char)} {l : List Char} {c : Char} (hl : l ∈ ls)
    (hc : c ∈ l) :
    c ∈ unlines ls := by
  induction ls with
  | nil => cases hl
  | cons m ls ih =>
      cases ls with
      | nil =>
          rw [List.mem_singleton.1 hl] at hc
          simpa [unlines, List.intercalate] using hc
      | cons k ls =>
          rw [unlines_cons_cons, List.mem_append, List.mem_cons]
          rcases List.mem_cons.1 hl with rfl | hl
          · exact .inl hc
          · exact .inr (.inr (ih hl))

theorem unlines_splitAtFeeds (s : List Char) : unlines (splitAtFeeds s) = s := by
  induction s with
  | nil => rfl
  | cons c s ih =>
      obtain ⟨ls, hs⟩ := exists_splitAtFeeds_eq s
      rw [hs, unlines_cons] at ih
      rw [splitAtFeeds, hs]
      split
      · rename_i hc
        rw [unlines_cons, List.flatMap_cons, List.nil_append, List.cons_append, ih, hc]
      · rw [unlines_cons, List.cons_append, ih]

theorem splitAtFeeds_unlines {ls : List (List Char)} (hne : ls ≠ [])
    (h : ∀ l ∈ ls, '\n' ∉ l) :
    splitAtFeeds (unlines ls) = ls := by
  induction ls with
  | nil => exact absurd rfl hne
  | cons l ls ih =>
      have hl : '\n' ∉ l := h l List.mem_cons_self
      cases ls with
      | nil =>
          have he : unlines [l] = l := by simp [unlines, List.intercalate]
          rw [he, splitAtFeeds_of_not_mem hl]
      | cons m ls =>
          have hm := ih (List.cons_ne_nil m ls) fun k hk =>
            h k (List.mem_cons_of_mem l hk)
          rw [unlines_cons_cons, splitAtFeeds_append_feed hl, hm]

/-! ## Lines -/

theorem dropReturn_prefix (l : List Char) :
    ∃ t, l = dropReturn l ++ t ∧ (t = [] ∨ t = ['\r']) := by
  unfold dropReturn
  split
  · rename_i h
    exact ⟨['\r'], (List.dropLast_append_getLast? _ h).symm, .inr rfl⟩
  · exact ⟨[], (List.append_nil l).symm, .inl rfl⟩

/-- A line as it is read back: it may have lost a carriage return at its end. -/
def ReadBack (l' l : List Char) : Prop := l' = l ∨ l' = dropReturn l

theorem ReadBack.exists_append {l' l : List Char} (h : ReadBack l' l) :
    ∃ t, l = l' ++ t ∧ allBlank t = true := by
  rcases h with rfl | rfl
  · exact ⟨[], (List.append_nil _).symm, rfl⟩
  · obtain ⟨t, hl, ht⟩ := dropReturn_prefix l
    refine ⟨t, hl, ?_⟩
    rcases ht with rfl | rfl <;> rfl

/-- A carriage return is blank, so trimming does not see whether it was there. -/
theorem ReadBack.trimEnd_eq {l' l : List Char} (h : ReadBack l' l) :
    trimEnd l' = trimEnd l := by
  obtain ⟨t, rfl, ht⟩ := h.exists_append
  rw [trimEnd_append_of_allBlank ht]

theorem ReadBack.trim_eq {l' l : List Char} (h : ReadBack l' l) : trim l' = trim l := by
  obtain ⟨t, rfl, ht⟩ := h.exists_append
  rw [trim_append_of_allBlank ht]

theorem ReadBack.allBlank_eq {l' l : List Char} (h : ReadBack l' l) :
    allBlank l' = allBlank l := by
  obtain ⟨t, rfl, ht⟩ := h.exists_append
  rw [allBlank_append, ht, Bool.and_true]

theorem linesOfPieces_cons {l : List Char} {ls : List (List Char)} (h : ls ≠ []) :
    linesOfPieces (l :: ls) = dropReturn l :: linesOfPieces ls := by
  cases ls with
  | nil => exact absurd rfl h
  | cons m ls => rfl

theorem linesOfPieces_concat (ls : List (List Char)) (l : List Char) :
    linesOfPieces (ls ++ [l]) = ls.map dropReturn ++ if l.isEmpty then [] else [l] := by
  induction ls with
  | nil => rfl
  | cons m ls ih =>
      have hne : ls ++ [l] ≠ [] := by simp
      rw [List.cons_append, linesOfPieces_cons hne, ih, List.map_cons, List.cons_append]

/-- A line whose end is trimmed has no carriage return to lose. -/
theorem dropReturn_of_trimEnd_eq {l : List Char} (h : trimEnd l = l) :
    dropReturn l = l := by
  obtain ⟨t, hl, ht⟩ := dropReturn_prefix l
  have hb : allBlank t = true := by
    rcases ht with rfl | rfl <;> rfl
  have hle : l.length ≤ (dropReturn l).length := by
    calc l.length
      _ = (trimEnd (dropReturn l ++ t)).length := by rw [← hl, h]
      _ = (trimEnd (dropReturn l)).length := by rw [trimEnd_append_of_allBlank hb]
      _ ≤ (dropReturn l).length := List.IsPrefix.length_le <| trimEnd_prefix _
  exact List.IsPrefix.eq_of_length_le ⟨t, hl.symm⟩ hle

theorem exists_prefix_of_mem_linesOfPieces {ls : List (List Char)} {l : List Char}
    (h : l ∈ linesOfPieces ls) : ∃ m ∈ ls, l <+: m := by
  induction ls with
  | nil => cases h
  | cons m ls ih =>
      by_cases hls : ls = []
      · rw [hls, linesOfPieces] at h
        split at h
        · cases h
        · rw [List.mem_singleton.1 h]
          exact ⟨m, List.mem_cons_self, List.prefix_rfl⟩
      · rw [linesOfPieces_cons hls] at h
        rcases List.mem_cons.1 h with rfl | h
        · obtain ⟨t, ht, -⟩ := dropReturn_prefix m
          exact ⟨m, List.mem_cons_self, t, ht.symm⟩
        · obtain ⟨k, hk, hkl⟩ := ih h
          exact ⟨k, List.mem_cons_of_mem m hk, hkl⟩

theorem mem_of_mem_lines {s l : List Char} {c : Char} (h : l ∈ lines s) (hc : c ∈ l) :
    c ∈ s ∧ c ≠ '\n' := by
  obtain ⟨m, hm, hl⟩ := exists_prefix_of_mem_linesOfPieces h
  exact exists_mem_splitAtFeeds.1 ⟨m, hm, hl.subset hc⟩

theorem not_mem_of_mem_lines {s l : List Char} (h : l ∈ lines s) : '\n' ∉ l :=
  fun hn => (mem_of_mem_lines h hn).2 rfl

theorem exists_mem_linesOfPieces {ls : List (List Char)} {l : List Char} {c : Char}
    (hl : l ∈ ls) (h : c ∈ l) (hc : isBlank c = false) :
    ∃ m ∈ linesOfPieces ls, c ∈ m := by
  induction ls with
  | nil => cases hl
  | cons m ls ih =>
      by_cases hls : ls = []
      · subst hls
        rw [List.mem_singleton.1 hl] at h
        refine ⟨m, ?_, h⟩
        rw [linesOfPieces, if_neg (by simpa using List.ne_nil_of_mem h)]
        exact List.mem_cons_self
      · rw [linesOfPieces_cons hls]
        rcases List.mem_cons.1 hl with rfl | hl
        · refine ⟨dropReturn l, List.mem_cons_self, ?_⟩
          obtain ⟨t, ht, hr⟩ := dropReturn_prefix l
          rw [ht, List.mem_append] at h
          refine h.resolve_right fun hct => ?_
          rcases hr with rfl | rfl
          · cases hct
          · rw [List.mem_singleton.1 hct] at hc
            cases hc
        · obtain ⟨k, hk, hck⟩ := ih hl
          exact ⟨k, List.mem_cons_of_mem _ hk, hck⟩

theorem exists_mem_lines {s : List Char} {c : Char} (h : c ∈ s) (hc : isBlank c = false) :
    ∃ l ∈ lines s, c ∈ l := by
  have hn : c ≠ '\n' := by
    rintro rfl
    cases hc
  obtain ⟨l, hl, hcl⟩ := exists_mem_splitAtFeeds.2 ⟨h, hn⟩
  exact exists_mem_linesOfPieces hl hcl hc

theorem exists_head?_of_linesOfPieces {ls : List (List Char)} {l : List Char}
    (h : l ∈ (linesOfPieces ls).head?) : ∃ m ∈ ls.head?, ReadBack l m := by
  cases ls with
  | nil => cases h
  | cons m ls =>
      refine ⟨m, rfl, ?_⟩
      cases ls with
      | nil =>
          rw [linesOfPieces] at h
          split at h
          · cases h
          · exact .inl (Option.some_inj.1 h).symm
      | cons k ls => exact .inr (Option.some_inj.1 h).symm

/-- Lines, the last of which holds something, are read back in front of the lines
of whatever follows. -/
theorem linesOfPieces_append {ls : List (List Char)} (h : ∀ l ∈ ls.getLast?, l ≠ [])
    (rest : List (List Char)) :
    ∃ ls', linesOfPieces (ls ++ rest) = ls' ++ linesOfPieces rest ∧
      List.Forall₂ ReadBack ls' ls := by
  induction ls with
  | nil => exact ⟨[], rfl, .nil⟩
  | cons l ls ih =>
      by_cases hn : ls ++ rest = []
      · obtain ⟨rfl, rfl⟩ := List.append_eq_nil_iff.1 hn
        have hl : l.isEmpty = false := by simpa using h l rfl
        refine ⟨[l], ?_, .cons (.inl rfl) .nil⟩
        simp [linesOfPieces, hl]
      · have hls : ∀ m ∈ ls.getLast?, m ≠ [] :=
          fun m hm => h m (List.mem_getLast?_cons hm)
        obtain ⟨ls', he, hr⟩ := ih hls
        refine ⟨dropReturn l :: ls', ?_, .cons (.inr rfl) hr⟩
        rw [List.cons_append, linesOfPieces_cons hn, he, List.cons_append]

theorem lines_unlines {ls : List (List Char)} (h : ∀ l ∈ ls, '\n' ∉ l) :
    lines (unlines ls) = linesOfPieces ls := by
  cases ls with
  | nil => rfl
  | cons l ls => rw [lines, splitAtFeeds_unlines (List.cons_ne_nil l ls) h]

theorem lines_unlines_append {ls rest : List (List Char)} (hls : ∀ l ∈ ls, '\n' ∉ l)
    (hlast : ∀ l ∈ ls.getLast?, l ≠ []) (hrest : ∀ l ∈ rest, '\n' ∉ l) :
    ∃ ls', lines (unlines (ls ++ rest)) = ls' ++ lines (unlines rest) ∧
      List.Forall₂ ReadBack ls' ls := by
  have h : ∀ l ∈ ls ++ rest, '\n' ∉ l := by
    intro l hl
    rcases List.mem_append.1 hl with hl | hl
    · exact hls l hl
    · exact hrest l hl
  rw [lines_unlines h, lines_unlines hrest]
  exact linesOfPieces_append hlast rest

end NotebookService.Text
