/-
# `NotebookService.Proofs.Code.Verbatim` — user code is shifted rigidly

User code is moved line by line.  What its lines share in front goes, four spaces for
each level come, and the blanks behind a line's text go.  So the lines keep their
number, their order and their places to each other, and `verbatim_shifts_rigidly` says
by how much each one moves, as far as margins of ASCII characters go.

A column can fall inside a wider blank, and then the line loses its whole margin.  This
never happens to the line with the least indentation, which is cut right behind its
margin.  So moved code has a line at its level whatever it was before
(`sharedIndentation_map_movedLine`), and code that has such a line at level 0 and
nothing to trim is left alone: laying it out a second time changes nothing.
-/
import NotebookService.Proofs.Code.Items
import NotebookService.Proofs.Code.Suites

namespace NotebookService.Code

open NotebookService.Text

variable {l : List Char} {ls : List (List Char)} {n k : Nat}

/-! ## Lines that are laid out -/

/-- A line as the layout leaves it: no line feed in it, and no blank behind its text. -/
structure IsLaid (l : List Char) : Prop where
  feed : '\n' ∉ l
  trimmed : trimEnd l = l

theorem IsLaid.eq_nil_of_allBlank (h : IsLaid l) (hb : allBlank l = true) : l = [] := by
  rw [← h.trimmed]
  exact trimEnd_eq_nil.2 hb

theorem isLaid_indented (hf : '\n' ∉ l) (ht : trimEnd l = l) : IsLaid (indented n l) := by
  refine ⟨not_mem_indented hf, ?_⟩
  by_cases hl : l = []
  · rw [hl]
    rfl
  · have hb : ¬ allBlank l = true := by
      intro hb
      exact hl (ht ▸ trimEnd_eq_nil.2 hb)
    rw [indented_of_ne_nil hl, trimEnd_shifted _ hb, ht]

theorem isLaid_movedLine (h : '\n' ∉ l) : IsLaid (movedLine n k l) := by
  rw [movedLine]
  split
  · exact ⟨List.not_mem_nil, rfl⟩
  · refine isLaid_indented ?_ trimEnd_trimEnd
    intro hm
    have hcut : '\n' ∈ cut k l := List.IsPrefix.mem hm <| trimEnd_prefix _
    exact h ((cut_suffix k l).subset hcut)

theorem isLaid_of_mem_verbatimLines {code : List Char} (h : l ∈ verbatimLines n code) :
    IsLaid l := by
  rw [verbatimLines_eq] at h
  obtain ⟨m, hm, rfl⟩ := List.mem_map.1 h
  exact isLaid_movedLine (not_mem_of_mem_lines hm)

/-! ## The text of laid out lines -/

theorem linesOfPieces_of_isLaid (h : ∀ m ∈ ls, IsLaid m) (l : List Char) :
    linesOfPieces (ls ++ [l]) = ls ++ if l.isEmpty then [] else [l] := by
  have hmap : ls.map dropReturn = ls :=
    (List.map_congr_left fun m hm => dropReturn_of_trimEnd_eq (h m hm).trimmed).trans
      (List.map_id' ls)
  rw [linesOfPieces_concat, hmap]

theorem lines_textOf (h : ∀ m ∈ ls, IsLaid m) : Text.lines (textOf ls) = ls := by
  have hfeed : ∀ m ∈ ls ++ [[]], '\n' ∉ m :=
    List.forall_mem_append.2 ⟨fun m hm => (h m hm).feed,
      List.forall_mem_singleton.2 List.not_mem_nil⟩
  rw [textOf_eq_unlines, lines_unlines hfeed, linesOfPieces_of_isLaid h]
  exact List.append_nil ls

theorem lines_dropFeeds_textOf (h : ∀ m ∈ ls, IsLaid m) :
    Text.lines (dropFeeds (textOf ls)) = ls.rdropWhile List.isEmpty := by
  have hlaid : ∀ m ∈ ls.rdropWhile List.isEmpty, IsLaid m :=
    fun m hm => h m ((List.rdropWhile_prefix _ _).subset hm)
  rw [dropFeeds_textOf fun m hm => (h m hm).feed, lines_unlines fun m hm =>
    (hlaid m hm).feed]
  rcases rdropWhile_isEmpty_cases ls with hnil | ⟨ms, m, hms, hm⟩
  · rw [hnil]
    rfl
  · rw [hms, List.forall_mem_append] at hlaid
    rw [hms, linesOfPieces_of_isLaid hlaid.1, if_neg (by simpa using hm)]

/-! ## The least indentation -/

theorem exists_indentation_eq_sharedIndentation (h : ∃ l ∈ ls, allBlank l = false) :
    ∃ l ∈ ls, allBlank l = false ∧ indentation l = sharedIndentation ls := by
  obtain ⟨m, hm, hb⟩ := h
  have hne : (ls.filter fun l => !allBlank l).map indentation ≠ [] := by
    have hmem : m ∈ ls.filter fun l => !allBlank l :=
      List.mem_filter.2 ⟨hm, by rw [hb]; rfl⟩
    exact List.ne_nil_of_mem (List.mem_map_of_mem hmem)
  obtain ⟨l, hl, hi⟩ := List.mem_map.1 (least_mem hne)
  obtain ⟨hl, hb⟩ := List.mem_filter.1 hl
  exact ⟨l, hl, by simpa using hb, hi⟩

theorem indentation_of_trimStart_eq (h : trimStart l = l) : indentation l = 0 := by
  have hm := margin_append_trimStart l
  rw [h] at hm
  have hnil : margin l = [] := List.append_left_eq_self.1 hm
  exact congrArg width hnil

theorem indentation_movedLine_self (hb : allBlank l = false) :
    indentation (movedLine n (indentation l) l) = 4 * n := by
  have hne : trimEnd (trimStart l) ≠ [] := by
    intro hnil
    have hs := trimStart_eq_nil.2 (trimEnd_eq_nil.1 hnil)
    rw [trimStart_trimStart, trimStart_eq_nil, hb] at hs
    cases hs
  have hself : trimStart (trimEnd (trimStart l)) = trimEnd (trimStart l) := by
    rw [trimStart_trimEnd, trim, trimStart_trimStart]
  rw [movedLine, if_neg (by simp [hb]), cut_indentation, indented_of_ne_nil hne,
    indentation_shifted, indentation_of_trimStart_eq hself, Nat.add_zero]

theorem le_indentation_of_not_allBlank (hb : allBlank (movedLine n k l) = false) :
    4 * n ≤ indentation (movedLine n k l) := by
  rw [movedLine] at hb ⊢
  split at hb
  · cases hb
  · rename_i hl
    rw [allBlank_indented] at hb
    rw [if_neg hl]
    refine le_indentation_indented ?_
    intro hnil
    rw [hnil] at hb
    cases hb

/-- User code stands at its level: its least indentation is that of the level. -/
theorem sharedIndentation_map_movedLine (h : ∃ l ∈ ls, allBlank l = false) :
    sharedIndentation (ls.map (movedLine n (sharedIndentation ls))) = 4 * n := by
  obtain ⟨l, hl, hb, hi⟩ := exists_indentation_eq_sharedIndentation h
  have hmem : movedLine n (sharedIndentation ls) l ∈
      ls.map (movedLine n (sharedIndentation ls)) :=
    List.mem_map_of_mem hl
  have hmoved : allBlank (movedLine n (sharedIndentation ls) l) = false := by
    rw [allBlank_movedLine hl, hb]
  have hle := sharedIndentation_le hmem hmoved
  rw [← hi, indentation_movedLine_self hb, hi] at hle
  obtain ⟨v, hv, hvb, hvi⟩ := exists_indentation_eq_sharedIndentation ⟨_, hmem, hmoved⟩
  obtain ⟨m, -, rfl⟩ := List.mem_map.1 hv
  have hge := le_indentation_of_not_allBlank hvb
  rw [hvi] at hge
  exact Nat.le_antisymm hle hge

theorem sharedIndentation_rdropWhile (ls : List (List Char)) :
    sharedIndentation (ls.rdropWhile List.isEmpty) = sharedIndentation ls := by
  have hempty : (ls.rtakeWhile List.isEmpty).filter (fun l => !allBlank l) = [] := by
    refine List.filter_eq_nil_iff.2 fun m hm => ?_
    have hnil : m = [] := List.isEmpty_iff.1 (List.mem_rtakeWhile_imp hm)
    rw [hnil]
    decide
  conv_rhs => rw [← List.rdropWhile_append_rtakeWhile (p := List.isEmpty) (l := ls),
    sharedIndentation,
    List.filter_append, hempty, List.append_nil]
  rfl

/-! ## Lines that stay as they are -/

theorem movedLine_of_not_allBlank (hb : allBlank l = false) (hk : k ≤ indentation l) :
    movedLine n k l = shifted (4 * n) (trimEnd (cut k l)) := by
  have hne : trimEnd (cut k l) ≠ [] := by
    rw [Ne, trimEnd_eq_nil, allBlank_cut hk, hb]
    exact Bool.false_ne_true
  rw [movedLine, if_neg (by simp [hb]), indented_of_ne_nil hne]

/-- What is cut off a line and put back as spaces is as wide as before. -/
theorem eq_of_shifted_cut (hk : k ≤ indentation l) (h : shifted n (cut k l) = l) :
    k = n := by
  have hwidth : n + width (cut k l) = width l := by
    rw [← width_shifted, h]
  cases hc : cut? k l with
  | some t =>
      rw [cut, hc, Option.getD_some, width_eq_of_cut? hc] at hwidth
      omega
  | none =>
      -- The margin would be `n` spaces, and these can be cut at every column.
      have hcut : cut k l = trimStart l := by rw [cut, hc, Option.getD_none]
      rw [hcut] at h
      have hi : indentation l = n := by
        rw [← h, indentation_shifted,
          indentation_of_trimStart_eq trimStart_trimStart, Nat.add_zero]
      have hle : k ≤ n := hi ▸ hk
      rw [← h, cut?_shifted_of_le hle] at hc
      cases hc

/-- A line of user code is laid out as it stands when it is empty, or when
nothing is to be trimmed behind it and the lines share just the spaces that it
begins with at this level. -/
theorem movedLine_eq_self_iff (hl : l ∈ ls) :
    movedLine n (sharedIndentation ls) l = l ↔
      l = [] ∨ sharedIndentation ls = 4 * n ∧ List.replicate (4 * n) ' ' <+: l ∧
      trimEnd l = l := by
  cases hb : allBlank l with
  | true =>
      rw [movedLine, if_pos hb]
      constructor
      · intro h
        exact .inl h.symm
      · rintro (h | ⟨-, -, h⟩)
        · exact h.symm
        · rw [← h, trimEnd_eq_nil.2 hb]
  | false =>
      have hk := sharedIndentation_le hl hb
      have hcb : ¬ allBlank (cut (sharedIndentation ls) l) = true := by
        rw [allBlank_cut hk, hb]
        exact Bool.false_ne_true
      rw [movedLine_of_not_allBlank hb hk]
      constructor
      · intro h
        have htrim : trimEnd l = l := by
          rw [← h, trimEnd_shifted _ (by rwa [allBlank_trimEnd]), trimEnd_trimEnd]
        obtain ⟨u, hu⟩ := cut_suffix (sharedIndentation ls) l
        have hcut := (trimEnd_append_eq_self_iff (s := u) hcb).1 (by rw [hu, htrim])
        rw [hcut] at h
        exact .inr ⟨eq_of_shifted_cut hk h, ⟨_, h⟩, htrim⟩
      · rintro (rfl | ⟨hs, ⟨t, rfl⟩, htrim⟩)
        · cases hb
        · have htb : ¬ allBlank t = true := by
            intro ht
            rw [allBlank_append, allBlank_replicate_space, ht] at hb
            cases hb
          have hcut : cut (sharedIndentation ls) (shifted (4 * n) t) = t := by
            rw [hs]
            exact (cut_shifted (4 * n) 0).trans (cut_zero t)
          show shifted (4 * n)
            (trimEnd (cut (sharedIndentation ls) (shifted (4 * n) t))) = shifted (4 * n) t
          rw [hcut, (trimEnd_append_eq_self_iff htb).1 htrim]

/-! ## A second time -/

theorem IsLaid.movedLine_zero (h : IsLaid l) : movedLine 0 0 l = l := by
  rw [movedLine]
  split
  · rename_i hb
    exact (h.eq_nil_of_allBlank hb).symm
  · rw [cut_zero, h.trimmed, indented_zero]

/-- Code that was laid out at level 0 is moved nowhere. -/
theorem verbatimLines_dropFeeds (code : List Char) :
    verbatimLines 0 (dropFeeds (textOf (verbatimLines 0 code))) =
      (verbatimLines 0 code).rdropWhile List.isEmpty := by
  have hlaid : ∀ m ∈ verbatimLines 0 code, IsLaid m :=
    fun m hm => isLaid_of_mem_verbatimLines hm
  rw [verbatimLines_eq 0 (dropFeeds _), lines_dropFeeds_textOf hlaid,
    sharedIndentation_rdropWhile]
  refine Eq.trans (List.map_congr_left fun v hv => ?_) (List.map_id' _)
  have hmem : v ∈ verbatimLines 0 code := (List.rdropWhile_prefix _ _).subset hv
  cases hb : allBlank v with
  | true =>
      rw [(hlaid v hmem).eq_nil_of_allBlank hb]
      rfl
  | false =>
      rw [verbatimLines_eq] at hmem ⊢
      obtain ⟨l, hl, rfl⟩ := List.mem_map.1 hmem
      rw [allBlank_movedLine hl] at hb
      rw [sharedIndentation_map_movedLine ⟨l, hl, hb⟩]
      exact (isLaid_movedLine (not_mem_of_mem_lines hl)).movedLine_zero

theorem renderChars_verbatim (code : String) :
    renderChars [.verbatim code] = dropFeeds (textOf (verbatimLines 0 code.toList)) := rfl

theorem renderChars_verbatim_again (code : String) :
    renderChars [.verbatim (render [.verbatim code])] = renderChars [.verbatim code] := by
  rw [renderChars_verbatim, render, String.toList_ofList, renderChars_verbatim,
    verbatimLines_dropFeeds, dropFeeds_textOf_rdropWhile]

/-! ## ASCII margins -/

/-- The least number of characters in front of a line that is not blank. -/
structure LeastMargin (ls : List (List Char)) (m : Nat) : Prop where
  le : ∀ l ∈ ls, allBlank l = false → m ≤ (margin l).length
  attained : (∃ l ∈ ls, allBlank l = false) → ∃ l ∈ ls, allBlank l = false ∧
    (margin l).length = m

theorem leastMargin_sharedIndentation
    (h : ∀ l ∈ ls, allBlank l = false → IsAscii (margin l)) :
    LeastMargin ls (sharedIndentation ls) where
  le l hl hb := by
    have hi : indentation l = (margin l).length := (h l hl hb).width_eq
    rw [← hi]
    exact sharedIndentation_le hl hb
  attained hne := by
    obtain ⟨l, hl, hb, hi⟩ := exists_indentation_eq_sharedIndentation hne
    exact ⟨l, hl, hb, (h l hl hb).width_eq.symm.trans hi⟩

theorem movedLine_of_isAscii (hb : allBlank l = false) (h : IsAscii (margin l))
    (hk : k ≤ (margin l).length) :
    movedLine n k l = List.replicate (4 * n) ' ' ++ (margin l).drop k ++
      trimEnd (trimStart l) := by
  have ht : ¬ allBlank (trimStart l) = true := by
    rw [← trimStart_eq_nil, trimStart_trimStart, trimStart_eq_nil, hb]
    exact Bool.false_ne_true
  have htext : trimEnd (trimStart l) ≠ [] := mt trimEnd_eq_nil.1 ht
  rw [movedLine, if_neg (by simp [hb]), h.cut_eq hk, trimEnd_append_of_not ht,
    indented_of_ne_nil (by simp [htext]), shifted, List.append_assoc]

/-- Where the margins of the lines that are not blank are ASCII, and so a character in
them is a byte, code at a level has as many lines as before.  A blank one is empty, and
any other one keeps its text up to the blanks at its end, behind the spaces of the level
and what is left of its margin without as many characters as the least margin has.
These lines are read back from their text.  And code of any kind that is laid out and
taken for user code again is laid out as it is. -/
theorem verbatim_shifts_rigidly (code : String) :
    ((∀ l ∈ Text.lines code.toList, allBlank l = false → IsAscii (margin l)) →
      ∃ m, LeastMargin (Text.lines code.toList) m ∧ ∀ level,
        (Statement.verbatim code).lines level =
            (Text.lines code.toList).map (fun l =>
              if allBlank l then []
              else List.replicate (4 * level) ' ' ++ (margin l).drop m ++
              trimEnd (trimStart l)) ∧
          Text.lines (textOf ((Statement.verbatim code).lines level)) =
            (Statement.verbatim code).lines level) ∧
      render [.verbatim (render [.verbatim code])] = render [.verbatim code] := by
  constructor
  · intro h
    have hm := leastMargin_sharedIndentation h
    refine ⟨_, hm, fun level => ⟨?_, ?_⟩⟩
    · show verbatimLines level code.toList = _
      rw [verbatimLines_eq]
      refine List.map_congr_left fun l hl => ?_
      cases hb : allBlank l with
      | true => rw [movedLine, if_pos hb, if_pos rfl]
      | false =>
          rw [movedLine_of_isAscii hb (h l hl hb) (hm.le l hl hb)]
          rfl
    · exact lines_textOf fun m hm => isLaid_of_mem_verbatimLines hm
  · rw [render, renderChars_verbatim_again, render]

/-- Tabs among the spaces, around a blank line: of the margins only the first has more
than the two that all lose. -/
theorem verbatim_shifts_rigidly_tab :
    let code := "\t  if x:\n\t y()  \n   \n\t\tz()"
    (∀ l ∈ Text.lines code.toList, allBlank l = false → IsAscii (margin l)) ∧
      LeastMargin (Text.lines code.toList) 2 ∧
      (Statement.verbatim code).lines 1 =
        ["     if x:".toList, "    y()".toList, [], "    z()".toList] ∧
      render [.verbatim (render [.verbatim code])] = render [.verbatim code] := by
  intro code
  have hascii : ∀ l ∈ Text.lines code.toList, allBlank l = false →
      IsAscii (margin l) := by decide +kernel
  obtain ⟨hshift, hagain⟩ := verbatim_shifts_rigidly code
  obtain ⟨m, hm, hlines⟩ := hshift hascii
  have htwo : m = 2 := by
    obtain ⟨l, hl, hb, rfl⟩ :=
      hm.attained ⟨"\t y()  ".toList, by decide +kernel, by decide +kernel⟩
    refine Nat.le_antisymm
      (hm.le "\t y()  ".toList (by decide +kernel) (by decide +kernel)) ?_
    have hle : ∀ l ∈ Text.lines code.toList, allBlank l = false →
        2 ≤ (margin l).length := by decide +kernel
    exact hle l hl hb
  subst htwo
  refine ⟨hascii, hm, (hlines 1).1.trans ?_, hagain⟩
  decide +kernel

end NotebookService.Code
