/-
# `NotebookService.Proofs.Code.Items` — top-level items stand two blank lines apart

An item is put below what stands above it, and what that has left behind at its end is
replaced by three line feeds: the end of its last line and two blank lines.  So an item
that leaves blank lines behind, as user code may, does not move the next one away.

`dropFeeds_foldl_stack` carries this through a list of items.  Its invariant is the text
above without the line feeds at its end, and it needs that this holds something, since
below nothing an item is put without a gap.  Hence the one condition of
`render_joins_items`: each of the items renders to something.  What a single item
renders to is its lines, up to the last that is not empty (`dropFeeds_textOf`).
-/
import NotebookService.Proofs.Code.Layout
import NotebookService.Proofs.Text.Lines

namespace NotebookService.Code

open NotebookService.Text

variable {s l above item : List Char} {ls : List (List Char)}

/-! ## The ends of texts -/

theorem dropFeeds_eq_nil_iff : dropFeeds s = [] ↔ onlyFeeds s = true := by
  rw [dropFeeds, dropEndWhile_eq_rdropWhile, List.rdropWhile_eq_nil_iff, onlyFeeds,
    List.all_eq_true]

theorem getLast?_dropFeeds_ne (s : List Char) : (dropFeeds s).getLast? ≠ some '\n' := by
  intro h
  rw [dropFeeds, dropEndWhile_eq_rdropWhile] at h
  obtain ⟨hne, hl⟩ := List.mem_getLast?_eq_getLast h
  have hlast := List.rdropWhile_last_not (fun c : Char => decide (c = '\n')) s hne
  exact hlast (decide_eq_true hl.symm)

theorem dropFeeds_of_not_mem (h : '\n' ∉ l) : dropFeeds l = l := by
  obtain ⟨t, hl, ht⟩ := exists_dropFeeds_append l
  have hnil : t = [] := by
    refine List.eq_nil_iff_forall_not_mem.2 fun c hc => ?_
    have hfeed : c = '\n' := of_decide_eq_true (List.all_eq_true.1 ht c hc)
    have hmem : c ∈ l := hl ▸ List.mem_append_right _ hc
    exact h (hfeed ▸ hmem)
  rw [hnil, List.append_nil] at hl
  exact hl.symm

/-! ## The lines of an item -/

theorem unlines_concat (ls : List (List Char)) (l : List Char) :
    unlines (ls ++ [l]) = textOf ls ++ l := by
  induction ls with
  | nil => simp [unlines, textOf]
  | cons m ls ih =>
      obtain ⟨k, ks, hk⟩ := List.exists_cons_of_ne_nil (l := ls ++ [l]) (by simp)
      rw [List.cons_append, hk, unlines_cons_cons, ← hk, ih, textOf_cons,
        List.append_assoc, List.cons_append]

theorem textOf_eq_unlines (ls : List (List Char)) : textOf ls = unlines (ls ++ [[]]) := by
  rw [unlines_concat, List.append_nil]

theorem dropFeeds_textOf_rdropWhile (ls : List (List Char)) :
    dropFeeds (textOf (ls.rdropWhile List.isEmpty)) = dropFeeds (textOf ls) := by
  have hempty : onlyFeeds (textOf (ls.rtakeWhile List.isEmpty)) = true := by
    refine List.all_eq_true.2 fun c hc => ?_
    obtain ⟨m, hm, hcm⟩ := List.mem_flatMap.1 hc
    have hnil : m = [] := List.isEmpty_iff.1 (List.mem_rtakeWhile_imp hm)
    rw [hnil] at hcm
    exact decide_eq_true (List.mem_singleton.1 hcm)
  conv_rhs => rw [← List.rdropWhile_append_rtakeWhile (p := List.isEmpty) (l := ls),
    textOf_append,
    dropFeeds_append_of_onlyFeeds hempty]

theorem dropFeeds_textOf_concat (hl : '\n' ∉ l) (hne : l ≠ []) (ls : List (List Char)) :
    dropFeeds (textOf (ls ++ [l])) = textOf ls ++ l := by
  have hfeeds : ¬ onlyFeeds l = true := by
    intro hf
    rw [← dropFeeds_eq_nil_iff, dropFeeds_of_not_mem hl] at hf
    exact hne hf
  have htext : textOf (ls ++ [l]) = (textOf ls ++ l) ++ ['\n'] := by
    rw [textOf_append, textOf_cons, List.append_assoc]
    rfl
  rw [htext, dropFeeds_append_of_onlyFeeds rfl, dropFeeds_append_of_not hfeeds,
    dropFeeds_of_not_mem hl]

theorem rdropWhile_isEmpty_cases (ls : List (List Char)) :
    ls.rdropWhile List.isEmpty = [] ∨
      ∃ ms m, ls.rdropWhile List.isEmpty = ms ++ [m] ∧ m ≠ [] := by
  rcases List.eq_nil_or_concat (ls.rdropWhile List.isEmpty) with hnil | ⟨ms, m, hms⟩
  · exact .inl hnil
  · rw [List.concat_eq_append] at hms
    refine .inr ⟨ms, m, hms, ?_⟩
    have hlast := List.rdropWhile_last_not List.isEmpty ls (by simp [hms])
    simpa [hms] using hlast

theorem dropFeeds_textOf (h : ∀ m ∈ ls, '\n' ∉ m) :
    dropFeeds (textOf ls) = unlines (ls.rdropWhile List.isEmpty) := by
  have hfeed : ∀ m ∈ ls.rdropWhile List.isEmpty, '\n' ∉ m :=
    fun m hm => h m ((List.rdropWhile_prefix _ _).subset hm)
  rw [← dropFeeds_textOf_rdropWhile]
  rcases rdropWhile_isEmpty_cases ls with hnil | ⟨ms, m, hms, hm⟩
  · rw [hnil]
    rfl
  · rw [hms, List.forall_mem_append] at hfeed
    rw [hms, dropFeeds_textOf_concat (hfeed.2 m List.mem_cons_self) hm, unlines_concat]

theorem splitAtFeeds_dropFeeds_textOf (h : ∀ m ∈ ls, '\n' ∉ m)
    (hne : ls.rdropWhile List.isEmpty ≠ []) :
    splitAtFeeds (dropFeeds (textOf ls)) = ls.rdropWhile List.isEmpty := by
  rw [dropFeeds_textOf h]
  exact splitAtFeeds_unlines hne fun m hm => h m ((List.rdropWhile_prefix _ _).subset hm)

/-! ## Items below each other -/

/-- The end of a line and two blank lines. -/
def gap : List Char := ['\n', '\n', '\n']

theorem dropFeeds_stack_of_ne_nil (ha : dropFeeds above ≠ []) (hi : dropFeeds item ≠ []) :
    dropFeeds (stack above item) = dropFeeds above ++ gap ++ dropFeeds item := by
  have hne : above ≠ [] := by
    rintro rfl
    exact ha rfl
  have hs : stack above item = dropFeeds above ++ gap ++ item := by
    rw [stack_of_ne_nil hne, List.append_assoc]
    rfl
  rw [hs, dropFeeds_append_of_not (mt dropFeeds_eq_nil_iff.2 hi)]

theorem intercalate_append_cons (sep a b : List Char) (ts : List (List Char)) :
    List.intercalate sep ((a ++ b) :: ts) = a ++ List.intercalate sep (b :: ts) := by
  cases ts with
  | nil => simp
  | cons t ts => simp [List.intercalate_cons_cons]

/-- Items that hold something are joined by gaps, behind what stands above them. -/
theorem dropFeeds_foldl_stack (ha : dropFeeds above ≠ []) {items : List (List Char)}
    (h : ∀ item ∈ items, dropFeeds item ≠ []) :
    dropFeeds (items.foldl stack above) =
      List.intercalate gap (dropFeeds above :: items.map dropFeeds) := by
  induction items generalizing above with
  | nil => simp
  | cons item items ih =>
      obtain ⟨hi, hs⟩ := List.forall_mem_cons.1 h
      have hstack := dropFeeds_stack_of_ne_nil ha hi
      have hne : dropFeeds (stack above item) ≠ [] := by
        rw [hstack]
        simp [hi]
      calc dropFeeds ((item :: items).foldl stack above)
        _ = List.intercalate gap (dropFeeds (stack above item) :: items.map dropFeeds) :=
          ih hne hs
        _ = dropFeeds above ++ gap ++
        List.intercalate gap (dropFeeds item :: items.map dropFeeds) := by
          rw [hstack, intercalate_append_cons]
        _ = List.intercalate gap (dropFeeds above :: (item :: items).map dropFeeds) := by
          rw [List.map_cons, List.intercalate_cons_cons]

theorem renderChars_eq_intercalate {items : List Statement}
    (h : ∀ s ∈ items, renderChars [s] ≠ []) :
    renderChars items = List.intercalate gap (items.map fun s => renderChars [s]) := by
  cases items with
  | nil => rfl
  | cons s ss =>
      obtain ⟨hs, hss⟩ := List.forall_mem_cons.1 h
      have htexts : ∀ item ∈ ss.map Statement.text, dropFeeds item ≠ [] := by
        intro item hitem
        obtain ⟨t, ht, rfl⟩ := List.mem_map.1 hitem
        exact hss t ht
      have hfold := dropFeeds_foldl_stack hs htexts
      rwa [List.map_map] at hfold

/-- Items each of which renders to something are rendered one by one and joined by three
line feeds, and no line feed stands at the end. -/
theorem render_joins_items {items : List Statement} (h : ∀ s ∈ items, render [s] ≠ "") :
    render items = "\n\n\n".intercalate (items.map fun s => render [s]) ∧
      (render items).toList.getLast? ≠ some '\n' := by
  have hne : ∀ s ∈ items, renderChars [s] ≠ [] := by
    intro s hs hnil
    exact h s hs (by rw [render, hnil, String.ofList_nil])
  constructor
  · refine String.toList_inj.1 ?_
    rw [String.toList_intercalate, List.map_map, render, String.toList_ofList,
      renderChars_eq_intercalate hne]
    have hmap : items.map (String.toList ∘ fun s => render [s]) = items.map fun s =>
        renderChars [s] := by
      refine List.map_congr_left fun s _ => ?_
      exact String.toList_ofList
    rw [hmap]
    rfl
  · rw [render, String.toList_ofList]
    exact getLast?_dropFeeds_ne _

/-- User code with blank lines around it, a line with line feeds at
its end, and a block. -/
theorem render_joins_items_blank_ends :
    let items : List Statement :=
      [.verbatim "\n\nx = 1\n \n\n", .line "y = 2\n\n", .block "while y" []]
    (∀ s ∈ items, render [s] ≠ "") ∧
      render items = "\n\nx = 1\n\n\ny = 2\n\n\nwhile y:\n    pass" ∧
      (render items).toList.getLast? ≠ some '\n' := by
  intro items
  have h : ∀ s ∈ items, render [s] ≠ "" := by decide +kernel
  obtain ⟨hjoin, hend⟩ := render_joins_items h
  exact ⟨h, hjoin.trans (by decide +kernel), hend⟩

end NotebookService.Code
