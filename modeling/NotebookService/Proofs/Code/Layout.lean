/-
# `NotebookService.Proofs.Code.Layout` — where the lines of an item are found

An item is laid out as lines, the items are stacked, and both the stacking and the
end of the rendering drop line feeds.  What is dropped is never more than line feeds
behind the last character of an item, so that the lines of an item come into the text
together and as they are.

`StandsIn` says this of a part of a text: it begins where a line begins and ends where a
line ends.  `standsIn_renderChars` is the result, for any run of lines of an item that
holds more than line feeds.
-/
import NotebookService.Code.Layout
import NotebookService.Proofs.Text.Trim

namespace NotebookService.Code

open NotebookService.Text

/-! ## Line feeds at the end -/

/-- Nothing but line feeds. -/
def onlyFeeds (s : List Char) : Bool := s.all (· = '\n')

variable {s t : List Char}

theorem onlyFeeds_append :
    onlyFeeds (s ++ t) = (onlyFeeds s && onlyFeeds t) := List.all_append

theorem dropFeeds_append_of_onlyFeeds (h : onlyFeeds t = true) :
    dropFeeds (s ++ t) = dropFeeds s :=
  dropEndWhile_append_of_all (List.all_eq_true.1 h)

theorem dropFeeds_append_of_not (h : ¬ onlyFeeds t = true) :
    dropFeeds (s ++ t) = s ++ dropFeeds t :=
  dropEndWhile_append_of_not (mt List.all_eq_true.2 h)

theorem exists_dropFeeds_append (s : List Char) :
    ∃ t, s = dropFeeds s ++ t ∧ onlyFeeds t = true := by
  refine ⟨s.rtakeWhile (· = '\n'), ?_, ?_⟩
  · rw [dropFeeds, dropEndWhile_eq_rdropWhile, List.rdropWhile_append_rtakeWhile]
  · exact List.all_eq_true.2 fun c hc =>
      List.mem_rtakeWhile_imp (p := fun c => decide (c = '\n')) hc

theorem dropFeeds_dropFeeds (s : List Char) : dropFeeds (dropFeeds s) = dropFeeds s := by
  obtain ⟨t, hs, ht⟩ := exists_dropFeeds_append s
  conv_rhs => rw [hs, dropFeeds_append_of_onlyFeeds ht]

theorem allBlank_of_onlyFeeds (h : onlyFeeds s = true) : allBlank s = true := by
  refine allBlank_iff.2 fun c hc => ?_
  have hf : c = '\n' := of_decide_eq_true (List.all_eq_true.1 h c hc)
  rw [hf]
  rfl

theorem allBlank_dropFeeds (s : List Char) : allBlank (dropFeeds s) = allBlank s := by
  obtain ⟨t, hs, ht⟩ := exists_dropFeeds_append s
  conv_rhs => rw [hs, allBlank_append, allBlank_of_onlyFeeds ht, Bool.and_true]

/-! ## Whole lines of a text -/

/-- A line begins behind this text. -/
def BeforeLine (above : List Char) : Prop := above = [] ∨ above.getLast? = some '\n'

/-- A line ends in front of this text. -/
def AfterLine (below : List Char) : Prop := below = [] ∨ below.head? = some '\n'

/-- The part is a run of whole lines of the text. -/
def StandsIn (part whole : List Char) : Prop :=
  ∃ above below, whole = above ++ part ++ below ∧ BeforeLine above ∧ AfterLine below

theorem BeforeLine.append {above part : List Char} (ha : BeforeLine above)
    (hp : BeforeLine part) :
    BeforeLine (above ++ part) := by
  rcases hp with rfl | hp
  · rwa [List.append_nil]
  · exact .inr (by rw [List.getLast?_append, hp, Option.some_or])

theorem AfterLine.append {part below : List Char} (hp : AfterLine part)
    (hb : AfterLine below) :
    AfterLine (part ++ below) := by
  rcases hp with rfl | hp
  · exact hb
  · exact .inr (by rw [List.head?_append, hp, Option.some_or])

theorem StandsIn.trans {part middle whole : List Char} (h : StandsIn part middle)
    (hm : StandsIn middle whole) : StandsIn part whole := by
  obtain ⟨a, b, rfl, ha, hb⟩ := h
  obtain ⟨a', b', rfl, ha', hb'⟩ := hm
  exact ⟨a' ++ a, b ++ b', by simp only [List.append_assoc], ha'.append ha, hb.append hb'⟩

theorem StandsIn.allBlank {part whole : List Char} (h : StandsIn part whole)
    (hw : allBlank whole = true) : allBlank part = true := by
  obtain ⟨a, b, rfl, -, -⟩ := h
  rw [allBlank_append, allBlank_append, Bool.and_eq_true, Bool.and_eq_true] at hw
  exact hw.1.2

/-! ## Lines of an item -/

/-- Lines as text, each ended by a line feed. -/
def textOf (ls : List (List Char)) : List Char := ls.flatMap (· ++ ['\n'])

theorem textOf_cons (l : List Char) (ls : List (List Char)) :
    textOf (l :: ls) = l ++ '\n' :: textOf ls := by
  rw [textOf, List.flatMap_cons, List.append_assoc, List.singleton_append, textOf]

theorem textOf_append (ls ms : List (List Char)) :
    textOf (ls ++ ms) = textOf ls ++ textOf ms :=
  List.flatMap_append

theorem beforeLine_textOf (ls : List (List Char)) : BeforeLine (textOf ls) := by
  rcases List.eq_nil_or_concat ls with rfl | ⟨ms, l, rfl⟩
  · exact .inl rfl
  · refine .inr ?_
    rw [List.concat_eq_append, textOf_append, textOf_cons]
    simp [textOf]

theorem exists_textOf_eq {ls : List (List Char)} (h : ls ≠ []) :
    ∃ t, textOf ls = dropFeeds (textOf ls) ++ t ∧ t.head? = some '\n' := by
  obtain ⟨u, hu⟩ : ∃ u, textOf ls = u ++ ['\n'] := by
    rcases List.eq_nil_or_concat ls with rfl | ⟨ms, l, rfl⟩
    · exact absurd rfl h
    · exact ⟨textOf ms ++
        l, by
          rw [List.concat_eq_append, textOf_append, textOf_cons, List.append_assoc]; rfl⟩
  obtain ⟨t, ht, hf⟩ := exists_dropFeeds_append u
  refine ⟨t ++ ['\n'], ?_, ?_⟩
  · rw [hu, dropFeeds_append_of_onlyFeeds rfl, ← List.append_assoc, ← ht]
  · cases t with
    | nil => rfl
    | cons c t =>
        have hc : c = '\n' :=
          of_decide_eq_true (List.all_eq_true.1 hf c List.mem_cons_self)
        rw [List.cons_append, List.head?_cons, hc]

/-- A run of lines that holds more than line feeds keeps its place when feeds are
dropped at the end. -/
theorem standsIn_dropFeeds_textOf {ls part : List (List Char)} (h : part <:+: ls)
    (hp : ¬ onlyFeeds (textOf part) = true) :
    StandsIn (dropFeeds (textOf part)) (dropFeeds (textOf ls)) := by
  obtain ⟨above, below, rfl⟩ := h
  rw [textOf_append, textOf_append]
  by_cases hb : onlyFeeds (textOf below) = true
  · refine ⟨textOf above, [], ?_, beforeLine_textOf above, .inl rfl⟩
    rw [dropFeeds_append_of_onlyFeeds hb, dropFeeds_append_of_not hp, List.append_nil]
  · have hne : part ≠ [] := by
      rintro rfl
      exact hp rfl
    obtain ⟨t, ht, hf⟩ := exists_textOf_eq hne
    refine ⟨textOf above, t ++ dropFeeds (textOf below), ?_, beforeLine_textOf above, ?_⟩
    · rw [dropFeeds_append_of_not hb]
      conv_lhs => rw [ht]
      simp only [List.append_assoc]
    · exact .inr (by rw [List.head?_append, hf, Option.some_or])

/-! ## Items of a rendering -/

theorem stack_nil (item : List Char) : stack [] item = item := rfl

theorem stack_of_ne_nil {above : List Char} (h : above ≠ []) (item : List Char) :
    stack above item = dropFeeds above ++ ('\n' :: '\n' :: '\n' :: item) := by
  rw [stack, if_neg (by simpa using h)]

theorem stack_ne_nil {above : List Char} (h : above ≠ []) (item : List Char) :
    stack above item ≠ [] := by
  rw [stack_of_ne_nil h]
  simp

/-- Stacking leaves the text above as it is, but for the line feeds at its end. -/
theorem exists_dropFeeds_stack {above : List Char} (h : above ≠ []) (item : List Char) :
    ∃ below, dropFeeds (stack above item) = dropFeeds above ++ below ∧
      AfterLine below := by
  rw [stack_of_ne_nil h]
  by_cases hi : onlyFeeds ('\n' :: '\n' :: '\n' :: item) = true
  · refine ⟨[], ?_, .inl rfl⟩
    rw [dropFeeds_append_of_onlyFeeds hi, dropFeeds_dropFeeds, List.append_nil]
  · refine ⟨dropFeeds ('\n' :: '\n' :: '\n' :: item), dropFeeds_append_of_not hi, .inr ?_⟩
    have hn : ¬ onlyFeeds item = true := by simpa [onlyFeeds] using hi
    rw [← List.singleton_append, dropFeeds_append_of_not (by simpa [onlyFeeds] using hn)]
    rfl

theorem exists_dropFeeds_foldl_stack {above : List Char} (h : above ≠ [])
    (items : List (List Char)) :
    ∃ below, dropFeeds (items.foldl stack above) = dropFeeds above ++ below ∧
      AfterLine below := by
  induction items generalizing above with
  | nil => exact ⟨[], (List.append_nil _).symm, .inl rfl⟩
  | cons item items ih =>
      obtain ⟨b, hb, hbl⟩ := exists_dropFeeds_stack h item
      obtain ⟨b', hb', hbl'⟩ := ih (stack_ne_nil h item)
      refine ⟨b ++ b', ?_, hbl.append hbl'⟩
      rw [List.foldl_cons, hb', hb, List.append_assoc]

theorem exists_dropFeeds_stack_item (above : List Char) {item : List Char}
    (h : ¬ onlyFeeds item = true) :
    ∃ before, dropFeeds (stack above item) = before ++ dropFeeds item ∧
      BeforeLine before := by
  by_cases ha : above = []
  · exact ⟨[], by rw [ha, stack_nil, List.nil_append], .inl rfl⟩
  · refine ⟨dropFeeds above ++ ['\n', '\n', '\n'], ?_, .inr (by simp)⟩
    have hs : stack above item = (dropFeeds above ++ ['\n', '\n', '\n']) ++ item := by
      rw [stack_of_ne_nil ha, List.append_assoc]
      rfl
    rw [hs, dropFeeds_append_of_not h]

theorem standsIn_item {items : List Statement} {s : Statement} (hs : s ∈ items)
    (h : ¬ onlyFeeds s.text = true) :
    StandsIn (dropFeeds s.text) (renderChars items) := by
  obtain ⟨before, after, rfl⟩ := List.append_of_mem hs
  rw [renderChars, List.map_append, List.map_cons, List.foldl_append, List.foldl_cons]
  obtain ⟨a, ha, hal⟩ :=
    exists_dropFeeds_stack_item ((before.map Statement.text).foldl stack []) h
  have hne : stack ((before.map Statement.text).foldl stack []) s.text ≠ [] := by
    intro he
    rw [he] at ha
    have hd : dropFeeds s.text = [] := (List.append_eq_nil_iff.1 ha.symm).2
    obtain ⟨t, ht, hf⟩ := exists_dropFeeds_append s.text
    rw [hd, List.nil_append] at ht
    rw [ht] at h
    exact h hf
  obtain ⟨b, hb, hbl⟩ := exists_dropFeeds_foldl_stack hne (after.map Statement.text)
  exact ⟨a, b, by rw [hb, ha], hal, hbl⟩

/-- A run of lines of an item, with more in it than line feeds, comes into the
rendered text as it is. -/
theorem standsIn_renderChars {items : List Statement} {s : Statement} (hs : s ∈ items)
    {part : List (List Char)} (h : part <:+: s.lines 0)
    (hp : ¬ onlyFeeds (textOf part) = true) :
    StandsIn (dropFeeds (textOf part)) (renderChars items) := by
  have ht : ¬ onlyFeeds s.text = true := by
    obtain ⟨above, below, hl⟩ := h
    show ¬ onlyFeeds (textOf (s.lines 0)) = true
    rw [← hl, textOf_append, textOf_append, onlyFeeds_append, onlyFeeds_append]
    simp [hp]
  exact (standsIn_dropFeeds_textOf h hp).trans (standsIn_item hs ht)

theorem not_allBlank_renderChars {items : List Statement} {s : Statement} (hs : s ∈ items)
    {l : List Char} (hl : l ∈ s.lines 0) (hb : ¬ allBlank l = true) :
    ¬ allBlank (renderChars items) = true := by
  have hp : ¬ allBlank (textOf [l]) = true := by
    rw [textOf_cons, allBlank_append]
    simp [hb]
  obtain ⟨above, below, he⟩ := List.append_of_mem hl
  have hi : [l] <:+: s.lines 0 :=
    ⟨above, below, by rw [he, List.append_assoc, List.singleton_append]⟩
  intro hr
  have hd := (standsIn_renderChars hs hi (mt allBlank_of_onlyFeeds hp)).allBlank hr
  exact hp (by rwa [allBlank_dropFeeds] at hd)

end NotebookService.Code
