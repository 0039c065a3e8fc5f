/-
# `NotebookService.Proofs.Text.TopLevel` — cutting at the top level is exact

Field lists, flow collections and parameter lists are cut at the commas outside of
brackets and quotes.  The reader keeps a depth that never falls below zero and the quote
that is open, and every text takes it somewhere, also one whose brackets do not match.

All that is said here comes from two facts.  A text without a separating comma is one
part, wherever it is entered (`Uncut`).  And a separating comma is met at the top
level only and leaves the reader there, so that what stands behind it is cut as a
text of its own.  The parts are trimmed, which is harmless, since blanks leave the
reader where it is.

`Enclosed` says which texts can be put together and come apart again.  It is a grammar
and knows no depth: brackets and quotes come in pairs, and a comma stands between two of
them.  Of brackets any kind closes any other.
-/
import NotebookService.Proofs.Text.Indent
import NotebookService.Proofs.Text.Nesting
import NotebookService.Proofs.Text.WordChar

namespace NotebookService.Text

variable {n : Nesting} {c : Char} {s t p : List Char} {ps : List (List Char)}
  {inside : Bool}

/-! ## Texts without a separating comma -/

/-- No comma of the text separates, where the reader enters it at `n`. -/
def Uncut (n : Nesting) : List Char → Prop
  | [] => True
  | c :: s => n.separates c = false ∧ Uncut (n.step c) s

theorem uncut_append : Uncut n (s ++ t) ↔ Uncut n s ∧ Uncut (n.after s) t := by
  induction s generalizing n with
  | nil => exact (true_and _).to_iff.symm
  | cons c s ih =>
      rw [List.cons_append, Uncut, Uncut, Nesting.after_cons, ih, and_assoc]

theorem Uncut.splitNested_append (h : Uncut n s)
    (ht : splitNested (n.after s) t = p :: ps) :
    splitNested n (s ++ t) = (s ++ p) :: ps := by
  induction s generalizing n with
  | nil => exact ht
  | cons c s ih =>
      obtain ⟨hc, hs⟩ := h
      exact splitNested_cons hc (ih hs ht)

theorem Uncut.splitNested_eq (h : Uncut n s) : splitNested n s = [s] := by
  have hs := h.splitNested_append (t := []) rfl
  rwa [List.append_nil] at hs

/-- The first part is entered where the text is, all others at the top level, and none
of them is cut again. -/
theorem uncut_of_splitNested (h : splitNested n s = p :: ps) :
    Uncut n p ∧ ∀ q ∈ ps, Uncut .top q := by
  induction s generalizing n p ps with
  | nil =>
      cases h
      exact ⟨trivial, fun _ hq => absurd hq List.not_mem_nil⟩
  | cons c s ih =>
      obtain ⟨p', ps', hs⟩ := List.exists_cons_of_ne_nil (splitNested_ne_nil (n.step c) s)
      cases hc : n.separates c with
      | true =>
          obtain ⟨rfl, rfl⟩ := eq_top_of_separates hc
          obtain ⟨hp, hps⟩ := ih (n := .top) hs
          rw [splitNested, if_pos hc] at h
          obtain ⟨rfl, rfl⟩ := List.cons.inj h
          have hparts : splitNested .top s = p' :: ps' := hs
          rw [hparts]
          exact ⟨trivial, List.forall_mem_cons.2 ⟨hp, hps⟩⟩
      | false =>
          rw [splitNested_cons hc hs] at h
          obtain ⟨rfl, rfl⟩ := List.cons.inj h
          obtain ⟨hp, hps⟩ := ih hs
          exact ⟨⟨hc, hp⟩, hps⟩

/-! ## Trimming -/

theorem step_of_isBlank (h : isBlank c = true) (d : Nat) :
    Nesting.step ⟨d, none⟩ c = ⟨d, none⟩ := by
  have hm := not_mem_marks_of_isBlank h
  rw [step_of_not_isQuote (isQuote_of_not_mem_marks hm), isOpening_of_not_mem_marks hm,
    isClosing_of_not_mem_marks hm]
  rfl

theorem after_top_of_allBlank (h : allBlank s = true) : Nesting.after .top s = .top := by
  induction s with
  | nil => rfl
  | cons c s ih =>
      obtain ⟨hc, hs⟩ := Bool.and_eq_true_iff.1 h
      rw [Nesting.after_cons, Nesting.top, step_of_isBlank hc]
      exact ih hs

theorem Uncut.trim (h : Uncut .top s) : Uncut .top (trim s) := by
  have hstart : Uncut .top (trimStart s) := by
    have hmargin : allBlank (margin s) = true := List.all_takeWhile
    rw [← margin_append_trimStart s, uncut_append, after_top_of_allBlank hmargin] at h
    exact h.2
  obtain ⟨blanks, hs, -⟩ := exists_trimEnd_append (trimStart s)
  rw [hs, uncut_append] at hstart
  exact hstart.1

theorem splitTopLevel_of_mem (h : p ∈ splitTopLevel s) : splitTopLevel p = [p] := by
  obtain ⟨q, hq, rfl⟩ := List.mem_map.1 h
  obtain ⟨r, rs, hs⟩ := List.exists_cons_of_ne_nil (splitNested_ne_nil .top s)
  obtain ⟨hr, hrs⟩ := uncut_of_splitNested hs
  have hparts : ∀ q ∈ splitNested .top s, Uncut .top q := by
    rw [hs]
    exact List.forall_mem_cons.2 ⟨hr, hrs⟩
  rw [splitTopLevel, (hparts q hq).trim.splitNested_eq, List.map_singleton, trim_trim]

/-! ## Texts put together -/

/-- Behind a text that ends at the top level, a comma separates. -/
theorem splitNested_append_comma (h : n.after s = .top) (t : List Char) :
    splitNested n (s ++ ',' :: t) = splitNested n s ++ splitNested .top t := by
  obtain ⟨ps, p, hcut⟩ := exists_splitNested_append n s
  have hend := hcut [] [] [] rfl
  have hcomma := hcut (',' :: t) [] (splitNested .top t) (by rw [h]; rfl)
  rw [List.append_nil] at hend
  rw [hcomma, hend, List.append_assoc, List.singleton_append]

/-- A text in which brackets and quotes come in pairs and every comma stands between two
of them; with `inside`, the text itself stands between brackets. -/
inductive Enclosed : Bool → List Char → Prop where
  | nil {inside : Bool} : Enclosed inside []
  | plain {inside : Bool} {c : Char} {s : List Char} (hq : Nesting.isQuote c = false)
      (ho : Nesting.isOpening c = false)
      (hc : Nesting.isClosing c = false) (hcomma : c = ',' → inside = true)
      (hs : Enclosed inside s) :
      Enclosed inside (c :: s)
  | quoted {inside : Bool} {q : Char} {t s : List Char}
      (hq : Nesting.isQuote q = true) (ht : q ∉ t)
      (hs : Enclosed inside s) : Enclosed inside (q :: (t ++ q :: s))
  | bracketed {inside : Bool} {o c : Char} {t s : List Char}
      (ho : Nesting.isOpening o = true)
      (hc : Nesting.isClosing c = true) (ht : Enclosed true t) (hs : Enclosed inside s) :
      Enclosed inside (o :: (t ++ c :: s))

theorem step_of_isQuote (h : Nesting.isQuote c = true) (d : Nat) :
    Nesting.step ⟨d, none⟩ c = ⟨d, some c⟩ := by
  simp [Nesting.step, h]

theorem isQuote_of_isOpening (h : Nesting.isOpening c = true) :
    Nesting.isQuote c = false := by
  simp only [Nesting.isOpening, Bool.or_eq_true, decide_eq_true_eq] at h
  rcases h with (rfl | rfl) | rfl <;> rfl

theorem isQuote_of_isClosing (h : Nesting.isClosing c = true) :
    Nesting.isQuote c = false ∧ Nesting.isOpening c = false := by
  simp only [Nesting.isClosing, Bool.or_eq_true, decide_eq_true_eq] at h
  rcases h with (rfl | rfl) | rfl <;> exact ⟨rfl, rfl⟩

theorem uncut_quoted {q : Char} (h : q ∉ t) (d : Nat) :
    Uncut ⟨d, some q⟩ (t ++ [q]) ∧ Nesting.after ⟨d, some q⟩ (t ++ [q]) = ⟨d, none⟩ := by
  induction t with
  | nil => simp [Uncut, Nesting.separates, Nesting.step]
  | cons c t ih =>
      obtain ⟨hc, ht⟩ := not_or.1 (mt List.mem_cons.2 h)
      have hstep : Nesting.step ⟨d, some q⟩ c = ⟨d, some q⟩ := if_neg (Ne.symm hc)
      rw [List.cons_append, Uncut, Nesting.after_cons, hstep]
      exact ⟨⟨by simp [Nesting.separates], (ih ht).1⟩, (ih ht).2⟩

/-- Nothing separates in an enclosed text, and the reader leaves it at the
depth at which it came. -/
theorem Enclosed.uncut (h : Enclosed inside s) (d : Nat) (hd : inside = true → d ≠ 0) :
    Uncut ⟨d, none⟩ s ∧ Nesting.after ⟨d, none⟩ s = ⟨d, none⟩ := by
  induction h generalizing d with
  | nil => exact ⟨trivial, rfl⟩
  | @plain inside c s hq ho hc hcomma _ ih =>
      have hstep : Nesting.step ⟨d, none⟩ c = ⟨d, none⟩ := by
        rw [step_of_not_isQuote hq]
        simp [ho, hc]
      have hsep : Nesting.separates ⟨d, none⟩ c = false := by
        by_cases he : c = ','
        · simp [Nesting.separates, hd (hcomma he)]
        · exact separates_of_ne he
      rw [Uncut, Nesting.after_cons, hstep]
      exact ⟨⟨hsep, (ih d hd).1⟩, (ih d hd).2⟩
  | @quoted inside q t s hq ht _ ih =>
      have hne : q ≠ ',' := by
        rintro rfl
        cases hq
      obtain ⟨hin, hafter⟩ := uncut_quoted ht d
      have hsplit : t ++ q :: s = (t ++ [q]) ++ s := by simp
      rw [Uncut, Nesting.after_cons, step_of_isQuote hq, hsplit, uncut_append,
        Nesting.after_append (t := s), hafter]
      exact ⟨⟨separates_of_ne hne, hin, (ih d hd).1⟩, (ih d hd).2⟩
  | @bracketed inside o c t s ho hc _ _ iht ihs =>
      have hne : o ≠ ',' := by
        rintro rfl
        cases ho
      have hne' : c ≠ ',' := by
        rintro rfl
        cases hc
      have hopen : Nesting.step ⟨d, none⟩ o = ⟨d + 1, none⟩ := by
        rw [step_of_not_isQuote (isQuote_of_isOpening ho)]
        simp [ho]
      have hclose : Nesting.step ⟨d + 1, none⟩ c = ⟨d, none⟩ := by
        obtain ⟨hq, ho'⟩ := isQuote_of_isClosing hc
        rw [step_of_not_isQuote hq]
        simp [ho', hc]
      obtain ⟨hin, hafter⟩ := iht (d + 1) fun _ => Nat.succ_ne_zero d
      rw [Uncut, Nesting.after_cons, hopen, uncut_append, Nesting.after_append, hafter,
        Uncut, Nesting.after_cons, hclose]
      exact ⟨⟨separates_of_ne hne, hin, separates_of_ne hne', (ihs d hd).1⟩, (ihs d hd).2⟩

theorem Enclosed.isWhole (h : Enclosed false s) : IsWhole s := by
  intro t p ps ht
  obtain ⟨hs, hafter⟩ := h.uncut 0 (by simp)
  refine hs.splitNested_append ?_
  rw [hafter]
  exact ht

/-- The parts of any text are parts already.  A text that ends at the top level is cut
without regard to what stands behind a comma after it, and what stands there without
regard to it.  And enclosed texts come apart as they were put together. -/
theorem splitTopLevel_exact (s a b : List Char) (ps : List (List Char)) :
    (∀ p ∈ splitTopLevel s, splitTopLevel p = [p]) ∧
    (Nesting.after .top a = .top →
      splitTopLevel (a ++ ',' :: b) = splitTopLevel a ++ splitTopLevel b) ∧
    (ps ≠ [] → (∀ p ∈ ps, trim p = p ∧ Enclosed false p) →
      splitTopLevel (joined ps) = ps) := by
  refine ⟨fun p hp => splitTopLevel_of_mem hp, ?_, ?_⟩
  · intro ha
    rw [splitTopLevel, splitNested_append_comma ha b, List.map_append]
    rfl
  · intro hne hps
    refine splitTopLevel_joined_of_isWhole hne ?_
    intro p hp
    exact ⟨(hps p hp).1, (hps p hp).2.isWhole⟩

theorem splitTopLevel_exact_nested :
    splitTopLevel ("a], b('(', c)".toList ++ ',' :: "d: 'e, f".toList) =
        splitTopLevel "a], b('(', c)".toList ++ splitTopLevel "d: 'e, f".toList ∧
      splitTopLevel (joined ["(',',]".toList, "".toList]) =
        ["(',',]".toList, "".toList] := by
  have hlaws := splitTopLevel_exact [] "a], b('(', c)".toList "d: 'e, f".toList
    ["(',',]".toList, "".toList]
  refine ⟨hlaws.2.1 (by decide), hlaws.2.2 (by simp) ?_⟩
  have hinner : Enclosed true ('\'' :: ([','] ++ '\'' :: [','])) :=
    .quoted rfl (by decide) (.plain rfl rfl rfl (fun _ => rfl) .nil)
  have hpart : Enclosed false
      ('(' :: (('\'' :: ([','] ++ '\'' :: [','])) ++ ']' :: [])) :=
        .bracketed rfl rfl hinner .nil
  intro p hp
  rcases List.mem_pair.1 hp with rfl | rfl
  · exact ⟨rfl, hpart⟩
  · exact ⟨rfl, .nil⟩

end NotebookService.Text
