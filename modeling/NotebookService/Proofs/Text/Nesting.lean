/-
# `NotebookService.Proofs.Text.Nesting` — lists joined by commas are cut there

A text whose brackets are balanced and whose commas stand between brackets is one part,
wherever it stands: the reader enters it at the top level and is there again behind it.
So a list of such texts, joined by a comma and a space, comes apart into the same list.
-/
import NotebookService.Proofs.Text.Trim
import NotebookService.Text.Nesting

namespace NotebookService.Text

variable {s t : List Char} {d : Nat}

/-! ## Balanced texts -/

/-- The brackets of the text are balanced when `d` are open before it, and its commas
stand inside of them.  A bracket of any kind closes any other. -/
def balanced (d : Nat) : List Char → Bool
  | [] => d = 0
  | c :: s =>
    if Nesting.isOpening c then balanced (d + 1) s
    else if Nesting.isClosing c then d ≠ 0 && balanced (d - 1) s
    else if c = ',' then d ≠ 0 && balanced d s
    else balanced d s

/-- No character of the text is a bracket or a comma. -/
def Unnested (s : List Char) : Prop :=
  ∀ c ∈ s, Nesting.isOpening c = false ∧ Nesting.isClosing c = false ∧ c ≠ ','

theorem Unnested.balanced_append (h : Unnested s) (d : Nat) (t : List Char) :
    balanced d (s ++ t) = balanced d t := by
  induction s with
  | nil => rfl
  | cons c s ih =>
      obtain ⟨⟨ho, hc, hs⟩, ht⟩ := List.forall_mem_cons.1 h
      rw [List.cons_append, balanced, ih ht]
      simp [ho, hc, hs]

theorem balanced_append (hs : balanced d s = true) (ht : balanced 0 t = true) :
    balanced d (s ++ t) = true := by
  fun_induction balanced d s with
  | case1 d =>
      have hd : d = 0 := of_decide_eq_true hs
      rwa [List.nil_append, hd]
  | case2 d c s ho ih =>
      rw [List.cons_append, balanced, if_pos ho]
      exact ih hs
  | case3 d c s ho hc ih =>
      rw [List.cons_append, balanced, if_neg ho, if_pos hc]
      rw [Bool.and_eq_true] at hs ⊢
      exact ⟨hs.1, ih hs.2⟩
  | case4 d s ho hc ih =>
      rw [List.cons_append, balanced, if_neg ho, if_neg hc, if_pos rfl]
      rw [Bool.and_eq_true] at hs ⊢
      exact ⟨hs.1, ih hs.2⟩
  | case5 d c s ho hc hn ih =>
      rw [List.cons_append, balanced, if_neg ho, if_neg hc, if_neg hn]
      exact ih hs

/-! ## Cutting -/

/-- No character of the text is a quote. -/
def Unquoted (s : List Char) : Prop := ∀ c ∈ s, Nesting.isQuote c = false

instance (s : List Char) : Decidable (Unquoted s) :=
  List.decidableBAll (fun c => Nesting.isQuote c = false) s

theorem splitNested_cons {n : Nesting} {c : Char} (hc : n.separates c = false)
    {p : List Char} {ps : List (List Char)} (h : splitNested (n.step c) s = p :: ps) :
    splitNested n (c :: s) = (c :: p) :: ps := by
  rw [splitNested, if_neg (by simp [hc]), h]

theorem separates_of_ne {c : Char} (h : c ≠ ',') :
    Nesting.separates ⟨d, none⟩ c = false := by
  simp [Nesting.separates, h]

theorem step_of_not_isQuote {c : Char} (h : Nesting.isQuote c = false) (d : Nat) :
    Nesting.step ⟨d, none⟩ c =
      ⟨if Nesting.isOpening c then d + 1
        else if Nesting.isClosing c then d - 1 else d, none⟩ := by
  rw [Nesting.step]
  simp only [h, Bool.false_eq_true, if_false]
  split
  · rfl
  · split
    · rfl
    · rfl

/-- Where a comma separates, the reader is at the top level. -/
theorem eq_top_of_separates {n : Nesting} {c : Char} (h : n.separates c = true) :
    c = ',' ∧ n = .top := by
  have hs : (c = ',' ∧ n.depth = 0) ∧ n.quote.isNone = true := by
    simpa [Nesting.separates] using h
  obtain ⟨⟨hc, hd⟩, hq⟩ := hs
  obtain ⟨d, q⟩ := n
  obtain rfl : d = 0 := hd
  obtain rfl : q = none := Option.isNone_iff_eq_none.1 hq
  exact ⟨hc, rfl⟩

theorem step_of_separates {n : Nesting} {c : Char} (h : n.separates c = true) :
    n.step c = n := by
  obtain ⟨rfl, rfl⟩ := eq_top_of_separates h
  rfl

/-- What follows a text is cut as it is behind the text, but for the part in
which the text ends. -/
theorem exists_splitNested_append (n : Nesting) (s : List Char) :
    ∃ ps p, ∀ t q qs, splitNested (n.after s) t = q :: qs →
      splitNested n (s ++ t) = ps ++ (p ++ q) :: qs := by
  induction s generalizing n with
  | nil => exact ⟨[], [], fun t q qs h => h⟩
  | cons c s ih =>
      obtain ⟨ps, p, h⟩ := ih (n.step c)
      by_cases hc : n.separates c = true
      · refine ⟨[] :: ps, p, fun t q qs ht => ?_⟩
        have hs := h t q qs ht
        rw [step_of_separates hc] at hs
        rw [List.cons_append, splitNested, if_pos hc, hs]
        rfl
      · have hc : n.separates c = false := by simpa using hc
        cases ps with
        | nil => exact ⟨[], c :: p, fun t q qs ht => splitNested_cons hc (h t q qs ht)⟩
        | cons r ps =>
            exact ⟨(c :: r) :: ps, p, fun t q qs ht => splitNested_cons hc (h t q qs ht)⟩

/-- Nothing is cut inside a balanced text, and behind it the reader
is at the top level. -/
theorem splitNested_append_of_balanced (hb : balanced d s = true) (hq : Unquoted s)
    {p : List Char} {ps : List (List Char)} (ht : splitNested .top t = p :: ps) :
    splitNested ⟨d, none⟩ (s ++ t) = (s ++ p) :: ps := by
  fun_induction balanced d s with
  | case1 d =>
      have hd : d = 0 := of_decide_eq_true hb
      rw [hd]
      exact ht
  | case2 d c s ho ih =>
      obtain ⟨hc, hs⟩ := List.forall_mem_cons.1 hq
      have hne : c ≠ ',' := by
        rintro rfl
        cases ho
      refine splitNested_cons (separates_of_ne hne) ?_
      rw [step_of_not_isQuote hc, if_pos ho]
      exact ih hb hs
  | case3 d c s ho hcl ih =>
      obtain ⟨hc, hs⟩ := List.forall_mem_cons.1 hq
      have hne : c ≠ ',' := by
        rintro rfl
        cases hcl
      rw [Bool.and_eq_true] at hb
      refine splitNested_cons (separates_of_ne hne) ?_
      rw [step_of_not_isQuote hc, if_neg ho, if_pos hcl]
      exact ih hb.2 hs
  | case4 d s ho hcl ih =>
      obtain ⟨-, hs⟩ := List.forall_mem_cons.1 hq
      rw [Bool.and_eq_true, decide_eq_true_eq] at hb
      refine splitNested_cons (by simp [Nesting.separates, hb.1]) ?_
      exact ih hb.2 hs
  | case5 d c s ho hcl hne ih =>
      obtain ⟨hc, hs⟩ := List.forall_mem_cons.1 hq
      refine splitNested_cons (separates_of_ne hne) ?_
      rw [step_of_not_isQuote hc, if_neg ho, if_neg hcl]
      exact ih hb hs

/-- The first part is the whole text or stands before a comma at the top level, behind
which the cutting begins anew. -/
theorem splitNested_eq (n : Nesting) (s : List Char) :
    splitNested n s = [s] ∨ ∃ p t, s = p ++ ',' :: t ∧
      splitNested n s = p :: splitNested .top t := by
  induction s generalizing n with
  | nil => exact .inl rfl
  | cons c s ih =>
      by_cases hc : n.separates c = true
      · obtain ⟨rfl, rfl⟩ := eq_top_of_separates hc
        exact .inr ⟨[], s, rfl, by rw [splitNested, if_pos hc]⟩
      · have hc : n.separates c = false := by simpa using hc
        rcases ih (n.step c) with h | ⟨p, t, rfl, h⟩
        · exact .inl (splitNested_cons hc h)
        · exact .inr ⟨c :: p, t, rfl, splitNested_cons hc h⟩

theorem splitNested_append_of_not_mem {q : Char} (h : q ∉ s) {p : List Char}
    {ps : List (List Char)} (ht : splitNested ⟨d, some q⟩ t = p :: ps) :
    splitNested ⟨d, some q⟩ (s ++ t) = (s ++ p) :: ps := by
  induction s with
  | nil => exact ht
  | cons c s ih =>
      obtain ⟨hc, hs⟩ := not_or.1 (mt List.mem_cons.2 h)
      refine splitNested_cons (by simp [Nesting.separates]) ?_
      have hstep : Nesting.step ⟨d, some q⟩ c = ⟨d, some q⟩ := if_neg (Ne.symm hc)
      rw [hstep]
      exact ih hs

/-- Nothing is cut inside the text, and behind it the reader is at the top level again. -/
def IsWhole (s : List Char) : Prop :=
  ∀ t p ps, splitNested .top t = p :: ps → splitNested .top (s ++ t) = (s ++ p) :: ps

theorem isWhole_of_balanced (hb : balanced 0 s = true) (hq : Unquoted s) : IsWhole s :=
  fun _ _ _ ht => splitNested_append_of_balanced hb hq ht

theorem IsWhole.append (hs : IsWhole s) (ht : IsWhole t) : IsWhole (s ++ t) := by
  intro u p ps hu
  have htail := hs (t ++ u) (t ++ p) ps (ht u p ps hu)
  rwa [← List.append_assoc, ← List.append_assoc] at htail

theorem IsWhole.splitTopLevel_eq (h : IsWhole s) : splitTopLevel s = [trim s] := by
  have hs := h [] [] [] rfl
  rw [List.append_nil] at hs
  rw [splitTopLevel, hs]
  rfl

theorem IsWhole.splitTopLevel_append_comma (h : IsWhole s) (t : List Char) :
    splitTopLevel (s ++ ',' :: t) = trim s :: splitTopLevel t := by
  have ht : splitNested .top (',' :: t) = [] :: splitNested .top t := rfl
  rw [splitTopLevel, h _ _ _ ht, List.append_nil]
  rfl

theorem splitTopLevel_space (s : List Char) :
    splitTopLevel (' ' :: s) = splitTopLevel s := by
  obtain ⟨p, ps, hp⟩ := List.exists_cons_of_ne_nil (splitNested_ne_nil .top s)
  have hs : splitNested .top (' ' :: s) = (' ' :: p) :: ps := splitNested_cons rfl hp
  rw [splitTopLevel, splitTopLevel, hs, hp, List.map_cons, List.map_cons,
    trim_cons_of_isBlank rfl]

/-! ## Joined parts -/

/-- Parts with a comma and a space between any two. -/
def joined (ps : List (List Char)) : List Char := List.intercalate [',', ' '] ps

theorem joined_cons_cons (p q : List Char) (ps : List (List Char)) :
    joined (p :: q :: ps) = p ++ ',' :: ' ' :: joined (q :: ps) := by
  simp [joined, List.intercalate]

theorem joined_singleton (p : List Char) : joined [p] = p := by
  simp [joined, List.intercalate]

theorem splitTopLevel_joined_of_isWhole {ps : List (List Char)} (hne : ps ≠ [])
    (h : ∀ p ∈ ps, trim p = p ∧ IsWhole p) : splitTopLevel (joined ps) = ps := by
  induction ps with
  | nil => exact absurd rfl hne
  | cons p ps ih =>
      obtain ⟨⟨ht, hp⟩, hps⟩ := List.forall_mem_cons.1 h
      cases ps with
      | nil => rw [joined_singleton, hp.splitTopLevel_eq, ht]
      | cons q ps =>
          have hq := ih (List.cons_ne_nil q ps) hps
          rw [joined_cons_cons, hp.splitTopLevel_append_comma,
            splitTopLevel_space, hq, ht]

theorem mem_joined {ps : List (List Char)} {c : Char} (h : c ∈ joined ps) :
    c = ',' ∨ c = ' ' ∨ ∃ p ∈ ps, c ∈ p := by
  induction ps with
  | nil => cases h
  | cons p ps ih =>
      cases ps with
      | nil =>
          rw [joined_singleton] at h
          exact .inr (.inr ⟨p, List.mem_cons_self, h⟩)
      | cons q ps =>
          rw [joined_cons_cons, List.mem_append, List.mem_cons, List.mem_cons] at h
          rcases h with h | rfl | rfl | h
          · exact .inr (.inr ⟨p, List.mem_cons_self, h⟩)
          · exact .inl rfl
          · exact .inr (.inl rfl)
          · rcases ih h with h | h | ⟨r, hr, hc⟩
            · exact .inl h
            · exact .inr (.inl h)
            · exact .inr (.inr ⟨r, List.mem_cons_of_mem p hr, hc⟩)

end NotebookService.Text
