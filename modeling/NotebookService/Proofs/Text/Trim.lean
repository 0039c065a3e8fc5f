/-
# `NotebookService.Proofs.Text.Trim` — what trimming leaves

A text is blank characters, then something that neither begins nor ends with one, then
blank characters.  Each lemma here says what one of the three parts does: blank
characters at an end are dropped, a character that is not blank stops the dropping, and
a text with such characters at both ends is left alone.
-/
import Mathlib.Data.List.DropRight
import NotebookService.Text.Blank

namespace NotebookService.Text

variable {p : Char → Bool} {c : Char} {s t : List Char}

/-! ## Runs at the front -/

theorem takeWhile_append_cons_of_not (h : p c = false) (s t : List Char) :
    (s ++ c :: t).takeWhile p = s.takeWhile p := by
  induction s with
  | nil => simp [h]
  | cons d s ih => simp [List.takeWhile_cons, ih]

theorem dropWhile_append_cons_of_not (h : p c = false) (s t : List Char) :
    (s ++ c :: t).dropWhile p = s.dropWhile p ++ c :: t := by
  induction s with
  | nil => simp [h]
  | cons d s ih =>
      rw [List.cons_append, List.dropWhile_cons, List.dropWhile_cons, ih]
      split <;> rfl

/-! ## Dropping at the end -/

theorem dropEndWhile_eq_rdropWhile (p : Char → Bool) (s : List Char) :
    dropEndWhile p s = s.rdropWhile p := by
  induction s with
  | nil => rfl
  | cons c s ih =>
      rw [dropEndWhile, ih, List.rdropWhile, List.rdropWhile, List.reverse_cons,
        List.dropWhile_append]
      cases hd : List.dropWhile p s.reverse with
      | nil => cases hc : p c <;> simp [hc]
      | cons d t => simp

theorem rdropWhile_append_of_all {α : Type} {p : α → Bool} {s t : List α}
    (h : ∀ c ∈ t, p c = true) :
    (s ++ t).rdropWhile p = s.rdropWhile p := by
  have hr : ∀ c ∈ t.reverse, p c = true := fun c hc => h c (List.mem_reverse.1 hc)
  rw [List.rdropWhile, List.reverse_append, List.dropWhile_append_of_pos hr,
    List.rdropWhile]

theorem rdropWhile_append_of_not {α : Type} {p : α → Bool} {s t : List α}
    (h : ¬ ∀ c ∈ t, p c = true) :
    (s ++ t).rdropWhile p = s ++ t.rdropWhile p := by
  have hn : t.reverse.dropWhile p ≠ [] := by
    rw [Ne, List.dropWhile_eq_nil_iff]
    exact fun hr => h fun c hc => hr c (List.mem_reverse.2 hc)
  rw [List.rdropWhile, List.rdropWhile, List.reverse_append, List.dropWhile_append,
    if_neg (by simpa using hn), List.reverse_append, List.reverse_reverse]

theorem rdropWhile_append_cons {α : Type} {p : α → Bool} {a : α} (h : ¬ p a = true)
    (xs ys : List α) :
    (xs ++ a :: ys).rdropWhile p = xs ++ a :: ys.rdropWhile p := by
  have hsplit : xs ++ a :: ys = (xs ++ [a]) ++ ys := by
    rw [List.append_assoc, List.singleton_append]
  rw [hsplit]
  by_cases hall : ∀ y ∈ ys, p y = true
  · rw [rdropWhile_append_of_all hall, List.rdropWhile_concat_neg p xs a h,
      List.rdropWhile_eq_nil_iff.2 hall]
  · rw [rdropWhile_append_of_not hall, List.append_assoc, List.singleton_append]

/-- An element is not dropped if one behind it is not to be. -/
theorem getElem?_rdropWhile {α : Type} {p : α → Bool} {xs : List α} {i : Nat}
    (h : ∃ x ∈ xs.drop (i + 1), p x = false) : (xs.rdropWhile p)[i]? = xs[i]? := by
  obtain ⟨x, hx, hp⟩ := h
  have hlt : i < (xs.take (i + 1)).length := by
    have hpos := List.length_pos_of_mem hx
    rw [List.length_drop] at hpos
    rw [List.length_take]
    omega
  have hnot : ¬ ∀ y ∈ xs.drop (i + 1), p y = true := by
    intro hall
    rw [hall x hx] at hp
    cases hp
  have hdrop : xs.rdropWhile p = xs.take (i + 1) ++ (xs.drop (i + 1)).rdropWhile p := by
    rw [← rdropWhile_append_of_not hnot, List.take_append_drop]
  rw [hdrop, List.getElem?_append_left hlt, List.getElem?_take_of_lt (Nat.lt_succ_self i)]

theorem dropEndWhile_append_of_all (h : ∀ c ∈ t, p c = true) :
    dropEndWhile p (s ++ t) = dropEndWhile p s := by
  rw [dropEndWhile_eq_rdropWhile, dropEndWhile_eq_rdropWhile, rdropWhile_append_of_all h]

theorem dropEndWhile_append_of_not (h : ¬ ∀ c ∈ t, p c = true) :
    dropEndWhile p (s ++ t) = s ++ dropEndWhile p t := by
  rw [dropEndWhile_eq_rdropWhile, dropEndWhile_eq_rdropWhile, rdropWhile_append_of_not h]

/-! ## Blank texts -/

@[simp] theorem isBlank_space : isBlank ' ' = true := rfl

@[simp] theorem allBlank_nil : allBlank [] = true := rfl

@[simp] theorem allBlank_cons : allBlank (c :: s) = (isBlank c && allBlank s) := rfl

@[simp] theorem allBlank_append :
    allBlank (s ++ t) = (allBlank s && allBlank t) := List.all_append

theorem allBlank_iff : allBlank s = true ↔ ∀ c ∈ s, isBlank c = true := List.all_eq_true

theorem allBlank_replicate_space (n : Nat) : allBlank (List.replicate n ' ') = true :=
  allBlank_iff.2 fun _ hc => List.eq_of_mem_replicate hc ▸ rfl

/-! ## Trimming the end -/

@[simp] theorem trimEnd_nil : trimEnd [] = [] := rfl

theorem trimEnd_eq_nil : trimEnd s = [] ↔ allBlank s = true := by
  rw [trimEnd, dropEndWhile_eq_rdropWhile, List.rdropWhile_eq_nil_iff, allBlank_iff]

theorem trimEnd_append_of_allBlank (h : allBlank t = true) :
    trimEnd (s ++ t) = trimEnd s :=
  dropEndWhile_append_of_all (allBlank_iff.1 h)

theorem trimEnd_append_of_not (h : ¬ allBlank t = true) :
    trimEnd (s ++ t) = s ++ trimEnd t :=
  dropEndWhile_append_of_not (mt allBlank_iff.2 h)

theorem trimEnd_append_eq_self_iff (h : ¬ allBlank t = true) :
    trimEnd (s ++ t) = s ++ t ↔ trimEnd t = t := by
  rw [trimEnd_append_of_not h, List.append_right_inj]

theorem trimEnd_cons_of_not (h : ¬ allBlank s = true) :
    trimEnd (c :: s) = c :: trimEnd s :=
  trimEnd_append_of_not (s := [c]) h

@[simp] theorem trimEnd_trimEnd : trimEnd (trimEnd s) = trimEnd s := by
  simp only [trimEnd, dropEndWhile_eq_rdropWhile, List.rdropWhile_idempotent]

theorem trimEnd_prefix (s : List Char) : trimEnd s <+: s := by
  rw [trimEnd, dropEndWhile_eq_rdropWhile]
  exact List.rdropWhile_prefix isBlank s

theorem exists_trimEnd_append (s : List Char) :
    ∃ t, s = trimEnd s ++ t ∧ allBlank t = true := by
  refine ⟨s.rtakeWhile isBlank, ?_, ?_⟩
  · rw [trimEnd, dropEndWhile_eq_rdropWhile, List.rdropWhile_append_rtakeWhile]
  · exact allBlank_iff.2 fun c hc => List.mem_rtakeWhile_imp hc

@[simp] theorem allBlank_trimEnd : allBlank (trimEnd s) = allBlank s := by
  obtain ⟨t, hs, ht⟩ := exists_trimEnd_append s
  conv_rhs => rw [hs, allBlank_append, ht, Bool.and_true]

theorem trimEnd_append_cons_of_not (h : isBlank c = false) (s t : List Char) :
    trimEnd (s ++ c :: t) = s ++ c :: trimEnd t := by
  rw [trimEnd, dropEndWhile_eq_rdropWhile, rdropWhile_append_cons (by simp [h]), trimEnd,
    dropEndWhile_eq_rdropWhile]

theorem trimEnd_concat_of_not (h : isBlank c = false) :
    trimEnd (s ++ [c]) = s ++ [c] := by
  rw [trimEnd_append_of_not (by simp [h]), trimEnd, dropEndWhile_eq_rdropWhile]
  simp [h]

/-! ## Trimming both ends -/

@[simp] theorem trim_nil : trim [] = [] := rfl

theorem trimStart_eq_nil : trimStart s = [] ↔ allBlank s = true := by
  rw [trimStart, List.dropWhile_eq_nil_iff, allBlank_iff]

theorem trimStart_cons_of_not (h : isBlank c = false) : trimStart (c :: s) = c :: s :=
  List.dropWhile_cons_of_neg (by simp [h])

theorem trimStart_cons_of_isBlank (h : isBlank c = true) :
    trimStart (c :: s) = trimStart s :=
  List.dropWhile_cons_of_pos h

@[simp] theorem trimStart_trimStart : trimStart (trimStart s) = trimStart s :=
  List.dropWhile_idempotent isBlank s

theorem trimStart_append_of_allBlank (h : allBlank s = true) :
    trimStart (s ++ t) = trimStart t :=
  List.dropWhile_append_of_pos (allBlank_iff.1 h)

theorem trim_of_allBlank (h : allBlank s = true) : trim s = [] := by
  rw [trim, trimStart_eq_nil.2 h, trimEnd_nil]

theorem trim_cons_of_not (h : isBlank c = false) : trim (c :: s) = trimEnd (c :: s) := by
  rw [trim, trimStart_cons_of_not h]

theorem trim_cons_of_isBlank (h : isBlank c = true) : trim (c :: s) = trim s := by
  rw [trim, trimStart_cons_of_isBlank h, trim]

/-- The two ends can be trimmed in either order. -/
theorem trimStart_trimEnd (s : List Char) : trimStart (trimEnd s) = trim s := by
  induction s with
  | nil => rfl
  | cons c s ih =>
      by_cases hb : allBlank (c :: s) = true
      · rw [trimEnd_eq_nil.2 hb, trim_of_allBlank hb]
        rfl
      · cases hc : isBlank c with
        | false =>
            obtain ⟨t, ht⟩ := trimEnd_prefix (c :: s)
            rw [trim_cons_of_not hc]
            cases he : trimEnd (c :: s) with
            | nil => exact absurd (trimEnd_eq_nil.1 he) hb
            | cons d u =>
                rw [he, List.cons_append] at ht
                obtain ⟨rfl, -⟩ := List.cons.inj ht
                exact trimStart_cons_of_not hc
        | true =>
            have hs : ¬ allBlank s = true := by simpa [hc] using hb
            rw [trimEnd_cons_of_not hs, trimStart_cons_of_isBlank hc,
              trim_cons_of_isBlank hc, ih]

@[simp] theorem trim_trimEnd : trim (trimEnd s) = trim s := by
  rw [trim, trimStart_trimEnd, trim, trimEnd_trimEnd]

@[simp] theorem trim_trimStart : trim (trimStart s) = trim s := by
  rw [trim, trimStart_trimStart, trim]

theorem trim_trim : trim (trim s) = trim s := by
  show trim (trimEnd (trimStart s)) = trim s
  rw [trim_trimEnd, trim_trimStart]

theorem trim_append_of_allBlank_left (h : allBlank s = true) :
    trim (s ++ t) = trim t := by
  rw [trim, trimStart_append_of_allBlank h, ← trim]

theorem trim_append_of_allBlank (h : allBlank t = true) : trim (s ++ t) = trim s := by
  rw [← trim_trimEnd, trimEnd_append_of_allBlank h, trim_trimEnd]

/-! ## Nothing to trim -/

/-- No character of the text is blank. -/
def NoBlank (s : List Char) : Prop := ∀ c ∈ s, isBlank c = false

instance (s : List Char) : Decidable (NoBlank s) :=
  List.decidableBAll (fun c => isBlank c = false) s

theorem NoBlank.trimEnd_eq (h : NoBlank s) : trimEnd s = s := by
  rcases List.eq_nil_or_concat s with rfl | ⟨t, c, rfl⟩
  · rfl
  · rw [List.concat_eq_append] at h ⊢
    exact trimEnd_concat_of_not (h c (by simp))

theorem NoBlank.trim_eq (h : NoBlank s) : trim s = s := by
  cases s with
  | nil => rfl
  | cons c s =>
      rw [trim_cons_of_not (h c List.mem_cons_self)]
      exact h.trimEnd_eq

theorem noBlank_of_mem_wordsFrom {w : List Char} (hw : NoBlank w) {u : List Char}
    (hu : u ∈ wordsFrom w s) :
    NoBlank u := by
  induction s generalizing w with
  | nil =>
      rw [wordsFrom] at hu
      split at hu
      · cases hu
      · rw [List.mem_singleton.1 hu]
        intro c hc
        exact hw c (List.mem_reverse.1 hc)
  | cons c s ih =>
      rw [wordsFrom] at hu
      split at hu
      · split at hu
        · exact ih (fun _ hc => absurd hc List.not_mem_nil) hu
        · rcases List.mem_cons.1 hu with rfl | hu
          · intro d hd
            exact hw d (List.mem_reverse.1 hd)
          · exact ih (fun _ hc => absurd hc List.not_mem_nil) hu
      · rename_i hc
        exact ih (List.forall_mem_cons.2 ⟨by simpa using hc, hw⟩) hu

theorem noBlank_of_mem_words {u : List Char} (h : u ∈ words s) : NoBlank u :=
  noBlank_of_mem_wordsFrom (fun _ hc => absurd hc List.not_mem_nil) h

theorem trim_cons_concat (hc : isBlank c = false) {d : Char} (hd : isBlank d = false)
    (s : List Char) :
    trim (c :: (s ++ [d])) = c :: (s ++ [d]) := by
  rw [trim_cons_of_not hc, ← List.cons_append]
  exact trimEnd_concat_of_not hd

end NotebookService.Text
