/-
# `NotebookService.Proofs.Text.Indent` — moving lines to the right

Lines that are all moved by the same number of spaces keep their shape: each line's
indentation grows by that number, so does what they share, and cutting it off gives the
same lines.  Cutting at a column inside the indentation never touches what stands behind
it, also where the column falls inside a character.
-/
import NotebookService.Proofs.Text.Trim
import NotebookService.Text.Indent

namespace NotebookService.Text

variable {l : List Char}

/-- A line with spaces in front of it. -/
def shifted (k : Nat) (l : List Char) : List Char := List.replicate k ' ' ++ l

@[simp] theorem shifted_zero : shifted 0 l = l := rfl

theorem shifted_succ (k : Nat) : shifted (k + 1) l = ' ' :: shifted k l := rfl

@[simp] theorem allBlank_shifted (k : Nat) : allBlank (shifted k l) = allBlank l := by
  rw [shifted, allBlank_append, allBlank_replicate_space, Bool.true_and]

theorem trimStart_shifted (k : Nat) : trimStart (shifted k l) = trimStart l :=
  trimStart_append_of_allBlank (allBlank_replicate_space k)

theorem trimEnd_shifted (k : Nat) (h : ¬ allBlank l = true) :
    trimEnd (shifted k l) = shifted k (trimEnd l) :=
  trimEnd_append_of_not h

theorem width_shifted (k : Nat) : width (shifted k l) = k + width l := by
  induction k with
  | zero => rw [shifted_zero, Nat.zero_add]
  | succ k ih =>
      have hs : (' ' : Char).utf8Size = 1 := rfl
      rw [shifted_succ, width, ih, hs]
      omega

/-! ## Indentation -/

theorem indentation_cons_of_isBlank {c : Char} (h : isBlank c = true) :
    indentation (c :: l) = c.utf8Size + indentation l := by
  rw [indentation, List.takeWhile_cons_of_pos h, width, indentation]

theorem indentation_cons_of_not {c : Char} (h : isBlank c = false) :
    indentation (c :: l) = 0 := by
  rw [indentation, List.takeWhile_cons_of_neg (by simp [h]), width]

theorem indentation_append_of_not (h : ¬ allBlank l = true) (t : List Char) :
    indentation (l ++ t) = indentation l := by
  rw [indentation, List.takeWhile_append, if_neg, indentation]
  intro hlength
  refine h ?_
  rw [← (List.takeWhile_prefix isBlank).eq_of_length hlength]
  exact List.all_takeWhile

theorem indentation_append_of_allBlank {m : List Char} (h : allBlank m = true)
    (t : List Char) :
    indentation (m ++ t) = width m + indentation t := by
  rw [indentation, List.takeWhile_append_of_pos (allBlank_iff.1 h),
    width_append, indentation]

theorem indentation_shifted (k : Nat) :
    indentation (shifted k l) = k + indentation l := by
  have hwidth : width (List.replicate k ' ') = k := by
    have hk := width_shifted (l := []) k
    rwa [shifted, List.append_nil] at hk
  rw [shifted, indentation_append_of_allBlank (allBlank_replicate_space k), hwidth]

/-! ## The least number -/

theorem min?_eq_some_least {ns : List Nat} (h : ns ≠ []) : ns.min? = some (least ns) := by
  cases ns with
  | nil => exact absurd rfl h
  | cons n ns => exact List.min?_cons'

theorem least_mem {ns : List Nat} (h : ns ≠ []) : least ns ∈ ns :=
  (List.min?_eq_some_iff.1 (min?_eq_some_least h)).1

theorem least_le {n : Nat} {ns : List Nat} (h : n ∈ ns) : least ns ≤ n :=
  (List.min?_eq_some_iff.1 (min?_eq_some_least (List.ne_nil_of_mem h))).2 n h

theorem least_map_add (k : Nat) {ns : List Nat} (h : ns ≠ []) :
    least (ns.map (k + ·)) = k + least ns := by
  have hk : ns.map (k + ·) ≠ [] := by simpa using h
  have hm : (ns.map (k + ·)).min? = some (k + least ns) := by
    refine List.min?_eq_some_iff.2 ⟨List.mem_map_of_mem (least_mem h), ?_⟩
    intro m hm
    obtain ⟨n, hn, rfl⟩ := List.mem_map.1 hm
    exact Nat.add_le_add_left (least_le hn) k
  exact Option.some_inj.1 ((min?_eq_some_least hk).symm.trans hm)

/-! ## Cutting -/

theorem cut?_shifted (k n : Nat) : cut? (k + n) (shifted k l) = cut? n l := by
  induction k with
  | zero => rw [Nat.zero_add, shifted_zero]
  | succ k ih =>
      have hs : (' ' : Char).utf8Size = 1 := rfl
      rw [shifted_succ, Nat.add_right_comm, cut?, hs, if_pos (by omega),
        Nat.add_sub_cancel, ih]

theorem cut?_shifted_of_le {k n : Nat} (h : k ≤ n) :
    cut? k (shifted n l) = some (shifted (n - k) l) := by
  have hsplit : shifted n l = shifted k (shifted (n - k) l) := by
    rw [shifted, shifted, shifted, ← List.append_assoc, List.replicate_append_replicate,
      Nat.add_sub_cancel' h]
  calc cut? k (shifted n l)
    _ = cut? (k + 0) (shifted k (shifted (n - k) l)) := by rw [hsplit, Nat.add_zero]
    _ = cut? 0 (shifted (n - k) l) := cut?_shifted k 0
    _ = some (shifted (n - k) l) := by rw [cut?]

theorem cut_shifted (k n : Nat) : cut (k + n) (shifted k l) = cut n l := by
  rw [cut, cut, cut?_shifted, trimStart_shifted]

theorem trimStart_eq_of_cut? {n : Nat} {t : List Char} (h : n ≤ indentation l)
    (hc : cut? n l = some t) : trimStart t = trimStart l := by
  induction l generalizing n with
  | nil =>
      cases n with
      | zero => simp [cut?] at hc; rw [← hc]
      | succ n => simp [cut?] at hc
  | cons c l ih =>
      cases n with
      | zero => simp [cut?] at hc; rw [← hc]
      | succ n =>
          cases hb : isBlank c with
          | false => rw [indentation_cons_of_not hb] at h; omega
          | true =>
              rw [indentation_cons_of_isBlank hb] at h
              rw [cut?] at hc
              split at hc
              · rw [trimStart_cons_of_isBlank hb]
                exact ih (by omega) hc
              · cases hc

/-- A column inside the indentation leaves everything behind the indentation. -/
theorem trimStart_cut {n : Nat} (h : n ≤ indentation l) :
    trimStart (cut n l) = trimStart l := by
  cases n with
  | zero => rw [cut, cut?, Option.getD_some]
  | succ n =>
      cases hc : cut? (n + 1) l with
      | none => rw [cut, hc, Option.getD_none, trimStart_trimStart]
      | some t =>
          rw [cut, hc, Option.getD_some]
          exact trimStart_eq_of_cut? h hc

@[simp] theorem cut_zero (l : List Char) : cut 0 l = l := by
  rw [cut, cut?, Option.getD_some]

/-- A column that is a character's first has as many columns before it as it says. -/
theorem width_eq_of_cut? {n : Nat} {t : List Char} (h : cut? n l = some t) :
    width l = n + width t := by
  induction l generalizing n with
  | nil =>
      cases n with
      | zero =>
          rw [cut?] at h
          cases h
          rfl
      | succ n =>
          rw [cut?] at h
          cases h
  | cons c l ih =>
      cases n with
      | zero =>
          rw [cut?] at h
          cases h
          exact (Nat.zero_add _).symm
      | succ n =>
          rw [cut?] at h
          split at h
          · rw [width, ih h]
            omega
          · cases h

theorem cut?_width_append (s t : List Char) : cut? (width s) (s ++ t) = some t := by
  induction s with
  | nil => simp [cut?]
  | cons c s ih =>
      have hc := c.utf8Size_pos
      have hn : width (c :: s) = (c.utf8Size + width s - 1) + 1 := by
        rw [width]
        omega
      have hs : c.utf8Size + width s - 1 + 1 - c.utf8Size = width s := by omega
      rw [hn, List.cons_append, cut?, if_pos (by omega), hs, ih]

theorem cut_width_append (s t : List Char) : cut (width s) (s ++ t) = t := by
  rw [cut, cut?_width_append, Option.getD_some]

/-! ## Margins -/

/-- The blank characters that a line begins with. -/
def margin (l : List Char) : List Char := l.takeWhile isBlank

theorem margin_append_trimStart (l : List Char) : margin l ++ trimStart l = l :=
  List.takeWhile_append_dropWhile

/-- At its own indentation a line can always be cut, whatever blanks it begins with. -/
theorem cut_indentation (l : List Char) : cut (indentation l) l = trimStart l := by
  have h := cut_width_append (margin l) (trimStart l)
  rwa [margin_append_trimStart] at h

/-- All characters of the text are ASCII characters. -/
def IsAscii (s : List Char) : Prop := ∀ c ∈ s, c.val ≤ 127

instance (s : List Char) : Decidable (IsAscii s) :=
  List.decidableBAll (fun c : Char => c.val ≤ 127) s

theorem IsAscii.width_eq {s : List Char} (h : IsAscii s) : width s = s.length := by
  induction s with
  | nil => rfl
  | cons c s ih =>
      obtain ⟨hc, hs⟩ := List.forall_mem_cons.1 h
      rw [width, ih hs, Char.utf8Size_eq_one_iff.2 hc, List.length_cons, Nat.add_comm]

/-- Off an ASCII margin columns are cut one by one. -/
theorem IsAscii.cut_eq (h : IsAscii (margin l)) {n : Nat} (hn : n ≤ (margin l).length) :
    cut n l = (margin l).drop n ++ trimStart l := by
  have htake : IsAscii ((margin l).take n) := fun c hc => h c (List.mem_of_mem_take hc)
  have hwidth : width ((margin l).take n) = n := by
    rw [htake.width_eq, List.length_take_of_le hn]
  have hcut := cut_width_append ((margin l).take n) ((margin l).drop n ++ trimStart l)
  rwa [hwidth, ← List.append_assoc, List.take_append_drop,
    margin_append_trimStart] at hcut

end NotebookService.Text
