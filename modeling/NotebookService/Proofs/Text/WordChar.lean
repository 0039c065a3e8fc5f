/-
# `NotebookService.Proofs.Text.WordChar` — what a word character is not

Names stand between blanks, colons, brackets and quotes, and reading one back rests on
these never being characters of a name.  For the ASCII marks this is one evaluation
each.  The blanks run through several blocks of Unicode, and what is evaluated is that
no run of them meets a range in the table of names.
-/
import NotebookService.Proofs.Decimal.Digits
import NotebookService.Text.Blank
import NotebookService.Text.Nesting
import NotebookService.Text.WordChar

namespace NotebookService.Text

variable {c : Char}

/-- The runs of blank code points above ASCII. -/
def blankRanges : List (Nat × Nat) :=
  [(0x85, 0x85), (0xA0, 0xA0), (0x1680, 0x1680), (0x2000, 0x200A), (0x2028, 0x2029),
    (0x202F, 0x202F),
    (0x205F, 0x205F), (0x3000, 0x3000)]

theorem exists_blankRange (h : isBlank c = true) (hn : 0x80 ≤ c.toNat) :
    ∃ b ∈ blankRanges, b.1 ≤ c.toNat ∧ c.toNat ≤ b.2 := by
  simp only [isBlank, Bool.or_eq_true, Bool.and_eq_true, decide_eq_true_eq,
    beq_iff_eq] at h
  simp only [blankRanges, List.mem_cons, List.not_mem_nil, or_false, exists_eq_or_imp,
    exists_eq_left]
  omega

theorem alphanumericRanges_disjoint_blankRanges :
    (alphanumericRanges.toList.all fun r =>
      blankRanges.all fun b => Nat.blt b.2 r.1 || Nat.blt r.2 b.1) = true := by
  decide +kernel

theorem isAlphanum_of_isBlank_ascii :
    ∀ n < 0x80, isBlank (Char.ofNat n) = true → (Char.ofNat n).isAlphanum = false := by
  decide +kernel

theorem isAlphanumeric_of_isBlank (h : isBlank c = true) : isAlphanumeric c = false := by
  unfold isAlphanumeric
  split
  · rename_i hn
    have ha := isAlphanum_of_isBlank_ascii c.toNat hn
    rw [Char.ofNat_toNat] at ha
    exact ha h
  · rename_i hn
    obtain ⟨b, hb, hlo, hhi⟩ := exists_blankRange h (by omega)
    rw [← Array.any_toList, List.any_eq_false]
    intro r hr
    have hd := List.all_eq_true.1
      (List.all_eq_true.1 alphanumericRanges_disjoint_blankRanges r hr) b hb
    simp only [Bool.or_eq_true, Nat.blt_eq] at hd
    simp only [Bool.and_eq_true, decide_eq_true_eq]
    omega

theorem isBlank_of_isWordChar (h : isWordChar c = true) : isBlank c = false := by
  cases hb : isBlank c with
  | false => rfl
  | true =>
      have hu : c ≠ '_' := by
        rintro rfl
        cases hb
      rw [isWordChar, isAlphanumeric_of_isBlank hb] at h
      simp [hu] at h

theorem isWordChar_of_isBlank (h : isBlank c = true) : isWordChar c = false := by
  cases hc : isWordChar c with
  | false => rfl
  | true =>
      rw [isBlank_of_isWordChar hc] at h
      cases h

theorem isWordChar_of_isDigit (h : Decimal.isDigit c = true) : isWordChar c = true := by
  have hn : c.toNat < 0x80 := by
    simp only [Decimal.isDigit, decide_eq_true_eq, Char.le_def,
      UInt32.le_iff_toNat_le] at h
    have : c.val.toNat ≤ 57 := h.2
    show c.val.toNat < 0x80
    omega
  rw [Decimal.isDigit_eq] at h
  simp [isWordChar, isAlphanumeric, hn, Char.isAlphanum, h]

theorem isWordChar_of_isAlphanum (h : c.isAlphanum = true) : isWordChar c = true := by
  have hc : c.val.toNat ≤ 122 := by
    rcases (Bool.or_eq_true _ _).mp h with ha | hd
    · rcases (Bool.or_eq_true _ _).mp ha with hu | hl
      · have hz : c.val ≤ 90 := (of_decide_eq_true hu).2
        exact Nat.le_trans hz (by decide)
      · have hz : c.val ≤ 122 := of_decide_eq_true ((Bool.and_eq_true _ _).mp hl).2
        exact hz
    · have hz : c.val ≤ 57 := of_decide_eq_true ((Bool.and_eq_true _ _).mp hd).2
      exact Nat.le_trans hz (by decide)
  have hn : c.toNat < 0x80 := Nat.lt_of_le_of_lt hc (by decide)
  simp [isWordChar, isAlphanumeric, hn, h]

/-- The marks that metadata is built from. -/
def marks : List Char :=
  [':', '#', '\'', '"', '[', ']', '{', '}', '(', ')', '|', '>', '-', '+', '.']

theorem isWordChar_marks : (marks.all fun m => !isWordChar m) = true := rfl

theorem not_mem_marks_of_isWordChar (h : isWordChar c = true) : c ∉ marks := by
  intro hm
  have hn := List.all_eq_true.1 isWordChar_marks c hm
  rw [h] at hn
  cases hn

theorem isBlank_marks : (marks.all fun m => !isBlank m) = true := rfl

theorem not_mem_marks_of_isBlank (h : isBlank c = true) : c ∉ marks := by
  intro hm
  have hn := List.all_eq_true.1 isBlank_marks c hm
  rw [h] at hn
  cases hn

theorem ne_of_not_mem_marks (h : c ∉ marks) {m : Char} (hm : m ∈ marks) : c ≠ m := by
  rintro rfl
  exact h hm

theorem isQuote_of_not_mem_marks (h : c ∉ marks) : Nesting.isQuote c = false := by
  have hs : c ≠ '\'' := ne_of_not_mem_marks h (by decide)
  have hd : c ≠ '"' := ne_of_not_mem_marks h (by decide)
  simp [Nesting.isQuote, hs, hd]

theorem isOpening_of_not_mem_marks (h : c ∉ marks) : Nesting.isOpening c = false := by
  have hs : c ≠ '[' := ne_of_not_mem_marks h (by decide)
  have hb : c ≠ '{' := ne_of_not_mem_marks h (by decide)
  have hr : c ≠ '(' := ne_of_not_mem_marks h (by decide)
  simp [Nesting.isOpening, hs, hb, hr]

theorem isClosing_of_not_mem_marks (h : c ∉ marks) : Nesting.isClosing c = false := by
  have hs : c ≠ ']' := ne_of_not_mem_marks h (by decide)
  have hb : c ≠ '}' := ne_of_not_mem_marks h (by decide)
  have hr : c ≠ ')' := ne_of_not_mem_marks h (by decide)
  simp [Nesting.isClosing, hs, hb, hr]

end NotebookService.Text
