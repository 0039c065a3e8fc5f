/-
# `NotebookService.Proofs.Text.Ascii` — ASCII letters and digits, raised and lowered

The classes of ASCII characters are ranges of code points, and so whether a
character is in one of them is a matter of arithmetic.  Casing stays inside the
letters and moves no digit.
-/
import NotebookService.Text.Casing

namespace NotebookService.Text

variable {c : Char}

theorem isDigit_iff : c.isDigit = true ↔ 48 ≤ c.toNat ∧ c.toNat ≤ 57 := by
  simp only [Char.isDigit, Bool.and_eq_true, decide_eq_true_eq,
    UInt32.le_iff_toNat_le, ge_iff_le]
  exact Iff.rfl

theorem isUpper_iff : c.isUpper = true ↔ 65 ≤ c.toNat ∧ c.toNat ≤ 90 :=
  decide_eq_true_iff.trans (and_congr UInt32.le_iff_toNat_le UInt32.le_iff_toNat_le)

theorem isLower_iff : c.isLower = true ↔ 97 ≤ c.toNat ∧ c.toNat ≤ 122 :=
  Bool.and_eq_true_iff.trans (and_congr
    (decide_eq_true_iff.trans UInt32.le_iff_toNat_le)
    (decide_eq_true_iff.trans UInt32.le_iff_toNat_le))

theorem isAlphanum_iff : c.isAlphanum = true ↔
    65 ≤ c.toNat ∧ c.toNat ≤ 90 ∨ 97 ≤ c.toNat ∧ c.toNat ≤ 122 ∨
      48 ≤ c.toNat ∧ c.toNat ≤ 57 := by
  rw [Char.isAlphanum, Bool.or_eq_true, isDigit_iff, ← or_assoc, ← isUpper_iff,
    ← isLower_iff, ← Bool.or_eq_true]
  exact Iff.rfl

theorem toNat_toUpper (c : Char) :
    c.toUpper.toNat = if 97 ≤ c.toNat ∧ c.toNat ≤ 122 then c.toNat - 32 else c.toNat := by
  have hiff : ('a'.val ≤ c.val ∧ c.val ≤ 'z'.val) ↔ 97 ≤ c.toNat ∧ c.toNat ≤ 122 := by
    simp only [UInt32.le_iff_toNat_le]
    exact Iff.rfl
  unfold Char.toUpper
  by_cases h : 97 ≤ c.toNat ∧ c.toNat ≤ 122
  · -- the distance between the cases is negative, so it is added modulo the word
    have hd : ('A'.val - 'a'.val).toNat = 4294967264 := by decide
    have hn : c.toNat = c.val.toNat := rfl
    rw [dif_pos (hiff.2 h), if_pos h, Char.toNat, UInt32.toNat_add, hd, ← hn]
    omega
  · rw [dif_neg (mt hiff.1 h), if_neg h]

theorem toNat_toLower (c : Char) :
    c.toLower.toNat = if 65 ≤ c.toNat ∧ c.toNat ≤ 90 then c.toNat + 32 else c.toNat := by
  have hiff : (c.val ≥ 'A'.val ∧ c.val ≤ 'Z'.val) ↔ 65 ≤ c.toNat ∧ c.toNat ≤ 90 := by
    simp only [UInt32.le_iff_toNat_le, ge_iff_le]
    exact Iff.rfl
  unfold Char.toLower
  by_cases h : 65 ≤ c.toNat ∧ c.toNat ≤ 90
  · have hd : ('a'.val - 'A'.val).toNat = 32 := by decide
    have hn : c.toNat = c.val.toNat := rfl
    rw [dif_pos (hiff.2 h), if_pos h, Char.toNat, UInt32.toNat_add, hd, ← hn]
    omega
  · rw [dif_neg (mt hiff.1 h), if_neg h]

theorem upperOf_of_isAlphanum (h : c.isAlphanum = true) : upperOf c = [c.toUpper] := by
  have hn := isAlphanum_iff.1 h
  exact if_pos (by omega)

theorem lowerOf_of_isAlphanum (h : c.isAlphanum = true) : lowerOf c = [c.toLower] := by
  have hn := isAlphanum_iff.1 h
  exact if_pos (by omega)

theorem isAlphanum_toUpper (h : c.isAlphanum = true) : c.toUpper.isAlphanum = true := by
  rw [isAlphanum_iff] at h ⊢
  rw [toNat_toUpper]
  split <;> omega

theorem isAlphanum_toLower (h : c.isAlphanum = true) : c.toLower.isAlphanum = true := by
  rw [isAlphanum_iff] at h ⊢
  rw [toNat_toLower]
  split <;> omega

theorem isDigit_toUpper (c : Char) : c.toUpper.isDigit = c.isDigit := by
  rw [Bool.eq_iff_iff, isDigit_iff, isDigit_iff, toNat_toUpper]
  split <;> omega

end NotebookService.Text
