/-
# `NotebookService.Proofs.Decimal.Digits` — digits written and read

The digits of a number are read back as the number, whatever its size, and the text of
an integer holds nothing but digits and its sign.
-/
import NotebookService.Decimal.Basic

namespace NotebookService.Decimal

theorem isDigit_eq (c : Char) : isDigit c = c.isDigit := by
  simp [isDigit, Char.isDigit, Char.le_def]

theorem valueOf_digitsOf (n : Nat) : valueOf (digitsOf n) = n := by
  rw [valueOf, digitsOf, Nat.ofDigitChars_ten_toDigits]

theorem digitsOf_ne_nil (n : Nat) : digitsOf n ≠ [] := Nat.toDigits_ne_nil

theorem isDigit_of_mem_digitsOf {n : Nat} {c : Char} (h : c ∈ digitsOf n) :
    isDigit c = true := by
  rw [isDigit_eq]
  exact Nat.isDigit_of_mem_toDigits (by decide) (by decide) h

theorem all_isDigit_digitsOf (n : Nat) : (digitsOf n).all isDigit = true :=
  List.all_eq_true.2 fun _ => isDigit_of_mem_digitsOf

theorem mem_integerText {i : Int} {c : Char} (h : c ∈ integerText i) :
    isDigit c = true ∨ c = '-' := by
  unfold integerText at h
  split at h
  · rcases List.mem_cons.1 h with rfl | h
    · exact .inr rfl
    · exact .inl (isDigit_of_mem_digitsOf h)
  · exact .inl (isDigit_of_mem_digitsOf h)

theorem integerText_ne_nil (i : Int) : integerText i ≠ [] := by
  unfold integerText
  split
  · exact List.cons_ne_nil _ _
  · exact digitsOf_ne_nil _

end NotebookService.Decimal
