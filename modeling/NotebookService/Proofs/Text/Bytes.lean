/-
# `NotebookService.Proofs.Text.Bytes` — texts and their bytes stand in the same order

A text is ordered by its characters, a file name on a disk by its bytes.  In UTF-8
this comes to the same (`bytes_lt_bytes_iff`).  The bytes of a character are a first
one, which says how many others there are, and six bits of the character's number in
each of the others, so the lower of two characters has the lower byte at the first
place where their bytes differ.  And there is such a place: the bytes of no character
begin those of another.

The last point is what an order of lists does not say.  `Differs` does, and so it goes
over from characters to texts.
-/
import Mathlib.Algebra.Order.Ring.Nat
import Mathlib.Data.List.Lex

namespace NotebookService.Text

/-- The bytes of a text in UTF-8. -/
def bytes (s : String) : List UInt8 := s.toUTF8.data.toList

/-- The lists differ somewhere, and where they do so first the first one
has the lower byte. -/
def Differs (l m : List UInt8) : Prop :=
  ∃ same a b r s, l = same ++ a :: r ∧ m = same ++ b :: s ∧ a < b

variable {a b : UInt8} {l m : List UInt8} {c d : Char} {s t : String} {v w : Nat}

namespace Differs

theorem of_lt (h : a < b) (l m : List UInt8) : Differs (a :: l) (b :: m) :=
  ⟨[], a, b, l, m, rfl, rfl, h⟩

theorem cons (a : UInt8) (h : Differs l m) : Differs (a :: l) (a :: m) := by
  obtain ⟨same, x, y, r, s, rfl, rfl, hlt⟩ := h
  exact ⟨a :: same, x, y, r, s, rfl, rfl, hlt⟩

theorem append_lt (h : Differs l m) (l' m' : List UInt8) : l ++ l' < m ++ m' := by
  obtain ⟨same, x, y, r, s, rfl, rfl, hlt⟩ := h
  rw [List.append_assoc, List.append_assoc]
  exact List.append_left_lt (List.cons_lt_cons_iff.2 (.inl hlt))

end Differs

/-! ## The bytes of a character -/

/-- The number of bytes after the first one. -/
def tailLength (v : Nat) : Nat :=
  if v ≤ 127 then 0 else if v ≤ 2047 then 1 else if v ≤ 65535 then 2 else 3

/-- What the first byte says of how many others there are. -/
def mark : Nat → Nat
  | 0 => 0
  | 1 => 192
  | 2 => 224
  | _ => 240

/-- The first byte of a character with a number. -/
def lead (v : Nat) : Nat := mark (tailLength v) + v / 64 ^ tailLength v

/-- The lowest digits of a number to base 64, as bytes. -/
def tail : Nat → Nat → List UInt8
  | 0, _ => []
  | n + 1, v => UInt8.ofNat (v / 64 ^ n % 64 + 128) :: tail n v

theorem toNat_lt (c : Char) : c.toNat < 1114112 := by
  rcases c.valid with h | ⟨-, h⟩
  · exact h.trans (by decide)
  · exact h

theorem utf8EncodeChar_eq (c : Char) :
    String.utf8EncodeChar c =
      UInt8.ofNat (lead c.toNat) :: tail (tailLength c.toNat) c.toNat := by
  have hlt := toNat_lt c
  have h2 (h : c.toNat ≤ 2047) : c.toNat / 64 % 32 + 192 = 192 + c.toNat / 64 := by omega
  have h3 (h : c.toNat ≤ 65535) : c.toNat / 4096 % 16 + 224 = 224 + c.toNat / 4096 := by
    omega
  have h4 : c.toNat / 262144 % 8 + 240 = 240 + c.toNat / 262144 := by omega
  rw [String.utf8EncodeChar, Char.toNat_val, lead, tailLength]
  split_ifs with h h' h''
  · simp [mark, tail]
  · simp [mark, tail, h2 h']
  · simp [mark, tail, h3 h'']
  · simp [mark, tail, h4]

theorem lead_lt (h : v < 1114112) : lead v < 256 := by
  unfold lead tailLength
  split_ifs <;> simp only [mark] <;> omega

/-- More bytes are asked for by a higher first byte. -/
theorem lead_lt_lead (h : tailLength v < tailLength w) : lead v < lead w := by
  revert h
  unfold lead tailLength
  split_ifs <;> simp only [mark] <;> omega

theorem tailLength_mono (h : v ≤ w) : tailLength v ≤ tailLength w := by
  unfold tailLength
  split_ifs <;> omega

theorem ofNat_lt_ofNat (hvw : v < w) (hw : w < 256) : UInt8.ofNat v < UInt8.ofNat w :=
  (UInt8.ofNat_lt_iff_lt (hvw.trans hw) hw).2 hvw

/-- A higher digit outweighs what is below it. -/
theorem lt_or_eq_of_digits {base x y i j : Nat} (hj : j < base)
    (h : i + base * x < j + base * y) :
    x < y ∨ x = y ∧ i < j := by
  rcases Nat.lt_trichotomy x y with hlt | rfl | hgt
  · exact .inl hlt
  · exact .inr ⟨rfl, by omega⟩
  · have hmul : base * (y + 1) ≤ base * x := Nat.mul_le_mul_left base hgt
    rw [Nat.mul_succ] at hmul
    omega

/-- Of two numbers the lower one has the lower digit where they differ first. -/
theorem differs_tail {n : Nat} (h : v % 64 ^ n < w % 64 ^ n) :
    Differs (tail n v) (tail n w) := by
  induction n with
  | zero => simp [Nat.mod_one] at h
  | succ n ih =>
      rw [Nat.pow_succ, Nat.mod_mul, Nat.mod_mul] at h
      rw [tail, tail]
      rcases lt_or_eq_of_digits (Nat.mod_lt w (Nat.pow_pos (by decide)))
        h with hlt | ⟨heq, hlt⟩
      · exact .of_lt (ofNat_lt_ofNat (by omega) (by omega)) _ _
      · rw [heq]
        exact (ih hlt).cons _

/-- The first byte decides, or else there are as many bytes and the digits below it do. -/
theorem differs_utf8EncodeChar (h : c < d) :
    Differs (String.utf8EncodeChar c) (String.utf8EncodeChar d) := by
  have hlt : c.toNat < d.toNat := h
  have hd := lead_lt (toNat_lt d)
  rw [utf8EncodeChar_eq, utf8EncodeChar_eq]
  generalize c.toNat = v, d.toNat = w at hlt hd ⊢
  rcases Nat.lt_or_eq_of_le (tailLength_mono hlt.le) with hn | hn
  · exact .of_lt (ofNat_lt_ofNat (lead_lt_lead hn) hd) _ _
  · rw [lead] at hd
    rw [lead, lead, hn]
    generalize tailLength w = n at hd ⊢
    have hdigits : v % 64 ^ n + 64 ^ n * (v / 64 ^ n) <
        w % 64 ^ n + 64 ^ n * (w / 64 ^ n) := by
      rwa [Nat.mod_add_div, Nat.mod_add_div]
    rcases lt_or_eq_of_digits (Nat.mod_lt w (Nat.pow_pos (by decide)))
      hdigits with hlead | ⟨hlead, htail⟩
    · exact .of_lt (ofNat_lt_ofNat (by omega) hd) _ _
    · rw [hlead]
      exact (differs_tail htail).cons _

/-! ## Texts -/

theorem bytes_eq (s : String) : bytes s = s.toList.flatMap String.utf8EncodeChar := by
  rw [bytes, String.toUTF8, ← String.utf8Encode_toList, List.utf8Encode,
    List.toList_data_toByteArray]

theorem flatMap_lt_flatMap {x y : List Char} (h : x < y) :
    x.flatMap String.utf8EncodeChar < y.flatMap String.utf8EncodeChar := by
  induction x generalizing y with
  | nil =>
      cases y with
      | nil => exact absurd h (List.lt_irrefl [])
      | cons d y =>
          rw [List.flatMap_nil, List.flatMap_cons, utf8EncodeChar_eq]
          exact List.nil_lt_cons _ _
  | cons c x ih =>
      cases y with
      | nil => exact absurd h (List.not_lt_nil _)
      | cons d y =>
          rw [List.flatMap_cons, List.flatMap_cons]
          rcases List.cons_lt_cons_iff.1 h with hlt | ⟨rfl, hlt⟩
          · exact (differs_utf8EncodeChar hlt).append_lt _ _
          · exact List.append_left_lt (ih hlt)

theorem bytes_lt_bytes (h : s < t) : bytes s < bytes t := by
  rw [bytes_eq, bytes_eq]
  exact flatMap_lt_flatMap (String.lt_iff.1 h)

/-- The order of texts is that of their bytes. -/
theorem bytes_lt_bytes_iff : bytes s < bytes t ↔ s < t := by
  refine ⟨fun h => ?_, bytes_lt_bytes⟩
  by_contra hle
  rcases eq_or_ne s t with rfl | hne
  · exact List.lt_irrefl _ h
  · exact List.lt_asymm h
      (bytes_lt_bytes (Std.lt_of_le_of_ne (String.not_lt.1 hle) hne.symm))

theorem bytes_inj : bytes s = bytes t ↔ s = t := by
  refine ⟨fun h => ?_, congrArg bytes⟩
  by_contra hne
  have hst : ¬ s < t := fun hlt => List.lt_irrefl _ (h ▸ bytes_lt_bytes hlt)
  have hts : ¬ t < s := fun hlt => List.lt_irrefl _ (h ▸ bytes_lt_bytes hlt)
  exact hne (String.le_antisymm (String.not_lt.1 hts) (String.not_lt.1 hst))

end NotebookService.Text
