/-
# `NotebookService.Proofs.Job.Interval` — the seconds of an interval are exact

An interval is a run of digits and a unit.  `CutInto` says how a text is cut into the
two: blanks at the ends of the text and around the unit do not count, and the digits are
as many as there are.  So every text is cut in exactly one way, also one that begins
with no digit or has no unit.

The seconds are the number times what the unit stands for, and both have to fit 64 bits.
`interval_exact` says that nothing else happens: the product is never another number, it
is missing only when one of the two does not fit, and how much is said about it depends
on the unit alone.  A product can outgrow the 64 bits only behind a unit that is known,
so a missing product is never remarked on twice.
-/
import NotebookService.Proofs.Cell.Errors

namespace NotebookService.Job

open NotebookService.Text

/-! ## Intervals as they are written -/

/-- A text, without the blanks around it, is these digits with a unit behind them.
Either may be empty. -/
structure CutInto (text : String) (digits : List Char) (unit : String) : Prop where
  isDigit : ∀ c ∈ digits, Decimal.isDigit c = true
  cut : ∃ behind, trim text.toList = digits ++ behind ∧
    unit = String.ofList (trim behind) ∧
    ∀ c ∈ behind.head?, Decimal.isDigit c = false

/-- The units that nothing is said about. -/
def units : List String := ["s", "m", "h"]

/-- The seconds that a unit stands for.  What is no unit stands for one second too. -/
def unitFactor (unit : String) : Nat :=
  if unit = "m" then 60 else if unit = "h" then 3600 else 1

variable {text unit : String} {digits : List Char}

theorem CutInto.digits_eq (h : CutInto text digits unit) :
    (trim text.toList).takeWhile Decimal.isDigit = digits := by
  obtain ⟨behind, ht, -, hb⟩ := h.cut
  rw [ht, List.takeWhile_append_of_pos h.isDigit]
  cases behind with
  | nil => exact List.append_nil digits
  | cons c behind =>
      have hc : ¬ Decimal.isDigit c = true := by simp [hb c rfl]
      rw [List.takeWhile_cons_of_neg hc, List.append_nil]

theorem CutInto.unit_eq (h : CutInto text digits unit) :
    trimmed (String.ofList ((trim text.toList).dropWhile Decimal.isDigit)) = unit := by
  obtain ⟨behind, ht, hu, hb⟩ := h.cut
  have hd : behind.dropWhile Decimal.isDigit = behind := by
    cases behind with
    | nil => rfl
    | cons c behind =>
        have hc : ¬ Decimal.isDigit c = true := by simp [hb c rfl]
        exact List.dropWhile_cons_of_neg hc
  rw [ht, List.dropWhile_append_of_pos h.isDigit, hd, trimmed, String.toList_ofList, hu]

theorem exists_cutInto (text : String) : ∃ digits unit, CutInto text digits unit := by
  refine ⟨(trim text.toList).takeWhile Decimal.isDigit, _,
    fun c hc => List.mem_takeWhile_imp hc, (trim text.toList).dropWhile Decimal.isDigit,
    List.takeWhile_append_dropWhile.symm, rfl, ?_⟩
  intro c hc
  have hn := List.head?_dropWhile_not Decimal.isDigit (trim text.toList)
  rw [Option.mem_def.1 hc] at hn
  simpa using hn

/-! ## Units -/

theorem mem_units : unit ∈ units ↔ unit = "s" ∨ unit = "m" ∨ unit = "h" := by simp [units]

theorem unitFactor_of_not_mem (h : unit ∉ units) : unitFactor unit = 1 := by
  obtain ⟨-, hm, hh⟩ : unit ≠ "s" ∧ unit ≠ "m" ∧ unit ≠ "h" := by
    simpa [mem_units] using h
  rw [unitFactor, if_neg hm, if_neg hh]

theorem unitSeconds_of_mem (expression : String) (h : unit ∈ units) :
    unitSeconds expression unit = ⟨unitFactor unit, []⟩ := by
  rcases mem_units.1 h with rfl | rfl | rfl <;> rfl

/-- What is no unit is taken for seconds, with one remark. -/
theorem exists_unitSeconds_of_not_mem (expression : String) (h : unit ∉ units) :
    ∃ f, unitSeconds expression unit = ⟨1, [f]⟩ := by
  obtain ⟨hs, hm, hh⟩ : unit ≠ "s" ∧ unit ≠ "m" ∧ unit ≠ "h" := by
    simpa [mem_units] using h
  rw [unitSeconds, if_neg hs, if_neg hm, if_neg hh]
  by_cases he : unit = ""
  · rw [if_pos he]
    exact ⟨_, rfl⟩
  · rw [if_neg he]
    exact ⟨_, rfl⟩

/-! ## Seconds -/

theorem secondsBound_eq : secondsBound = UInt64.size := rfl

namespace CutInto

theorem parseInterval_malformed (h : CutInto text digits unit)
    (hd : digits = [] ∨ UInt64.size ≤ Decimal.valueOf digits) :
    parseInterval text = ⟨none, [.intervalMalformed (trimmed text)]⟩ := by
  unfold parseInterval
  dsimp only
  rw [h.digits_eq, secondsBound_eq]
  exact if_pos (by simpa using hd)

theorem parseInterval_eq (h : CutInto text digits unit) (hne : digits ≠ [])
    (hd : Decimal.valueOf digits < UInt64.size) :
    parseInterval text = (do
      let factor ← unitSeconds (trimmed text) unit
      if UInt64.size ≤ Decimal.valueOf digits * factor then
        Noted.note (.intervalTooLarge (trimmed text))
        return none
      else return some (Decimal.valueOf digits * factor)) := by
  unfold parseInterval
  dsimp only
  rw [h.digits_eq, h.unit_eq, secondsBound_eq]
  exact if_neg (by simpa [hne] using hd)

/-- Behind a known unit the product decides, and nothing else is said. -/
theorem parseInterval_of_mem (h : CutInto text digits unit) (hne : digits ≠ [])
    (hd : Decimal.valueOf digits < UInt64.size) (hu : unit ∈ units) :
    parseInterval text =
      if Decimal.valueOf digits * unitFactor unit < UInt64.size then
        ⟨some (Decimal.valueOf digits * unitFactor unit), []⟩
      else ⟨none, [.intervalTooLarge (trimmed text)]⟩ := by
  rw [h.parseInterval_eq hne hd, unitSeconds_of_mem _ hu]
  by_cases hp : Decimal.valueOf digits * unitFactor unit < UInt64.size
  · rw [if_pos hp]
    simp only [bind, if_neg (Nat.not_le.2 hp)]
    rfl
  · rw [if_neg hp]
    simp only [bind, if_pos (Nat.not_lt.1 hp)]
    rfl

/-- One second for one leaves the number as it is, and so it fits again. -/
theorem parseInterval_of_not_mem (h : CutInto text digits unit) (hne : digits ≠ [])
    (hd : Decimal.valueOf digits < UInt64.size) (hu : unit ∉ units) :
    ∃ f, parseInterval text = ⟨some (Decimal.valueOf digits), [f]⟩ := by
  obtain ⟨f, hf⟩ := exists_unitSeconds_of_not_mem (trimmed text) hu
  refine ⟨f, ?_⟩
  rw [h.parseInterval_eq hne hd, hf]
  simp only [bind, Nat.mul_one, if_neg (Nat.not_le.2 hd)]
  rfl

/-- The number and the product both fit. -/
def Fits (digits : List Char) (unit : String) : Prop :=
  digits ≠ [] ∧ Decimal.valueOf digits < UInt64.size ∧
    Decimal.valueOf digits * unitFactor unit < UInt64.size

/-- All that can become of an interval: the product without a word, the product with one
remark, or a remark alone. -/
theorem parseInterval_cases (h : CutInto text digits unit) :
    Fits digits unit ∧ unit ∈ units ∧
      parseInterval text = ⟨some (Decimal.valueOf digits * unitFactor unit), []⟩ ∨
    Fits digits unit ∧ unit ∉ units ∧
      (∃ f, parseInterval text = ⟨some (Decimal.valueOf digits * unitFactor unit), [f]⟩) ∨
    ¬ Fits digits unit ∧ ∃ f, parseInterval text = ⟨none, [f]⟩ := by
  by_cases hbad : digits = [] ∨ UInt64.size ≤ Decimal.valueOf digits
  · refine .inr (.inr ⟨?_, _, h.parseInterval_malformed hbad⟩)
    rintro ⟨hne, hd, -⟩
    exact hbad.elim hne (Nat.not_le.2 hd)
  · obtain ⟨hne, hd⟩ := not_or.1 hbad
    rw [Nat.not_le] at hd
    by_cases hu : unit ∈ units
    · have heq := h.parseInterval_of_mem hne hd hu
      by_cases hp : Decimal.valueOf digits * unitFactor unit < UInt64.size
      · rw [if_pos hp] at heq
        exact .inl ⟨⟨hne, hd, hp⟩, hu, heq⟩
      · rw [if_neg hp] at heq
        exact .inr (.inr ⟨fun hf => hp hf.2.2, _, heq⟩)
    · have hm : Decimal.valueOf digits * unitFactor unit = Decimal.valueOf digits := by
        rw [unitFactor_of_not_mem hu, Nat.mul_one]
      refine .inr (.inl ⟨⟨hne, hd, by rwa [hm]⟩, hu, ?_⟩)
      rw [hm]
      exact h.parseInterval_of_not_mem hne hd hu

end CutInto

/-- An interval has seconds if and only if it begins with digits, their number fits 64
bits, and so does its product with what the unit stands for; the seconds are that
product.  Without seconds there is one remark, and with them there is one unless the
unit is known.  No remark is an error. -/
theorem interval_exact (text : String) :
    (∀ seconds, (parseInterval text).value = some seconds ↔
      ∃ digits unit, CutInto text digits unit ∧ digits ≠ [] ∧
      Decimal.valueOf digits < UInt64.size ∧
        Decimal.valueOf digits * unitFactor unit < UInt64.size ∧
        seconds = Decimal.valueOf digits * unitFactor unit) ∧
    ((parseInterval text).value = none → (parseInterval text).findings.length = 1) ∧
    (∀ seconds digits unit, (parseInterval text).value = some seconds →
      CutInto text digits unit →
      (parseInterval text).findings.length = if unit ∈ units then 0 else 1) ∧
    (parseInterval text).OnlyWarns := by
  refine ⟨?_, ?_, ?_, onlyWarns_parseInterval text⟩
  · intro seconds
    constructor
    · intro hv
      obtain ⟨digits, unit, h⟩ := exists_cutInto text
      rcases h.parseInterval_cases with ⟨hf, -, heq⟩ | ⟨hf, -, f, heq⟩ | ⟨-, f, heq⟩ <;>
        rw [heq] at hv <;> cases hv
      · exact ⟨digits, unit, h, hf.1, hf.2.1, hf.2.2, rfl⟩
      · exact ⟨digits, unit, h, hf.1, hf.2.1, hf.2.2, rfl⟩
    · rintro ⟨digits, unit, h, hne, hd, hp, rfl⟩
      rcases h.parseInterval_cases with ⟨-, -, heq⟩ | ⟨-, -, f, heq⟩ | ⟨hn, -⟩
      · rw [heq]
      · rw [heq]
      · exact absurd ⟨hne, hd, hp⟩ hn
  · intro hv
    obtain ⟨digits, unit, h⟩ := exists_cutInto text
    rcases h.parseInterval_cases with ⟨-, -, heq⟩ | ⟨-, -, f, heq⟩ | ⟨-, f, heq⟩ <;>
      rw [heq] at hv ⊢
    · cases hv
    · cases hv
    · rfl
  · intro seconds digits unit hv h
    rcases h.parseInterval_cases with ⟨-, hu, heq⟩ | ⟨-, hu, f, heq⟩ | ⟨-, f, heq⟩ <;>
      rw [heq] at hv ⊢
    · rw [if_pos hu]
      rfl
    · rw [if_neg hu]
      rfl
    · cases hv

/-- The greatest number of minutes whose seconds have 64 bits, and one more. -/
example : (parseInterval " 307445734561825860 m").value = some 18446744073709551600 ∧
    (parseInterval " 307445734561825861 m").value = none := by decide +kernel

end NotebookService.Job
