/-
# `NotebookService.Proofs.Cell.Outcome` — what a cell does to a compilation

A cell that is compiled holds something, declares something, and its generator has a
result.  A cell without code uses up no made-up name: only jobs do, and a job always
gives code, if only the comment that its trigger cannot be read.  A cell without a
directive comes through as it is, if the splitter finds anything in it.
-/
import NotebookService.Proofs.Text.Lines
import NotebookService.ServiceModule

namespace NotebookService

open NotebookService.Text

/-- The code that a cell gave. -/
def Outcome.compiled? : Outcome → Option CompiledCell
  | .compiled cell => some cell
  | .ignored | .skipped => none

def Outcome.isSkipped : Outcome → Bool
  | .skipped => true
  | .ignored | .compiled _ => false

theorem Outcome.isSkipped_iff {o : Outcome} : o.isSkipped = true ↔ o = .skipped := by
  cases o <;> simp [isSkipped]

theorem CellResult.compiled?_eq (r : CellResult) : r.compiled? = r.outcome.compiled? := by
  obtain ⟨o, ds⟩ := r
  cases o <;> rfl

theorem CellResult.isSkipped_eq (r : CellResult) : r.isSkipped = r.outcome.isSkipped := by
  obtain ⟨o, ds⟩ := r
  cases o <;> rfl

/-! ## Jobs -/

namespace Job

theorem not_allBlank_of_decorator {trigger : Trigger} {name comment : String}
    (h : (decorator trigger name).value = .error comment) :
    ¬ allBlank comment.toList = true := by
  cases trigger with
  | cron expression =>
      rw [decorator, Noted.value_bind] at h
      cases hp : (parseCron expression).value with
      | none =>
          rw [hp] at h
          cases h
          exact Bool.false_ne_true
      | some fields =>
          rw [hp] at h
          cases h
  | interval expression =>
      rw [decorator, Noted.value_bind] at h
      cases hp : (parseInterval expression).value with
      | none =>
          rw [hp] at h
          cases h
          exact Bool.false_ne_true
      | some seconds =>
          rw [hp] at h
          cases h

/-- What a job gives: a comment in its place, its own code with the decorator
in it, or a wrapper. -/
theorem items_generate (j : Job) (generated : Nat) :
    (∃ comment, ¬ allBlank comment.toList = true ∧
      (j.generate generated).value.1 = [.line comment]) ∨
      (∃ s d, (j.generate generated).value.1 =
        [.verbatim (decorateSource j.source s d)]) ∨
      ∃ d, (j.generate generated).value.1 =
        [wrapper (madeUpName generated) d j.source] := by
  unfold generate
  cases Signature.ofSource? j.source with
  | none =>
      dsimp only
      rw [Noted.value_bind]
      cases hd : (decorator j.trigger (madeUpName generated)).value with
      | error comment => exact .inl ⟨comment, not_allBlank_of_decorator hd, rfl⟩
      | ok d => exact .inr (.inr ⟨d, rfl⟩)
  | some s =>
      dsimp only
      rw [Noted.value_bind]
      cases hd : (decorator j.trigger s.name).value with
      | error comment => exact .inl ⟨comment, not_allBlank_of_decorator hd, rfl⟩
      | ok d => exact .inr (.inl ⟨s, d, rfl⟩)

end Job

/-! ## Cells -/

namespace CellSpec

theorem counter_generate {spec : CellSpec} {generated : Nat}
    (h : (spec.generate generated).value.1 = none) :
    (spec.generate generated).value.2 = generated := by
  cases spec with
  | passthrough source => cases h
  | http e => rfl
  | socket e => rfl
  | scheduled job => cases h

end CellSpec

namespace Cell

variable {c : Cell} {generated : Nat}

/-- The ways through the compilation of a cell: it is passed over, it declares nothing
that can be used, or its declaration is generated. -/
theorem value_compile (c : Cell) (generated : Nat) :
    (c.isCompiled = false ∧ (c.compile generated).value = (.ignored, generated)) ∨
      (c.isCompiled = true ∧ (CellSpec.ofSource c.source).value = none ∧
        (c.compile generated).value = (.skipped, generated)) ∨
      ∃ spec, c.isCompiled = true ∧ (CellSpec.ofSource c.source).value = some spec ∧
        (c.compile generated).value =
          (((spec.generate generated).value.1.map Outcome.compiled).getD .skipped,
            (spec.generate generated).value.2) := by
  unfold compile
  cases hc : c.isCompiled with
  | false => exact .inl ⟨rfl, rfl⟩
  | true =>
      rw [if_pos rfl, Noted.value_bind]
      cases hs : (CellSpec.ofSource c.source).value with
      | none => exact .inr (.inl ⟨rfl, rfl, rfl⟩)
      | some spec =>
          refine .inr (.inr ⟨spec, rfl, rfl, ?_⟩)
          dsimp only
          rw [Noted.value_bind]
          obtain ⟨cell, n⟩ := (spec.generate generated).value
          cases cell <;> rfl

theorem exists_of_compiled {cell : CompiledCell}
    (h : (c.compile generated).value.1.compiled? = some cell) :
    ∃ spec, c.isCompiled = true ∧ (CellSpec.ofSource c.source).value = some spec ∧
      (spec.generate generated).value.1 = some cell := by
  rcases c.value_compile generated with ⟨-, hv⟩ | ⟨-, -, hv⟩ | ⟨spec, hc, hs, hv⟩
  · rw [hv] at h
    cases h
  · rw [hv] at h
    cases h
  · rw [hv] at h
    refine ⟨spec, hc, hs, ?_⟩
    cases hg : (spec.generate generated).value.1 with
    | none =>
        rw [hg] at h
        cases h
    | some cell' =>
        rw [hg] at h
        exact h

theorem counter_of_not_compiled (h : (c.compile generated).value.1.compiled? = none) :
    (c.compile generated).value.2 = generated := by
  rcases c.value_compile generated with ⟨-, hv⟩ | ⟨-, -, hv⟩ | ⟨spec, -, -, hv⟩
  · rw [hv]
  · rw [hv]
  · rw [hv] at h ⊢
    cases hg : (spec.generate generated).value.1 with
    | none => exact CellSpec.counter_generate hg
    | some cell =>
        rw [hg] at h
        cases h

/-! ## Cells without a directive -/

/-- The directive that a cell's declaration begins with. -/
def directive? (c : Cell) : Option (Directive × String × List String) :=
  (Declaration.split? c.source).bind CellSpec.directive?

theorem split?_of_allBlank {source : String} (h : allBlank source.toList = true) :
    Declaration.split? source = none := by
  have hl : (lines source.toList).dropWhile allBlank = [] := by
    refine List.dropWhile_eq_nil_iff.2 fun l hl => allBlank_iff.2 fun d hd => ?_
    exact allBlank_iff.1 h d (mem_of_mem_lines hl hd).1
  simp [Declaration.split?, hl, Declaration.splitDeclaring, Declaration.dedent]

/-- A code cell without a directive comes through as it is, if anything is found in it. -/
theorem compiled?_of_no_directive (hk : c.kind = .code) (hd : c.directive? = none) :
    (c.compile generated).value.1.compiled? =
      (Declaration.split? c.source).map fun _ => .code c.source := by
  cases hs : Declaration.split? c.source with
  | none =>
      have ho : (CellSpec.ofSource c.source).value = none := by
        simp [CellSpec.ofSource, hs]
      rcases c.value_compile generated with ⟨-, hv⟩ | ⟨-, -, hv⟩ | ⟨spec, -, he, -⟩
      · rw [hv]
        rfl
      · rw [hv]
        rfl
      · rw [ho] at he
        cases he
  | some d =>
      have hc : c.isCompiled = true := by
        rw [isCompiled, hk]
        cases hb : allBlank c.source.toList with
        | false => rfl
        | true =>
            rw [split?_of_allBlank hb] at hs
            cases hs
      have hn : CellSpec.directive? d = none := by simpa [directive?, hs] using hd
      have ho : (CellSpec.ofSource c.source).value = some (.passthrough c.source) := by
        simp [CellSpec.ofSource, hs, hn]
      rcases c.value_compile generated with ⟨hf, -⟩ | ⟨-, he, -⟩ | ⟨spec, -, he, hv⟩
      · rw [hc] at hf
        cases hf
      · rw [ho] at he
        cases he
      · rw [ho] at he
        cases he
        rw [hv]
        rfl

end Cell

end NotebookService
