/-
# `NotebookService.Proofs.ServiceModule.Isolation` — cells without code change no others

Two notebooks are compared that differ by one cell.  What the cells behind it see of it
is the number of made-up names and their own number, nothing else.  The first is the
same whenever the cell gives no code, whatever was wrong with it; the second goes up by
one, and it comes into the diagnostics only.

The compilation of two lists in a row is that of the first and then that of the second
(`compileCells_append`), and it does not depend on where the numbers of the cells begin
(`compileCells_succ`).  `compile_isolated` puts the two together.
-/
import NotebookService.Proofs.Cell.Explained
import NotebookService.Proofs.Cell.Outcome

namespace NotebookService

/-! ## Raised numbers -/

/-- The diagnostic of the same cell, one place further down. -/
def Diagnostic.raised (d : Diagnostic) : Diagnostic := { d with cell := d.cell + 1 }

theorem Noted.diagnostics_succ {α : Type} (m : Noted α) (cell : Nat) :
    m.diagnostics (cell + 1) = (m.diagnostics cell).map Diagnostic.raised := by
  rw [diagnostics, diagnostics, List.map_map]
  rfl

namespace CellResult

def raised (r : CellResult) : CellResult :=
  ⟨r.outcome, r.diagnostics.map Diagnostic.raised⟩

theorem diagnostics_raised (r : CellResult) :
    r.raised.diagnostics = r.diagnostics.map Diagnostic.raised := rfl

end CellResult

/-! ## Cells in a row -/

/-- The second list starts with the number of made-up names that the first leaves. -/
theorem compileCells_append (index generated : Nat) (as bs : List Cell) :
    compileCells index generated (as ++ bs) =
      let first := compileCells index generated as
      let second := compileCells (index + as.length) first.2 bs
      (first.1 ++ second.1, second.2) := by
  induction as generalizing index generated with
  | nil => rfl
  | cons a as ih =>
      simp only [List.cons_append, compileCells, ih, List.length_cons, Nat.add_right_comm,
        Nat.add_assoc]

theorem compileCells_succ (index generated : Nat) (cs : List Cell) :
    compileCells (index + 1) generated cs =
      ((compileCells index generated cs).1.map CellResult.raised,
        (compileCells index generated cs).2) := by
  induction cs generalizing index generated with
  | nil => rfl
  | cons c cs ih =>
      simp only [compileCells, ih, List.map_cons, Noted.diagnostics_succ,
        CellResult.raised]

theorem cell_of_mem_flatMap {index generated : Nat} {cs : List Cell} {d : Diagnostic}
    (h : d ∈ (compileCells index generated cs).1.flatMap CellResult.diagnostics) :
    index ≤ d.cell ∧ d.cell < index + cs.length := by
  obtain ⟨r, hr, hd⟩ := List.mem_flatMap.1 h
  obtain ⟨i, hi⟩ := List.mem_iff_getElem?.1 hr
  have hlt : i < cs.length := by
    rw [← length_compileCells index generated cs]
    exact (List.getElem?_eq_some_iff.1 hi).1
  obtain ⟨c, n, -, -, hc⟩ := exists_of_getElem?_compileCells hi
  rw [hc] at hd
  rw [cell_of_mem_diagnostics hd]
  omega

/-- Diagnostics with low numbers in front of some with high numbers are told
apart by the numbers. -/
theorem filter_cell_append {k : Nat} {low high : List Diagnostic}
    (hl : ∀ d ∈ low, d.cell < k) (hh : ∀ d ∈ high, k ≤ d.cell) :
    (low ++ high).filter (·.cell < k) = low ∧
      (low ++ high).filter (k ≤ ·.cell) = high := by
  constructor
  · rw [List.filter_append, List.filter_eq_self.2 (by simpa using hl),
      List.filter_eq_nil_iff.2, List.append_nil]
    simpa using hh
  · rw [List.filter_append, List.filter_eq_nil_iff.2,
      List.filter_eq_self.2 (by simpa using hh), List.nil_append]
    simpa using hl

/-! ## One cell more -/

namespace ServiceModule

/-- The results with one cell more, when that cell gives no code: its own is put
between the others. -/
theorem exists_results_of_not_compiled {before : List Cell} (after : List Cell) {c : Cell}
    {generated : Nat}
    (h : (c.compile (compile before generated).2).value.1.compiled? = none) :
    let run := c.compile (compile before generated).2
    ∃ first second last,
      compileCells 0 generated (before ++ after) = (first ++ second, last) ∧
      compileCells 0 generated (before ++ c :: after) =
        (first ++ ⟨run.value.1, run.diagnostics before.length⟩ ::
          second.map CellResult.raised, last) ∧
      (∀ d ∈ first.flatMap CellResult.diagnostics, d.cell < before.length) ∧
      ∀ d ∈ second.flatMap CellResult.diagnostics, before.length ≤ d.cell := by
  intro run
  -- the cells behind start with the same number of made-up names, whether the cell
  -- is there or not
  have hn : run.value.2 = (compile before generated).2 := Cell.counter_of_not_compiled h
  refine ⟨(compileCells 0 generated before).1,
    (compileCells before.length (compile before generated).2 after).1,
    (compileCells before.length (compile before generated).2 after).2, ?_, ?_, ?_, ?_⟩
  · rw [compileCells_append, Nat.zero_add]
    rfl
  · rw [compileCells_append, Nat.zero_add]
    show (_ ++ ⟨run.value.1, _⟩ :: (compileCells (before.length + 1) run.value.2 after).1,
      (compileCells (before.length + 1) run.value.2 after).2) = _
    rw [hn, compileCells_succ]
    rfl
  · intro d hd
    simpa using (cell_of_mem_flatMap hd).2
  · intro d hd
    exact (cell_of_mem_flatMap hd).1

theorem ofResults_insert (as bs : List CellResult) {r : CellResult}
    (h : r.compiled? = none) :
    let whole := ofResults (as ++ r :: bs.map CellResult.raised)
    let rest := ofResults (as ++ bs)
    whole.source = rest.source ∧ whole.compiled = rest.compiled ∧
      whole.skipped = rest.skipped + (if r.isSkipped then 1 else 0) ∧
      whole.diagnostics = as.flatMap CellResult.diagnostics ++ r.diagnostics ++
        (bs.flatMap CellResult.diagnostics).map Diagnostic.raised := by
  have hcells : (as ++ r :: bs.map CellResult.raised).filterMap CellResult.compiled? =
      (as ++ bs).filterMap CellResult.compiled? := by
    rw [List.filterMap_append, List.filterMap_append, List.filterMap_cons, h,
      List.filterMap_map]
    rfl
  refine ⟨congrArg assemble hcells, congrArg List.length hcells, ?_, ?_⟩
  · have hs : (bs.map CellResult.raised).countP CellResult.isSkipped =
        bs.countP CellResult.isSkipped :=
      List.countP_map
    simp only [ofResults, List.countP_append, List.countP_cons, hs]
    omega
  · simp only [ofResults, List.flatMap_append, List.flatMap_cons, List.flatMap_map,
      List.map_flatMap, CellResult.diagnostics_raised, List.append_assoc]

/-- A cell that is ignored or skipped changes neither the code of the other cells nor
what is said about them, but for their numbers, and adds what is said about itself. -/
theorem compile_isolated (before : List Cell) (c : Cell) (after : List Cell)
    (generated : Nat) :
    let run := c.compile (compile before generated).2
    let whole := compile (before ++ c :: after) generated
    let rest := compile (before ++ after) generated
    run.value.1 = .ignored ∨ run.value.1 = .skipped →
      whole.1.source = rest.1.source ∧ whole.1.compiled = rest.1.compiled ∧
      whole.2 = rest.2 ∧
      whole.1.skipped = rest.1.skipped + (if run.value.1.isSkipped then 1 else 0) ∧
      whole.1.diagnostics =
        rest.1.diagnostics.filter (·.cell < before.length) ++
        run.diagnostics before.length ++
          (rest.1.diagnostics.filter (before.length ≤ ·.cell)).map Diagnostic.raised := by
  intro run whole rest h
  have hnone : run.value.1.compiled? = none := by
    rcases h with h | h <;> rw [h] <;> rfl
  obtain ⟨first, second, last, hrest, hwhole, hlow, hhigh⟩ :=
    exists_results_of_not_compiled after hnone
  have hw : whole = (ofResults (first ++ ⟨run.value.1, run.diagnostics before.length⟩ ::
      second.map CellResult.raised), last) := by
    show compile _ _ = _
    rw [compile, hwhole]
  have hr : rest = (ofResults (first ++ second), last) := by
    show compile _ _ = _
    rw [compile, hrest]
  have hsplit : (ofResults (first ++ second)).diagnostics =
      first.flatMap CellResult.diagnostics ++ second.flatMap CellResult.diagnostics :=
        List.flatMap_append
  have hc : (⟨run.value.1, run.diagnostics before.length⟩ : CellResult).compiled? =
      none :=
    (CellResult.compiled?_eq _).trans hnone
  obtain ⟨hsource, hcompiled, hskipped, hdiagnostics⟩ := ofResults_insert first second hc
  obtain ⟨hfirst, hsecond⟩ := filter_cell_append hlow hhigh
  rw [CellResult.isSkipped_eq] at hskipped
  rw [hw, hr]
  refine ⟨hsource, hcompiled, rfl, hskipped, ?_⟩
  rw [hsplit, hfirst, hsecond]
  exact hdiagnostics

/-- A route without a verb between two cells, the second of which is a
socket without a path. -/
theorem compile_isolated_route :
    let before : List Cell := [⟨.code, "x = 1"⟩]
    let c : Cell := ⟨.code, "# @HTTP\ndef f():\n    return x"⟩
    let after : List Cell := [⟨.code, "# @WS\ndef g():\n    return x"⟩, ⟨.code, "y = 2"⟩]
    let whole := (compile (before ++ c :: after) 0).1
    (c.compile (compile before 0).2).value.1 = .skipped ∧
      whole.source = (compile (before ++ after) 0).1.source ∧
      whole.diagnostics.map Diagnostic.cell = [1, 2] := by
  intro before c after whole
  have hs : (c.compile (compile before 0).2).value.1 = .skipped :=
    Outcome.isSkipped_iff.1 (by decide +kernel)
  obtain ⟨hsource, -, -, -, hd⟩ := compile_isolated before c after 0 (.inr hs)
  refine ⟨hs, hsource, ?_⟩
  show List.map Diagnostic.cell (compile (before ++ c :: after) 0).1.diagnostics = _
  rw [hd]
  decide +kernel

end ServiceModule

end NotebookService
