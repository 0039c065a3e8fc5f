/-
# `NotebookService.Proofs.ServiceModule.Assembly` — the module as the sum of its cells

A cell is compiled with the number of made-up names that the cells in front of it leave.
`runs` lists what the cells come to in this way, and `compile_assembled` reads
everything that is known about the module off that list: the source, the two counts, the
diagnostics and the number of made-up names at the end.

The assembly passes over a blank rendering without a trace.  No compiled cell has one,
so each has its own block in the source.
-/
import NotebookService.Proofs.Cell.Rendered

namespace NotebookService

open NotebookService.Text

/-! ## Runs -/

/-- The number of made-up names behind some cells, given that before them. -/
def madeUpAfter (generated : Nat) (cells : List Cell) : Nat :=
  cells.foldl (fun n c => (c.compile n).value.2) generated

/-- What the cells come to, each started with the number of made-up names that those in
front of it leave. -/
def runs (generated : Nat) (cells : List Cell) : List (Noted (Outcome × Nat)) :=
  cells.mapIdx fun i c => c.compile (madeUpAfter generated (cells.take i))

theorem runs_cons (generated : Nat) (c : Cell) (cs : List Cell) :
    runs generated (c :: cs) =
      c.compile generated :: runs (c.compile generated).value.2 cs := by
  rw [runs, List.mapIdx_cons]
  rfl

theorem compileCells_eq (index generated : Nat) (cells : List Cell) :
    compileCells index generated cells =
      (((runs generated cells).zipIdx index).map fun r =>
        ⟨r.1.value.1, r.1.diagnostics r.2⟩,
        madeUpAfter generated cells) := by
  induction cells generalizing index generated with
  | nil => rfl
  | cons c cs ih =>
      rw [compileCells, ih, runs_cons, List.zipIdx_cons]
      rfl

theorem map_outcome_compileCells (index generated : Nat) (cells : List Cell) :
    (compileCells index generated cells).1.map CellResult.outcome =
      (runs generated cells).map fun r => r.value.1 := by
  rw [compileCells_eq, List.map_map]
  conv_rhs => rw [← List.zipIdx_map_fst index (runs generated cells), List.map_map]
  rfl

/-! ## Assembly -/

/-- The text that a compiled cell adds to the module. -/
def CompiledCell.block (cell : CompiledCell) : String :=
  let text := String.ofList (trimEnd cell.render.toList)
  if text = "" then "" else "\n\n" ++ text ++ "\n"

theorem CompiledCell.part_eq (cell : CompiledCell) : cell.part = cell.block.toList := by
  have hf : "\n\n".toList = ['\n', '\n'] := rfl
  have hn : "\n".toList = ['\n'] := rfl
  rw [part, block]
  cases ht : trimEnd cell.render.toList with
  | nil => rfl
  | cons c t =>
      simp [hf, hn, String.toList_append]

theorem CompiledCell.block_of_not_blank {cell : CompiledCell}
    (h : ¬ allBlank cell.render.toList = true) :
    cell.block = "\n\n" ++ String.ofList (trimEnd cell.render.toList) ++ "\n" := by
  have hne : String.ofList (trimEnd cell.render.toList) ≠ "" := by
    rw [Ne, ← String.toList_inj, String.toList_ofList]
    exact mt trimEnd_eq_nil.1 h
  rw [block, if_neg hne]

theorem assemble_eq (cells : List CompiledCell) :
    assemble cells = preamble ++
      String.join ((moduleOrder cells).map CompiledCell.block) := by
  rw [← String.toList_inj, assemble, String.toList_ofList, String.toList_append,
    String.toList_join, List.flatMap_map, funext CompiledCell.part_eq]

/-- No cell is lost on the way into the module, and none comes twice. -/
theorem moduleOrder_perm (cells : List CompiledCell) :
    (moduleOrder cells).Perm cells := by
  have h := List.filter_append_perm (fun c => !c.isHttp) cells
  simpa only [moduleOrder, Bool.not_not] using h

theorem filterMap_compiled?_compileCells (index generated : Nat) (cells : List Cell) :
    (compileCells index generated cells).1.filterMap CellResult.compiled? =
      (runs generated cells).filterMap fun r => r.value.1.compiled? := by
  have h := congrArg (List.filterMap Outcome.compiled?)
    (map_outcome_compileCells index generated cells)
  rw [List.filterMap_map, List.filterMap_map] at h
  exact (congrArg (List.filterMap · _) (funext CellResult.compiled?_eq)).trans h

theorem countP_isSkipped_compileCells (index generated : Nat) (cells : List Cell) :
    (compileCells index generated cells).1.countP CellResult.isSkipped =
      (runs generated cells).countP fun r => r.value.1.isSkipped := by
  have h := congrArg (List.countP Outcome.isSkipped)
    (map_outcome_compileCells index generated cells)
  rw [List.countP_map, List.countP_map] at h
  exact (congrArg (List.countP · _) (funext CellResult.isSkipped_eq)).trans h

/-- The module of a notebook is the preamble and a block for each compiled cell, those
that are no HTTP cells first.  The counts and the diagnostics are those of the cells,
and a code cell without a directive comes through as it is, if the splitter finds a
declaration or a body in it. -/
theorem compile_assembled (cells : List Cell) (generated : Nat) :
    let run := runs generated cells
    let compiled := run.filterMap fun r => r.value.1.compiled?
    let order := compiled.filter (fun cell => !cell.isHttp) ++
      compiled.filter CompiledCell.isHttp
    let m := ServiceModule.compile cells generated
    m.1.source = preamble ++ String.join (order.map CompiledCell.block) ∧
      order.Perm compiled ∧
      (∀ cell ∈ compiled, cell.block =
        "\n\n" ++ String.ofList (trimEnd cell.render.toList) ++ "\n") ∧
      m.1.compiled = compiled.length ∧
      m.1.skipped = run.countP (fun r => r.value.1.isSkipped) ∧
      m.1.diagnostics =
        run.zipIdx.flatMap (fun r => r.1.findings.map (Diagnostic.ofFinding r.2)) ∧
      m.2 = madeUpAfter generated cells ∧
      ∀ (i : Nat) (c : Cell), cells[i]? = some c → c.kind = .code → c.directive? = none →
        ∃ r, run[i]? = some r ∧
          r.value.1.compiled? = (Declaration.split? c.source).map fun _ =>
            .code c.source := by
  intro run compiled order m
  have hcells : (compileCells 0 generated cells).1.filterMap CellResult.compiled? =
      compiled :=
    filterMap_compiled?_compileCells 0 generated cells
  have hm : m = (ServiceModule.ofResults (compileCells 0 generated cells).1,
      (compileCells 0 generated cells).2) := rfl
  -- a block is empty only for a blank rendering, which no compiled cell has
  have hblock : ∀ cell ∈ compiled,
      cell.block = "\n\n" ++ String.ofList (trimEnd cell.render.toList) ++ "\n" := by
    intro cell hc
    obtain ⟨r, hr, hrc⟩ := List.mem_filterMap.1 hc
    obtain ⟨i, hi, rfl⟩ := List.mem_mapIdx.1 hr
    exact CompiledCell.block_of_not_blank (CompiledCell.not_allBlank_render hrc)
  rw [hm]
  refine ⟨?_, moduleOrder_perm compiled, hblock, ?_, ?_, ?_, ?_, ?_⟩
  · show assemble _ = _
    rw [hcells, assemble_eq]
    rfl
  · exact congrArg List.length hcells
  · exact countP_isSkipped_compileCells 0 generated cells
  · show List.flatMap _ _ = _
    rw [compileCells_eq, List.flatMap_map]
    rfl
  · rw [compileCells_eq]
  · intro i c hc hk hd
    refine ⟨c.compile (madeUpAfter generated (cells.take i)), ?_,
      Cell.compiled?_of_no_directive hk hd⟩
    show (runs generated cells)[i]? = _
    rw [runs, List.getElem?_mapIdx, hc]
    rfl

/-- A cell of plain code behind one of text. -/
theorem compile_assembled_plain :
    let cells : List Cell := [⟨.markdown, "# Totals"⟩, ⟨.code, "total = 0\n"⟩]
    (ServiceModule.compile cells 0).1.compiled =
      ((runs 0 cells).filterMap fun r => r.value.1.compiled?).length ∧
      ∃ r, (runs 0 cells)[1]? = some r ∧
        r.value.1.compiled? = some (.code "total = 0\n") := by
  intro cells
  obtain ⟨-, -, -, hn, -, -, -, hplain⟩ := compile_assembled cells 0
  obtain ⟨r, hr, hc⟩ := hplain 1 ⟨.code, "total = 0\n"⟩ rfl rfl (by decide +kernel)
  have hs : Declaration.split? "total = 0\n" = some ⟨[], ["total = 0"]⟩ := by
    decide +kernel
  rw [hs] at hc
  exact ⟨hn, r, hr, hc⟩

/-- A bare comment marker is code without a directive, and nothing comes of it. -/
theorem comment_marker_not_passed_through :
    let c : Cell := ⟨.code, "#"⟩
    c.kind = .code ∧ c.directive? = none ∧
      (ServiceModule.compile [c] 0).1.source = preamble ∧
      preamble ≠ preamble ++ "\n\n" ++
      String.ofList (trimEnd c.source.toList) ++ "\n" := by
  intro c
  have hn : (ServiceModule.compile [c] 0).1.compiled = 0 := by decide +kernel
  refine ⟨rfl, by decide +kernel, ?_, fun he => ?_⟩
  · show assemble _ = _
    rw [List.length_eq_zero_iff.1 hn, assemble_eq]
    exact String.append_empty
  · have hl := congrArg String.length he
    have hf : "\n".length = 1 := rfl
    rw [String.length_append, String.length_append, String.length_append, hf] at hl
    omega

end NotebookService
