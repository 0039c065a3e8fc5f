/-
# `NotebookService.Proofs.Cell.Explained` — a cell that is left out is explained

A cell that gives no code is left out for a reason, and the reason is a finding.
`Noted.Explained` says this of one reader or generator: where it has no result it
has a finding.  It is kept by sequencing, so it is shown of each of them from the
ones that it calls.

There is one way for a cell to be left out without a word.  A cell counts as empty when
it is blank, but the splitter finds nothing in a source of bare comment markers or
quotes either, and such a cell is skipped and not ignored.  `skipped_explained_iff` says
that there is no other: a skipped cell has a diagnostic of its own exactly when the
splitter finds a declaration or a body in it.
-/
import Mathlib.Data.List.Basic
import NotebookService.ServiceModule

namespace NotebookService

/-! ## No result without a finding -/

namespace Noted

variable {α β : Type}

/-- Where there is no result, there is a finding. -/
def Explained (m : Noted (Option α)) : Prop := m.value = none → m.findings ≠ []

theorem explained_some (x : α) : Explained (pure (some x)) := by
  rintro ⟨⟩

theorem explained_note (f : Finding) :
    Explained (do note f; return (none : Option α)) := by
  intro _
  simp

theorem Explained.bind {m : Noted β} {f : β → Noted (Option α)}
    (h : (f m.value).Explained) :
    (m >>= f).Explained := by
  intro hn he
  exact h hn (List.append_eq_nil_iff.1 he).2

/-- What a reader could not do is explained by the reader, whatever is done about it. -/
theorem Explained.andThen {m : Noted (Option β)} {f : Option β → Noted (Option α)}
    (hm : m.Explained) (hf : ∀ x, (f (some x)).Explained) : (m >>= f).Explained := by
  cases hv : m.value with
  | none =>
      intro _ he
      exact hm hv (List.append_eq_nil_iff.1 he).1
  | some x =>
      refine Explained.bind ?_
      rw [hv]
      exact hf x

end Noted

open Noted

/-! ## Readers -/

namespace CellSpec

theorem explained_readMetadata (firstLine : Nat) (lines : List String) :
    (readMetadata firstLine lines).Explained := by
  unfold readMetadata
  split
  · exact explained_some _
  · exact explained_note _

theorem explained_ofHttp (rest : String) (lines : List String) (body : String) :
    (ofHttp rest lines body).Explained := by
  simp only [ofHttp]
  split
  · exact explained_note _
  · split
    · exact explained_note _
    · refine (explained_readMetadata _ _).andThen fun m => ?_
      dsimp only
      split
      · exact explained_note _
      · exact Explained.bind (explained_some _)

theorem explained_modeOf (path : String) (m : Metadata) :
    (Socket.Endpoint.modeOf path m).Explained := by
  unfold Socket.Endpoint.modeOf
  split
  · exact explained_some _
  · split
    · exact explained_some _
    · exact explained_note _

theorem explained_socketOfMetadata (path : String) (m : Metadata) (source : String) :
    (Socket.Endpoint.ofMetadata path m source).Explained := by
  refine (explained_modeOf path m).andThen fun mode => ?_
  exact Explained.bind (Explained.bind (Explained.bind (explained_some _)))

theorem explained_ofSocket (path : String) (lines : List String) (body : String) :
    (ofSocket path lines body).Explained := by
  unfold ofSocket
  split
  · exact explained_note _
  · refine (explained_readMetadata _ _).andThen fun m => ?_
    dsimp only
    split
    · exact explained_note _
    · exact (explained_socketOfMetadata _ _ _).andThen fun _ => explained_some _

theorem explained_jobOfMetadata (m : Metadata) (source : String) :
    (Job.ofMetadata m source).Explained := by
  unfold Job.ofMetadata
  split
  · exact Explained.bind (explained_some _)
  · exact explained_some _
  · exact explained_some _
  · exact explained_note _

theorem explained_ofSchedule (rest : String) (lines : List String) (body : String) :
    (ofSchedule rest lines body).Explained := by
  refine (explained_readMetadata _ _).andThen fun m => ?_
  dsimp only
  split
  · exact explained_note _
  · exact (explained_jobOfMetadata _ _).andThen fun _ => explained_some _

theorem explained_ofSource {source : String} {d : Declaration}
    (h : Declaration.split? source = some d) :
    (ofSource source).Explained := by
  simp only [ofSource, h]
  split
  · exact explained_some _
  · exact explained_ofHttp _ _ _
  · exact explained_ofSocket _ _ _
  · exact explained_ofSchedule _ _ _

theorem ofSource_of_split?_eq_none {source : String}
    (h : Declaration.split? source = none) :
    ofSource source = pure none := by
  simp only [ofSource, h]

/-! ## Generators -/

theorem explained_httpGenerate (e : Http.Endpoint) : e.generate.Explained := by
  unfold Http.Endpoint.generate
  split
  · exact explained_note _
  · exact Explained.bind (explained_some _)

theorem explained_socketGenerate (e : Socket.Endpoint) : e.generate.Explained := by
  unfold Socket.Endpoint.generate
  split
  · exact explained_note _
  · exact Explained.bind (explained_some _)

/-- A cell without code is explained; the number of made-up names beside it
has no part in it. -/
theorem findings_generate_ne_nil {spec : CellSpec} {generated : Nat}
    (h : (spec.generate generated).value.1 = none) :
    (spec.generate generated).findings ≠ [] := by
  cases spec with
  | passthrough source => cases h
  | http e =>
      intro hf
      exact explained_httpGenerate e (Option.map_eq_none_iff.1 h)
        (List.append_eq_nil_iff.1 hf).1
  | socket e =>
      intro hf
      exact explained_socketGenerate e (Option.map_eq_none_iff.1 h)
        (List.append_eq_nil_iff.1 hf).1
  | scheduled job => cases h

end CellSpec

/-! ## Cells -/

namespace Cell

theorem findings_compile_ne_nil {c : Cell} {generated : Nat} {d : Declaration}
    (hs : (c.compile generated).value.1 = .skipped)
    (hd : Declaration.split? c.source = some d) :
    (c.compile generated).findings ≠ [] := by
  unfold compile at hs ⊢
  split at hs
  · rename_i hc
    rw [if_pos hc]
    rw [value_bind] at hs
    intro hf
    rw [findings_bind, List.append_eq_nil_iff] at hf
    cases hv : (CellSpec.ofSource c.source).value with
    | none => exact CellSpec.explained_ofSource hd hv hf.1
    | some spec =>
        rw [hv] at hs hf
        have hg : (spec.generate generated).value.1 = none := by
          dsimp only at hs
          rw [value_bind] at hs
          split at hs
          · cases hs
          · rename_i he
            exact congrArg Prod.fst he
        have hn := CellSpec.findings_generate_ne_nil hg
        exact hn (List.append_eq_nil_iff.1 hf.2).1
  · cases hs

theorem findings_compile_eq_nil {c : Cell} (generated : Nat)
    (hd : Declaration.split? c.source = none) :
    (c.compile generated).findings = [] := by
  unfold compile
  split
  · rw [findings_bind, CellSpec.ofSource_of_split?_eq_none hd]
    rfl
  · rfl

theorem findings_compile_ne_nil_iff {c : Cell} {generated : Nat}
    (hs : (c.compile generated).value.1 = .skipped) :
    (c.compile generated).findings ≠ [] ↔ Declaration.split? c.source ≠ none := by
  constructor
  · intro hf hd
    exact hf (findings_compile_eq_nil generated hd)
  · intro hd
    obtain ⟨d, hd⟩ := Option.ne_none_iff_exists'.1 hd
    exact findings_compile_ne_nil hs hd

end Cell

/-! ## Notebooks -/

theorem length_compileCells (index generated : Nat) (cells : List Cell) :
    (compileCells index generated cells).1.length = cells.length := by
  induction cells generalizing index generated with
  | nil => rfl
  | cons c cs ih =>
      rw [compileCells, List.length_cons, List.length_cons, ← ih]

theorem exists_of_getElem?_compileCells {index generated i : Nat} {cells : List Cell}
    {r : CellResult} (h : (compileCells index generated cells).1[i]? = some r) :
    ∃ c n, cells[i]? = some c ∧ r.outcome = (c.compile n).value.1 ∧
      r.diagnostics = (c.compile n).diagnostics (index + i) := by
  induction cells generalizing index generated i with
  | nil => simp [compileCells] at h
  | cons c cs ih =>
      rw [compileCells] at h
      cases i with
      | zero =>
          rw [List.getElem?_cons_zero] at h
          cases h
          exact ⟨c, generated, rfl, rfl, rfl⟩
      | succ i =>
          rw [List.getElem?_cons_succ] at h
          obtain ⟨c', n, hc, ho, hd⟩ := ih h
          exact ⟨c', n, hc, ho, by rw [hd, Nat.add_right_comm, Nat.add_assoc]⟩

theorem cell_of_mem_diagnostics {α : Type} {m : Noted α} {i : Nat} {d : Diagnostic}
    (h : d ∈ m.diagnostics i) : d.cell = i := by
  obtain ⟨f, -, rfl⟩ := List.mem_map.1 h
  rfl

theorem exists_diagnostic_iff {generated i : Nat} {cells : List Cell} {r : CellResult}
    (h : (compileCells 0 generated cells).1[i]? = some r) :
    (∃ d ∈ (ServiceModule.compile cells generated).1.diagnostics, d.cell = i) ↔
      r.diagnostics ≠ [] := by
  constructor
  · rintro ⟨d, hd, rfl⟩
    obtain ⟨r', hr', hd⟩ := List.mem_flatMap.1 hd
    obtain ⟨j, hj⟩ := List.mem_iff_getElem?.1 hr'
    obtain ⟨c, n, -, -, hc⟩ := exists_of_getElem?_compileCells hj
    have hji : d.cell = 0 + j := by
      rw [hc] at hd
      exact cell_of_mem_diagnostics hd
    rw [Nat.zero_add] at hji
    rw [hji, hj] at h
    cases h
    exact List.ne_nil_of_mem hd
  · intro hne
    obtain ⟨d, hd⟩ := List.exists_mem_of_ne_nil _ hne
    obtain ⟨c, n, -, -, hc⟩ := exists_of_getElem?_compileCells h
    refine ⟨d, List.mem_flatMap.2 ⟨r, List.mem_of_getElem? h, hd⟩, ?_⟩
    rw [hc] at hd
    rw [cell_of_mem_diagnostics hd, Nat.zero_add]

/-- The cells that a notebook counts as skipped are explained, each by a
diagnostic with its number, but for those in which the splitter finds neither a
declaration nor a body. -/
theorem skipped_explained_iff (cells : List Cell) (generated : Nat) :
    let results := (compileCells 0 generated cells).1
    let m := (ServiceModule.compile cells generated).1
    m.skipped = results.countP CellResult.isSkipped ∧ results.length = cells.length ∧
      ∀ i c r, cells[i]? = some c → results[i]? = some r → r.isSkipped = true →
        ((∃ d ∈ m.diagnostics, d.cell = i) ↔ Declaration.split? c.source ≠ none) := by
  refine ⟨rfl, length_compileCells 0 generated cells, ?_⟩
  intro i c r hc hr hs
  obtain ⟨c', n, hc', ho, hd⟩ := exists_of_getElem?_compileCells hr
  rw [hc] at hc'
  cases hc'
  have hk : (c.compile n).value.1 = .skipped := by
    rw [← ho]
    unfold CellResult.isSkipped at hs
    split at hs
    · assumption
    · cases hs
    · cases hs
  rw [exists_diagnostic_iff hr, hd, Noted.diagnostics, Ne, List.map_eq_nil_iff]
  exact Cell.findings_compile_ne_nil_iff hk

/-- A bare comment marker is skipped without a word. -/
theorem comment_marker_skipped_unexplained :
    let m := (ServiceModule.compile [⟨.code, "#"⟩] 0).1
    m.skipped = 1 ∧ m.diagnostics = [] := by
  decide +kernel

end NotebookService
