/-
# `NotebookService.Proofs.Cell.Rendered` — compiled cells have text in them

What a cell compiles to is never blank.  An endpoint has its handler, whose header is a
line; a job has a decorator in it, the header of a wrapper, or a comment instead; and
what comes through as it is was found not to be blank before.

User code that is moved to a place keeps its characters, so that the decorator is looked
for in the text and not among the lines that were put together.
-/
import NotebookService.Proofs.Cell.Suites

namespace NotebookService

open NotebookService.Text NotebookService.Code

/-! ## Items with something in them -/

theorem Code.Statement.exists_line_of_suite {s : Statement} (hw : s.wellOpened = true)
    {header : List Char} {below : List (List Char)}
    (h : s.suite? 0 = some (header, below)) :
    ∃ l ∈ s.lines 0, ¬ allBlank l = true := by
  refine ⟨header, (s.suite_suffix_lines h).subset List.mem_cons_self, fun hb => ?_⟩
  have hc := isCode_header hw h
  rw [isCode, hb] at hc
  cases hc

theorem Code.exists_line_line {text : String} (h : ¬ allBlank text.toList = true) :
    ∃ l ∈ (Statement.line text).lines 0, ¬ allBlank l = true := by
  refine ⟨_, List.mem_cons_self, ?_⟩
  rwa [allBlank_indented]

theorem Code.exists_line_verbatim {code : String} {c : Char} (h : c ∈ code.toList)
    (hc : isBlank c = false) :
    ∃ l ∈ (Statement.verbatim code).lines 0, ¬ allBlank l = true := by
  obtain ⟨l, hl, hcl⟩ := exists_mem_lines h hc
  rw [Statement.lines, verbatimLines_eq]
  refine ⟨_, List.mem_map_of_mem hl, fun hb => ?_⟩
  rw [allBlank_movedLine hl] at hb
  rw [allBlank_iff.1 hb c hcl] at hc
  cases hc

/-! ## Jobs -/

namespace Job

theorem mem_decorateSource (source : String) (s : Signature) (decorator : String) :
    '@' ∈ (decorateSource source s decorator).toList := by
  have hl : ∀ indent : List Char, '@' ∈ indent ++ '@' :: decorator.toList := by
    intro indent
    exact List.mem_append_right _ List.mem_cons_self
  rw [decorateSource, String.toList_ofList, decorate]
  exact mem_unlines (List.mem_append_left _ (List.mem_append_right _ List.mem_cons_self))
    (hl _)

theorem exists_line_generate (j : Job) (generated : Nat) :
    ∃ item ∈ (j.generate generated).value.1, ∃ l ∈ item.lines 0, ¬ allBlank l = true := by
  rcases j.items_generate generated with ⟨comment, hb, hi⟩ | ⟨s, d, hi⟩ | ⟨d, hi⟩
  · rw [hi]
    exact ⟨_, List.mem_cons_self, exists_line_line hb⟩
  · rw [hi]
    exact ⟨_, List.mem_cons_self,
      exists_line_verbatim (mem_decorateSource j.source s d) rfl⟩
  · rw [hi]
    exact ⟨_, List.mem_cons_self, Statement.exists_line_of_suite rfl rfl⟩

end Job

/-! ## Cells -/

namespace CellSpec

theorem ofHttp_ne_passthrough {rest body text : String} {lines : List String} :
    (ofHttp rest lines body).value ≠ some (.passthrough text) := by
  intro h
  unfold ofHttp at h
  dsimp only at h
  cases hv : Http.Verb.ofWord? (splitHead (httpHead rest lines).text).1 with
  | none =>
      rw [hv] at h
      cases h
  | some verb =>
      rw [hv] at h
      dsimp only at h
      by_cases hp : (splitHead (httpHead rest lines).text).2 = ""
      · rw [if_pos hp] at h
        cases h
      · rw [if_neg hp, Noted.value_bind] at h
        split at h
        · cases h
        · split at h <;> cases h

theorem ofSocket_ne_passthrough {rest body text : String} {lines : List String} :
    (ofSocket rest lines body).value ≠ some (.passthrough text) := by
  intro h
  unfold ofSocket at h
  split at h
  · cases h
  · rw [Noted.value_bind] at h
    split at h
    · cases h
    · split at h
      · cases h
      · obtain ⟨e, -, he⟩ := Option.map_eq_some_iff.1 h
        cases he

theorem ofSchedule_ne_passthrough {rest body text : String} {lines : List String} :
    (ofSchedule rest lines body).value ≠ some (.passthrough text) := by
  intro h
  unfold ofSchedule at h
  dsimp only at h
  rw [Noted.value_bind] at h
  split at h
  · cases h
  · split at h
    · cases h
    · obtain ⟨j, -, hj⟩ := Option.map_eq_some_iff.1 h
      cases hj

/-- Only a cell without a directive is passed through, and with its own source. -/
theorem source_of_passthrough {source text : String}
    (h : (ofSource source).value = some (.passthrough text)) :
    text = source := by
  unfold ofSource at h
  split at h
  · cases h
  · split at h
    · cases h
      rfl
    · exact absurd h ofHttp_ne_passthrough
    · exact absurd h ofSocket_ne_passthrough
    · exact absurd h ofSchedule_ne_passthrough

/-- Whatever the generators give has a line with something in it. -/
theorem exists_line_generate {spec : CellSpec} {generated : Nat} {cell : CompiledCell}
    (h : (spec.generate generated).value.1 = some cell) :
    (∃ source, spec = .passthrough source ∧ cell = .code source) ∨
      ∃ item ∈ cell.items, ∃ l ∈ item.lines 0, ¬ allBlank l = true := by
  cases spec with
  | passthrough source =>
      cases h
      exact .inl ⟨source, rfl, rfl⟩
  | http e =>
      obtain ⟨items, hi, rfl⟩ := Option.map_eq_some_iff.1 h
      obtain ⟨s, -, -, rfl⟩ := e.exists_of_generate hi
      exact .inr ⟨e.handler s, List.mem_append_right _ List.mem_cons_self,
        Statement.exists_line_of_suite (e.wellOpened_handler s) rfl⟩
  | socket e =>
      obtain ⟨items, hi, rfl⟩ := Option.map_eq_some_iff.1 h
      obtain ⟨s, -, -, rfl⟩ := e.exists_of_generate hi
      exact .inr ⟨e.handler s, List.mem_append_right _ List.mem_cons_self,
        Statement.exists_line_of_suite (e.wellOpened_handler s) rfl⟩
  | scheduled job =>
      cases h
      exact .inr (job.exists_line_generate generated)

end CellSpec

theorem CompiledCell.not_allBlank_render {c : Cell} {generated : Nat}
    {cell : CompiledCell} (h : (c.compile generated).value.1.compiled? = some cell) :
    ¬ allBlank cell.render.toList = true := by
  obtain ⟨spec, hc, hs, hg⟩ := Cell.exists_of_compiled h
  rcases CellSpec.exists_line_generate hg with ⟨source, rfl, rfl⟩ | ⟨item, hi, l, hl, hb⟩
  · cases CellSpec.source_of_passthrough hs
    rw [Cell.isCompiled, Bool.and_eq_true, Bool.not_eq_true'] at hc
    show ¬ allBlank c.source.toList = true
    rw [hc.2]
    exact Bool.false_ne_true
  · rw [render_eq hi, Code.render, String.toList_ofList]
    exact not_allBlank_renderChars hi hl hb

end NotebookService
