/-
# `NotebookService.Proofs.Cell.Errors` — an error is the last word on a cell

A warning lets the compilation of a cell go on, an error ends it.  `Noted.StopsAtError`
says this of one reader or generator: nothing is said after an error, and nothing but
what an error leaves behind comes out.  Sequencing keeps it as long as what an error
leaves behind is passed on without a word (`StopsAtError.bind`), so it is shown of each
step from the ones that it calls, from the fields of a declaration up to the cell.

Most steps only warn.  An error has three sources: metadata that cannot be read, a
socket of unknown type, and an endpoint without a function.  Each of them gives up
at once, and jobs, which alone make up names, come after the first and have
neither of the others.
-/
import NotebookService.Proofs.Cell.Outcome

namespace NotebookService

/-! ## Errors end a reading -/

namespace Noted

variable {α β : Type} {P : α → Prop} {Q : β → Prop}

/-- None of the findings is an error. -/
def OnlyWarns (m : Noted α) : Prop := ∀ f ∈ m.findings, f.severity = .warning

/-- An error, if there is one, is the last of the findings, the only error among them,
and leaves a value in `P`. -/
def StopsAtError (m : Noted α) (P : α → Prop) : Prop :=
  m.OnlyWarns ∨
    P m.value ∧ ∃ before f, m.findings = before ++ [f] ∧ f.severity = .error ∧
      ∀ w ∈ before, w.severity = .warning

theorem onlyWarns_pure (x : α) : (pure x : Noted α).OnlyWarns := by
  intro f hf
  cases hf

theorem onlyWarns_note {f : Finding} (h : f.severity = .warning) :
    (note f).OnlyWarns := by
  intro g hg
  rw [List.mem_singleton.1 hg]
  exact h

theorem OnlyWarns.bind {m : Noted α} {f : α → Noted β} (hm : m.OnlyWarns)
    (hf : (f m.value).OnlyWarns) :
    (m >>= f).OnlyWarns := by
  intro g hg
  rcases List.mem_append.1 hg with hg | hg
  · exact hm g hg
  · exact hf g hg

theorem onlyWarns_note_pure {f : Finding} (h : f.severity = .warning) (x : α) :
    (do note f; return x).OnlyWarns :=
  (onlyWarns_note h).bind (onlyWarns_pure x)

theorem onlyWarns_remark {p : Prop} [Decidable p] {f : Finding} {rest : Unit → Noted α}
    (hf : f.severity = .warning) (hr : (rest ()).OnlyWarns) :
    (if p then note f >>= rest else rest ()).OnlyWarns := by
  split
  · exact (onlyWarns_note hf).bind hr
  · exact hr

theorem OnlyWarns.stopsAtError {m : Noted α} (h : m.OnlyWarns) : m.StopsAtError P :=
  .inl h

theorem stopsAtError_note (f : Finding) {x : α} (h : P x) :
    (do note f; return x).StopsAtError P := by
  cases hf : f.severity with
  | warning => exact .inl (onlyWarns_note_pure hf x)
  | error => exact .inr ⟨h, [], f, rfl, hf, fun w hw => by cases hw⟩

theorem OnlyWarns.stopsAtError_bind {m : Noted α} {f : α → Noted β} (hm : m.OnlyWarns)
    (hf : (f m.value).StopsAtError Q) : (m >>= f).StopsAtError Q := by
  rcases hf with hf | ⟨hq, before, e, hb, he, hw⟩
  · exact .inl (hm.bind hf)
  · refine .inr ⟨hq, m.findings ++ before, e, ?_, he, ?_⟩
    · rw [findings_bind, hb, List.append_assoc]
    · intro w h
      rcases List.mem_append.1 h with h | h
      · exact hm w h
      · exact hw w h

/-- What an error leaves behind is passed on without a word, so the error
stays the last one. -/
theorem StopsAtError.bind {m : Noted α} {f : α → Noted β} (hm : m.StopsAtError P)
    (hstop : ∀ x, P x → ∃ y, Q y ∧ f x = pure y) (hf : (f m.value).StopsAtError Q) :
    (m >>= f).StopsAtError Q := by
  rcases hm with hm | ⟨hp, before, e, hb, he, hw⟩
  · exact hm.stopsAtError_bind hf
  · obtain ⟨y, hy, hfy⟩ := hstop m.value hp
    refine .inr ⟨?_, before, e, ?_, he, hw⟩
    · rw [value_bind, hfy]
      exact hy
    · rw [findings_bind, hfy, findings_pure, List.append_nil, hb]

theorem StopsAtError.andThen {m : Noted (Option α)} {f : Option α → Noted (Option β)}
    (hm : m.StopsAtError (· = none)) (hnone : f none = pure none)
    (hf : ∀ x, (f (some x)).StopsAtError (· = none)) :
    (m >>= f).StopsAtError (· = none) := by
  refine hm.bind (fun x hx => ⟨none, rfl, hx ▸ hnone⟩) ?_
  cases m.value with
  | none =>
      rw [hnone]
      exact (onlyWarns_pure none).stopsAtError
  | some x => exact hf x

end Noted

open Noted

/-! ## Fields -/

namespace Field

theorem onlyWarns_parse (declaration : List Char) : (parse declaration).OnlyWarns := by
  unfold parse
  dsimp only
  split
  · exact onlyWarns_pure _
  · split
    · exact onlyWarns_note_pure rfl _
    · split
      · exact onlyWarns_note_pure rfl _
      · exact onlyWarns_pure _

theorem onlyWarns_parseAll (ds : List (List Char)) : (parseAll ds).OnlyWarns := by
  induction ds with
  | nil => exact onlyWarns_pure _
  | cons d ds ih => exact (onlyWarns_parse d).bind (ih.bind (onlyWarns_pure _))

theorem onlyWarns_ofEntry (name : String) (type : Metadata.Value) :
    (ofEntry name type).OnlyWarns := by
  unfold ofEntry
  split
  · exact onlyWarns_parse _
  · exact onlyWarns_note_pure rfl _
  · exact onlyWarns_note_pure rfl _
  · exact onlyWarns_parse _

theorem onlyWarns_ofEntries (entries : List (String × Metadata.Value)) :
    (ofEntries entries).OnlyWarns := by
  induction entries with
  | nil => exact onlyWarns_pure _
  | cons entry entries ih =>
      exact (onlyWarns_ofEntry entry.1 entry.2).bind (ih.bind (onlyWarns_pure _))

theorem onlyWarns_ofScalar (v : Metadata.Value) : (ofScalar v).OnlyWarns := by
  unfold ofScalar
  split
  · exact onlyWarns_pure _
  · exact onlyWarns_parseAll _

theorem onlyWarns_ofItem (v : Metadata.Value) : (ofItem v).OnlyWarns := by
  unfold ofItem
  split
  · exact onlyWarns_ofEntries _
  · exact onlyWarns_note_pure rfl _
  · exact onlyWarns_ofScalar _

theorem onlyWarns_ofItems (vs : List Metadata.Value) : (ofItems vs).OnlyWarns := by
  induction vs with
  | nil => exact onlyWarns_pure _
  | cons v vs ih => exact (onlyWarns_ofItem v).bind (ih.bind (onlyWarns_pure _))

theorem onlyWarns_ofValue (v : Metadata.Value) : (ofValue v).OnlyWarns := by
  unfold ofValue
  split
  · exact onlyWarns_parseAll _
  · exact onlyWarns_ofItems _
  · exact onlyWarns_ofEntries _
  · exact onlyWarns_ofScalar _

end Field

theorem Metadata.onlyWarns_fields (m : Metadata) (key : String) :
    (m.fields key).OnlyWarns := by
  unfold Metadata.fields
  split
  · exact onlyWarns_pure _
  · exact Field.onlyWarns_ofValue _

/-! ## Endpoints -/

theorem onlyWarns_noteMissing (s : Signature) (declared : List String) :
    (noteMissing s declared).OnlyWarns := by
  unfold noteMissing
  dsimp only
  split
  · exact onlyWarns_pure _
  · exact onlyWarns_note rfl

namespace Http.Endpoint

theorem onlyWarns_ofMetadata (verb : Verb) (path : String) (m : Metadata)
    (source : String) :
    (ofMetadata verb path m source).OnlyWarns :=
  (m.onlyWarns_fields "body").bind <| (m.onlyWarns_fields "resp").bind <|
    (m.onlyWarns_fields "query").bind <|
      (m.onlyWarns_fields "headers").bind (onlyWarns_pure _)

theorem stopsAtError_generate (e : Endpoint) : e.generate.StopsAtError (· = none) := by
  unfold generate
  split
  · exact stopsAtError_note _ rfl
  · refine OnlyWarns.stopsAtError ((onlyWarns_noteMissing _ _).bind ?_)
    exact onlyWarns_pure _

end Http.Endpoint

namespace Socket.Endpoint

theorem stopsAtError_modeOf (path : String) (m : Metadata) :
    (modeOf path m).StopsAtError (· = none) := by
  unfold modeOf
  split
  · exact (onlyWarns_pure _).stopsAtError
  · split
    · exact (onlyWarns_pure _).stopsAtError
    · exact stopsAtError_note _ rfl

theorem stopsAtError_ofMetadata (path : String) (m : Metadata) (source : String) :
    (ofMetadata path m source).StopsAtError (· = none) := by
  refine (stopsAtError_modeOf path m).andThen rfl fun mode => OnlyWarns.stopsAtError ?_
  exact (m.onlyWarns_fields "message").bind <| (m.onlyWarns_fields "query").bind <|
    (m.onlyWarns_fields "headers").bind (onlyWarns_pure _)

theorem onlyWarns_check (e : Endpoint) (s : Signature) : (e.check s).OnlyWarns := by
  unfold check
  refine (onlyWarns_noteMissing s _).bind ?_
  refine onlyWarns_remark rfl (onlyWarns_remark rfl ?_)
  split
  · exact onlyWarns_note rfl
  · exact onlyWarns_pure _

theorem stopsAtError_generate (e : Endpoint) : e.generate.StopsAtError (· = none) := by
  unfold generate
  split
  · exact stopsAtError_note _ rfl
  · refine OnlyWarns.stopsAtError ((e.onlyWarns_check _).bind ?_)
    exact onlyWarns_pure _

end Socket.Endpoint

/-! ## Jobs -/

namespace Job

theorem onlyWarns_parseCron (expression : String) : (parseCron expression).OnlyWarns := by
  unfold parseCron
  dsimp only
  split
  · exact onlyWarns_remark rfl (onlyWarns_pure _)
  · exact onlyWarns_note_pure rfl _

theorem onlyWarns_unitSeconds (expression unit : String) :
    (unitSeconds expression unit).OnlyWarns := by
  unfold unitSeconds
  repeat' split
  · exact onlyWarns_pure _
  · exact onlyWarns_pure _
  · exact onlyWarns_pure _
  · exact onlyWarns_note_pure rfl _
  · exact onlyWarns_note_pure rfl _

theorem onlyWarns_parseInterval (expression : String) :
    (parseInterval expression).OnlyWarns := by
  unfold parseInterval
  dsimp only
  split
  · exact onlyWarns_note_pure rfl _
  · refine (onlyWarns_unitSeconds _ _).bind ?_
    split
    · exact onlyWarns_note_pure rfl _
    · exact onlyWarns_pure _

theorem onlyWarns_decorator (trigger : Trigger) (name : String) :
    (decorator trigger name).OnlyWarns := by
  cases trigger with
  | cron expression =>
      refine (onlyWarns_parseCron expression).bind ?_
      split
      · exact onlyWarns_pure _
      · exact onlyWarns_pure _
  | interval expression =>
      refine (onlyWarns_parseInterval expression).bind ?_
      split
      · exact onlyWarns_pure _
      · exact onlyWarns_pure _

theorem onlyWarns_ofMetadata (m : Metadata) (source : String) :
    (ofMetadata m source).OnlyWarns := by
  unfold ofMetadata
  split
  · exact onlyWarns_note_pure rfl _
  · exact onlyWarns_pure _
  · exact onlyWarns_pure _
  · exact onlyWarns_note_pure rfl _

theorem onlyWarns_generate (j : Job) (generated : Nat) :
    (j.generate generated).OnlyWarns := by
  unfold generate
  split
  · refine (onlyWarns_decorator _ _).bind ?_
    split
    · exact onlyWarns_pure _
    · exact onlyWarns_pure _
  · refine (onlyWarns_decorator _ _).bind ?_
    split
    · exact onlyWarns_pure _
    · exact onlyWarns_pure _

end Job

/-! ## Cells -/

namespace CellSpec

theorem stopsAtError_readMetadata (firstLine : Nat) (lines : List String) :
    (readMetadata firstLine lines).StopsAtError (· = none) := by
  unfold readMetadata
  split
  · exact (onlyWarns_pure _).stopsAtError
  · exact stopsAtError_note _ rfl

theorem stopsAtError_ofHttp (rest : String) (lines : List String) (body : String) :
    (ofHttp rest lines body).StopsAtError (· = none) := by
  unfold ofHttp
  dsimp only
  split
  · exact stopsAtError_note _ rfl
  · split
    · exact stopsAtError_note _ rfl
    · refine (stopsAtError_readMetadata _ _).andThen rfl fun m => ?_
      dsimp only
      split
      · exact stopsAtError_note _ rfl
      · refine OnlyWarns.stopsAtError
          ((Http.Endpoint.onlyWarns_ofMetadata _ _ m _).bind ?_)
        exact onlyWarns_pure _

theorem stopsAtError_ofSocket (path : String) (lines : List String) (body : String) :
    (ofSocket path lines body).StopsAtError (· = none) := by
  unfold ofSocket
  split
  · exact stopsAtError_note _ rfl
  · refine (stopsAtError_readMetadata _ _).andThen rfl fun m => ?_
    dsimp only
    split
    · exact stopsAtError_note _ rfl
    · refine (Socket.Endpoint.stopsAtError_ofMetadata _ m _).andThen rfl fun e => ?_
      exact (onlyWarns_pure _).stopsAtError

theorem stopsAtError_ofSchedule (rest : String) (lines : List String) (body : String) :
    (ofSchedule rest lines body).StopsAtError (· = none) := by
  refine (stopsAtError_readMetadata _ _).andThen rfl fun m => ?_
  dsimp only
  split
  · exact stopsAtError_note _ rfl
  · refine OnlyWarns.stopsAtError ((Job.onlyWarns_ofMetadata m _).bind ?_)
    exact onlyWarns_pure _

theorem stopsAtError_ofSource (source : String) :
    (ofSource source).StopsAtError (· = none) := by
  unfold ofSource
  split
  · exact (onlyWarns_pure _).stopsAtError
  · split
    · exact (onlyWarns_pure _).stopsAtError
    · exact stopsAtError_ofHttp _ _ _
    · exact stopsAtError_ofSocket _ _ _
    · exact stopsAtError_ofSchedule _ _ _

/-- An endpoint that gives up makes up no name, and a job never gives up. -/
theorem stopsAtError_generate (spec : CellSpec) (generated : Nat) :
    (spec.generate generated).StopsAtError (· = (none, generated)) := by
  cases spec with
  | passthrough source => exact (onlyWarns_pure _).stopsAtError
  | http e =>
      refine e.stopsAtError_generate.bind ?_ (onlyWarns_pure _).stopsAtError
      rintro _ rfl
      exact ⟨_, rfl, rfl⟩
  | socket e =>
      refine e.stopsAtError_generate.bind ?_ (onlyWarns_pure _).stopsAtError
      rintro _ rfl
      exact ⟨_, rfl, rfl⟩
  | scheduled job =>
      refine OnlyWarns.stopsAtError ((job.onlyWarns_generate generated).bind ?_)
      exact onlyWarns_pure _

end CellSpec

namespace Cell

theorem stopsAtError_compile (c : Cell) (generated : Nat) :
    (c.compile generated).StopsAtError (· = (.skipped, generated)) := by
  unfold compile
  split
  · refine (CellSpec.stopsAtError_ofSource c.source).bind ?_ ?_
    · rintro _ rfl
      exact ⟨_, rfl, rfl⟩
    · cases (CellSpec.ofSource c.source).value with
      | none => exact (onlyWarns_pure _).stopsAtError
      | some spec =>
          refine (spec.stopsAtError_generate generated).bind ?_ ?_
          · rintro _ rfl
            exact ⟨_, rfl, rfl⟩
          · split
            · exact (onlyWarns_pure _).stopsAtError
            · exact (onlyWarns_pure _).stopsAtError
  · exact (onlyWarns_pure _).stopsAtError

theorem compile_of_ignored {c : Cell} {generated : Nat}
    (h : (c.compile generated).value.1 = .ignored) :
    c.compile generated = pure (.ignored, generated) := by
  rcases c.value_compile generated with ⟨hc, -⟩ | ⟨-, -, hv⟩ | ⟨spec, -, -, hv⟩
  · unfold compile
    rw [hc]
    rfl
  · rw [hv] at h
    cases h
  · rw [hv] at h
    cases hg : (spec.generate generated).value.1 <;> rw [hg] at h <;> cases h

end Cell

/-! ## Diagnostics -/

theorem isError_ofFinding (index : Nat) (f : Finding) :
    (Diagnostic.ofFinding index f).isError = true ↔ f.severity = .error :=
  decide_eq_true_iff

theorem countP_isError_of_warnings {fs : List Finding}
    (h : ∀ f ∈ fs, f.severity = .warning) (index : Nat) :
    (fs.map (.ofFinding index)).countP Diagnostic.isError = 0 := by
  refine List.countP_eq_zero.2 fun d hd => ?_
  obtain ⟨f, hf, rfl⟩ := List.mem_map.1 hd
  rw [isError_ofFinding, h f hf]
  exact Severity.noConfusion

/-- A cell that an error is reported about is skipped, the error is the only one and the
last thing reported, and no name was made up for the cell.  About a cell that is ignored
nothing is reported, and it makes up no name either. -/
theorem error_means_skipped (c : Cell) (generated index : Nat) :
    let m := c.compile generated
    let ds := m.diagnostics index
    ((∃ d ∈ ds, d.severity = .error) →
      m.value = (.skipped, generated) ∧ ds.countP Diagnostic.isError = 1 ∧
        ∃ d ∈ ds.getLast?, d.severity = .error) ∧
    (m.value.1 = .ignored → ds = [] ∧ m.value.2 = generated) := by
  intro m ds
  constructor
  · rintro ⟨d, hd, he⟩
    obtain ⟨f, hf, rfl⟩ := List.mem_map.1 hd
    rcases c.stopsAtError_compile generated with hw | ⟨hv, before, e, hb, he', hw⟩
    · have hf' := hw f hf
      rw [show f.severity = .error from he] at hf'
      cases hf'
    · have hds : ds = before.map (.ofFinding index) ++ [.ofFinding index e] := by
        show (c.compile generated).findings.map _ = _
        rw [hb, List.map_append, List.map_singleton]
      have hlast : (Diagnostic.ofFinding index e).isError = true :=
        (isError_ofFinding index e).2 he'
      refine ⟨hv, ?_, .ofFinding index e, ?_, he'⟩
      · rw [hds, List.countP_append, countP_isError_of_warnings hw,
          List.countP_singleton, if_pos hlast]
      · rw [hds, List.getLast?_append, List.getLast?_singleton]
        rfl
  · intro hi
    have hm : m = pure (.ignored, generated) := Cell.compile_of_ignored hi
    exact ⟨by simp only [ds, hm]; rfl, by rw [hm]; rfl⟩

/-- A socket without a function, and a cell of text. -/
theorem error_means_skipped_socket :
    let c : Cell := ⟨.code, "# @WS /ws\nuser = 1"⟩
    let t : Cell := ⟨.markdown, "# Users"⟩
    (∃ d ∈ (c.compile 3).diagnostics 0, d.severity = .error) ∧
      (c.compile 3).value = (.skipped, 3) ∧
      (t.compile 3).value.1 = .ignored ∧ (t.compile 3).diagnostics 1 = [] := by
  intro c t
  have hc : ∃ d ∈ (c.compile 3).diagnostics 0, d.severity = .error := by decide +kernel
  have ht : (t.compile 3).value.1 = .ignored := rfl
  exact ⟨hc, ((error_means_skipped c 3 0).1 hc).1, ht,
    ((error_means_skipped t 3 1).2 ht).1⟩

end NotebookService
