/-
# `NotebookService.Proofs.Project.Removed` — a notebook that cannot be read

Two builds are compared, one of a project and one of the same project without a notebook
that cannot be read.  The second one has the survey of the first less the notebook
(`Survey.Without`): nothing else is listed otherwise, since only one file is missing.  A
notebook without a module writes nothing, so both builds have the same writes, and what
is in the way of the one is in the way of the other.

The ignore file must be another file.  A text can be rules and have a notebook's name.
-/
import NotebookService.Proofs.Files.Removing
import NotebookService.Proofs.Project.Copied
import NotebookService.Proofs.Project.Rebuilt

namespace NotebookService.Project

open NotebookService.Files

variable {c : Config} {d e e' : Disk} {p q : Place} {report : Report} {err : ProjectError}

/-! ## The survey without the notebook -/

namespace Survey

variable {s : Survey c d} {k k' : Listing.Kind}

theorem kind_unique (hd : d.WellFormed) (h : p ∈ s.listing.list k)
    (h' : p ∈ s.listing.list k') : k = k' := by
  obtain ⟨found, hl, hk⟩ := (s.mem_list_iff hd).1 h
  obtain ⟨found', hl', hk'⟩ := (s.mem_list_iff hd).1 h'
  rw [hl] at hl'
  cases hl'
  exact Option.some.inj (hk.symm.trans hk')

/-- The survey of the project without one of its notebooks, which comes
between these others. -/
structure Without (s : Survey c d) (p : Place) (s' : Survey c (d.without (s.source ++ p)))
    (earlier later : List Place) : Prop where
  wellFormed : (d.without (s.source ++ p)).WellFormed
  lacks : Lacks (prepared c d).root (prepared c (d.without (s.source ++ p))).root
    (s.source ++ p)
  source_eq : s'.source = s.source
  target_eq : s'.target = s.target
  dirs_eq : s'.listing.dirs = s.listing.dirs
  files_eq : s'.listing.files = s.listing.files
  notebooks_eq : s.listing.notebooks = earlier ++ p :: later
  others_eq : s'.listing.notebooks = earlier ++ later
  earlier_lt : ∀ q ∈ earlier, q < p
  lt_later : ∀ q ∈ later, p < q

end Survey

/-! ## What an attempt without a module adds -/

section Attempts

variable {a : Attempt} {earlier later : List Attempt}

theorem moduleWrite_eq_nil (h : a.module? = none) : Survey.moduleWrite a = [] := by
  rw [Survey.moduleWrite, h]
  rfl

theorem flatMap_moduleWrite_of_none (h : a.module? = none) :
    (earlier ++ a :: later).flatMap Survey.moduleWrite =
      (earlier ++ later).flatMap Survey.moduleWrite := by
  rw [List.flatMap_append, List.flatMap_cons, moduleWrite_eq_nil h, List.nil_append,
    List.flatMap_append]

theorem packages_of_none (h : a.module? = none) :
    packages (earlier ++ a :: later) = packages (earlier ++ later) := by
  rw [packages, packages, List.filter_append, List.filter_cons, h]
  rw [List.filter_append]
  rfl

end Attempts

/-! ## Building without the notebook -/

namespace Survey.Without

variable {s : Survey c d} {s' : Survey c (d.without (s.source ++ p))}
  {earlier later : List Place}

theorem not_prefix (h : s.Without p s' earlier later) (hs : ¬ s.target <+: s.source) :
    ¬ s'.target <+: s'.source := by rwa [h.target_eq, h.source_eq]

theorem bytes_eq (h : s.Without p s' earlier later) (hq : q ≠ p) :
    s'.bytes q = s.bytes q := by
  have hne : s.source ++ q ≠ s.source ++ p := fun he => hq (List.append_cancel_left he)
  rw [Survey.bytes, Survey.bytes, h.source_eq, h.lacks.file?_eq hne]

theorem ne_of_mem_files (hd : d.WellFormed) (h : s.Without p s' earlier later)
    (hq : q ∈ s.listing.files) :
    q ≠ p := by
  rintro rfl
  have hp : q ∈ s.listing.list .notebook := by
    show q ∈ s.listing.notebooks
    rw [h.notebooks_eq]
    exact List.mem_append_right earlier List.mem_cons_self
  cases kind_unique (k := .file) hd hq hp

theorem ne_of_mem_others (h : s.Without p s' earlier later) (hq : q ∈ earlier ++ later) :
    q ≠ p := by
  rintro rfl
  rcases List.mem_append.1 hq with hq | hq
  · exact List.lt_irrefl q (h.earlier_lt q hq)
  · exact List.lt_irrefl q (h.lt_later q hq)

theorem copies_eq (hd : d.WellFormed) (h : s.Without p s' earlier later) :
    s'.copies = s.copies := by
  rw [Survey.copies, Survey.copies, h.files_eq]
  exact List.map_congr_left fun q hq => by rw [h.bytes_eq (h.ne_of_mem_files hd hq)]

theorem compileFile_eq (hd : d.WellFormed) (hs : ¬ s.target <+: s.source)
    (h : s.Without p s' earlier later) (hq : q ∈ earlier ++ later) :
    compileFile (prepared c (d.without (s.source ++ p))) (c.origin q) =
      compileFile (prepared c d) (c.origin q) := by
  have hmem : q ∈ s.listing.notebooks := by
    rw [h.notebooks_eq]
    exact ((List.sublist_cons_self p later).append_left earlier).subset hq
  have hread := (Reached.nil s).read_origin (s.hasFile_of_mem_notebooks hd hs q hmem)
  have hread' := (Reached.nil s').read_origin
    (s'.hasFile_of_mem_notebooks h.wellFormed (h.not_prefix hs) q (h.others_eq ▸ hq))
  rw [compileFile_congr
    (hread'.trans (by rw [h.bytes_eq (h.ne_of_mem_others hq), hread]))]

theorem exists_attempts (hd : d.WellFormed) (hs : ¬ s.target <+: s.source)
    (h : s.Without p s' earlier later) :
    ∃ before behind, s.attempts =
      before ++ ⟨p, compileFile (prepared c d) (c.origin p)⟩ :: behind ∧
      s'.attempts = before ++ behind ∧ before.map (·.place) = earlier ∧
      behind.map (·.place) = later := by
  let attempt (q : Place) : Attempt := ⟨q, compileFile (prepared c d) (c.origin q)⟩
  refine ⟨earlier.map attempt, later.map attempt, ?_, ?_, ?_, ?_⟩
  · rw [Survey.attempts, h.notebooks_eq, List.map_append, List.map_cons]
  · rw [Survey.attempts, h.others_eq, ← List.map_append]
    exact List.map_congr_left fun q hq => by rw [h.compileFile_eq hd hs hq]
  · rw [List.map_map]
    exact List.map_id _
  · rw [List.map_map]
    exact List.map_id _

/-- What a notebook writes that is not compiled is nothing. -/
theorem writes_eq (hd : d.WellFormed) (hs : ¬ s.target <+: s.source)
    (h : s.Without p s' earlier later)
    (hbroken : compileFile (prepared c d) (c.origin p) = .error err) :
    s'.writes = s.writes := by
  obtain ⟨before, behind, hall, hothers, -, -⟩ := h.exists_attempts hd hs
  have hnone : (Attempt.mk p (compileFile (prepared c d) (c.origin p))).module? =
      none := by
    rw [Attempt.module?, hbroken]
    rfl
  rw [Survey.writes, Survey.writes, h.copies_eq hd, Survey.laterWrites,
    Survey.laterWrites, hall, hothers, flatMap_moduleWrite_of_none hnone,
    packages_of_none hnone]

end Survey.Without

end NotebookService.Project
