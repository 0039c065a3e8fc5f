/-
# `NotebookService.Proofs.Project.Copied` — the files that are there at the end

A build copies every file that is no notebook and then goes on writing to the same tree:
a module for every notebook, a file for every package, the support module.  None of
these writers asks whether a copy is in its place.  So a copied file ends up with the
bytes of its source exactly when the last writer that came later to its place, if any,
wrote the same bytes.
-/
import Mathlib.Data.List.Permutation
import NotebookService.Proofs.Project.Laid

namespace NotebookService.Project

open NotebookService.Files

variable {c : Config} {d e e' : Disk} {p q : Place} {path name : String}
  {content : Content}

/-! ## Copies and what was written over them -/

theorem exists_reached_of_runs {report : Report} (hd : d.WellFormed)
    (h : Runs (building c) d report e) :
    ∃ s : Survey c d, ¬ s.target <+: s.source →
      (∀ p ∈ s.listing.files, s.HasFile p (s.bytes p)) ∧
      Reached s (s.copies ++ s.laterWrites) e := by
  obtain ⟨s, -⟩ := exists_survey_of_runs h
  refine ⟨s, fun hs => ?_⟩
  obtain ⟨-, -, hlaid⟩ := laid_of_runs hd s hs h
  exact ⟨s.hasFile_of_mem_files hd hs, hlaid.toReached⟩

/-- When a build succeeds, a file that it copied has the bytes of its source if and only
if the last of the later writes to its place, if there is one, wrote these bytes.  The
build directory must not be the source directory or above it. -/
theorem build_keeps_iff {report : Report} (hd : d.WellFormed)
    (h : build c d = (.ok report, e)) :
    ∃ s : Survey c d, ¬ s.target <+: s.source → ∀ p ∈ s.listing.files, ∃ content,
      d.root.file? (s.source ++ p) = some content ∧
        (e.root.file? (s.target ++ p) = some content ↔
          ∀ later ∈ s.laterWrites.reverse.lookup p, later = content) := by
  obtain ⟨s, hs⟩ := exists_reached_of_runs hd h
  refine ⟨s, fun hne p hp => ?_⟩
  obtain ⟨hcopied, hr⟩ := hs hne
  have hf := hcopied p hp
  refine ⟨s.bytes p, ?_, ?_⟩
  · rw [← (Disk.addsDirs_makeDirs d c.buildDir).file?_eq,
      Node.file?_eq_some, ← Node.look_eq_file]
    exact hf.look_eq
  · rw [hr.inside p, List.reverse_append, List.lookup_append, s.lookup_copies hp]
    cases s.laterWrites.reverse.lookup p with
    | none => simp
    | some later => simp

/-! ## A package file of its own -/

/-- A directory with a notebook and a file in the place where a build puts the
file of its package. -/
def packageDir : Node :=
  .dir [("__init__.py", .file "keep".toUTF8),
    ("n.ipynb", .file "\x7b\"cells\":[]\x7d".toUTF8)]

/-- A project that is this directory. -/
def packaged : Disk := ⟨.dir [("p", .dir [("k", packageDir)])], []⟩

def packagedConfig : Config := .ofSource "p"

def packagedListing : Listing := ⟨[["k"]], [["k", "n.ipynb"]], [["k", "__init__.py"]]⟩

theorem wellFormed_packaged : packaged.WellFormed where
  root := by
    have hfiles : packageDir.WellFormed := by
      refine .dir (by decide) (by decide) ?_
      exact List.forall_mem_cons.2 ⟨.file _, List.forall_mem_singleton.2 (.file _)⟩
    have hk : (Node.dir [("k", packageDir)]).WellFormed :=
      .dir (by decide) (by decide) (List.forall_mem_singleton.2 hfiles)
    exact .dir (by decide) (by decide) (List.forall_mem_singleton.2 hk)
  cwd := rfl

theorem rules_packaged : readRules packaged packagedConfig.ignorePath = .ok .empty :=
  if_neg (by decide +kernel)

theorem survey_packaged (s : Survey packagedConfig packaged) :
    s.source = ["p"] ∧ s.target = ["p", "build"] ∧ s.listing = packagedListing :=
  s.eq_of_toOption rules_packaged (by decide +kernel) (by decide +kernel)

theorem ofText_noCells : Notebook.ofText "\x7b\"cells\":[]\x7d" = .ok ⟨0, []⟩ := by cbv

theorem succeeds_packaged : Succeeds (building packagedConfig) packaged fun e =>
    e.root.file? ["p", "build", "k", "__init__.py"] = some "".toUTF8 := by
  refine succeeds_get_bind ?_
  rw [rules_packaged]
  refine succeeds_bind .empty rfl ?_
  refine succeeds_bind () (by decide +kernel) ?_
  refine succeeds_bind packagedListing (by decide +kernel) ?_
  refine succeeds_bind () (by decide +kernel) ?_
  refine succeeds_bind () (by decide +kernel) ?_
  -- the copy is there; now the notebook is compiled, and its package gets its file
  refine succeeds_get_bind ?_
  rw [packagedListing, List.map_singleton, compileFile_of_readText ofText_noCells ?read]
  case read => decide +kernel
  refine succeeds_bind () (by decide +kernel) ?_
  refine succeeds_bind () (by decide +kernel) ?_
  refine succeeds_bind () (by decide +kernel) ?_
  exact succeeds_pure (by decide +kernel)

theorem build_keeps_iff_packaged : packaged.WellFormed ∧ ∃ report e,
    build packagedConfig packaged = (.ok report, e) ∧
      ∃ s : Survey packagedConfig packaged,
      (e.root.file? ["p", "build", "k", "__init__.py"] = some "keep".toUTF8 ↔
        ∀ later ∈ s.laterWrites.reverse.lookup ["k", "__init__.py"], later =
          "keep".toUTF8) := by
  obtain ⟨report, e, hr, -⟩ := succeeds_packaged
  refine ⟨wellFormed_packaged, report, e, hr, ?_⟩
  obtain ⟨s, hs⟩ := build_keeps_iff wellFormed_packaged hr
  obtain ⟨hsource, htarget, hlisting⟩ := survey_packaged s
  rw [hsource, htarget, hlisting] at hs
  obtain ⟨content, hc, hk⟩ := hs (by decide) ["k", "__init__.py"] (by decide)
  have hkeep : packaged.root.file? (["p"] ++ ["k", "__init__.py"]) =
      some "keep".toUTF8 := by decide +kernel
  rw [hkeep] at hc
  cases hc
  exact ⟨s, hk⟩

/-- The file of a package is written over a file that was copied. -/
theorem package_file_not_kept :
    ∃ (s : Survey packagedConfig packaged) (report : Report) (e : Disk),
    build packagedConfig packaged = (.ok report, e) ∧ ¬ s.target <+: s.source ∧
      ["k", "__init__.py"] ∈ s.listing.files ∧
      packaged.root.file? (s.source ++ ["k", "__init__.py"]) = some "keep".toUTF8 ∧
      e.root.file? (s.target ++ ["k", "__init__.py"]) = some "".toUTF8 := by
  obtain ⟨report, e, hr, he⟩ := succeeds_packaged
  obtain ⟨s, -⟩ := exists_survey_of_runs hr
  obtain ⟨hsource, htarget, hlisting⟩ := survey_packaged s
  refine ⟨s, report, e, hr, ?_⟩
  rw [hsource, htarget, hlisting]
  exact ⟨by decide, by decide, by decide +kernel, he⟩

end NotebookService.Project
