/-
# `NotebookService.Proofs.Project.Laid` — when a build succeeds, and what it leaves

A build is stopped by what is in its way: a file where it makes a directory, or a
directory where it writes a file.  `Clear` says that nothing is.  A build that has its
survey succeeds exactly then, with one report and one disk (`runs_building_iff`).  That
disk is `Laid`: its directories are those that were there and those that were made, and
each file holds what was written to it last.

For every part of a build there is one lemma that says when it succeeds and what has
been laid then (`Does`).  A directory is listed before what is in it, so a file is
always written into a directory that has been made.
-/
import NotebookService.Proofs.Project.Reached

namespace NotebookService.Project

open NotebookService.Files

variable {c : Config} {d e e' : Disk} {p q r : Place} {path name : String}
  {content : Content}

theorem asksForDirectory_target (hne : p ≠ []) (hp : ∀ n ∈ p, IsName n) :
    Path.asksForDirectory (c.target p) = false := by
  rw [Config.target, Path.asksForDirectory_join _ (Place.isAbsolute_text hp),
    Place.asksForDirectory_text hne hp]

/-! ## What is in the way -/

namespace Survey

variable (s : Survey c d)

/-- No directory is in the way of a file at this place, neither one that was there nor
one that the build makes. -/
def Free (dirs : List Place) (p : Place) : Prop :=
  ¬ (prepared c d).root.HasDir (s.target ++ p) ∧ ∀ r ∈ dirs, ¬ p <+: r

/-- All that a build writes below its directory. -/
def writes : List (Place × Content) := s.copies ++ s.laterWrites

/-- Nothing is in the way of a build: no file of what it makes a directory, and no
directory of what it writes. -/
structure Clear : Prop where
  dirs : ∀ r ∈ s.listing.dirs, ∀ p, p <+: r →
    (prepared c d).root.file? (s.target ++ p) = none
  writes : ∀ w ∈ s.writes, s.Free s.listing.dirs w.1

def report : Report := .ofAttempts s.listing.files.length s.attempts

end Survey

/-! ## What has been laid -/

/-- The disk after some directories were made and some files written below
the build directory. -/
structure Laid (s : Survey c d) (dirs : List Place) (writes : List (Place × Content))
    (e : Disk) : Prop
    extends Reached s writes e where
  wellFormed : e.WellFormed
  hasDir_iff : ∀ q, e.root.HasDir q ↔
    (prepared c d).root.HasDir q ∨ ∃ r ∈ dirs, ∃ p, p <+: r ∧ q = s.target ++ p

namespace Laid

variable {s : Survey c d} {dirs : List Place} {writes : List (Place × Content)}

theorem nil (hd : d.WellFormed) (s : Survey c d) : Laid s [] [] (prepared c d) where
  toReached := .nil s
  wellFormed := wellFormed_prepared c hd
  hasDir_iff := fun _ => ⟨.inl, fun h => h.resolve_right (by simp)⟩

theorem unique (h : Laid s dirs writes e) (h' : Laid s dirs writes e') : e = e' := by
  have hroot : e.root = e'.root := by
    refine Node.ext_of_look h.wellFormed.root h'.wellFormed.root fun q =>
      Node.look_eq_of_file? ?_ ?_
    · by_cases hq : s.target <+: q
      · obtain ⟨p, rfl⟩ := hq
        rw [h.inside, h'.inside]
      · rw [h.outside q hq, h'.outside q hq]
    · rw [h.hasDir_iff, h'.hasDir_iff]
  have hcwd := h.cwd_eq.trans h'.cwd_eq.symm
  cases e
  cases e'
  exact congr (congrArg Disk.mk hroot) hcwd

theorem not_hasDir_iff (h : Laid s dirs writes e) :
    ¬ e.root.HasDir (s.target ++ p) ↔ s.Free dirs p := by
  rw [h.hasDir_iff, not_or, Survey.Free]
  refine and_congr_right fun _ => ?_
  constructor
  · intro hn r hr hp
    exact hn ⟨r, hr, p, hp, rfl⟩
  · rintro hn ⟨r, hr, q, hq, he⟩
    rw [List.append_cancel_left he] at hn
    exact hn r hr hq

theorem hasDir_target (h : Laid s dirs writes e) (hd : d.WellFormed) :
    e.root.HasDir s.target :=
  h.hasDir _ (s.hasDir_target hd)

theorem place_eq (h : Laid s dirs writes e) (hd : d.WellFormed) (hb : Below c path p)
    (hne : p ≠ []) (hp : p.dropLast = [] ∨ p.dropLast ∈ dirs) :
    e.place path = .ok (s.target ++ p) := by
  have hdir : e.root.HasDir (s.target ++ p.dropLast) := by
    rcases hp with hp | hp
    · rw [hp, List.append_nil]
      exact h.hasDir_target hd
    · exact (h.hasDir_iff _).2 (.inr ⟨_, hp, _, List.prefix_refl _, rfl⟩)
  have hlast := List.dropLast_concat_getLast hne
  have hnames : ∀ n ∈ p.dropLast, IsName n :=
    fun n hn => hb.names n (List.dropLast_subset p hn)
  have hup : p.getLast hne ≠ ".." := (hb.names _ (List.getLast_mem hne)).ne_up
  have hfollow : Disk.follow e.root s.target p.dropLast =
      .ok (s.target ++ p.dropLast) := by
    refine Disk.follow_of_look hnames ?_
    rw [hdir]
    exact Option.some_ne_none none
  rw [h.place_below hb]
  conv_lhs => rw [← hlast]
  rw [Disk.follow_append, hfollow]
  show Disk.follow e.root (s.target ++ p.dropLast) [p.getLast hne] = _
  rw [Disk.follow_cons hdir, if_neg hup, List.append_assoc, hlast]
  rfl

/-! ## Steps -/

theorem wrote (h : Laid s dirs writes e) (hw : Disk.Wrote e (s.target ++ p) content e')
    (hwf : e'.WellFormed) :
    Laid s dirs (writes ++ [(p, content)]) e' where
  toReached := h.toReached.wrote hw
  wellFormed := hwf
  hasDir_iff := fun q => (hw.hasDir_iff q).trans (h.hasDir_iff q)

theorem makeDirs_target (h : Laid s dirs writes e) (hd : d.WellFormed)
    (hr : ∀ n ∈ r, IsName n) :
    e.makeDirs (c.target r) = ((Disk.makeSteps e.root s.target r).1,
      { e with root := (Disk.makeSteps e.root s.target r).2 }) := by
  have hb := below_target s.buildDir_ne hr
  have hstart : e.start (c.target r) = (prepared c d).start c.buildDir := by
    rw [Disk.start, Disk.start, hb.isAbsolute_eq, h.cwd_eq]
  have hfollow := Disk.follow_mono h.hasDir s.follow_target
  rw [Disk.makeDirs, hstart, hb.steps_eq,
    Disk.makeSteps_append_of_follow hfollow (h.hasDir_target hd)]

theorem does_makeDirs (hd : d.WellFormed) (hr : ∀ n ∈ r, IsName n) :
    Does (makeDirs (c.target r)) (Laid s dirs [])
      (∀ p, p <+: r → (prepared c d).root.file? (s.target ++ p) = none)
      (Laid s (dirs ++ [r]) []) where
  exists_iff := by
    intro e h
    have hfile : ∀ p, e.root.file? (s.target ++ p) =
        (prepared c d).root.file? (s.target ++ p) := h.inside
    rw [exists_runs_makeDirs_iff, h.makeDirs_target hd hr,
      Disk.makeSteps_ok_iff (h.hasDir_target hd) hr]
    simp only [hfile]
  post := by
    intro e e' h hrun
    have hmake := runs_makeDirs_iff.1 hrun
    have hreached := h.toReached.makeDirs (c.target r)
    have hwf := h.wellFormed.makeDirs (c.target r)
    rw [hmake] at hreached hwf
    refine ⟨hreached, hwf, fun q => ?_⟩
    rw [h.makeDirs_target hd hr] at hmake
    obtain ⟨hok, rfl⟩ := Prod.mk.inj hmake
    show (Disk.makeSteps e.root s.target r).2.HasDir q ↔ _
    rw [Disk.hasDir_makeSteps_iff (h.hasDir_target hd) hr hok, h.hasDir_iff, or_assoc]
    refine or_congr_right ?_
    simp only [List.mem_append, List.mem_singleton, or_and_right, exists_or,
      exists_eq_left]

theorem does_writeText {text : String} (hd : d.WellFormed) (hb : Below c path p)
    (hne : p ≠ []) (ha : Path.asksForDirectory path = false)
    (hp : p.dropLast = [] ∨ p.dropLast ∈ dirs) :
    Does (writeText path text) (Laid s dirs writes) (s.Free dirs p)
      (Laid s dirs (writes ++ [(p, text.toUTF8)])) where
  exists_iff := by
    intro e h
    rw [← h.not_hasDir_iff, ← Disk.exists_write_iff (h.place_eq hd hb hne hp) ha]
    simp only [writeText, runs_change_iff]
    rfl
  post := by
    intro e e' h hrun
    obtain ⟨place, hplace, hw, hwf⟩ := h.wellFormed.exists_wrote (runs_change_iff.1 hrun)
    rw [h.place_eq hd hb hne hp] at hplace
    cases hplace
    exact h.wrote hw hwf

theorem does_copyFile (hd : d.WellFormed) (hf : s.HasFile p content)
    (hp : p.dropLast = [] ∨ p.dropLast ∈ dirs) :
    Does (copyFile c p) (Laid s dirs writes) (s.Free dirs p)
      (Laid s dirs (writes ++ [(p, content)])) where
  exists_iff := by
    intro e h
    have hb := below_target s.buildDir_ne hf.names
    have ha := asksForDirectory_target (c := c) hf.ne_nil hf.names
    have hne : s.source ++ p ≠ s.target ++ p :=
      fun he => hf.outside (he ▸ List.prefix_append s.target p)
    obtain ⟨hplace, hlook⟩ := h.look_origin hf
    rw [← h.not_hasDir_iff, ← Disk.exists_copy_iff h.wellFormed hplace hlook
      (Survey.asksForDirectory_origin hf) (h.place_eq hd hb hf.ne_nil hp) ha hne]
    simp only [copyFile, runs_change_iff]
  post := by
    intro e e' h hrun
    obtain ⟨place, other, -, hw, hwf⟩ :=
      h.wellFormed.exists_wrote_of_copy (runs_change_iff.1 hrun)
    exact ⟨h.toReached.copyFile hf hrun, hwf,
      fun q => (hw.hasDir_iff q).trans (h.hasDir_iff q)⟩

/-! ## Loops -/

theorem does_dirs (hd : d.WellFormed) (s : Survey c d) :
    Does (s.listing.dirs.forM fun place => Project.makeDirs (c.target place))
      (Laid s [] [])
      (∀ r ∈ s.listing.dirs, ∀ p, p <+: r →
        (prepared c d).root.file? (s.target ++ p) = none)
      (Laid s s.listing.dirs []) := by
  have hstep := Does.forM (fun dirs => Laid s dirs []) (fun r => [r]) (fun r hr _ =>
    does_makeDirs hd (s.names_of_mem_list (k := .dir) hd hr).2) []
  rwa [List.nil_append, List.flatMap_singleton'] at hstep

theorem does_files (hd : d.WellFormed) (hs : ¬ s.target <+: s.source) :
    Does (s.listing.files.forM (Project.copyFile c)) (Laid s s.listing.dirs [])
      (∀ p ∈ s.listing.files, s.Free s.listing.dirs p)
      (Laid s s.listing.dirs s.copies) := by
  rw [Survey.copies, List.map_eq_flatMap]
  exact Does.forM (Laid s s.listing.dirs) (fun p => [(p, s.bytes p)]) (fun p hp before =>
    does_copyFile hd (s.hasFile_of_mem_files hd hs p hp)
      (s.dropLast_mem_dirs (k := .file) hd hp)) []

theorem does_writeModule (hd : d.WellFormed) {a : Attempt} (ha : a ∈ s.attempts) :
    Does (writeModule c a) (Laid s s.listing.dirs writes)
      (∀ w ∈ Survey.moduleWrite a, s.Free s.listing.dirs w.1)
      (Laid s s.listing.dirs (writes ++ Survey.moduleWrite a)) := by
  obtain ⟨p, hp, rfl⟩ := List.mem_map.1 ha
  obtain ⟨hne, hnames⟩ := s.names_of_mem_list (k := .notebook) hd hp
  obtain ⟨hne, hnames⟩ := names_modulePlace hne hnames
  have hdir : (modulePlace p).dropLast = [] ∨
      (modulePlace p).dropLast ∈ s.listing.dirs := by
    rw [dropLast_modulePlace]
    exact s.dropLast_mem_dirs (k := .notebook) hd hp
  rw [writeModule, Survey.moduleWrite]
  cases (⟨p, compileFile (prepared c d) (c.origin p)⟩ : Attempt).module? with
  | none =>
      rw [Option.map_none, Option.toList_none, List.append_nil]
      refine ⟨fun e _ => iff_of_true ⟨e, rfl⟩ (List.forall_mem_nil _), ?_⟩
      intro e e' h hrun
      obtain ⟨-, rfl⟩ := runs_pure hrun
      exact h
  | some m =>
      rw [Option.map_some, Option.toList_some, List.forall_mem_singleton]
      exact does_writeText hd (below_target s.buildDir_ne hnames) hne
        (asksForDirectory_target hne hnames) hdir

theorem does_writePackage (hd : d.WellFormed) (hp : p ∈ packages s.attempts) :
    Does (writePackage c p) (Laid s s.listing.dirs writes)
      (s.Free s.listing.dirs (p ++ [packageFile]))
      (Laid s s.listing.dirs (writes ++ [(p ++ [packageFile], "".toUTF8)])) := by
  obtain ⟨a, ha, rfl⟩ := exists_of_mem_packages hp
  obtain ⟨q, hq, rfl⟩ := List.mem_map.1 ha
  have hnames := fun n hn =>
      (s.names_of_mem_list (k := .notebook) hd hq).2 n (List.dropLast_subset q hn)
  refine does_writeText hd ((below_target s.buildDir_ne hnames).join isName_packageFile)
    (by simp) ?_ ?_
  · rw [Path.asksForDirectory_join _ isName_packageFile.isAbsolute_eq,
      isName_packageFile.asksForDirectory_eq]
  · rw [List.dropLast_concat]
    exact s.dropLast_mem_dirs (k := .notebook) hd hq

theorem does_support (hd : d.WellFormed) :
    Does (Project.writeText (Path.join c.buildDir supportModuleName) supportModule)
      (Laid s dirs writes)
      (s.Free dirs [supportModuleName])
      (Laid s dirs (writes ++ [([supportModuleName], supportModule.toUTF8)])) := by
  refine does_writeText hd ((below_buildDir s.buildDir_ne).join isName_supportModuleName)
    (by simp) ?_ (.inl rfl)
  rw [Path.asksForDirectory_join _ isName_supportModuleName.isAbsolute_eq,
    isName_supportModuleName.asksForDirectory_eq]

theorem does_modules (hd : d.WellFormed) :
    Does (s.attempts.forM (Project.writeModule c)) (Laid s s.listing.dirs writes)
      (∀ a ∈ s.attempts, ∀ w ∈ Survey.moduleWrite a, s.Free s.listing.dirs w.1)
      (Laid s s.listing.dirs (writes ++ s.attempts.flatMap Survey.moduleWrite)) :=
  Does.forM (Laid s s.listing.dirs) Survey.moduleWrite
    (fun _ ha _ => does_writeModule hd ha) writes

theorem does_packages (hd : d.WellFormed) :
    Does ((packages s.attempts).forM (Project.writePackage c))
      (Laid s s.listing.dirs writes)
      (∀ p ∈ packages s.attempts, s.Free s.listing.dirs (p ++ [packageFile]))
      (Laid s s.listing.dirs
        (writes ++ (packages s.attempts).map fun place => (place ++ [packageFile],
          "".toUTF8))) := by
  rw [List.map_eq_flatMap]
  exact Does.forM (Laid s s.listing.dirs) (fun p => [(p ++ [packageFile], "".toUTF8)])
    (fun _ hp _ => does_writePackage hd hp) writes

end Laid

/-! ## The whole build -/

theorem Survey.forall_mem_writes (s : Survey c d) (ok : Place → Prop) :
    (∀ w ∈ s.writes, ok w.1) ↔
    (∀ p ∈ s.listing.files, ok p) ∧
      (∀ a ∈ s.attempts, ∀ w ∈ Survey.moduleWrite a, ok w.1) ∧
      (∀ p ∈ packages s.attempts, ok (p ++ [packageFile])) ∧ ok [supportModuleName] := by
  simp only [writes, copies, laterWrites, List.forall_mem_append, List.forall_mem_map,
    List.forall_mem_singleton, List.forall_mem_flatMap, and_assoc]

namespace Survey

variable (s : Survey c d)

theorem writes_eq : s.writes = s.copies ++ s.attempts.flatMap moduleWrite ++
    (packages s.attempts).map (fun place => (place ++ [packageFile], "".toUTF8)) ++
    [([supportModuleName], supportModule.toUTF8)] := by
  simp only [writes, laterWrites, List.append_assoc]

end Survey

/-- When a build succeeds nothing was in its way, and all was laid. -/
theorem laid_of_runs {report : Report} (hd : d.WellFormed) (s : Survey c d)
    (hs : ¬ s.target <+: s.source) (h : Runs (building c) d report e) :
    report = s.report ∧ s.Clear ∧ Laid s s.listing.dirs s.writes e := by
  obtain ⟨s', d₁, d₂, d₃, d₄, hdirs, hfiles, hmodules, hpackages, hsupport, hreport⟩ :=
    exists_survey_of_runs h
  obtain rfl := Subsingleton.elim s s'
  have h₀ := Laid.nil hd s
  have h₁ := (Laid.does_dirs hd s).post _ _ h₀ hdirs
  have h₂ := (Laid.does_files hd hs).post _ _ h₁ hfiles
  rw [h₂.attempts_eq (s.hasFile_of_mem_notebooks hd hs)] at hmodules hpackages hreport
  have h₃ := (Laid.does_modules hd).post _ _ h₂ hmodules
  have h₄ := (Laid.does_packages hd).post _ _ h₃ hpackages
  refine ⟨hreport, ⟨?_, ?_⟩, ?_⟩
  · exact ((Laid.does_dirs hd s).exists_iff _ h₀).1 ⟨_, hdirs⟩
  · rw [s.forall_mem_writes]
    exact ⟨((Laid.does_files hd hs).exists_iff _ h₁).1 ⟨_, hfiles⟩,
      ((Laid.does_modules hd).exists_iff _ h₂).1 ⟨_, hmodules⟩,
      ((Laid.does_packages hd).exists_iff _ h₃).1 ⟨_, hpackages⟩,
      ((Laid.does_support hd).exists_iff _ h₄).1 ⟨_, hsupport⟩⟩
  · rw [s.writes_eq]
    exact (Laid.does_support hd).post _ _ h₄ hsupport

end NotebookService.Project
