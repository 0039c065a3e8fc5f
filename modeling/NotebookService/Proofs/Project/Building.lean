/-
# `NotebookService.Proofs.Project.Building` — a build that succeeds, step by step

A build is a sequence of changes of a disk, and the first one that fails ends it.
`Runs` says that a part of it succeeds: from this disk, with this result, to that
disk.  A sequence that succeeds is taken apart into its parts, and for each part
there is one lemma about what it means that it succeeded, so that no other proof has
to open the monad.
-/
import NotebookService.Proofs.Files.Disk
import NotebookService.Project.Build

namespace NotebookService.Project

open NotebookService.Files

variable {α β : Type} {d d' : Disk}

/-- The part succeeds with a result and leaves a disk. -/
def Runs (x : Building α) (d : Disk) (a : α) (d' : Disk) : Prop := x.run d = (.ok a, d')

theorem exists_of_runs_bind {x : Building α} {f : α → Building β} {b : β}
    (h : Runs (x >>= f) d b d') :
    ∃ a e, Runs x d a e ∧ Runs (f a) e b d' := by
  have hb : (x >>= f).run d = ExceptT.bindCont f (x.run d).1 (x.run d).2 := rfl
  unfold Runs at h ⊢
  rw [hb] at h
  rcases hx : x.run d with ⟨r, e⟩
  rw [hx] at h
  cases r with
  | error r => cases h
  | ok a => exact ⟨a, e, rfl, h⟩

theorem runs_bind {x : Building α} {f : α → Building β} {a : α} {b : β} {e : Disk}
    (hx : Runs x d a e) (hf : Runs (f a) e b d') : Runs (x >>= f) d b d' := by
  show ExceptT.bindCont f (x.run d).1 (x.run d).2 = _
  rw [hx]
  exact hf

theorem runs_get_bind {f : Disk → Building β} {b : β} (h : Runs (f d) d b d') :
    Runs (get >>= f) d b d' := h

theorem runs_lift_bind {x : Except ProjectError α} {f : α → Building β} {a : α} {b : β}
    (hx : x = .ok a) (hf : Runs (f a) d b d') : Runs (liftM x >>= f) d b d' := by
  rw [hx]
  exact hf

theorem runs_pure {a b : α} (h : Runs (pure a) d b d') : b = a ∧ d' = d := by
  cases h
  exact ⟨rfl, rfl⟩

theorem run_get_bind (f : Disk → Building β) (d : Disk) :
    (get >>= f).run d = (f d).run d := rfl

theorem runs_of_get_bind {f : Disk → Building β} {b : β} (h : Runs (get >>= f) d b d') :
    Runs (f d) d b d' := h

theorem exists_of_runs_lift_bind {x : Except ProjectError α} {f : α → Building β} {b : β}
    (h : Runs (liftM x >>= f) d b d') : ∃ a, x = .ok a ∧ Runs (f a) d b d' := by
  cases x with
  | error e => cases h
  | ok a => exact ⟨a, rfl, h⟩

/-- The part succeeds, and this holds of the disk that it leaves. -/
def Succeeds (x : Building α) (d : Disk) (post : Disk → Prop) : Prop :=
  ∃ a e, Runs x d a e ∧ post e

theorem ok_of_toOption {ε : Type} {x : Except ε α} {a : α} (h : x.toOption = some a) :
    x = .ok a := by
  cases x with
  | error e => cases h
  | ok b =>
      cases h
      rfl

theorem succeeds_bind {x : Building α} {f : α → Building β} {post : Disk → Prop} (a : α)
    (hx : (x.run d).1.toOption = some a) (hf : Succeeds (f a) (x.run d).2 post) :
    Succeeds (x >>= f) d post := by
  obtain ⟨b, e, hr, hp⟩ := hf
  refine ⟨b, e, ?_, hp⟩
  show ExceptT.bindCont f (x.run d).1 (x.run d).2 = _
  rw [ok_of_toOption hx]
  exact hr

theorem succeeds_get_bind {f : Disk → Building β} {post : Disk → Prop}
    (h : Succeeds (f d) d post) :
    Succeeds (get >>= f) d post := h

theorem succeeds_pure {a : α} {post : Disk → Prop} (h : post d) :
    Succeeds (pure a) d post :=
  ⟨a, d, rfl, h⟩

/-! ## Parts of a build -/

theorem ok_of_writing {path : String} {x : Except Fault α} {a : α}
    (h : ProjectError.writing path x = .ok a) :
    x = .ok a := by
  cases x with
  | error e => cases h
  | ok b =>
    cases h
    rfl

theorem run_change (path : String) (f : Disk → Except Fault Disk) (d : Disk) :
    (change path f).run d =
    match ProjectError.writing path (f d) with
    | .ok e => (.ok (), e)
    | .error r => (.error r, d) := by
  have hrun : (change path f).run d = (match ProjectError.writing path (f d) with
    | .ok e => set e
    | .error r => throw r : Building Unit).run d := rfl
  rw [hrun]
  cases ProjectError.writing path (f d) with
  | error r => rfl
  | ok e => rfl

theorem runs_change_iff {path : String} {f : Disk → Except Fault Disk} :
    Runs (change path f) d () d' ↔ f d = .ok d' := by
  rw [Runs, run_change]
  cases f d with
  | error fault => exact iff_of_false (fun h => by cases h) fun h => by cases h
  | ok e =>
      constructor
      · intro h
        cases h
        rfl
      · intro h
        cases h
        rfl

theorem run_makeDirs (path : String) (d : Disk) :
    (makeDirs path).run d = (ProjectError.writing path (d.makeDirs path).1,
      (d.makeDirs path).2) := by
  rw [makeDirs, run_get_bind]
  rcases d.makeDirs path with ⟨result, e⟩
  cases result with
  | error fault => rfl
  | ok _ => rfl

theorem runs_makeDirs_iff {path : String} :
    Runs (makeDirs path) d () d' ↔ d.makeDirs path = (.ok (), d') := by
  rw [Runs, run_makeDirs]
  rcases d.makeDirs path with ⟨result, e⟩
  cases result with
  | error fault => exact iff_of_false (fun h => by cases h) fun h => by cases h
  | ok _ =>
      constructor
      · intro h
        cases h
        rfl
      · intro h
        cases h
        rfl

theorem exists_runs_makeDirs_iff {path : String} :
    (∃ d', Runs (makeDirs path) d () d') ↔ (d.makeDirs path).1 = .ok () := by
  simp only [runs_makeDirs_iff, Prod.ext_iff, exists_and_left, exists_eq', and_true]

theorem runs_forM_cons {f : α → Building Unit} {x : α} {xs : List α}
    (h : Runs ((x :: xs).forM f) d () d') :
    ∃ e, Runs (f x) d () e ∧ Runs (xs.forM f) e () d' := by
  obtain ⟨_, e, hx, h⟩ := exists_of_runs_bind h
  exact ⟨e, hx, h⟩

/-- What holds of the disk before a loop, and is passed on by every turn of it together
with what that turn adds, holds after the loop of all that was added. -/
theorem runs_forM_induction {γ : Type} {holds : List γ → Disk → Prop}
    {f : α → Building Unit} {added : α → List γ} {xs : List α} {before : List γ}
    (hstep : ∀ x ∈ xs, ∀ before e e', holds before e → Runs (f x) e () e' →
      holds (before ++ added x) e')
    (hd : holds before d) (h : Runs (xs.forM f) d () d') :
    holds (before ++ xs.flatMap added) d' := by
  induction xs generalizing before d with
  | nil =>
      cases h
      rwa [List.flatMap_nil, List.append_nil]
  | cons x xs ih =>
      obtain ⟨e, hx, h⟩ := runs_forM_cons h
      have he := hstep x List.mem_cons_self before d e hd hx
      have hr := ih (fun y hy => hstep y (List.mem_cons_of_mem x hy)) he h
      rwa [List.flatMap_cons, ← List.append_assoc]

/-- From a disk of which `pre` holds the part succeeds exactly if `ok`, and then `post`
holds of what it leaves. -/
structure Does (x : Building Unit) (pre : Disk → Prop) (ok : Prop) (post : Disk → Prop) :
    Prop where
  exists_iff : ∀ d, pre d → ((∃ d', Runs x d () d') ↔ ok)
  post : ∀ d d', pre d → Runs x d () d' → post d'

/-- A loop succeeds exactly if nothing is in the way of any of its turns. -/
theorem Does.forM {γ : Type} (holds : List γ → Disk → Prop) {f : α → Building Unit}
    (added : α → List γ) {ok : α → Prop} {xs : List α}
    (h : ∀ x ∈ xs, ∀ before, Does (f x) (holds before) (ok x) (holds (before ++ added x)))
    (before : List γ) :
    Does (xs.forM f) (holds before) (∀ x ∈ xs, ok x)
      (holds (before ++ xs.flatMap added)) where
  post := fun _ _ hd hr =>
    runs_forM_induction (fun x hx before => (h x hx before).post) hd hr
  exists_iff := by
    induction xs generalizing before with
    | nil => exact fun d _ => iff_of_true ⟨d, rfl⟩ (List.forall_mem_nil ok)
    | cons x xs ih =>
        intro d hd
        obtain ⟨hx, hs⟩ := List.forall_mem_cons.1 h
        rw [List.forall_mem_cons, ← (hx before).exists_iff d hd]
        constructor
        · rintro ⟨d', hr⟩
          obtain ⟨e, hr, hrs⟩ := runs_forM_cons hr
          exact ⟨⟨e, hr⟩, (ih hs _ e ((hx before).post d e hd hr)).1 ⟨d', hrs⟩⟩
        · rintro ⟨⟨e, hr⟩, hok⟩
          obtain ⟨d', hrs⟩ := (ih hs _ e ((hx before).post d e hd hr)).2 hok
          exact ⟨d', runs_bind hr hrs⟩

/-! ## Parts that fail -/

/-- Whether the part succeeds or not, what holds of a disk holds of the
one that it leaves. -/
def Keeps (x : Building α) (holds : Disk → Prop) : Prop :=
  ∀ d, holds d → holds (x.run d).2

section Keeps

variable {holds : Disk → Prop} {x : Building α} {f : α → Building β}

theorem run_bind_of_error {r : ProjectError} (h : (x.run d).1 = .error r) :
    (x >>= f).run d = (.error r, (x.run d).2) := by
  show ExceptT.bindCont f (x.run d).1 (x.run d).2 = _
  rw [h]
  rfl

theorem run_bind_of_runs {a : α} (h : Runs x d a d') :
    (x >>= f).run d = (f a).run d' := by
  show ExceptT.bindCont f (x.run d).1 (x.run d).2 = _
  rw [h]
  rfl

theorem Keeps.bind (hx : Keeps x holds) (hf : ∀ a, Keeps (f a) holds) :
    Keeps (x >>= f) holds := by
  intro d hd
  rcases hr : x.run d with ⟨r, e⟩
  have he := hx d hd
  rw [hr] at he
  cases r with
  | error r =>
      rw [run_bind_of_error (congrArg Prod.fst hr), hr]
      exact he
  | ok a =>
      rw [run_bind_of_runs hr]
      exact hf a e he

theorem Keeps.pure (a : α) : Keeps (pure a) holds := fun _ hd => hd

theorem Keeps.forM {f : α → Building Unit} {xs : List α}
    (h : ∀ x ∈ xs, Keeps (f x) holds) :
    Keeps (xs.forM f) holds := by
  induction xs with
  | nil => exact Keeps.pure ()
  | cons x xs ih =>
      obtain ⟨hx, hs⟩ := List.forall_mem_cons.1 h
      exact hx.bind fun _ => ih hs

theorem Keeps.change {path : String} {f : Disk → Except Fault Disk}
    (h : ∀ d d', holds d → f d = .ok d' → holds d') : Keeps (change path f) holds := by
  intro d hd
  rw [run_change]
  cases hf : f d with
  | error fault => exact hd
  | ok e => exact h d e hd hf

theorem Keeps.makeDirs {path : String} (h : ∀ d, holds d → holds (d.makeDirs path).2) :
    Keeps (makeDirs path) holds := by
  intro d hd
  rw [run_makeDirs]
  exact h d hd

end Keeps

/-! ## The whole build -/

variable {c : Config} {report : Report}

/-- The disk on which the build directory is made. -/
def prepared (c : Config) (d : Disk) : Disk := (d.makeDirs c.buildDir).2

theorem wellFormed_prepared (c : Config) (h : d.WellFormed) : (prepared c d).WellFormed :=
  h.makeDirs c.buildDir

/-- What a build finds out about a project before it changes more than
the build directory. -/
structure Survey (c : Config) (d : Disk) where
  rules : Ignore.Rules
  source : Place
  target : Place
  listing : Listing
  readRules_eq : readRules d c.ignorePath = .ok rules
  makeDirs_eq : (d.makeDirs c.buildDir).1 = .ok ()
  target_eq : (prepared c d).place c.buildDir = .ok target
  source_eq : ∃ entries, readSource (prepared c d) c = .ok (source, entries) ∧
    listing = .ofEntries rules (fun place => source ++ place = target) [] entries

/-- The file that makes a directory a package is written empty. -/
def writePackage (c : Config) (place : Place) : Building Unit :=
  writeText (Path.join (c.target place) packageFile) ""

theorem readSource_eq_ok_iff {source : Place} {entries : List (String × Node)} :
    readSource d c = .ok (source, entries) ↔
      d.find (Path.join c.sourceDir "") = .ok (source, .dir entries) := by
  rw [readSource]
  cases hf : d.find (Path.join c.sourceDir "") with
  | error fault => exact iff_of_false (fun h => by cases h) fun h => by cases h
  | ok found =>
      obtain ⟨q, node⟩ := found
      cases node with
      | file content => exact iff_of_false (fun h => by cases h) fun h => by cases h
      | dir entries' => simp

theorem survey_of_runs_readListing {rules : Ignore.Rules} {listing : Listing}
    (h : Runs (readListing c rules) d listing d') : d' = d ∧ ∃ source target entries,
      d.place c.buildDir = .ok target ∧ readSource d c = .ok (source, entries) ∧
        listing =
          .ofEntries rules (fun place => source ++ place = target) [] entries := by
  obtain ⟨⟨target, n⟩, htarget, h⟩ := exists_of_runs_lift_bind (runs_of_get_bind h)
  obtain ⟨⟨source, entries⟩, hsource, h⟩ := exists_of_runs_lift_bind h
  obtain ⟨rfl, rfl⟩ := runs_pure h
  exact ⟨rfl, source, target, entries,
    (Disk.place_of_find (ok_of_writing htarget)).1, hsource, rfl⟩

/-- A build that succeeds made its survey, and its loops succeed one after the other. -/
theorem exists_survey_of_runs (h : Runs (building c) d report d') :
    ∃ (s : Survey c d) (d₁ d₂ d₃ d₄ : Disk),
    Runs (s.listing.dirs.forM fun place => makeDirs (c.target place))
      (prepared c d) () d₁ ∧
    Runs (s.listing.files.forM (copyFile c)) d₁ () d₂ ∧
    let attempts := s.listing.notebooks.map fun place =>
      ⟨place, compileFile d₂ (c.origin place)⟩
    Runs (attempts.forM (writeModule c)) d₂ () d₃ ∧
    Runs ((packages attempts).forM (writePackage c)) d₃ () d₄ ∧
    Runs (writeText (Path.join c.buildDir supportModuleName) supportModule) d₄ () d' ∧
    report = .ofAttempts s.listing.files.length attempts := by
  obtain ⟨rules, hrules, h⟩ := exists_of_runs_lift_bind (runs_of_get_bind h)
  obtain ⟨_, e, hmake, h⟩ := exists_of_runs_bind h
  obtain ⟨listing, d₀, hlisting, h⟩ := exists_of_runs_bind h
  obtain ⟨_, d₁, hdirs, h⟩ := exists_of_runs_bind h
  obtain ⟨_, d₂, hfiles, h⟩ := exists_of_runs_bind h
  obtain ⟨_, d₃, hmodules, h⟩ := exists_of_runs_bind (runs_of_get_bind h)
  obtain ⟨_, d₄, hpackages, h⟩ := exists_of_runs_bind h
  obtain ⟨_, d₅, hsupport, h⟩ := exists_of_runs_bind h
  obtain ⟨hreport, hend⟩ := runs_pure h
  obtain ⟨he, source, target, entries, htarget, hsource, hentries⟩ :=
    survey_of_runs_readListing hlisting
  have hmake := runs_makeDirs_iff.1 hmake
  have hd₀ : d₀ = prepared c d := by rw [he, prepared, hmake]
  rw [← he, hd₀] at htarget hsource
  rw [hd₀] at hdirs
  rw [← hend] at hsupport
  refine ⟨⟨rules, source, target, listing, hrules, ?_, htarget, entries, hsource,
      hentries⟩, ?_⟩
  · rw [hmake]
  · exact ⟨d₁, d₂, d₃, d₄, hdirs, hfiles, hmodules, hpackages, hsupport, hreport⟩

/-- A project has one survey. -/
instance (c : Config) (d : Disk) : Subsingleton (Survey c d) where
  allEq := by
    rintro ⟨rules, source, target, listing, hrules, hmake, htarget, entries,
      hsource, hlisting⟩
      ⟨rules', source', target', listing', hrules', hmake', htarget', entries',
        hsource', hlisting'⟩
    obtain rfl := Except.ok.inj (hrules.symm.trans hrules')
    obtain rfl := Except.ok.inj (htarget.symm.trans htarget')
    obtain ⟨rfl, rfl⟩ := Prod.mk.inj (Except.ok.inj (hsource.symm.trans hsource'))
    obtain rfl := hlisting.trans hlisting'.symm
    rfl

theorem Survey.eq_of_toOption (s : Survey c d) {rules : Ignore.Rules}
    {source target : Place} {listing : Listing}
    (hrules : readRules d c.ignorePath = .ok rules)
    (htarget : ((prepared c d).place c.buildDir).toOption = some target)
    (hread : (readSource (prepared c d) c).toOption.map (fun r =>
        (r.1, Listing.ofEntries rules (fun place => r.1 ++ place = target) [] r.2)) =
      some (source, listing)) :
    s.source = source ∧ s.target = target ∧ s.listing = listing := by
  rw [s.target_eq] at htarget
  rw [s.readRules_eq] at hrules
  obtain ⟨entries, hs, hl⟩ := s.source_eq
  rw [hs, ← Except.ok.inj hrules, ← Option.some.inj htarget] at hread
  obtain ⟨hsource, hlisting⟩ := Prod.mk.inj (Option.some.inj hread)
  exact ⟨hsource, Option.some.inj htarget, hl.trans hlisting⟩

/-! ## Notebook files -/

theorem compileFile_of_readText {path text : String} {n : Notebook}
    (hn : Notebook.ofText text = .ok n) (hr : (d.readText path).toOption = some text) :
    compileFile d path = .ok (ServiceModule.compile n.compiledCells 0).1 := by
  rw [compileFile, ok_of_toOption hr]
  simp [ProjectError.reading, hn, bind, Except.bind]

end NotebookService.Project
