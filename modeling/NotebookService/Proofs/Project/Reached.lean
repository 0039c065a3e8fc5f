/-
# `NotebookService.Proofs.Project.Reached` — what a build has reached so far

The invariant of a build is `Reached`: what a place of the build directory holds is the
last of the writes so far, and outside of it every file is as it was.  Each step of a
build adds its own writes to it.  Since nothing is written to the sources, what was read
at the beginning is what is copied and compiled.

What is listed is a file in the source directory, and never in the build directory,
unless that is the source directory or above it.
-/
import NotebookService.Proofs.Files.Making
import NotebookService.Proofs.Project.Building
import NotebookService.Proofs.Project.Walk

namespace NotebookService.Project

open NotebookService.Files

variable {c : Config} {d e e' : Disk} {p q : Place} {path name : String}
  {content : Content}

/-! ## Paths below the build directory -/

/-- The path is that of the build directory, gone on with by these names. -/
structure Below (c : Config) (path : String) (p : Place) : Prop where
  names : ∀ n ∈ p, IsName n
  ne_empty : path ≠ ""
  isAbsolute_eq : Path.isAbsolute path = Path.isAbsolute c.buildDir
  steps_eq : Path.steps path = Path.steps c.buildDir ++ p

theorem below_buildDir (hb : c.buildDir ≠ "") : Below c c.buildDir [] where
  names := List.forall_mem_nil _
  ne_empty := hb
  isAbsolute_eq := rfl
  steps_eq := (List.append_nil _).symm

theorem below_target (hb : c.buildDir ≠ "") (hp : ∀ n ∈ p, IsName n) :
    Below c (c.target p) p where
  names := hp
  ne_empty := Path.join_ne_empty hb (Place.isAbsolute_text hp)
  isAbsolute_eq := Path.isAbsolute_join hb (Place.isAbsolute_text hp)
  steps_eq := by
    rw [Config.target, Path.steps_join _ (Place.isAbsolute_text hp), Place.steps_text hp]

theorem Below.join (h : Below c path p) (hn : IsName name) :
    Below c (Path.join path name) (p ++ [name]) where
  names := List.forall_mem_append.2 ⟨h.names, List.forall_mem_singleton.2 hn⟩
  ne_empty := Path.join_ne_empty h.ne_empty hn.isAbsolute_eq
  isAbsolute_eq := (Path.isAbsolute_join h.ne_empty hn.isAbsolute_eq).trans
    h.isAbsolute_eq
  steps_eq := by
    rw [Path.steps_join _ hn.isAbsolute_eq, h.steps_eq, hn.steps_eq, List.append_assoc]

/-! ## The survey -/

namespace Survey

variable (s : Survey c d) {k : Listing.Kind}

theorem buildDir_ne (s : Survey c d) : c.buildDir ≠ "" := by
  intro he
  have ht := s.target_eq
  rw [he] at ht
  cases ht

theorem follow_target : Disk.follow (prepared c d).root ((prepared c d).start c.buildDir)
    (Path.steps c.buildDir) = .ok s.target := by
  have ht := s.target_eq
  rwa [Disk.place, if_neg (by simpa using s.buildDir_ne)] at ht

theorem hasDir_target (hd : d.WellFormed) : (prepared c d).root.HasDir s.target :=
  Disk.hasDir_of_makeDirs hd s.makeDirs_eq s.target_eq

theorem exists_source : ∃ entries, c.sourceDir ≠ "" ∧
    Disk.follow (prepared c d).root ((prepared c d).start c.sourceDir)
      (Path.steps c.sourceDir) =
      .ok s.source ∧
    (prepared c d).root.find? s.source = some (.dir entries) ∧
    s.listing =
      .ofEntries s.rules (fun place => s.source ++ place = s.target) [] entries := by
  obtain ⟨entries, hs, hl⟩ := s.source_eq
  obtain ⟨hp, hn⟩ := Disk.place_of_find (readSource_eq_ok_iff.1 hs)
  have hne : c.sourceDir ≠ "" := by
    intro he
    rw [he] at hp
    cases hp
  have hj := Disk.place_join hne (p := []) (List.forall_mem_nil _) (prepared c d)
  rw [show Place.text [] = "" from rfl, hp] at hj
  refine ⟨entries, hne, ?_, hn, hl⟩
  cases hfollow : Disk.follow (prepared c d).root ((prepared c d).start c.sourceDir)
      (Path.steps c.sourceDir) with
  | error fault =>
      rw [hfollow] at hj
      cases hj
  | ok place =>
      rw [hfollow] at hj
      exact hj.symm

theorem mem_list_iff (hd : d.WellFormed) : p ∈ s.listing.list k ↔
    ∃ found, (prepared c d).root.look (s.source ++ p) = some found ∧
      Listing.kindAt s.rules (fun place => s.source ++ place = s.target) [] p found =
        some k := by
  obtain ⟨entries, -, -, hf, hl⟩ := s.exists_source
  rw [hl, Listing.mem_list_iff_of_find? (wellFormed_prepared c hd).root.distinct hf]

theorem sorted_list (hd : d.WellFormed) (k : Listing.Kind) :
    (s.listing.list k).Pairwise (· < ·) := by
  obtain ⟨entries, -, -, hf, hl⟩ := s.exists_source
  rw [hl]
  exact Listing.sorted_list ((wellFormed_prepared c hd).root.of_find? hf).distinct

theorem names_of_mem_list (hd : d.WellFormed) (hp : p ∈ s.listing.list k) :
    p ≠ [] ∧ ∀ n ∈ p, IsName n := by
  obtain ⟨found, hl, hk⟩ := (s.mem_list_iff hd).1 hp
  refine ⟨Listing.ne_nil_of_kindAt hk, fun n hn => ?_⟩
  refine (wellFormed_prepared c hd).root.isName_of_look ?_ n
    (List.mem_append_right s.source hn)
  rw [hl]
  exact Option.some_ne_none found

theorem dropLast_mem_dirs (hd : d.WellFormed) (hp : p ∈ s.listing.list k) :
    p.dropLast = [] ∨ p.dropLast ∈ s.listing.dirs := by
  by_cases hne : p.dropLast = []
  · exact .inl hne
  · obtain ⟨found, hl, hk⟩ := (s.mem_list_iff hd).1 hp
    refine .inr ((s.mem_list_iff hd (k := .dir)).2 ⟨none, ?_,
        Listing.kindAt_dropLast hk hne⟩)
    have hpne := Listing.ne_nil_of_kindAt hk
    refine Node.hasDir_of_look_append (q := [p.getLast hpne]) (List.cons_ne_nil _ _) ?_
    rw [List.append_assoc, List.dropLast_concat_getLast hpne, hl]
    exact Option.some_ne_none found

/-- A source file of the build: a name below the source directory, with a file there
that is not in the build directory. -/
structure HasFile (p : Place) (content : Content) : Prop where
  ne_nil : p ≠ []
  names : ∀ n ∈ p, IsName n
  look_eq : (prepared c d).root.look (s.source ++ p) = some (some content)
  outside : ¬ s.target <+: s.source ++ p

/-- Nothing in the build directory is listed, if that is a directory. -/
theorem not_prefix_of_kindAt (hs : ¬ s.target <+: s.source) {root : Node}
    {rules : Ignore.Rules} {found : Option Content} (hdir : root.HasDir s.target)
    (hl : root.look (s.source ++ p) = some found)
    (hk : Listing.kindAt rules (fun place => s.source ++ place = s.target) [] p found =
      some k) :
    ¬ s.target <+: s.source ++ p := by
  intro ht
  -- the build directory is not above the source, so it is on the way down or
  -- the file itself
  obtain ⟨b, hb⟩ := (List.prefix_or_prefix_of_prefix ht
    (List.prefix_append s.source p)).resolve_left hs
  rw [← hb] at ht
  have hbne : b ≠ [] := by
    rintro rfl
    rw [List.append_nil] at hb
    exact hs (hb ▸ List.prefix_refl _)
  have hbuild : decide (s.source ++ ([] ++ b) = s.target) = true := decide_eq_true hb
  obtain ⟨rfl, hfile⟩ := Listing.eq_of_kindAt_of_isBuildDir hbuild hbne
    ((List.prefix_append_right_inj _).1 ht) hk
  rw [hb, hdir] at hl
  exact hfile (Option.some.inj hl).symm

theorem exists_hasFile (hd : d.WellFormed) (hs : ¬ s.target <+: s.source) (hk : k ≠ .dir)
    (hp : p ∈ s.listing.list k) : ∃ content, s.HasFile p content := by
  obtain ⟨hne, hnames⟩ := s.names_of_mem_list hd hp
  obtain ⟨found, hl, hkind⟩ := (s.mem_list_iff hd).1 hp
  obtain ⟨content, rfl⟩ :=
    Option.ne_none_iff_exists'.1 (Listing.ne_none_of_kindAt hkind hk)
  exact ⟨content, hne, hnames, hl,
    s.not_prefix_of_kindAt hs (s.hasDir_target hd) hl hkind⟩

theorem place_origin {s : Survey c d} (h : s.HasFile p content) :
    (prepared c d).place (c.origin p) = .ok (s.source ++ p) := by
  obtain ⟨entries, hne, hf, -, -⟩ := s.exists_source
  rw [Config.origin, Disk.place_join hne h.names, hf]
  refine Disk.follow_of_look h.names ?_
  rw [h.look_eq]
  exact Option.some_ne_none _

theorem asksForDirectory_origin {s : Survey c d} (h : s.HasFile p content) :
    Path.asksForDirectory (c.origin p) = false := by
  rw [Config.origin, Path.asksForDirectory_join _ (Place.isAbsolute_text h.names),
    Place.asksForDirectory_text h.ne_nil h.names]

end Survey

/-! ## What has been reached -/

/-- The disk after some writes below the build directory, the last of them
last: each place there holds what was written to it last, and outside of it
every file is as it was. -/
structure Reached (s : Survey c d) (writes : List (Place × Content)) (e : Disk) :
    Prop where
  cwd_eq : e.cwd = (prepared c d).cwd
  hasDir : ∀ q, (prepared c d).root.HasDir q → e.root.HasDir q
  outside : ∀ q, ¬ s.target <+: q → e.root.file? q = (prepared c d).root.file? q
  inside : ∀ p, e.root.file? (s.target ++ p) =
    (writes.reverse.lookup p).or ((prepared c d).root.file? (s.target ++ p))

namespace Reached

variable {s : Survey c d} {writes : List (Place × Content)}

theorem nil (s : Survey c d) : Reached s [] (prepared c d) where
  cwd_eq := rfl
  hasDir := fun _ hq => hq
  outside := fun _ _ => rfl
  inside := fun _ => rfl

theorem place_below (h : Reached s writes e) (hb : Below c path p) :
    e.place path = Disk.follow e.root s.target p := by
  have hstart : e.start path = (prepared c d).start c.buildDir := by
    rw [Disk.start, Disk.start, hb.isAbsolute_eq, h.cwd_eq]
  rw [Disk.place, if_neg (by simpa using hb.ne_empty), hstart, hb.steps_eq,
    Disk.follow_append, Disk.follow_mono h.hasDir s.follow_target]
  rfl

theorem look_origin (h : Reached s writes e) (hp : s.HasFile p content) :
    e.place (c.origin p) = .ok (s.source ++ p) ∧
      e.root.look (s.source ++ p) = some (some content) := by
  refine ⟨Disk.place_mono h.cwd_eq h.hasDir (Survey.place_origin hp), ?_⟩
  have hf : (prepared c d).root.file? (s.source ++ p) = some content := by
    rw [Node.file?, hp.look_eq]
    rfl
  rw [← h.outside _ hp.outside, Node.file?_eq_some] at hf
  exact Node.look_eq_file.2 hf

theorem read_origin (h : Reached s writes e) (hp : s.HasFile p content) :
    e.read (c.origin p) = .ok content := by
  obtain ⟨hplace, hlook⟩ := h.look_origin hp
  exact Disk.read_of_look hplace hlook (Survey.asksForDirectory_origin hp)

/-! ## Steps -/

theorem makeDirs (h : Reached s writes e) (path : String) :
    Reached s writes (e.makeDirs path).2 where
  cwd_eq := h.cwd_eq
  hasDir := fun q hq => (Disk.addsDirs_makeDirs e path).hasDir (h.hasDir q hq)
  outside := fun q hq =>
    ((Disk.addsDirs_makeDirs e path).file?_eq q).trans (h.outside q hq)
  inside := fun p => ((Disk.addsDirs_makeDirs e path).file?_eq _).trans (h.inside p)

theorem wrote (h : Reached s writes e) (hw : Disk.Wrote e (s.target ++ p) content e') :
    Reached s (writes ++ [(p, content)]) e' where
  cwd_eq := hw.cwd_eq.trans h.cwd_eq
  hasDir := fun q hq => hw.hasDir (h.hasDir q hq)
  outside := by
    intro q hq
    have hne : q ≠ s.target ++ p := by
      rintro rfl
      exact hq (List.prefix_append s.target p)
    rw [hw.file?_eq, if_neg hne]
    exact h.outside q hq
  inside := by
    intro q
    rw [hw.file?_eq, List.reverse_append, List.reverse_singleton, List.singleton_append,
      List.lookup_cons]
    by_cases hq : q = p
    · rw [if_pos (by rw [hq]), hq, beq_self_eq_true]
      rfl
    · rw [if_neg (by simpa using hq), beq_false_of_ne hq]
      exact h.inside q

theorem exists_hasDir_of_place (h : Reached s writes e) (hb : Below c path p)
    (hne : p ≠ []) (hp : e.place path = .ok q) :
    ∃ place name, q = place ++ [name] ∧ q = s.target ++ p ∧
      e.root.HasDir place := by
  rw [h.place_below hb] at hp
  have hq := Disk.eq_append_of_follow hb.names hp
  have hlast := List.dropLast_concat_getLast hne
  have hn : ∀ n ∈ p.dropLast, IsName n :=
    fun n hn => hb.names n (List.dropLast_subset p hn)
  rw [← hlast] at hp
  refine ⟨s.target ++ p.dropLast, p.getLast hne, ?_, hq,
    Disk.hasDir_of_follow_concat hn hp⟩
  rw [List.append_assoc, hlast, hq]

theorem copyFile (h : Reached s writes e) (hp : s.HasFile p content)
    (hr : Runs (copyFile c p) e () e') :
    Reached s (writes ++ [(p, content)]) e' := by
  have hw : e.copy (c.origin p) (c.target p) = .ok e' := runs_change_iff.1 hr
  have hb := below_target s.buildDir_ne hp.names
  obtain ⟨hplace, hlook⟩ := h.look_origin hp
  obtain ⟨_, -, hrest⟩ := Disk.exists_of_bind_eq_ok hw
  obtain ⟨_, hfirst, -⟩ := Disk.exists_of_bind_eq_ok hrest
  obtain ⟨q, hq, -⟩ := Disk.exists_of_bind_eq_ok hfirst
  obtain ⟨place, name, rfl, heq, hd⟩ := h.exists_hasDir_of_place hb hp.ne_nil hq
  have hne : s.source ++ p ≠ place ++ [name] := by
    intro he
    exact hp.outside (he ▸ heq ▸ List.prefix_append s.target p)
  exact h.wrote (heq ▸
    Disk.wrote_of_copy hplace hlook (Survey.asksForDirectory_origin hp) hq hd hne hw)

end Reached

/-! ## Names of modules and packages -/

theorem mem_of_mem_stem {s : List Char} {x : Char} (h : x ∈ Path.stem s) : x ∈ s := by
  unfold Path.stem at h
  split at h
  · rename_i hd
    have hm := (List.dropWhile_sublist (l := s.reverse) _).subset
      (hd ▸ List.mem_cons_of_mem _ (List.mem_reverse.1 h))
    exact List.mem_reverse.1 hm
  · exact h

theorem isName_withExtension (h : IsName name) :
    IsName (Path.withExtension moduleExtension name) := by
  have hl : (Path.withExtension moduleExtension name).toList =
      Path.stem name.toList ++ ['.', 'p', 'y'] := by
    simp [Path.withExtension, moduleExtension]
  -- its last character is the extension's, which the two words for
  -- directories do not have
  have hlast : (Path.withExtension moduleExtension name).toList.getLast? = some 'y' := by
    rw [hl, List.getLast?_append]
    rfl
  refine ⟨?_, ?_, ?_⟩
  · rw [Path.isStep, Bool.and_eq_true, decide_eq_true_eq, decide_eq_true_eq]
    constructor
    · intro he
      rw [he] at hlast
      cases hlast
    · intro he
      rw [he] at hlast
      cases hlast
  · intro he
    rw [he] at hlast
    cases hlast
  · rw [hl]
    intro hm
    rcases List.mem_append.1 hm with hm | hm
    · exact h.noSlash (mem_of_mem_stem hm)
    · exact absurd hm (by decide)

theorem isName_packageFile : IsName packageFile := by decide

theorem isName_supportModuleName : IsName supportModuleName := by decide

theorem names_modulePlace (hne : p ≠ []) (hp : ∀ n ∈ p, IsName n) :
    modulePlace p ≠ [] ∧ ∀ n ∈ modulePlace p, IsName n := by
  rw [modulePlace, List.getLast?_eq_some_getLast hne]
  refine ⟨by simp, List.forall_mem_append.2 ⟨?_, List.forall_mem_singleton.2 ?_⟩⟩
  · intro n hn
    exact hp n (List.dropLast_subset p hn)
  · exact isName_withExtension (hp _ (List.getLast_mem hne))

theorem dropLast_modulePlace (p : Place) : (modulePlace p).dropLast = p.dropLast := by
  rw [modulePlace]
  split
  · rename_i hp
    rw [List.getLast?_eq_none_iff.1 hp]
  · rw [List.dropLast_concat]

theorem mem_of_mem_insertPackage {ps : List Place} {q : Place}
    (h : q ∈ insertPackage p ps) :
    q = p ∨ q ∈ ps := by
  induction ps with
  | nil => exact .inl (List.mem_singleton.1 h)
  | cons r ps ih =>
      rw [insertPackage] at h
      split at h
      · exact List.mem_cons.1 h
      · split at h
        · exact .inr h
        · rcases List.mem_cons.1 h with h | h
          · exact .inr (h ▸ List.mem_cons_self)
          · rcases ih h with h | h
            · exact .inl h
            · exact .inr (List.mem_cons_of_mem r h)

theorem exists_of_mem_packages {attempts : List Attempt} (h : p ∈ packages attempts) :
    ∃ a ∈ attempts, p = a.place.dropLast := by
  have hm : ∀ ps : List Place, p ∈ ps.foldr insertPackage [] → p ∈ ps := by
    intro ps hps
    induction ps with
    | nil => cases hps
    | cons q ps ih =>
        rcases mem_of_mem_insertPackage hps with rfl | hps
        · exact List.mem_cons_self
        · exact List.mem_cons_of_mem q (ih hps)
  obtain ⟨a, ha, rfl⟩ := List.mem_map.1 (List.mem_filter.1 (hm _ h)).1
  exact ⟨a, (List.mem_filter.1 ha).1, rfl⟩

/-! ## Writers -/

namespace Survey

variable (s : Survey c d)

/-- Every notebook with what it is compiled to. -/
def attempts : List Attempt :=
  s.listing.notebooks.map fun place =>
    ⟨place, compileFile (prepared c d) (c.origin place)⟩

/-- What the source holds at a place. -/
def bytes (p : Place) : Content := ((prepared c d).root.file? (s.source ++ p)).getD .empty

/-- What the copies write. -/
def copies : List (Place × Content) := s.listing.files.map fun p => (p, s.bytes p)

/-- What a compiled notebook writes. -/
def moduleWrite (a : Attempt) : List (Place × Content) :=
  (a.module?.map fun m => (modulePlace a.place, m.source.toUTF8)).toList

/-- What the writers that come after the copies write below the build
directory, in their order. -/
def laterWrites : List (Place × Content) :=
  s.attempts.flatMap moduleWrite ++
    (packages s.attempts).map (fun place => (place ++ [packageFile], "".toUTF8)) ++
    [([supportModuleName], supportModule.toUTF8)]

theorem bytes_eq {s : Survey c d} (h : s.HasFile p content) : s.bytes p = content := by
  rw [bytes, Node.file?, h.look_eq]
  rfl

theorem lookup_copies (hp : p ∈ s.listing.files) :
    s.copies.reverse.lookup p = some (s.bytes p) := by
  have hm : ∀ ps : List Place, p ∈ ps →
      (ps.map fun q => (q, s.bytes q)).lookup p = some (s.bytes p) := by
    intro ps hps
    induction ps with
    | nil => cases hps
    | cons q ps ih =>
        rw [List.map_cons, List.lookup_cons]
        by_cases hq : p = q
        · rw [hq, beq_self_eq_true]
        · rw [beq_false_of_ne hq]
          exact ih (List.mem_of_ne_of_mem hq hps)
  rw [copies, ← List.map_reverse]
  exact hm _ (List.mem_reverse.2 hp)

end Survey

namespace Survey

variable (s : Survey c d)

theorem hasFile_bytes (hd : d.WellFormed) (hs : ¬ s.target <+: s.source)
    {k : Listing.Kind} (hk : k ≠ .dir) (hp : p ∈ s.listing.list k) :
    s.HasFile p (s.bytes p) := by
  obtain ⟨content, hc⟩ := s.exists_hasFile hd hs hk hp
  rwa [bytes_eq hc]

theorem hasFile_of_mem_notebooks (hd : d.WellFormed) (hs : ¬ s.target <+: s.source) :
    ∀ p ∈ s.listing.notebooks, s.HasFile p (s.bytes p) :=
  fun _ hp => s.hasFile_bytes hd hs (k := .notebook) (by decide) hp

theorem hasFile_of_mem_files (hd : d.WellFormed) (hs : ¬ s.target <+: s.source) :
    ∀ p ∈ s.listing.files, s.HasFile p (s.bytes p) :=
  fun _ hp => s.hasFile_bytes hd hs (k := .file) (by decide) hp

end Survey

theorem compileFile_congr (h : e.read path = d.read path) :
    compileFile e path = compileFile d path := by
  unfold compileFile Disk.readText
  rw [h]

/-- The notebooks are compiled after the copies, but from what they were before. -/
theorem Reached.attempts_eq {s : Survey c d} {writes : List (Place × Content)}
    (h : Reached s writes e) (hf : ∀ p ∈ s.listing.notebooks, s.HasFile p (s.bytes p)) :
    (s.listing.notebooks.map fun place => ⟨place, compileFile e (c.origin place)⟩) =
      s.attempts := by
  refine List.map_congr_left fun p hp => ?_
  rw [compileFile_congr
    ((h.read_origin (hf p hp)).trans ((Reached.nil s).read_origin (hf p hp)).symm)]

end NotebookService.Project
