/-
# `NotebookService.Proofs.Project.Listed` — every place once, or left out

A place is left out for what it is or for what something above it is: the rules ignore
its path or its name, or it is a directory that is not entered.  `Kept` says that there
is no such reason, in terms of what is found on the disk, and a place that is kept is in
one of the lists, once, unless it is a scratch notebook (`readListing_lists_kept`).

The lists stand in the order of the places byte by byte, name by name, since names do.
The directories above a place come first because they begin it.

Nothing is asked of the order in which a disk gives the entries of a directory, only
that no name comes twice.
-/
import Mathlib.Data.List.Induction
import NotebookService.Proofs.Files.Making
import NotebookService.Proofs.Project.Building
import NotebookService.Proofs.Project.Walk
import NotebookService.Proofs.Text.Bytes

/-! ## The bytes of places -/

namespace NotebookService.Files.Place

/-- The bytes of a place, name by name. -/
def bytes (p : Place) : List (List UInt8) := p.map Text.bytes

theorem bytes_lt_bytes_iff {p q : Place} : p.bytes < q.bytes ↔ p < q := by
  unfold bytes
  induction p generalizing q with
  | nil =>
      cases q with
      | nil => exact iff_of_false (List.lt_irrefl _) (List.lt_irrefl _)
      | cons m q => exact iff_of_true (List.nil_lt_cons _ _) (List.nil_lt_cons _ _)
  | cons n p ih =>
      cases q with
      | nil => exact iff_of_false (List.not_lt_nil _) (List.not_lt_nil _)
      | cons m q =>
          rw [List.map_cons, List.map_cons, List.cons_lt_cons_iff, ih,
            Text.bytes_lt_bytes_iff, Text.bytes_inj, List.cons_lt_cons_iff]

theorem lt_append {q : Place} (p : Place) (hq : q ≠ []) : p < p ++ q := by
  obtain ⟨n, q, rfl⟩ := List.exists_cons_of_ne_nil hq
  have hlt : p ++ [] < p ++ n :: q := List.append_left_lt (List.nil_lt_cons n q)
  rwa [List.append_nil] at hlt

end NotebookService.Files.Place

namespace NotebookService.Project

open NotebookService.Files

/-! ## What leaves a place out -/

/-- A name in a directory below the source that is not left out for what it is itself. -/
structure Spared (rules : Ignore.Rules) (root : Node) (source target above : Place)
    (name : String) : Prop where
  ignores_text : rules.ignores (Place.text (above ++ [name])) = false
  ignores_name : rules.ignores name = false
  entered : root.HasDir (source ++ (above ++ [name])) →
    name ≠ checkpointDir ∧ source ++ (above ++ [name]) ≠ target

/-- Neither the place nor anything above it, below the source, is left out. -/
def Kept (rules : Ignore.Rules) (root : Node) (source target p : Place) : Prop :=
  ∀ above name, above ++ [name] <+: p → Spared rules root source target above name

def IsNotebook (name : String) : Prop := notebookSuffix.toList <:+ name.toList

def IsScratch (name : String) : Prop := sandboxSuffix.toList <:+ name.toList

variable {rules : Ignore.Rules} {root : Node} {source target above p q : Place}
  {name : String}
  {found : Option Content} {entries : List (String × Node)} {k : Listing.Kind}

theorem Kept.of_prefix (h : Kept rules root source target p) (hq : q <+: p) :
    Kept rules root source target q :=
  fun above name ha => h above name (ha.trans hq)

theorem kept_concat_iff : Kept rules root source target (p ++ [name]) ↔
    Kept rules root source target p ∧ Spared rules root source target p name := by
  constructor
  · intro h
    exact ⟨h.of_prefix (List.prefix_append p [name]), h p name (List.prefix_refl _)⟩
  · rintro ⟨hp, hname⟩ above m ha
    rcases List.prefix_concat_iff.1 ha with he | ha
    · obtain ⟨rfl, hm⟩ := List.append_inj' he rfl
      cases hm
      exact hname
    · exact hp above m ha

namespace Listing

theorem isEntered_iff {place : Place} :
    isEntered (fun place => source ++ place = target) place name = true ↔
      name ≠ checkpointDir ∧ source ++ place ≠ target := by
  simp [isEntered]

/-- What something is listed as, if it is not left out. -/
inductive IsKind (name : String) : Option Content → Kind → Prop where
  | dir : IsKind name none .dir
  | notebook (content : Content) (h : IsNotebook name) (hs : ¬ IsScratch name) :
      IsKind name (some content) .notebook
  | file (content : Content) (h : ¬ IsNotebook name) : IsKind name (some content) .file

theorem endsWith_iff (name suffix : String) :
    name.endsWith suffix = true ↔ suffix.toList <:+ name.toList := by
  rw [String.endsWith_eq_endsWith_toSlice, String.Slice.endsWith_string_iff,
    String.copy_toSlice]

theorem kindOf_eq_some_iff {isBuildDir : Place → Bool} {place : Place} :
    kindOf isBuildDir place name found = some k ↔
      IsKind name found k ∧ (found = none → isEntered isBuildDir place name = true) := by
  cases found with
  | none =>
      rw [kindOf]
      split
      · rename_i he
        constructor
        · intro h
          cases h
          exact ⟨.dir, fun _ => he⟩
        · rintro ⟨⟨⟩, -⟩
          rfl
      · rename_i he
        exact iff_of_false (fun h => by cases h) fun h => he (h.2 rfl)
  | some content =>
      have hne : some content = none → isEntered isBuildDir place name = true :=
        fun h => by cases h
      rw [kindOf, and_iff_left hne]
      split
      · rename_i hn
        have hnotebook : IsNotebook name := (endsWith_iff _ _).1 hn
        split
        · rename_i hs
          refine iff_of_false (fun h => by cases h) fun h => ?_
          cases h with
          | notebook _ _ h => exact h ((endsWith_iff _ _).1 hs)
          | file _ h => exact h hnotebook
        · rename_i hs
          constructor
          · intro h
            cases h
            exact .notebook content hnotebook fun h => hs ((endsWith_iff _ _).2 h)
          · intro h
            cases h with
            | notebook _ _ _ => rfl
            | file _ h => exact absurd hnotebook h
      · rename_i hn
        have hfile : ¬ IsNotebook name := fun h => hn ((endsWith_iff _ _).2 h)
        constructor
        · intro h
          cases h
          exact .file content hfile
        · intro h
          cases h with
          | notebook _ h _ => exact absurd h hfile
          | file _ _ => rfl

/-- What is in a directory is listed by its own name, if the directory is listed. -/
theorem kindAt_concat_iff {isBuildDir : Place → Bool} (hp : p ≠ []) :
    kindAt rules isBuildDir above (p ++ [name]) found = some k ↔
      kindAt rules isBuildDir above p none = some .dir ∧
        isIgnored rules (above ++ (p ++ [name])) name = false ∧
        kindOf isBuildDir (above ++ (p ++ [name])) name found = some k := by
  induction p generalizing above with
  | nil => exact absurd rfl hp
  | cons m p ih =>
      have hassoc : above ++ m :: (p ++ [name]) = above ++ [m] ++ (p ++ [name]) := by
        rw [List.append_assoc]
        rfl
      rw [List.cons_append,
        kindAt_cons_iff (List.append_ne_nil_of_right_ne_nil p (List.cons_ne_nil name [])),
        hassoc]
      by_cases hpe : p = []
      · rw [hpe, List.nil_append, kindAt_singleton_iff, kindAt_singleton_iff, kindOf,
          ite_eq_left_iff]
        simp [and_assoc]
      · rw [kindAt_cons_iff hpe, ih hpe, and_assoc, and_assoc]

end Listing

theorem spared_iff (h : root.look (source ++ (above ++ [name])) = some found) :
    Spared rules root source target above name ↔
      Listing.isIgnored rules (above ++ [name]) name = false ∧
        (found = none → Listing.isEntered (fun place => source ++ place =
          target) (above ++ [name]) name = true) := by
  rw [Listing.isIgnored, Bool.or_eq_false_iff, Listing.isEntered_iff]
  constructor
  · intro hs
    refine ⟨⟨hs.ignores_text, hs.ignores_name⟩, ?_⟩
    rintro rfl
    exact hs.entered h
  · rintro ⟨⟨htext, hname⟩, he⟩
    refine ⟨htext, hname, fun hd => he ?_⟩
    exact Option.some.inj (h.symm.trans hd)

/-- What is kept is listed as what it is, and nothing else is listed. -/
theorem kindAt_iff_kept (h : root.look (source ++ (p ++ [name])) = some found) :
    Listing.kindAt rules (fun place => source ++ place = target) [] (p ++ [name]) found =
      some k ↔
      Kept rules root source target (p ++ [name]) ∧ Listing.IsKind name found k := by
  induction p using List.reverseRecOn generalizing name found k with
  | nil =>
      have hnil : Kept rules root source target [] := fun above n hn => by simp at hn
      rw [kept_concat_iff, and_iff_right hnil, spared_iff h, List.nil_append,
        Listing.kindAt_singleton_iff, Listing.kindOf_eq_some_iff, List.nil_append]
      tauto
  | append_singleton p m ih =>
      have hdir : root.HasDir (source ++ (p ++ [m])) := by
        refine Node.hasDir_of_look_append (List.cons_ne_nil name []) ?_
        rw [List.append_assoc, h]
        exact Option.some_ne_none found
      have hkind : Listing.IsKind m none .dir := .dir
      rw [Listing.kindAt_concat_iff
        (List.append_ne_nil_of_right_ne_nil p (List.cons_ne_nil m [])), ih hdir,
        and_iff_left hkind, kept_concat_iff (p := p ++ [m]), spared_iff h,
        Listing.kindOf_eq_some_iff]
      tauto

/-! ## The listing -/

section Listing

variable {l : Listing} (hd : root.Distinct) (hs : root.find? source = some (.dir entries))
  (hl : l = .ofEntries rules (fun place => source ++ place = target) [] entries)

include hd hs hl

theorem mem_list_iff_kindAt :
    p ∈ l.list k ↔ ∃ found, root.look (source ++ p) = some found ∧
    Listing.kindAt rules (fun place => source ++ place = target) [] p found = some k := by
  rw [hl, Listing.mem_list_iff_of_find? hd hs]

/-- A place is in a list if something of the kind is there and nothing leaves it out. -/
theorem mem_list_iff_kept : p ∈ l.list k ↔ ∃ above name found, p = above ++ [name] ∧
    root.look (source ++ p) = some found ∧ Kept rules root source target p ∧
      Listing.IsKind name found k := by
  rw [mem_list_iff_kindAt hd hs hl]
  constructor
  · rintro ⟨found, hf, hk⟩
    have hne := Listing.ne_nil_of_kindAt hk
    rw [← List.dropLast_concat_getLast hne] at hf hk ⊢
    obtain ⟨hkept, hkind⟩ := (kindAt_iff_kept hf).1 hk
    exact ⟨_, _, found, rfl, hf, hkept, hkind⟩
  · rintro ⟨above, name, found, rfl, hf, hkept, hkind⟩
    exact ⟨found, hf, (kindAt_iff_kept hf).2 ⟨hkept, hkind⟩⟩

theorem mem_dirs_iff : p ∈ l.dirs ↔
    p ≠ [] ∧ root.HasDir (source ++ p) ∧ Kept rules root source target p := by
  rw [show l.dirs = l.list .dir from rfl, mem_list_iff_kept hd hs hl]
  constructor
  · rintro ⟨above, name, found, rfl, hf, hkept, ⟨⟩⟩
    exact ⟨List.append_ne_nil_of_right_ne_nil above (List.cons_ne_nil name []), hf, hkept⟩
  · rintro ⟨hne, hf, hkept⟩
    exact ⟨_, _, none, (List.dropLast_concat_getLast hne).symm, hf, hkept, .dir⟩

theorem mem_notebooks_iff : p ∈ l.notebooks ↔ ∃ above name content, p = above ++ [name] ∧
    root.file? (source ++ p) = some content ∧ IsNotebook name ∧ ¬ IsScratch name ∧
      Kept rules root source target p := by
  rw [show l.notebooks = l.list .notebook from rfl, mem_list_iff_kept hd hs hl]
  constructor
  · rintro ⟨above, name, found, rfl, hf, hkept, hkind⟩
    cases hkind with
    | notebook content hn hscratch =>
        exact ⟨above, name, content, rfl, Node.file?_eq_some.2 (Node.look_eq_file.1 hf),
          hn, hscratch, hkept⟩
  · rintro ⟨above, name, content, rfl, hf, hn, hscratch, hkept⟩
    exact ⟨above, name, some content, rfl, Node.look_eq_file.2 (Node.file?_eq_some.1 hf),
      hkept, .notebook content hn hscratch⟩

theorem mem_files_iff : p ∈ l.files ↔ ∃ above name content, p = above ++ [name] ∧
    root.file? (source ++ p) = some content ∧ ¬ IsNotebook name ∧
      Kept rules root source target p := by
  rw [show l.files = l.list .file from rfl, mem_list_iff_kept hd hs hl]
  constructor
  · rintro ⟨above, name, found, rfl, hf, hkept, hkind⟩
    cases hkind with
    | file content hn =>
        exact ⟨above, name, content, rfl,
          Node.file?_eq_some.2 (Node.look_eq_file.1 hf), hn, hkept⟩
  · rintro ⟨above, name, content, rfl, hf, hn, hkept⟩
    exact ⟨above, name, some content, rfl, Node.look_eq_file.2 (Node.file?_eq_some.1 hf),
      hkept, .file content hn⟩

theorem pairwise_list (k : Listing.Kind) : (l.list k).Pairwise (· < ·) := by
  rw [hl]
  exact Listing.sorted_list (hd.of_find? hs)

theorem kind_unique {k' : Listing.Kind} (hp : p ∈ l.list k) (hp' : p ∈ l.list k') :
    k = k' := by
  obtain ⟨found, hf, hk⟩ := (mem_list_iff_kindAt hd hs hl).1 hp
  obtain ⟨found', hf', hk'⟩ := (mem_list_iff_kindAt hd hs hl).1 hp'
  cases hf.symm.trans hf'
  exact Option.some.inj (hk.symm.trans hk')

theorem nodup_lists : (l.dirs ++ l.notebooks ++ l.files).Nodup := by
  have hnodup (k : Listing.Kind) : (l.list k).Nodup := by
    refine (pairwise_list hd hs hl k).imp ?_
    rintro p q hlt rfl
    exact List.lt_irrefl p hlt
  have hdisjoint (k k' : Listing.Kind) (hne : k ≠ k') : ∀ p ∈ l.list k,
      ∀ q ∈ l.list k', p ≠ q := by
    rintro p hp q hq rfl
    exact hne (kind_unique hd hs hl hp hq)
  rw [List.nodup_append, List.nodup_append]
  refine ⟨⟨hnodup .dir, hnodup .notebook, hdisjoint .dir .notebook (by decide)⟩,
    hnodup .file, ?_⟩
  intro p hp
  rcases List.mem_append.1 hp with hp | hp
  · exact hdisjoint .dir .file (by decide) p hp
  · exact hdisjoint .notebook .file (by decide) p hp

/-- The directories on the way to a listed directory are listed before it. -/
theorem mem_before_of_prefix {before after : List Place}
    (hsplit : l.dirs = before ++ p :: after) (hne : q ≠ []) (hq : q <+: p) (hqp : q ≠ p) :
    q ∈ before := by
  have hp : p ∈ l.dirs := by
    rw [hsplit]
    exact List.mem_append_right _ List.mem_cons_self
  obtain ⟨-, hdir, hkept⟩ := (mem_dirs_iff hd hs hl).1 hp
  obtain ⟨r, rfl⟩ := hq
  have hr : r ≠ [] := by
    rintro rfl
    exact hqp (List.append_nil q).symm
  have hmem : q ∈ l.dirs := by
    refine (mem_dirs_iff hd hs hl).2 ⟨hne, ?_, hkept.of_prefix (List.prefix_append q r)⟩
    refine Node.hasDir_of_look_append hr ?_
    rw [List.append_assoc, hdir]
    exact Option.some_ne_none none
  -- it cannot come later, because it begins the place and so is lower
  have hlt : q < q ++ r := Place.lt_append q hr
  have hsorted := pairwise_list hd hs hl .dir
  rw [show l.list .dir = l.dirs from rfl, hsplit, List.pairwise_append,
    List.pairwise_cons] at hsorted
  rw [hsplit] at hmem
  rcases List.mem_append.1 hmem with hmem | hmem
  · exact hmem
  · rcases List.mem_cons.1 hmem with he | hmem
    · exact absurd he hqp
    · exact absurd (hsorted.2.1.1 q hmem) (List.lt_asymm hlt)

end Listing

/-- A walk reads a source tree to its end.  Every directory, notebook and other file
comes once, unless it or something above it is ignored, is a directory of autosaved
copies or the build directory; scratch notebooks do not come at all.  Each list goes up
strictly in the bytes of the places, name by name, and a directory comes after all that
are above it.  The tree may have its entries in any order. -/
theorem readListing_lists_kept {c : Config} {d : Disk} {node : Node}
    (rules : Ignore.Rules) (hd : d.root.Distinct)
    (hsource : readSource d c = .ok (source, entries))
    (htarget : d.find c.buildDir = .ok (target, node)) :
    ∃ l, Runs (readListing c rules) d l d ∧
      (l.dirs ++ l.notebooks ++ l.files).Nodup ∧
      (∀ p, p ∈ l.dirs ↔ p ≠ [] ∧ d.root.HasDir (source ++ p) ∧
        Kept rules d.root source target p) ∧
      (∀ p, p ∈ l.notebooks ↔ ∃ above name content, p = above ++ [name] ∧
        d.root.file? (source ++ p) = some content ∧ IsNotebook name ∧ ¬ IsScratch name ∧
          Kept rules d.root source target p) ∧
      (∀ p, p ∈ l.files ↔ ∃ above name content, p = above ++ [name] ∧
        d.root.file? (source ++ p) = some content ∧ ¬ IsNotebook name ∧
        Kept rules d.root source target p) ∧
      (∀ places ∈ [l.dirs, l.notebooks, l.files],
        places.Pairwise fun p q => p.bytes < q.bytes) ∧
      ∀ before p after, l.dirs = before ++ p :: after → ∀ q, q ≠ [] → q <+: p → q ≠ p →
      q ∈ before := by
  have hs : d.root.find? source = some (.dir entries) :=
    (Disk.find_eq_dir_iff.1 (readSource_eq_ok_iff.1 hsource)).2
  obtain ⟨l, hl⟩ : ∃ l, l =
      Listing.ofEntries rules (fun place => source ++ place = target) [] entries :=
        ⟨_, rfl⟩
  refine ⟨l, ?_, nodup_lists hd hs hl, fun p => mem_dirs_iff hd hs hl,
    fun p => mem_notebooks_iff hd hs hl, fun p => mem_files_iff hd hs hl, ?_, ?_⟩
  · have hbuild : ProjectError.writing c.buildDir (d.find c.buildDir) =
        .ok (target, node) := by
      rw [htarget]
      rfl
    rw [hl]
    exact runs_get_bind (runs_lift_bind hbuild (runs_lift_bind hsource rfl))
  · have hsorted (k : Listing.Kind) :=
      (pairwise_list hd hs hl k).imp Place.bytes_lt_bytes_iff.2
    exact List.forall_mem_cons.2 ⟨hsorted .dir, List.forall_mem_cons.2 ⟨hsorted .notebook,
      List.forall_mem_singleton.2 (hsorted .file)⟩⟩
  · intro before p after hsplit q hne hq hqp
    exact mem_before_of_prefix hd hs hl hsplit hne hq hqp

/-- A project with something of every kind, its entries in no order. -/
def shelfEntries : List (String × Node) :=
  [("z.log", .file "".toUTF8), ("build", .dir [("old.py", .file "".toUTF8)]),
    ("a.txt", .file "".toUTF8),
    (".ipynb_checkpoints", .dir [("n.ipynb", .file "".toUTF8)]),
    ("a", .dir [("sandbox.ipynb", .file "".toUTF8), ("n.ipynb", .file "".toUTF8)])]

def shelf : Disk := ⟨.dir [("p", .dir shelfEntries)], []⟩

def shelfConfig : Config := .ofSource "p"

theorem distinct_shelf : shelf.root.Distinct := by
  have hfile : (Node.file "".toUTF8).Distinct := .file _
  have hentries : (Node.dir shelfEntries).Distinct := by
    refine .dir (by decide) ?_
    simp only [shelfEntries, List.forall_mem_cons]
    refine ⟨hfile, ?_, hfile, ?_, ?_, List.forall_mem_nil _⟩
    · exact .dir (by decide) (List.forall_mem_singleton.2 hfile)
    · exact .dir (by decide) (List.forall_mem_singleton.2 hfile)
    · exact .dir (by decide) (List.forall_mem_cons.2 ⟨hfile,
          List.forall_mem_singleton.2 hfile⟩)
  exact .dir (by decide) (List.forall_mem_singleton.2 hentries)

theorem readListing_lists_kept_shelf : shelf.root.Distinct ∧
    readSource shelf shelfConfig = .ok (["p"], shelfEntries) ∧
    shelf.find shelfConfig.buildDir =
      .ok (["p", "build"], .dir [("old.py", .file "".toUTF8)]) ∧
    ∃ l, Runs (readListing shelfConfig (.ofText "*.log")) shelf l shelf ∧
      ["a"] ∈ l.dirs ∧ ["build"] ∉ l.dirs ∧ [".ipynb_checkpoints"] ∉ l.dirs := by
  have hsource : readSource shelf shelfConfig = .ok (["p"], shelfEntries) :=
    readSource_eq_ok_iff.2
      (Disk.find_eq_dir_iff.2 ⟨ok_of_toOption (by decide +kernel), rfl⟩)
  have htarget : shelf.find shelfConfig.buildDir =
      .ok (["p", "build"], .dir [("old.py", .file "".toUTF8)]) :=
    Disk.find_eq_dir_iff.2 ⟨ok_of_toOption (by decide +kernel), rfl⟩
  obtain ⟨l, hr, -, hdirs, -⟩ :=
    readListing_lists_kept (.ofText "*.log") distinct_shelf hsource htarget
  refine ⟨distinct_shelf, hsource, htarget, l, hr, ?_, ?_, ?_⟩
  · have hnil : Kept (.ofText "*.log") shelf.root ["p"] ["p", "build"] [] :=
      fun above n hn => by simp at hn
    refine (hdirs ["a"]).2 ⟨List.cons_ne_nil _ _, rfl,
      kept_concat_iff.2 ⟨hnil, ?_, ?_, fun _ => ?_⟩⟩
    · decide +kernel
    · decide +kernel
    · decide
  · intro h
    exact (((hdirs _).1 h).2.2 [] "build" (List.prefix_refl _)).entered rfl |>.2 rfl
  · intro h
    exact (((hdirs _).1 h).2.2 [] ".ipynb_checkpoints" (List.prefix_refl _)).entered rfl
      |>.1 rfl

example : ((readListing shelfConfig (.ofText "*.log")).run shelf).1.toOption =
    some ⟨[["a"]], [["a", "n.ipynb"]], [["a.txt"]]⟩ := by decide +kernel

end NotebookService.Project
