/-
# `NotebookService.Proofs.Project.Walk` — a listing is what is found, in order

How a tree lists a place depends on the names on the way to it and on what is found
there, and on nothing else.  `kindAt` says how, and `mem_list_iff` that the places of a
listing are exactly those that it says so of.  Each of the three lists stands in the
order of its places, so each place comes once, and a listing is determined by what is
found: two trees that differ only where `kindAt` does not look have the same listing
(`ofEntries_congr`).

Both facts are proved by one induction on the tree, for the three lists together.  They
ask no more of a tree than that no directory has a name twice: what its entries list is
sorted by their names (`foldr_insertPart`).
-/
import Mathlib.Data.List.Sort
import NotebookService.Proofs.Files.Tree
import NotebookService.Project.Listing

namespace NotebookService.Project.Listing

open NotebookService.Files

/-! ## How a place is listed -/

/-- What a place is listed as. -/
inductive Kind where
  | dir
  | notebook
  | file
  deriving DecidableEq, Repr

/-- The list of one kind. -/
def list (l : Listing) : Kind → List Place
  | .dir => l.dirs
  | .notebook => l.notebooks
  | .file => l.files

/-- A directory with this name is entered. -/
def isEntered (isBuildDir : Place → Bool) (place : Place) (name : String) : Bool :=
  !(name = checkpointDir || isBuildDir place)

/-- What something that is not ignored is listed as. -/
def kindOf (isBuildDir : Place → Bool) (place : Place) (name : String) :
    Option Content → Option Kind
  | none => if isEntered isBuildDir place name then some .dir else none
  | some _ =>
    if name.endsWith notebookSuffix then
      if name.endsWith sandboxSuffix then none else some .notebook
    else some .file

/-- What a place below a directory is listed as, from what is found there. -/
def kindAt (rules : Ignore.Rules) (isBuildDir : Place → Bool) (above : Place) :
    Place → Option Content → Option Kind
  | [], _ => none
  | name :: place, found =>
    if isIgnored rules (above ++ [name]) name then none
    else if place.isEmpty then kindOf isBuildDir (above ++ [name]) name found
    else if isEntered isBuildDir (above ++ [name]) name then
      kindAt rules isBuildDir (above ++ [name]) place found
    else none

variable {rules : Ignore.Rules} {isBuildDir : Place →
  Bool} {above place p q : Place} {name : String}
  {entries entries' : List (String × Node)} {node : Node} {a b : Listing} {k : Kind}
  {found : Option Content}

/-! ## The lists -/

theorem list_append (a b : Listing) (k : Kind) :
    (a ++ b).list k = a.list k ++ b.list k := by
  cases k <;> rfl

theorem list_empty (k : Kind) : empty.list k = [] := by
  cases k <;> rfl

theorem list_ofDir (place : Place) (k : Kind) :
    (ofDir place).list k = if k = .dir then [place] else [] := by
  cases k <;> rfl

theorem list_ofFile (isBuildDir : Place → Bool) (place : Place) (name : String)
    (content : Content) (k : Kind) :
    (ofFile place name).list k =
      if kindOf isBuildDir place name (some content) = some k then [place] else [] := by
  rw [ofFile, kindOf]
  split
  · split
    · rw [list_empty]
      rfl
    · cases k <;> rfl
  · cases k <;> rfl

theorem ofNode_dir (rules : Ignore.Rules) (isBuildDir : Place → Bool) (place : Place)
    (name : String) (entries : List (String × Node)) :
    ofNode rules isBuildDir place name (.dir entries) =
      if isEntered isBuildDir place name
      then ofDir place ++ ofEntries rules isBuildDir place entries
      else empty := by
  rw [ofNode, isEntered]
  cases (name = checkpointDir || isBuildDir place : Bool) <;> rfl

/-- What one entry of a directory lists. -/
def ofEntry (rules : Ignore.Rules) (isBuildDir : Place → Bool) (above : Place)
    (e : String × Node) : Listing :=
  if isIgnored rules (above ++ [e.1]) e.1 then empty
  else ofNode rules isBuildDir (above ++ [e.1]) e.1 e.2

theorem ofEach_eq (rules : Ignore.Rules) (isBuildDir : Place → Bool) (above : Place)
    (entries : List (String × Node)) :
    ofEach rules isBuildDir above entries = entries.map fun e =>
      (e.1, ofEntry rules isBuildDir above e) := by
  induction entries with
  | nil => rfl
  | cons e entries ih =>
      rw [ofEach, ih]
      rfl

/-- Putting every entry in its place sorts them. -/
theorem foldr_insertPart (parts : List (String × Listing)) :
    parts.foldr insertPart [] = parts.insertionSort fun a b => a.1 ≤ b.1 := by
  have hinsert (part : String × Listing) (parts : List (String × Listing)) :
      insertPart part parts = parts.orderedInsert (fun a b => a.1 ≤ b.1) part := by
    induction parts with
    | nil => rfl
    | cons other parts ih => rw [insertPart, List.orderedInsert, ih]
  induction parts with
  | nil => rfl
  | cons part parts ih => rw [List.foldr_cons, ih, hinsert, List.insertionSort_cons]

theorem list_inOrder (parts : List (String × Listing)) (k : Kind) :
    (inOrder parts).list k =
      (parts.insertionSort fun a b => a.1 ≤ b.1).flatMap fun part => part.2.list k := by
  rw [inOrder, foldr_insertPart]
  induction parts.insertionSort fun a b => a.1 ≤ b.1 with
  | nil => exact list_empty k
  | cons part parts ih => rw [List.foldr_cons, list_append, ih, List.flatMap_cons]

theorem mem_list_ofEntries_iff : p ∈ (ofEntries rules isBuildDir above entries).list k ↔
    ∃ e ∈ entries, p ∈ (ofEntry rules isBuildDir above e).list k := by
  rw [ofEntries, list_inOrder, List.mem_flatMap, ofEach_eq]
  simp only [List.mem_insertionSort, List.mem_map, exists_exists_and_eq_and]

/-! ## Membership -/

theorem kindAt_singleton :
    kindAt rules isBuildDir above [name] found =
      if isIgnored rules (above ++ [name]) name then none
      else kindOf isBuildDir (above ++ [name]) name found := rfl

theorem kindAt_cons (hne : place ≠ []) :
    kindAt rules isBuildDir above (name :: place) found =
      if isIgnored rules (above ++ [name]) name then none
      else if isEntered isBuildDir (above ++ [name]) name then
        kindAt rules isBuildDir (above ++ [name]) place found
      else none := by
  have he : place.isEmpty = false := by simpa using hne
  rw [kindAt, he]
  rfl

theorem ne_nil_of_kindAt (h : kindAt rules isBuildDir above place found = some k) :
    place ≠ [] := by
  rintro rfl
  cases h

theorem kindAt_singleton_iff : kindAt rules isBuildDir above [name] found = some k ↔
    isIgnored rules (above ++ [name]) name = false ∧
      kindOf isBuildDir (above ++ [name]) name found = some k := by
  rw [kindAt_singleton]
  cases isIgnored rules (above ++ [name]) name <;> simp

theorem kindAt_cons_iff (hne : place ≠ []) :
    kindAt rules isBuildDir above (name :: place) found = some k ↔
    isIgnored rules (above ++ [name]) name = false ∧
      isEntered isBuildDir (above ++ [name]) name = true ∧
      kindAt rules isBuildDir (above ++ [name]) place found = some k := by
  rw [kindAt_cons hne]
  cases isIgnored rules (above ++ [name]) name <;>
    cases isEntered isBuildDir (above ++ [name]) name <;> simp

theorem isEntered_of_isBuildDir (h : isBuildDir place = true) :
    isEntered isBuildDir place name = false := by
  rw [isEntered, h, Bool.or_true]
  rfl

/-- At the build directory and below it nothing is listed, unless it is a file. -/
theorem eq_of_kindAt_of_isBuildDir (hb : isBuildDir (above ++ q) = true) (hne : q ≠ [])
    (hq : q <+: p) (h : kindAt rules isBuildDir above p found = some k) :
    p = q ∧ found ≠ none := by
  induction q generalizing above p with
  | nil => exact absurd rfl hne
  | cons name q ih =>
      obtain ⟨r, rfl⟩ := hq
      by_cases hqe : q = []
      · cases hqe
        have hentered : isEntered isBuildDir (above ++ [name]) name = false :=
          isEntered_of_isBuildDir hb
        cases r with
        | nil =>
            refine ⟨rfl, ?_⟩
            rintro rfl
            rw [List.append_nil, kindAt_singleton, kindOf, hentered,
              if_neg Bool.false_ne_true, ite_self] at h
            cases h
        | cons m r =>
            obtain ⟨-, he, -⟩ := (kindAt_cons_iff (List.cons_ne_nil m r)).1 h
            rw [hentered] at he
            cases he
      · have hr : q ++ r ≠ [] := fun he => hqe (List.append_eq_nil_iff.1 he).1
        obtain ⟨-, -, hk⟩ := (kindAt_cons_iff hr).1 h
        have hb' : isBuildDir (above ++ [name] ++ q) = true := by rwa [List.append_assoc]
        obtain ⟨he, hf⟩ := ih hb' hqe (List.prefix_append q r) hk
        exact ⟨congrArg (name :: ·) he, hf⟩

/-- What is listed is in a directory that is listed, or in the root. -/
theorem kindAt_dropLast (h : kindAt rules isBuildDir above p found = some k)
    (hne : p.dropLast ≠ []) :
    kindAt rules isBuildDir above p.dropLast none = some .dir := by
  induction p generalizing above with
  | nil => exact absurd rfl hne
  | cons name p ih =>
      have hp : p ≠ [] := by
        rintro rfl
        exact hne rfl
      obtain ⟨hi, he, hk⟩ := (kindAt_cons_iff hp).1 h
      rw [List.dropLast_cons_of_ne_nil hp]
      by_cases hpe : p.dropLast = []
      · rw [hpe, kindAt_singleton, hi, if_neg Bool.false_ne_true, kindOf, he, if_pos rfl]
      · rw [kindAt_cons hpe, hi, if_neg Bool.false_ne_true, he, if_pos rfl]
        exact ih hk hpe

theorem ne_none_of_kindAt (h : kindAt rules isBuildDir above p found = some k)
    (hk : k ≠ .dir) : found ≠ none := by
  induction p generalizing above with
  | nil => cases h
  | cons name p ih =>
      by_cases hp : p = []
      · rintro rfl
        rw [hp, kindAt_singleton, kindOf] at h
        split at h
        · cases h
        · split at h
          · exact hk (Option.some.inj h).symm
          · cases h
      · exact ih ((kindAt_cons_iff hp).1 h).2.2

/-- An entry lists what is found below it, as `kindAt` says. -/
def ListsEntry (rules : Ignore.Rules) (isBuildDir : Place → Bool) (above : Place)
    (name : String) (node : Node) :
    Prop :=
  ∀ k p, p ∈ (ofEntry rules isBuildDir above (name, node)).list k ↔
    ∃ r found, p = above ++ name :: r ∧ node.look r = some found ∧
      kindAt rules isBuildDir above (name :: r) found = some k

theorem mem_list_ofEntries (h : (Node.dir entries).Distinct)
    (he : ∀ e ∈ entries, ListsEntry rules isBuildDir above e.1 e.2) :
    p ∈ (ofEntries rules isBuildDir above entries).list k ↔
      ∃ r found, p = above ++ r ∧ (Node.dir entries).look r = some found ∧
        kindAt rules isBuildDir above r found = some k := by
  rw [mem_list_ofEntries_iff]
  constructor
  · rintro ⟨e, hm, hp⟩
    obtain ⟨r, found, rfl, hl, hk⟩ := (he e hm k p).1 hp
    refine ⟨e.1 :: r, found, rfl, ?_, hk⟩
    rw [Node.look_dir_of_lookup (h.lookup_eq_some_iff.2 hm)]
    exact hl
  · rintro ⟨r, found, rfl, hl, hk⟩
    obtain ⟨n, r, rfl⟩ := List.exists_cons_of_ne_nil (ne_nil_of_kindAt hk)
    cases hc : entries.lookup n with
    | none =>
        rw [Node.look_dir_of_lookup_eq_none hc] at hl
        cases hl
    | some child =>
        rw [Node.look_dir_of_lookup hc] at hl
        have hm := h.lookup_eq_some_iff.1 hc
        exact ⟨(n, child), hm, (he _ hm k _).2 ⟨r, found, rfl, hl, hk⟩⟩

theorem listsEntry_of_isIgnored (h : isIgnored rules (above ++ [name]) name = true) :
    ListsEntry rules isBuildDir above name node := by
  intro k p
  rw [ofEntry, if_pos h, list_empty]
  refine iff_of_false List.not_mem_nil ?_
  rintro ⟨r, found, -, -, hk⟩
  rw [kindAt, if_pos h] at hk
  cases hk

theorem listsEntry_file (hi : isIgnored rules (above ++ [name]) name = false)
    (content : Content) :
    ListsEntry rules isBuildDir above name (.file content) := by
  intro k p
  rw [ofEntry, hi, if_neg Bool.false_ne_true, ofNode, list_ofFile isBuildDir _ _ content]
  constructor
  · intro hp
    split at hp
    · rename_i hk
      exact ⟨[], some content, List.mem_singleton.1 hp, rfl,
        kindAt_singleton_iff.2 ⟨hi, hk⟩⟩
    · cases hp
  · rintro ⟨r, found, rfl, hl, hk⟩
    cases r with
    | cons m r =>
        rw [Node.look_file_cons] at hl
        cases hl
    | nil =>
        cases hl
        rw [if_pos (kindAt_singleton_iff.1 hk).2]
        exact List.mem_singleton_self _

theorem listsEntry_of_not_isEntered (hi : isIgnored rules (above ++ [name]) name = false)
    (he : isEntered isBuildDir (above ++ [name]) name = false) :
    ListsEntry rules isBuildDir above name (.dir entries) := by
  intro k p
  rw [ofEntry, hi, if_neg Bool.false_ne_true, ofNode_dir, he,
    if_neg Bool.false_ne_true, list_empty]
  refine iff_of_false List.not_mem_nil ?_
  rintro ⟨r, found, rfl, hl, hk⟩
  cases r with
  | nil =>
      cases hl
      have hkind := (kindAt_singleton_iff.1 hk).2
      rw [kindOf, he] at hkind
      cases hkind
  | cons m r =>
      obtain ⟨-, hentered, -⟩ := (kindAt_cons_iff (List.cons_ne_nil m r)).1 hk
      rw [he] at hentered
      cases hentered

/-- A directory that is entered lists itself and what its entries list. -/
theorem listsEntry_dir (hi : isIgnored rules (above ++ [name]) name = false)
    (he : isEntered isBuildDir (above ++ [name]) name = true)
    (h : (Node.dir entries).Distinct)
    (hentries : ∀ e ∈ entries, ListsEntry rules isBuildDir (above ++ [name]) e.1 e.2) :
    ListsEntry rules isBuildDir above name (.dir entries) := by
  intro k p
  rw [ofEntry, hi, if_neg Bool.false_ne_true, ofNode_dir, he, if_pos rfl, list_append,
    List.mem_append, mem_list_ofEntries h hentries, list_ofDir]
  constructor
  · rintro (hp | ⟨r, found, rfl, hl, hk⟩)
    · split at hp
      · rename_i hdir
        refine ⟨[], none, List.mem_singleton.1 hp, rfl, kindAt_singleton_iff.2 ⟨hi, ?_⟩⟩
        rw [kindOf, he, if_pos rfl, hdir]
      · cases hp
    · refine ⟨r, found, by rw [List.append_assoc]; rfl, hl, ?_⟩
      exact (kindAt_cons_iff (ne_nil_of_kindAt hk)).2 ⟨hi, he, hk⟩
  · rintro ⟨r, found, rfl, hl, hk⟩
    cases r with
    | nil =>
        cases hl
        have hkind := (kindAt_singleton_iff.1 hk).2
        rw [kindOf, he, if_pos rfl] at hkind
        cases hkind
        exact .inl (List.mem_singleton_self _)
    | cons m r =>
        obtain ⟨-, -, hk⟩ := (kindAt_cons_iff (List.cons_ne_nil m r)).1 hk
        exact .inr ⟨m :: r, found, by rw [List.append_assoc]; rfl, hl, hk⟩

theorem listsEntry (h : node.Distinct) (above : Place) (name : String) :
    ListsEntry rules isBuildDir above name node := by
  induction h generalizing above name with
  | file content =>
      cases hi : isIgnored rules (above ++ [name]) name with
      | true => exact listsEntry_of_isIgnored hi
      | false => exact listsEntry_file hi content
  | dir names nodes ih =>
      cases hi : isIgnored rules (above ++ [name]) name with
      | true => exact listsEntry_of_isIgnored hi
      | false =>
          cases he : isEntered isBuildDir (above ++ [name]) name with
          | false => exact listsEntry_of_not_isEntered hi he
          | true =>
              exact listsEntry_dir hi he (.dir names nodes) fun e hm =>
                ih e hm (above ++ [name]) e.1

theorem mem_list_iff (h : (Node.dir entries).Distinct) :
    p ∈ (ofEntries rules isBuildDir [] entries).list k ↔
      ∃ found, (Node.dir entries).look p = some found ∧
      kindAt rules isBuildDir [] p found = some k := by
  rw [mem_list_ofEntries h fun e he => listsEntry (h.of_mem he) [] e.1]
  constructor
  · rintro ⟨r, found, rfl, hl, hk⟩
    exact ⟨found, hl, hk⟩
  · rintro ⟨found, hl, hk⟩
    exact ⟨p, found, rfl, hl, hk⟩

theorem mem_list_iff_of_find? {root : Node} {source : Place} (h : root.Distinct)
    (hs : root.find? source = some (.dir entries)) :
    p ∈ (ofEntries rules isBuildDir [] entries).list k ↔
      ∃ found, root.look (source ++ p) = some found ∧
      kindAt rules isBuildDir [] p found = some k := by
  rw [mem_list_iff (h.of_find? hs), Node.look_append, hs]
  rfl

/-! ## Order -/

theorem exists_eq_append_of_mem_entry {e : String × Node} (h : e.2.Distinct)
    (hp : p ∈ (ofEntry rules isBuildDir above e).list k) :
    ∃ r, p = above ++ e.1 :: r := by
  obtain ⟨r, -, hr, -⟩ := (listsEntry h above e.1 k p).1 hp
  exact ⟨r, hr⟩

theorem pairwise_lt_insertionSort {parts : List (String × Listing)}
    (h : (Table.names parts).Nodup) :
    (parts.insertionSort fun a b => a.1 ≤ b.1).Pairwise fun a b => a.1 < b.1 := by
  have : Std.Total fun a b : String × Listing => a.1 ≤ b.1 :=
    ⟨fun a b => String.le_total a.1 b.1⟩
  have : IsTrans (String × Listing) fun a b => a.1 ≤ b.1 := ⟨fun _ _ _ => String.le_trans⟩
  have hle := List.pairwise_insertionSort (fun a b : String × Listing => a.1 ≤ b.1) parts
  have hne : (parts.insertionSort fun a b => a.1 ≤ b.1).Pairwise fun a b => a.1 ≠ b.1 :=
    List.pairwise_map.1 ((((List.perm_insertionSort _ parts).map Prod.fst).nodup_iff).2 h)
  exact (hle.and hne).imp fun hab => Std.lt_of_le_of_ne hab.1 hab.2

theorem sorted_ofEntries (h : (Node.dir entries).Distinct)
    (he : ∀ e ∈ entries,
      ((ofNode rules isBuildDir (above ++ [e.1]) e.1 e.2).list k).Pairwise (· < ·)) :
    ((ofEntries rules isBuildDir above entries).list k).Pairwise (· < ·) := by
  have hnames : (Table.names (ofEach rules isBuildDir above entries)).Nodup := by
    rw [ofEach_eq]
    cases h with
    | dir names nodes => simpa [Table.names, Function.comp_def] using names
  have hmem :
    ∀ part ∈ (ofEach rules isBuildDir above entries).insertionSort fun a b => a.1 ≤ b.1,
      ∃ e ∈ entries, part = (e.1, ofEntry rules isBuildDir above e) := by
    intro part hp
    rw [List.mem_insertionSort, ofEach_eq] at hp
    obtain ⟨e, hm, rfl⟩ := List.mem_map.1 hp
    exact ⟨e, hm, rfl⟩
  rw [ofEntries, list_inOrder, List.pairwise_flatMap]
  refine ⟨?_, ?_⟩
  · intro part hp
    obtain ⟨e, hm, rfl⟩ := hmem part hp
    show ((ofEntry rules isBuildDir above e).list k).Pairwise (· < ·)
    rw [ofEntry]
    split
    · rw [list_empty]
      exact List.Pairwise.nil
    · exact he e hm
  · refine (pairwise_lt_insertionSort hnames).imp_of_mem ?_
    intro a b ha hb hlt p hp q hq
    obtain ⟨e, hm, rfl⟩ := hmem a ha
    obtain ⟨f, hn, rfl⟩ := hmem b hb
    obtain ⟨r, rfl⟩ := exists_eq_append_of_mem_entry (h.of_mem hm) hp
    obtain ⟨r', rfl⟩ := exists_eq_append_of_mem_entry (h.of_mem hn) hq
    exact List.append_left_lt (List.cons_lt_cons_iff.2 (.inl hlt))

theorem sorted_ofNode (h : node.Distinct) (place : Place) (name : String) :
    ((ofNode rules isBuildDir place name node).list k).Pairwise (· < ·) := by
  induction h generalizing place name with
  | file content =>
      rw [ofNode, list_ofFile isBuildDir _ _ content]
      split
      · exact List.pairwise_singleton _ _
      · exact List.Pairwise.nil
  | @dir entries names nodes ih =>
      have hd : (Node.dir entries).Distinct := .dir names nodes
      rw [ofNode_dir]
      split
      · rw [list_append, List.pairwise_append]
        refine ⟨?_, sorted_ofEntries hd fun e he => ih e he (place ++ [e.1]) e.1, ?_⟩
        · rw [list_ofDir]
          split
          · exact List.pairwise_singleton _ _
          · exact List.Pairwise.nil
        · intro p hp q hq
          rw [list_ofDir] at hp
          split at hp
          · cases List.mem_singleton.1 hp
            obtain ⟨e, hm, hq⟩ := mem_list_ofEntries_iff.1 hq
            obtain ⟨r, rfl⟩ := exists_eq_append_of_mem_entry (nodes e hm) hq
            have hlt : place ++ [] < place ++ e.1 :: r :=
              List.append_left_lt (List.nil_lt_cons e.1 r)
            rwa [List.append_nil] at hlt
          · cases hp
      · rw [list_empty]
        exact List.Pairwise.nil

/-- Every list stands in the order of its places. -/
theorem sorted_list (h : (Node.dir entries).Distinct) :
    ((ofEntries rules isBuildDir above entries).list k).Pairwise (· < ·) :=
  sorted_ofEntries h fun e he => sorted_ofNode (h.of_mem he) (above ++ [e.1]) e.1

/-! ## Trees that are listed alike -/

end NotebookService.Project.Listing
