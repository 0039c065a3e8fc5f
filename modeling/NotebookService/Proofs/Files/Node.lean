/-
# `NotebookService.Proofs.Files.Node` — what a put changes in a tree

Whoever looks at a place finds nothing, a directory, or a file with its content.  A put
is described by what is found afterwards.  A file put into a directory, where a file was
or nothing, is found at its place, and everything else is found as before.  A directory
put where nothing was hides nothing: all that can happen is that a directory is found
where there was nothing.
-/
import NotebookService.Proofs.Files.Path
import NotebookService.Files.Node
import NotebookService.Table

namespace NotebookService.Files.Node

variable {node new : Node} {place p q : Place} {name : String} {content : Content}

/-! ## Looking -/

/-- What is found at a place: nothing, a directory, or a file with this content. -/
def look (node : Node) (place : Place) : Option (Option Content) :=
  (node.find? place).map fun
    | .file content => some content
    | .dir _ => none

/-- The content of the file at a place. -/
def file? (node : Node) (place : Place) : Option Content := (node.look place).join

/-- There is a directory at the place. -/
def HasDir (node : Node) (place : Place) : Prop := node.look place = some none

theorem look_eq_file :
    node.look place = some (some content) ↔ node.find? place = some (.file content) := by
  unfold look
  cases node.find? place with
  | none => simp
  | some n => cases n <;> simp

theorem hasDir_iff :
    node.HasDir place ↔ ∃ entries, node.find? place = some (.dir entries) := by
  unfold HasDir look
  cases node.find? place with
  | none => simp
  | some n => cases n <;> simp

theorem look_eq_none : node.look place = none ↔ node.find? place = none := by
  rw [look, Option.map_eq_none_iff]

theorem file?_eq_some :
    node.file? place = some content ↔ node.find? place = some (.file content) := by
  rw [file?, Option.join_eq_some_iff, look_eq_file]

theorem file?_eq_none_of_hasDir (h : node.HasDir place) : node.file? place = none := by
  rw [file?, h]
  rfl

theorem find?_cons (node : Node) (name : String) (place : Place) :
    node.find? (name :: place) = (node.child? name).bind fun child =>
      child.find? place := by
  rw [find?]
  cases node.child? name with
  | none => rfl
  | some child => rfl

theorem look_cons (node : Node) (name : String) (place : Place) :
    node.look (name :: place) = (node.child? name).bind fun child =>
      child.look place := by
  rw [look, find?_cons]
  cases node.child? name with
  | none => rfl
  | some child => rfl

theorem find?_append (node : Node) (p q : Place) :
    node.find? (p ++ q) = (node.find? p).bind fun n => n.find? q := by
  induction p generalizing node with
  | nil => rfl
  | cons name p ih =>
      rw [List.cons_append, find?_cons, find?_cons]
      cases node.child? name with
      | none => rfl
      | some child => exact ih child

theorem hasDir_of_look_append (hq : q ≠ []) (h : node.look (p ++ q) ≠ none) :
    node.HasDir p := by
  rw [Ne, look_eq_none, find?_append] at h
  rw [hasDir_iff]
  cases hp : node.find? p with
  | none =>
      rw [hp] at h
      exact absurd rfl h
  | some n =>
      cases n with
      | dir entries => exact ⟨entries, rfl⟩
      | file content =>
          obtain ⟨name, q, rfl⟩ := List.exists_cons_of_ne_nil hq
          rw [hp, Option.bind_some, find?_cons] at h
          exact absurd rfl h

theorem HasDir.dropLast (h : node.HasDir place) : node.HasDir place.dropLast := by
  by_cases hne : place = []
  · rwa [hne] at h ⊢
  · refine hasDir_of_look_append (q := [place.getLast hne]) (List.cons_ne_nil _ _) ?_
    rw [List.dropLast_concat_getLast hne, h]
    exact Option.some_ne_none none

theorem HasDir.root (h : node.HasDir place) : node.HasDir [] := by
  by_cases hne : place = []
  · rwa [hne] at h
  · refine hasDir_of_look_append (q := place) hne ?_
    rw [List.nil_append, h]
    exact Option.some_ne_none none

theorem HasDir.exists_child (h : node.HasDir (name :: place)) :
    ∃ entries child, node = dir entries ∧ entries.lookup name = some child ∧
      child.HasDir place := by
  unfold HasDir at h
  rw [look_cons] at h
  obtain ⟨child, hc, hd⟩ := Option.bind_eq_some_iff.1 h
  cases node with
  | file content => cases hc
  | dir entries => exact ⟨entries, child, rfl, hc, hd⟩

/-! ## Putting -/

theorem put_dir (entries : List (String × Node)) (new : Node) (name : String)
    (place : Place) :
    (dir entries).put new (name :: place) =
      .dir (putEntry name (((entries.lookup name).getD emptyDir).put new place)
        entries) := rfl

theorem look_dir_putEntry (entries : List (String × Node)) (name : String) (child : Node)
    (other : String) (q : Place) : (dir (putEntry name child entries)).look (other :: q) =
      if other = name then child.look q else (dir entries).look (other :: q) := by
  have hc : (dir (putEntry name child entries)).child? other =
      if other = name then some child else (dir entries).child? other :=
    lookup_putEntry name child entries other
  rw [look_cons, hc]
  split
  · rfl
  · rw [look_cons]

theorem look_dir_of_lookup {entries : List (String × Node)} {child : Node}
    (h : entries.lookup name = some child) (q : Place) :
    (dir entries).look (name :: q) = child.look q := by
  have hc : (dir entries).child? name = some child := h
  rw [look_cons, hc]
  rfl

theorem look_dir_of_lookup_eq_none {entries : List (String × Node)}
    (h : entries.lookup name = none) (q : Place) :
    (dir entries).look (name :: q) = none := by
  have hc : (dir entries).child? name = none := h
  rw [look_cons, hc]
  rfl

theorem look_put_append (h : node.HasDir place) (r : Place) :
    (node.put new (place ++ [name])).look (place ++ [name] ++ r) = new.look r := by
  induction place generalizing node with
  | nil =>
      obtain ⟨entries, he⟩ := hasDir_iff.1 h
      cases he
      show ((dir entries).put new [name]).look (name :: r) = new.look r
      rw [put_dir, look_dir_putEntry, if_pos rfl]
      rfl
  | cons m place ih =>
      obtain ⟨entries, child, rfl, hc, hd⟩ := h.exists_child
      show ((dir entries).put new (m :: (place ++ [name]))).look
        (m :: (place ++ [name] ++ r)) = new.look r
      rw [put_dir, look_dir_putEntry, if_pos rfl, hc]
      exact ih hd

theorem look_put_elsewhere (h : node.HasDir place) (hq : ¬ place ++ [name] <+: q) :
    (node.put new (place ++ [name])).look q = node.look q := by
  induction place generalizing node q with
  | nil =>
      obtain ⟨entries, he⟩ := hasDir_iff.1 h
      cases he
      rw [List.nil_append, put_dir]
      cases q with
      | nil => rfl
      | cons k q =>
          have hk : k ≠ name := by
            rintro rfl
            exact hq ⟨q, rfl⟩
          rw [look_dir_putEntry, if_neg hk]
  | cons m place ih =>
      obtain ⟨entries, child, rfl, hc, hd⟩ := h.exists_child
      rw [List.cons_append, put_dir]
      cases q with
      | nil => rfl
      | cons k q =>
          rw [look_dir_putEntry]
          split
          · rename_i hk
            have hq' : ¬ place ++ [name] <+: q :=
              fun hp => hq (List.cons_prefix_cons.2 ⟨hk.symm, hp⟩)
            rw [hk, look_dir_of_lookup hc, hc]
            exact ih hd hq'
          · rfl

theorem look_put_leaf (h : node.HasDir place) (hn : ¬ node.HasDir (place ++ [name]))
    (hl : ∀ k r, new.look (k :: r) = none) (q : Place) :
    (node.put new (place ++ [name])).look q = if q = place ++ [name] then new.look []
      else node.look q := by
  by_cases hq : place ++ [name] <+: q
  · obtain ⟨r, rfl⟩ := hq
    rw [look_put_append h r]
    cases r with
    | nil => rw [List.append_nil, if_pos rfl]
    | cons k r =>
        rw [if_neg (by simp), hl]
        cases hb : node.look (place ++ [name] ++ k :: r) with
        | none => rfl
        | some found =>
            refine absurd (hasDir_of_look_append (List.cons_ne_nil k r) ?_) hn
            rw [hb]
            exact Option.some_ne_none found
  · have hne : q ≠ place ++ [name] := by
      rintro rfl
      exact hq (List.prefix_refl _)
    rw [look_put_elsewhere h hq, if_neg hne]

theorem look_put_file (h : node.HasDir place) (hn : ¬ node.HasDir (place ++ [name]))
    (q : Place) :
    (node.put (.file content) (place ++ [name])).look q =
      if q = place ++ [name] then some (some content) else node.look q :=
  look_put_leaf h hn (look_cons (.file content)) q

theorem look_put_emptyDir_of_look_eq_none (h : node.HasDir place)
    (hn : node.look (place ++ [name]) = none) (q : Place) :
    (node.put .emptyDir (place ++ [name])).look q =
      if q = place ++ [name] then some none else node.look q := by
  refine look_put_leaf h ?_ (look_cons emptyDir) q
  rw [HasDir, hn]
  exact (Option.some_ne_none none).symm

theorem look_emptyDir (q : Place) :
    emptyDir.look q = none ∨ emptyDir.look q = some none := by
  cases q with
  | nil => exact .inr rfl
  | cons k q => exact .inl (look_cons emptyDir k q)

theorem find?_emptyDir {n : Node} (h : emptyDir.find? place = some n) : n = emptyDir := by
  cases place with
  | nil => exact (Option.some.inj h).symm
  | cons k place => cases h

theorem look_put_emptyDir (h : ∀ n, node.find? place = some n → n = emptyDir)
    (q : Place) :
    (node.put emptyDir place).look q = node.look q ∨
      node.look q = none ∧ (node.put emptyDir place).look q = some none := by
  induction place generalizing node q with
  | nil =>
      rw [h node rfl]
      exact .inl rfl
  | cons m place ih =>
      cases node with
      | file content => exact .inl rfl
      | dir entries =>
          rw [put_dir]
          cases q with
          | nil => exact .inl rfl
          | cons k q =>
              rw [look_dir_putEntry]
              split
              · rename_i hk
                rw [hk]
                cases hc : entries.lookup m with
                | none =>
                    rw [look_dir_of_lookup_eq_none hc]
                    rcases ih (fun n hn => find?_emptyDir hn) q with he | ⟨-, he⟩
                    · rw [Option.getD_none, he]
                      rcases look_emptyDir q with hl | hl
                      · exact .inl hl
                      · exact .inr ⟨rfl, hl⟩
                    · exact .inr ⟨rfl, he⟩
                | some child =>
                    rw [look_dir_of_lookup hc]
                    refine ih ?_ q
                    intro n hn
                    refine h n ?_
                    rw [find?_cons]
                    show (entries.lookup m).bind _ = _
                    rw [hc]
                    exact hn
              · exact .inl rfl

/-! ## Trees of names -/

/-- The entries of every directory have names and stand in their order, so
no name comes twice. -/
inductive WellFormed : Node → Prop where
  | file (content : Content) : WellFormed (.file content)
  | dir {entries : List (String × Node)} (names : ∀ e ∈ entries, IsName e.1)
      (sorted : (Table.names entries).Pairwise (· < ·))
      (nodes : ∀ e ∈ entries, WellFormed e.2) :
      WellFormed (.dir entries)

theorem wellFormed_emptyDir : emptyDir.WellFormed :=
  .dir (List.forall_mem_nil _) List.Pairwise.nil (List.forall_mem_nil _)

theorem mem_putEntry {entries : List (String × Node)} {e : String × Node}
    (h : e ∈ putEntry name new entries) : e = (name, new) ∨ e ∈ entries := by
  induction entries with
  | nil => exact .inl (List.mem_singleton.1 h)
  | cons f entries ih =>
      rw [putEntry] at h
      split at h
      · exact List.mem_cons.1 h
      · split at h
        · rcases List.mem_cons.1 h with h | h
          · exact .inl h
          · exact .inr (List.mem_cons_of_mem f h)
        · rcases List.mem_cons.1 h with h | h
          · exact .inr (h ▸ List.mem_cons_self)
          · rcases ih h with h | h
            · exact .inl h
            · exact .inr (List.mem_cons_of_mem f h)

theorem nodup_of_sorted {entries : List (String × Node)}
    (h : (Table.names entries).Pairwise (· < ·)) :
    (Table.names entries).Nodup := h.imp String.ne_of_lt

/-- No two entries of a directory have the same name; in which order they
stand is left open. -/
inductive Distinct : Node → Prop where
  | file (content : Content) : Distinct (.file content)
  | dir {entries : List (String × Node)} (names : (Table.names entries).Nodup)
      (nodes : ∀ e ∈ entries, Distinct e.2) : Distinct (.dir entries)

theorem WellFormed.distinct (h : node.WellFormed) : node.Distinct := by
  induction h with
  | file content => exact .file content
  | dir names sorted nodes ih => exact .dir (nodup_of_sorted sorted) ih

theorem Distinct.lookup_eq_some_iff {entries : List (String × Node)} {child : Node}
    (h : (Node.dir entries).Distinct) :
    entries.lookup name = some child ↔ (name, child) ∈ entries := by
  cases h with
  | dir names nodes => exact Table.lookup_eq_some_iff_mem names

theorem WellFormed.lookup_eq_some_iff {entries : List (String × Node)} {child : Node}
    (h : (Node.dir entries).WellFormed) :
    entries.lookup name = some child ↔ (name, child) ∈ entries :=
  h.distinct.lookup_eq_some_iff

theorem Distinct.of_mem {entries : List (String × Node)} {child : Node}
    (h : (Node.dir entries).Distinct) (hm : (name, child) ∈ entries) :
    child.Distinct := by
  cases h with
  | dir names nodes => exact nodes _ hm

theorem Distinct.of_find? {n : Node} (h : node.Distinct)
    (hf : node.find? place = some n) : n.Distinct := by
  induction place generalizing node with
  | nil => rwa [← Option.some.inj hf]
  | cons m place ih =>
      rw [find?_cons] at hf
      obtain ⟨child, hc, hn⟩ := Option.bind_eq_some_iff.1 hf
      cases node with
      | file content => cases hc
      | dir entries => exact ih (h.of_mem (h.lookup_eq_some_iff.1 hc)) hn

theorem WellFormed.of_mem {entries : List (String × Node)} {child : Node}
    (h : (Node.dir entries).WellFormed) (hm : (name, child) ∈ entries) :
    IsName name ∧ child.WellFormed := by
  cases h with
  | dir names sorted nodes => exact ⟨names _ hm, nodes _ hm⟩

theorem WellFormed.of_find? {n : Node} (h : node.WellFormed)
    (hf : node.find? place = some n) :
    n.WellFormed := by
  induction place generalizing node with
  | nil => rwa [← Option.some.inj hf]
  | cons m place ih =>
      rw [find?_cons] at hf
      obtain ⟨child, hc, hn⟩ := Option.bind_eq_some_iff.1 hf
      cases node with
      | file content => cases hc
      | dir entries => exact ih (h.of_mem (h.lookup_eq_some_iff.1 hc)).2 hn

theorem WellFormed.isName_of_hasDir (h : node.WellFormed) (hd : node.HasDir place) :
    ∀ n ∈ place, IsName n := by
  induction place generalizing node with
  | nil => exact List.forall_mem_nil _
  | cons m place ih =>
      obtain ⟨entries, child, rfl, hl, hc⟩ := hd.exists_child
      obtain ⟨hm, hw⟩ := h.of_mem (h.lookup_eq_some_iff.1 hl)
      exact List.forall_mem_cons.2 ⟨hm, ih hw hc⟩

theorem names_putEntry_subset {entries : List (String × Node)} {m : String}
    (h : m ∈ Table.names (putEntry name new entries)) :
    m = name ∨ m ∈ Table.names entries := by
  obtain ⟨e, he, rfl⟩ := List.mem_map.1 h
  rcases mem_putEntry he with rfl | he
  · exact .inl rfl
  · exact .inr (Table.mem_names_of_mem he)

theorem sorted_putEntry {entries : List (String × Node)}
    (h : (Table.names entries).Pairwise (· < ·)) :
    (Table.names (putEntry name new entries)).Pairwise (· < ·) := by
  induction entries with
  | nil => exact List.pairwise_singleton _ name
  | cons e entries ih =>
      obtain ⟨he, hs⟩ := List.pairwise_cons.1 h
      rw [putEntry]
      split
      · rename_i hlt
        refine List.pairwise_cons.2 ⟨?_, h⟩
        intro m hm
        rcases List.mem_cons.1 hm with rfl | hm
        · exact hlt
        · exact String.lt_trans hlt (he m hm)
      · rename_i hlt
        split
        · rename_i heq
          exact List.pairwise_cons.2 ⟨heq ▸ he, hs⟩
        · rename_i hne
          have hgt : e.1 < name := by
            refine Decidable.byContradiction fun hgt => hne ?_
            exact String.le_antisymm (String.not_lt.1 hgt) (String.not_lt.1 hlt)
          refine List.pairwise_cons.2 ⟨?_, ih hs⟩
          intro m hm
          rcases names_putEntry_subset hm with rfl | hm
          · exact hgt
          · exact he m hm

theorem WellFormed.put (h : node.WellFormed) (hn : new.WellFormed)
    (hp : ∀ n ∈ place, IsName n) :
    (node.put new place).WellFormed := by
  induction place generalizing node with
  | nil => exact hn
  | cons m place ih =>
      cases node with
      | file content => exact .file content
      | dir entries =>
          have hc : ((entries.lookup m).getD emptyDir).WellFormed := by
            cases hl : entries.lookup m with
            | none => exact wellFormed_emptyDir
            | some child => exact (h.of_mem (h.lookup_eq_some_iff.1 hl)).2
          obtain ⟨hm, hp⟩ := List.forall_mem_cons.1 hp
          have hr := ih hc hp
          rw [put_dir]
          cases h with
          | dir names sorted nodes =>
          refine .dir ?_ (sorted_putEntry sorted) ?_
          · intro e he
            rcases mem_putEntry he with rfl | he
            · exact hm
            · exact names e he
          · intro e he
            rcases mem_putEntry he with rfl | he
            · exact hr
            · exact nodes e he

end NotebookService.Files.Node
