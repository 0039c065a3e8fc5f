/-
# `NotebookService.Proofs.Files.Tree` — a tree is what is found in it

The entries of a directory stand in the order of their names, each name once.  So there
is nothing to a tree but what is found at its places: two trees in which the same is
found everywhere are the same (`ext_of_look`), and two trees in which the same is found
below a place have the same node there (`find?_eq_of_look`).

What is left when something is taken away is described in the same terms: nothing is
found at its place or below, and everything else is found as before.
-/
import Mathlib.Data.List.Sort
import NotebookService.Proofs.Files.Node

namespace NotebookService.Files.Node

variable {node node' : Node} {place p q : Place} {name : String} {content : Content}
  {entries entries' : List (String × Node)}

/-! ## Trees with the same places -/

theorem look_append (node : Node) (p q : Place) :
    node.look (p ++ q) = (node.find? p).bind fun n => n.look q := by
  rw [look, find?_append]
  cases node.find? p with
  | none => rfl
  | some n => rfl

theorem look_file_cons (content : Content) (name : String) (q : Place) :
    (file content).look (name :: q) = none := look_cons _ name q

theorem look_nil_ne_none (node : Node) : node.look [] ≠ none := by
  cases node <;> exact Option.some_ne_none _

theorem mem_names_iff : name ∈ Table.names entries ↔
      (dir entries).look [name] ≠ none := by
  constructor
  · intro hm
    obtain ⟨e, he, rfl⟩ := List.mem_map.1 hm
    cases hl : entries.lookup e.1 with
    | none => simpa using List.lookup_eq_none_iff.1 hl e he
    | some child =>
        rw [look_dir_of_lookup hl]
        exact child.look_nil_ne_none
  · intro hl
    by_contra hm
    exact hl (look_dir_of_lookup_eq_none (Table.lookup_eq_none_of_not_mem hm) [])

/-- Two trees of names in which the same is found at every place are equal. -/
theorem ext_of_look (h : node.WellFormed) (h' : node'.WellFormed)
    (hl : ∀ q, node.look q = node'.look q) :
    node = node' := by
  induction h generalizing node' with
  | file content =>
      have hf : node'.look [] = some (some content) := (hl []).symm
      exact (Option.some.inj (look_eq_file.1 hf)).symm
  | @dir entries names sorted nodes ih =>
      obtain ⟨entries', he⟩ := hasDir_iff.1 (show node'.HasDir [] from (hl []).symm)
      cases he
      have hlook {k : String} {child child' : Node} (hc : entries.lookup k = some child)
          (hc' : entries'.lookup k = some child') (q : Place) : child.look q =
          child'.look q := by
        rw [← look_dir_of_lookup hc, ← look_dir_of_lookup hc']
        exact hl (k :: q)
      have hnames : Table.names entries = Table.names entries' := by
        cases h' with
        | dir names' sorted' nodes' =>
            refine sorted.eq_of_mem_iff sorted' fun n => ?_
            rw [mem_names_iff, mem_names_iff, hl]
      refine congrArg dir (Table.eq_of_lookup_eq hnames (nodup_of_sorted sorted) fun k =>
        ?_)
      cases hc : entries.lookup k with
      | none =>
          have hk : (dir entries').look [k] = none := by
            rw [← hl, look_dir_of_lookup_eq_none hc]
          cases hc' : entries'.lookup k with
          | none => rfl
          | some child' =>
              rw [look_dir_of_lookup hc'] at hk
              exact absurd hk child'.look_nil_ne_none
      | some child =>
          cases hc' : entries'.lookup k with
          | none =>
              have hk : child.look [] = none := by
                rw [← look_dir_of_lookup hc, hl, look_dir_of_lookup_eq_none hc']
              exact absurd hk child.look_nil_ne_none
          | some child' =>
              have hm := (Table.lookup_eq_some_iff_mem (nodup_of_sorted sorted)).1 hc
              have hw' := (h'.of_mem (h'.lookup_eq_some_iff.1 hc')).2
              exact congrArg some (ih _ hm hw' (hlook hc hc'))

theorem lookup_filter_ne (entries : List (String × Node)) (name other : String) :
    (entries.filter (·.1 ≠ name)).lookup other = if other = name then none
      else entries.lookup other := by
  induction entries with
  | nil => simp
  | cons e entries ih => grind

theorem erase_dir_cons (entries : List (String × Node)) (name : String)
    (hne : place ≠ []) :
    (dir entries).erase (name :: place) =
      match entries.lookup name with
      | none => .dir entries
      | some child => .dir (putEntry name (child.erase place) entries) := by
  cases place with
  | nil => exact absurd rfl hne
  | cons m place => rfl

theorem erase_file (content : Content) (place : Place) :
    (file content).erase place = file content := by
  cases place with
  | nil => rfl
  | cons name place => cases place <;> rfl

theorem look_erase (hne : place ≠ []) (q : Place) :
    (node.erase place).look q = if place <+: q then none else node.look q := by
  induction place generalizing node q with
  | nil => exact absurd rfl hne
  | cons name place ih =>
      cases q with
      | nil =>
          rw [if_neg (by simp)]
          cases node with
          | file content => rw [erase_file]
          | dir entries =>
              cases place with
              | nil => rfl
              | cons m place =>
                  rw [erase_dir_cons entries name (List.cons_ne_nil m place)]
                  split <;> rfl
      | cons k q =>
          cases node with
          | file content => rw [erase_file, look_file_cons, ite_self]
          | dir entries =>
              simp only [List.cons_prefix_cons]
              cases place with
              | nil =>
                  have hc : ((dir entries).erase [name]).child? k =
                      if k = name then none else (dir entries).child? k :=
                        lookup_filter_ne entries name k
                  rw [look_cons, hc, look_cons]
                  by_cases hk : k = name
                  · simp [hk]
                  · simp [hk, Ne.symm hk]
              | cons m place =>
                  rw [erase_dir_cons entries name (List.cons_ne_nil m place)]
                  split
                  · rename_i hl
                    by_cases hk : name = k
                    · rw [← hk, look_dir_of_lookup_eq_none hl, ite_self]
                    · rw [if_neg fun h => hk h.1]
                  · rename_i child hl
                    rw [look_dir_putEntry]
                    by_cases hk : k = name
                    · rw [if_pos hk, ih (List.cons_ne_nil m place), hk,
                        look_dir_of_lookup hl]
                      simp
                    · rw [if_neg hk, if_neg fun h => hk h.1.symm]

theorem look_erase_file (hne : place ≠ []) (h : node.file? place = some content)
    (q : Place) :
    (node.erase place).look q = if q = place then none else node.look q := by
  rw [look_erase hne]
  by_cases hq : q = place
  · rw [if_pos hq, if_pos (hq ▸ List.prefix_refl _)]
  · rw [if_neg hq]
    split
    · rename_i hp
      obtain ⟨r, rfl⟩ := hp
      have hr : r ≠ [] := by
        rintro rfl
        exact hq (List.append_nil place)
      by_contra hl
      have hd := hasDir_of_look_append hr (Ne.symm hl)
      rw [file?, hd] at h
      cases h
    · rfl

theorem WellFormed.erase (h : node.WellFormed) : (node.erase place).WellFormed := by
  induction place generalizing node with
  | nil => exact h
  | cons name place ih =>
      cases h with
      | file content =>
          rw [erase_file]
          exact .file content
      | @dir entries names sorted nodes =>
          by_cases hp : place = []
          · rw [hp]
            refine .dir (fun e he => names e (List.mem_of_mem_filter he)) ?_ fun e he =>
              nodes e (List.mem_of_mem_filter he)
            exact sorted.sublist (List.filter_sublist.map _)
          · rw [erase_dir_cons entries name hp]
            split
            · exact .dir names sorted nodes
            · rename_i child hl
              have hm := (Table.lookup_eq_some_iff_mem (nodup_of_sorted sorted)).1 hl
              refine .dir ?_ (sorted_putEntry sorted) ?_
              · intro e he
                rcases mem_putEntry he with rfl | he
                · exact names (name, child) hm
                · exact names e he
              · intro e he
                rcases mem_putEntry he with rfl | he
                · exact ih (nodes _ hm)
                · exact nodes e he

end NotebookService.Files.Node
