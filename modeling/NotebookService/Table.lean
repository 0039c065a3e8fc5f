/-
# `NotebookService.Table` — values by name

A table lists values with their names.  A name keeps the place at which it first came
in, and takes the value that was put under it last.  A table that was only ever put into
has every name once, and then looking a name up and finding an entry are the same.
-/

namespace NotebookService.Table

variable {α β : Type}

/-- The names of a table, in order. -/
def names (t : List (String × α)) : List String := t.map (·.1)

@[simp] theorem names_nil : names ([] : List (String × α)) = [] := rfl

@[simp] theorem names_cons (e : String × α) (t : List (String × α)) :
    names (e :: t) = e.1 :: names t := rfl

theorem mem_names_of_mem {e : String × α} {t : List (String × α)} (h : e ∈ t) :
    e.1 ∈ names t :=
  List.mem_map_of_mem h

theorem names_map (f : String → α → β) (t : List (String × α)) :
    names (t.map fun e => (e.1, f e.1 e.2)) = names t := by
  simp [names, Function.comp_def]

/-! ## Putting -/

/-- The table with a value under a name, in place of the one that was there. -/
def put (name : String) (value : α) : List (String × α) → List (String × α)
  | [] => [(name, value)]
  | (n, v) :: t => if n = name then (name, value) :: t else (n, v) :: put name value t

theorem lookup_put (name : String) (value : α) (t : List (String × α)) (other : String) :
    (put name value t).lookup other = if other = name then some value
      else t.lookup other := by
  induction t with
  | nil => grind [put]
  | cons e t ih => grind [put]

theorem names_put (name : String) (value : α) (t : List (String × α)) :
    names (put name value t) = if name ∈ names t then names t else names t ++ [name] := by
  induction t with
  | nil => simp [put]
  | cons e t ih => grind [put, names_cons]

theorem nodup_names_put (name : String) (value : α) {t : List (String × α)}
    (h : (names t).Nodup) :
    (names (put name value t)).Nodup := by
  rw [names_put]
  split
  · exact h
  · rename_i hn
    have hd : ∀ n ∈ names t, n ≠ name := by
      rintro n hm rfl
      exact hn hm
    exact List.nodup_append.2 ⟨h, by simp, by simpa using hd⟩

theorem put_of_not_mem {name : String} (value : α) {t : List (String × α)}
    (h : name ∉ names t) :
    put name value t = t ++ [(name, value)] := by
  induction t with
  | nil => rfl
  | cons e t ih =>
    obtain ⟨he, ht⟩ := not_or.1 (mt List.mem_cons.2 h)
    rw [put, if_neg (Ne.symm he), ih ht, List.cons_append]

theorem put_ne_nil (name : String) (value : α) (t : List (String × α)) :
    put name value t ≠ [] := by
  cases t with
  | nil => simp [put]
  | cons e t => grind [put]

theorem mem_of_mem_put {name : String} {value : α} {t : List (String × α)}
    {e : String × α} (h : e ∈ put name value t) : e = (name, value) ∨ e ∈ t := by
  induction t with
  | nil => exact .inl (by simpa [put] using h)
  | cons d t ih => grind [put]

/-! ## Looking up -/

theorem lookup_eq_some_iff_mem {t : List (String × α)} (h : (names t).Nodup)
    {name : String} {value : α} : t.lookup name = some value ↔ (name, value) ∈ t := by
  induction t with
  | nil => simp
  | cons e t ih =>
    obtain ⟨hn, ht⟩ := List.nodup_cons.1 h
    have hm : (name, value) ∈ t → name ∈ names t := mem_names_of_mem
    have := ih ht
    grind

theorem lookup_map (f : String → α → β) (t : List (String × α)) (name : String) :
    (t.map fun e => (e.1, f e.1 e.2)).lookup name = (t.lookup name).map (f name) := by
  induction t with
  | nil => rfl
  | cons e t ih => grind

theorem lookup_eq_none_of_not_mem {t : List (String × α)} {name : String}
    (h : name ∉ names t) :
    t.lookup name = none := by
  refine List.lookup_eq_none_iff.2 fun e he => ?_
  have : name ≠ e.1 := by
    rintro rfl
    exact h (mem_names_of_mem he)
  simpa using this

theorem lookup_filter (p : α → Bool) {t : List (String × α)} (h : (names t).Nodup)
    (name : String) :
    (t.filter fun e => p e.2).lookup name = (t.lookup name).filter p := by
  induction t with
  | nil => rfl
  | cons e t ih =>
    obtain ⟨hn, ht⟩ : e.1 ∉ names t ∧ (names t).Nodup := List.nodup_cons.1 h
    have hl := lookup_eq_none_of_not_mem hn
    have := ih ht
    grind

theorem eq_of_lookup_eq {t t' : List (String × α)} (hn : names t = names t')
    (hd : (names t).Nodup) (hl : ∀ name, t.lookup name = t'.lookup name) : t = t' := by
  induction t generalizing t' with
  | nil => exact (List.map_eq_nil_iff.1 hn.symm).symm
  | cons e t ih =>
    cases t' with
    | nil => cases hn
    | cons e' t' =>
      obtain ⟨name, value⟩ := e
      obtain ⟨name', value'⟩ := e'
      rw [names_cons, names_cons, List.cons_eq_cons] at hn
      obtain ⟨rfl, ht⟩ := hn
      obtain ⟨hm, hd⟩ := List.nodup_cons.1 hd
      have hv := hl name
      rw [List.lookup_cons_self, List.lookup_cons_self] at hv
      have hr : t = t' := by
        refine ih ht hd fun other => ?_
        by_cases hne : other = name
        · rw [hne, lookup_eq_none_of_not_mem hm, lookup_eq_none_of_not_mem (ht ▸ hm)]
        · have := hl other
          rwa [List.lookup_cons, List.lookup_cons, beq_false_of_ne hne] at this
      rw [hr, Option.some.inj hv]

theorem nodup_names_filter (p : String × α → Bool) {t : List (String × α)}
    (h : (names t).Nodup) :
    (names (t.filter p)).Nodup :=
  h.sublist (List.filter_sublist.map _)

end NotebookService.Table
