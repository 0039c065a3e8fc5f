/-
# `NotebookService.Proofs.Files.Path` — paths put together take the steps of their parts

A path is text, and where it leads is decided by the pieces between its slashes.
Joining puts a slash between two paths unless there is one, so the pieces of a joined
path are those of its parts, and an empty piece more goes nowhere.  A place whose names
are names, with no slash in them and none of the two words for staying and going up,
comes back from its text.
-/
import NotebookService.Files.Path

namespace NotebookService.Files

/-- What an entry of a directory can be called. -/
structure IsName (name : String) : Prop where
  isStep : Path.isStep name.toList = true
  ne_up : name ≠ ".."
  noSlash : '/' ∉ name.toList

instance (name : String) : Decidable (IsName name) :=
  decidable_of_iff (Path.isStep name.toList = true ∧ name ≠ ".." ∧ '/' ∉ name.toList)
    ⟨fun h => ⟨h.1, h.2.1, h.2.2⟩, fun h => ⟨h.isStep, h.ne_up, h.noSlash⟩⟩

namespace Path

variable {s t : List Char} {a b : String}

/-! ## Pieces -/

theorem splitAtSlashes_ne_nil (s : List Char) : splitAtSlashes s ≠ [] := by
  cases s with
  | nil => simp [splitAtSlashes]
  | cons c s =>
      rw [splitAtSlashes]
      split
      · exact List.cons_ne_nil _ _
      · split
        · exact List.cons_ne_nil _ _
        · exact List.cons_ne_nil _ _

theorem splitAtSlashes_append (s t : List Char) :
    splitAtSlashes (s ++ '/' :: t) = splitAtSlashes s ++ splitAtSlashes t := by
  induction s with
  | nil => rfl
  | cons c s ih =>
      rw [List.cons_append, splitAtSlashes, splitAtSlashes, ih]
      by_cases hc : c = '/'
      · rw [if_pos hc, if_pos hc, List.cons_append]
      · rw [if_neg hc, if_neg hc]
        obtain ⟨p, ps, hp⟩ := List.exists_cons_of_ne_nil (splitAtSlashes_ne_nil s)
        rw [hp]
        rfl

theorem splitAtSlashes_of_not_mem (h : '/' ∉ s) : splitAtSlashes s = [s] := by
  induction s with
  | nil => rfl
  | cons c s ih =>
      obtain ⟨hc, hs⟩ := not_or.1 (mt List.mem_cons.2 h)
      rw [splitAtSlashes, if_neg (Ne.symm hc), ih hs]

theorem exists_eq_append_slash (h : s.getLast? = some '/') :
    ∃ t, s = t ++ ['/'] ∧ splitAtSlashes s = splitAtSlashes t ++ [[]] := by
  obtain ⟨t, ht⟩ := List.getLast?_eq_some_iff.1 h
  refine ⟨t, ht, ?_⟩
  rw [ht, splitAtSlashes_append]
  rfl

theorem noSlash_of_mem_splitAtSlashes {p : List Char} (h : p ∈ splitAtSlashes s) :
    '/' ∉ p := by
  induction s generalizing p with
  | nil =>
      rw [List.mem_singleton.1 h]
      exact List.not_mem_nil
  | cons c s ih =>
      rw [splitAtSlashes] at h
      split at h
      · rcases List.mem_cons.1 h with rfl | h
        · exact List.not_mem_nil
        · exact ih h
      · rename_i hc
        obtain ⟨q, qs, hq⟩ := List.exists_cons_of_ne_nil (splitAtSlashes_ne_nil s)
        rw [hq] at h ih
        rcases List.mem_cons.1 h with rfl | h
        · exact List.not_mem_cons_of_ne_of_not_mem (Ne.symm hc) (ih List.mem_cons_self)
        · exact ih (List.mem_cons_of_mem q h)

theorem eq_up_or_isName_of_mem_steps {path step : String} (h : step ∈ steps path) :
    step = ".." ∨ IsName step := by
  obtain ⟨p, hp, rfl⟩ := List.mem_map.1 h
  obtain ⟨hm, hs⟩ := List.mem_filter.1 hp
  by_cases hu : String.ofList p = ".."
  · exact .inl hu
  · refine .inr ⟨?_, hu, ?_⟩
    · rwa [String.toList_ofList]
    · rw [String.toList_ofList]
      exact noSlash_of_mem_splitAtSlashes hm

/-! ## Joined paths -/

theorem exists_splitAtSlashes_join (hb : isAbsolute b = false) :
    ∃ ps, splitAtSlashes (join a b).toList = ps ++ splitAtSlashes b.toList ∧
      ps.filter isStep = (splitAtSlashes a.toList).filter isStep := by
  rw [join, hb, if_neg Bool.false_ne_true]
  split
  · rename_i h
    rw [Bool.or_eq_true, decide_eq_true_eq] at h
    rcases h with h | h
    · refine ⟨[], ?_, ?_⟩
      · rw [String.isEmpty_iff.1 h]
        rfl
      · rw [String.isEmpty_iff.1 h]
        rfl
    · obtain ⟨t, ht, hp⟩ := exists_eq_append_slash h
      refine ⟨splitAtSlashes t, ?_, ?_⟩
      · rw [String.toList_append, ht, List.append_assoc]
        exact splitAtSlashes_append t b.toList
      · rw [hp, List.filter_append]
        exact (List.append_nil _).symm
  · refine ⟨splitAtSlashes a.toList, ?_, rfl⟩
    rw [String.toList_append, String.toList_append, List.append_assoc]
    exact splitAtSlashes_append a.toList b.toList

theorem steps_join (a : String) (hb : isAbsolute b = false) :
    steps (join a b) = steps a ++ steps b := by
  obtain ⟨ps, hp, hf⟩ := exists_splitAtSlashes_join (a := a) hb
  rw [steps, hp, List.filter_append, hf, List.map_append]
  rfl

theorem asksForDirectory_join (a : String) (hb : isAbsolute b = false) :
    asksForDirectory (join a b) = asksForDirectory b := by
  obtain ⟨ps, hp, -⟩ := exists_splitAtSlashes_join (a := a) hb
  rw [asksForDirectory, asksForDirectory, hp, List.getLast?_append,
    List.getLast?_eq_some_getLast (splitAtSlashes_ne_nil b.toList)]
  rfl

theorem head?_join {a : String} (ha : a ≠ "") (hb : isAbsolute b = false) :
    (join a b).toList.head? = a.toList.head? := by
  obtain ⟨c, s, hs⟩ := List.exists_cons_of_ne_nil (mt String.toList_eq_nil_iff.1 ha)
  rw [join, hb, if_neg Bool.false_ne_true]
  split
  · rw [String.toList_append, hs]
    rfl
  · rw [String.toList_append, String.toList_append, hs]
    rfl

theorem isAbsolute_join (ha : a ≠ "") (hb : isAbsolute b = false) :
    isAbsolute (join a b) = isAbsolute a := by
  rw [isAbsolute, isAbsolute, head?_join ha hb]

theorem join_ne_empty (ha : a ≠ "") (hb : isAbsolute b = false) : join a b ≠ "" := by
  obtain ⟨c, s, hs⟩ := List.exists_cons_of_ne_nil (mt String.toList_eq_nil_iff.1 ha)
  intro he
  have hh := head?_join ha hb
  rw [he, hs] at hh
  cases hh

end Path

/-! ## The text of a place -/

namespace Place

open NotebookService.Files.Path

variable {p : Place}

theorem splitAtSlashes_text (hne : p ≠ []) (h : ∀ n ∈ p, IsName n) :
    splitAtSlashes (text p).toList = p.map String.toList := by
  induction p with
  | nil => exact absurd rfl hne
  | cons n p ih =>
      obtain ⟨hn, hp⟩ := List.forall_mem_cons.1 h
      cases p with
      | nil =>
          rw [text, String.intercalate_singleton, splitAtSlashes_of_not_mem hn.noSlash,
            List.map_singleton]
      | cons m p =>
          have hr := ih (List.cons_ne_nil m p) hp
          have ht : (text (n :: m :: p)).toList =
              n.toList ++ '/' :: (text (m :: p)).toList := by
            rw [text, String.intercalate_cons_cons, String.toList_append,
              String.toList_append, List.append_assoc]
            rfl
          rw [ht, splitAtSlashes_append, splitAtSlashes_of_not_mem hn.noSlash, hr]
          rfl

theorem steps_text (h : ∀ n ∈ p, IsName n) : steps (text p) = p := by
  cases p with
  | nil => rfl
  | cons n p =>
      have hf : ((n :: p).map String.toList).filter isStep =
          (n :: p).map String.toList := by
        rw [List.filter_eq_self]
        intro s hs
        obtain ⟨m, hm, rfl⟩ := List.mem_map.1 hs
        exact (h m hm).isStep
      rw [steps, splitAtSlashes_text (List.cons_ne_nil n p) h, hf, List.map_map]
      simp [Function.comp_def]

theorem isAbsolute_text (h : ∀ n ∈ p, IsName n) : isAbsolute (text p) = false := by
  cases p with
  | nil => rfl
  | cons n p =>
      have hp := splitAtSlashes_text (List.cons_ne_nil n p) h
      rw [isAbsolute, decide_eq_false_iff_not]
      intro ha
      -- a slash in front would make the first name empty
      obtain ⟨s, hs⟩ := List.head?_eq_some_iff.1 ha
      rw [hs, splitAtSlashes, if_pos rfl, List.map_cons] at hp
      have hn := (h n List.mem_cons_self).isStep
      rw [← (List.cons.inj hp).1] at hn
      cases hn

theorem asksForDirectory_text (hne : p ≠ []) (h : ∀ n ∈ p, IsName n) :
    asksForDirectory (text p) = false := by
  have hn := (h (p.getLast hne) (List.getLast_mem hne)).isStep
  rw [asksForDirectory, splitAtSlashes_text hne h, List.getLast?_map,
    List.getLast?_eq_some_getLast hne, Option.map_some]
  simp [hn]

end Place

/-! ## A name by itself -/

variable {name : String}

theorem IsName.isAbsolute_eq (h : IsName name) : Path.isAbsolute name = false := by
  have ha := Place.isAbsolute_text (p := [name]) (by simpa using h)
  rwa [Place.text, String.intercalate_singleton] at ha

theorem IsName.steps_eq (h : IsName name) : Path.steps name = [name] := by
  have hs := Place.steps_text (p := [name]) (by simpa using h)
  rwa [Place.text, String.intercalate_singleton] at hs

theorem IsName.asksForDirectory_eq (h : IsName name) :
    Path.asksForDirectory name = false := by
  have ha := Place.asksForDirectory_text (p := [name]) (List.cons_ne_nil _ _)
    (by simpa using h)
  rwa [Place.text, String.intercalate_singleton] at ha

end NotebookService.Files
