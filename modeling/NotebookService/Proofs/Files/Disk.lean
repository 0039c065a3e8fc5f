/-
# `NotebookService.Proofs.Files.Disk` — what the operations of a disk find and leave

A path is followed through directories.  Since none of the operations here takes a
directory away, a path that led to a place goes on leading to it, and what is found
there is all that can change.  A write that succeeds changes what is found at one place
(`Wrote`), and so does each step of making directories that no file stops (`Made`).
Directories that are made hide nothing (`AddsDirs`).
-/
import NotebookService.Proofs.Files.Node
import NotebookService.Files.Disk

namespace NotebookService.Files.Disk

theorem exists_of_bind_eq_ok {ε α β : Type} {x : Except ε α} {f : α → Except ε β} {b : β}
    (h : x >>= f = .ok b) : ∃ a, x = .ok a ∧ f a = .ok b := by
  cases x with
  | error e => cases h
  | ok a => exact ⟨a, rfl, h⟩

variable {root root' root'' : Node} {d d' : Disk} {place p q : Place}
  {steps : List String}
  {path name step : String} {content : Content}

/-- The tree is one of names, and the working directory is in it. -/
structure WellFormed (d : Disk) : Prop where
  root : d.root.WellFormed
  cwd : d.root.HasDir d.cwd

/-! ## Following -/

theorem follow_cons (h : root.HasDir place) (step : String) (steps : List String) :
    follow root place (step :: steps) =
      follow root (if step = ".." then place.dropLast else place ++ [step]) steps := by
  obtain ⟨entries, he⟩ := Node.hasDir_iff.1 h
  rw [follow, he]

theorem hasDir_of_follow_cons (h : follow root place (step :: steps) = .ok q) :
    root.HasDir place := by
  rw [follow] at h
  rw [Node.hasDir_iff]
  cases hp : root.find? place with
  | none =>
      rw [hp] at h
      cases h
  | some n =>
      cases n with
      | file content =>
          rw [hp] at h
          cases h
      | dir entries => exact ⟨entries, rfl⟩

/-- Steps on the way stay steps on the way, so long as directories stay directories. -/
theorem follow_mono (hr : ∀ q, root.HasDir q → root'.HasDir q)
    (h : follow root place steps = .ok q) :
    follow root' place steps = .ok q := by
  induction steps generalizing place with
  | nil => exact h
  | cons step steps ih =>
      have hd := hasDir_of_follow_cons h
      rw [follow_cons hd] at h
      rw [follow_cons (hr place hd)]
      exact ih h

theorem place_mono (hc : d'.cwd = d.cwd) (hr : ∀ q, d.root.HasDir q → d'.root.HasDir q)
    (h : d.place path = .ok q) : d'.place path = .ok q := by
  rw [Disk.place] at h ⊢
  split
  · rename_i he
    rw [if_pos he] at h
    cases h
  · rename_i he
    rw [if_neg he] at h
    rw [start, hc]
    exact follow_mono hr h

theorem follow_append (root : Node) (place : Place) (s t : List String) :
    follow root place (s ++ t) = (follow root place s).bind fun q => follow root q t := by
  induction s generalizing place with
  | nil => rfl
  | cons step s ih =>
      rw [List.cons_append, follow, follow]
      split
      · rfl
      · rfl
      · exact ih _

theorem eq_append_of_follow (hp : ∀ n ∈ p, IsName n) (h : follow root place p = .ok q) :
    q = place ++ p := by
  induction p generalizing place with
  | nil =>
      rw [List.append_nil]
      exact (Except.ok.inj h).symm
  | cons n p ih =>
      obtain ⟨hn, hp⟩ := List.forall_mem_cons.1 hp
      rw [follow_cons (hasDir_of_follow_cons h), if_neg hn.ne_up] at h
      rw [ih hp h, List.append_assoc]
      rfl

theorem hasDir_of_follow_concat (hp : ∀ n ∈ p, IsName n)
    (h : follow root place (p ++ [name]) = .ok q) :
    root.HasDir (place ++ p) := by
  rw [follow_append] at h
  cases hf : follow root place p with
  | error e =>
      rw [hf] at h
      cases h
  | ok r =>
      rw [hf] at h
      rw [← eq_append_of_follow hp hf]
      exact hasDir_of_follow_cons h

theorem follow_of_look (hp : ∀ n ∈ p, IsName n) (h : root.look (place ++ p) ≠ none) :
    follow root place p = .ok (place ++ p) := by
  induction p generalizing place with
  | nil =>
      rw [List.append_nil]
      rfl
  | cons n p ih =>
      obtain ⟨hn, hp⟩ := List.forall_mem_cons.1 hp
      have hd : root.HasDir place := Node.hasDir_of_look_append (List.cons_ne_nil n p) h
      have happ : place ++ n :: p = place ++ [n] ++ p := by rw [List.append_assoc]; rfl
      rw [happ] at h
      rw [follow_cons hd, if_neg hn.ne_up, happ]
      exact ih hp h

/-! ## Finding and reading -/

theorem place_join {dir : String} (hd : dir ≠ "") (hp : ∀ n ∈ p, IsName n) (d : Disk) :
    d.place (Path.join dir p.text) =
      (follow d.root (d.start dir) (Path.steps dir)).bind fun q =>
      follow d.root q p := by
  have ha := Place.isAbsolute_text hp
  have he : (Path.join dir p.text).isEmpty = false := by
    simpa using Path.join_ne_empty hd ha
  rw [Disk.place, if_neg (by simp [he]), Path.steps_join dir ha, Place.steps_text hp,
    start, Path.isAbsolute_join hd ha, follow_append]
  rfl

theorem place_of_find {n : Node} (h : d.find path = .ok (place, n)) :
    d.place path = .ok place ∧ d.root.find? place = some n := by
  rw [Disk.find] at h
  obtain ⟨r, hr, h⟩ := exists_of_bind_eq_ok h
  split at h
  · cases h
  · rename_i hf
    split at h
    · cases h
    · cases h
      exact ⟨hr, hf⟩
  · rename_i hf
    cases h
    exact ⟨hr, hf⟩

theorem read_of_look (hp : d.place path = .ok place)
    (hl : d.root.look place = some (some content))
    (ha : Path.asksForDirectory path = false) : d.read path = .ok content := by
  have hf := Node.look_eq_file.1 hl
  simp [read, Disk.find, hp, hf, ha, bind, Except.bind]

/-! ## Writing -/

/-- The file at this place was written, and nothing else changed. -/
structure Wrote (d : Disk) (place : Place) (content : Content) (d' : Disk) : Prop where
  cwd_eq : d'.cwd = d.cwd
  not_hasDir : ¬ d.root.HasDir place
  look_eq : ∀ q, d'.root.look q = if q = place then some (some content) else d.root.look q

namespace Wrote

theorem hasDir (h : Wrote d place content d') (hq : d.root.HasDir q) :
    d'.root.HasDir q := by
  have hne : q ≠ place := by
    rintro rfl
    exact h.not_hasDir hq
  rw [Node.HasDir, h.look_eq, if_neg hne]
  exact hq

theorem file?_eq (h : Wrote d place content d') (q : Place) :
    d'.root.file? q = if q = place then some content else d.root.file? q := by
  rw [Node.file?, h.look_eq]
  split
  · rfl
  · rfl

/-- Of two writes to one place the second is what is left. -/
theorem trans {d'' : Disk} {other : Content} (h : Wrote d place other d')
    (h' : Wrote d' place content d'') :
    Wrote d place content d'' where
  cwd_eq := h'.cwd_eq.trans h.cwd_eq
  not_hasDir := h.not_hasDir
  look_eq := by
    intro q
    rw [h'.look_eq, h.look_eq]
    split
    · rfl
    · rfl

end Wrote

theorem exists_of_write (h : d.write path content = .ok d') :
    ∃ place, d.place path = .ok place ∧
    ¬ d.root.HasDir place ∧ d' = { d with root := d.root.put (.file content) place } := by
  obtain ⟨place, hp, h⟩ := exists_of_bind_eq_ok h
  refine ⟨place, hp, ?_⟩
  rw [Node.hasDir_iff]
  -- only a file or nothing may be there, and the path may not end like a directory's
  split at h
  · cases h
  · rename_i hf
    split at h
    · cases h
    · rw [hf]
      exact ⟨by simp, (Except.ok.inj h).symm⟩
  · rename_i hf
    split at h
    · cases h
    · rw [hf]
      exact ⟨by simp, (Except.ok.inj h).symm⟩

theorem wrote_of_write (hp : d.place path = .ok (place ++ [name]))
    (hd : d.root.HasDir place) (h : d.write path content = .ok d') :
    Wrote d (place ++ [name]) content d' := by
  obtain ⟨r, hr, hn, rfl⟩ := exists_of_write h
  rw [hp] at hr
  cases hr
  exact ⟨rfl, hn, Node.look_put_file hd hn⟩

/-- A copy writes what the source holds, which is still there when the
target has been emptied. -/
theorem wrote_of_copy {source target : String} (hs : d.place source = .ok p)
    (hl : d.root.look p = some (some content)) (ha : Path.asksForDirectory source = false)
    (hp : d.place target = .ok (place ++ [name])) (hd : d.root.HasDir place)
    (hne : p ≠ place ++ [name]) (h : d.copy source target = .ok d') :
    Wrote d (place ++ [name]) content d' := by
  obtain ⟨-, -, h⟩ := exists_of_bind_eq_ok h
  obtain ⟨e, he, h⟩ := exists_of_bind_eq_ok h
  obtain ⟨read, hr, h⟩ := exists_of_bind_eq_ok h
  have hw := wrote_of_write hp hd he
  have hplace : ∀ {path : String} {q : Place}, d.place path = .ok q →
      e.place path = .ok q := fun hq =>
    place_mono hw.cwd_eq (fun _ => hw.hasDir) hq
  have hle : e.root.look p = some (some content) := by
    rw [hw.look_eq, if_neg hne, hl]
  rw [read_of_look (hplace hs) hle ha] at hr
  cases hr
  exact hw.trans (wrote_of_write (hplace hp) (hw.hasDir hd) h)

/-! ## Making directories -/

/-- The second tree has the first one's files and directories, and
perhaps more directories. -/
def AddsDirs (root root' : Node) : Prop :=
  ∀ q, root'.look q = root.look q ∨ root.look q = none ∧ root'.look q = some none

theorem AddsDirs.refl (root : Node) : AddsDirs root root := fun _ => .inl rfl

theorem AddsDirs.trans (h : AddsDirs root root') (h' : AddsDirs root' root'') :
    AddsDirs root root'' := by
  intro q
  rcases h q with hq | ⟨hn, hq⟩
  · rw [← hq]
    exact h' q
  · rcases h' q with hq' | ⟨hn', -⟩
    · exact .inr ⟨hn, hq'.trans hq⟩
    · rw [hq] at hn'
      cases hn'

theorem AddsDirs.hasDir (h : AddsDirs root root') (hq : root.HasDir q) :
    root'.HasDir q := by
  rcases h q with hl | ⟨hn, -⟩
  · exact hl.trans hq
  · rw [hq] at hn
    cases hn

theorem AddsDirs.file?_eq (h : AddsDirs root root') (q : Place) :
    root'.file? q = root.file? q := by
  rcases h q with hl | ⟨hn, hl⟩
  · rw [Node.file?, hl, Node.file?]
  · rw [Node.file?, hl, Node.file?, hn]
    rfl

theorem addsDirs_put (h : root.find? place = none) :
    AddsDirs root (root.put .emptyDir place) := by
  refine Node.look_put_emptyDir ?_
  intro n hn
  rw [h] at hn
  cases hn

theorem addsDirs_makeSteps (root : Node) (place : Place) (steps : List String) :
    AddsDirs root (makeSteps root place steps).2 := by
  induction steps generalizing root place with
  | nil => exact .refl root
  | cons step steps ih =>
      rw [makeSteps]
      split
      · exact ih root place.dropLast
      · split
        · rename_i hf
          exact (addsDirs_put hf).trans (ih _ _)
        · exact .refl root
        · exact ih root _

/-- A directory is at this place, where no file was, and nothing else changed. -/
structure Made (root : Node) (place : Place) (root' : Node) : Prop where
  file?_eq_none : root.file? place = none
  look_eq : ∀ q, root'.look q = if q = place then some none else root.look q

namespace Made

theorem hasDir (h : Made root place root') : root'.HasDir place := by
  rw [Node.HasDir, h.look_eq, if_pos rfl]

theorem hasDir_iff (h : Made root place root') (q : Place) :
    root'.HasDir q ↔ root.HasDir q ∨ q = place := by
  rw [Node.HasDir, h.look_eq]
  split
  · rename_i hq
    exact iff_of_true rfl (.inr hq)
  · rename_i hq
    exact (or_iff_left hq).symm

theorem file?_eq (h : Made root place root') (q : Place) :
    root'.file? q = root.file? q := by
  rw [Node.file?, h.look_eq]
  split
  · rename_i hq
    rw [hq, h.file?_eq_none]
    rfl
  · rfl

end Made

theorem makeSteps_cons_of_hasDir (hu : step ≠ "..") (h : root.HasDir (place ++ [step])) :
    makeSteps root place (step :: steps) = makeSteps root (place ++ [step]) steps := by
  obtain ⟨entries, he⟩ := Node.hasDir_iff.1 h
  rw [makeSteps, if_neg hu, he]

/-- On the way down a file stops everything, or a directory is made unless it is there. -/
theorem makeSteps_cons_cases (hd : root.HasDir place) (hu : step ≠ "..")
    (steps : List String) :
    (∃ content, root.file? (place ++ [step]) = some content ∧
      makeSteps root place (step :: steps) = (.error .occupied, root)) ∨
    ∃ root₁, Made root (place ++ [step]) root₁ ∧
      makeSteps root place (step :: steps) = makeSteps root₁ (place ++ [step]) steps := by
  cases hf : root.find? (place ++ [step]) with
  | none =>
      have hl := Node.look_eq_none.2 hf
      have hfile : root.file? (place ++ [step]) = none := by
        rw [Node.file?, hl]
        rfl
      refine .inr ⟨_, ⟨hfile, Node.look_put_emptyDir_of_look_eq_none hd hl⟩, ?_⟩
      rw [makeSteps, if_neg hu, hf]
  | some node =>
      cases node with
      | file content =>
          refine .inl ⟨content, Node.file?_eq_some.2 hf, ?_⟩
          rw [makeSteps, if_neg hu, hf]
      | dir entries =>
          have hdir : root.HasDir (place ++ [step]) := Node.hasDir_iff.2 ⟨entries, hf⟩
          refine .inr ⟨root, ⟨Node.file?_eq_none_of_hasDir hdir, fun q => ?_⟩,
            makeSteps_cons_of_hasDir hu hdir⟩
          split
          · rename_i hq
            rw [hq, hdir]
          · rfl

theorem hasDir_of_makeSteps (hd : root.HasDir place)
    (h : (makeSteps root place steps).1 = .ok ())
    (hf : follow (makeSteps root place steps).2 place steps = .ok q) :
    (makeSteps root place steps).2.HasDir q := by
  induction steps generalizing root place with
  | nil =>
      cases hf
      exact hd
  | cons step steps ih =>
      rw [follow_cons ((addsDirs_makeSteps root place (step :: steps)).hasDir hd)] at hf
      by_cases hu : step = ".."
      · rw [makeSteps, if_pos hu] at h hf ⊢
        rw [if_pos hu] at hf
        exact ih hd.dropLast h hf
      · rcases makeSteps_cons_cases hd hu steps with ⟨-, -, he⟩ | ⟨root₁, hm, he⟩
        · rw [he] at h
          cases h
        · rw [he, if_neg hu] at hf
          rw [he] at h ⊢
          exact ih hm.hasDir h hf

theorem wellFormed_makeSteps (hr : root.WellFormed) (hp : ∀ n ∈ place, IsName n)
    (hs : ∀ step ∈ steps, step = ".." ∨ IsName step) :
    (makeSteps root place steps).2.WellFormed := by
  induction steps generalizing root place with
  | nil => exact hr
  | cons step steps ih =>
      obtain ⟨hstep, hs⟩ := List.forall_mem_cons.1 hs
      rw [makeSteps]
      split
      · exact ih hr (fun n hn => hp n (List.dropLast_subset place hn)) hs
      · rename_i hu
        have hn : ∀ n ∈ place ++ [step], IsName n :=
          List.forall_mem_append.2 ⟨hp,
            List.forall_mem_singleton.2 (hstep.resolve_left hu)⟩
        split
        · exact ih (hr.put Node.wellFormed_emptyDir hn) hn hs
        · exact hr
        · exact ih hr hn hs

/-! ## Made directories on a disk -/

theorem addsDirs_makeDirs (d : Disk) (path : String) :
    AddsDirs d.root (d.makeDirs path).2.root :=
  addsDirs_makeSteps d.root (d.start path) (Path.steps path)

theorem WellFormed.hasDir_start (h : d.WellFormed) (path : String) :
    d.root.HasDir (d.start path) := by
  rw [start]
  split
  · exact h.cwd.root
  · exact h.cwd

theorem WellFormed.makeDirs (h : d.WellFormed) (path : String) :
    (d.makeDirs path).2.WellFormed where
  root := by
    refine wellFormed_makeSteps h.root ?_ fun step => Path.eq_up_or_isName_of_mem_steps
    exact h.root.isName_of_hasDir (h.hasDir_start path)
  cwd := (addsDirs_makeDirs d path).hasDir h.cwd

theorem hasDir_of_makeDirs (h : d.WellFormed) (hm : (d.makeDirs path).1 = .ok ())
    (hp : (d.makeDirs path).2.place path = .ok q) :
    (d.makeDirs path).2.root.HasDir q := by
  rw [Disk.place] at hp
  split at hp
  · cases hp
  · exact hasDir_of_makeSteps (h.hasDir_start path) hm hp

end NotebookService.Files.Disk
