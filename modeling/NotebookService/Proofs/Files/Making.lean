/-
# `NotebookService.Proofs.Files.Making` — when directories and files can be made

Operations of a disk fail when something is in the way.  Below a directory that is
there, the directories of some names can be made exactly when none of them is a file,
and they are all that is new.  A file can be written into a directory exactly when no
directory has its place.

Steps that have been taken once lead through directories from then on, so making them
again changes nothing.
-/
import NotebookService.Proofs.Files.Disk
import NotebookService.Proofs.Files.Tree

namespace NotebookService.Files

namespace Node

variable {node node' : Node} {place q : Place} {name : String}

theorem WellFormed.isName_of_look (h : node.WellFormed) (hl : node.look q ≠ none) :
    ∀ n ∈ q, IsName n := by
  induction q generalizing node with
  | nil => exact List.forall_mem_nil _
  | cons m q ih =>
      obtain ⟨entries, he⟩ :=
        hasDir_iff.1 (hasDir_of_look_append (p := []) (List.cons_ne_nil m q) hl)
      cases he
      cases hc : entries.lookup m with
      | none =>
          rw [look_dir_of_lookup_eq_none hc] at hl
          exact absurd rfl hl
      | some child =>
          rw [look_dir_of_lookup hc] at hl
          obtain ⟨hm, hw⟩ := h.of_mem (h.lookup_eq_some_iff.1 hc)
          exact List.forall_mem_cons.2 ⟨hm, ih hw hl⟩

theorem look_eq_of_file? (hf : node.file? q = node'.file? q)
    (hd : node.HasDir q ↔ node'.HasDir q) :
    node.look q = node'.look q := by
  unfold file? at hf
  unfold HasDir at hd
  cases hl : node.look q with
  | none =>
      cases hl' : node'.look q with
      | none => rfl
      | some found =>
          rw [hl, hl'] at hf hd
          cases found with
          | none => exact absurd (hd.2 rfl) (Option.some_ne_none _).symm
          | some content => cases hf
  | some found =>
      cases found with
      | none => exact (hd.1 hl).symm
      | some content =>
          cases hl' : node'.look q with
          | none =>
              rw [hl, hl'] at hf
              cases hf
          | some found' =>
              rw [hl, hl'] at hf
              exact congrArg some hf

end Node

namespace Disk

variable {root root' : Node} {d d' : Disk} {place p q : Place}
  {steps steps' : List String}
  {path name : String} {content : Content}

/-! ## Steps that lead to a directory -/

theorem hasDir_of_follow (h : follow root place steps = .ok q) (hq : root.HasDir q) :
    root.HasDir place := by
  cases steps with
  | nil =>
      cases h
      exact hq
  | cons step steps => exact hasDir_of_follow_cons h

theorem makeSteps_append_of_follow (h : follow root place steps = .ok q)
    (hq : root.HasDir q) :
    makeSteps root place (steps ++ steps') = makeSteps root q steps' := by
  induction steps generalizing place with
  | nil =>
      cases h
      rfl
  | cons step steps ih =>
      rw [follow_cons (hasDir_of_follow_cons h)] at h
      rw [List.cons_append]
      by_cases hu : step = ".."
      · rw [if_pos hu] at h
        rw [makeSteps, if_pos hu]
        exact ih h
      · rw [if_neg hu] at h
        rw [makeSteps_cons_of_hasDir hu (hasDir_of_follow h hq)]
        exact ih h

theorem append_cons (place : Place) (n : String) (p : Place) :
    place ++ n :: p = place ++ [n] ++ p := by
  rw [List.append_assoc]
  rfl

/-- The directories of some names can be made unless one of them is a file. -/
theorem makeSteps_ok_iff (hd : root.HasDir place) (hp : ∀ n ∈ p, IsName n) :
    (makeSteps root place p).1 = .ok () ↔ ∀ r, r <+: p →
      root.file? (place ++ r) = none := by
  induction p generalizing root place with
  | nil =>
      refine iff_of_true rfl fun r hr => ?_
      rw [List.prefix_nil.1 hr, List.append_nil]
      exact Node.file?_eq_none_of_hasDir hd
  | cons n p ih =>
      obtain ⟨hn, hp⟩ := List.forall_mem_cons.1 hp
      -- a file among the names is the first of them or one behind it
      have hcons : (∀ r, r <+: n :: p → root.file? (place ++ r) = none) ↔
          ∀ r, r <+: p → root.file? (place ++ [n] ++ r) = none := by
        constructor
        · intro h r hr
          rw [← append_cons]
          exact h (n :: r) (List.cons_prefix_cons.2 ⟨rfl, hr⟩)
        · intro h r hr
          cases r with
          | nil =>
              rw [List.append_nil]
              exact Node.file?_eq_none_of_hasDir hd
          | cons m r =>
              obtain ⟨rfl, hrp⟩ := List.cons_prefix_cons.1 hr
              rw [append_cons]
              exact h r hrp
      rw [hcons]
      rcases makeSteps_cons_cases hd hn.ne_up p with ⟨content, hc, he⟩ | ⟨root₁, hm, he⟩
      · rw [he]
        refine iff_of_false (fun h => by cases h) fun h => ?_
        have hfile := h [] List.nil_prefix
        rw [List.append_nil, hc] at hfile
        cases hfile
      · rw [he]
        simp only [ih hm.hasDir hp, hm.file?_eq]

/-- Directories that were made are all that is new. -/
theorem hasDir_makeSteps_iff (hd : root.HasDir place) (hp : ∀ n ∈ p, IsName n)
    (h : (makeSteps root place p).1 = .ok ()) (q : Place) :
    (makeSteps root place p).2.HasDir q ↔ root.HasDir q ∨ ∃ r, r <+: p ∧
      q = place ++ r := by
  induction p generalizing root place with
  | nil =>
      constructor
      · exact .inl
      · rintro (hq | ⟨r, hr, rfl⟩)
        · exact hq
        · rwa [List.prefix_nil.1 hr, List.append_nil]
  | cons n p ih =>
      obtain ⟨hn, hp⟩ := List.forall_mem_cons.1 hp
      have hcons : (root.HasDir q ∨ ∃ r, r <+: n :: p ∧ q = place ++ r) ↔
          (root.HasDir q ∨ q = place ++ [n]) ∨ ∃ r, r <+: p ∧ q = place ++ [n] ++ r := by
        constructor
        · rintro (hq | ⟨r, hr, rfl⟩)
          · exact .inl (.inl hq)
          · cases r with
            | nil =>
                rw [List.append_nil]
                exact .inl (.inl hd)
            | cons m r =>
                obtain ⟨rfl, hrp⟩ := List.cons_prefix_cons.1 hr
                exact .inr ⟨r, hrp, append_cons place m r⟩
        · rintro ((hq | rfl) | ⟨r, hr, rfl⟩)
          · exact .inl hq
          · exact .inr ⟨[n], List.cons_prefix_cons.2 ⟨rfl, List.nil_prefix⟩, rfl⟩
          · exact .inr ⟨n :: r, List.cons_prefix_cons.2 ⟨rfl, hr⟩,
              (append_cons place n r).symm⟩
      rw [hcons]
      rcases makeSteps_cons_cases hd hn.ne_up p with ⟨-, -, he⟩ | ⟨root₁, hm, he⟩
      · rw [he] at h
        cases h
      · rw [he] at h ⊢
        rw [ih hm.hasDir hp h, hm.hasDir_iff]

/-! ## Finding -/

theorem find_eq_dir_iff {entries : List (String × Node)} :
    d.find path = .ok (place, .dir entries) ↔
      d.place path = .ok place ∧ d.root.find? place = some (.dir entries) := by
  refine ⟨place_of_find, ?_⟩
  rintro ⟨hp, hf⟩
  simp [Disk.find, hp, hf, bind, Except.bind]

theorem exists_of_read (h : d.read path = .ok content) :
    ∃ place, d.find path = .ok (place, .file content) := by
  obtain ⟨⟨place, node⟩, hf, h⟩ := exists_of_bind_eq_ok h
  cases node with
  | dir entries => cases h
  | file other =>
      cases h
      exact ⟨place, hf⟩

/-- A path that leads to a place can be written to unless there is a directory. -/
theorem exists_write_iff (hp : d.place path = .ok place)
    (ha : Path.asksForDirectory path = false) :
    (∃ d', d.write path content = .ok d') ↔ ¬ d.root.HasDir place := by
  rw [Node.hasDir_iff]
  cases hf : d.root.find? place with
  | none => simp [write, hp, hf, ha, bind, Except.bind]
  | some node =>
      cases node with
      | file other => simp [write, hp, hf, ha, bind, Except.bind]
      | dir entries => simp [write, hp, hf, bind, Except.bind]

theorem Wrote.hasDir_iff (h : Wrote d place content d') (q : Place) :
    d'.root.HasDir q ↔ d.root.HasDir q := by
  refine ⟨fun hq => ?_, h.hasDir⟩
  rw [Node.HasDir, h.look_eq] at hq
  split at hq
  · cases hq
  · exact hq

theorem isName_of_follow (hp : ∀ n ∈ place, IsName n)
    (hs : ∀ step ∈ steps, step = ".." ∨ IsName step)
    (h : follow root place steps = .ok q) : ∀ n ∈ q, IsName n := by
  induction steps generalizing place with
  | nil =>
      cases h
      exact hp
  | cons step steps ih =>
      obtain ⟨hstep, hs⟩ := List.forall_mem_cons.1 hs
      rw [follow_cons (hasDir_of_follow_cons h)] at h
      by_cases hu : step = ".."
      · rw [if_pos hu] at h
        exact ih (fun n hn => hp n (List.dropLast_subset place hn)) hs h
      · rw [if_neg hu] at h
        have hn := List.forall_mem_append.2 ⟨hp,
          List.forall_mem_singleton.2 (hstep.resolve_left hu)⟩
        exact ih hn hs h

theorem WellFormed.isName_of_place (h : d.WellFormed) (hp : d.place path = .ok place) :
    ∀ n ∈ place, IsName n := by
  rw [Disk.place] at hp
  split at hp
  · cases hp
  · refine isName_of_follow ?_ (fun step => Path.eq_up_or_isName_of_mem_steps) hp
    exact h.root.isName_of_hasDir (h.hasDir_start path)

theorem hasDir_or_of_follow (hd : root.HasDir place)
    (h : follow root place steps = .ok q) :
    root.HasDir q ∨ ∃ above name, q = above ++ [name] ∧ root.HasDir above := by
  induction steps generalizing place with
  | nil =>
      cases h
      exact .inl hd
  | cons step steps ih =>
      rw [follow_cons hd] at h
      by_cases hu : step = ".."
      · rw [if_pos hu] at h
        exact ih hd.dropLast h
      · rw [if_neg hu] at h
        cases steps with
        | nil =>
            cases h
            exact .inr ⟨place, step, rfl, hd⟩
        | cons step' steps => exact ih (hasDir_of_follow_cons h) h

theorem WellFormed.exists_wrote (h : d.WellFormed) (hw : d.write path content = .ok d') :
    ∃ place, d.place path = .ok place ∧ Wrote d place content d' ∧ d'.WellFormed := by
  obtain ⟨place, hp, hn, rfl⟩ := exists_of_write hw
  have hfollow := hp
  rw [Disk.place] at hfollow
  split at hfollow
  · cases hfollow
  · obtain ⟨above, name, rfl, hd⟩ :=
      (hasDir_or_of_follow (h.hasDir_start path) hfollow).resolve_left hn
    have hwrote := wrote_of_write hp hd hw
    exact ⟨_, hp, hwrote, h.root.put (.file content) (h.isName_of_place hp),
      hwrote.hasDir h.cwd⟩

theorem WellFormed.exists_wrote_of_copy {source target : String} (h : d.WellFormed)
    (hc : d.copy source target = .ok d') :
    ∃ place content, d.place target = .ok place ∧ Wrote d place content d' ∧
      d'.WellFormed := by
  obtain ⟨-, -, hc⟩ := exists_of_bind_eq_ok hc
  obtain ⟨e, he, hc⟩ := exists_of_bind_eq_ok hc
  obtain ⟨content, -, hc⟩ := exists_of_bind_eq_ok hc
  obtain ⟨place, hp, hwrote, hw⟩ := h.exists_wrote he
  obtain ⟨place', hp', hwrote', hw'⟩ := hw.exists_wrote hc
  rw [place_mono hwrote.cwd_eq (fun _ => hwrote.hasDir) hp] at hp'
  cases hp'
  exact ⟨place, content, hp, hwrote.trans hwrote', hw'⟩

theorem exists_copy_iff {source target : String} (hd : d.WellFormed)
    (hs : d.place source = .ok p) (hl : d.root.look p = some (some content))
    (hsa : Path.asksForDirectory source = false) (ht : d.place target = .ok place)
    (hta : Path.asksForDirectory target = false) (hne : p ≠ place) :
    (∃ d', d.copy source target = .ok d') ↔ ¬ d.root.HasDir place := by
  have hread := read_of_look hs hl hsa
  have hcopy : d.copy source target = d.write target .empty >>= fun e =>
      e.read source >>= e.write target := by
    rw [copy, hread]
    rfl
  rw [hcopy]
  constructor
  · rintro ⟨d', h⟩
    obtain ⟨e, he, -⟩ := exists_of_bind_eq_ok h
    exact (exists_write_iff ht hta).1 ⟨e, he⟩
  · intro hn
    obtain ⟨e, he⟩ : ∃ e, d.write target .empty = .ok e := (exists_write_iff ht hta).2 hn
    obtain ⟨place', hp', hwrote, -⟩ := hd.exists_wrote he
    rw [ht] at hp'
    cases hp'
    have hmono : ∀ {path : String} {q : Place}, d.place path = .ok q →
        e.place path = .ok q := fun hq =>
      place_mono hwrote.cwd_eq (fun _ => hwrote.hasDir) hq
    -- the source is still there when the target has been emptied
    have hle : e.root.look p = some (some content) := by
      rw [hwrote.look_eq, if_neg hne, hl]
    have hne' : ¬ e.root.HasDir place := by rwa [hwrote.hasDir_iff]
    obtain ⟨d', hd'⟩ : ∃ d', e.write target content = .ok d' :=
      (exists_write_iff (hmono ht) hta).2 hne'
    refine ⟨d', ?_⟩
    rw [he]
    show e.read source >>= e.write target = .ok d'
    rw [read_of_look (hmono hs) hle hsa]
    exact hd'

end Disk

end NotebookService.Files
