/-
# `NotebookService.Proofs.Files.Removing` — a tree without one of its files

A file holds nothing up that is about directories.  When one is taken away, the
directories are those that were there before, paths lead where they led, and directories
can be made that could be made; what was made is again the same but for the file.
-/
import NotebookService.Proofs.Files.Making

namespace NotebookService.Files

variable {root root' : Node} {place p q : Place} {steps : List String}
  {path : String} {d : Disk}

/-- The second tree is the first one without one of its files. -/
structure Lacks (root root' : Node) (place : Place) : Prop where
  file : ∃ content, root.file? place = some content
  look_eq : ∀ q, root'.look q = if q = place then none else root.look q

namespace Lacks

theorem erase {content : Content} (hne : place ≠ [])
    (h : root.file? place = some content) :
    Lacks root (root.erase place) place where
  file := ⟨content, h⟩
  look_eq := Node.look_erase_file hne h

theorem hasDir_iff (h : Lacks root root' place) (q : Place) :
    root'.HasDir q ↔ root.HasDir q := by
  rw [Node.HasDir, h.look_eq]
  split
  · rename_i hq
    obtain ⟨content, hc⟩ := h.file
    refine iff_of_false (fun hn => by cases hn) fun hd => ?_
    rw [hq] at hd
    rw [Node.file?_eq_none_of_hasDir hd] at hc
    cases hc
  · rfl

theorem file?_eq (h : Lacks root root' place) (hq : q ≠ place) :
    root'.file? q = root.file? q := by
  rw [Node.file?, h.look_eq, if_neg hq]
  rfl

theorem file?_eq_none (h : Lacks root root' place) (hq : root.file? q = none) :
    root'.file? q = none := by
  rw [Node.file?, h.look_eq]
  split
  · rfl
  · exact hq

/-- A directory made in both trees is not where the file was. -/
theorem made {root₁ root₁' : Node} (h : Lacks root root' place)
    (hm : Disk.Made root q root₁) (hm' : Disk.Made root' q root₁') :
    Lacks root₁ root₁' place := by
  obtain ⟨content, hc⟩ := h.file
  have hne : place ≠ q := by
    rintro rfl
    rw [hm.file?_eq_none] at hc
    cases hc
  refine ⟨⟨content, by rw [hm.file?_eq, hc]⟩, fun p => ?_⟩
  rw [hm'.look_eq, hm.look_eq, h.look_eq]
  by_cases hp : p = place
  · rw [if_pos hp, if_pos hp, if_neg (hp ▸ hne)]
  · rw [if_neg hp, if_neg hp]

/-- Making directories is not about files. -/
theorem makeSteps (h : Lacks root root' place) (hd : root.HasDir p)
    (hm : (Disk.makeSteps root p steps).1 = .ok ()) :
    (Disk.makeSteps root' p steps).1 = .ok () ∧
      Lacks (Disk.makeSteps root p steps).2 (Disk.makeSteps root' p steps).2 place := by
  induction steps generalizing root root' p with
  | nil => exact ⟨rfl, h⟩
  | cons step steps ih =>
      by_cases hu : step = ".."
      · rw [Disk.makeSteps, if_pos hu] at hm ⊢
        rw [Disk.makeSteps, if_pos hu]
        exact ih h hd.dropLast hm
      · rcases Disk.makeSteps_cons_cases hd hu steps with ⟨-, -, he⟩ | ⟨root₁, hmade, he⟩
        · rw [he] at hm
          cases hm
        · rcases Disk.makeSteps_cons_cases ((h.hasDir_iff p).2 hd) hu steps with
            ⟨content, hc, -⟩ | ⟨root₁', hmade', he'⟩
          · rw [h.file?_eq_none hmade.file?_eq_none] at hc
            cases hc
          · rw [he] at hm ⊢
            rw [he']
            exact ih (h.made hmade hmade') hmade.hasDir hm

end Lacks

/-- A disk from which something was taken away. -/
def Disk.without (d : Disk) (place : Place) : Disk :=
  { d with root := d.root.erase place }

namespace Disk

variable {d d' : Disk}

end Disk

end NotebookService.Files
