/-
# `NotebookService.Project.Report` — what a build says about itself

The report counts what was compiled, copied and skipped, and collects the diagnostics of
all notebooks in the order of their places.  A notebook that could not be read has one
diagnostic of its own, which belongs to no cell.
-/
import NotebookService.Project.Error
import NotebookService.ServiceModule

namespace NotebookService.Project

open NotebookService.Files

/-- A diagnostic with the notebook it is about. -/
structure FileDiagnostic where
  path : String
  /-- Missing when the notebook as a whole failed. -/
  cell : Option Nat
  severity : Severity
  message : String
  deriving DecidableEq, Repr

namespace FileDiagnostic

def text (d : FileDiagnostic) : String :=
  match d.cell with
  | some cell => s!"{d.path}:cell {cell}: {d.severity.word}: {d.message}"
  | none => s!"{d.path}: {d.severity.word}: {d.message}"

def ofDiagnostic (place : Place) (d : Diagnostic) : FileDiagnostic :=
  ⟨place.text, some d.cell, d.severity, d.message⟩

def ofError (place : Place) (e : ProjectError) : FileDiagnostic :=
  ⟨place.text, none, .error, e.message⟩

end FileDiagnostic

structure Report where
  notebooks : Nat
  copied : Nat
  skippedCells : Nat
  diagnostics : List FileDiagnostic
  deriving DecidableEq, Repr

/-- A notebook by its place, and what compiling it came to. -/
structure Attempt where
  place : Place
  result : Except ProjectError ServiceModule

namespace Attempt

/-- The module of a notebook that could be read. -/
def module? (a : Attempt) : Option ServiceModule := a.result.toOption

def diagnostics (a : Attempt) : List FileDiagnostic :=
  match a.result with
  | .ok m => m.diagnostics.map (FileDiagnostic.ofDiagnostic a.place)
  | .error e => [.ofError a.place e]

end Attempt

namespace Report

def ofAttempts (copied : Nat) (attempts : List Attempt) : Report :=
  let modules := attempts.filterMap Attempt.module?
  ⟨modules.length, copied, modules.foldl (fun n m => n + m.skipped) 0,
    attempts.flatMap Attempt.diagnostics⟩

def hasErrors (r : Report) : Bool := r.diagnostics.any (·.severity = .error)

end Report

end NotebookService.Project
