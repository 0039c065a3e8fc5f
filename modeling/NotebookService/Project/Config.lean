/-
# `NotebookService.Project.Config` — where a project is and where its build goes
-/
import NotebookService.Files.Path

namespace NotebookService.Project

open NotebookService.Files

structure Config where
  sourceDir : String
  buildDir : String
  /-- Taken from the source directory unless it is absolute. -/
  ignoreFile : String
  deriving DecidableEq, Repr

namespace Config

def buildName : String := "build"

def ignoreName : String := ".kilnignore"

/-- The working directory as a project. -/
def here : Config := ⟨".", "./build", ignoreName⟩

/-- A directory as a project that is built inside it. -/
def ofSource (dir : String) : Config := ⟨dir, Path.join dir buildName, ignoreName⟩

def ignorePath (c : Config) : String := Path.join c.sourceDir c.ignoreFile

end Config

end NotebookService.Project
