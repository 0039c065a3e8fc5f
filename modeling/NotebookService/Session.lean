/-
# `NotebookService.Session` — notebooks compiled one after the other

Made-up names are numbered, and a session keeps count of them from one notebook to the
next, so that no two jobs of the session share a name.  After a reset the numbers start
again, and the same notebooks give the same modules as in a session that has just begun.
-/
import NotebookService.ServiceModule

namespace NotebookService

/-- What is kept from one notebook to the next. -/
structure Session where
  /-- The number of names made up since the last reset. -/
  generated : Nat
  deriving DecidableEq, Repr

namespace Session

def fresh : Session := ⟨0⟩

inductive Request where
  | compile (cells : List Cell)
  /-- A name for something that no notebook holds. -/
  | name
  | reset
  deriving Repr

inductive Reply where
  | compiled (m : ServiceModule)
  | named (name : String)
  | done
  deriving DecidableEq, Repr

def serve (s : Session) : Request → Reply × Session
  | .compile cells =>
    let (m, last) := ServiceModule.compile cells s.generated
    (.compiled m, ⟨last⟩)
  | .name => (.named (Job.madeUpName s.generated), ⟨s.generated + 1⟩)
  | .reset => (.done, fresh)

/-- The replies to some requests in a row, and the session after them. -/
def serveAll (s : Session) : List Request → List Reply × Session
  | [] => ([], s)
  | r :: rs =>
    let (reply, s) := s.serve r
    let (replies, s) := s.serveAll rs
    (reply :: replies, s)

end Session

end NotebookService
