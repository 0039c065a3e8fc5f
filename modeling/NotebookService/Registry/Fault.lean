/-
# `NotebookService.Registry.Fault` — what goes wrong on a connection

A connection can refuse a call, and a handler can fail while it serves one.  Either way
there is a text for the client and a code to close with.
-/

namespace NotebookService.Registry

/-- Close codes have 16 bits. -/
abbrev CloseCode := UInt16

/-- The code for faults that bring none of their own: the data did not fit its type. -/
def defaultCloseCode : CloseCode := 1007

inductive Fault where
  | sendFailed (reason : String)
  | closed
  /-- A handler failed and chose the code itself. -/
  | handler (status : CloseCode) (message : String)
  deriving DecidableEq, Repr

namespace Fault

def message : Fault → String
  | .sendFailed reason => "Send failed: " ++ reason
  | .closed => "Connection closed"
  | .handler _ message => message

def closeCode : Fault → CloseCode
  | .handler status _ => status
  | _ => defaultCloseCode

end Fault

end NotebookService.Registry
