/-
# `NotebookService.Cell` — cells and what they compile to

A code cell without a directive passes through unchanged.  One with a directive becomes
an endpoint or a job, or it is skipped, and then a finding says why.  Cells that are not
code, or that hold nothing, are ignored without a word.
-/
import NotebookService.Declaration
import NotebookService.Directive
import NotebookService.Endpoint.Http
import NotebookService.Endpoint.Socket
import NotebookService.Job
import NotebookService.Metadata.Block

namespace NotebookService

open NotebookService.Text

inductive CellKind where
  | code
  | raw
  | markdown
  deriving DecidableEq, Repr, Inhabited

/-- A cell of a notebook. -/
structure Cell where
  kind : CellKind
  source : String
  deriving DecidableEq, Repr, Inhabited

/-- What a cell declares itself to be. -/
inductive CellSpec where
  | passthrough (source : String)
  | http (endpoint : Http.Endpoint)
  | socket (endpoint : Socket.Endpoint)
  | scheduled (job : Job)
  deriving DecidableEq, Repr

namespace CellSpec

/-- The metadata of declaration lines; a refusal is the finding that
the cell is skipped. -/
def readMetadata (firstLine : Nat) (lines : List String) : Noted (Option Metadata) :=
  match Metadata.read firstLine lines with
  | .ok m => return some m
  | .error refusal => do
    Noted.note (.skipped refusal.cellError)
    return none

/-! ## HTTP -/

/-- Where an HTTP cell says what it answers to: the verb and the path, and the metadata
lines with the number of their first. -/
structure HttpHead where
  text : String
  firstLine : Nat
  metadata : List String
  deriving DecidableEq, Repr

/-- The head stands behind the directive, or else on the line below it. -/
def httpHead (rest : String) (lines : List String) : HttpHead :=
  if rest ≠ "" then ⟨rest, 2, lines⟩
  else match lines with
    | [] => ⟨"", 2, []⟩
    | head :: lines => ⟨head, 3, lines⟩

/-- The word before the first blank, and the trimmed text behind it. -/
def splitHead (text : String) : String × String :=
  match splitAtBlank text.toList with
  | some (word, rest) => (String.ofList word, String.ofList (trim rest))
  | none => (text, "")

def ofHttp (rest : String) (lines : List String) (body : String) :
    Noted (Option CellSpec) := do
  let head := httpHead rest lines
  let (word, path) := splitHead head.text
  match Http.Verb.ofWord? word with
  | none => do
    Noted.note .httpMethodMissing
    return none
  | some verb =>
    if path = "" then
      Noted.note (.httpPathMissing verb.word)
      return none
    else
      match ← readMetadata head.firstLine head.metadata with
      | none => return none
      | some m =>
        if body = "" then
          Noted.note (.httpBodyMissing verb.word path)
          return none
        else
          let endpoint ← Http.Endpoint.ofMetadata verb path m body
          return some (.http endpoint)

/-! ## Sockets and jobs -/

def ofSocket (path : String) (lines : List String) (body : String) :
    Noted (Option CellSpec) := do
  if path = "" then
    Noted.note .socketPathMissing
    return none
  else
    match ← readMetadata 2 lines with
    | none => return none
    | some m =>
      if body = "" then
        Noted.note (.socketBodyMissing path)
        return none
      else
        let endpoint ← Socket.Endpoint.ofMetadata path m body
        return endpoint.map .socket

/-- Metadata of a job may begin on the line of its directive. -/
def ofSchedule (rest : String) (lines : List String) (body : String) :
    Noted (Option CellSpec) := do
  let (firstLine, lines) := if rest = "" then (2, lines) else (1, rest :: lines)
  match ← readMetadata firstLine lines with
  | none => return none
  | some m =>
    if body = "" then
      Noted.note .jobBodyMissing
      return none
    else
      let job ← Job.ofMetadata m body
      return job.map .scheduled

/-! ## All cells -/

/-- The directive of a declaration, with the rest of its line and the lines below. -/
def directive? (d : Declaration) : Option (Directive × String × List String) :=
  match d.lines with
  | [] => none
  | first :: lines =>
    (Directive.detect? first).map fun (directive, rest) => (directive, rest, lines)

/-- What a source declares itself to be; none for an empty source and for
one that is skipped. -/
def ofSource (source : String) : Noted (Option CellSpec) :=
  match Declaration.split? source with
  | none => return none
  | some d =>
    match directive? d with
    | none => return some (.passthrough source)
    | some (.http, rest, lines) => ofHttp rest lines d.bodyText
    | some (.socket, rest, lines) => ofSocket rest lines d.bodyText
    | some (.schedule, rest, lines) => ofSchedule rest lines d.bodyText

end CellSpec

/-! ## Compilation -/

/-- The code made from one cell. -/
inductive CompiledCell where
  | code (source : String)
  | http (items : List Code.Statement)
  | socket (items : List Code.Statement)
  | scheduled (items : List Code.Statement)
  deriving Repr

namespace CompiledCell

def isHttp : CompiledCell → Bool
  | .http _ => true
  | _ => false

def render : CompiledCell → String
  | .code source => source
  | .http items | .socket items | .scheduled items => Code.render items

end CompiledCell

/-- What became of a cell. -/
inductive Outcome where
  | compiled (cell : CompiledCell)
  /-- Not code, or nothing in it. -/
  | ignored
  /-- Left out; a finding says why. -/
  | skipped
  deriving Repr

namespace CellSpec

/-- The code of a cell and the number of made-up names after it, given that before it. -/
def generate (spec : CellSpec) (generated : Nat) : Noted (Option CompiledCell × Nat) := do
  match spec with
  | .passthrough source => return (some (.code source), generated)
  | .http endpoint =>
    let items ← endpoint.generate
    return (items.map .http, generated)
  | .socket endpoint =>
    let items ← endpoint.generate
    return (items.map .socket, generated)
  | .scheduled job =>
    let (items, generated) ← job.generate generated
    return (some (.scheduled items), generated)

end CellSpec

namespace Cell

/-- A code cell that holds something. -/
def isCompiled (c : Cell) : Bool := c.kind = .code && !allBlank c.source.toList

/-- What becomes of a cell, and the number of made-up names after it. -/
def compile (c : Cell) (generated : Nat) : Noted (Outcome × Nat) := do
  if c.isCompiled then
    match ← CellSpec.ofSource c.source with
    | none => return (.skipped, generated)
    | some spec =>
      match ← spec.generate generated with
      | (some cell, generated) => return (.compiled cell, generated)
      | (none, generated) => return (.skipped, generated)
  else return (.ignored, generated)

end Cell

end NotebookService
