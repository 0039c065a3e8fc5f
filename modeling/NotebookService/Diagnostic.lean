/-
# `NotebookService.Diagnostic` — what is reported about a cell

Nothing that is reported ends the compilation of a notebook.  A warning says that a cell
was compiled after a guess, or left out because a part of it is missing; an error says
that the cell could not be understood and is left out.

`Finding` lists everything that can be said, each with what it is said about.  The
wording stands in one place, `Finding.message`.  `Noted` carries a result together with
its findings in the order in which they were made; the number of the cell is added once,
where the cells are counted.
-/

namespace NotebookService

inductive Severity where
  | warning
  | error
  deriving DecidableEq, Repr, Inhabited

def Severity.word : Severity → String
  | .warning => "warning"
  | .error => "error"

/-! ## Cells that cannot be used -/

/-- Why the structure of a cell cannot be used. -/
inductive CellError where
  /-- The declaration is not metadata; `line` counts from one inside the declaration. -/
  | metadata (line : Nat) (detail : String)
  | invalid (detail : String)
  deriving DecidableEq, Repr

def CellError.message : CellError → String
  | .metadata line detail => s!"failed to parse metadata at line {line}: {detail}"
  | .invalid detail => s!"invalid cell: {detail}"

/-! ## Findings -/

/-- One remark about a cell. -/
inductive Finding where
  | skipped (cause : CellError)
  -- fields
  | fieldWithoutName (declaration : String)
  | fieldWithoutType (name : String)
  | fieldTypeUnsupported (name : String)
  | nestedFieldList
  -- endpoints
  | httpMethodMissing
  | httpPathMissing (verb : String)
  | httpBodyMissing (verb path : String)
  | socketPathMissing
  | socketBodyMissing (path : String)
  | socketTypeUnsupported (path word : String)
  | argumentsMissing (function : String) (names : List String)
  | inputUntaken (function : String)
  | streamNotAsync (function : String)
  | messageIgnored
  -- jobs
  | jobBodyMissing
  | jobTriggerMissing
  | jobTriggerTwice
  | cronTooShort (expression : String) (found : Nat)
  | cronTooLong (expression : String) (found : Nat)
  | intervalMalformed (expression : String)
  | intervalUnitMissing (expression : String)
  | intervalUnitUnknown (unit : String)
  | intervalTooLarge (expression : String)
  deriving DecidableEq, Repr

namespace Finding

/-- Only a cell whose structure is unusable, or a socket of unknown type, is an error. -/
def severity : Finding → Severity
  | .skipped _ => .error
  | .socketTypeUnsupported _ _ => .error
  | _ => .warning

def message : Finding → String
  | .skipped cause => cause.message ++ ", cell skipped"
  | .fieldWithoutName declaration => s!"field declaration has no name: {declaration}"
  | .fieldWithoutType name => s!"no type hint for field: {name}, using Any"
  | .fieldTypeUnsupported name => s!"unsupported type for field: {name}, using Any"
  | .nestedFieldList => "nested lists are not valid field declarations"
  | .httpMethodMissing =>
    "@HTTP cell has no method (GET, POST, PUT, DELETE, PATCH), cell skipped"
  | .httpPathMissing verb => s!"@HTTP {verb} cell has no path, cell skipped"
  | .httpBodyMissing verb path => s!"{verb} {path}: cell has no body, cell skipped"
  | .socketPathMissing => "@WS cell has no path, cell skipped"
  | .socketBodyMissing path => s!"websocket {path}: cell has no body, cell skipped"
  | .socketTypeUnsupported path word =>
    s!"websocket {path}: unsupported type `{word}`, expected `event` or `stream`"
  | .argumentsMissing function names =>
    s!"missing expected arguments in function {function}: " ++ ", ".intercalate names
  | .inputUntaken function =>
    s!"function {function} takes no parameters, " ++
      "but receives the incoming message as its first argument"
  | .streamNotAsync function =>
    s!"stream function {function} should be an async generator"
  | .messageIgnored => "message schema is ignored for event websockets"
  | .jobBodyMissing => "scheduled cell has no body, cell skipped"
  | .jobTriggerMissing =>
    "scheduled cell declares neither cron nor interval, cell skipped"
  | .jobTriggerTwice => "both cron and interval declared, using cron"
  | .cronTooShort expression found =>
    s!"invalid cron format `{expression}`: expected 6 fields " ++
      s!"(second minute hour day month day_of_week), found {found}"
  | .cronTooLong expression found =>
    s!"cron `{expression}` has {found} fields, ignoring everything after the sixth"
  | .intervalMalformed expression => s!"invalid interval format `{expression}`"
  | .intervalUnitMissing expression =>
    s!"interval `{expression}` has no unit, assuming seconds"
  | .intervalUnitUnknown unit =>
    s!"unsupported interval unit `{unit}`, defaulting to seconds"
  | .intervalTooLarge expression => s!"interval `{expression}` is too large"

end Finding

/-- A result and the findings made on the way to it. -/
structure Noted (α : Type) where
  value : α
  findings : List Finding
  deriving Repr

namespace Noted

instance : Monad Noted where
  pure x := ⟨x, []⟩
  bind m f := ⟨(f m.value).value, m.findings ++ (f m.value).findings⟩

/-- One finding and no result. -/
def note (f : Finding) : Noted Unit := ⟨(), [f]⟩

@[simp] theorem value_pure {α : Type} (x : α) : (pure x : Noted α).value = x := rfl

@[simp] theorem findings_pure {α : Type} (x : α) : (pure x : Noted α).findings = [] := rfl

@[simp] theorem value_bind {α β : Type} (m : Noted α) (f : α → Noted β) :
    (m >>= f).value = (f m.value).value := rfl

@[simp] theorem findings_bind {α β : Type} (m : Noted α) (f : α → Noted β) :
    (m >>= f).findings = m.findings ++ (f m.value).findings := rfl

@[simp] theorem value_note (f : Finding) : (note f).value = () := rfl

@[simp] theorem findings_note (f : Finding) : (note f).findings = [f] := rfl

end Noted

/-! ## Diagnostics -/

/-- A message about one cell of a notebook, cells counted from zero. -/
structure Diagnostic where
  severity : Severity
  cell : Nat
  message : String
  deriving DecidableEq, Repr, Inhabited

namespace Diagnostic

/-- A finding, made about a cell. -/
def ofFinding (cell : Nat) (f : Finding) : Diagnostic := ⟨f.severity, cell, f.message⟩

/-- The error that a cell is left out. -/
def skipped (cell : Nat) (cause : CellError) : Diagnostic :=
  ofFinding cell (.skipped cause)

def text (d : Diagnostic) : String :=
  s!"cell {d.cell}: " ++ d.severity.word ++ ": " ++ d.message

def isError (d : Diagnostic) : Bool := d.severity = .error

end Diagnostic

/-- Whether any of the diagnostics is an error. -/
def hasErrors (ds : List Diagnostic) : Bool := ds.any Diagnostic.isError

/-- The findings about one cell, as diagnostics. -/
def Noted.diagnostics {α : Type} (m : Noted α) (cell : Nat) : List Diagnostic :=
  m.findings.map (Diagnostic.ofFinding cell)

end NotebookService
