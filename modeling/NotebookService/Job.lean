/-
# `NotebookService.Job` — scheduled jobs

A scheduled cell runs at times given by a cron expression of six fields, or again and
again after an interval.  When its body defines a function, the scheduler's decorator is
put above that function and above the decorators that it has; otherwise the body is
wrapped in a function with a made-up name.

Made-up names are numbered.  The number of names handed out so far is passed through a
notebook, so that no two of its jobs share one.
-/
import NotebookService.Code.Layout
import NotebookService.Code.Literal
import NotebookService.Signature

namespace NotebookService.Job

open NotebookService.Text NotebookService.Code

/-- When a job runs. -/
inductive Trigger where
  | cron (expression : String)
  | interval (expression : String)
  deriving DecidableEq, Repr

/-! ## Cron expressions -/

structure CronFields where
  second : String
  minute : String
  hour : String
  day : String
  month : String
  dayOfWeek : String
  deriving DecidableEq, Repr

/-- The fields with the names of the scheduler's arguments, in order. -/
def CronFields.arguments (f : CronFields) : List (String × String) :=
  [ ("second", f.second), ("minute", f.minute), ("hour", f.hour), ("day", f.day),
    ("month", f.month), ("day_of_week", f.dayOfWeek) ]

/-- The fields of a cron expression.  Six are needed; more are ignored. -/
def parseCron (expression : String) : Noted (Option CronFields) :=
  let parts := (words expression.toList).map String.ofList
  match parts with
  | second :: minute :: hour :: day :: month :: dayOfWeek :: extra => do
    if !extra.isEmpty then Noted.note (.cronTooLong expression parts.length)
    return some ⟨second, minute, hour, day, month, dayOfWeek⟩
  | _ => do
    Noted.note (.cronTooShort expression parts.length)
    return none

/-! ## Intervals -/

/-- Seconds are counted in 64 bits. -/
def secondsBound : Nat := 0x1_0000_0000_0000_0000

/-- The seconds in a unit; a unit that is missing or unknown is taken for seconds. -/
def unitSeconds (expression unit : String) : Noted Nat :=
  if unit = "s" then return 1
  else if unit = "m" then return 60
  else if unit = "h" then return 3600
  else if unit = "" then do
    Noted.note (.intervalUnitMissing expression)
    return 1
  else do
    Noted.note (.intervalUnitUnknown unit)
    return 1

/-- The seconds of an interval: digits and a unit. -/
def parseInterval (expression : String) : Noted (Option Nat) :=
  let text := trim expression.toList
  let shown := String.ofList text
  let digits := text.takeWhile Decimal.isDigit
  let unit := trimmed (String.ofList (text.dropWhile Decimal.isDigit))
  let value := Decimal.valueOf digits
  if digits.isEmpty || secondsBound ≤ value then do
    Noted.note (.intervalMalformed shown)
    return none
  else do
    let factor ← unitSeconds shown unit
    if secondsBound ≤ value * factor then
      Noted.note (.intervalTooLarge shown)
      return none
    else return some (value * factor)

/-! ## Decorators -/

/-- The decorator of a job, given the kind of its trigger and the
trigger's own arguments. -/
def schedulerCall (kind name arguments : String) : String :=
  "scheduler.scheduled_job('" ++ kind ++ "', id=" ++ literal (name ++ "_" ++ kind) ++
    ", name=" ++ literal (name ++ "_" ++ kind ++ "_job") ++ arguments ++ ")"

def cronArguments (f : CronFields) : String :=
  String.join (f.arguments.map fun (key, value) => ", " ++ key ++ "=" ++ literal value)

def cronDecorator (name : String) (f : CronFields) : String :=
  schedulerCall "cron" name (cronArguments f)

def intervalDecorator (name : String) (seconds : Nat) : String :=
  schedulerCall "interval" name (", seconds=" ++ toString seconds)

/-- The decorator that a trigger asks for, or the comment that stands in for the job. -/
def decorator (trigger : Trigger) (name : String) : Noted (Except String String) := do
  match trigger with
  | .cron expression =>
    match ← parseCron expression with
    | some fields => return .ok (cronDecorator name fields)
    | none => return .error "# Invalid cron format"
  | .interval expression =>
    match ← parseInterval expression with
    | some seconds => return .ok (intervalDecorator name seconds)
    | none => return .error "# Invalid interval format"

/-- A line that decorates a definition at a column. -/
def isDecorator (indent : Nat) (l : List Char) : Bool :=
  (trimStart l).head? = some '@' && indentation l = indent

/-- The lines of a source with a decorator above a function and above its own
decorators, those right above it at its column. -/
def decorate (ls : List (List Char)) (s : Signature) (decorator : List Char) :
    List (List Char) :=
  let above := ls.take s.line
  let own := (above.reverse.takeWhile (isDecorator s.indent)).reverse
  let indent := (ls.getD s.line []).takeWhile isBlank
  above.take (above.length - own.length) ++ (indent ++ '@' :: decorator) :: own ++
    ls.drop s.line

def decorateSource (source : String) (s : Signature) (decorator : String) : String :=
  String.ofList (unlines (decorate (Text.lines source.toList) s decorator.toList))

end NotebookService.Job

namespace NotebookService

open NotebookService.Code

/-- A scheduled cell. -/
structure Job where
  trigger : Job.Trigger
  source : String
  deriving DecidableEq, Repr

namespace Job

/-- The job that a cell declares; none without a trigger.  Of two triggers the cron
expression counts. -/
def ofMetadata (m : Metadata) (source : String) : Noted (Option Job) :=
  match m.text? "cron", m.text? "interval" with
  | some cron, some _ => do
    Noted.note .jobTriggerTwice
    return some ⟨.cron cron, source⟩
  | some cron, none => return some ⟨.cron cron, source⟩
  | none, some interval => return some ⟨.interval interval, source⟩
  | none, none => do
    Noted.note .jobTriggerMissing
    return none

/-- The made-up name with a number. -/
def madeUpName (number : Nat) : String := "generated_func_" ++ toString number

/-- A wrapper around a body that defines no function. -/
def wrapper (name decorator source : String) : Statement :=
  .function ⟨[decorator], true, "scheduled_" ++ name, []⟩ [.verbatim source]

/-- The code of a job, and the number of made-up names after it, given that before it.
A job whose trigger cannot be read is replaced by a comment. -/
def generate (j : Job) (generated : Nat) : Noted (List Statement × Nat) := do
  match Signature.ofSource? j.source with
  | some s =>
    match ← decorator j.trigger s.name with
    | .ok d => return ([.verbatim (decorateSource j.source s d)], generated)
    | .error comment => return ([.line comment], generated)
  | none =>
    let name := madeUpName generated
    match ← decorator j.trigger name with
    | .ok d => return ([wrapper name d j.source], generated + 1)
    | .error comment => return ([.line comment], generated + 1)

end Job

end NotebookService
