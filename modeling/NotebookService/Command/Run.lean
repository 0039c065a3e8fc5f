/-
# `NotebookService.Command.Run` — what a command does

A command reads and changes a disk and writes to the two streams of a terminal.
Diagnostics and errors go to the error stream; a compiled module goes to the output
unless a file is named for it.
-/
import NotebookService.Command.Arguments
import NotebookService.Project.Build

namespace NotebookService.Command

open NotebookService.Files NotebookService.Project

/-! ## Terminal text -/

/-- Terminal styles by their numbers. -/
inductive Style where
  | bold
  | dim
  | green
  | yellow
  | cyan
  | red
  deriving DecidableEq, Repr

def Style.code : Style → String
  | .bold => "1"
  | .dim => "2"
  | .green => "32"
  | .yellow => "33"
  | .cyan => "36"
  | .red => "31"

/-- A text in a style, which ends behind it. -/
def Style.paint (style : Style) (text : String) : String :=
  "\x1b[" ++ style.code ++ "m" ++ text ++ "\x1b[0m"

def severityStyle : Severity → Style
  | .warning => .yellow
  | .error => .red

/-! ## Results -/

/-- How a command ended, and what it wrote. -/
structure Result where
  code : Nat
  stdout : String
  stderr : String
  /-- The output ends with the time that the command took. -/
  timed : Bool
  deriving DecidableEq, Repr

def success : Nat := 0

def failure : Nat := 1

/-- The code for a command line that is wrong. -/
def misuse : Nat := 2

/-- A failed command's text on the error stream. -/
def failed (stdout text : String) : Result :=
  ⟨failure, stdout, s!"Error: {text}\n", false⟩

/-- The last line of a timed command. -/
def timeLine (seconds : String) : String := Style.dim.paint "Time:" ++ s!" {seconds}s\n"

/-! ## Building -/

def sourceMissing (c : Config) : Result :=
  failed "" s!"Source directory not found: {c.sourceDir}"

/-- The diagnostics of a report, with a blank line behind them. -/
def reportErrors (r : Report) : String :=
  String.join
      (r.diagnostics.map fun d => (severityStyle d.severity).paint d.text ++ "\n") ++
    if r.diagnostics.isEmpty then "" else "\n"

/-- The counts of a report. -/
def reportCounts (r : Report) : String :=
  Style.green.paint "✓" ++ s!" {r.notebooks} notebooks compiled, " ++
    s!"{r.copied} files copied, {r.skippedCells} cells skipped\n"

def runBuild (c : Config) (d : Disk) : Result × Disk :=
  if !d.isDir c.sourceDir then (sourceMissing c, d)
  else
    let head := "\n" ++ Style.bold.paint "kiln" ++ " - Building " ++
      Style.cyan.paint c.sourceDir ++ "\n\n"
    match Project.build c d with
    | (.error e, d) => (failed head e.withHint, d)
    | (.ok r, d) =>
      let built := Style.green.paint "Built:" ++ " " ++ c.buildDir ++ "\n"
      (⟨success, head ++ reportCounts r ++ built, reportErrors r, true⟩, d)

/-- The build that a watch begins with. -/
def runWatch (c : Config) (d : Disk) : Result × Disk :=
  if !d.isDir c.sourceDir then (sourceMissing c, d)
  else
    let head := "\n" ++ Style.bold.paint "kiln watch" ++ " - " ++
      Style.cyan.paint c.sourceDir ++ "\n" ++
      Style.dim.paint "Watching for notebook changes... (Ctrl+C to stop)" ++ "\n\n"
    match Project.build c d with
    | (.error e, d) =>
      (⟨success, head, Style.red.paint "Error:" ++ " " ++ e.withHint ++ "\n", false⟩, d)
    | (.ok r, d) => (⟨success, head ++ reportCounts r, reportErrors r, false⟩, d)

/-! ## Compiling one notebook -/

/-- The diagnostics of a module, each with the path of its notebook. -/
def moduleErrors (notebook : String) (m : ServiceModule) : String :=
  String.join (m.diagnostics.map fun d =>
    (severityStyle d.severity).paint (notebook ++ ":" ++ d.text) ++ "\n")

def runCompile (notebook : String) (output : Option String) (d : Disk) : Result × Disk :=
  if !d.exists? notebook then (failed "" s!"Notebook not found: {notebook}", d)
  else match compileFile d notebook with
    | .error e => (failed "" e.withHint, d)
    | .ok m =>
      let errors := moduleErrors notebook m
      match output with
      | none => (⟨success, m.source, errors, false⟩, d)
      | some path =>
        match d.writeText path m.source with
        | .error fault =>
          (⟨failure, "", errors ++ s!"Error: {fault.message}\n", false⟩, d)
        | .ok d =>
          let counts := s!" {path} ({m.compiled} cells compiled, {m.skipped} skipped)\n"
          (⟨success, "", errors ++ Style.green.paint "✓" ++ counts, false⟩, d)

/-! ## Starting a project -/

/-- The ignore file that a new project gets. -/
def initPath : String := Path.join "." Config.ignoreName

def runInit (d : Disk) : Result × Disk :=
  if d.exists? initPath then
    (⟨success, Style.dim.paint s!"{initPath} already exists, leaving it unchanged" ++
        "\n", "", false⟩, d)
  else match d.writeText initPath Ignore.Rules.template with
    | .error fault => (failed "" fault.message, d)
    | .ok d =>
      (⟨success, Style.green.paint "Created:" ++ " " ++ initPath ++ "\n", "", false⟩, d)

/-! ## Commands -/

def versionText : String := "kiln 0.1.0\n"

def usage : String :=
  "Usage: kiln [-v] <COMMAND>\n" ++
  "  build [-s SOURCE] [-o OUT] [--ignore-file FILE]\n" ++
  "  compile NOTEBOOK [-o OUTPUT]\n" ++
  "  init\n" ++
  "  watch [-s SOURCE] [-o OUT]\n"

/-- What a command does. -/
def run (command : Command) (d : Disk) : Result × Disk :=
  match command with
  | .build c => runBuild c d
  | .compile notebook output => runCompile notebook output d
  | .init => runInit d
  | .watch c => runWatch c d
  | .version => (⟨success, versionText, "", false⟩, d)
  | .help => (⟨success, usage, "", false⟩, d)

/-- The paths that a command reads or changes, with all that is below them. -/
def paths : Command → List String
  | .build c | .watch c => [c.sourceDir, c.buildDir, c.ignorePath]
  | .compile notebook output => notebook :: output.toList
  | .init => [initPath]
  | .version | .help => []

/-- What a command line does. -/
def runArguments (args : List String) (d : Disk) : Result × Disk :=
  match Command.ofArguments? args with
  | none => (⟨misuse, "", usage, false⟩, d)
  | some command => run command d

end NotebookService.Command
