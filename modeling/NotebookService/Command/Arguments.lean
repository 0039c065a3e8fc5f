/-
# `NotebookService.Command.Arguments` — what a command line asks for

A command line names a command and gives it options and operands.  An option is written
with its value behind it or attached to it (`-s dir`, `-sdir`, `-s=dir`, `--source dir`,
`--source=dir`), switches that have no value can share a dash, and everything behind
`--` is an operand.  No value may be empty, and one that stands by itself may not begin
with a dash unless it is the dash alone.  An option given twice is refused.

Arguments are read from the left, so the first that is wrong decides, and so does a
question for the version or for help.
-/
import NotebookService.Project.Config

namespace NotebookService

/-- What is to be done. -/
inductive Command where
  | build (config : Project.Config)
  | compile (notebook : String) (output : Option String)
  | init
  | watch (config : Project.Config)
  | version
  | help
  deriving DecidableEq, Repr

namespace Command

open NotebookService.Project

/-! ## Options -/

/-- Whether an option takes a value, or what asking for it means. -/
inductive OptionKind where
  | switch
  | valued
  /-- Answered at once, whatever follows. -/
  | question (answer : Command)
  deriving DecidableEq, Repr

structure OptionSpec where
  name : String
  short : Option Char
  kind : OptionKind
  deriving DecidableEq, Repr

def verboseOption : OptionSpec := ⟨"verbose", some 'v', .switch⟩

def helpOption : OptionSpec := ⟨"help", some 'h', .question .help⟩

def versionOption : OptionSpec := ⟨"version", some 'V', .question .version⟩

def sourceOption : OptionSpec := ⟨"source", some 's', .valued⟩

def outOption : OptionSpec := ⟨"out", some 'o', .valued⟩

def outputOption : OptionSpec := ⟨"output", some 'o', .valued⟩

def ignoreOption : OptionSpec := ⟨"ignore-file", none, .valued⟩

/-- What the arguments of a command have said so far. -/
structure Given where
  /-- Options by name; a switch has the empty value. -/
  options : List (String × String)
  operands : List String
  deriving DecidableEq, Repr

namespace Given

def nothing : Given := ⟨[], []⟩

def value? (g : Given) (o : OptionSpec) : Option String := g.options.lookup o.name

/-- An option is given; one that was given before is refused. -/
def addOption? (g : Given) (o : OptionSpec) (value : String) : Option Given :=
  if (g.value? o).isSome then none
  else some { g with options := g.options ++ [(o.name, value)] }

/-- An option is given a value, which may not be empty. -/
def addValue? (g : Given) (o : OptionSpec) (value : String) : Option Given :=
  if value.isEmpty then none else g.addOption? o value

/-- An operand is given, if the command takes one more. -/
def addOperand? (g : Given) (limit : Nat) (value : String) : Option Given :=
  if value.isEmpty || limit ≤ g.operands.length then none
  else some { g with operands := g.operands ++ [value] }

end Given

/-! ## Reading -/

/-- What an argument looks like. -/
inductive Argument where
  /-- Only operands follow. -/
  | separator
  | long (name : String) (attached : Option String)
  | shorts (letters : List Char)
  | operand (value : String)
  deriving DecidableEq, Repr

namespace Argument

/-- The text in front of the first equals sign, and the text behind it. -/
def splitAtEquals (s : List Char) : String × Option String :=
  match s.dropWhile (· ≠ '=') with
  | [] => (String.ofList s, none)
  | _ :: value => (String.ofList (s.takeWhile (· ≠ '=')), some (String.ofList value))

def ofText (arg : String) : Argument :=
  match arg.toList with
  | ['-', '-'] => .separator
  | '-' :: '-' :: s => .long (splitAtEquals s).1 (splitAtEquals s).2
  | ['-'] => .operand arg
  | '-' :: letters => .shorts letters
  | _ => .operand arg

end Argument

/-- The reading of a command line stops at an answer, at a mistake, or goes on. -/
inductive Reading where
  | asked (answer : Command)
  | refused
  /-- Going on behind this many more arguments. -/
  | more (given : Given) (used : Nat)
  deriving DecidableEq, Repr

/-- The value behind an option, if one stands there. -/
def followingValue? (rest : List String) : Option String :=
  match rest with
  | [] => none
  | arg :: _ =>
    match Argument.ofText arg with
    | .operand value => some value
    | _ => none

/-- An option whose value is attached or follows. -/
def readValued (g : Given) (o : OptionSpec) (attached : Option String)
    (rest : List String) : Reading :=
  match attached with
  | some value =>
    match g.addValue? o value with
    | some g => .more g 0
    | none => .refused
  | none =>
    match (followingValue? rest).bind (g.addValue? o) with
    | some g => .more g 1
    | none => .refused

def readLong (specs : List OptionSpec) (g : Given) (name : String)
    (attached : Option String) (rest : List String) : Reading :=
  match specs.find? (·.name = name) with
  | none => .refused
  | some o =>
    match o.kind with
    | .question answer => if attached.isSome then .refused else .asked answer
    | .valued => readValued g o attached rest
    | .switch =>
      match attached with
      | some _ => .refused
      | none =>
        match g.addOption? o "" with
        | some g => .more g 0
        | none => .refused

/-- The text that is attached to a short option; an equals sign in
front of it is dropped. -/
def attachedText (letters : List Char) : Option String :=
  match letters with
  | [] => none
  | '=' :: value => some (String.ofList value)
  | value => some (String.ofList value)

/-- Letters behind one dash, up to the first that takes a value. -/
def readShorts (specs : List OptionSpec) (g : Given) (rest : List String) :
    List Char → Reading
  | [] => .more g 0
  | c :: letters =>
    match specs.find? (·.short = some c) with
    | none => .refused
    | some o =>
      match o.kind with
      | .question answer => .asked answer
      | .valued => readValued g o (attachedText letters) rest
      | .switch =>
        match g.addOption? o "" with
        | some g => readShorts specs g rest letters
        | none => .refused

/-- Operands up to the end. -/
def readOperands (limit : Nat) (g : Given) (args : List String) : Option Given :=
  args.foldlM (fun g arg => g.addOperand? limit arg) g

/-- One argument in front of others.  A separator is no argument of its own. -/
def readArgument (specs : List OptionSpec) (limit : Nat) (g : Given)
    (rest : List String) :
    Argument → Reading
  | .separator => .refused
  | .long name attached => readLong specs g name attached rest
  | .shorts letters => readShorts specs g rest letters
  | .operand value =>
    match g.addOperand? limit value with
    | some g => .more g 0
    | none => .refused

/-- The arguments of a command, which takes so many operands, or the answer to a
question among them. -/
def readArguments (specs : List OptionSpec) (limit : Nat) (g : Given) :
    List String → Option (Command ⊕ Given)
  | [] => some (.inr g)
  | arg :: rest =>
    match Argument.ofText arg with
    | .separator => (readOperands limit g rest).map .inr
    | argument =>
      match readArgument specs limit g rest argument with
      | .asked answer => some (.inl answer)
      | .refused => none
      | .more g used => readArguments specs limit g (rest.drop used)
termination_by args => args.length
decreasing_by
  simp only [List.length_drop, List.length_cons]
  omega

/-! ## Commands -/

/-- The project that the options name. -/
def configOf (g : Given) : Config :=
  let config := Config.ofSource ((g.value? sourceOption).getD ".")
  let config := match g.value? outOption with
    | some dir => { config with buildDir := dir }
    | none => config
  match g.value? ignoreOption with
  | some file => { config with ignoreFile := file }
  | none => config

/-- A command by its name: the options and the number of operands that it takes,
and what they make. -/
structure CommandSpec where
  options : List OptionSpec
  operands : Nat
  command? : Given → Option Command

def spec? (name : String) : Option CommandSpec :=
  match name with
  | "build" =>
    some ⟨[sourceOption, outOption, ignoreOption], 0, fun g => some (.build (configOf g))⟩
  | "compile" => some ⟨[outputOption], 1, fun g =>
      g.operands.head?.map fun notebook => .compile notebook (g.value? outputOption)⟩
  | "init" => some ⟨[], 0, fun _ => some .init⟩
  | "watch" => some ⟨[sourceOption, outOption], 0, fun g => some (.watch (configOf g))⟩
  | "help" => some ⟨[], 1, fun _ => some .help⟩
  | _ => none

/-- The command of this name with its arguments. -/
def ofNamed? (name : String) (args : List String) : Option Command := do
  let spec ← spec? name
  match ← readArguments ([verboseOption, helpOption] ++ spec.options) spec.operands
    .nothing args with
  | .inl answer => some answer
  | .inr given => spec.command? given

/-- What a command line asks for, with the options in front of the command. -/
def ofArgumentsAfter? (g : Given) : List String → Option Command
  | [] => none
  | arg :: rest =>
    match Argument.ofText arg with
    | .operand name => ofNamed? name rest
    | argument =>
      match readArgument [verboseOption, helpOption, versionOption] 0 g rest argument with
      | .asked answer => some answer
      | .refused => none
      | .more g _ => ofArgumentsAfter? g rest

/-- What a command line asks for; none when it is wrong. -/
def ofArguments? (args : List String) : Option Command := ofArgumentsAfter? .nothing args

end Command

end NotebookService
