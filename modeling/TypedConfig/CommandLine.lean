import TypedConfig.Code.Listing
import TypedConfig.Evaluate
import TypedConfig.Logging

/-!
# The command line

The command evaluates one input, a file or a piece of code, and may list its instructions before and
write its values after.

**Arguments** are read from left to right.  Help and faults end the reading at once, so a fault
behind a request for help does not matter.  A file is refused where there is an input already; code
takes the place of any input before it.

**A pure report.** `CommandLine.report` gives the exit code and all that is written to the two
outputs, given how to read a file.  Log events are not a part of it.
-/

namespace TypedConfig

/-- What is to be evaluated. -/
inductive Input where
  | file (path : String)
  | code (text : String)
deriving DecidableEq, Repr

/-- What the arguments say. -/
structure Settings where
  input : Option Input := none
  log : LogConfig := {}
  logFormat : LogFormat := .compact
  limits : Limits := {}
  /-- Whether the instructions are listed before the run. -/
  listsCode : Bool := false
  /-- Whether the values are written after the run. -/
  dumpsValues : Bool := false
deriving DecidableEq, Repr

/-- What can be wrong with the arguments. -/
inductive UsageFault where
  | noInput
  | missingValue (option : String)
  | unknownOption (option : String)
  | unknownLevel (text : String)
  | unknownFormat (text : String)
  | notACount (option text : String)
  | unexpectedArgument (text : String)
deriving DecidableEq, Repr

/-- The words for a fault. -/
def UsageFault.text : UsageFault → String
  | .noInput => "No input given"
  | .missingValue option => option ++ " requires a value"
  | .unknownOption option => "Unknown option: " ++ option
  | .unknownLevel text => "Unknown log level: " ++ text
  | .unknownFormat text => "Unknown log format: " ++ text
  | .notACount option text => option ++ " expects a number, got " ++ text
  | .unexpectedArgument text => "Unexpected argument: " ++ text

/-- What the arguments ask for. -/
inductive Request where
  | help
  | refuse (fault : UsageFault)
  | evaluate (input : Input) (settings : Settings)
deriving DecidableEq, Repr

/-- What a single argument means. -/
inductive Argument where
  | help
  /-- A setting that needs no value. -/
  | flag (change : Settings → Settings)
  /-- A setting that takes the next argument as its value. -/
  | option (change : String → Settings → Except UsageFault Settings)
  | unknown
  | file

namespace Argument

/-- A limit whose value is a count. -/
def limit (option : String) (change : Nat → Limits → Limits) : Argument :=
  .option fun value s =>
    match Text.parseCount? value with
    | some n => .ok { s with limits := change n s.limits }
    | none => .error (.notACount option value)

/-- The level of the phase with the given name. -/
def phaseLevel (phaseName : String) : Argument :=
  match Phase.ofName? phaseName with
  | none => .unknown
  | some p => .option fun value s =>
    match LogLevel.ofText? value with
    | some l => .ok { s with log := s.log.setPhase p l }
    | none => .error (.unknownLevel value)

/-- The beginning of the options that set the level of a phase. -/
def phaseOption : String := "--log-"

/-- What an argument means. -/
def ofString (arg : String) : Argument :=
  if arg = "--help" || arg = "-h" then .help
  else if arg = "-e" then .option fun value s => .ok { s with input := some (.code value) }
  else if arg = "--disassemble" then .flag fun s => { s with listsCode := true }
  else if arg = "--dump" then .flag fun s => { s with dumpsValues := true }
  else if arg = "-v" then .flag fun s => { s with log := { s.log with global := .debug } }
  else if arg = "-vv" then .flag fun s => { s with log := { s.log with global := .trace } }
  else if arg = "--log-format" then .option fun value s =>
    match LogFormat.ofName? value with
    | some f => .ok { s with logFormat := f }
    | none => .error (.unknownFormat value)
  else if arg = "--max-stack" then limit arg fun n limits => { limits with maxCells := n }
  else if arg = "--max-depth" then limit arg fun n limits => { limits with maxFrames := n }
  else if phaseOption.toList.isPrefixOf arg.toList then
    phaseLevel (String.ofList (arg.toList.drop phaseOption.length))
  else if arg.toList.head? = some '-' then .unknown
  else .file

end Argument

namespace CommandLine

/-- Reads arguments, given what those before them say. -/
def read (s : Settings) : List String → Request
  | [] =>
    match s.input with
    | some input => .evaluate input s
    | none => .refuse .noInput
  | arg :: rest =>
    match Argument.ofString arg, rest with
    | .help, _ => .help
    | .unknown, _ => .refuse (.unknownOption arg)
    | .flag change, rest => read (change s) rest
    | .option _, [] => .refuse (.missingValue arg)
    | .option change, value :: rest =>
      match change value s with
      | .ok s => read s rest
      | .error fault => .refuse fault
    | .file, rest =>
      if s.input.isSome then .refuse (.unexpectedArgument arg)
      else read { s with input := some (.file arg) } rest

/-- What the arguments ask for. -/
def request (args : List String) : Request := read {} args

/-- How the command is used. -/
def usage : String := "cfgl 0.3.0 - cfglang evaluator

Usage: cfgl [options] <file.cf>
       cfgl [options] -e <code>

Options:
  -e <code>               Evaluate code from the command line
  --disassemble           Print the compiled bytecode before running
  --dump                  Print the root bindings as JSON after running
  -v, -vv                 Log at debug / trace level
  --log-<phase> <level>   Log level for lexer, parser, compiler or vm
  --log-format <format>   pretty, compact (default) or json
  --max-stack N           Data stack limit (default: 1024)
  --max-depth N           Frame depth limit (default: 256)
  --help, -h              Show this help message

Examples:
  cfgl app.cf
  cfgl --dump -e 'let port: int = 8080'
  cfgl --log-vm trace app.cf
"

/-- What the command does: how it ends and what it writes. -/
structure Report where
  exitCode : Nat
  output : String
  errors : String
deriving DecidableEq, Repr

/-- Puts a text in red, for terminals.  Where the text itself takes back all colors, red is set
again. -/
def red (text : String) : String :=
  let start := "\x1b[31m"
  let reset := "\x1b[0m"
  start ++ text.replace reset (reset ++ start) ++ reset

/-- The line for an error of the input with the given name. -/
def errorLine (colored : Bool) (origin : String) (e : Error) : String :=
  let line := origin ++ ": " ++ e.message
  (if colored then red line else line) ++ "\n"

/-- Evaluates a text, which was read from where `origin` says. -/
def evaluate (colored : Bool) (s : Settings) (origin text : String) : Report :=
  match chunkOf text with
  | .error e => ⟨1, "", errorLine colored origin e⟩
  | .ok chunk =>
    let listing := if s.listsCode then chunk.listing ++ "---\n" else ""
    let evaluation := Evaluation.ofChunk chunk s.limits
    let written := listing ++ evaluation.output
    match evaluation.result with
    | .error e => ⟨1, written, errorLine colored origin e⟩
    | .ok m => ⟨0, written ++ (if s.dumpsValues then m.dump ++ "\n" else ""), ""⟩

/-- What the command does, given how to read a file. -/
def report (colored : Bool) (file : String → Except FileFault String) (args : List String) :
    Report :=
  match request args with
  | .help => ⟨0, "", usage⟩
  | .refuse fault => ⟨64, "", fault.text ++ "\n" ++ usage⟩
  | .evaluate (.code text) s => evaluate colored s "<eval>" text
  | .evaluate (.file path) s =>
    match file path with
    | .error fault => ⟨1, "", errorLine colored path (.file fault)⟩
    | .ok text => evaluate colored s path text

/-- The file that has to be read, if there is one. -/
def filePath? (args : List String) : Option String :=
  match request args with
  | .evaluate (.file path) _ => some path
  | _ => none

/-- Whether errors are in red, given three settings of the environment and whether the output is a
terminal.  The setting that asks for colors at any rate comes first, then the one that asks for
none. -/
def wantsColor (force noColor color : Option String) (isTerminal : Bool) : Bool :=
  let isOn := fun (setting : String) => setting != "0"
  if (force.map isOn).getD false then true
  else if noColor.isSome then false
  else (color.map isOn).getD true && isTerminal

end CommandLine

end TypedConfig
