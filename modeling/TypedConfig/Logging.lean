import TypedConfig.Text.Count

/-!
# Which log events are wanted

Each phase of an evaluation logs under a target of its own.  A `LogConfig` sets one level for all of
them and may set another for single phases.

**Two lookups.** `LogConfig.levelFor` asks for the level of one target.  `LogFilter` is what a
writer of logs works with: a list of directives, each for all targets that begin with its name, of
which the longest decides.

**Verbosity.** Levels are ordered from `error` to `trace`; an event is wanted if its level is not
above the one that was set.
-/

namespace TypedConfig

/-- How important an event is. -/
inductive LogLevel where
  | error
  | warn
  | info
  | debug
  | trace
deriving DecidableEq, Repr

namespace LogLevel

/-- The levels, the least verbose first. -/
def all : List LogLevel := [error, warn, info, debug, trace]

/-- How verbose a level is, from one to five. -/
def verbosity : LogLevel → Nat
  | error => 1
  | warn => 2
  | info => 3
  | debug => 4
  | trace => 5

/-- The name of a level. -/
def name : LogLevel → String
  | error => "ERROR"
  | warn => "WARN"
  | info => "INFO"
  | debug => "DEBUG"
  | trace => "TRACE"

/-- The level that a text names, by its verbosity or by its name in letters of any case. -/
def ofText? (text : String) : Option LogLevel :=
  all.find? fun l => Text.parseCount? text = some l.verbosity || text.toUpper = l.name

end LogLevel

/-- The phases of an evaluation. -/
inductive Phase where
  | lexer
  | parser
  | compiler
  | vm
deriving DecidableEq, Repr

namespace Phase

def all : List Phase := [lexer, parser, compiler, vm]

/-- The name of a phase. -/
def name : Phase → String
  | lexer => "lexer"
  | parser => "parser"
  | compiler => "compiler"
  | vm => "vm"

/-- The target under which a phase logs. -/
def target (p : Phase) : String := "cfglang::" ++ p.name

/-- The phase with the given name. -/
def ofName? (name : String) : Option Phase := all.find? fun p => p.name = name

/-- The phase with the given target. -/
def ofTarget? (target : String) : Option Phase := all.find? fun p => p.target = target

end Phase

/-- The levels that are set. -/
structure LogConfig where
  /-- The level of phases without one of their own. -/
  global : LogLevel := .warn
  lexer : Option LogLevel := none
  parser : Option LogLevel := none
  compiler : Option LogLevel := none
  vm : Option LogLevel := none
deriving DecidableEq, Repr

namespace LogConfig

/-- The level set for a phase alone. -/
def own? (c : LogConfig) : Phase → Option LogLevel
  | .lexer => c.lexer
  | .parser => c.parser
  | .compiler => c.compiler
  | .vm => c.vm

/-- Sets the level of a phase. -/
def setPhase (c : LogConfig) (p : Phase) (l : LogLevel) : LogConfig :=
  match p with
  | .lexer => { c with lexer := some l }
  | .parser => { c with parser := some l }
  | .compiler => { c with compiler := some l }
  | .vm => { c with vm := some l }

/-- The level of a phase. -/
def phaseLevel (c : LogConfig) (p : Phase) : LogLevel := (c.own? p).getD c.global

/-- The level of a target: that of its phase, or the global one if it is the target of none. -/
def levelFor (c : LogConfig) (target : String) : LogLevel :=
  match Phase.ofTarget? target with
  | some p => c.phaseLevel p
  | none => c.global

/-- A phase that is set has that level, and the others keep theirs. -/
theorem own?_setPhase (c : LogConfig) (p q : Phase) (l : LogLevel) :
    (c.setPhase p l).own? q = if p = q then some l else c.own? q := by
  cases p <;> cases q <;> rfl

end LogConfig

/-- Directives for the targets that begin with a name, and the level of all other targets. -/
structure LogFilter where
  directives : List (String × LogLevel)
  fallback : LogLevel

namespace LogFilter

/-- The filter of a configuration: one directive for every phase. -/
def ofConfig (c : LogConfig) : LogFilter :=
  ⟨Phase.all.map fun p => (p.target, c.levelFor p.target), c.global⟩

/-- The longer of two directives, the first one if they are equally long. -/
def longer (best : Option (String × LogLevel)) (d : String × LogLevel) :
    Option (String × LogLevel) :=
  match best with
  | none => some d
  | some b => if b.1.length < d.1.length then some d else some b

/-- The level of a target. -/
def levelOf (f : LogFilter) (target : String) : LogLevel :=
  match (f.directives.filter fun d => d.1.toList.isPrefixOf target.toList).foldl longer none with
  | some d => d.2
  | none => f.fallback

/-- Whether an event is wanted. -/
def wants (f : LogFilter) (target : String) (level : LogLevel) : Bool :=
  level.verbosity ≤ (f.levelOf target).verbosity

end LogFilter

/-- How log events are written. -/
inductive LogFormat where
  | pretty
  | compact
  | json
deriving DecidableEq, Repr

namespace LogFormat

/-- The format with the given name. -/
def ofName? (name : String) : Option LogFormat :=
  if name = "pretty" then some pretty
  else if name = "compact" then some compact
  else if name = "json" then some json
  else none

end LogFormat

end TypedConfig
