import TypedConfig.Code.Compile
import TypedConfig.Machine.Fault
import TypedConfig.Token.Scan
import TypedConfig.Tree.Stream

/-!
# Errors

What can go wrong between the text of a program and its values, whichever stage finds it.  A message
begins with the stage and ends with the place, except that a file that cannot be read has no place.
-/

namespace TypedConfig

/-- Why a file cannot be read. -/
inductive FileFault where
  | notFound
  | isDirectory
  | notText
  /-- Any other reason, in the words of the system. -/
  | other (message : String)
deriving DecidableEq, Repr

/-- The words for a file that cannot be read. -/
def FileFault.text : FileFault → String
  | .notFound => "No such file or directory (os error 2)"
  | .isDirectory => "Is a directory (os error 21)"
  | .notText => "stream did not contain valid UTF-8"
  | .other message => message

/-- What can go wrong. -/
inductive Error where
  | scan (e : ScanError)
  | parse (e : ParseError)
  | compile (e : CompileError)
  | runtime (e : RuntimeError)
  | file (fault : FileFault)
deriving DecidableEq, Repr

namespace Error

/-- The message of an error. -/
def message : Error → String
  | scan e => "Lexer error: " ++ e.describe ScanFault.text
  | parse e => "Syntax error: " ++ e.describe ParseFault.text
  | compile e => "Compile error: " ++ e.describe CompileFault.text
  | runtime e => "Runtime error: " ++ e.describe RuntimeFault.text
  | file fault => "IO error: " ++ fault.text

/-- Where the error is, when it is in the text. -/
def span? : Error → Option Span
  | scan e => some e.span
  | parse e => some e.span
  | compile e => some e.span
  | runtime e => some e.span
  | file _ => none

end Error

/-- A fault in the characters as one in the order of tokens, with its message and at its place. -/
def ParseError.ofScan (e : ScanError) : ParseError :=
  ⟨.other (e.describe ScanFault.text), e.span⟩

end TypedConfig
