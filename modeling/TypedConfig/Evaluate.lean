import TypedConfig.Error
import TypedConfig.Host
import TypedConfig.Tree.Parse

/-!
# From text to values

The stages of an evaluation, each as a function that gives its result or the first error: the
tokens of a text, its tree, its instructions, and the machine after the run.
-/

namespace TypedConfig

/-- The tokens of a text. -/
def tokensOf (text : String) : Except Error (List Token) := (tokenize text).mapError .scan

/-- The tree of a text. -/
def treeOf (text : String) : Except Error Block := do
  let ts ← tokensOf text
  (parseTokens ts).mapError .parse

/-- The instructions of a text. -/
def chunkOf (text : String) : Except Error Chunk := do
  let tree ← treeOf text
  tree.compile.mapError .compile

/-- The machine after the evaluation of a chunk with the default library; whether the run failed is
for the machine to say. -/
def evaluateChunk (chunk : Chunk) (limits : Limits := {}) : Machine :=
  ((Machine.ofChunk chunk limits).bindDefaults).run

/-- The text of a file, given its bytes. -/
def textOfBytes (bytes : ByteArray) : Except FileFault String :=
  match String.fromUTF8? bytes with
  | some text => .ok text
  | none => .error .notText

/-- What an evaluation gives: the machine after the run or the first error, and what was printed. -/
structure Evaluation where
  result : Except Error Machine
  output : String

/-- The evaluation of a chunk. -/
def Evaluation.ofChunk (chunk : Chunk) (limits : Limits := {}) : Evaluation :=
  let m := evaluateChunk chunk limits
  { result := match m.failure with
      | some e => .error (.runtime e)
      | none => .ok m
    output := printed m.state.calls }

/-- The evaluation of a text. -/
def Evaluation.ofText (text : String) (limits : Limits := {}) : Evaluation :=
  match chunkOf text with
  | .ok chunk => .ofChunk chunk limits
  | .error e => ⟨.error e, ""⟩

/-- The evaluation of a file. -/
def Evaluation.ofFile (file : Except FileFault String) (limits : Limits := {}) : Evaluation :=
  match file with
  | .ok text => .ofText text limits
  | .error fault => ⟨.error (.file fault), ""⟩

end TypedConfig
