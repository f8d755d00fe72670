import Mathlib.Tactic.Common
import TypedConfig.CommandLine

/-!
# Which input of a command line is evaluated

The inputs of a command line are the values of `-e` and the arguments that are neither options nor
their values (`CommandLine.inputs`).  A file behind another input is refused, but code is not: it
takes the place of what stands before it (`CommandLine.evaluate_of_inputs`).

**Arguments.** What an argument is taken for goes by its spelling (`Argument.Spelled`), and only
`-e` and files set the input.

**Reading** goes on behind arguments that could be evaluated by themselves from where these leave
the settings (`CommandLine.read_append`).
-/

namespace TypedConfig

/-! ## Arguments -/

/-- Whether an argument is an option that takes the next argument as its value. -/
def Argument.takesValue (arg : String) : Bool :=
  ["-e", "--log-format", "--max-stack", "--max-depth"].contains arg ||
    Phase.all.any fun p => arg = "--log-" ++ p.name

/-- Whether an argument begins as options do. -/
def Argument.isDashed (arg : String) : Bool := arg.toList.head? = some '-'

/-- The inputs of a command line: code behind `-e`, and arguments that do not begin as options do
and are not the values of options. -/
def CommandLine.inputs : List String → List Input
  | [] => []
  | [arg] => if Argument.isDashed arg then [] else [.file arg]
  | arg :: value :: rest =>
    if arg = "-e" then .code value :: inputs rest
    else if Argument.takesValue arg then inputs rest
    else if Argument.isDashed arg then inputs (value :: rest)
    else .file arg :: inputs (value :: rest)

namespace Argument

/-- How the arguments of each kind are spelled, and what they do to the input. -/
inductive Spelled (arg : String) : Argument → Prop where
  | help (h : arg = "--help" ∨ arg = "-h") : Spelled arg .help
  | flag {change : Settings → Settings} (value : takesValue arg = false)
      (dashed : isDashed arg = true) (keeps : ∀ s, (change s).input = s.input) :
      Spelled arg (.flag change)
  | code (h : arg = "-e") :
      Spelled arg (.option fun value s => .ok { s with input := some (.code value) })
  | option {change : String → Settings → Except UsageFault Settings} (value : takesValue arg = true)
      (other : arg ≠ "-e") (keeps : ∀ v s t, change v s = .ok t → t.input = s.input) :
      Spelled arg (.option change)
  | unknown : Spelled arg .unknown
  | file (value : takesValue arg = false) (bare : isDashed arg = false) : Spelled arg .file

lemma spelled_limit {arg : String} (value : takesValue arg = true) (other : arg ≠ "-e")
    (change : Nat → Limits → Limits) : Spelled arg (limit arg change) := by
  refine .option value other fun v s t h => ?_
  split at h <;> cases h
  rfl

lemma spelled_phaseLevel {arg name : String} (harg : arg = "--log-" ++ name) :
    Spelled arg (phaseLevel name) := by
  rw [phaseLevel]
  cases hp : Phase.ofName? name with
  | none => exact .unknown
  | some p =>
      have hname : p.name = name := by simpa using List.find?_some hp
      have hvalue : takesValue arg = true := by
        rw [harg, ← hname]
        cases p <;> decide
      have hother : arg ≠ "-e" := by
        rw [harg, ← hname]
        cases p <;> decide
      refine .option hvalue hother fun v s t h => ?_
      split at h <;> cases h
      rfl

/-- A text that begins with another is that text and what is left behind it. -/
lemma eq_append_drop {arg beginning : String} (h : beginning.toList.isPrefixOf arg.toList = true) :
    arg = beginning ++ String.ofList (arg.toList.drop beginning.length) := by
  obtain ⟨rest, hrest⟩ := List.isPrefixOf_iff_prefix.mp h
  apply String.toList_inj.mp
  rw [String.toList_append, String.toList_ofList, ← hrest, ← String.length_toList,
    List.drop_left]

lemma takesValue_eq_false {arg : String} (he : arg ≠ "-e") (hformat : arg ≠ "--log-format")
    (hstack : arg ≠ "--max-stack") (hdepth : arg ≠ "--max-depth")
    (hphase : ¬ phaseOption.toList.isPrefixOf arg.toList = true) : takesValue arg = false := by
  have hnames : ∀ p : Phase, arg ≠ "--log-" ++ p.name := by
    rintro p rfl
    refine hphase (List.isPrefixOf_iff_prefix.mpr ?_)
    rw [String.toList_append]
    exact List.prefix_append _ _
  simp [takesValue, he, hformat, hstack, hdepth, hnames]

/-- Every argument is spelled as what it is taken for. -/
lemma spelled_ofString (arg : String) : Spelled arg (ofString arg) := by
  rw [ofString]
  by_cases hhelp : (arg = "--help" || arg = "-h") = true
  · rw [if_pos hhelp]
    exact .help (by simpa using hhelp)
  rw [if_neg hhelp]
  by_cases he : arg = "-e"
  · rw [if_pos he]
    exact .code he
  rw [if_neg he]
  by_cases hlist : arg = "--disassemble"
  · rw [if_pos hlist, hlist]
    exact .flag (by decide) (by decide) fun _ => rfl
  rw [if_neg hlist]
  by_cases hdump : arg = "--dump"
  · rw [if_pos hdump, hdump]
    exact .flag (by decide) (by decide) fun _ => rfl
  rw [if_neg hdump]
  by_cases hv : arg = "-v"
  · rw [if_pos hv, hv]
    exact .flag (by decide) (by decide) fun _ => rfl
  rw [if_neg hv]
  by_cases hvv : arg = "-vv"
  · rw [if_pos hvv, hvv]
    exact .flag (by decide) (by decide) fun _ => rfl
  rw [if_neg hvv]
  by_cases hformat : arg = "--log-format"
  · rw [if_pos hformat, hformat]
    refine .option (by decide) (by decide) fun v s t h => ?_
    split at h <;> cases h
    rfl
  rw [if_neg hformat]
  by_cases hstack : arg = "--max-stack"
  · rw [if_pos hstack]
    exact spelled_limit (hstack ▸ by decide) he _
  rw [if_neg hstack]
  by_cases hdepth : arg = "--max-depth"
  · rw [if_pos hdepth]
    exact spelled_limit (hdepth ▸ by decide) he _
  rw [if_neg hdepth]
  by_cases hphase : phaseOption.toList.isPrefixOf arg.toList = true
  · rw [if_pos hphase]
    exact spelled_phaseLevel (eq_append_drop hphase)
  rw [if_neg hphase]
  by_cases hdash : arg.toList.head? = some '-'
  · rw [if_pos hdash]
    exact .unknown
  · rw [if_neg hdash]
    exact .file (takesValue_eq_false he hformat hstack hdepth hphase) (by simp [isDashed, hdash])

lemma spelled_of_eq {arg : String} {a : Argument} (h : ofString arg = a) : Spelled arg a :=
  h ▸ spelled_ofString arg

end Argument

namespace CommandLine

open Argument

/-! ## Inputs -/

lemma inputs_flag {arg : String} (hvalue : takesValue arg = false) (hdashed : isDashed arg = true)
    (rest : List String) : inputs (arg :: rest) = inputs rest := by
  have he : arg ≠ "-e" := by
    rintro rfl
    cases hvalue
  cases rest with
  | nil => simp [inputs, hdashed]
  | cons value rest => simp [inputs, he, hvalue, hdashed]

lemma inputs_file {arg : String} (hvalue : takesValue arg = false) (hbare : isDashed arg = false)
    (rest : List String) : inputs (arg :: rest) = .file arg :: inputs rest := by
  have he : arg ≠ "-e" := by
    rintro rfl
    cases hvalue
  cases rest with
  | nil => simp [inputs, hbare]
  | cons value rest => simp [inputs, he, hvalue, hbare]

lemma inputs_option {arg : String} (hvalue : takesValue arg = true) (he : arg ≠ "-e")
    (value : String) (rest : List String) : inputs (arg :: value :: rest) = inputs rest := by
  rw [inputs, if_neg he, if_pos hvalue]

/-- Whether an input is the one to evaluate: the last one, and only code is behind the first. -/
structure IsChosen (input : Input) (all : List Input) : Prop where
  last : all.getLast? = some input
  code : ∀ other ∈ all.tail, ∃ text, other = .code text

/-- Code takes the place of an input in front of it. -/
lemma IsChosen.behind {input : Input} {text : String} {rest : List Input}
    (h : IsChosen input (.code text :: rest)) (first : Option Input) :
    IsChosen input (first.toList ++ .code text :: rest) := by
  cases first with
  | none => exact h
  | some i =>
      refine ⟨?_, fun other hother => ?_⟩
      · rw [Option.toList_some, List.singleton_append, List.getLast?_cons_cons]
        exact h.last
      · rcases List.mem_cons.mp hother with rfl | hother
        · exact ⟨text, rfl⟩
        · exact h.code other hother

/-! ## Reading -/

/-- What is evaluated is chosen of all inputs, the one that was read before among them. -/
lemma chosen_of_read {s t : Settings} {args : List String} {input : Input}
    (h : read s args = .evaluate input t) : IsChosen input (s.input.toList ++ inputs args) := by
  -- what has been read of the inputs is in the settings, and stands in front of the others
  fun_induction read s args with
  | case1 s given hgiven =>
      cases h
      rw [hgiven, inputs]
      exact ⟨rfl, nofun⟩
  | case2 | case3 | case4 | case6 | case8 | case9 => cases h
  | case5 s arg change rest harg ih =>
      cases spelled_of_eq harg with
      | flag hvalue hdashed hkeeps =>
          rw [inputs_flag hvalue hdashed, ← hkeeps s]
          exact ih h
  | case7 s arg change value rest harg u hu ih =>
      cases spelled_of_eq harg with
      | code he =>
          cases hu
          rw [inputs, if_pos he]
          exact (ih h).behind s.input
      | option hvalue he hkeeps =>
          rw [inputs_option hvalue he, ← hkeeps value s u hu]
          exact ih h
  | case10 s arg rest harg hnone ih =>
      cases spelled_of_eq harg with
      | file hvalue hbare =>
          rw [Option.not_isSome_iff_eq_none] at hnone
          rw [inputs_file hvalue hbare, hnone]
          exact ih h

/-- Reading goes on where arguments that can be evaluated by themselves leave the settings. -/
lemma read_append {s t : Settings} {args : List String} {input : Input}
    (h : read s args = .evaluate input t) (more : List String) :
    read s (args ++ more) = read t more := by
  fun_induction read s args with
  | case1 s given hgiven =>
      cases h
      rfl
  | case2 | case3 | case4 | case6 | case8 | case9 => cases h
  | case5 s arg change rest harg ih =>
      rw [List.cons_append, read.eq_def]
      simp only [harg]
      exact ih h
  | case7 s arg change value rest harg u hu ih =>
      rw [List.cons_append, List.cons_append, read.eq_def]
      simp only [harg, hu]
      exact ih h
  | case10 s arg rest harg hnone ih =>
      rw [List.cons_append, read.eq_def]
      simp only [harg, if_neg hnone]
      exact ih h

/-- Only a request for help is answered with help. -/
lemma asked_of_help {s : Settings} {args : List String} (h : read s args = .help) :
    "--help" ∈ args ∨ "-h" ∈ args := by
  fun_induction read s args with
  | case1 | case2 | case4 | case6 | case8 | case9 => cases h
  | case3 s arg rest harg =>
      cases spelled_of_eq harg with
      | help hhelp =>
          rcases hhelp with rfl | rfl
          · exact Or.inl List.mem_cons_self
          · exact Or.inr List.mem_cons_self
  | case5 s arg change rest harg ih | case10 s arg rest harg hnone ih =>
      exact (ih h).imp (List.mem_cons_of_mem _) (List.mem_cons_of_mem _)
  | case7 s arg change value rest harg u hu ih =>
      exact (ih h).imp (fun hmem => List.mem_cons_of_mem _ (List.mem_cons_of_mem _ hmem))
        fun hmem => List.mem_cons_of_mem _ (List.mem_cons_of_mem _ hmem)

/-- A command line whose inputs are not all code behind the first is refused, unless help was asked
for.  If there is an evaluation, it is that of the last input.  Code can be added to any command
line that is evaluated, and is then evaluated instead. -/
theorem evaluate_of_inputs (args : List String) :
    ((∃ path, .file path ∈ (inputs args).tail) →
      (∃ fault, request args = .refuse fault) ∨
        request args = .help ∧ ("--help" ∈ args ∨ "-h" ∈ args)) ∧
    (∀ input s, request args = .evaluate input s → IsChosen input (inputs args)) ∧
    ∀ input s text, request args = .evaluate input s →
      request (args ++ ["-e", text]) =
        .evaluate (.code text) { s with input := some (.code text) } := by
  have hchosen {input : Input} {s : Settings} (h : request args = .evaluate input s) :
      IsChosen input (inputs args) := chosen_of_read h
  refine ⟨fun ⟨path, hpath⟩ => ?_, fun _ _ => hchosen, fun input s text h => ?_⟩
  · cases hrequest : request args with
    | help => exact Or.inr ⟨rfl, asked_of_help hrequest⟩
    | refuse fault => exact Or.inl ⟨fault, rfl⟩
    | evaluate input s =>
        obtain ⟨text, htext⟩ := (hchosen hrequest).code _ hpath
        cases htext
  · rw [request, read_append h]
    rfl

/-- A file behind code is refused, and code behind code is not. -/
theorem evaluate_of_inputs_twice :
    (∃ path, Input.file path ∈ (inputs ["-e", "print(1)", "app.cf"]).tail) ∧
      ((∃ fault, request ["-e", "print(1)", "app.cf"] = .refuse fault) ∨
        request ["-e", "print(1)", "app.cf"] = .help ∧
          ("--help" ∈ ["-e", "print(1)", "app.cf"] ∨ "-h" ∈ ["-e", "print(1)", "app.cf"])) ∧
      request ["-e", "print(1)", "-e", "print(2)"] =
        .evaluate (.code "print(2)") { input := some (.code "print(2)") } := by
  have hfile : ∃ path, Input.file path ∈ (inputs ["-e", "print(1)", "app.cf"]).tail :=
    ⟨"app.cf", by decide⟩
  have hfirst : request ["-e", "print(1)"] =
      .evaluate (.code "print(1)") { input := some (.code "print(1)") } := rfl
  exact ⟨hfile, (evaluate_of_inputs _).1 hfile,
    (evaluate_of_inputs ["-e", "print(1)"]).2.2 _ _ "print(2)" hfirst⟩

/-- A command line with two inputs that is evaluated: the first one is ignored. -/
theorem evaluate_ignored_file :
    (inputs ["app.cf", "-e", "print(2)"]).length = 2 ∧
      request ["app.cf", "-e", "print(2)"] =
        .evaluate (.code "print(2)") { input := some (.code "print(2)") } :=
  ⟨by decide, by decide⟩

end CommandLine

end TypedConfig
