import Multipass.Proofs.Macro.Expansion
import Multipass.Proofs.Preprocess.Tree

/-!
# The meaning of a program

A block is evaluated along its tree. The macros in force are handed from line to line;
of a group the first branch whose condition holds is evaluated, and no condition after
it. What is not evaluated keeps no line, defines nothing and reports nothing.

The second half shows that each step of the state agrees with the step of the meaning.
-/

namespace Multipass.Preprocess

/-- The macros in force, and those whose recursion was reported. -/
structure Context where
  table : Macro.Table
  reported : List (List Char)

/-- What evaluation makes of some lines: what is kept of them, the problems found, and
    the context after them. -/
structure Meaning where
  kept : List KeptLine
  problems : List (Located Problem)
  context : Context

/-- What a condition comes to. -/
structure Verdict where
  holds : Bool
  problems : List (Located Problem)
  context : Context

/-- One meaning after the other. -/
def Meaning.followedBy (first : Meaning) (next : Context → Meaning) : Meaning :=
  let second := next first.context
  ⟨first.kept ++ second.kept, first.problems ++ second.problems, second.context⟩

/-- Go on with one of two meanings. -/
def Verdict.choose (verdict : Verdict) (taken left : Context → Meaning) : Meaning :=
  let chosen := if verdict.holds then taken verdict.context else left verdict.context
  { chosen with problems := verdict.problems ++ chosen.problems }

namespace Context

/-- No macros, and no recursion reported. -/
def empty : Context :=
  ⟨.empty, []⟩

/-- What is reported about a failed expansion: a recursion once for each macro, at the
    line that defines it. -/
def failed (context : Context) (line : Nat) (problem : Macro.ExpansionProblem) :
    List (Located Problem) × Context :=
  match problem with
  | .arity .. => ([⟨line, .expansion problem⟩], context)
  | .recursion name =>
    if name ∈ context.reported then ([], context)
    else
      let line := ((context.table.find? name).map (·.line)).getD line
      ([⟨line, .expansion problem⟩], { context with reported := name :: context.reported })

/-- Code with its macros expanded, or as it stands when that fails. -/
def code (context : Context) (line : Nat) (text : List Char) : Meaning :=
  match Macro.expand context.table text with
  | .ok expanded => ⟨[⟨line, expanded⟩], [], context⟩
  | .error problem =>
    ⟨[⟨line, text⟩], (context.failed line problem).1, (context.failed line problem).2⟩

/-- A definition that cannot be read is reported, and leaves the table as it is. -/
def define (context : Context) (line : Nat) (text : List Char) : Meaning :=
  match parseDefinition text line with
  | .ok (name, definition) =>
    ⟨[], [], { context with table := context.table.define name definition }⟩
  | .error problem => ⟨[], [⟨line, problem⟩], context⟩

/-- A name is taken out of the table, defined or not; no name at all is reported. -/
def undefine (context : Context) (line : Nat) (text : List Char) : Meaning :=
  match Text.leadingName? text with
  | some (name, _) => ⟨[], [], { context with table := context.table.undefine name }⟩
  | none => ⟨[], [⟨line, .undefineWithoutName⟩], context⟩

/-- A condition that cannot be evaluated does not hold, and is reported. -/
def condition (context : Context) (line : Nat) (text : List Char) : Verdict :=
  match Macro.expand context.table (resolveDefined context.table false text) with
  | .error problem =>
    ⟨false, (context.failed line problem).1, (context.failed line problem).2⟩
  | .ok expanded =>
    match Condition.valueOf expanded with
    | .error problem => ⟨false, [⟨line, .invalidCondition problem⟩], context⟩
    | .ok value => ⟨value != 0, [], context⟩

/-- Is a name defined, as wanted? A group without a name does not hold, and is reported. -/
def testName (context : Context) (line : Nat) (opener : Opener) (wanted : Bool)
    (text : List Char) : Verdict :=
  match Text.leadingName? text with
  | some (name, _) => ⟨context.table.contains name == wanted, [], context⟩
  | none => ⟨false, [⟨line, .groupWithoutName opener⟩], context⟩

end Context

/-- Does the group that an opening begins hold? -/
def Opening.verdict (opening : Opening) (context : Context) (line : Nat) : Verdict :=
  match opening.opener with
  | .ifDefined => context.testName line .ifDefined true opening.wording.argument
  | .ifNotDefined => context.testName line .ifNotDefined false opening.wording.argument
  | .ifCondition => context.condition line opening.wording.argument

mutual

/-- The meaning of a block whose first line has the given number. -/
def Block.meaning (block : Block) (context : Context) (line : Nat) : Meaning :=
  match block with
  | .done => ⟨[], [], context⟩
  | .code text rest =>
    (context.code line text.text).followedBy fun context => rest.meaning context (line + 1)
  | .define wording rest =>
    (context.define line wording.argument).followedBy fun context =>
      rest.meaning context (line + 1)
  | .undefine wording rest =>
    (context.undefine line wording.argument).followedBy fun context =>
      rest.meaning context (line + 1)
  | .group opening body branches rest =>
    ((opening.verdict context line).choose (fun context => body.meaning context (line + 1))
      fun context => branches.meaning context (line + 1 + body.lines.length)).followedBy
        fun context =>
          rest.meaning context (line + 1 + body.lines.length + branches.lines.length)

/-- The meaning of the branches that are left when none was taken so far. -/
def Branches.meaning (branches : Branches) (context : Context) (line : Nat) : Meaning :=
  match branches with
  | .close _ => ⟨[], [], context⟩
  | .otherwise _ body _ => body.meaning context (line + 1)
  | .orElse wording body rest =>
    (context.condition line wording.argument).choose
      (fun context => body.meaning context (line + 1))
      fun context => rest.meaning context (line + 1 + body.lines.length)

end

section Steps

variable (context : Context) (groups : List Group) (problems : List (Located Problem))

/-- The state of a run in a context, outside of comments. -/
def Context.state : State :=
  ⟨context.table, groups, false, problems, context.reported⟩

theorem reportExpansion_state (line : Nat) (problem : Macro.ExpansionProblem) :
    (context.state groups problems).reportExpansion line problem =
      (context.failed line problem).2.state groups
        (problems ++ (context.failed line problem).1) := by
  cases problem with
  | arity name expected found => rfl
  | recursion name =>
    simp only [State.reportExpansion, Context.failed, Context.state, List.contains_iff_mem]
    by_cases reported : name ∈ context.reported
    · rw [if_pos reported, if_pos reported, List.append_nil]
    · rw [if_neg reported, if_neg reported]
      rfl

theorem condition_state (line : Nat) (text : List Char) :
    (context.state groups problems).condition line text =
      ((context.condition line text).holds, (context.condition line text).context.state groups
        (problems ++ (context.condition line text).problems)) := by
  unfold State.condition Context.condition
  show (match Macro.expand context.table (resolveDefined context.table false text) with
    | .error problem => _ | .ok expanded => _) = _
  cases Macro.expand context.table (resolveDefined context.table false text) with
  | error problem =>
    simp only
    rw [reportExpansion_state]
  | ok expanded =>
    simp only
    cases Condition.valueOf expanded with
    | error problem => rfl
    | ok value =>
      simp only
      rw [List.append_nil]

theorem testName_state (line : Nat) (opener : Opener) (wanted : Bool) (text : List Char) :
    (context.state groups problems).testName line opener wanted text =
      ((context.testName line opener wanted text).holds,
        (context.testName line opener wanted text).context.state groups
          (problems ++ (context.testName line opener wanted text).problems)) := by
  unfold State.testName Context.testName
  cases Text.leadingName? text with
  | none => rfl
  | some found =>
    simp only
    rw [List.append_nil]
    rfl

theorem define_state (line : Nat) (text : List Char) :
    (context.state groups problems).define line text =
      (context.define line text).context.state groups
        (problems ++ (context.define line text).problems) := by
  unfold State.define Context.define
  cases parseDefinition text line with
  | error problem => rfl
  | ok parsed =>
    simp only
    rw [List.append_nil]
    rfl

theorem undefine_state (line : Nat) (text : List Char) :
    (context.state groups problems).undefine line text =
      (context.undefine line text).context.state groups
        (problems ++ (context.undefine line text).problems) := by
  unfold State.undefine Context.undefine
  cases Text.leadingName? text with
  | none => rfl
  | some found =>
    simp only
    rw [List.append_nil]
    rfl

theorem codeLine_state (line : Nat) (text : CodeLine) :
    ∃ shown, (context.code line text.text).kept = [⟨line, shown⟩] ∧
      (context.state groups problems).codeLine line text.text =
        (shown, (context.code line text.text).context.state groups
          (problems ++ (context.code line text.text).problems)) := by
  by_cases empty : context.table.isEmpty = true
  · refine ⟨text.text, ?_, ?_⟩
    · rw [Context.code, Macro.expand_of_isEmpty empty]
    · rw [State.codeLine, if_pos (by exact empty), Context.code, Macro.expand_of_isEmpty empty]
      simp only [Context.state]
      rw [text.insideAfter_text, List.append_nil]
  · rw [State.codeLine, if_neg (by exact empty)]
    simp only [Context.state, text.segments_text, State.expandSegments]
    unfold Context.code
    cases expansion : Macro.expand context.table text.text with
    | ok expanded =>
      refine ⟨expanded, rfl, ?_⟩
      simp only [List.append_nil]
    | error problem =>
      refine ⟨text.text, rfl, ?_⟩
      have reports := reportExpansion_state context groups problems line problem
      simp only [Context.state] at reports
      simp only [reports, List.append_nil]

end Steps

end Multipass.Preprocess
