import Multipass.Condition.Value
import Multipass.Located
import Multipass.Preprocess.Directive

/-!
# The state of a preprocessing run

Between two lines a run knows the macros in force, the conditional groups that are
open, whether a block comment is open, and the problems found so far. Each step
here handles one directive or one line of code.
-/

namespace Multipass.Preprocess

/-- An open conditional group. `taken` says that no later branch of the group can
    be chosen: an earlier one was, or the group lies in text that is left out. -/
structure Group where
  opener : Opener
  openedAt : Nat
  parentActive : Bool
  taken : Bool
  active : Bool
  seenElse : Bool
  deriving DecidableEq, Repr

/-- `groups` has the innermost group first. Macros whose recursion was reported
    are remembered, so that each is reported once. -/
structure State where
  table : Macro.Table
  groups : List Group
  insideComment : Bool
  problems : List (Located Problem)
  reportedRecursion : List (List Char)

namespace State

/-- The state in front of the first line. -/
def initial : State :=
  ⟨.empty, [], false, [], []⟩

/-- Is the text at this point kept? -/
def active (state : State) : Bool :=
  match state.groups with
  | [] => true
  | group :: _ => group.active

/-- Note a problem on a line. -/
def report (state : State) (line : Nat) (problem : Problem) : State :=
  { state with problems := state.problems ++ [⟨line, problem⟩] }

/-- Report a failed expansion. A recursion is reported once for each macro, at the
    line that defines it. -/
def reportExpansion (state : State) (line : Nat) (problem : Macro.ExpansionProblem) : State :=
  match problem with
  | .arity .. => state.report line (.expansion problem)
  | .recursion name =>
    if state.reportedRecursion.contains name then state
    else
      let line := ((state.table.find? name).map (·.line)).getD line
      { state with reportedRecursion := name :: state.reportedRecursion }.report line
        (.expansion problem)

/-- Does the condition of an `#if` or `#elif` hold? A condition that cannot be
    evaluated does not, and is reported. -/
def condition (state : State) (line : Nat) (text : List Char) : Bool × State :=
  match Macro.expand state.table (resolveDefined state.table false text) with
  | .error problem => (false, state.reportExpansion line problem)
  | .ok expanded =>
    match Condition.valueOf expanded with
    | .error problem => (false, state.report line (.invalidCondition problem))
    | .ok value => (value != 0, state)

/-- Act on a `#define`. -/
def define (state : State) (line : Nat) (rest : List Char) : State :=
  match parseDefinition rest line with
  | .error problem => state.report line problem
  | .ok (name, definition) => { state with table := state.table.define name definition }

/-- Act on an `#undef`. -/
def undefine (state : State) (line : Nat) (rest : List Char) : State :=
  match Text.leadingName? rest with
  | none => state.report line .undefineWithoutName
  | some (name, _) => { state with table := state.table.undefine name }

/-- Open a group whose first branch is chosen when the condition holds. -/
def openGroup (state : State) (line : Nat) (opener : Opener) (holds : Bool) : State :=
  let active := state.active
  let group : Group := ⟨opener, line, active, holds || !active, active && holds, false⟩
  { state with groups := group :: state.groups }

/-- Is the name that a text begins with defined, or not defined, as wanted? -/
def testName (state : State) (line : Nat) (opener : Opener) (wanted : Bool)
    (rest : List Char) : Bool × State :=
  match Text.leadingName? rest with
  | none => (false, state.report line (.groupWithoutName opener))
  | some (name, _) => (state.table.contains name == wanted, state)

/-- Go on to the next branch of the innermost group, chosen when its condition
    holds. The condition of a branch that cannot be chosen is not looked at. -/
def nextBranch (state : State) (line : Nat) (rest : List Char) : State :=
  match state.groups with
  | [] => state.report line .elifOutsideGroup
  | group :: outer =>
    if group.seenElse then state.report line .elifAfterElse
    else if group.parentActive && !group.taken then
      let (holds, state) := state.condition line rest
      { state with groups := { group with active := holds, taken := holds } :: outer }
    else { state with groups := { group with active := false } :: outer }

/-- Go on to the last branch of the innermost group. -/
def lastBranch (state : State) (line : Nat) : State :=
  match state.groups with
  | [] => state.report line .elseOutsideGroup
  | group :: outer =>
    if group.seenElse then state.report line .duplicateElse
    else
      let group := { group with
        seenElse := true
        active := group.parentActive && !group.taken
        taken := true }
      { state with groups := group :: outer }

/-- Act on an `#endif`: leave the innermost group. -/
def closeGroup (state : State) (line : Nat) : State :=
  match state.groups with
  | [] => state.report line .endifOutsideGroup
  | _ :: outer => { state with groups := outer }

/-- Handle a directive. In text that is left out only the structure of groups
    matters. -/
def directive (state : State) (line : Nat) : Directive → State
  | .nothing | .foreign => state
  | .define rest => if state.active then state.define line rest else state
  | .undefine rest => if state.active then state.undefine line rest else state
  | .announce rest => if state.active then state.report line (.announced rest) else state
  | .openNamed opener wanted rest =>
    if state.active then
      let (holds, state) := state.testName line opener wanted rest
      state.openGroup line opener holds
    else state.openGroup line opener false
  | .openCondition rest =>
    if state.active then
      let (holds, state) := state.condition line rest
      state.openGroup line .ifCondition holds
    else state.openGroup line .ifCondition false
  | .orCondition rest => state.nextBranch line rest
  | .otherwise => state.lastBranch line
  | .close => state.closeGroup line

/-- Expand the code of a line segment by segment. A segment that cannot be expanded
    stays as it is. -/
def expandSegments (state : State) (line : Nat) :
    List Comment.Segment → List Char × State
  | [] => ([], state)
  | .comment text :: rest =>
    let (later, state) := state.expandSegments line rest
    (text ++ later, state)
  | .code text :: rest =>
    match Macro.expand state.table text with
    | .ok expanded =>
      let (later, state) := state.expandSegments line rest
      (expanded ++ later, state)
    | .error problem =>
      let (later, state) := (state.reportExpansion line problem).expandSegments line rest
      (text ++ later, state)

/-- A line of code with its macros expanded. Without macros the line stays as it
    is, and only comments are followed. -/
def codeLine (state : State) (line : Nat) (text : List Char) : List Char × State :=
  if state.table.isEmpty then
    (text, { state with insideComment := Comment.insideAfter state.insideComment text })
  else
    let (segments, inside) := Comment.segments state.insideComment text
    let (expanded, state) := state.expandSegments line segments
    (expanded, { state with insideComment := inside })

end State

end Multipass.Preprocess
