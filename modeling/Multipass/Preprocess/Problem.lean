import Multipass.Condition.Token
import Multipass.Macro.Expansion

/-!
# Problems of a source text

Everything that can be wrong with the directives and macro calls of a text, and
the words in which each problem is reported.
-/

namespace Multipass.Preprocess

/-- The three directives that open a conditional group. -/
inductive Opener where
  | ifDefined
  | ifNotDefined
  | ifCondition
  deriving DecidableEq, Repr

/-- How the directive that opens a group is written. -/
def Opener.spelling : Opener → String
  | .ifDefined => "#ifdef"
  | .ifNotDefined => "#ifndef"
  | .ifCondition => "#if"

/-- What can be wrong with a text that is preprocessed. -/
inductive Problem where
  | unterminatedGroup (opener : Opener)
  | groupWithoutName (opener : Opener)
  | elifOutsideGroup
  | elifAfterElse
  | elseOutsideGroup
  | duplicateElse
  | endifOutsideGroup
  | undefineWithoutName
  | defineWithoutName
  | unterminatedParameters (name : List Char)
  | invalidParameter (parameter name : List Char)
  | invalidCondition (problem : Condition.Problem)
  | expansion (problem : Macro.ExpansionProblem)
  | announced (text : List Char)
  deriving DecidableEq, Repr

/-- What the user is told about an expansion that failed. -/
def expansionMessage : Macro.ExpansionProblem → String
  | .recursion name =>
    s!"Macro '{String.ofList name}' expands recursively (expansion depth exceeded {Macro.expansionLimit})"
  | .arity name expected found =>
    s!"Macro '{String.ofList name}' expects {expected} argument(s) but {found} were given"

/-- What the user is told about a problem. -/
def Problem.message : Problem → String
  | .unterminatedGroup opener => s!"Unterminated {opener.spelling} block (missing #endif)"
  | .groupWithoutName opener => s!"{opener.spelling} requires a macro name"
  | .elifOutsideGroup => "#elif without matching #if"
  | .elifAfterElse => "#elif after #else"
  | .elseOutsideGroup => "#else without matching #if/#ifdef"
  | .duplicateElse => "Duplicate #else in conditional block"
  | .endifOutsideGroup => "#endif without matching #if/#ifdef"
  | .undefineWithoutName => "#undef requires a macro name"
  | .defineWithoutName => "#define requires a valid macro name"
  | .unterminatedParameters name =>
    s!"Unterminated parameter list in #define {String.ofList name}"
  | .invalidParameter parameter name =>
    s!"Invalid parameter '{String.ofList parameter}' in #define {String.ofList name}"
  | .invalidCondition problem => s!"Invalid #if expression: {problem.message}"
  | .expansion problem => expansionMessage problem
  | .announced text => s!"#error {String.ofList text}"

end Multipass.Preprocess
