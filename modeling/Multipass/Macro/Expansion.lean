import Multipass.Macro.Body
import Multipass.Macro.Call
import Multipass.Macro.Table

/-!
# Macro expansion

`expand` replaces the macros used in a text. The body of a macro is expanded one
level deeper than the text that uses it, and so are the arguments of a call. There
is a bound on the depth: at the last level any use of a macro is an error, which
is how a macro that comes back to itself is found.

The body of a macro without parameters may end in the name of a macro that has
parameters, whose call then follows in the text. In that case the rest of the text
is expanded together with that name, one level deeper.
-/

namespace Multipass.Macro

/-- Why a text cannot be expanded. -/
inductive ExpansionProblem where
  | recursion (name : List Char)
  | arity (name : List Char) (expected found : Nat)
  deriving DecidableEq, Repr

/-- The levels of macros within macros. -/
def expansionLimit : Nat := 64

/-- An expansion that ends in the name of a macro with parameters, cut before
    that name. -/
def trailingCallee? (table : Table) (expansion : List Char) :
    Option (List Char × List Char) :=
  let (front, name) := Text.trailingNameChars expansion
  match name with
  | [] => none
  | c :: _ =>
    if Text.isNameStart c && ((table.find? name).any (·.parameters.isSome)) then
      some (front, name)
    else none

/-- A macro without parameters is called with nothing between the parentheses. -/
def callArguments (parameters arguments : List (List Char)) : List (List Char) :=
  match parameters, arguments with
  | [], [only] => if Text.isAllBlank only then [] else [only]
  | _, arguments => arguments

/-- Go through a text from left to right. `deeper` expands bodies and arguments;
    without it, the bound on the depth is reached. -/
def scan (table : Table) (deeper : Option (List Char → Except ExpansionProblem (List Char)))
    (text : List Char) : Except ExpansionProblem (List Char) :=
  match text with
  | [] => .ok []
  | c :: rest =>
    let after := (Text.leadingLexeme c rest).2
    have shorter : (Text.leadingLexeme c rest).2.length ≤ rest.length :=
      Text.leadingLexeme_length_le c rest
    match (Text.leadingLexeme c rest).1 with
    | .number text => (text ++ ·) <$> scan table deeper after
    | .gap text => (text ++ ·) <$> scan table deeper after
    | .name name =>
      match table.find? name, deeper with
      | none, _ => (name ++ ·) <$> scan table deeper after
      | some _, none => .error (.recursion name)
      | some ⟨none, body, _⟩, some expand => do
        let expansion ← expand body
        match trailingCallee? table expansion with
        | none => (expansion ++ ·) <$> scan table deeper after
        | some (front, callee) =>
          if (Text.trimStart after).head? = some '(' then
            (front ++ ·) <$> expand (callee ++ after)
          else (expansion ++ ·) <$> scan table deeper after
      | some ⟨some parameters, body, _⟩, some expand =>
        match found : arguments? after with
        | none => (name ++ ·) <$> scan table deeper after
        | some (written, afterCall) =>
          have : afterCall.length ≤ rest.length :=
            Nat.le_trans (Nat.le_of_lt (arguments?_shorter found)) shorter
          let arguments := callArguments parameters written
          if arguments.length = parameters.length then do
            let expanded ← arguments.mapM fun argument => expand (Text.trim argument)
            let expansion ← expand (substitute parameters expanded body)
            (expansion ++ ·) <$> scan table deeper afterCall
          else .error (.arity name parameters.length arguments.length)
  termination_by text.length
  decreasing_by all_goals exact Nat.lt_succ_of_le (by assumption)

/-- Expand a text with the given number of levels left below it. -/
def expandWithin (table : Table) : Nat → List Char → Except ExpansionProblem (List Char)
  | 0 => scan table none
  | levels + 1 => scan table (some (expandWithin table levels))

/-- Expand a text with every level left. -/
def expand (table : Table) (text : List Char) : Except ExpansionProblem (List Char) :=
  expandWithin table expansionLimit text

end Multipass.Macro
