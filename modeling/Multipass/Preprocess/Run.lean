import Multipass.LineMap
import Multipass.Preprocess.State

/-!
# Preprocessing a source text

A run goes through the lines of a text and keeps some of them: code that is not
left out by a conditional group, with its macros expanded, and the directives that
belong to the compiler, as they are. Each kept line remembers the line it came
from.
-/

namespace Multipass.Preprocess

/-- A line of the output and the line of the input it came from. -/
structure KeptLine where
  origin : Nat
  text : List Char
  deriving DecidableEq, Repr

/-- Lines as they are, with their numbers. -/
def keepFrom (number : Nat) : List (List Char) → List KeptLine
  | [] => []
  | line :: rest => ⟨number, line⟩ :: keepFrom (number + 1) rest

/-- Go through the lines from the given line number on. -/
def run (state : State) (number : Nat) (lines : List (List Char)) : List KeptLine × State :=
  match lines with
  | [] => ([], state)
  | line :: rest =>
    if !state.insideComment && Directive.isDirectiveLine line then
      let joined := Directive.joinContinuations (Text.trim line) rest
      have : (Directive.joinContinuations (Text.trim line) rest).2.2.length ≤ rest.length :=
        Directive.remaining_length_le (Text.trim line) rest
      let directive := Directive.ofText joined.1
      let kept :=
        if directive = .foreign && state.active then keepFrom number (line :: joined.2.1) else []
      let (later, final) :=
        run (state.directive number directive) (number + 1 + joined.2.1.length) joined.2.2
      (kept ++ later, final)
    else if state.active then
      let (text, state) := state.codeLine number line
      let (later, final) := run state (number + 1) rest
      (⟨number, text⟩ :: later, final)
    else run state (number + 1) rest
  termination_by lines.length

/-- The groups that are still open at the end, in the order they were opened. -/
def unterminated (state : State) : List (Located Problem) :=
  state.groups.reverse.map fun group => ⟨group.openedAt, .unterminatedGroup group.opener⟩

/-- What a run makes of a text. Errors are in the order of their lines. -/
structure Outcome where
  kept : List KeptLine
  errors : List (Located Problem)

/-- Preprocess a text: the lines that are kept, and every error, in the order of their lines. -/
def outcomeOf (text : List Char) : Outcome :=
  let (kept, state) := run .initial 1 (Text.lines text)
  ⟨kept, Located.sortByLine (state.problems ++ unterminated state)⟩

namespace Outcome

/-- Is there no error? -/
def isOk (outcome : Outcome) : Bool :=
  outcome.errors.isEmpty

/-- The kept lines as one text. -/
def codeText (outcome : Outcome) : List Char :=
  Text.unlines (outcome.kept.map (·.text))

/-- The lines that are kept, as one text. -/
def code (outcome : Outcome) : String :=
  String.ofList outcome.codeText

/-- Each kept line, counted from one, with its origin. -/
def lineMap (outcome : Outcome) : LineMap :=
  .ofOrigins (outcome.kept.map (·.origin))

end Outcome

end Multipass.Preprocess

namespace Multipass

/-- Preprocess a complete source text with no macros defined. -/
def preprocess (source : String) : Preprocess.Outcome :=
  Preprocess.outcomeOf source.toList

end Multipass
