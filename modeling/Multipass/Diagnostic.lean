import Multipass.Located
import Multipass.Pass.Name

/-!
# Diagnostics and errors

What the user is told: diagnostics on the lines of a pass, and the errors that end
a compile or a thumbnail.
-/

namespace Multipass

/-- How much a diagnostic matters: an error fails its pass, a warning does not. -/
inductive Severity where
  | error
  | warning
  deriving DecidableEq, Repr

/-- A message on a line of a pass. `sourceLine` is zero when the message belongs
    to no line, and `compilerLine` is the line the compiler gave, zero if none. -/
structure Diagnostic where
  sourceLine : Nat
  pass : PassName
  severity : Severity
  message : String
  compilerLine : Nat
  deriving DecidableEq, Repr

namespace Diagnostic

/-- A diagnostic on one line. A place without a line is named by its pass alone. -/
def display (diagnostic : Diagnostic) : String :=
  let severity :=
    match diagnostic.severity with
    | .error => "error"
    | .warning => "warning"
  let place :=
    if diagnostic.sourceLine = 0 then diagnostic.pass.title
    else s!"{diagnostic.pass.title}:{diagnostic.sourceLine}"
  s!"{severity} {place}: {diagnostic.message}"

/-- An error that belongs to no line of the pass. -/
def lineless (pass : PassName) (message : String) : Diagnostic :=
  ⟨0, pass, .error, message, 0⟩

end Diagnostic

/-- Warnings alone do not fail a compile. -/
def hasErrors (diagnostics : List Diagnostic) : Bool :=
  diagnostics.any (·.severity == .error)

/-- A pass whose text could not be preprocessed or has no proper entry point. -/
structure PassFailure where
  pass : PassName
  errors : List (Located String)
  deriving DecidableEq, Repr

namespace PassFailure

/-- The failure of a pass with one error. -/
def single (pass : PassName) (line : Nat) (message : String) : PassFailure :=
  ⟨pass, [⟨line, message⟩]⟩

/-- The errors of a pass as diagnostics, which come from no line of a compiled text. -/
def diagnostics (failure : PassFailure) : List Diagnostic :=
  failure.errors.map fun error => ⟨error.line, failure.pass, .error, error.content, 0⟩

/-- What the user is told about a pass: its title, and each error on a line of its own. -/
def message (failure : PassFailure) : String :=
  failure.errors.foldl (fun text error =>
    if error.line = 0 then s!"{text}\n  {error.content}"
    else s!"{text}\n  line {error.line}: {error.content}") s!"[{failure.pass.title}]"

end PassFailure

/-- The errors that end a compile, a thumbnail or a command. -/
inductive ShaderError where
  | preprocessor (failure : PassFailure)
  | validation (failure : PassFailure)
  | compilation (pass : PassName) (diagnostics : List Diagnostic)
  | render (reason : String)
  | io (reason : String)
  deriving DecidableEq, Repr

namespace ShaderError

/-- A heading followed by one indented line for each diagnostic. -/
def underHeading (heading : String) (diagnostics : List Diagnostic) : String :=
  diagnostics.foldl (fun text diagnostic => s!"{text}\n  {diagnostic.display}") heading

/-- What the user is told about an error of the whole shader. -/
def message : ShaderError → String
  | .preprocessor failure => s!"Preprocessor error {failure.message}"
  | .validation failure => s!"Validation error {failure.message}"
  | .compilation pass diagnostics => underHeading s!"Compilation error [{pass.title}]" diagnostics
  | .render reason => s!"Render error: {reason}"
  | .io reason => s!"I/O error: {reason}"

/-- The text for the error panel of an editor. -/
def formatted (error : ShaderError) : String :=
  match error with
  | .compilation pass (first :: rest) =>
    underHeading s!"{pass.title} failed to compile:" (first :: rest)
  | error => error.message

end ShaderError

end Multipass
