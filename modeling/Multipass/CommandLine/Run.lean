import Multipass.CommandLine.Arguments
import Multipass.Compile.Report
import Multipass.Document.Config
import Multipass.Document.Diagnostics
import Multipass.Document.Shader
import Multipass.Preprocess.Run

/-!
# The commands

A command reads files and leaves texts for the two outputs and an exit code. The files are
given as a function, and so is the compiler, so a command does nothing else.
-/

namespace Multipass.CommandLine

/-- The text of a file, or the reason why it cannot be read. -/
abbrev Files := String → Except String String

/-- What a command leaves: its exit code, and what it writes to the standard output and
    to the error output. -/
structure Printout where
  code : Nat
  output : String
  errors : String
  deriving DecidableEq, Repr

namespace Printout

/-- The exit code of a success is zero, that of a failure is one. -/
def exitCode (success : Bool) : Nat :=
  if success then 0 else 1

/-- A command that ended with an error. -/
def ofError (error : ShaderError) : Printout :=
  ⟨exitCode false, "", error.formatted ++ "\n"⟩

/-- A command that an overflow ended. Panics have an exit code of their own. -/
def ofOverflow (overflow : Overflow) : Printout :=
  ⟨101, "", s!"thread 'main' panicked: {overflow.message}\n"⟩

/-- Arguments that make no sense have an exit code of their own. -/
def ofUsageProblem (problem : UsageProblem) : Printout :=
  ⟨2, "", s!"error: {problem.message}\n"⟩

end Printout

/-- Texts as lines, each with its end. -/
def linesOf (texts : List String) : String :=
  String.join (texts.map (· ++ "\n"))

/-- The text of a file. -/
def readFile (files : Files) (path : String) : Except ShaderError String :=
  match files path with
  | .ok text => .ok text
  | .error reason => .error (.io s!"Failed to read {path}: {reason}")

/-- The configuration in a file. -/
def readConfig (files : Files) (path : String) : Except ShaderError Config := do
  let text ← readFile files path
  match Config.ofJson text with
  | .ok config => .ok config
  | .error problem => .error (.io s!"Invalid config {path}: {problem.message text.toList}")

/-- The snapshot in a shader document. -/
def readPasses (files : Files) (path : String) : Except ShaderError (List PassSource) := do
  let text ← readFile files path
  match ShaderDocument.ofJson text with
  | .ok document => .ok document.toPasses
  | .error problem =>
    .error (.io s!"Invalid shader JSON in {path}: {problem.message text.toList}")

/-- Report on a compile. The number of passes is told only for a success. -/
def reportPrintout (document : String) (asJson : Bool) (report : Compile.Report) : Printout :=
  let diagnostics := report.diagnostics
  let summary :=
    if report.isSuccess then [s!"{document}: {report.compiled.length} pass(es) compiled"] else []
  let output :=
    if asJson then linesOf [diagnosticsToJson diagnostics]
    else linesOf (diagnostics.map (·.display) ++ summary)
  ⟨Printout.exitCode report.isSuccess, output, ""⟩

/-- Report on a preprocessed file. The text is written only when there are no errors. -/
def preprocessPrintout (file : String) (withLineMap : Bool) (outcome : Preprocess.Outcome) :
    Printout :=
  if outcome.isOk then
    let entries := outcome.lineMap.toList.map fun (output, origin) => s!"{output} -> {origin}"
    ⟨Printout.exitCode true, linesOf [outcome.code], if withLineMap then linesOf entries else ""⟩
  else
    let problems := outcome.errors.map fun error =>
      s!"{file}:{error.line}: {error.content.message}"
    ⟨Printout.exitCode false, "", linesOf problems⟩

/-- The text that the compiler is given for one pass of a snapshot. -/
def finalSource (document : String) (name : PassName) (passes : List PassSource) :
    Except ShaderError String :=
  match findPass? passes name with
  | none => .error (.io s!"{document} has no {name.title} pass")
  | some source =>
    match assemble (commonCode passes) source.code name with
    | .ok assembled => .ok assembled.finalSource
    | .error failure => .error (.preprocessor failure)

/-- The pass that a user asks for. Common is put in front of other passes and is none that
    can be assembled. -/
def passNamed (text : String) : Except ShaderError PassName :=
  match PassName.ofText? text with
  | none | some .common => .error (.io s!"Unknown pass '{text}'")
  | some name => .ok name

variable {σ : Type}

/-- Carry out a command. -/
def perform (compiler : Compiler σ) (state : σ) (files : Files) (config : Config) :
    Command → Except ShaderError Printout
  | .check document asJson => do
    let passes ← readPasses files document
    match Compile.compileAll compiler passes (.start state) with
    | (.error overflow, _) => return .ofOverflow overflow
    | (.ok report, _) => return reportPrintout document asJson report
  | .preprocess file withLineMap => do
    let text ← readFile files file
    return preprocessPrintout file withLineMap (preprocess text)
  | .assemble document pass => do
    let name ← passNamed pass
    let passes ← readPasses files document
    let source ← finalSource document name passes
    return ⟨Printout.exitCode true, source, ""⟩
  | .config => return ⟨Printout.exitCode true, linesOf [config.toJson], ""⟩

/-- The configuration is read before anything else is done, whether the command needs it
    or not. -/
def performInvocation (compiler : Compiler σ) (state : σ) (files : Files)
    (invocation : Invocation) : Except ShaderError Printout := do
  let config ←
    match invocation.configFile with
    | some path => readConfig files path
    | none => pure Config.standard
  perform compiler state files config invocation.command

/-- Run a command line. -/
def run (compiler : Compiler σ) (state : σ) (files : Files) (arguments : List String) :
    Printout :=
  match Invocation.ofArguments arguments with
  | .error problem => .ofUsageProblem problem
  | .ok invocation =>
    match performInvocation compiler state files invocation with
    | .ok printout => printout
    | .error error => .ofError error

/-- Stands in for the compiler of shaders, which is no part of this library, wherever none is
    given. It finds nothing wrong with any text, so a check tells of what is found before a
    compiler is asked. -/
def accepting : Compiler Unit := fun _ _ state => (.returned (.accepted ""), state)

end Multipass.CommandLine
