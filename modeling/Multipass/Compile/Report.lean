import Multipass.Assembly.Assemble
import Multipass.Assembly.EntryPoint
import Multipass.Log.Diagnostics
import Multipass.Panic
import Multipass.Pass.Source

/-!
# Compiling a shader

A pass is assembled, its entry point is checked, and then it is handed to an external
compiler, whose log is mapped back to the source. The compiler is a function on a
state of its own; besides accepting or rejecting a text it may panic, which counts as
a rejection. An overflow while its log is read is not contained. A report collects the
passes of a whole shader.
-/

namespace Multipass

/-- The answer of an external compiler. -/
inductive Reply where
  | accepted (log : String)
  | rejected (log : String)
  deriving DecidableEq, Repr

/-- An external compiler that keeps a state of type `σ`. -/
abbrev Compiler (σ : Type) := PassName → String → σ → Foreign Reply × σ

/-- A pass that the compiler accepted, with the warnings of its log. -/
structure CompiledPass where
  pass : PassName
  assembled : AssembledPass
  warnings : List Diagnostic

/-- Why a pass was not compiled. -/
inductive CompileFailure where
  | preprocessing (failure : PassFailure)
  | validation (failure : PassFailure)
  | rejected (pass : PassName) (diagnostics : List Diagnostic)
  deriving DecidableEq, Repr

namespace CompileFailure

/-- The pass that a failure is attributed to. -/
def pass : CompileFailure → PassName
  | preprocessing failure | validation failure => failure.pass
  | rejected pass _ => pass

/-- What is told about a failure. -/
def diagnostics : CompileFailure → List Diagnostic
  | preprocessing failure | validation failure => failure.diagnostics
  | rejected _ diagnostics => diagnostics

/-- The failure as an error of the whole shader. -/
def toShaderError : CompileFailure → ShaderError
  | preprocessing failure => .preprocessor failure
  | validation failure => .validation failure
  | rejected pass diagnostics => .compilation pass diagnostics

end CompileFailure

namespace Compile

/-- Lines of the expanded text become lines of the passes they belong to. The pass of
    the last error is the pass of the failure. -/
def attributeValidation (attribution : Attribution) (failure : PassFailure) : PassFailure :=
  failure.errors.foldl (fun attributed error =>
    if error.line = 0 then { attributed with errors := attributed.errors ++ [error] }
    else
      let (pass, line) := attribution.expandedLine error.line
      ⟨pass, attributed.errors ++ [⟨line, error.content⟩]⟩) ⟨failure.pass, []⟩

/-- What the answer of the compiler means for a pass. A rejection carries at least one
    error. -/
def judge (assembled : AssembledPass) (reply : Foreign Reply) :
    Checked (Except CompileFailure CompiledPass) :=
  let attribution := assembled.attribution
  let pass := attribution.pass
  match reply.contain with
  | .ok (.accepted log) => do
    let diagnostics ← mapDiagnostics log pass attribution
    return if hasErrors diagnostics then .error (.rejected pass diagnostics)
      else .ok ⟨pass, assembled, diagnostics⟩
  | .ok (.rejected log) => do
    let diagnostics ← mapDiagnostics log pass attribution
    return .error <| .rejected pass <|
      if hasErrors diagnostics then diagnostics
      else diagnostics ++ [.lineless pass "Shader compilation failed"]
  | .error message => return .error (.rejected pass [.lineless pass (panicEntry message)])

/-- Everything that is done before the compiler is asked. -/
def prepare (common : String) (source : PassSource) : Except CompileFailure AssembledPass :=
  match assemble common source.code source.name with
  | .error failure => .error (.preprocessing failure)
  | .ok assembled =>
    match validateEntryPoint assembled.expandedCode source.name with
    | .error failure => .error (.validation (attributeValidation assembled.attribution failure))
    | .ok () => .ok assembled

variable {σ : Type}

/-- How far the most recent attempt came. One that an overflow ended had asked the
    compiler. -/
inductive Stage where
  | idle
  | compiling
  | succeeded
  | failed
  deriving DecidableEq, Repr

/-- The stage after an attempt. -/
def Stage.after : Checked (Except CompileFailure CompiledPass) → Stage
  | .ok (.ok _) => succeeded
  | .ok (.error _) => failed
  | .error _ => compiling

/-- A compiler in use: the stage of the most recent attempt, and the compiler's own
    state. -/
structure Session (σ : Type) where
  stage : Stage
  state : σ

/-- A compiler that has not been used. -/
def Session.start (state : σ) : Session σ :=
  ⟨.idle, state⟩

/-- The result for a prepared pass, with the compiler asked about it. -/
def compilePrepared (compiler : Compiler σ) (assembled : AssembledPass) (state : σ) :
    Checked (Except CompileFailure CompiledPass) × σ :=
  let (reply, state) := compiler assembled.attribution.pass assembled.finalSource state
  (judge assembled reply, state)

/-- Compile one pass against a Common text. The compiler is asked only about a pass
    that could be prepared. -/
def compilePass (compiler : Compiler σ) (common : String) (source : PassSource)
    (session : Session σ) : Checked (Except CompileFailure CompiledPass) × Session σ :=
  match prepare common source with
  | .error failure => (.ok (.error failure), { session with stage := .failed })
  | .ok assembled =>
    let (result, state) := compilePrepared compiler assembled session.state
    (result, ⟨.after result, state⟩)

/-- The outcome of compiling a whole shader. -/
structure Report where
  compiled : List CompiledPass
  failures : List CompileFailure

/-- The source that is compiled for a pass: Image in any case, a buffer when it has
    code. -/
def sourceFor? (passes : List PassSource) (name : PassName) : Option PassSource :=
  match findPass? passes name with
  | some source => if name = .image ∨ source.hasCode then some source else none
  | none => if name = .image then some ⟨.image, ""⟩ else none

/-- The sources that are compiled, in the order of compilation. -/
def selectedSources (passes : List PassSource) : List PassSource :=
  PassName.renderOrder.filterMap (sourceFor? passes)

/-- Add the result of a pass. A failure that was met before is not added again, since
    a broken Common fails every pass in the same way. -/
def Report.add (report : Report) : Except CompileFailure CompiledPass → Report
  | .ok compiled => { report with compiled := report.compiled ++ [compiled] }
  | .error failure =>
    if report.failures.contains failure then report
    else { report with failures := report.failures ++ [failure] }

/-- Compile sources one after the other, until an overflow. -/
def compileSources (compiler : Compiler σ) (common : String) :
    List PassSource → Report → Session σ → Checked Report × Session σ
  | [], report, session => (.ok report, session)
  | source :: rest, report, session =>
    match compilePass compiler common source session with
    | (.error overflow, session) => (.error overflow, session)
    | (.ok result, session) => compileSources compiler common rest (report.add result) session

/-- Compile every selected pass of a snapshot. -/
def compileAll (compiler : Compiler σ) (passes : List PassSource) (session : Session σ) :
    Checked Report × Session σ :=
  compileSources compiler (commonCode passes) (selectedSources passes) ⟨[], []⟩ session

namespace Report

/-- Two diagnostics that tell the user the same, whatever line the compiler gave. -/
def agree (left right : Diagnostic) : Bool :=
  left.pass == right.pass && left.sourceLine == right.sourceLine &&
    left.severity == right.severity && left.message == right.message

/-- Every diagnostic of the failures and then every warning, each told once. -/
def diagnostics (report : Report) : List Diagnostic :=
  let all := report.failures.flatMap (·.diagnostics) ++ report.compiled.flatMap (·.warnings)
  all.foldl (fun told diagnostic =>
    if told.any (agree · diagnostic) then told else told ++ [diagnostic]) []

/-- The diagnostics of one pass, Common included. -/
def diagnosticsFor (report : Report) (pass : PassName) : List Diagnostic :=
  report.diagnostics.filter (·.pass == pass)

/-- A report without errors; warnings do not count. -/
def isSuccess (report : Report) : Bool :=
  !hasErrors report.diagnostics

/-- The compiled pass of a name. -/
def compiledPass? (report : Report) (pass : PassName) : Option CompiledPass :=
  report.compiled.find? (·.pass == pass)

end Report

end Compile

end Multipass
