import Mathlib.Data.List.Basic
import Multipass.Compile.Report
import Multipass.Proofs.Assembly.Within
import Multipass.Proofs.Log.Stream

/-!
# Why a pass is not compiled

A pass is compiled when it could be prepared and the compiler accepted it with a log that
tells of no error. In every other case the failure tells of an error, whether it was found
before the compiler was asked, by the compiler, or by its panic. Only a log with a number that
is too great ends the attempt without a result.
-/

namespace Multipass

theorem hasErrors_append (front back : List Diagnostic) :
    hasErrors (front ++ back) = (hasErrors front || hasErrors back) :=
  List.any_append

theorem hasErrors_iff {diagnostics : List Diagnostic} :
    hasErrors diagnostics = true ↔
      ∃ diagnostic ∈ diagnostics, diagnostic.severity = .error := by
  simp [hasErrors]

theorem PassFailure.hasErrors_diagnostics {failure : PassFailure}
    (nonempty : failure.errors ≠ []) : hasErrors failure.diagnostics = true := by
  obtain ⟨first, rest, cons⟩ := List.exists_cons_of_ne_nil nonempty
  exact hasErrors_iff.mpr ⟨_, List.mem_map_of_mem (cons ▸ List.mem_cons_self), rfl⟩

/-- The log of an answer. -/
def Reply.log : Reply → String
  | accepted log | rejected log => log

/-! ## Before the compiler is asked -/

/-- Whoever the errors are attributed to, some are. -/
theorem attributeErrors_ne_nil {errors : List (Located Preprocess.Problem)}
    (nonempty : errors ≠ []) (commonLines : Nat) (pass : PassName) :
    (Assembly.attributeErrors errors commonLines pass).errors ≠ [] := by
  unfold Assembly.attributeErrors
  simp only [List.partition_eq_filter_filter]
  split
  · rename_i noneInCommon
    have others := List.filter_eq_nil_iff.mp (List.isEmpty_iff.mp noneInCommon)
    simp only [ne_eq, List.map_eq_nil_iff]
    rw [List.filter_eq_self.mpr]
    · simpa using nonempty
    · intro error member
      exact Bool.not_eq_true' _ ▸ Bool.eq_false_iff.mpr (others error member)
  · rename_i inCommon
    simpa using inCommon

theorem assemble_error {common code : String} {pass : PassName} {failure : PassFailure}
    (failed : assemble common code pass = .error failure) : failure.errors ≠ [] := by
  unfold assemble at failed
  simp only at failed
  split at failed
  · cases failed
  · rename_i errors
    cases failed
    refine attributeErrors_ne_nil ?_ _ _
    simpa [Preprocess.Outcome.isOk] using errors

theorem assemble_pass {common code : String} {pass : PassName} {assembled : AssembledPass}
    (succeeded : assemble common code pass = .ok assembled) :
    assembled.attribution.pass = pass := by
  unfold assemble at succeeded
  simp only at succeeded
  split at succeeded
  · cases succeeded
    rfl
  · cases succeeded

theorem validateEntryPoint_error {expanded : String} {pass : PassName} {failure : PassFailure}
    (failed : validateEntryPoint expanded pass = .error failure) : failure.errors ≠ [] := by
  unfold validateEntryPoint at failed
  split at failed
  · cases failed
  · cases failed
    exact List.cons_ne_nil _ _

namespace Compile

theorem length_foldl_errors {add : PassFailure → Located String → PassFailure}
    (adds : ∀ failure error, (add failure error).errors.length = failure.errors.length + 1)
    (errors : List (Located String)) (failure : PassFailure) :
    (errors.foldl add failure).errors.length = failure.errors.length + errors.length := by
  induction errors generalizing failure with
  | nil => rfl
  | cons error rest ih =>
    rw [List.foldl_cons, ih, adds, List.length_cons]
    omega

/-- Attributing errors to passes changes their lines, and drops none of them. -/
theorem length_attributeValidation (attribution : Attribution) (failure : PassFailure) :
    (attributeValidation attribution failure).errors.length = failure.errors.length := by
  unfold attributeValidation
  rw [length_foldl_errors, List.length_nil, Nat.zero_add]
  intro attributed error
  split
  · exact List.length_append
  · exact List.length_append

variable {common : String} {source : PassSource} {assembled : AssembledPass}
  {failure : CompileFailure}

theorem prepare_eq_ok_iff :
    prepare common source = .ok assembled ↔
      assemble common source.code source.name = .ok assembled ∧
        validateEntryPoint assembled.expandedCode source.name = .ok () := by
  unfold prepare
  constructor
  · intro prepared
    split at prepared
    · cases prepared
    · rename_i assembles
      split at prepared
      · cases prepared
      · rename_i validates
        cases prepared
        exact ⟨assembles, validates⟩
  · rintro ⟨assembles, validates⟩
    simp only [assembles, validates]

theorem prepare_pass (prepared : prepare common source = .ok assembled) :
    assembled.attribution.pass = source.name :=
  assemble_pass (prepare_eq_ok_iff.mp prepared).1

theorem prepare_error (failed : prepare common source = .error failure) :
    hasErrors failure.diagnostics = true := by
  unfold prepare at failed
  split at failed
  · rename_i found
    cases failed
    exact PassFailure.hasErrors_diagnostics (assemble_error found)
  · split at failed
    · rename_i found
      cases failed
      refine PassFailure.hasErrors_diagnostics (List.ne_nil_of_length_pos ?_)
      rw [length_attributeValidation]
      exact List.length_pos_iff.mpr (validateEntryPoint_error found)
    · cases failed

/-! ## The answer of the compiler -/

section Answer

variable {reply : Foreign Reply} {overflow : Overflow}

theorem judge_eq_ok_iff {compiled : CompiledPass} :
    judge assembled reply = .ok (.ok compiled) ↔
      ∃ log diagnostics, reply = .returned (.accepted log) ∧
        mapDiagnostics log assembled.attribution.pass assembled.attribution = .ok diagnostics ∧
        hasErrors diagnostics = false ∧
        compiled = ⟨assembled.attribution.pass, assembled, diagnostics⟩ := by
  constructor
  · intro judged
    cases reply with
    | panicked payload => cases judged
    | returned answer =>
      cases answer with
      | rejected log =>
        obtain ⟨diagnostics, -, result⟩ := bind_eq_ok_iff.mp judged
        cases result
      | accepted log =>
        obtain ⟨diagnostics, read, result⟩ := bind_eq_ok_iff.mp judged
        have result := Except.ok.inj result
        split at result
        · cases result
        · rename_i noErrors
          cases result
          exact ⟨log, diagnostics, rfl, read, Bool.eq_false_iff.mpr noErrors, rfl⟩
  · rintro ⟨log, diagnostics, rfl, read, noErrors, rfl⟩
    refine bind_eq_ok_iff.mpr ⟨diagnostics, read, congrArg Except.ok (if_neg ?_)⟩
    rw [noErrors]
    exact Bool.false_ne_true

theorem judge_error (failed : judge assembled reply = .ok (.error failure)) :
    hasErrors failure.diagnostics = true := by
  cases reply with
  | panicked payload =>
    cases failed
    rfl
  | returned answer =>
    cases answer with
    | rejected log =>
      obtain ⟨diagnostics, -, result⟩ := bind_eq_ok_iff.mp failed
      cases result
      show hasErrors (if _ then _ else _) = true
      split
      · assumption
      · rw [hasErrors_append, Bool.or_eq_true]
        exact .inr rfl
    | accepted log =>
      obtain ⟨diagnostics, -, result⟩ := bind_eq_ok_iff.mp failed
      have result := Except.ok.inj result
      split at result
      · cases result
        assumption
      · cases result

/-- Only the log of an answer overflows. -/
theorem judge_eq_error_iff :
    judge assembled reply = .error overflow ↔
      ∃ answer, reply = .returned answer ∧
        mapDiagnostics answer.log assembled.attribution.pass assembled.attribution =
          .error overflow := by
  cases reply with
  | panicked payload =>
    refine iff_of_false nofun ?_
    rintro ⟨answer, returned, -⟩
    cases returned
  | returned answer =>
    have reads : judge assembled (.returned answer) = .error overflow ↔
        mapDiagnostics answer.log assembled.attribution.pass assembled.attribution =
          .error overflow := by
      cases answer <;> exact map_eq_error_iff
    simp only [reads, Foreign.returned.injEq, exists_eq_left']

end Answer

variable {σ : Type} {compiler : Compiler σ} {session : Session σ}

/-! ## An attempt -/

/-- The compiler is not asked about a pass that cannot be prepared. -/
theorem compilePass_of_failed (failed : prepare common source = .error failure) :
    (compilePass compiler common source session).1 = .ok (.error failure) := by
  rw [compilePass, failed]

theorem compilePass_of_prepared (prepared : prepare common source = .ok assembled) :
    (compilePass compiler common source session).1 =
      judge assembled (compiler source.name assembled.finalSource session.state).1 := by
  rw [compilePass, prepared, ← prepare_pass prepared]
  rfl

/-- A pass is compiled when it can be prepared and the compiler then accepts it with a log
    that tells of no error. -/
theorem compilePass_eq_ok_iff {compiled : CompiledPass} :
    (compilePass compiler common source session).1 = .ok (.ok compiled) ↔
      ∃ assembled log diagnostics, prepare common source = .ok assembled ∧
        (compiler source.name assembled.finalSource session.state).1 = .returned (.accepted log) ∧
        mapDiagnostics log source.name assembled.attribution = .ok diagnostics ∧
        hasErrors diagnostics = false ∧ compiled = ⟨source.name, assembled, diagnostics⟩ := by
  cases prepared : prepare common source with
  | error failure => simp [compilePass_of_failed prepared]
  | ok assembled =>
    rw [compilePass_of_prepared prepared, judge_eq_ok_iff, prepare_pass prepared]
    constructor
    · rintro ⟨log, diagnostics, accepted, read, noErrors, same⟩
      exact ⟨assembled, log, diagnostics, rfl, accepted, read, noErrors, same⟩
    · rintro ⟨another, log, diagnostics, again, accepted, read, noErrors, same⟩
      cases again
      exact ⟨log, diagnostics, accepted, read, noErrors, same⟩

/-- Whatever a pass fails for, the failure tells of an error. -/
theorem compilePass_error
    (failed : (compilePass compiler common source session).1 = .ok (.error failure)) :
    hasErrors failure.diagnostics = true := by
  cases prepared : prepare common source with
  | error found =>
    rw [compilePass_of_failed prepared] at failed
    cases failed
    exact prepare_error prepared
  | ok assembled =>
    rw [compilePass_of_prepared prepared] at failed
    exact judge_error failed

/-- An attempt ends without a result when the log of the answer overflows. -/
theorem compilePass_eq_error_iff {overflow : Overflow} :
    (compilePass compiler common source session).1 = .error overflow ↔
      ∃ assembled answer, prepare common source = .ok assembled ∧
        (compiler source.name assembled.finalSource session.state).1 = .returned answer ∧
        mapDiagnostics answer.log source.name assembled.attribution = .error overflow := by
  cases prepared : prepare common source with
  | error failure => simp [compilePass_of_failed prepared]
  | ok assembled =>
    rw [compilePass_of_prepared prepared, judge_eq_error_iff, prepare_pass prepared]
    constructor
    · rintro ⟨answer, returned, overflows⟩
      exact ⟨assembled, answer, rfl, returned, overflows⟩
    · rintro ⟨another, answer, again, returned, overflows⟩
      cases again
      exact ⟨answer, returned, overflows⟩

/-! ## Logs with small numbers -/

/-- The compiler answers with logs in which every line number is below `2 ^ 63`. -/
def IsSmall (compiler : Compiler σ) : Prop :=
  ∀ pass text state answer, (compiler pass text state).1 = .returned answer →
    Log.IsSmall answer.log

/-- The compiled text of a source fits into a string. -/
def Fits (common : String) (source : PassSource) : Prop :=
  ∀ assembled, assemble common source.code source.name = .ok assembled →
    assembled.finalSource.utf8ByteSize < 2 ^ 63

/-- With small numbers every attempt has a result. -/
theorem exists_compilePass (isSmall : IsSmall compiler) (fits : Fits common source)
    (session : Session σ) :
    ∃ result, (compilePass compiler common source session).1 = .ok result := by
  cases attempt : (compilePass compiler common source session).1 with
  | ok result => exact ⟨result, rfl⟩
  | error overflow =>
    obtain ⟨assembled, answer, prepared, returned, overflows⟩ :=
      compilePass_eq_error_iff.mp attempt
    have assembles := (prepare_eq_ok_iff.mp prepared).1
    have height := Assembly.startLine_lt assembles (fits assembled assembles)
    have isSound := (isSmall _ _ _ _ returned).isSound height
    obtain ⟨diagnostics, read⟩ := exists_mapDiagnostics_eq_ok isSound source.name
    rw [read] at overflows
    cases overflows

end Compile

end Multipass
