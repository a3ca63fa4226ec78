import Multipass.Proofs.Assembly.Seam
import Multipass.Proofs.Compile.Verdict
import Multipass.Proofs.Preprocess.Prefix
import Multipass.Proofs.Preprocess.ProblemLines

/-!
# A broken Common

Every pass is preprocessed behind Common, so an error of Common is an error of every pass.
Whatever the code of a pass is, the error stays, it is attributed to Common, and no pass gets
as far as the compiler. The user is told of it once.
-/

namespace Multipass

namespace Preprocess

/-- A problem that later lines cannot mend. They can close a group that is still open. -/
def Problem.IsFinal (problem : Problem) : Prop :=
  ∀ opener, problem ≠ .unterminatedGroup opener

theorem mem_errors_iff {error : Located Problem} (final : error.content.IsFinal)
    (text : List Char) :
    error ∈ (outcomeOf text).errors ↔
      error ∈ (run .initial 1 (Text.lines text)).2.problems := by
  rw [← List.count_pos_iff, ← List.count_pos_iff, count_outcomeOf final]

end Preprocess

namespace Assembly

open Preprocess

/-- A Common, without the backslash that ends it, that has an error of its own. It does not
    end in another backslash, which would take the code of a pass into its last directive. -/
structure IsBroken (common : List Char) : Prop where
  visible : Text.isAllBlank common = false
  ended : ∀ last ∈ (Text.lines common).getLast?, (Text.trimEnd last).getLast? ≠ some '\\'
  faulty : ∃ error ∈ (outcomeOf common).errors, error.content.IsFinal

variable {common : List Char}

theorem IsBroken.closed (broken : IsBroken common) :
    endsOpen .initial 1 (Text.lines common) = false := by
  refine Bool.eq_false_iff.mpr fun opens => ?_
  obtain ⟨last, isLast, continues⟩ := last_of_endsOpen opens
  exact broken.ended last isLast continues

/-- The errors of Common are errors of Common with a pass behind it, on lines of Common. -/
theorem mem_errors_combined (broken : IsBroken (dropContinuation common)) (code : List Char)
    {error : Located Problem} (member : error ∈ (outcomeOf (dropContinuation common)).errors)
    (final : error.content.IsFinal) :
    error ∈ (outcomeOf (combine common code).text).errors ∧ 1 ≤ error.line ∧
      error.line ≤ (combine common code).commonLines := by
  have alone := (mem_errors_iff final _).mp member
  refine ⟨(mem_errors_iff final _).mpr ?_, ?_⟩
  · rw [lines_combined broken.visible, run_append_of_closed broken.closed]
    exact (problems_run _ _ _).subset alone
  · rw [combine_of_visible broken.visible]
    exact bounds_of_mem_problems alone

/-- Errors on lines of Common are attributed to Common, and all of them are kept. -/
theorem attributeErrors_of_common {errors : List (Located Problem)} {commonLines : Nat}
    (pass : PassName)
    (some : ∃ error ∈ errors, 1 ≤ error.line ∧ error.line ≤ commonLines) :
    ∃ located, attributeErrors errors commonLines pass = ⟨.common, located⟩ ∧
      ∀ error ∈ errors, 1 ≤ error.line ∧ error.line ≤ commonLines →
        error.map Problem.message ∈ located := by
  have kept : ∀ error ∈ errors, 1 ≤ error.line ∧ error.line ≤ commonLines →
      error.map Problem.message ∈ (errors.map (·.map Problem.message)).filter fun error =>
        1 ≤ error.line && error.line ≤ commonLines := by
    intro error member inside
    refine List.mem_filter.mpr ⟨List.mem_map_of_mem member, ?_⟩
    exact (Bool.and_eq_true _ _).mpr ⟨decide_eq_true inside.1, decide_eq_true inside.2⟩
  refine ⟨_, ?_, kept⟩
  obtain ⟨error, member, inside⟩ := some
  have nonempty := List.ne_nil_of_mem (kept error member inside)
  unfold attributeErrors
  simp only [List.partition_eq_filter_filter]
  exact if_neg (List.isEmpty_iff.not.mpr nonempty)

/-- No pass can be assembled, and the failure is that of Common. -/
theorem assemble_of_broken {common : String}
    (broken : IsBroken (dropContinuation common.toList)) (code : String) (pass : PassName) :
    ∃ located, assemble common code pass = .error ⟨.common, located⟩ ∧
      ∀ error ∈ (outcomeOf (dropContinuation common.toList)).errors, error.content.IsFinal →
        error.map Problem.message ∈ located := by
  have combined := @mem_errors_combined common.toList broken code.toList
  obtain ⟨first, member, final⟩ := broken.faulty
  obtain ⟨inWhole, inside⟩ := combined member final
  obtain ⟨located, attributed, kept⟩ := attributeErrors_of_common pass ⟨first, inWhole, inside⟩
  refine ⟨located, ?_, fun error member final =>
    kept error (combined member final).1 (combined member final).2⟩
  have failed : ¬ (outcomeOf (combine common.toList code.toList).text).isOk = true :=
    fun fine => List.ne_nil_of_mem inWhole (List.isEmpty_iff.mp fine)
  unfold assemble
  simp only
  rw [if_neg failed, attributed]

end Assembly

namespace Compile

open Preprocess Assembly

/-! ## What is told once -/

section Told

/-- What is told after one more diagnostic. -/
def tell (told : List Diagnostic) (diagnostic : Diagnostic) : List Diagnostic :=
  if told.any (Report.agree · diagnostic) then told else told ++ [diagnostic]

theorem agree_iff {left right : Diagnostic} :
    Report.agree left right = true ↔ left.pass = right.pass ∧
      left.sourceLine = right.sourceLine ∧ left.severity = right.severity ∧
      left.message = right.message := by
  simp only [Report.agree, Bool.and_eq_true, beq_iff_eq, and_assoc]

variable {told all : List Diagnostic} {diagnostic : Diagnostic}

theorem mem_foldl_tell (member : diagnostic ∈ all.foldl tell told) :
    diagnostic ∈ told ∨ diagnostic ∈ all := by
  induction all generalizing told with
  | nil => exact .inl member
  | cons first rest ih =>
    rcases ih member with earlier | later
    · unfold tell at earlier
      split at earlier
      · exact .inl earlier
      · rcases List.mem_append.mp earlier with before | here
        · exact .inl before
        · exact .inr (List.mem_cons.mpr (.inl (List.mem_singleton.mp here)))
    · exact .inr (List.mem_cons_of_mem _ later)

theorem subset_foldl_tell (member : diagnostic ∈ told) : diagnostic ∈ all.foldl tell told := by
  induction all generalizing told with
  | nil => exact member
  | cons first rest ih =>
    refine ih ?_
    unfold tell
    split
    · exact member
    · exact List.mem_append_left _ member

/-- Every diagnostic is told, perhaps in the words of another one. -/
theorem exists_agree_foldl_tell (member : diagnostic ∈ all) :
    ∃ spoken ∈ all.foldl tell told, Report.agree spoken diagnostic = true := by
  induction all generalizing told with
  | nil => exact absurd member List.not_mem_nil
  | cons first rest ih =>
    rcases List.mem_cons.mp member with rfl | later
    · by_cases known : told.any (Report.agree · diagnostic) = true
      · obtain ⟨earlier, spoken, agrees⟩ := List.any_eq_true.mp known
        exact ⟨earlier, subset_foldl_tell spoken, agrees⟩
      · refine ⟨diagnostic, ?_, agree_iff.mpr ⟨rfl, rfl, rfl, rfl⟩⟩
        rw [List.foldl_cons, tell, if_neg known]
        exact subset_foldl_tell (List.mem_append_right _ List.mem_cons_self)
    · exact ih later

theorem pairwise_foldl_tell (distinct : told.Pairwise fun left right => ¬ Report.agree left right) :
    (all.foldl tell told).Pairwise fun left right => ¬ Report.agree left right := by
  induction all generalizing told with
  | nil => exact distinct
  | cons first rest ih =>
    refine ih ?_
    unfold tell
    split
    · exact distinct
    · rename_i fresh
      refine List.pairwise_append.mpr ⟨distinct, List.pairwise_singleton _ _, ?_⟩
      intro earlier spoken last here
      rw [List.mem_singleton.mp here]
      exact fun agrees => fresh (List.any_eq_true.mpr ⟨earlier, spoken, agrees⟩)

/-- No more than one can be told where all of them agree. -/
theorem length_le_one_of_agree
    (distinct : told.Pairwise fun left right => ¬ Report.agree left right)
    (agrees : ∀ left ∈ told, ∀ right ∈ told, Report.agree left right = true) :
    told.length ≤ 1 := by
  rcases told with _ | ⟨first, _ | ⟨second, rest⟩⟩
  · exact Nat.zero_le 1
  · exact Nat.le_refl 1
  · refine absurd (agrees first List.mem_cons_self second ?_) ?_
    · exact List.mem_cons_of_mem _ List.mem_cons_self
    · exact (List.pairwise_cons.mp distinct).1 second List.mem_cons_self

/-- Where a report has nothing but errors, each of them is told once for its pass, its line and
    its message. -/
theorem countP_diagnosticsFor {report : Report}
    (severe : ∀ diagnostic ∈ report.diagnostics, diagnostic.severity = .error)
    (given : diagnostic ∈ report.failures.flatMap (·.diagnostics)) :
    (report.diagnosticsFor diagnostic.pass).countP (fun other =>
      other.sourceLine = diagnostic.sourceLine ∧ other.message = diagnostic.message) = 1 := by
  have distinct : report.diagnostics.Pairwise fun left right => ¬ Report.agree left right :=
    pairwise_foldl_tell .nil
  obtain ⟨spoken, told, agrees⟩ : ∃ spoken ∈ report.diagnostics,
      Report.agree spoken diagnostic = true :=
    exists_agree_foldl_tell (List.mem_append_left _ given)
  obtain ⟨pass, line, -, message⟩ := agree_iff.mp agrees
  rw [List.countP_eq_length_filter]
  refine Nat.le_antisymm (length_le_one_of_agree ((distinct.filter _).filter _) ?_) ?_
  · intro left isLeft right isRight
    obtain ⟨leftTold, leftSame⟩ := List.mem_filter.mp isLeft
    obtain ⟨rightTold, rightSame⟩ := List.mem_filter.mp isRight
    obtain ⟨leftTold, leftPass⟩ := List.mem_filter.mp leftTold
    obtain ⟨rightTold, rightPass⟩ := List.mem_filter.mp rightTold
    have leftSame := of_decide_eq_true leftSame
    have rightSame := of_decide_eq_true rightSame
    exact agree_iff.mpr ⟨(beq_iff_eq.mp leftPass).trans (beq_iff_eq.mp rightPass).symm,
      leftSame.1.trans rightSame.1.symm,
      (severe left leftTold).trans (severe right rightTold).symm,
      leftSame.2.trans rightSame.2.symm⟩
  · refine List.length_pos_of_mem (List.mem_filter.mpr ⟨?_, decide_eq_true ⟨line, message⟩⟩)
    exact List.mem_filter.mpr ⟨told, beq_iff_eq.mpr pass⟩

end Told

/-! ## Blocked passes -/

/-- No pass is compiled, every failure is one of the preprocessor in Common, and each error of
    Common that is no open group is told once for its line and message. -/
structure BlocksAll (common : List Char) (report : Report) : Prop where
  compiled : report.compiled = []
  failed : report.failures ≠ []
  inCommon : ∀ failure ∈ report.failures, ∃ errors, failure = .preprocessing ⟨.common, errors⟩
  told : ∀ error ∈ (outcomeOf common).errors, error.content.IsFinal →
    (report.diagnosticsFor .common).countP (fun diagnostic =>
      diagnostic.sourceLine = error.line ∧ diagnostic.message = error.content.message) = 1

section Blocked

variable {σ : Type} {compiler : Compiler σ} {common : String}

theorem exists_image (passes : List PassSource) :
    ∃ source ∈ selectedSources passes, source.name = .image := by
  have chosen : ∃ source, sourceFor? passes .image = some source := by
    unfold sourceFor?
    cases findPass? passes .image with
    | none => exact ⟨_, rfl⟩
    | some source => exact ⟨source, if_pos (.inl rfl)⟩
  obtain ⟨source, found⟩ := chosen
  exact ⟨source, List.mem_filterMap.mpr ⟨.image, by decide, found⟩, (sourceFor?_eq_some found).1⟩

/-- Why each pass fails behind a broken Common. -/
def IsBlocked (common : String) (failure : CompileFailure) : Prop :=
  ∃ located, failure = .preprocessing ⟨.common, located⟩ ∧
    ∀ error ∈ (outcomeOf (dropContinuation common.toList)).errors, error.content.IsFinal →
      error.map Problem.message ∈ located

theorem prepare_of_broken (broken : IsBroken (dropContinuation common.toList))
    (source : PassSource) :
    ∃ failure, prepare common source = .error failure ∧ IsBlocked common failure := by
  obtain ⟨located, fails, kept⟩ := assemble_of_broken broken source.code source.name
  refine ⟨.preprocessing ⟨.common, located⟩, ?_, located, rfl, kept⟩
  rw [prepare, fails]

theorem compilePass_of_broken (broken : IsBroken (dropContinuation common.toList))
    (source : PassSource) (session : Session σ) :
    ∃ failure, IsBlocked common failure ∧
      compilePass compiler common source session =
        (.ok (.error failure), { session with stage := .failed }) := by
  obtain ⟨failure, fails, blocked⟩ := prepare_of_broken broken source
  exact ⟨failure, blocked, by rw [compilePass, fails]⟩

/-- The compiler stays in the state it was in, since nothing is asked of it. -/
theorem state_compileSources_of_broken (broken : IsBroken (dropContinuation common.toList))
    (sources : List PassSource) (report : Report) (session : Session σ) :
    (compileSources compiler common sources report session).2.state = session.state := by
  induction sources generalizing report session with
  | nil => rfl
  | cons source rest ih =>
    obtain ⟨failure, -, fails⟩ := @compilePass_of_broken σ compiler common broken source session
    rw [compileSources, fails]
    exact ih _ _

/-- Each of the sources fails. -/
theorem exists_outcomes_of_broken (broken : IsBroken (dropContinuation common.toList))
    (sources : List PassSource) (session : Session σ) :
    ∃ results, outcomes compiler common sources session = .ok results ∧
      ∀ outcome ∈ results, ∃ failure, IsBlocked common failure ∧ outcome.2 = .error failure := by
  induction sources generalizing session with
  | nil => exact ⟨[], rfl, nofun⟩
  | cons source rest ih =>
    obtain ⟨failure, blocked, fails⟩ :=
      @compilePass_of_broken σ compiler common broken source session
    obtain ⟨others, later, allBlocked⟩ := ih { session with stage := .failed }
    refine ⟨(source, .error failure) :: others, outcomes_cons_eq_ok_iff.mpr ?_, ?_⟩
    · rw [fails]
      exact ⟨_, others, rfl, later, rfl⟩
    · exact List.forall_mem_cons.mpr ⟨⟨failure, blocked, rfl⟩, allBlocked⟩

theorem IsBlocked.diagnostics {failure : CompileFailure} (blocked : IsBlocked common failure) :
    ∀ diagnostic ∈ failure.diagnostics, diagnostic.severity = .error := by
  obtain ⟨located, rfl, -⟩ := blocked
  intro diagnostic member
  obtain ⟨error, -, rfl⟩ := List.mem_map.mp member
  rfl

/-- When all failures are those of Common, each of its errors is told once. -/
theorem countP_told {report : Report} (compiled : report.compiled = [])
    (failed : report.failures ≠ [])
    (blocked : ∀ failure ∈ report.failures, IsBlocked common failure) {error : Located Problem}
    (member : error ∈ (outcomeOf (dropContinuation common.toList)).errors)
    (final : error.content.IsFinal) :
    (report.diagnosticsFor .common).countP (fun diagnostic =>
      diagnostic.sourceLine = error.line ∧ diagnostic.message = error.content.message) = 1 := by
  have severe : ∀ diagnostic ∈ report.diagnostics, diagnostic.severity = .error := by
    intro diagnostic told
    rw [Report.diagnostics, compiled, List.flatMap_nil, List.append_nil] at told
    rcases mem_foldl_tell told with none | given
    · exact absurd none List.not_mem_nil
    · obtain ⟨failure, known, here⟩ := List.mem_flatMap.mp given
      exact (blocked failure known).diagnostics diagnostic here
  obtain ⟨failure, others, known⟩ := List.exists_cons_of_ne_nil failed
  have first : failure ∈ report.failures := known ▸ List.mem_cons_self
  obtain ⟨located, rfl, kept⟩ := blocked failure first
  have given : (⟨error.line, .common, .error, error.content.message, 0⟩ : Diagnostic) ∈
      report.failures.flatMap (·.diagnostics) :=
    List.mem_flatMap.mpr ⟨_, first, List.mem_map.mpr ⟨_, kept error member final, rfl⟩⟩
  exact countP_diagnosticsFor severe given

/-- The report on a shader whose passes all fail with the errors of Common. -/
theorem blocksAll_of_outcomes {results : List (PassSource × Except CompileFailure CompiledPass)}
    (nonempty : results ≠ [])
    (blocked : ∀ outcome ∈ results, ∃ failure, IsBlocked common failure ∧
      outcome.2 = .error failure) :
    BlocksAll (dropContinuation common.toList)
      ((results.map Prod.snd).foldl Report.add ⟨[], []⟩) := by
  have compiled : ((results.map Prod.snd).foldl Report.add ⟨[], []⟩).compiled = [] := by
    rw [Report.compiled_foldl, List.nil_append, List.filterMap_eq_nil_iff]
    intro result member
    obtain ⟨outcome, became, rfl⟩ := List.mem_map.mp member
    obtain ⟨failure, -, fails⟩ := blocked outcome became
    rw [fails]
    rfl
  have inCommon : ∀ failure ∈ ((results.map Prod.snd).foldl Report.add ⟨[], []⟩).failures,
      IsBlocked common failure := by
    intro failure member
    obtain ⟨outcome, became, same⟩ :=
      List.mem_map.mp ((Report.mem_failures_foldl.mp member).resolve_left List.not_mem_nil)
    obtain ⟨found, isBlocked, fails⟩ := blocked outcome became
    rw [fails] at same
    cases same
    exact isBlocked
  have failed : ((results.map Prod.snd).foldl Report.add ⟨[], []⟩).failures ≠ [] := by
    obtain ⟨outcome, others, rfl⟩ := List.exists_cons_of_ne_nil nonempty
    obtain ⟨failure, -, fails⟩ := blocked outcome List.mem_cons_self
    refine List.ne_nil_of_mem (a := failure) (Report.mem_failures_foldl.mpr (.inr ?_))
    exact List.mem_map.mpr ⟨outcome, List.mem_cons_self, fails⟩
  refine ⟨compiled, failed, fun failure member => ?_, fun error member final =>
    countP_told compiled failed inCommon member final⟩
  obtain ⟨located, same, -⟩ := inCommon failure member
  exact ⟨located, same⟩

/-- A broken Common blocks the whole shader: the compiler is not asked about any pass, whatever
    their codes are, and all that is reported are the errors of Common. -/
theorem compileAll_of_broken (compiler : Compiler σ) {passes : List PassSource}
    (broken : IsBroken (dropContinuation (commonCode passes).toList)) (session : Session σ) :
    (∀ asked, (compileAll (recording compiler) passes
        ⟨session.stage, session.state, asked⟩).2.state = (session.state, asked)) ∧
      ∃ report, (compileAll compiler passes session).1 = .ok report ∧
        BlocksAll (dropContinuation (commonCode passes).toList) report := by
  refine ⟨fun asked => state_compileSources_of_broken broken _ _ _, ?_⟩
  obtain ⟨results, computed, blocked⟩ :=
    @exists_outcomes_of_broken σ compiler _ broken (selectedSources passes) session
  rw [compileAll, compileSources_report, computed]
  refine ⟨_, rfl, blocksAll_of_outcomes ?_ blocked⟩
  rintro rfl
  obtain ⟨image, selected, -⟩ := exists_image passes
  rw [← map_fst_outcomes computed] at selected
  cases selected

/-- A pass with an error of its own closes the group that Common leaves open. -/
theorem compileAll_of_broken_closing :
    IsBroken (dropContinuation (commonCode [⟨.common, "#else\n#ifdef A"⟩,
        ⟨.image, "#endif\n#error"⟩]).toList) ∧
      ∃ report, (compileAll CommandLine.accepting [⟨.common, "#else\n#ifdef A"⟩,
          ⟨.image, "#endif\n#error"⟩] (.start ())).1 = .ok report ∧
        BlocksAll (dropContinuation (commonCode [⟨.common, "#else\n#ifdef A"⟩,
          ⟨.image, "#endif\n#error"⟩]).toList) report := by
  have broken : IsBroken (dropContinuation (commonCode [⟨.common, "#else\n#ifdef A"⟩,
      ⟨.image, "#endif\n#error"⟩]).toList) := by
    have final : (Problem.elseOutsideGroup).IsFinal := fun opener => Problem.noConfusion
    refine ⟨by decide +kernel, by decide +kernel, ⟨1, .elseOutsideGroup⟩, ?_, final⟩
    exact (mem_errors_iff final _).mpr (by decide +kernel)
  exact ⟨broken, (compileAll_of_broken CommandLine.accepting broken (.start ())).2⟩

end Blocked

end Compile

end Multipass
