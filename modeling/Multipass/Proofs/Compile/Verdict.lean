import Mathlib.Data.List.Nodup
import Multipass.CommandLine.Run
import Multipass.Proofs.Compile.Failures
import Multipass.Thumbnail.Render

/-!
# One verdict on a whole shader

Whether a shader compiles is decided in three places: by the errors among all diagnostics,
by the list of failures, and by the passes that were compiled. They agree, whatever the
compiler answers, as long as its logs do not name numbers that are too great.
-/

namespace Multipass

namespace Compile

/-- What is chosen from a list, each item with a label that tells what it was chosen for. -/
theorem map_filterMap_sublist {α β γ : Type} {choose : α → Option β} {label : β → γ}
    {name : α → γ} {items : List α}
    (labels : ∀ item ∈ items, ∀ chosen, choose item = some chosen → label chosen = name item) :
    ((items.filterMap choose).map label).Sublist (items.map name) := by
  induction items with
  | nil => exact List.Sublist.refl _
  | cons item rest ih =>
    have later := ih fun other member => labels other (List.mem_cons_of_mem _ member)
    cases chosen : choose item with
    | none =>
      rw [List.filterMap_cons_none chosen]
      exact later.cons _
    | some value =>
      rw [List.filterMap_cons_some chosen, List.map_cons, List.map_cons,
        labels item List.mem_cons_self value chosen]
      exact later.cons_cons _

/-! ## The passes that are compiled -/

section Selection

variable {passes : List PassSource} {name : PassName} {source : PassSource}

theorem sourceFor?_eq_some (found : sourceFor? passes name = some source) :
    source.name = name ∧ (name = .image ∨ source.hasCode = true) := by
  unfold sourceFor? at found
  split at found
  · rename_i here
    obtain ⟨chosen, same⟩ := Option.ite_none_right_eq_some.mp found
    cases same
    have named : (source.name == name) = true :=
      List.find?_some (p := fun pass : PassSource => pass.name == name) here
    exact ⟨beq_iff_eq.mp named, chosen⟩
  · obtain ⟨image, same⟩ := Option.ite_none_right_eq_some.mp found
    cases same
    exact ⟨image.symm, .inl image⟩

theorem hasCode_of_mem_selectedSources (member : source ∈ selectedSources passes) :
    source.name = .image ∨ source.hasCode = true := by
  obtain ⟨name, -, found⟩ := List.mem_filterMap.mp member
  obtain ⟨rfl, chosen⟩ := sourceFor?_eq_some found
  exact chosen

theorem selectedSources_sublist (passes : List PassSource) :
    ((selectedSources passes).map (·.name)).Sublist PassName.renderOrder := by
  rw [← List.map_id PassName.renderOrder]
  exact map_filterMap_sublist fun _ _ _ found => (sourceFor?_eq_some found).1

theorem nodup_selectedSources (passes : List PassSource) :
    ((selectedSources passes).map (·.name)).Nodup :=
  (selectedSources_sublist passes).nodup (by decide)

end Selection

variable {σ : Type} {compiler : Compiler σ} {common : String} {passes : List PassSource}

/-! ## What becomes of each pass -/

/-- What became of each source, with the compiler in the state that the sources before it
    left. -/
def outcomes (compiler : Compiler σ) (common : String) :
    List PassSource → Session σ → Checked (List (PassSource × Except CompileFailure CompiledPass))
  | [], _ => .ok []
  | source :: rest, session => do
    let result ← (compilePass compiler common source session).1
    let others ← outcomes compiler common rest (compilePass compiler common source session).2
    return (source, result) :: others

section Outcomes

variable {source : PassSource} {rest : List PassSource} {session : Session σ} {report : Report}
  {results : List (PassSource × Except CompileFailure CompiledPass)}

theorem outcomes_cons_eq_ok_iff :
    outcomes compiler common (source :: rest) session = .ok results ↔
      ∃ result others, (compilePass compiler common source session).1 = .ok result ∧
        outcomes compiler common rest (compilePass compiler common source session).2 =
          .ok others ∧
        results = (source, result) :: others := by
  rw [outcomes, bind_eq_ok_iff]
  refine exists_congr fun result => ?_
  rw [bind_eq_ok_iff, ← exists_and_left]
  refine exists_congr fun others => and_congr_right fun _ => and_congr_right fun _ => ?_
  exact ⟨fun same => (Except.ok.inj same).symm, fun same => congrArg Except.ok same.symm⟩

theorem map_fst_outcomes {sources : List PassSource}
    (computed : outcomes compiler common sources session = .ok results) :
    results.map Prod.fst = sources := by
  induction sources generalizing session results with
  | nil =>
    cases computed
    rfl
  | cons source rest ih =>
    obtain ⟨result, others, -, later, rfl⟩ := outcomes_cons_eq_ok_iff.mp computed
    exact congrArg (source :: ·) (ih later)

theorem exists_compilePass_of_mem_outcomes {sources : List PassSource}
    {result : Except CompileFailure CompiledPass}
    (computed : outcomes compiler common sources session = .ok results)
    (member : (source, result) ∈ results) :
    ∃ session, (compilePass compiler common source session).1 = .ok result := by
  induction sources generalizing session results with
  | nil =>
    cases computed
    cases member
  | cons first rest ih =>
    obtain ⟨given, others, here, later, rfl⟩ := outcomes_cons_eq_ok_iff.mp computed
    rcases List.mem_cons.mp member with same | behind
    · cases same
      exact ⟨session, here⟩
    · exact ih later behind

theorem compileSources_cons :
    compileSources compiler common (source :: rest) report session =
      match (compilePass compiler common source session).1 with
      | .error overflow => (.error overflow, (compilePass compiler common source session).2)
      | .ok result => compileSources compiler common rest (report.add result)
          (compilePass compiler common source session).2 := by
  rw [compileSources]
  rcases compilePass compiler common source session with ⟨_ | _, _⟩ <;> rfl

/-- A report is made of the outcomes alone. -/
theorem compileSources_report (sources : List PassSource) (report : Report) (session : Session σ) :
    (compileSources compiler common sources report session).1 =
      (fun results => (results.map Prod.snd).foldl Report.add report) <$>
        outcomes compiler common sources session := by
  induction sources generalizing report session with
  | nil => rfl
  | cons source rest ih =>
    rw [compileSources_cons, outcomes]
    cases (compilePass compiler common source session).1 with
    | error overflow => rfl
    | ok result =>
      simp only [ih]
      cases outcomes compiler common rest (compilePass compiler common source session).2 <;> rfl

/-- With small numbers there is an outcome of each source. -/
theorem exists_outcomes (isSmall : IsSmall compiler) {sources : List PassSource}
    (fits : ∀ source ∈ sources, Fits common source) (session : Session σ) :
    ∃ results, outcomes compiler common sources session = .ok results := by
  induction sources generalizing session with
  | nil => exact ⟨[], rfl⟩
  | cons source rest ih =>
    rw [List.forall_mem_cons] at fits
    obtain ⟨result, here⟩ := exists_compilePass isSmall fits.1 session
    obtain ⟨others, later⟩ := ih fits.2 (compilePass compiler common source session).2
    exact ⟨_, outcomes_cons_eq_ok_iff.mpr ⟨result, others, here, later, rfl⟩⟩

end Outcomes

namespace Report

variable {results : List (Except CompileFailure CompiledPass)} {report : Report}
  {failure : CompileFailure} {compiled : CompiledPass}

theorem add_error (report : Report) (failure : CompileFailure) :
    report.add (.error failure) =
      if failure ∈ report.failures then report
      else { report with failures := report.failures ++ [failure] } :=
  if_congr List.contains_iff_mem rfl rfl

theorem add_compiled (report : Report) (result : Except CompileFailure CompiledPass) :
    (report.add result).compiled = report.compiled ++ result.toOption.toList := by
  cases result with
  | ok compiled => rfl
  | error failure =>
    rw [add_error]
    split <;> exact (List.append_nil _).symm

theorem mem_add_failures {result : Except CompileFailure CompiledPass} :
    failure ∈ (report.add result).failures ↔
      failure ∈ report.failures ∨ .error failure = result := by
  cases result with
  | ok compiled => simp [add]
  | error found =>
    rw [add_error, Except.error.injEq]
    split
    · rename_i known
      refine ⟨.inl, ?_⟩
      rintro (there | rfl)
      · exact there
      · exact known
    · simp

theorem nodup_add_failures (distinct : report.failures.Nodup)
    (result : Except CompileFailure CompiledPass) : (report.add result).failures.Nodup := by
  cases result with
  | ok compiled => exact distinct
  | error failure =>
    rw [add_error]
    split
    · exact distinct
    · rename_i fresh
      exact List.nodup_append_comm.mp (List.nodup_cons.mpr ⟨fresh, distinct⟩)

theorem compiled_foldl :
    (results.foldl add report).compiled = report.compiled ++ results.filterMap Except.toOption := by
  induction results generalizing report with
  | nil => exact (List.append_nil _).symm
  | cons result rest ih =>
    rw [List.foldl_cons, ih, add_compiled, List.append_assoc]
    cases result <;> rfl

theorem mem_failures_foldl :
    failure ∈ (results.foldl add report).failures ↔
      failure ∈ report.failures ∨ .error failure ∈ results := by
  induction results generalizing report with
  | nil => simp
  | cons result rest ih => rw [List.foldl_cons, ih, mem_add_failures, List.mem_cons, or_assoc]

theorem nodup_failures_foldl (distinct : report.failures.Nodup) :
    (results.foldl add report).failures.Nodup := by
  induction results generalizing report with
  | nil => exact distinct
  | cons result rest ih => exact ih (nodup_add_failures distinct result)

/-! ## Diagnostics that are told once -/

/-- Leaving out what was told before never leaves out the only error. -/
theorem hasErrors_foldl (diagnostics told : List Diagnostic) :
    hasErrors (diagnostics.foldl (fun told diagnostic =>
      if told.any (agree · diagnostic) then told else told ++ [diagnostic]) told) =
      (hasErrors told || hasErrors diagnostics) := by
  induction diagnostics generalizing told with
  | nil => exact (Bool.or_false _).symm
  | cons diagnostic rest ih =>
    have first : hasErrors (diagnostic :: rest) = (hasErrors [diagnostic] || hasErrors rest) :=
      hasErrors_append [diagnostic] rest
    rw [List.foldl_cons, ih, first, ← Bool.or_assoc]
    split
    · rename_i known
      obtain ⟨earlier, member, agrees⟩ := List.any_eq_true.mp known
      simp only [agree, Bool.and_eq_true, beq_iff_eq] at agrees
      have covered : hasErrors [diagnostic] = true → hasErrors told = true := by
        intro error
        have severe : diagnostic.severity = .error := by simpa [hasErrors] using error
        exact hasErrors_iff.mpr ⟨earlier, member, agrees.1.2.trans severe⟩
      rw [Bool.or_eq_left_iff_imp.mpr covered]
    · rw [hasErrors_append]

theorem isSuccess_iff (report : Report) :
    report.isSuccess = true ↔
      (∀ failure ∈ report.failures, hasErrors failure.diagnostics = false) ∧
        ∀ compiled ∈ report.compiled, hasErrors compiled.warnings = false := by
  rw [isSuccess, diagnostics, hasErrors_foldl]
  simp [hasErrors]

end Report

/-! ## What the compiler is asked -/

/-- The compiler with a record of the passes and texts that it was asked about. -/
def recording (compiler : Compiler σ) : Compiler (σ × List (PassName × String)) :=
  fun pass text (state, asked) =>
    let (reply, state) := compiler pass text state
    (reply, state, asked ++ [(pass, text)])

/-- What the compiler is asked about a source, if it is asked at all. -/
def question? (common : String) (source : PassSource) : Option (PassName × String) :=
  (prepare common source).toOption.map fun assembled => (source.name, assembled.finalSource)

theorem question?_eq_some_iff {source : PassSource} {pass : PassName} {text : String} :
    question? common source = some (pass, text) ↔
      source.name = pass ∧ ∃ assembled,
        assemble common source.code source.name = .ok assembled ∧
        validateEntryPoint assembled.expandedCode source.name = .ok () ∧
        assembled.finalSource = text := by
  unfold question?
  constructor
  · intro asked
    obtain ⟨assembled, prepared, same⟩ := Option.map_eq_some_iff.mp asked
    cases ready : prepare common source with
    | error failure =>
      rw [ready] at prepared
      cases prepared
    | ok found =>
      rw [ready] at prepared
      cases prepared
      cases same
      obtain ⟨assembles, validates⟩ := prepare_eq_ok_iff.mp ready
      exact ⟨rfl, assembled, assembles, validates, rfl⟩
  · rintro ⟨rfl, assembled, assembles, validates, rfl⟩
    rw [prepare_eq_ok_iff.mpr ⟨assembles, validates⟩]
    rfl

/-- Keeping a record makes no difference to the result of a pass. -/
theorem compilePass_recording (source : PassSource) (stage : Stage) (state : σ)
    (asked : List (PassName × String)) :
    compilePass (recording compiler) common source ⟨stage, state, asked⟩ =
      ((compilePass compiler common source ⟨stage, state⟩).1,
        ⟨(compilePass compiler common source ⟨stage, state⟩).2.stage,
          (compilePass compiler common source ⟨stage, state⟩).2.state,
          asked ++ (question? common source).toList⟩) := by
  unfold compilePass question?
  cases prepared : prepare common source with
  | error failure => simp [Except.toOption]
  | ok assembled =>
    rw [← prepare_pass prepared]
    rfl

theorem compileSources_recording {sources : List PassSource} {report result : Report}
    {session : Session σ} {stage : Stage} {state : σ}
    (compiles : compileSources compiler common sources report ⟨stage, state⟩ = (.ok result, session))
    (asked : List (PassName × String)) :
    compileSources (recording compiler) common sources report ⟨stage, state, asked⟩ =
      (.ok result, ⟨session.stage, session.state,
        asked ++ sources.filterMap (question? common)⟩) := by
  induction sources generalizing report stage state asked with
  | nil =>
    cases compiles
    simp [compileSources]
  | cons source rest ih =>
    rw [compileSources_cons] at compiles ⊢
    rw [compilePass_recording]
    cases attempt : (compilePass compiler common source ⟨stage, state⟩).1 with
    | error overflow =>
      rw [attempt] at compiles
      cases compiles
    | ok given =>
      rw [attempt] at compiles
      simp only [ih compiles, List.append_assoc]
      cases asks : question? common source <;> simp [asks]

theorem compileAll_recording {report : Report} {session : Session σ} {state : σ}
    (compiles : compileAll compiler passes (.start state) = (.ok report, session)) :
    compileAll (recording compiler) passes (.start (state, [])) =
      (.ok report, ⟨session.stage, session.state,
        (selectedSources passes).filterMap (question? (commonCode passes))⟩) :=
  compileSources_recording compiles []

/-! ## Agreement -/

/-- What became of each selected pass of a snapshot. -/
def passOutcomes (compiler : Compiler σ) (passes : List PassSource) (state : σ) :
    Checked (List (PassSource × Except CompileFailure CompiledPass)) :=
  outcomes compiler (commonCode passes) (selectedSources passes) (.start state)

section Agreement

variable {report : Report} {session : Session σ} {state : σ} {source : PassSource}
  {failure : CompileFailure} {compiled : CompiledPass}
  {results : List (PassSource × Except CompileFailure CompiledPass)}

theorem of_ok_mem (computed : passOutcomes compiler passes state = .ok results)
    (member : (source, .ok compiled) ∈ results) :
    compiled.pass = source.name ∧ hasErrors compiled.warnings = false := by
  obtain ⟨session, given⟩ := exists_compilePass_of_mem_outcomes computed member
  obtain ⟨_, _, _, -, -, -, noErrors, rfl⟩ := compilePass_eq_ok_iff.mp given
  exact ⟨rfl, noErrors⟩

theorem of_error_mem (computed : passOutcomes compiler passes state = .ok results)
    (member : (source, .error failure) ∈ results) : hasErrors failure.diagnostics = true := by
  obtain ⟨session, given⟩ := exists_compilePass_of_mem_outcomes computed member
  exact compilePass_error given

theorem nodup_passOutcomes (computed : passOutcomes compiler passes state = .ok results) :
    (results.map (·.1.name)).Nodup := by
  have distinct := nodup_selectedSources passes
  rwa [← map_fst_outcomes computed, List.map_map] at distinct

/-- A report that was returned is made of the outcomes of all the selected passes. -/
theorem exists_passOutcomes
    (compiles : compileAll compiler passes (.start state) = (.ok report, session)) :
    ∃ results, passOutcomes compiler passes state = .ok results ∧
      (results.map Prod.snd).foldl Report.add ⟨[], []⟩ = report := by
  have reported := congrArg Prod.fst compiles
  rw [compileAll, compileSources_report] at reported
  exact map_eq_ok_iff.mp reported

section Made

variable (computed : passOutcomes compiler passes state = .ok results)
  (made : (results.map Prod.snd).foldl Report.add ⟨[], []⟩ = report)

include made

theorem mem_failures_iff :
    failure ∈ report.failures ↔ ∃ source, (source, .error failure) ∈ results := by
  rw [← made, Report.mem_failures_foldl]
  simp

theorem mem_compiled_iff :
    compiled ∈ report.compiled ↔ ∃ source, (source, .ok compiled) ∈ results := by
  rw [← made, Report.compiled_foldl, List.nil_append, List.mem_filterMap]
  constructor
  · rintro ⟨result, found, same⟩
    obtain ⟨⟨source, outcome⟩, member, rfl⟩ := List.mem_map.mp found
    cases outcome with
    | error failure => cases same
    | ok given =>
      cases same
      exact ⟨source, member⟩
  · rintro ⟨source, member⟩
    exact ⟨.ok compiled, List.mem_map_of_mem member, rfl⟩

include computed

theorem nodup_compiled : (report.compiled.map (·.pass)).Nodup := by
  rw [← made, Report.compiled_foldl, List.nil_append, List.filterMap_map]
  refine List.Nodup.sublist (map_filterMap_sublist ?_) (nodup_passOutcomes computed)
  rintro ⟨source, result⟩ member compiled succeeded
  cases result with
  | error failure => cases succeeded
  | ok given =>
    cases succeeded
    exact (of_ok_mem computed member).1

/-- A pass that was compiled is in the report once. -/
theorem compiled_of_ok_mem (member : (source, .ok compiled) ∈ results) :
    compiled ∈ report.compiled ∧ (report.compiled.map (·.pass)).count source.name = 1 := by
  have inReport := (mem_compiled_iff made).mpr ⟨source, member⟩
  refine ⟨inReport, List.count_eq_one_of_mem (nodup_compiled computed made) ?_⟩
  exact List.mem_map.mpr ⟨compiled, inReport, (of_ok_mem computed member).1⟩

/-- The failure of a pass is in the report, and the pass is not. -/
theorem failed_of_error_mem (member : (source, .error failure) ∈ results) :
    failure ∈ report.failures ∧ source.name ∉ report.compiled.map (·.pass) := by
  refine ⟨(mem_failures_iff made).mpr ⟨source, member⟩, ?_⟩
  intro named
  obtain ⟨compiled, inReport, same⟩ := List.mem_map.mp named
  obtain ⟨another, given⟩ := (mem_compiled_iff made).mp inReport
  have names : another.name = source.name := (of_ok_mem computed given).1.symm.trans same
  cases List.inj_on_of_nodup_map (nodup_passOutcomes computed) given member names

theorem isSuccess_iff_failures : report.isSuccess = true ↔ report.failures = [] := by
  rw [Report.isSuccess_iff]
  constructor
  · rintro ⟨harmless, -⟩
    refine List.eq_nil_iff_forall_not_mem.mpr fun failure found => ?_
    obtain ⟨source, member⟩ := (mem_failures_iff made).mp found
    have silent := harmless failure found
    rw [of_error_mem computed member] at silent
    cases silent
  · intro none
    refine ⟨by simp [none], ?_⟩
    intro compiled found
    obtain ⟨source, member⟩ := (mem_compiled_iff made).mp found
    exact (of_ok_mem computed member).2

theorem failures_eq_nil_iff :
    report.failures = [] ↔
      ∀ source ∈ selectedSources passes, source.name ∈ report.compiled.map (·.pass) := by
  have sources := map_fst_outcomes computed
  constructor
  · intro none source selected
    rw [← sources] at selected
    obtain ⟨⟨_, result⟩, member, rfl⟩ := List.mem_map.mp selected
    cases result with
    | ok compiled =>
      have once := (compiled_of_ok_mem computed made member).2
      exact List.count_pos_iff.mp (once ▸ Nat.one_pos)
    | error failure =>
      have found := (failed_of_error_mem computed made member).1
      rw [none] at found
      cases found
  · intro complete
    refine List.eq_nil_iff_forall_not_mem.mpr fun failure found => ?_
    obtain ⟨source, member⟩ := (mem_failures_iff made).mp found
    have selected : source ∈ selectedSources passes := sources ▸ List.mem_map_of_mem member
    exact (failed_of_error_mem computed made member).2 (complete source selected)

end Made

/-- What the compiler is asked about a snapshot: each pass at most once, in the order of
    compilation, and a selected one exactly when it was assembled and has an entry point. -/
structure Asked (passes : List PassSource) (calls : List (PassName × String)) : Prop where
  ordered : (calls.map Prod.fst).Sublist PassName.renderOrder
  once : (calls.map Prod.fst).Nodup
  prepared : ∀ pass text, (pass, text) ∈ calls ↔ ∃ source ∈ selectedSources passes,
    source.name = pass ∧ (pass = .image ∨ source.hasCode = true) ∧ ∃ assembled,
      assemble (commonCode passes) source.code pass = .ok assembled ∧
      validateEntryPoint assembled.expandedCode pass = .ok () ∧ assembled.finalSource = text

theorem asked_filterMap (passes : List PassSource) :
    Asked passes ((selectedSources passes).filterMap (question? (commonCode passes))) := by
  have names : (((selectedSources passes).filterMap (question? (commonCode passes))).map
      Prod.fst).Sublist ((selectedSources passes).map (·.name)) :=
    map_filterMap_sublist fun _ _ _ asks => (question?_eq_some_iff.mp asks).1.symm
  refine ⟨names.trans (selectedSources_sublist passes), names.nodup (nodup_selectedSources passes),
    ?_⟩
  intro pass text
  rw [List.mem_filterMap]
  constructor
  · rintro ⟨source, selected, asks⟩
    obtain ⟨rfl, ready⟩ := question?_eq_some_iff.mp asks
    exact ⟨source, selected, rfl, hasCode_of_mem_selectedSources selected, ready⟩
  · rintro ⟨source, selected, rfl, -, ready⟩
    exact ⟨source, selected, question?_eq_some_iff.mpr ⟨rfl, ready⟩⟩

/-- A report has everything that became of the selected passes, each of it once. -/
structure Collects (results : List (PassSource × Except CompileFailure CompiledPass))
    (report : Report) : Prop where
  compiled : ∀ source compiled, (source, .ok compiled) ∈ results →
    compiled ∈ report.compiled ∧ (report.compiled.map (·.pass)).count source.name = 1
  failed : ∀ source failure, (source, .error failure) ∈ results →
    failure ∈ report.failures ∧ source.name ∉ report.compiled.map (·.pass)
  distinct : report.failures.Nodup

/-- The places that judge a whole shader agree that it failed when there is a failure. -/
structure Agrees (compiler : Compiler σ) (passes : List PassSource) (state : σ)
    (report : Report) (session : Session σ) : Prop where
  isSuccess : report.isSuccess = true ↔ report.failures = []
  complete : report.failures = [] ↔
    ∀ source ∈ selectedSources passes, source.name ∈ report.compiled.map (·.pass)
  exitCode : ∀ files config document asJson,
    CommandLine.readPasses files document = .ok passes →
    ∃ printout, CommandLine.perform compiler state files config (.check document asJson) =
      .ok printout ∧ (printout.code = 0 ↔ report.failures.head? = none)
  thumbnail : ∀ (context : RenderContext σ) codec config now before, context.compile = compiler →
    context.reset before = (.returned (), state) →
    context.renderThumbnail codec passes config now before =
      match report.failures.head? with
      | some failure => (.returned (.error failure.toShaderError), session.state)
      | none => context.drawThumbnail codec config now session.state

/-- What is known of a report that a compiler makes of a snapshot. -/
structure Verdict (compiler : Compiler σ) (passes : List PassSource) (state : σ)
    (report : Report) (session : Session σ) : Prop where
  asked : ∃ calls, compileAll (recording compiler) passes (.start (state, [])) =
    (.ok report, ⟨session.stage, session.state, calls⟩) ∧ Asked passes calls
  collects : ∃ results, passOutcomes compiler passes state = .ok results ∧
    results.map Prod.fst = selectedSources passes ∧ Collects results report
  agrees : Agrees compiler passes state report session

theorem check_code (compiles : compileAll compiler passes (.start state) = (.ok report, session))
    {files : CommandLine.Files} {document : String}
    (reads : CommandLine.readPasses files document = .ok passes) (config : Config) (asJson : Bool) :
    ∃ printout, CommandLine.perform compiler state files config (.check document asJson) =
      .ok printout ∧ (printout.code = 0 ↔ report.failures.head? = none) := by
  obtain ⟨results, computed, made⟩ := exists_passOutcomes compiles
  refine ⟨CommandLine.reportPrintout document asJson report, ?_, ?_⟩
  · rw [CommandLine.perform, reads]
    simp only [bind, Except.bind, compiles]
    rfl
  · rw [List.head?_eq_none_iff, ← isSuccess_iff_failures computed made]
    show CommandLine.Printout.exitCode report.isSuccess = 0 ↔ _
    cases report.isSuccess <;> decide

theorem renderThumbnail_eq
    (compiles : compileAll compiler passes (.start state) = (.ok report, session))
    {context : RenderContext σ} {before : σ} (same : context.compile = compiler)
    (reset : context.reset before = (.returned (), state)) (codec : Codec)
    (config : ThumbnailConfig) (now : Moment) :
    context.renderThumbnail codec passes config now before =
      match report.failures.head? with
      | some failure => (.returned (.error failure.toShaderError), session.state)
      | none => context.drawThumbnail codec config now session.state := by
  subst same
  unfold RenderContext.renderThumbnail
  rw [reset]
  simp only [compiles]
  cases report.failures <;> rfl

theorem verdict_of_compileAll
    (compiles : compileAll compiler passes (.start state) = (.ok report, session)) :
    Verdict compiler passes state report session := by
  obtain ⟨results, computed, made⟩ := exists_passOutcomes compiles
  refine ⟨⟨_, compileAll_recording compiles, asked_filterMap passes⟩,
    ⟨results, computed, map_fst_outcomes computed, ?_⟩, ?_⟩
  · refine ⟨fun _ _ => compiled_of_ok_mem computed made,
      fun _ _ => failed_of_error_mem computed made, ?_⟩
    rw [← made]
    exact Report.nodup_failures_foldl List.nodup_nil
  · exact ⟨isSuccess_iff_failures computed made, failures_eq_nil_iff computed made,
      fun _ config _ asJson reads => check_code compiles reads config asJson,
      fun _ codec config now _ same reset =>
        renderThumbnail_eq compiles same reset codec config now⟩

/-- With small numbers there is a report. -/
theorem exists_report (isSmall : IsSmall compiler)
    (fits : ∀ source ∈ selectedSources passes, Fits (commonCode passes) source)
    (session : Session σ) : ∃ report, (compileAll compiler passes session).1 = .ok report := by
  obtain ⟨results, computed⟩ := exists_outcomes isSmall fits session
  rw [compileAll, compileSources_report, computed]
  exact ⟨_, rfl⟩

/-- The verdict on one pass: it is compiled when the compiler accepts it with a log that tells
    of no error, and any failure tells of one. -/
structure PassVerdict (compiler : Compiler σ) (common : String) (source : PassSource)
    (session : Session σ) : Prop where
  compiled : (∃ compiled, (compilePass compiler common source session).1 = .ok (.ok compiled)) ↔
    ∃ assembled log diagnostics, prepare common source = .ok assembled ∧
      (compiler source.name assembled.finalSource session.state).1 = .returned (.accepted log) ∧
      mapDiagnostics log source.name assembled.attribution = .ok diagnostics ∧
      hasErrors diagnostics = false
  failed : ∀ failure, (compilePass compiler common source session).1 = .ok (.error failure) →
    ∃ diagnostic ∈ failure.diagnostics, diagnostic.severity = .error
  returns : IsSmall compiler → Fits common source →
    ∃ result, (compilePass compiler common source session).1 = .ok result

theorem passVerdict (compiler : Compiler σ) (common : String) (source : PassSource)
    (session : Session σ) : PassVerdict compiler common source session := by
  refine ⟨?_, fun failure failed => hasErrors_iff.mp (compilePass_error failed),
    fun isSmall fits => exists_compilePass isSmall fits session⟩
  simp only [compilePass_eq_ok_iff]
  constructor
  · rintro ⟨_, assembled, log, diagnostics, prepared, accepted, read, noErrors, -⟩
    exact ⟨assembled, log, diagnostics, prepared, accepted, read, noErrors⟩
  · rintro ⟨assembled, log, diagnostics, prepared, accepted, read, noErrors⟩
    exact ⟨_, assembled, log, diagnostics, prepared, accepted, read, noErrors, rfl⟩

/-- A compiler whose logs name small numbers makes a report of every snapshot. And however a
    compiler answers: a pass is compiled when the compiler accepts it with a log that tells of no
    error, and any failure tells of one; where there is a report, the compiler was asked about the
    passes that could be prepared, each once and in order; every selected pass is in the report;
    and the report, the exit code of a check and the rendering of a thumbnail agree on whether the
    shader compiles. -/
theorem compileAll_verdict (compiler : Compiler σ) (passes : List PassSource) (state : σ) :
    (IsSmall compiler → (∀ source ∈ selectedSources passes, Fits (commonCode passes) source) →
        ∃ report, (compileAll compiler passes (.start state)).1 = .ok report) ∧
      (∀ common source session, PassVerdict compiler common source session) ∧
      ∀ report session, compileAll compiler passes (.start state) = (.ok report, session) →
        Verdict compiler passes state report session :=
  ⟨fun isSmall fits => exists_report isSmall fits (.start state), passVerdict compiler,
    fun _ _ => verdict_of_compileAll⟩

private theorem isSmall_accepting : IsSmall CommandLine.accepting := by
  rintro pass text state answer ⟨⟩ line member
  cases member

private theorem fits_withoutEntryPoint : Fits "" ⟨.image, "float a;"⟩ := by
  intro assembled assembles
  refine Assembly.fits_of_default assembles (by decide +kernel) ?_
  rw [(Assembly.isAssembled assembles).expandedCode]
  decide +kernel

/-- An Image pass without an entry point fails the report and the check. -/
theorem compileAll_verdict_withoutEntryPoint :
    ∃ report,
      (compileAll CommandLine.accepting [⟨.image, "float a;"⟩] (.start ())).1 = .ok report ∧
      report.failures.map (·.pass) = [.image] ∧ report.isSuccess ≠ true ∧
      ∃ printout, CommandLine.perform CommandLine.accepting ()
          (fun _ => .ok "\x7b\"image\": \"float a;\"\x7d") .standard (.check "shader" false) =
        .ok printout ∧ printout.code ≠ 0 := by
  have selected : selectedSources [⟨.image, "float a;"⟩] = [⟨.image, "float a;"⟩] := by
    decide +kernel
  have fits : ∀ source ∈ selectedSources [⟨.image, "float a;"⟩],
      Fits (commonCode [⟨.image, "float a;"⟩]) source := by
    rw [selected, List.forall_mem_singleton]
    exact fits_withoutEntryPoint
  have failed : ((compileAll CommandLine.accepting [⟨.image, "float a;"⟩]
      (.start ())).1.toOption.map fun report => report.failures.map (·.pass)) = some [.image] := by
    decide +kernel
  have reads : CommandLine.readPasses (fun _ => .ok "\x7b\"image\": \"float a;\"\x7d") "shader" =
      .ok [⟨.image, "float a;"⟩] := by
    decide +kernel
  obtain ⟨returns, -, verdict⟩ := compileAll_verdict CommandLine.accepting
    [⟨.image, "float a;"⟩] ()
  obtain ⟨report, reported⟩ := returns isSmall_accepting fits
  have agrees := (verdict report _ (Prod.ext reported rfl)).agrees
  rw [reported] at failed
  have failures : report.failures.map (·.pass) = [.image] := Option.some.inj failed
  have nonempty : report.failures ≠ [] := by
    intro none
    rw [none] at failures
    cases failures
  obtain ⟨printout, performed, code⟩ := agrees.exitCode _ .standard "shader" false reads
  refine ⟨report, reported, failures, mt agrees.isSuccess.mp nonempty, printout,
    performed, ?_⟩
  intro zero
  exact nonempty (List.head?_eq_none_iff.mp (code.mp zero))

end Agreement

end Compile

end Multipass
