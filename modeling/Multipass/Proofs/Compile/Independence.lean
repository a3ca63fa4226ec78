import Mathlib.Data.List.Perm.Basic
import Multipass.Proofs.Compile.Verdict
import Multipass.Proofs.Fallible
import Multipass.Proofs.Text.Lines
import Multipass.Proofs.Text.Word

/-!
# Passes are compiled independently

With a compiler that always answers the same question in the same way, the result for a pass
does not depend on what was compiled before it, on the order of the passes in a snapshot, or
on passes that have no code. There is no report if an overflow leaves a pass without a result;
that does not depend on these either, and cannot happen where the logs name small numbers.
-/

namespace Multipass

namespace Text

/-! ## Lines without code -/

theorem trim_dropCarriageReturn (line : List Char) : trim (dropCarriageReturn line) = trim line := by
  unfold dropCarriageReturn
  split
  · rename_i ended
    obtain ⟨front, rfl⟩ := List.getLast?_eq_some_iff.mp ended
    rw [List.dropLast_concat, trim_concat_of_isBlank (by decide)]
  · rfl

theorem startsWith_iff {beginning text : List Char} :
    startsWith beginning text = true ↔ ∃ rest, text = beginning ++ rest := by
  simp only [startsWith, Option.isSome_iff_exists, after?_eq_some_iff]

/-- A line that is blank, or a line comment with blanks in front of it. -/
def IsBareLine (line : List Char) : Prop :=
  isAllBlank line = true ∨
    ∃ blanks rest, isAllBlank blanks = true ∧ line = blanks ++ '/' :: '/' :: rest

theorem isBareLine_iff {line : List Char} :
    IsBareLine line ↔ (!(trim line).isEmpty && !startsWith ['/', '/'] (trim line)) = false := by
  obtain ⟨blanks, blank, split, boundary⟩ := trimStart_eq_iff.mp (Eq.refl (trimStart line))
  rw [Bool.and_eq_false_iff, Bool.not_eq_false', Bool.not_eq_false', startsWith_iff]
  cases visible : trimStart line with
  | nil =>
    have whole : line = blanks := by rw [split, visible, List.append_nil]
    refine iff_of_true (.inl (whole ▸ blank)) (.inl ?_)
    rw [trim, visible]
    rfl
  | cons c rest =>
    have shown : isBlank c = false := boundary c (by rw [visible]; rfl)
    rw [trim, visible, trimEnd_cons shown]
    constructor
    · rintro (all | ⟨blanks', rest', blank', same⟩)
      · have inLine : c ∈ line := by rw [split, visible]; simp
        rw [List.all_eq_true.mp all c inLine] at shown
        exact absurd shown (by decide)
      · have begins : trimStart line = '/' :: '/' :: rest' := by
          refine trimStart_eq_iff.mpr ⟨blanks', blank', same, ?_⟩
          rintro d ⟨⟩
          decide
        rw [visible] at begins
        cases begins
        exact .inr ⟨trimEnd rest', by rw [trimEnd_cons (by decide)]; rfl⟩
    · rintro (empty | ⟨after, same⟩)
      · cases empty
      · obtain ⟨rfl, later⟩ := List.cons.inj same
        have second : rest.head? = some '/' :=
          head?_dropTrailing (p := isBlank) (by rw [← trimEnd, later]; rfl)
        obtain ⟨others, rfl⟩ := List.head?_eq_some_iff.mp second
        exact .inr ⟨blanks, others, blank, by rw [split, visible]⟩

/-- Lines of a log are those of a source, as far as no carriage return and no empty last line
    makes a difference. -/
theorem any_endedLines {test : List Char → Bool} (empty : test [] = false)
    (returns : ∀ line, test (dropCarriageReturn line) = test line) (parts : List (List Char)) :
    (endedLines parts).any test = parts.any test := by
  rcases List.eq_nil_or_concat' parts with rfl | ⟨front, last, rfl⟩
  · rfl
  · have ended : (front.map dropCarriageReturn).any test = front.any test := by
      rw [List.any_map]
      exact congrArg front.any (funext returns)
    rw [endedLines_concat, List.any_append, List.any_append, ended]
    by_cases nothing : last.isEmpty = true
    · rw [if_pos nothing, List.isEmpty_iff.mp nothing, List.any_cons, empty]
      rfl
    · rw [if_neg nothing]

end Text

/-- Are there blank lines and line comments only? -/
def PassSource.IsBare (source : PassSource) : Prop :=
  ∀ line ∈ Text.lines source.code.toList, Text.IsBareLine line

theorem PassSource.hasCode_eq_false_iff {source : PassSource} :
    source.hasCode = false ↔ source.IsBare := by
  unfold PassSource.hasCode PassSource.IsBare Text.logLines
  simp only
  rw [Text.any_endedLines rfl fun line => by rw [Text.trim_dropCarriageReturn], List.any_eq_false]
  refine forall_congr' fun line => imp_congr_right fun _ => ?_
  rw [Text.isBareLine_iff, Bool.not_eq_true]

instance (source : PassSource) : Decidable source.IsBare :=
  decidable_of_iff (source.hasCode = false) PassSource.hasCode_eq_false_iff

/-- Does a pass have a part in compiling a shader? Without code, only Image and Common do. -/
def PassSource.Matters (source : PassSource) : Prop :=
  source.name = .image ∨ source.name = .common ∨ ¬ source.IsBare

instance (source : PassSource) : Decidable source.Matters :=
  inferInstanceAs (Decidable (_ ∨ _ ∨ _))

namespace Compile

/-- What is found under a key that no other item has. -/
theorem find?_key_eq_some_iff {α κ : Type} [DecidableEq κ] {key : α → κ} {items : List α}
    (distinct : (items.map key).Nodup) {wanted : κ} {item : α} :
    items.find? (key · == wanted) = some item ↔ item ∈ items ∧ key item = wanted := by
  constructor
  · intro found
    have matching := List.find?_some found
    exact ⟨List.mem_of_find?_eq_some found, beq_iff_eq.mp matching⟩
  · rintro ⟨member, rfl⟩
    cases found : items.find? (key · == key item) with
    | none => exact absurd (beq_self_eq_true _) (List.find?_eq_none.mp found item member)
    | some other =>
      have matching := List.find?_some found
      exact congrArg some (List.inj_on_of_nodup_map distinct (List.mem_of_find?_eq_some found)
        member (beq_iff_eq.mp matching))

/-! ## What is chosen from a snapshot -/

section Snapshots

variable {passes passes' : List PassSource} {name : PassName} {source : PassSource}

theorem findPass?_eq_some_iff (distinct : (passes.map (·.name)).Nodup) :
    findPass? passes name = some source ↔ source ∈ passes ∧ source.name = name :=
  find?_key_eq_some_iff distinct

/-- Two snapshots that differ in the order of their passes and in passes that do not matter. -/
def SameCode (passes passes' : List PassSource) : Prop :=
  (passes.filter fun source => source.Matters).Perm (passes'.filter fun source => source.Matters)

theorem SameCode.mem_iff (same : SameCode passes passes') (matters : source.Matters) :
    source ∈ passes ↔ source ∈ passes' := by
  have members := List.Perm.mem_iff (a := source) same
  rwa [List.mem_filter, List.mem_filter, and_iff_left (decide_eq_true matters),
    and_iff_left (decide_eq_true matters)] at members

variable (distinct : (passes.map (·.name)).Nodup) (distinct' : (passes'.map (·.name)).Nodup)
  (same : SameCode passes passes')

include distinct distinct' same

/-- A pass that matters in any case is the same in both. -/
theorem findPass?_eq_of_sameCode (matters : name = .image ∨ name = .common) :
    findPass? passes name = findPass? passes' name := by
  refine Option.ext fun source => ?_
  rw [findPass?_eq_some_iff distinct, findPass?_eq_some_iff distinct']
  refine and_congr_left fun named => same.mem_iff ?_
  rw [← named] at matters
  exact or_assoc.mp (.inl matters)

theorem commonCode_eq_of_sameCode : commonCode passes = commonCode passes' := by
  rw [commonCode, commonCode, findPass?_eq_of_sameCode distinct distinct' same (.inr rfl)]

theorem sourceFor?_eq_of_sameCode : sourceFor? passes name = sourceFor? passes' name := by
  by_cases image : name = .image
  · rw [sourceFor?, sourceFor?, findPass?_eq_of_sameCode distinct distinct' same (.inl image)]
  · have chosen : ∀ snapshot : List PassSource, (snapshot.map (·.name)).Nodup → ∀ source,
        sourceFor? snapshot name = some source ↔
          source ∈ snapshot ∧ source.name = name ∧ source.hasCode = true := by
      intro snapshot distinct source
      rw [← and_assoc, ← findPass?_eq_some_iff distinct, sourceFor?]
      cases findPass? snapshot name with
      | none => simp [image]
      | some found =>
        simp only [image, false_or, Option.ite_none_right_eq_some, Option.some.injEq]
        constructor
        · rintro ⟨hasCode, rfl⟩
          exact ⟨rfl, hasCode⟩
        · rintro ⟨rfl, hasCode⟩
          exact ⟨hasCode, rfl⟩
    refine Option.ext fun source => ?_
    rw [chosen passes distinct, chosen passes' distinct']
    refine and_congr_left fun ⟨_, hasCode⟩ => same.mem_iff (.inr (.inr fun bare => ?_))
    rw [PassSource.hasCode_eq_false_iff.mpr bare] at hasCode
    exact Bool.false_ne_true hasCode

theorem selectedSources_eq_of_sameCode : selectedSources passes = selectedSources passes' :=
  List.filterMap_congr fun _ _ => sourceFor?_eq_of_sameCode distinct distinct' same

end Snapshots

/-! ## A compiler that does not remember -/

section Stateless

variable {σ : Type} {compiler : Compiler σ} {common : String}

/-- The reply, a panic included, depends on the pass and the text only. The state may count the
    questions, but it does not show in the replies. -/
def IsStateless (compiler : Compiler σ) : Prop :=
  ∀ pass text state state', (compiler pass text state).1 = (compiler pass text state').1

/-- The result for a pass with a compiler that was not used before. -/
def alone (compiler : Compiler σ) (common : String) (fresh : σ) (source : PassSource) :
    Checked (Except CompileFailure CompiledPass) :=
  (compilePass compiler common source (.start fresh)).1

section Alone

variable (stateless : IsStateless compiler)

include stateless

theorem compilePass_eq_alone (source : PassSource) (session : Session σ) (fresh : σ) :
    (compilePass compiler common source session).1 = alone compiler common fresh source := by
  unfold alone compilePass
  cases prepare common source with
  | error failure => rfl
  | ok assembled =>
    exact congrArg (judge assembled) (stateless _ _ session.state fresh)

/-- What becomes of the sources does not depend on what the compiler was used for. -/
theorem outcomes_eq (sources : List PassSource) (session session' : Session σ) :
    outcomes compiler common sources session = outcomes compiler common sources session' := by
  induction sources generalizing session session' with
  | nil => rfl
  | cons source rest ih =>
    rw [outcomes, outcomes, compilePass_eq_alone stateless source session session.state,
      compilePass_eq_alone stateless source session' session.state]
    simp only [ih _ (compilePass compiler common source session').2]

/-- Everything has an outcome when each source has a result alone. -/
theorem exists_outcomes_iff (sources : List PassSource) (session : Session σ) (fresh : σ) :
    (∃ results, outcomes compiler common sources session = .ok results) ↔
      ∀ source ∈ sources, ∃ result, alone compiler common fresh source = .ok result := by
  induction sources generalizing session with
  | nil => exact iff_of_true ⟨[], rfl⟩ nofun
  | cons source rest ih =>
    rw [List.forall_mem_cons, ← ih (compilePass compiler common source session).2,
      ← compilePass_eq_alone stateless source session fresh]
    simp only [outcomes_cons_eq_ok_iff]
    constructor
    · rintro ⟨_, result, others, here, later, rfl⟩
      exact ⟨⟨result, here⟩, others, later⟩
    · rintro ⟨⟨result, here⟩, others, later⟩
      exact ⟨_, result, others, here, later, rfl⟩

theorem alone_of_mem_outcomes {sources : List PassSource} {session : Session σ}
    {results : List (PassSource × Except CompileFailure CompiledPass)}
    (computed : outcomes compiler common sources session = .ok results) (fresh : σ) :
    ∀ outcome ∈ results, alone compiler common fresh outcome.1 = .ok outcome.2 := by
  intro outcome member
  obtain ⟨session', given⟩ := exists_compilePass_of_mem_outcomes computed member
  rw [← given, compilePass_eq_alone stateless outcome.1 session' fresh]

end Alone

/-- A report has the result of each source, and nothing else. -/
structure Gathers (result : PassSource → Checked (Except CompileFailure CompiledPass))
    (sources : List PassSource) (report : Report) : Prop where
  of_ok : ∀ source ∈ sources, ∀ compiled, result source = .ok (.ok compiled) →
    report.compiledPass? source.name = some compiled
  of_error : ∀ source ∈ sources, ∀ failure, result source = .ok (.error failure) →
    failure ∈ report.failures ∧ report.compiledPass? source.name = none
  compiled : report.compiled =
    sources.filterMap fun source => (result source).toOption.bind Except.toOption
  failures : ∀ failure ∈ report.failures, ∃ source ∈ sources, result source = .ok (.error failure)
  distinct : report.failures.Nodup

theorem pass_of_alone {fresh : σ} {source : PassSource} {compiled : CompiledPass}
    (succeeds : alone compiler common fresh source = .ok (.ok compiled)) :
    compiled.pass = source.name := by
  obtain ⟨_, _, _, -, -, -, -, rfl⟩ := compilePass_eq_ok_iff.mp succeeds
  rfl

section Gathering

variable {result : PassSource → Checked (Except CompileFailure CompiledPass)}
  {results : List (PassSource × Except CompileFailure CompiledPass)}

theorem compiled_eq_some_iff {given : Checked (Except CompileFailure CompiledPass)}
    {compiled : CompiledPass} :
    given.toOption.bind Except.toOption = some compiled ↔ given = .ok (.ok compiled) := by
  simp only [Option.bind_eq_some_iff, toOption_eq_some_iff, exists_eq_right]

theorem gathers_foldl
    (named : ∀ source compiled, result source = .ok (.ok compiled) → compiled.pass = source.name)
    (given : ∀ outcome ∈ results, result outcome.1 = .ok outcome.2)
    (distinct : ((results.map Prod.fst).map (·.name)).Nodup) :
    Gathers result (results.map Prod.fst)
      ((results.map Prod.snd).foldl Report.add ⟨[], []⟩) := by
  have compiled : ((results.map Prod.snd).foldl Report.add ⟨[], []⟩).compiled =
      (results.map Prod.fst).filterMap fun source =>
        (result source).toOption.bind Except.toOption := by
    rw [Report.compiled_foldl, List.nil_append, List.filterMap_map, List.filterMap_map]
    refine List.filterMap_congr fun outcome member => ?_
    simp only [Function.comp_apply, given outcome member]
    rfl
  have passes : (((results.map Prod.snd).foldl Report.add ⟨[], []⟩).compiled.map
      (·.pass)).Nodup := by
    rw [compiled]
    refine (map_filterMap_sublist ?_).nodup distinct
    exact fun source _ value succeeds => named source value (compiled_eq_some_iff.mp succeeds)
  refine ⟨fun source member value succeeds => ?_, fun source member failure fails => ⟨?_, ?_⟩,
    compiled, fun failure member => ?_, Report.nodup_failures_foldl List.nodup_nil⟩
  · refine (find?_key_eq_some_iff passes).mpr ⟨?_, named source value succeeds⟩
    rw [compiled, List.mem_filterMap]
    exact ⟨source, member, compiled_eq_some_iff.mpr succeeds⟩
  · obtain ⟨outcome, here, rfl⟩ := List.mem_map.mp member
    rw [given outcome here, Except.ok.injEq] at fails
    exact Report.mem_failures_foldl.mpr (.inr (List.mem_map.mpr ⟨outcome, here, fails⟩))
  · refine Option.eq_none_iff_forall_ne_some.mpr fun value found => ?_
    obtain ⟨inReport, same⟩ := (find?_key_eq_some_iff passes).mp found
    rw [compiled, List.mem_filterMap] at inReport
    obtain ⟨other, selected, succeeds⟩ := inReport
    have succeeds := compiled_eq_some_iff.mp succeeds
    have names := (named other value succeeds).symm.trans same
    rw [List.inj_on_of_nodup_map distinct selected member names, fails] at succeeds
    cases succeeds
  · obtain ⟨outcome, here, fails⟩ :=
      List.mem_map.mp ((Report.mem_failures_foldl.mp member).resolve_left List.not_mem_nil)
    exact ⟨outcome.1, List.mem_map_of_mem here, by rw [given outcome here, fails]⟩

end Gathering

/-- The report on a shader depends on the codes of its passes only, not on their order nor on
    passes without code. There is one when an unused compiler has a result for each selected pass,
    as it has where its logs name small numbers only, and the report has these results. -/
theorem compileAll_independent (stateless : IsStateless compiler) {passes passes' : List PassSource}
    (distinct : (passes.map (·.name)).Nodup) (distinct' : (passes'.map (·.name)).Nodup)
    (same : SameCode passes passes') (session session' : Session σ) (fresh : σ) :
    (compileAll compiler passes session).1 = (compileAll compiler passes' session').1 ∧
      (∀ report, (compileAll compiler passes session).1 = .ok report →
        Gathers (alone compiler (commonCode passes) fresh) (selectedSources passes) report) ∧
      ((∃ report, (compileAll compiler passes session).1 = .ok report) ↔
        ∀ source ∈ selectedSources passes,
          ∃ result, alone compiler (commonCode passes) fresh source = .ok result) ∧
      (IsSmall compiler → (∀ source ∈ selectedSources passes, Fits (commonCode passes) source) →
        ∃ report, (compileAll compiler passes session).1 = .ok report) := by
  refine ⟨?_, ?_, ?_, fun isSmall fits => exists_report isSmall fits session⟩
  · rw [compileAll, compileAll, compileSources_report, compileSources_report,
      commonCode_eq_of_sameCode distinct distinct' same,
      selectedSources_eq_of_sameCode distinct distinct' same,
      outcomes_eq stateless _ session session']
  · intro report reported
    rw [compileAll, compileSources_report] at reported
    obtain ⟨results, computed, rfl⟩ := map_eq_ok_iff.mp reported
    have sources := map_fst_outcomes computed
    have gathers := gathers_foldl (fun _ _ => pass_of_alone)
      (alone_of_mem_outcomes stateless computed fresh)
      (sources ▸ nodup_selectedSources passes)
    rwa [sources] at gathers
  · rw [← exists_outcomes_iff stateless _ session fresh, compileAll, compileSources_report]
    simp only [map_eq_ok_iff]
    constructor
    · rintro ⟨report, results, computed, -⟩
      exact ⟨results, computed⟩
    · rintro ⟨results, computed⟩
      exact ⟨_, results, computed, rfl⟩

/-- A compiler that counts its questions and panics on Buffer A. -/
def panicking : Compiler Nat :=
  fun pass _ count =>
    (if pass = .bufferA then .panicked .other else .returned (.accepted ""), count + 1)

/-- Two passes, and the same two in another order with a third that has no code. -/
theorem compileAll_independent_panicking :
    SameCode [⟨.bufferA, "void mainImage(out vec4 c, vec2 p) \x7b\x7d"⟩, ⟨.image, "float a;"⟩]
        [⟨.image, "float a;"⟩, ⟨.bufferB, "// later\n\n"⟩,
          ⟨.bufferA, "void mainImage(out vec4 c, vec2 p) \x7b\x7d"⟩] ∧
      (compileAll panicking [⟨.bufferA, "void mainImage(out vec4 c, vec2 p) \x7b\x7d"⟩,
          ⟨.image, "float a;"⟩] (.start 0)).1 =
        (compileAll panicking [⟨.image, "float a;"⟩, ⟨.bufferB, "// later\n\n"⟩,
          ⟨.bufferA, "void mainImage(out vec4 c, vec2 p) \x7b\x7d"⟩] (.start 7)).1 := by
  have same : SameCode
      [⟨.bufferA, "void mainImage(out vec4 c, vec2 p) \x7b\x7d"⟩, ⟨.image, "float a;"⟩]
      [⟨.image, "float a;"⟩, ⟨.bufferB, "// later\n\n"⟩,
        ⟨.bufferA, "void mainImage(out vec4 c, vec2 p) \x7b\x7d"⟩] := by
    show List.Perm _ _
    decide +kernel
  exact ⟨same, (compileAll_independent (fun _ _ _ _ => rfl) (by decide) (by decide) same
    (.start 0) (.start 7) 0).1⟩

end Stateless

end Compile

end Multipass
