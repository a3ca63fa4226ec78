import Multipass.Proofs.Assembly.Embedding
import Multipass.Proofs.Assembly.Seam
import Multipass.Proofs.Preprocess.KeptLines

/-!
# Lines that are reported lie in their texts

A line of the compiled text is reported as a line of the text that it is attributed to. The
nearest mapped line is such a line in any case. Where nothing is mapped, lines are counted
on, and that stays inside Common; it stays inside the pass only when the compiled text shows
a line of the pass at all.
-/

namespace Multipass.Assembly

open Preprocess

/-! ## The lines of the two texts -/

theorem lineCount_dropContinuation_le (text : List Char) :
    Text.lineCount (dropContinuation text) ≤ Text.lineCount text := by
  rw [Text.lineCount_eq_count, Text.lineCount_eq_count]
  exact Nat.succ_le_succ ((dropContinuation_sublist text).count_le _)

/-- A line of Common or of the pass. -/
structure Source.IsLineOf (source : Source) (common code : List Char) (pass : PassName) : Prop where
  owner : source.1 = .common ∨ source.1 = pass
  positive : 1 ≤ source.2
  inCommon : source.1 = .common → source.2 ≤ Text.lineCount common
  inPass : source.1 = pass → source.2 ≤ Text.lineCount code

theorem exists_of_mem_markLines {pass : PassName} {lines : List (List Char)}
    {marked : Marked (Option Source)} (member : marked ∈ markLines pass lines) :
    ∃ index, index < lines.length ∧ marked.mark = some (pass, index + 1) := by
  obtain ⟨index, found⟩ := List.getElem?_of_mem member
  have mark := mark_markLines pass lines index
  rw [found, Option.map_some] at mark
  obtain ⟨line, here, same⟩ := Option.map_eq_some_iff.mp mark.symm
  exact ⟨index, (List.getElem?_eq_some_iff.mp here).1, same.symm⟩

section Sources

variable {common code : List Char} {pass : PassName}

theorem isLineOf_of_mem_sourceLines (other : pass ≠ .common) {source : Source}
    {marked : Marked (Option Source)} (member : marked ∈ sourceLines common code pass)
    (marks : marked.mark = some source) : source.IsLineOf common code pass := by
  have ofPass : marked ∈ markLines pass (Text.lines code) → source.IsLineOf common code pass := by
    intro inPass
    obtain ⟨index, inside, same⟩ := exists_of_mem_markLines inPass
    cases marks.symm.trans same
    exact ⟨.inr rfl, Nat.succ_pos index, fun same => absurd same other, fun _ => inside⟩
  unfold sourceLines at member
  simp only at member
  split at member
  · exact ofPass member
  · rcases List.mem_append.mp member with inCommon | behind
    · obtain ⟨index, inside, same⟩ := exists_of_mem_markLines inCommon
      cases marks.symm.trans same
      have bound := Nat.le_trans inside (lineCount_dropContinuation_le common)
      exact ⟨.inl rfl, Nat.succ_pos index, fun _ => bound, fun same => absurd same.symm other⟩
    · rcases List.mem_cons.mp behind with rfl | inPass
      · cases marks
      · exact ofPass inPass

theorem isLineOf_of_produced (other : pass ≠ .common) {index : Nat} {source : Source}
    {text : List Char}
    (produced : (expandedSources common code pass)[index]? = some ⟨some source, text⟩) :
    source.IsLineOf common code pass := by
  obtain ⟨kept, -, comes⟩ := exists_kept produced
  obtain ⟨marked, found, marks⟩ := Option.map_eq_some_iff.mp comes.mark
  exact isLineOf_of_mem_sourceLines other (List.mem_of_getElem? found) marks

theorem exists_marked (pass : PassName) {index : Nat} {kept : KeptLine}
    (found : (outcomeOf (combine common code).text).kept[index]? = some kept) :
    ∃ marked, (expandedSources common code pass)[index]? = some marked ∧
      ComesFrom 1 (sourceLines common code pass) kept marked := by
  have comes := expandedSources_comesFrom common code pass
  obtain ⟨inside, same⟩ := List.getElem?_eq_some_iff.mp found
  have insideSources := comes.length_eq ▸ inside
  refine ⟨_, List.getElem?_eq_getElem insideSources, ?_⟩
  have here := List.Forall₂.get comes inside insideSources
  rw [List.get_eq_getElem, List.get_eq_getElem, same] at here
  exact here

theorem sourceLine?_eq_none_iff {commonLines line : Nat} :
    sourceLine? commonLines line = none ↔ commonLines ≠ 0 ∧ line = commonLines + 1 := by
  unfold sourceLine?
  split
  · simp only [reduceCtorEq, false_iff]
    omega
  · split
    · simp only [reduceCtorEq, false_iff]
      omega
    · simp only [true_iff]
      omega

end Sources

section Assembled

variable {common code : String} {pass : PassName} {assembled : AssembledPass}

/-- A line that is in the line map has a source. -/
theorem source_of_entry (assembles : assemble common code pass = .ok assembled)
    {output input : Nat} (member : (output, input) ∈ assembled.attribution.lineMap.entries) :
    ∃ index source text, output = index + 1 ∧ source.2 = input ∧
      (expandedSources common.toList code.toList pass)[index]? = some ⟨some source, text⟩ := by
  rw [(isAssembled assembles).lineMap] at member
  obtain ⟨origin, inMap, mapped⟩ := LineMap.exists_of_mem_changeOrigins member
  obtain ⟨index, rfl, found⟩ := LineMap.exists_of_mem_numbered inMap
  rw [List.getElem?_map] at found
  obtain ⟨kept, here, rfl⟩ := Option.map_eq_some_iff.mp found
  obtain ⟨⟨mark, text⟩, produced, comes⟩ := exists_marked pass here
  have source := mark_sourceLines comes.le comes.mark
  rw [mapped, Option.map_some] at source
  simp only at source
  rw [source] at produced
  exact ⟨index, _, text, Nat.add_comm 1 index, rfl, produced⟩

/-- A kept line that is not in the line map is the empty line after Common. -/
theorem origin_of_unmapped (assembles : assemble common code pass = .ok assembled)
    {index : Nat} {kept : KeptLine}
    (found : (outcomeOf (combine common.toList code.toList).text).kept[index]? = some kept)
    (unmapped : ∀ input, (index + 1, input) ∉ assembled.attribution.lineMap.entries) :
    (combine common.toList code.toList).commonLines ≠ 0 ∧
      kept.origin = (combine common.toList code.toList).commonLines + 1 := by
  obtain ⟨⟨mark, text⟩, produced, comes⟩ := exists_marked pass found
  have source := mark_sourceLines comes.le comes.mark
  refine sourceLine?_eq_none_iff.mp ?_
  cases mapped : sourceLine? (combine common.toList code.toList).commonLines kept.origin with
  | none => rfl
  | some line =>
    rw [mapped, Option.map_some] at source
    simp only at source
    rw [source] at produced
    exact absurd (entry_of_source assembles produced).1 (unmapped _)

theorem commonLines_eq_zero_iff (assembles : assemble common code pass = .ok assembled) :
    assembled.attribution.commonLines = 0 ↔
      (combine common.toList code.toList).commonLines = 0 := by
  rw [(isAssembled assembles).commonLines, expandedCommonLines]
  split
  · simp [*]
  · rename_i some
    have positive := Text.lineCount_pos
      (outcomeOf (combine common.toList code.toList).commonText).codeText
    omega

/-- Common does not get longer. -/
theorem commonLines_le (assembles : assemble common code pass = .ok assembled) :
    assembled.attribution.commonLines ≤ Text.lineCount common.toList := by
  rw [(isAssembled assembles).commonLines]
  by_cases blank : Text.isAllBlank (dropContinuation common.toList) = true
  · rw [combine_of_blank blank]
    exact Nat.zero_le _
  · rw [expandedCommonLines_of_visible (Bool.not_eq_true _ ▸ blank)]
    have kept := length_run_le .initial 1 (Text.lines (dropContinuation common.toList))
    have lines : (Text.lines (dropContinuation common.toList)).length ≤
        Text.lineCount common.toList := lineCount_dropContinuation_le common.toList
    have positive := Text.lineCount_pos common.toList
    omega

/-- Beyond the lines of Common there are only lines of the pass. -/
theorem owner_of_beyond (assembles : assemble common code pass = .ok assembled) {index : Nat}
    {source : Source} {text : List Char}
    (produced : (expandedSources common.toList code.toList pass)[index]? =
      some ⟨some source, text⟩)
    (beyond : assembled.attribution.commonLines ≤ index) : source.1 = pass := by
  obtain ⟨kept, found, comes⟩ := exists_kept produced
  obtain ⟨line, mapped, same⟩ :=
    Option.map_eq_some_iff.mp (mark_sourceLines comes.le comes.mark).symm
  rw [← same]
  by_cases blank : Text.isAllBlank (dropContinuation common.toList) = true
  · rw [combine_of_blank blank]
    exact if_neg (Nat.not_le_of_lt comes.le)
  · have visible := Bool.not_eq_true _ ▸ blank
    rw [(isAssembled assembles).commonLines, expandedCommonLines_of_visible visible] at beyond
    obtain ⟨separator, -, side⟩ := @exists_side _ code.toList visible
    refine if_neg (Nat.not_le_of_lt ?_)
    rcases side index kept found with ⟨inFront, -⟩ | ⟨-, between⟩ | ⟨-, after⟩
    · omega
    · omega
    · omega

/-- Only one line that is shown can be missing from the line map. -/
theorem first_of_unmapped (assembles : assemble common code pass = .ok assembled)
    {index output floor : Nat} {source : Source} {text : List Char} (positive : 1 ≤ floor)
    (above : floor ≤ output)
    (produced : (expandedSources common.toList code.toList pass)[index]? =
      some ⟨some source, text⟩)
    (behind : floor ≤ index + 1)
    (none : assembled.attribution.lineMap.nearest? output floor = none) :
    output = floor ∧ (combine common.toList code.toList).commonLines ≠ 0 := by
  have later := LineMap.lt_of_nearest?_eq_none none (entry_of_source assembles produced).1 behind
  obtain ⟨last, found, -⟩ := exists_kept produced
  have inside := (List.getElem?_eq_some_iff.mp found).1
  have unmapped : ∀ line, floor ≤ line + 1 → line + 1 ≤ output → ∀ input,
      (line + 1, input) ∉ assembled.attribution.lineMap.entries := fun line from' upTo input entry =>
    absurd (LineMap.lt_of_nearest?_eq_none none entry from') (Nat.not_lt_of_le upTo)
  have atFloor := origin_of_unmapped assembles
    (List.getElem?_eq_getElem (show floor - 1 < _ by omega))
    (unmapped (floor - 1) (by omega) (by omega))
  have atOutput := origin_of_unmapped assembles
    (List.getElem?_eq_getElem (show output - 1 < _ by omega))
    (unmapped (output - 1) (by omega) (by omega))
  refine ⟨?_, atFloor.1⟩
  by_contra different
  have ascending := List.pairwise_iff_getElem.mp (run_origins_ascending .initial 1
    (Text.lines (combine common.toList code.toList).text)) (floor - 1) (output - 1)
    (show floor - 1 < (outcomeOf (combine common.toList code.toList).text).kept.length by omega)
    (show output - 1 < (outcomeOf (combine common.toList code.toList).text).kept.length by omega)
    (by omega)
  have same := atFloor.2.trans atOutput.2.symm
  exact absurd same (Nat.ne_of_lt ascending)

end Assembled

/-! ## What is reported -/

/-- Does the expanded text show a line of the pass, behind the lines of Common? -/
def ShowsPass (common code : List Char) (pass : PassName) (commonLines : Nat) : Prop :=
  ∃ index source text, commonLines ≤ index ∧
    (expandedSources common code pass)[index]? = some ⟨some source, text⟩

/-- A place that is reported for a line of the expanded text, or for one of the head if it is
    zero. In a pass of which no line is shown, lines are counted on beyond its end. -/
structure IsWithin (common code : List Char) (pass : PassName) (attribution : Attribution)
    (line : Nat) (place : PassName × Nat) : Prop where
  owner : place.1 = .common ∨ place.1 = pass
  positive : 1 ≤ place.2
  inCommon : place.1 = .common → RespectsSeam common code pass attribution →
    place.2 ≤ Text.lineCount common
  inPass : place.1 = pass → ShowsPass common code pass attribution.commonLines →
    place.2 ≤ Text.lineCount code
  counted : place.1 = pass → ¬ ShowsPass common code pass attribution.commonLines →
    place.2 = max (line - attribution.skipped) 1

section Reported

variable {common code : String} {pass : PassName} {assembled : AssembledPass}

theorem isWithin_of_header (other : pass ≠ .common) (line : Nat) (header : line = 0) :
    IsWithin common.toList code.toList pass assembled.attribution line (pass, 1) := by
  refine ⟨.inr rfl, Nat.le_refl 1, fun same => absurd same other,
    fun _ _ => Text.lineCount_pos _, fun _ _ => ?_⟩
  rw [header, Nat.zero_sub]
  rfl

theorem isWithin_of_inside (other : pass ≠ .common)
    (assembles : assemble common code pass = .ok assembled) {line : Nat} (positive : 1 ≤ line)
    (inside : line ≤ assembled.attribution.commonLines) :
    IsWithin common.toList code.toList pass assembled.attribution line
      (assembled.attribution.expandedLine line) := by
  have pass_eq := (isAssembled assembles).pass_eq
  rw [Attribution.expandedLine_of_inside (pass_eq ▸ other) positive inside]
  have bound := commonLines_le assembles
  refine ⟨.inl rfl, Nat.le_max_right _ _, fun _ respects => ?_, fun same => absurd same.symm other,
    fun same => absurd same.symm other⟩
  refine Nat.max_le.mpr ⟨?_, Text.lineCount_pos _⟩
  cases found : assembled.attribution.lineMap.nearest? line 1 with
  | none => exact Nat.le_trans inside bound
  | some input =>
    obtain ⟨output, -, upTo, entry⟩ := LineMap.exists_of_nearest? found
    obtain ⟨index, source, text, rfl, rfl, produced⟩ := source_of_entry assembles entry
    have owner := respects index source text produced
    rw [Attribution.expandedLine_fst (pass_eq ▸ other), if_pos (Nat.le_trans upTo inside)] at owner
    exact (isLineOf_of_produced other produced).inCommon owner.symm

theorem isWithin_of_beyond (other : pass ≠ .common)
    (assembles : assemble common code pass = .ok assembled) {line : Nat}
    (beyond : assembled.attribution.commonLines < line) :
    IsWithin common.toList code.toList pass assembled.attribution line
      (assembled.attribution.expandedLine line) := by
  have pass_eq := (isAssembled assembles).pass_eq
  rw [Attribution.expandedLine_of_beyond (pass_eq ▸ other) beyond, pass_eq]
  cases found : assembled.attribution.lineMap.nearest? line
      (assembled.attribution.commonLines + 1) with
  | some input =>
    obtain ⟨output, from', -, entry⟩ := LineMap.exists_of_nearest? found
    obtain ⟨index, source, text, rfl, rfl, produced⟩ := source_of_entry assembles entry
    have behind := Nat.le_of_succ_le_succ from'
    have shown : ShowsPass common.toList code.toList pass assembled.attribution.commonLines :=
      ⟨index, source, text, behind, produced⟩
    have bound := (isLineOf_of_produced other produced).inPass
      (owner_of_beyond assembles produced behind)
    exact ⟨.inr rfl, Nat.le_max_right _ _, fun same => absurd same other,
      fun _ _ => Nat.max_le.mpr ⟨bound, Text.lineCount_pos _⟩,
      fun _ hidden => absurd shown hidden⟩
  | none =>
    refine ⟨.inr rfl, Nat.le_max_right _ _, fun same => absurd same other, fun _ shown => ?_,
      fun _ _ => rfl⟩
    obtain ⟨index, source, text, behind, produced⟩ := shown
    obtain ⟨first, some⟩ := first_of_unmapped assembles (Nat.succ_pos _) beyond produced
      (Nat.succ_le_succ behind) found
    have skips : assembled.attribution.skipped = assembled.attribution.commonLines + 1 :=
      if_neg ((commonLines_eq_zero_iff assembles).not.mpr some)
    have counted : line - assembled.attribution.skipped = 0 := by omega
    rw [Option.getD_none, counted]
    exact Text.lineCount_pos _

theorem startLine_lt (assembles : assemble common code pass = .ok assembled)
    (fits : assembled.finalSource.utf8ByteSize < 2 ^ 63) :
    assembled.attribution.startLine < 2 ^ 63 := by
  obtain ⟨precisions, -, -, start, parts⟩ := exists_compiled assembles
  have size := Text.length_le_utf8ByteSize assembled.finalSource.toList
  rw [String.ofList_toList, parts, List.length_append, List.length_append] at size
  have height : (Scaffold.head precisions).count '\n' ≤ _ := List.count_le_length
  omega

/-- Each line of the compiled text, and each line number beyond its end, is reported as a line
    of Common or of the pass, without an overflow. It lies inside that text, unless it lies behind Common and no
    line of the pass is shown there. -/
theorem finalLine_isWithin (other : pass ≠ .common)
    (assembles : assemble common code pass = .ok assembled)
    (fits : assembled.finalSource.utf8ByteSize < 2 ^ 63) {line : Nat} (small : line < 2 ^ 63) :
    ∃ place, assembled.attribution.finalLine line = .ok place ∧
      IsWithin common.toList code.toList pass assembled.attribution
        (line - assembled.attribution.startLine) place := by
  refine ⟨_, Attribution.finalLine_eq (startLine_lt assembles fits) small, ?_⟩
  by_cases header : line ≤ assembled.attribution.startLine
  · rw [Attribution.expandedLine_of_header (by omega), (isAssembled assembles).pass_eq]
    exact isWithin_of_header other _ (Nat.sub_eq_zero_of_le header)
  · have difference : (line : Int) - assembled.attribution.startLine =
        (line - assembled.attribution.startLine : Nat) := by omega
    rw [difference]
    by_cases inside : line - assembled.attribution.startLine ≤ assembled.attribution.commonLines
    · exact isWithin_of_inside other assembles (by omega) inside
    · exact isWithin_of_beyond other assembles (Nat.lt_of_not_le inside)

end Reported

section Default

/-! A pass that states no precision is compiled below the default head. -/

theorem length_head_default : (Scaffold.head Scaffold.defaultPrecisions).length ≤ 2430 := by
  have short : ∀ line ∈ Scaffold.headLines Scaffold.defaultPrecisions, line.length ≤ 80 := by
    have stated : ∀ line ∈ Scaffold.defaultPrecisions.map Scaffold.Precision.statement,
        line.length ≤ 80 := by decide +kernel
    intro line member
    rcases List.mem_append.mp member with inFront | declared
    · rcases List.mem_cons.mp inFront with rfl | isStatement
      · exact Scaffold.isFixed_version.short
      · exact stated line isStatement
    · exact (Scaffold.isFixed_declarations line declared).short
  have bound := Text.length_terminated_le short
  rwa [Scaffold.length_headLines, ← Scaffold.head_eq_terminated] at bound

theorem length_tail : Scaffold.tail.length ≤ 325 := by
  have bound := Text.length_terminated_le fun line member =>
    (Scaffold.isFixed_closing line member).short
  rw [Scaffold.tail_eq_terminated, List.length_cons]
  exact Nat.succ_le_succ bound

variable {common code : String} {pass : PassName} {assembled : AssembledPass}

theorem startLine_of_default (assembles : assemble common code pass = .ok assembled)
    (default : Scaffold.statements (Text.lines
      (outcomeOf (combine common.toList code.toList).text).codeText) = []) :
    assembled.attribution.startLine = 30 := by
  obtain ⟨precisions, isHead, -, start, -⟩ := exists_compiled assembles
  rw [start, Scaffold.count_head isHead.isValid, isHead.eq_default default,
    Scaffold.length_headLines]
  rfl

theorem fits_of_default (assembles : assemble common code pass = .ok assembled)
    (default : Scaffold.statements (Text.lines
      (outcomeOf (combine common.toList code.toList).text).codeText) = [])
    (short : assembled.expandedCode.toList.length ≤ 1000) :
    assembled.finalSource.utf8ByteSize < 2 ^ 63 := by
  obtain ⟨precisions, isHead, -, -, parts⟩ := exists_compiled assembles
  have size := Text.utf8ByteSize_le assembled.finalSource.toList
  have before := length_head_default
  have behind := length_tail
  rw [String.ofList_toList, parts, isHead.eq_default default, List.length_append,
    List.length_append] at size
  omega

end Default

section Pair

/-! A Common and a pass of one line each. -/

private theorem isPlain_pair : ∀ line ∈ ["int a;".toList, [], "int b;".toList], IsPlain line := by
  simp only [List.forall_mem_cons, List.not_mem_nil, false_imp_iff, implies_true, and_true]
  exact ⟨⟨by decide, by decide +kernel⟩, ⟨by decide, by decide +kernel⟩,
    ⟨by decide, by decide +kernel⟩⟩

private theorem outcome_pair :
    (outcomeOf (combine "int a;".toList "int b;".toList).text).errors = [] ∧
      (outcomeOf (combine "int a;".toList "int b;".toList).text).codeText =
        Text.unlines ["int a;".toList, [], "int b;".toList] := by
  have lines : Text.lines (combine "int a;".toList "int b;".toList).text =
      ["int a;".toList, [], "int b;".toList] := by decide
  obtain ⟨sound, kept⟩ := outcome_of_isPlain lines isPlain_pair
  refine ⟨sound, ?_⟩
  rw [Outcome.codeText, kept]
  rfl

theorem finalLine_isWithin_pair :
    ∃ assembled, assemble "int a;" "int b;" .image = .ok assembled ∧
      assembled.finalSource.utf8ByteSize < 2 ^ 63 ∧
      ∃ place, assembled.attribution.finalLine 40 = .ok place ∧
        IsWithin "int a;".toList "int b;".toList .image assembled.attribution
          (40 - assembled.attribution.startLine) place := by
  obtain ⟨assembled, assembles⟩ := exists_assembled .image outcome_pair.1
  have fits : assembled.finalSource.utf8ByteSize < 2 ^ 63 := by
    refine fits_of_default assembles ?_ ?_
    · rw [outcome_pair.2]
      decide +kernel
    · rw [(isAssembled assembles).expandedCode, outcome_pair.2]
      decide +kernel
  exact ⟨assembled, assembles, fits, finalLine_isWithin (by decide) assembles fits (by decide)⟩

end Pair

section Hidden

/-! A pass that consists of a directive, without a Common. -/

private theorem run_hidden : run .initial 1 ["#define X 1".toList] =
    ([], State.initial.directive 1 (.define "X 1".toList)) := by
  have joins : Directive.joinContinuations (Text.trim "#define X 1".toList) [] =
      ("#define X 1".toList, [], []) := by decide
  have defines : Directive.ofText "#define X 1".toList = .define "X 1".toList := by decide +kernel
  rw [run_directive (by decide) joins, defines, run]
  rfl

private theorem outcome_hidden :
    (outcomeOf (combine "".toList "#define X 1".toList).text).errors = [] ∧
      (outcomeOf (combine "".toList "#define X 1".toList).text).kept = [] := by
  have lines : Text.lines (combine "".toList "#define X 1".toList).text =
      ["#define X 1".toList] := by decide
  refine ⟨?_, ?_⟩
  · rw [errors_eq_nil_iff, lines, run_hidden]
    exact ⟨by decide +kernel, by decide +kernel⟩
  · show (run .initial 1 (Text.lines _)).1 = _
    rw [lines, run_hidden]

/-- The only line of the pass is line 1, but a line of the compiled text is reported as its
    line 2. -/
theorem not_inPass_hidden :
    ∃ assembled, assemble "" "#define X 1" .image = .ok assembled ∧
      assembled.attribution.finalLine 32 = .ok (.image, 2) ∧
      ¬ 2 ≤ Text.lineCount "#define X 1".toList := by
  obtain ⟨assembled, assembles⟩ := exists_assembled .image outcome_hidden.1
  have result := isAssembled assembles
  refine ⟨assembled, assembles, ?_, by decide⟩
  have start : assembled.attribution.startLine = 30 := by
    refine startLine_of_default assembles ?_
    rw [Outcome.codeText, outcome_hidden.2]
    decide +kernel
  have alone : assembled.attribution.commonLines = 0 := by
    rw [result.commonLines, combine_of_blank (by decide)]
    rfl
  have unmapped : assembled.attribution.lineMap.entries = [] := by
    rw [result.lineMap, sourceLineMap, Outcome.lineMap, outcome_hidden.2]
    rfl
  have second : assembled.attribution.finalLine 32 =
      .ok (assembled.attribution.expandedLine (2 : Nat)) := by
    rw [Attribution.finalLine_eq (by rw [start]; decide) (by decide), start]
    rfl
  rw [second, Attribution.expandedLine_of_beyond (by rw [result.pass_eq]; decide)
    (by rw [alone]; decide), result.pass_eq, LineMap.nearest?, unmapped, Attribution.skipped, alone]
  rfl

end Hidden

end Multipass.Assembly
