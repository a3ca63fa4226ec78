import Multipass.Proofs.Assembly.Sources
import Multipass.Proofs.Attribution
import Multipass.Proofs.Preprocess.Seam

/-!
# The seam between Common and a pass

How many lines of the expanded text belong to Common is found by preprocessing Common
alone, and no output at all counts as one line. That one line is the empty line that
separates the two texts. When Common loses it, the line is the first of the pass.
-/

namespace Multipass.Assembly

open Preprocess

/-- No line of the expanded text that has a source is attributed to another pass. -/
def RespectsSeam (common code : List Char) (pass : PassName) (attribution : Attribution) : Prop :=
  ∀ index source text, (expandedSources common code pass)[index]? = some ⟨some source, text⟩ →
    (attribution.expandedLine (index + 1 : Nat)).1 = source.1

/-- Preprocessed alone, Common keeps nothing, and the empty line after it is lost as
    well: a directive goes on into it, or it lies in a branch that is left out. -/
def LosesSeparator (common : List Char) : Prop :=
  (run .initial 1 (Text.lines common)).1 = [] ∧
    (endsOpen .initial 1 (Text.lines common) = true ∨
      (run .initial 1 (Text.lines common)).2.active = false)

variable {common code : List Char} {pass : PassName}

theorem expandedCommonLines_of_visible (visible : Text.isAllBlank (dropContinuation common) = false) :
    expandedCommonLines (combine common code) =
      max (run .initial 1 (Text.lines (dropContinuation common))).1.length 1 := by
  have positive := Text.lineCount_pos (dropContinuation common)
  rw [combine_of_visible visible, expandedCommonLines, if_neg (by simp only; omega)]
  exact lineCount_codeText _

theorem commonLines_pos (visible : Text.isAllBlank (dropContinuation common) = false) :
    0 < (combine common code).commonLines := by
  rw [combine_of_visible visible]
  exact Text.lineCount_pos _

theorem sourceLine?_separator {commonLines : Nat} (positive : 0 < commonLines) :
    sourceLine? commonLines (commonLines + 1) = none := by
  rw [sourceLine?, if_neg (by omega), if_neg (Nat.lt_irrefl _)]

theorem sourceLine?_beyond {commonLines line : Nat} (positive : 0 < commonLines)
    (beyond : commonLines + 1 < line) :
    sourceLine? commonLines line = some (line - commonLines - 1) := by
  rw [sourceLine?, if_neg (by omega), if_pos beyond]

/-- Where the kept lines of the combined text stand: those of Common first, then what
    is left of the empty line, then those of the pass. -/
theorem exists_side (visible : Text.isAllBlank (dropContinuation common) = false) :
    ∃ separator : Nat,
      ((run .initial 1 (Text.lines (dropContinuation common))).1 = [] →
        (separator = 0 ↔ LosesSeparator (dropContinuation common))) ∧
      ∀ index kept, (outcomeOf (combine common code).text).kept[index]? = some kept →
        (index < (run .initial 1 (Text.lines (dropContinuation common))).1.length ∧
          kept.origin ≤ (combine common code).commonLines) ∨
        (index < (run .initial 1 (Text.lines (dropContinuation common))).1.length + separator ∧
          kept.origin = (combine common code).commonLines + 1) ∨
        ((run .initial 1 (Text.lines (dropContinuation common))).1.length + separator ≤ index ∧
          (combine common code).commonLines + 1 < kept.origin) := by
  obtain ⟨separator, next, seam⟩ := exists_seam .initial 1
    (Text.lines (dropContinuation common)) (Text.lines code)
  refine ⟨separator.length, ?_, ?_⟩
  · intro nothing
    rw [List.length_eq_zero_iff, seam.empty_iff nothing]
    exact ⟨fun lost => ⟨nothing, lost⟩, fun loses => loses.2⟩
  · intro index kept found
    have inRun : (run .initial 1
        (Text.lines (dropContinuation common) ++ [] :: Text.lines code)).1[index]? = some kept := by
      rw [← lines_combined visible]
      exact found
    rw [commonLines_of_visible visible]
    rcases seam.side inRun with ⟨inFront, before⟩ | ⟨inside, between⟩ | ⟨beyond, after⟩
    · exact .inl ⟨inFront, by omega⟩
    · exact .inr (.inl ⟨inside, by omega⟩)
    · exact .inr (.inr ⟨beyond, by omega⟩)

section Assembled

variable {common code : String} {pass : PassName} {assembled : AssembledPass}

theorem expandedLine_fst_of_blank (other : pass ≠ .common)
    (assembles : assemble common code pass = .ok assembled)
    (blank : Text.isAllBlank (dropContinuation common.toList) = true) (index : Nat) :
    (assembled.attribution.expandedLine (index + 1 : Nat)).1 = pass := by
  have result := isAssembled assembles
  have none : assembled.attribution.commonLines = 0 := by
    rw [result.commonLines, combine_of_blank blank]
    rfl
  rw [Attribution.expandedLine_fst (result.pass_eq ▸ other), none, result.pass_eq]
  exact if_neg (Nat.not_succ_le_zero index)

theorem expandedLine_fst_of_visible (other : pass ≠ .common)
    (assembles : assemble common code pass = .ok assembled)
    (visible : Text.isAllBlank (dropContinuation common.toList) = false) (index : Nat) :
    (assembled.attribution.expandedLine (index + 1 : Nat)).1 =
      if index + 1 ≤ max (run .initial 1 (Text.lines (dropContinuation common.toList))).1.length 1
      then .common else pass := by
  have result := isAssembled assembles
  rw [Attribution.expandedLine_fst (result.pass_eq ▸ other), result.commonLines, result.pass_eq,
    expandedCommonLines_of_visible visible]

/-- The seam is respected as long as the empty line after Common takes the place of a
    Common that keeps nothing. -/
theorem respectsSeam_of_separated (other : pass ≠ .common)
    (assembles : assemble common code pass = .ok assembled)
    (separated : Text.isAllBlank (dropContinuation common.toList) = true ∨
      ¬ LosesSeparator (dropContinuation common.toList)) :
    RespectsSeam common.toList code.toList pass assembled.attribution := by
  intro index source text produced
  obtain ⟨kept, found, comes⟩ := exists_kept produced
  obtain ⟨line, mapped, same⟩ :=
    Option.map_eq_some_iff.mp (mark_sourceLines comes.le comes.mark).symm
  rw [← same]
  by_cases blank : Text.isAllBlank (dropContinuation common.toList) = true
  · rw [expandedLine_fst_of_blank other assembles blank, combine_of_blank blank]
    exact (if_neg (Nat.not_le_of_lt comes.le)).symm
  · have visible := Bool.not_eq_true _ ▸ blank
    obtain ⟨separator, lost, side⟩ := @exists_side _ code.toList visible
    have notLost := separated.resolve_left blank
    rw [expandedLine_fst_of_visible other assembles visible]
    rcases side index kept found with ⟨inFront, before⟩ | ⟨-, between⟩ | ⟨beyond, after⟩
    · rw [if_pos (by omega), if_pos before]
    · rw [between, sourceLine?_separator (commonLines_pos visible)] at mapped
      exact absurd mapped (by simp)
    · rw [if_neg (Nat.not_le_of_lt (Nat.lt_of_succ_lt after)), if_neg]
      cases alone : (run .initial 1 (Text.lines (dropContinuation common.toList))).1 with
      | nil =>
        have remains : separator ≠ 0 := fun zero => notLost ((lost alone).mp zero)
        simp only [List.length_nil]
        omega
      | cons first rest =>
        rw [alone, List.length_cons] at beyond
        simp only [List.length_cons]
        omega

/-- Without the empty line, the first kept line of the pass takes the place of Common. -/
theorem crosses_of_loses (other : pass ≠ .common)
    (assembles : assemble common code pass = .ok assembled)
    (visible : Text.isAllBlank (dropContinuation common.toList) = false)
    (loses : LosesSeparator (dropContinuation common.toList))
    (kept : expandedSources common.toList code.toList pass ≠ []) :
    ¬ RespectsSeam common.toList code.toList pass assembled.attribution := by
  intro respects
  obtain ⟨first, rest, sources⟩ := List.exists_cons_of_ne_nil kept
  have produced : (expandedSources common.toList code.toList pass)[0]? = some first := by
    rw [sources]
    rfl
  obtain ⟨line, found, comes⟩ := exists_kept produced
  obtain ⟨separator, lost, side⟩ := @exists_side _ code.toList visible
  have nothing : (run .initial 1 (Text.lines (dropContinuation common.toList))).1.length = 0 := by
    rw [loses.1]
    rfl
  have zero := (lost loses.1).mpr loses
  have beyond : (combine common.toList code.toList).commonLines + 1 < line.origin := by
    rcases side 0 line found with ⟨inFront, -⟩ | ⟨inside, -⟩ | ⟨-, after⟩
    · omega
    · omega
    · exact after
  have source := mark_sourceLines comes.le comes.mark
  rw [sourceLine?_beyond (commonLines_pos visible) beyond, Option.map_some,
    if_neg (Nat.not_le_of_lt (Nat.lt_of_succ_lt beyond))] at source
  have attributed := respects 0 _ first.text (by rw [produced, ← source])
  rw [expandedLine_fst_of_visible other assembles visible, nothing, if_pos (by omega)] at attributed
  exact other attributed.symm

/-- The seam is respected unless Common, preprocessed alone, keeps nothing and loses the
    empty line after it, while something of the pass is kept. -/
theorem respectsSeam_iff (other : pass ≠ .common)
    (assembles : assemble common code pass = .ok assembled) :
    RespectsSeam common.toList code.toList pass assembled.attribution ↔
      Text.isAllBlank (dropContinuation common.toList) = true ∨
        ¬ LosesSeparator (dropContinuation common.toList) ∨
        expandedSources common.toList code.toList pass = [] := by
  constructor
  · intro respects
    by_cases blank : Text.isAllBlank (dropContinuation common.toList) = true
    · exact .inl blank
    · by_cases loses : LosesSeparator (dropContinuation common.toList)
      · refine .inr (.inr ?_)
        by_contra kept
        exact crosses_of_loses other assembles (Bool.not_eq_true _ ▸ blank) loses kept respects
      · exact .inr (.inl loses)
  · intro safe
    rcases safe with blank | separated | nothing
    · exact respectsSeam_of_separated other assembles (.inl blank)
    · exact respectsSeam_of_separated other assembles (.inr separated)
    · intro index source text produced
      rw [nothing] at produced
      simp at produced

end Assembled

section Straddling

/-! A Common whose group is closed by the pass. -/

/-- The state inside a group that was opened on the first line and is left out. -/
private def skipping : State :=
  ⟨.empty, [⟨.ifDefined, 1, true, false, false, false⟩], false, [], []⟩

private theorem run_opening (rest : List (List Char)) :
    run .initial 1 ("#ifdef A".toList :: rest) = run skipping 2 rest := by
  have joins : Directive.joinContinuations (Text.trim "#ifdef A".toList) rest =
      ("#ifdef A".toList, [], rest) := by
    cases rest <;> rfl
  have opens : Directive.ofText "#ifdef A".toList = .openNamed .ifDefined true "A".toList := by
    decide +kernel
  rw [run_directive (by decide) joins, opens]
  rfl

private theorem run_straddling :
    run .initial 1 ["#ifdef A".toList, [], "#endif".toList, "float a;".toList] =
      ([⟨4, "float a;".toList⟩], .initial) := by
  have joins : Directive.joinContinuations (Text.trim "#endif".toList) ["float a;".toList] =
      ("#endif".toList, [], ["float a;".toList]) := by decide
  have closes : Directive.ofText "#endif".toList = .close := by decide +kernel
  have code : State.initial.codeLine 4 "float a;".toList = ("float a;".toList, .initial) :=
    codeLine_of_isPlain ⟨by decide, by decide +kernel⟩ 4
  rw [run_opening, run_skipped (by decide) (by decide), run_directive (by decide) joins, closes]
  show run .initial 4 ["float a;".toList] = _
  rw [run_code (by decide) rfl, code, run]

private theorem lines_straddling :
    Text.lines (combine "#ifdef A".toList "#endif\nfloat a;".toList).text =
      ["#ifdef A".toList, [], "#endif".toList, "float a;".toList] := by decide

private theorem exists_straddling :
    ∃ assembled, assemble "#ifdef A" "#endif\nfloat a;" .image = .ok assembled := by
  refine exists_assembled .image ?_
  rw [errors_eq_nil_iff, lines_straddling, run_straddling]
  exact ⟨rfl, rfl⟩

private theorem loses_straddling : LosesSeparator (dropContinuation "#ifdef A".toList) := by
  have alone : run .initial 1 (Text.lines (dropContinuation "#ifdef A".toList)) =
      ([], skipping) := by
    show run .initial 1 ("#ifdef A".toList :: []) = _
    rw [run_opening, run]
  unfold LosesSeparator
  rw [alone]
  exact ⟨rfl, .inr rfl⟩

theorem respectsSeam_iff_straddling :
    ∃ assembled, assemble "#ifdef A" "#endif\nfloat a;" .image = .ok assembled ∧
      (RespectsSeam "#ifdef A".toList "#endif\nfloat a;".toList .image assembled.attribution ↔
        Text.isAllBlank (dropContinuation "#ifdef A".toList) = true ∨
          ¬ LosesSeparator (dropContinuation "#ifdef A".toList) ∨
          expandedSources "#ifdef A".toList "#endif\nfloat a;".toList .image = []) := by
  obtain ⟨assembled, assembles⟩ := exists_straddling
  exact ⟨assembled, assembles, respectsSeam_iff (by decide) assembles⟩

/-- The pass closes the group that Common opens, and its line is attributed to Common. -/
theorem not_respectsSeam_straddling :
    ∃ assembled, assemble "#ifdef A" "#endif\nfloat a;" .image = .ok assembled ∧
      ¬ RespectsSeam "#ifdef A".toList "#endif\nfloat a;".toList .image
        assembled.attribution := by
  obtain ⟨assembled, assembles⟩ := exists_straddling
  refine ⟨assembled, assembles,
    crosses_of_loses (by decide) assembles (by decide) loses_straddling ?_⟩
  intro nothing
  have same := (expandedSources_comesFrom "#ifdef A".toList "#endif\nfloat a;".toList
    .image).length_eq
  have keeps : (outcomeOf (combine "#ifdef A".toList "#endif\nfloat a;".toList).text).kept =
      [⟨4, "float a;".toList⟩] := by
    show (run .initial 1 (Text.lines _)).1 = _
    rw [lines_straddling, run_straddling]
  rw [nothing, keeps] at same
  exact absurd same (by decide)

end Straddling

end Multipass.Assembly
