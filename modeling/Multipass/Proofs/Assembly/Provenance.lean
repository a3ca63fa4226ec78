import Multipass.Proofs.Assembly.Within

/-!
# From a line of the compiled text back to its source

When Common stands alone, the way back from the compiled text is exact: a line that was
made from a line of Common or of the pass is reported as that very line.
-/

namespace Multipass.Assembly

open Preprocess

/-- Common is blank, or it can be preprocessed alone and does not end in a backslash,
    blanks at the end aside. -/
def StandsAlone (common : List Char) : Prop :=
  Text.isAllBlank (dropContinuation common) = true ∨
    (outcomeOf (dropContinuation common)).errors = [] ∧
      ∀ last ∈ (Text.lines (dropContinuation common)).getLast?,
        (Text.trimEnd last).getLast? ≠ some '\\'

/-- A Common that stands alone keeps the empty line after it. -/
theorem StandsAlone.separated {common : List Char} (alone : StandsAlone common) :
    Text.isAllBlank (dropContinuation common) = true ∨
      ¬ LosesSeparator (dropContinuation common) := by
  rcases alone with blank | ⟨sound, noContinuation⟩
  · exact .inl blank
  · refine .inr ?_
    intro loses
    rcases loses.2 with opens | inactive
    · obtain ⟨last, isLast, ends⟩ := last_of_endsOpen opens
      exact noContinuation last isLast ends
    · have closed := ((errors_eq_nil_iff _).mp sound).2
      rw [State.active, closed] at inactive
      exact absurd inactive (by decide)

theorem sourceLine?_pos {commonLines line result : Nat} (le : 1 ≤ line)
    (found : sourceLine? commonLines line = some result) : 1 ≤ result := by
  unfold sourceLine? at found
  split at found
  · simp only [Option.some.injEq] at found
    omega
  · split at found
    · simp only [Option.some.injEq] at found
      omega
    · simp at found

variable {common code : String} {pass : PassName} {assembled : AssembledPass}

/-- A line of the compiled text that was made from a line of Common or of the pass is
    reported as that line, and what stands there is what that line gave. The bound says that
    the number of the line is one that a signed word can hold; the lines of a text that fits
    into a string have such numbers. -/
theorem finalLine_of_source (other : pass ≠ .common)
    (assembles : assemble common code pass = .ok assembled) (alone : StandsAlone common.toList)
    {index : Nat} (small : assembled.attribution.startLine + (index + 1) < 2 ^ 63)
    {source : Source} {text : List Char}
    (produced : (expandedSources common.toList code.toList pass)[index]? =
      some ⟨some source, text⟩) :
    (Text.lines assembled.expandedCode.toList)[index]? = some (Scaffold.relocatedLine text) ∧
      assembled.attribution.finalLine (assembled.attribution.startLine + (index + 1)) =
        .ok source := by
  have respects := respectsSeam_of_separated other assembles alone.separated
  obtain ⟨entry, shown⟩ := entry_of_source assembles produced
  refine ⟨shown, ?_⟩
  obtain ⟨kept, found, comes⟩ := exists_kept produced
  rw [Attribution.finalLine_add small]
  refine congrArg Except.ok (Prod.ext (respects index source text produced)
    (Attribution.expandedLine_snd entry ?_))
  obtain ⟨line, mapped, same⟩ :=
    Option.map_eq_some_iff.mp (mark_sourceLines comes.le comes.mark).symm
  rw [← same]
  exact sourceLine?_pos comes.le mapped

private theorem isPlain_beside : ∀ line ∈ ["float a;".toList, [], "float b;".toList],
    IsPlain line := by
  intro line member
  simp only [List.mem_cons, List.not_mem_nil, or_false] at member
  rcases member with rfl | rfl | rfl
  · exact ⟨by decide, by decide +kernel⟩
  · exact ⟨by decide, by decide +kernel⟩
  · exact ⟨by decide, by decide +kernel⟩

private theorem standsAlone_beside : StandsAlone "float a;".toList := by
  refine .inr ⟨?_, by decide⟩
  have lines : Text.lines (dropContinuation "float a;".toList) = ["float a;".toList] := by decide
  have plain : ∀ line ∈ ["float a;".toList], IsPlain line := fun line member =>
    isPlain_beside line (by simp_all)
  exact (outcome_of_isPlain lines plain).1

theorem finalLine_of_source_beside :
    ∃ assembled, assemble "float a;" "float b;" .image = .ok assembled ∧
      StandsAlone "float a;".toList ∧ assembled.attribution.startLine + 3 < 2 ^ 63 ∧
      (Text.lines assembled.expandedCode.toList)[2]? =
        some (Scaffold.relocatedLine "float b;".toList) ∧
      assembled.attribution.finalLine (assembled.attribution.startLine + 3) = .ok (.image, 1) := by
  have lines : Text.lines (combine "float a;".toList "float b;".toList).text =
      ["float a;".toList, [], "float b;".toList] := by decide
  obtain ⟨sound, kept⟩ := outcome_of_isPlain lines isPlain_beside
  have produced : (expandedSources "float a;".toList "float b;".toList .image)[2]? =
      some ⟨some (.image, 1), "float b;".toList⟩ := by
    rw [expandedSources, runMarked_of_isPlain]
    · decide
    · intro line member
      refine isPlain_beside line.text ?_
      rw [← lines, ← texts_sourceLines _ _ .image]
      exact List.mem_map_of_mem member
  obtain ⟨assembled, assembles⟩ := exists_assembled .image sound
  have small : assembled.attribution.startLine + 3 < 2 ^ 63 := by
    rw [startLine_of_default assembles]
    · decide
    · rw [Outcome.codeText, kept]
      decide +kernel
  exact ⟨assembled, assembles, standsAlone_beside, small,
    finalLine_of_source (by decide) assembles standsAlone_beside small produced⟩

end Multipass.Assembly
