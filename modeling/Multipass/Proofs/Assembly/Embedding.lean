import Multipass.Proofs.Assembly.Sources
import Multipass.Proofs.Assembly.Template

/-!
# The code of a pass inside the compiled text

The compiled text is the template with the code in its place. The code keeps all its lines:
those that the head has instead are left empty, so every line of the code stands as many lines
further down in the compiled text as the head has lines.
-/

namespace Multipass

namespace Scaffold

theorem length_headLines (precisions : List Precision) :
    (headLines precisions).length = precisions.length + 28 := by
  rw [headLines, List.length_append, List.length_cons, List.length_map, List.length_map]
  rfl

theorem count_head {precisions : List Precision}
    (valid : ∀ precision ∈ precisions, precision.IsValid) :
    (head precisions).count '\n' = (headLines precisions).length := by
  rw [head_eq_terminated, Text.count_terminated (headLines_oneLine valid)]

/-- The lines of the head, of the code and of the tail are those of the compiled text. -/
theorem lines_compiled {precisions : List Precision}
    (valid : ∀ precision ∈ precisions, precision.IsValid) (code : List Char) :
    Text.lines (head precisions ++ code ++ tail) =
      headLines precisions ++ (Text.lines code ++ (closing ++ [[]])) := by
  have last : Text.lines (Text.terminated closing) = closing ++ [[]] := by
    rw [← List.append_nil (Text.terminated closing),
      Text.lines_terminated_append fun line member => (isFixed_closing line member).oneLine]
    rfl
  rw [head_eq_terminated, tail_eq_terminated, List.append_assoc,
    Text.lines_terminated_append (headLines_oneLine valid), Text.lines_append, last]

theorem headPrecisions_ne_nil (stated : List Precision) : headPrecisions stated ≠ [] := by
  intro none
  have length := congrArg List.length none
  rw [headPrecisions, List.length_append, List.length_map] at length
  exact absurd length (Nat.ne_of_gt (Nat.lt_of_lt_of_le (by decide) (Nat.le_add_right _ _)))

end Scaffold

namespace Assembly

open Preprocess Scaffold

/-- How the preprocessed code with the given lines lies in the compiled text. Lines are counted
    from zero here. -/
structure IsEmbedded (lines : List (List Char)) (precisions : List Precision)
    (assembled : AssembledPass) : Prop where
  count : Text.lineCount assembled.expandedCode.toList = lines.length
  header : ∀ (index : Nat) (line : List Char), lines[index]? = some line → IsHeaderLine line →
    (Text.lines assembled.expandedCode.toList)[index]? = some []
  others : ∀ (index : Nat) (line : List Char), lines[index]? = some line → ¬ IsHeaderLine line →
    (Text.lines assembled.expandedCode.toList)[index]? = some line
  offset : ∀ (index : Nat) (line : List Char),
    (Text.lines assembled.expandedCode.toList)[index]? = some line →
    (Text.lines assembled.finalSource.toList)[assembled.attribution.startLine + index]? = some line
  startLine : assembled.attribution.startLine = (headLines precisions).length
  stated : statements (headLines precisions) = precisions
  parts : assembled.finalSource.toList =
    head precisions ++ assembled.expandedCode.toList ++ tail
  filled : assembled.finalSource.toList = fill precisions assembled.expandedCode.toList

variable {common code : String} {pass : PassName} {assembled : AssembledPass}

/-- What the compiled text is made of. -/
theorem compiled_parts (assembles : assemble common code pass = .ok assembled) :
    let lines := Text.lines (outcomeOf (combine common.toList code.toList).text).codeText
    assembled.attribution.startLine =
        (head (headPrecisions (statedPrecisions lines))).count '\n' ∧
      assembled.finalSource.toList =
        head (headPrecisions (statedPrecisions lines)) ++ assembled.expandedCode.toList ++ tail := by
  by_cases fine : (outcomeOf (combine common.toList code.toList).text).isOk = true
  · simp only [assemble, fine, if_true, Except.ok.injEq] at assembles
    rw [← assembles]
    refine ⟨?_, ?_⟩
    · dsimp only
    · dsimp only
      rw [String.toList_ofList, String.toList_ofList]
  · simp [assemble, fine] at assembles

theorem exists_compiled (assembles : assemble common code pass = .ok assembled) :
    ∃ precisions, IsHead (Text.lines (outcomeOf (combine common.toList code.toList).text).codeText)
        precisions ∧ precisions ≠ [] ∧
      assembled.attribution.startLine = (head precisions).count '\n' ∧
      assembled.finalSource.toList =
        head precisions ++ assembled.expandedCode.toList ++ tail :=
  ⟨_, headPrecisions_isHead _, headPrecisions_ne_nil _, compiled_parts assembles⟩

/-- A pass that is assembled lies in the scaffold with all the lines of its code, and the head
    states one precision for each type. -/
theorem exists_isEmbedded (assembles : assemble common code pass = .ok assembled) :
    ∃ precisions,
      IsHead (Text.lines (outcomeOf (combine common.toList code.toList).text).codeText)
        precisions ∧
      IsEmbedded (Text.lines (outcomeOf (combine common.toList code.toList).text).codeText)
        precisions assembled := by
  obtain ⟨precisions, isHead, some, start, parts⟩ := exists_compiled assembles
  have valid := isHead.isValid
  have expanded := lines_expandedCode assembles
  have startLine : assembled.attribution.startLine = (headLines precisions).length :=
    start.trans (count_head valid)
  refine ⟨precisions, isHead, ?_, ?_, ?_, ?_, startLine, statements_headLines valid, parts,
    parts.trans (fill_eq some valid _).symm⟩
  · rw [Text.lineCount, expanded, List.length_map]
  · intro index line found isHeader
    rw [expanded, List.getElem?_map, found, Option.map_some, relocatedLine_of_isHeaderLine isHeader]
  · intro index line found notHeader
    rw [expanded, List.getElem?_map, found, Option.map_some,
      relocatedLine_of_not_isHeaderLine notHeader]
  · intro index line found
    rw [parts, lines_compiled valid, startLine,
      List.getElem?_append_right (Nat.le_add_right _ _), Nat.add_sub_cancel_left,
      List.getElem?_append_left (List.getElem?_eq_some_iff.mp found).1, found]

private theorem isPlain_stating :
    ∀ line ∈ ["precision lowp int;".toList, codePlace], IsPlain line := by
  simp only [List.forall_mem_cons, List.not_mem_nil, false_imp_iff, implies_true, and_true]
  exact ⟨⟨by decide +kernel, by decide +kernel⟩, ⟨by decide +kernel, by decide +kernel⟩⟩

/-- A pass with a precision statement and a text that looks like a placeholder. -/
theorem exists_isEmbedded_stating :
    ∃ assembled, assemble "" "precision lowp int;\n\x7b\x7bUSER_CODE\x7d\x7d" .image =
        .ok assembled ∧
      ∃ precisions, IsHead ["precision lowp int;".toList, codePlace] precisions ∧
        IsEmbedded ["precision lowp int;".toList, codePlace] precisions assembled := by
  have text : (combine "".toList "precision lowp int;\n\x7b\x7bUSER_CODE\x7d\x7d".toList).text =
      Text.unlines ["precision lowp int;".toList, codePlace] := by decide +kernel
  have lines : Text.lines (Text.unlines ["precision lowp int;".toList, codePlace]) =
      ["precision lowp int;".toList, codePlace] := by decide +kernel
  have ran := run_of_isPlain isPlain_stating 1
  have outcome : (outcomeOf (Text.unlines ["precision lowp int;".toList, codePlace])).errors = [] ∧
      (outcomeOf (Text.unlines ["precision lowp int;".toList, codePlace])).kept =
        keepFrom 1 ["precision lowp int;".toList, codePlace] := by
    refine ⟨?_, ?_⟩
    · rw [errors_eq_nil_iff, lines, ran]
      exact ⟨rfl, rfl⟩
    · show (run .initial 1 (Text.lines _)).1 = _
      rw [lines, ran]
  obtain ⟨assembled, assembles⟩ := exists_assembled .image (text ▸ outcome.1)
  refine ⟨assembled, assembles, ?_⟩
  have embedded := exists_isEmbedded assembles
  rw [text, Outcome.codeText, outcome.2] at embedded
  show ∃ precisions, IsHead _ precisions ∧ IsEmbedded _ precisions assembled
  rw [← lines]
  exact embedded

end Assembly

end Multipass
