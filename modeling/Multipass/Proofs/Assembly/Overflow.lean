import Multipass.Proofs.Assembly.Within

/-!
# Line numbers that are too great

A line number is a word that is read as a signed one. From `2 ^ 63` on it is negative: for the
first of these numbers, as many as the scaffold has lines above the code, the difference
overflows, and each of the others counts as a line of the scaffold. The exact difference would
give the last mapped line for all of them.
-/

namespace Multipass

namespace LineMap

/-- From the last mapped line on, that line is the nearest. -/
theorem nearest?_of_greatest {map : LineMap} {output floor last origin : Nat}
    (member : (last, origin) ∈ map.entries) (greatest : ∀ entry ∈ map.entries, entry.1 ≤ last)
    (above : floor ≤ last) (beyond : last ≤ output) : map.nearest? output floor = some origin := by
  rw [nearest?, getLast?_of_greatest (map.ascending.filter _)
    (List.mem_filter.mpr ⟨member, by simp [above, beyond]⟩), Option.map_some]
  intro other kept
  exact greatest other (List.mem_of_mem_filter kept)

end LineMap

namespace Attribution

variable {attribution : Attribution} {line : Nat}

theorem expandedLine_of_common (common : attribution.pass = .common) {output : Nat}
    (positive : 1 ≤ output) :
    attribution.expandedLine output =
      (attribution.pass, max ((attribution.lineMap.nearest? output 1).getD output) 1) := by
  have alone : ¬ (attribution.pass ≠ .common ∧ 0 < attribution.commonLines) :=
    fun both => both.1 common
  rw [expandedLine, if_neg (by omega), Int.toNat_natCast]
  simp only
  rw [if_neg fun both => alone both.1, if_neg alone]

/-- The last mapped line is a line of the pass. -/
structure EndsAt (attribution : Attribution) (last : Nat) : Prop where
  mapped : ∃ origin, (last, origin) ∈ attribution.lineMap.entries
  greatest : ∀ entry ∈ attribution.lineMap.entries, entry.1 ≤ last
  behind : attribution.pass ≠ .common → attribution.commonLines < last

/-- From the last mapped line on, each line gets the line of that one. -/
theorem EndsAt.expandedLine_eq {last : Nat} (ends : attribution.EndsAt last)
    (positive : 1 ≤ last) {output : Nat} (beyond : last ≤ output) :
    attribution.expandedLine output = attribution.expandedLine last := by
  obtain ⟨origin, member⟩ := ends.mapped
  by_cases common : attribution.pass = .common
  · rw [expandedLine_of_common common positive,
      expandedLine_of_common common (Nat.le_trans positive beyond),
      LineMap.nearest?_of_greatest member ends.greatest positive beyond,
      LineMap.nearest?_of_greatest member ends.greatest positive (Nat.le_refl last)]
    rfl
  · have behind := ends.behind common
    rw [expandedLine_of_beyond common behind,
      expandedLine_of_beyond common (Nat.lt_of_lt_of_le behind beyond),
      LineMap.nearest?_of_greatest member ends.greatest behind beyond,
      LineMap.nearest?_of_greatest member ends.greatest behind (Nat.le_refl last)]
    rfl

end Attribution

namespace Assembly

open Preprocess

section Assembled

variable {common code : String} {pass : PassName} {assembled : AssembledPass}

theorem lineCount_finalSource (assembles : assemble common code pass = .ok assembled) :
    assembled.attribution.startLine + Text.lineCount assembled.expandedCode.toList ≤
      Text.lineCount assembled.finalSource.toList := by
  obtain ⟨precisions, -, -, start, parts⟩ := exists_compiled assembles
  rw [Text.lineCount_eq_count, Text.lineCount_eq_count, parts, List.count_append,
    List.count_append, start]
  omega

/-- A mapped line is a line of the compiled text. -/
theorem le_lineCount_of_entry (assembles : assemble common code pass = .ok assembled)
    {output input : Nat} (member : (output, input) ∈ assembled.attribution.lineMap.entries) :
    1 ≤ output ∧
      assembled.attribution.startLine + output ≤ Text.lineCount assembled.finalSource.toList := by
  obtain ⟨index, source, text, rfl, -, produced⟩ := source_of_entry assembles member
  have shown := (entry_of_source assembles produced).2
  have inside : index + 1 ≤ Text.lineCount assembled.expandedCode.toList :=
    (List.getElem?_eq_some_iff.mp shown).1
  have below := lineCount_finalSource assembles
  exact ⟨Nat.le_add_left 1 index, by omega⟩

theorem lineCount_finalSource_lt (assembles : assemble common code pass = .ok assembled)
    (fits : assembled.finalSource.utf8ByteSize < 2 ^ 63) :
    Text.lineCount assembled.finalSource.toList < 2 ^ 63 := by
  obtain ⟨precisions, -, -, -, parts⟩ := exists_compiled assembles
  have visible : Text.isAllBlank assembled.finalSource.toList = false := by
    rw [parts]
    exact List.all_eq_false.mpr ⟨'v', List.mem_append_right _ (by decide), by decide⟩
  have size := Text.length_le_utf8ByteSize assembled.finalSource.toList
  rw [String.ofList_toList] at size
  exact Nat.lt_of_le_of_lt (Nat.le_trans (Text.lineCount_le_length visible) size) fits

section Ends

variable {last : Nat}

theorem expandedLine_of_endsAt (assembles : assemble common code pass = .ok assembled)
    (ends : assembled.attribution.EndsAt last) {line : Nat}
    (beyond : assembled.attribution.startLine + last ≤ line) :
    assembled.attribution.expandedLine ((line : Int) - assembled.attribution.startLine) =
      assembled.attribution.expandedLine last := by
  obtain ⟨origin, member⟩ := ends.mapped
  have positive := (le_lineCount_of_entry assembles member).1
  have difference : (line : Int) - assembled.attribution.startLine =
      (line - assembled.attribution.startLine : Nat) := by omega
  rw [difference]
  apply ends.expandedLine_eq positive
  omega

/-- The last line of the compiled text gets the line of the last mapped one. -/
theorem finalLine_lineCount (assembles : assemble common code pass = .ok assembled)
    (fits : assembled.finalSource.utf8ByteSize < 2 ^ 63)
    (ends : assembled.attribution.EndsAt last) :
    assembled.attribution.finalLine (Text.lineCount assembled.finalSource.toList) =
      .ok (assembled.attribution.expandedLine last) := by
  obtain ⟨origin, member⟩ := ends.mapped
  rw [Attribution.finalLine_eq (startLine_lt assembles fits)
    (lineCount_finalSource_lt assembles fits)]
  exact congrArg Except.ok
    (expandedLine_of_endsAt assembles ends (le_lineCount_of_entry assembles member).2)

end Ends

/-- The line that is reported is that of the exact difference for each number below `2 ^ 63`.
From there on the difference overflows, or the line is the first one of the pass, though the
exact difference gives there what is reported for the last line of the compiled text, if the last
mapped line is a line of the pass. -/
theorem finalLine_exact (assembles : assemble common code pass = .ok assembled)
    (fits : assembled.finalSource.utf8ByteSize < 2 ^ 63) {line : Nat} (isWord : line < 2 ^ 64) :
    assembled.attribution.finalLine line =
        (if line < 2 ^ 63 then
          .ok (assembled.attribution.expandedLine
            ((line : Int) - assembled.attribution.startLine))
        else if line < 2 ^ 63 + assembled.attribution.startLine then .error .subtraction
        else .ok (pass, 1)) ∧
      ∀ last, assembled.attribution.EndsAt last → assembled.attribution.startLine + last ≤ line →
        assembled.attribution.finalLine (Text.lineCount assembled.finalSource.toList) =
          .ok (assembled.attribution.expandedLine
            ((line : Int) - assembled.attribution.startLine)) := by
  have height := startLine_lt assembles fits
  constructor
  · by_cases small : line < 2 ^ 63
    · rw [if_pos small, Attribution.finalLine_eq height small]
    · rw [if_neg small, Attribution.finalLine_of_le height (Nat.le_of_not_lt small) isWord,
        (isAssembled assembles).pass_eq]
  · intro last ends beyond
    rw [finalLine_lineCount assembles fits ends, expandedLine_of_endsAt assembles ends beyond]

end Assembled

section Fields

/-! A pass of two lines, without a Common. -/

private theorem isPlain_fields : ∀ line ∈ ["float a;".toList, "float b;".toList], IsPlain line := by
  simp only [List.forall_mem_cons, List.not_mem_nil, false_imp_iff, implies_true, and_true]
  exact ⟨⟨by decide, by decide +kernel⟩, ⟨by decide, by decide +kernel⟩⟩

private theorem outcome_fields :
    (outcomeOf (combine "".toList "float a;\nfloat b;".toList).text).errors = [] ∧
      (outcomeOf (combine "".toList "float a;\nfloat b;".toList).text).kept =
        keepFrom 1 ["float a;".toList, "float b;".toList] :=
  outcome_of_isPlain (by decide +kernel) isPlain_fields

private theorem fields_fits {assembled : AssembledPass}
    (assembles : assemble "" "float a;\nfloat b;" .image = .ok assembled) :
    assembled.attribution.startLine = 30 ∧ assembled.finalSource.utf8ByteSize < 2 ^ 63 := by
  have default : Scaffold.statements (Text.lines
      (outcomeOf (combine "".toList "float a;\nfloat b;".toList).text).codeText) = [] := by
    rw [Outcome.codeText, outcome_fields.2]
    decide +kernel
  refine ⟨startLine_of_default assembles default, fits_of_default assembles default ?_⟩
  rw [(isAssembled assembles).expandedCode, Outcome.codeText, outcome_fields.2]
  decide +kernel

/-- The second line is the last one, and it is mapped. -/
private theorem fields_endsAt {assembled : AssembledPass}
    (assembles : assemble "" "float a;\nfloat b;" .image = .ok assembled) :
    assembled.attribution.EndsAt 2 ∧
      assembled.attribution.expandedLine (2 : Nat) = (.image, 2) := by
  have result := isAssembled assembles
  have entries : assembled.attribution.lineMap.entries = [(1, 1), (2, 2)] := by
    rw [result.lineMap, sourceLineMap, Outcome.lineMap, outcome_fields.2]
    rfl
  have alone : assembled.attribution.commonLines = 0 := by
    rw [result.commonLines, combine_of_blank (by decide)]
    rfl
  have behind : assembled.attribution.commonLines < 2 := by
    rw [alone]
    decide
  have mapped : (2, 2) ∈ assembled.attribution.lineMap.entries := by simp [entries]
  refine ⟨⟨⟨2, mapped⟩, by simp [entries], fun _ => behind⟩, ?_⟩
  rw [Attribution.expandedLine_of_beyond (by rw [result.pass_eq]; decide) behind, result.pass_eq,
    LineMap.nearest?_of_mem mapped behind]
  rfl

theorem finalLine_exact_fields :
    ∃ assembled, assemble "" "float a;\nfloat b;" .image = .ok assembled ∧
      assembled.finalSource.utf8ByteSize < 2 ^ 63 ∧ 2 ^ 64 - 1 < 2 ^ 64 ∧
      assembled.attribution.EndsAt 2 ∧ assembled.attribution.startLine + 2 ≤ 2 ^ 64 - 1 ∧
      assembled.attribution.finalLine (2 ^ 64 - 1) = .ok (.image, 1) ∧
      assembled.attribution.finalLine (Text.lineCount assembled.finalSource.toList) =
        .ok (assembled.attribution.expandedLine
          (((2 ^ 64 - 1 : Nat) : Int) - assembled.attribution.startLine)) := by
  obtain ⟨assembled, assembles⟩ := exists_assembled .image outcome_fields.1
  obtain ⟨start, fits⟩ := fields_fits assembles
  have ends := (fields_endsAt assembles).1
  have beyond : assembled.attribution.startLine + 2 ≤ 2 ^ 64 - 1 := by
    rw [start]
    decide
  have isWord : 2 ^ 64 - 1 < 2 ^ 64 := by decide
  obtain ⟨reported, last⟩ := finalLine_exact assembles fits isWord
  refine ⟨assembled, assembles, fits, isWord, ends, beyond, ?_, last 2 ends beyond⟩
  rw [reported, start]
  rfl

/-- The line number `2 ^ 63` overflows and the greatest one is reported as line 1, but the exact
difference gives line 2 for both, as the last line of the compiled text does. -/
theorem not_finalLine_exact :
    ∃ assembled, assemble "" "float a;\nfloat b;" .image = .ok assembled ∧
      assembled.attribution.EndsAt 2 ∧
      assembled.attribution.finalLine (2 ^ 63) = .error .subtraction ∧
      assembled.attribution.finalLine (2 ^ 64 - 1) = .ok (.image, 1) ∧
      assembled.attribution.expandedLine
        (((2 ^ 63 : Nat) : Int) - assembled.attribution.startLine) = (.image, 2) ∧
      assembled.attribution.expandedLine
        (((2 ^ 64 - 1 : Nat) : Int) - assembled.attribution.startLine) = (.image, 2) ∧
      assembled.attribution.finalLine (Text.lineCount assembled.finalSource.toList) =
        .ok (.image, 2) := by
  obtain ⟨assembled, assembles⟩ := exists_assembled .image outcome_fields.1
  obtain ⟨start, fits⟩ := fields_fits assembles
  obtain ⟨ends, second⟩ := fields_endsAt assembles
  have height := startLine_lt assembles fits
  refine ⟨assembled, assembles, ends, ?_, ?_, ?_, ?_, ?_⟩
  · rw [Attribution.finalLine_of_le height (by decide) (by decide), start]
    rfl
  · rw [Attribution.finalLine_of_le height (by decide) (by decide), start,
      (isAssembled assembles).pass_eq]
    rfl
  · rw [expandedLine_of_endsAt assembles ends (by rw [start]; decide)]
    exact second
  · rw [expandedLine_of_endsAt assembles ends (by rw [start]; decide)]
    exact second
  · rw [finalLine_lineCount assembles fits ends]
    exact congrArg Except.ok second

end Fields

end Assembly

end Multipass
