import Multipass.Assembly.Assemble
import Multipass.Proofs.LineMap
import Multipass.Proofs.Preprocess.OneLine
import Multipass.Proofs.Preprocess.Run

/-!
# Where the lines of an expanded pass come from

The lines that are preprocessed for a pass are the lines of Common and the lines of
the pass, with an empty line in between. Marked with the text and the line that they
are, they show the source of every line of the expanded pass.
-/

namespace Multipass.Assembly

open Preprocess

/-- A line of a pass, counted from one. -/
abbrev Source := PassName × Nat

/-- The lines of a text, each with its source. -/
def markLines (pass : PassName) (lines : List (List Char)) : List (Marked (Option Source)) :=
  (lines.zipIdx 1).map fun (line, number) => ⟨some (pass, number), line⟩

/-- The lines that are preprocessed for a pass. The empty line after Common has no
    source. -/
def sourceLines (common code : List Char) (pass : PassName) : List (Marked (Option Source)) :=
  let common := dropContinuation common
  if Text.isAllBlank common then markLines pass (Text.lines code)
  else markLines .common (Text.lines common) ++ ⟨none, []⟩ :: markLines pass (Text.lines code)

/-- The lines of the expanded pass, each with the source it was made from. -/
def expandedSources (common code : List Char) (pass : PassName) : List (Marked (Option Source)) :=
  runMarked .initial 1 (sourceLines common code pass)

variable {common code : List Char} {pass : PassName}

theorem dropContinuation_sublist (text : List Char) : (dropContinuation text).Sublist text := by
  have trimmed : (Text.dropTrailing Text.isSpaceOrTab text).Sublist text := by
    rw [← List.reverse_sublist, Text.dropTrailing, List.reverse_reverse]
    exact List.dropWhile_sublist _
  unfold dropContinuation
  simp only
  split
  · exact (List.dropLast_sublist _).trans trimmed
  · exact List.Sublist.refl text

theorem texts_markLines (pass : PassName) (lines : List (List Char)) :
    texts (markLines pass lines) = lines := by
  unfold texts markLines
  rw [List.map_map]
  exact List.zipIdx_map_fst 1 lines

theorem combine_of_blank (blank : Text.isAllBlank (dropContinuation common) = true) :
    combine common code = ⟨dropContinuation common, 0, code⟩ := by
  rw [combine, if_pos blank]

theorem combine_of_visible (visible : Text.isAllBlank (dropContinuation common) = false) :
    combine common code = ⟨dropContinuation common, Text.lineCount (dropContinuation common),
      dropContinuation common ++ '\n' :: '\n' :: code⟩ := by
  rw [combine, if_neg (by rw [visible]; exact Bool.false_ne_true)]

theorem commonLines_of_visible (visible : Text.isAllBlank (dropContinuation common) = false) :
    (combine common code).commonLines = (Text.lines (dropContinuation common)).length := by
  rw [combine_of_visible visible]
  rfl

theorem lines_combined (visible : Text.isAllBlank (dropContinuation common) = false) :
    Text.lines (combine common code).text =
      Text.lines (dropContinuation common) ++ [] :: Text.lines code := by
  rw [combine_of_visible visible, Text.lines_append]
  show _ ++ Text.lines ([] ++ '\n' :: code) = _
  rw [Text.lines_append]
  rfl

/-- Without their marks, the lines are those of the combined text. -/
theorem texts_sourceLines (common code : List Char) (pass : PassName) :
    texts (sourceLines common code pass) = Text.lines (combine common code).text := by
  unfold sourceLines
  by_cases blank : Text.isAllBlank (dropContinuation common) = true
  · rw [if_pos blank, texts_markLines, combine_of_blank blank]
  · rw [if_neg blank, lines_combined (Bool.not_eq_true _ ▸ blank), texts, List.map_append,
      List.map_cons, ← texts, ← texts, texts_markLines, texts_markLines]

/-- Each line of the expanded pass is a kept line whose origin has its mark. -/
theorem expandedSources_comesFrom (common code : List Char) (pass : PassName) :
    List.Forall₂ (ComesFrom 1 (sourceLines common code pass))
      (outcomeOf (combine common code).text).kept (expandedSources common code pass) := by
  have comes := run_comesFrom .initial 1 (sourceLines common code pass)
  rw [texts_sourceLines] at comes
  exact comes

theorem exists_kept {index : Nat} {marked : Marked (Option Source)}
    (produced : (expandedSources common code pass)[index]? = some marked) :
    ∃ kept, (outcomeOf (combine common code).text).kept[index]? = some kept ∧
      ComesFrom 1 (sourceLines common code pass) kept marked := by
  have comes := expandedSources_comesFrom common code pass
  obtain ⟨inside, same⟩ := List.getElem?_eq_some_iff.mp produced
  have insideKept := comes.length_eq ▸ inside
  refine ⟨_, List.getElem?_eq_getElem insideKept, ?_⟩
  have here := List.Forall₂.get comes insideKept inside
  rw [List.get_eq_getElem, List.get_eq_getElem, same] at here
  exact here

theorem mark_markLines (pass : PassName) (lines : List (List Char)) (index : Nat) :
    ((markLines pass lines)[index]?).map (·.mark) =
      (lines[index]?).map fun _ => some (pass, index + 1) := by
  unfold markLines
  rw [List.getElem?_map, List.getElem?_zipIdx]
  cases lines[index]? with
  | none => rfl
  | some line => simp [Nat.add_comm]

theorem length_markLines (pass : PassName) (lines : List (List Char)) :
    (markLines pass lines).length = lines.length := by
  rw [markLines, List.length_map, List.length_zipIdx]

/-- The mark of a line of the combined text is the source that the attribution of
    errors and the line map take it for. -/
theorem mark_sourceLines {origin : Nat} (le : 1 ≤ origin) {mark : Option Source}
    (found : ((sourceLines common code pass)[origin - 1]?).map (·.mark) = some mark) :
    mark = (sourceLine? (combine common code).commonLines origin).map fun line =>
      (if origin ≤ (combine common code).commonLines then .common else pass, line) := by
  obtain ⟨index, rfl⟩ : ∃ index, origin = index + 1 := ⟨origin - 1, by omega⟩
  rw [Nat.add_sub_cancel] at found
  unfold sourceLines at found
  by_cases blank : Text.isAllBlank (dropContinuation common) = true
  · rw [if_pos blank, mark_markLines] at found
    obtain ⟨line, -, same⟩ := Option.map_eq_some_iff.mp found
    rw [← same, combine_of_blank blank]
    simp [sourceLine?]
  · rw [if_neg blank] at found
    rw [combine_of_visible (Bool.not_eq_true _ ▸ blank)]
    have positive := Text.lineCount_pos (dropContinuation common)
    by_cases inCommon : index + 1 ≤ Text.lineCount (dropContinuation common)
    · rw [List.getElem?_append_left (by rwa [length_markLines]), mark_markLines] at found
      obtain ⟨line, -, same⟩ := Option.map_eq_some_iff.mp found
      rw [← same]
      simp only [sourceLine?]
      rw [if_pos (Or.inr inCommon), if_pos inCommon]
      rfl
    · have beyond : Text.lineCount (dropContinuation common) ≤ index := by omega
      rw [List.getElem?_append_right (by rwa [length_markLines]), length_markLines,
        ← Text.lineCount] at found
      obtain ⟨offset, rfl⟩ := Nat.exists_eq_add_of_le beyond
      rw [Nat.add_sub_cancel_left] at found
      simp only [sourceLine?]
      rw [if_neg inCommon, if_neg (by omega)]
      cases offset with
      | zero =>
        rw [if_neg (by omega)]
        simpa using found.symm
      | succ offset =>
        rw [List.getElem?_cons_succ, mark_markLines] at found
        obtain ⟨line, -, same⟩ := Option.map_eq_some_iff.mp found
        rw [if_pos (by omega), ← same, Option.map_some]
        congr 2
        omega

theorem relocatedLine_oneLine {line : List Char} (oneLine : '\n' ∉ line) :
    '\n' ∉ Scaffold.relocatedLine line := by
  unfold Scaffold.relocatedLine
  split
  · exact List.not_mem_nil
  · exact oneLine

theorem relocatedLine_noBreak {lines : List (List Char)} (noBreak : ∀ line ∈ lines, '\n' ∉ line) :
    ∀ line ∈ lines.map Scaffold.relocatedLine, '\n' ∉ line := by
  intro part member
  obtain ⟨line, inLines, rfl⟩ := List.mem_map.mp member
  exact relocatedLine_oneLine (noBreak line inLines)

/-- What `assemble` gives when it succeeds. -/
structure IsAssembled (common code : List Char) (pass : PassName) (assembled : AssembledPass) :
    Prop where
  sound : (outcomeOf (combine common code).text).errors = []
  pass_eq : assembled.attribution.pass = pass
  commonLines : assembled.attribution.commonLines = expandedCommonLines (combine common code)
  lineMap : assembled.attribution.lineMap =
    sourceLineMap (combine common code) (outcomeOf (combine common code).text).lineMap
  expandedCode : assembled.expandedCode.toList = Text.unlines
    ((Text.lines (outcomeOf (combine common code).text).codeText).map Scaffold.relocatedLine)

section Assembled

variable {common code : String} {pass : PassName} {assembled : AssembledPass}

theorem isAssembled (assembles : assemble common code pass = .ok assembled) :
    IsAssembled common.toList code.toList pass assembled := by
  by_cases fine : (outcomeOf (combine common.toList code.toList).text).isOk = true
  · simp only [assemble, fine, if_true, Except.ok.injEq] at assembles
    rw [← assembles]
    exact ⟨List.isEmpty_iff.mp fine, rfl, rfl, rfl, String.toList_ofList⟩
  · simp [assemble, fine] at assembles

theorem exists_assembled (pass : PassName)
    (sound : (outcomeOf (combine common.toList code.toList).text).errors = []) :
    ∃ assembled, assemble common code pass = .ok assembled := by
  have fine : (outcomeOf (combine common.toList code.toList).text).isOk = true :=
    List.isEmpty_iff.mpr sound
  simp [assemble, fine]

/-- The expanded text has the lines of the preprocessed text, as far as the head does not have
    them instead. -/
theorem lines_expandedCode (assembles : assemble common code pass = .ok assembled) :
    Text.lines assembled.expandedCode.toList =
      (Text.lines (outcomeOf (combine common.toList code.toList).text).codeText).map
        Scaffold.relocatedLine := by
  rw [(isAssembled assembles).expandedCode]
  refine Text.lines_unlines (relocatedLine_noBreak fun _ => Text.noBreak_of_mem_lines) ?_
  exact List.map_eq_nil_iff.not.mpr (Text.pieces_ne_nil _ _)

/-- A line with a source is in the line map, and in the expanded text. -/
theorem entry_of_source (assembles : assemble common code pass = .ok assembled) {index : Nat}
    {source : Source} {text : List Char}
    (produced : (expandedSources common.toList code.toList pass)[index]? =
      some ⟨some source, text⟩) :
    (index + 1, source.2) ∈ assembled.attribution.lineMap.entries ∧
      (Text.lines assembled.expandedCode.toList)[index]? = some (Scaffold.relocatedLine text) := by
  obtain ⟨kept, found, comes⟩ := exists_kept produced
  refine ⟨?_, ?_⟩
  · rw [(isAssembled assembles).lineMap]
    have source_eq := mark_sourceLines comes.le comes.mark
    obtain ⟨line, mapped, same⟩ := Option.map_eq_some_iff.mp source_eq.symm
    refine LineMap.mem_changeOrigins ?_ (mapped.trans (congrArg (some ·.2) same))
    rw [Nat.add_comm]
    refine LineMap.mem_numbered ?_
    rw [List.getElem?_map, found]
    rfl
  · have nonempty := List.ne_nil_of_mem (List.mem_of_getElem? found)
    rw [lines_expandedCode assembles, lines_codeText nonempty, List.map_map, List.getElem?_map,
      found, Option.map_some, Function.comp_apply, comes.text]

end Assembled

end Multipass.Assembly
