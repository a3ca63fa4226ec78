import Multipass.Proofs.Comment.Lexing
import Multipass.Proofs.Preprocess.KeptLines
import Multipass.Proofs.Preprocess.Structure

/-!
# Lines of code and their comments

A line of code is expanded between its comments. With no macros in force nothing is expanded and
the comments are followed by themselves, which makes no difference. From line to line a run
stands inside a block comment exactly where a reader of the text does that looks at its
characters only, as the one that blanks comments.
-/

namespace Multipass.Preprocess

namespace State

variable (state : State) (number : Nat)

/-- A line of code with its macros expanded segment by segment, whether there are macros or
    not. -/
def codeSegments (text : List Char) : List Char × State :=
  let (segments, inside) := Comment.segments state.insideComment text
  let (expanded, state) := state.expandSegments number segments
  (expanded, { state with insideComment := inside })

/-- Where the code names no macros, expanding segments changes nothing. -/
theorem expandSegments_of_ignores {segments : List Comment.Segment}
    (ignores : ∀ text, .code text ∈ segments → state.table.Ignores text) :
    state.expandSegments number segments = (segments.flatMap Comment.Segment.text, state) := by
  induction segments with
  | nil => rfl
  | cons segment rest ih =>
    have later := ih fun text member => ignores text (List.mem_cons_of_mem _ member)
    cases segment with
    | comment text =>
      rw [expandSegments, later]
      rfl
    | code text =>
      rw [expandSegments, Macro.expand_of_ignores (ignores text List.mem_cons_self)]
      simp only [later]
      rfl

/-- Leaving the expansion out where there are no macros makes no difference. -/
theorem codeLine_eq_codeSegments (text : List Char) :
    state.codeLine number text = state.codeSegments number text := by
  unfold codeLine codeSegments
  split
  · rename_i empty
    have ignores : IgnoresCode state.table state.insideComment text := fun code _ =>
      Macro.Table.ignores_of_isEmpty empty code
    simp only [expandSegments_of_ignores state number ignores, Comment.flatMap_segments,
      Comment.insideAfter_eq]
  · rfl

/-- A line whose code names no macros stays as it is. -/
theorem codeLine_of_ignoresCode {text : List Char}
    (ignores : IgnoresCode state.table state.insideComment text) :
    state.codeLine number text =
      (text, { state with insideComment := Comment.insideAfter state.insideComment text }) := by
  rw [codeLine_eq_codeSegments, codeSegments, Comment.insideAfter_eq]
  simp only [expandSegments_of_ignores state number ignores, Comment.flatMap_segments]

/-- A line of code leads where its comments do. -/
theorem codeLine_insideComment (text : List Char) :
    (state.codeLine number text).2.insideComment =
      Comment.insideAfter state.insideComment text := by
  rw [codeLine_eq_codeSegments, Comment.insideAfter_eq]
  rfl

theorem codeLine_active (text : List Char) :
    (state.codeLine number text).2.active = state.active := by
  unfold active
  rw [(sameStructure_codeLine state number text).groups]

end State

theorem expandedSegment_nothing (table : Macro.Table) : expandedSegment table (.code []) = [] := by
  have expands : Macro.expand table [] = .ok [] := by
    rw [Macro.expand, Macro.expansionLimit, Macro.expandWithin, Macro.scan]
  rw [expandedSegment, expands]

/-- Is every line that is not left out code? -/
def IsAllCode (state : State) (number : Nat) (lines : List (List Char)) : Prop :=
  ∀ event ∈ events state number lines, ∃ text, event.content = .code text

/-- After lines of code the blanking of comments goes on as the run does. -/
theorem blankFrom_terminated_append {state : State} (active : state.active = true)
    {number : Nat} {lines : List (List Char)} (allCode : IsAllCode state number lines)
    (oneLine : ∀ line ∈ lines, '\n' ∉ line) (rest : List Char) :
    Comment.blankFrom (.ofInside state.insideComment) (Text.terminated lines ++ rest) =
      Comment.blankFrom (.ofInside state.insideComment) (Text.terminated lines) ++
        Comment.blankFrom (.ofInside (run state number lines).2.insideComment) rest := by
  induction lines generalizing state number with
  | nil =>
    rw [run]
    rfl
  | cons line later ih =>
    have plain : ¬ (!state.insideComment && Directive.isDirectiveLine line) = true := by
      intro marked
      rw [IsAllCode, events_directive marked rfl] at allCode
      obtain ⟨text, same⟩ := allCode _ List.mem_cons_self
      cases same
    rw [IsAllCode, events_code plain active] at allCode
    have goesOn := ih ((state.codeLine_active number line).trans active)
      (fun event member => allCode event (List.mem_cons_of_mem _ member))
      (fun other member => oneLine other (List.mem_cons_of_mem _ member))
    have here : '\n' ∉ line := oneLine line List.mem_cons_self
    rw [State.codeLine_insideComment] at goesOn
    rw [run_code plain active, Text.terminated_cons, List.append_assoc, List.cons_append,
      Comment.blankFrom_line_append here, Comment.blankFrom_line_append here, goesOn,
      List.append_assoc, List.cons_append]

/-- A line of code becomes its segments one after the other, comments as they are and code
    expanded, where the segments are the longest ones that a reader of its characters finds; and
    the run goes on inside a comment exactly if that reader does. -/
theorem codeLine_reading :
    (∀ (state : State) (number : Nat) (line : List Char), '\n' ∉ line →
      (state.codeLine number line).1 =
          (Comment.reading state.insideComment line).flatMap (expandedSegment state.table) ∧
        ((state.codeLine number line).2.insideComment = true ↔
          Comment.placeAfter (.ofInside state.insideComment) line = .block) ∧
        state.codeLine number line = state.codeSegments number line) ∧
    ∀ (state : State) (number : Nat) (lines : List (List Char)) (rest : List Char),
      state.active = true → IsAllCode state number lines → (∀ line ∈ lines, '\n' ∉ line) →
        Comment.blankFrom (.ofInside state.insideComment) (Text.terminated lines ++ rest) =
          Comment.blankFrom (.ofInside state.insideComment) (Text.terminated lines) ++
            Comment.blankFrom (.ofInside (run state number lines).2.insideComment) rest := by
  refine ⟨fun state number line oneLine => ⟨?_, ?_, state.codeLine_eq_codeSegments number line⟩,
    fun state number lines rest active allCode oneLine =>
      blankFrom_terminated_append active allCode oneLine rest⟩
  · rw [State.codeLine_text, expandedText]
    exact (Comment.flatMap_reading (fun _ => rfl) (expandedSegment_nothing state.table) oneLine).symm
  · rw [State.codeLine_insideComment, Comment.placeAfter_eq_block_iff oneLine]

/-- A state with one macro, at the beginning of a text. -/
def withMacro : State :=
  { State.initial with table := Macro.Table.empty.define ['A'] ⟨none, ['1'], 1⟩ }

theorem codeLine_reading_overlapping :
    ('\n' ∉ "A/*/A*/A*/A//*A".toList ∧
      (withMacro.codeLine 1 "A/*/A*/A*/A//*A".toList).1 = "1/*/A*/1*/1//*A".toList ∧
      (withMacro.codeLine 1 "A/*/A*/A*/A//*A".toList).1 =
        (Comment.reading false "A/*/A*/A*/A//*A".toList).flatMap (expandedSegment withMacro.table)) ∧
    withMacro.active = true ∧ IsAllCode withMacro 1 ["A /*".toList, "#A */ A // /*".toList] ∧
      (∀ line ∈ ["A /*".toList, "#A */ A // /*".toList], '\n' ∉ line) ∧
      Comment.blankFrom .code (Text.terminated ["A /*".toList, "#A */ A // /*".toList] ++ "A".toList) =
        Comment.blankFrom .code (Text.terminated ["A /*".toList, "#A */ A // /*".toList]) ++
          Comment.blankFrom .code "A".toList := by
  have allCode : IsAllCode withMacro 1 ["A /*".toList, "#A */ A // /*".toList] := by
    have met : events withMacro 1 ["A /*".toList, "#A */ A // /*".toList] =
        [⟨1, .code "A /*".toList⟩, ⟨2, .code "#A */ A // /*".toList⟩] := by decide +kernel
    rw [IsAllCode, met]
    simp
  have closed : (run withMacro 1 ["A /*".toList, "#A */ A // /*".toList]).2.insideComment = false := by
    decide +kernel
  have blanked := codeLine_reading.2 withMacro 1 ["A /*".toList, "#A */ A // /*".toList] "A".toList
    rfl allCode (by decide)
  rw [closed] at blanked
  exact ⟨⟨by decide, by decide +kernel, (codeLine_reading.1 withMacro 1 _ (by decide)).1⟩, rfl, allCode,
    by decide, blanked⟩

end Multipass.Preprocess
