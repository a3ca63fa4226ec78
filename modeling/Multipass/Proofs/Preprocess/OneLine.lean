import Multipass.Preprocess.Run
import Multipass.Proofs.Macro.Characters
import Multipass.Proofs.Preprocess.Directive
import Multipass.Proofs.Preprocess.State
import Multipass.Proofs.Text.Lines

/-!
# Kept lines are lines

A run over lines keeps lines: nothing that it keeps contains a line feed, since no
macro ever gets a body with a line feed.
-/

namespace Multipass.Preprocess

namespace State

/-- No macro has a body with a line feed. -/
def OneLineBodies (state : State) : Prop :=
  state.table.Avoids '\n'

theorem OneLineBodies.of_table {state later : State} (bodies : state.OneLineBodies)
    (same : later.table = state.table) : later.OneLineBodies := by
  unfold OneLineBodies
  rw [same]
  exact bodies

theorem initial_oneLineBodies : initial.OneLineBodies := by
  intro entry member
  exact absurd member List.not_mem_nil

theorem OneLineBodies.define {state : State} (bodies : state.OneLineBodies) (line : Nat)
    {rest : List Char} (oneLine : '\n' ∉ rest) : (state.define line rest).OneLineBodies := by
  unfold State.define
  split
  · exact bodies
  · rename_i name definition parsed
    exact Macro.Table.Avoids.define bodies name
      (Directive.notMem_body_of_parseDefinition oneLine parsed)

theorem OneLineBodies.undefine {state : State} (bodies : state.OneLineBodies) (line : Nat)
    (rest : List Char) : (state.undefine line rest).OneLineBodies := by
  unfold State.undefine
  split
  · exact bodies
  · exact Macro.Table.Avoids.undefine bodies _

theorem OneLineBodies.directive {state : State} (bodies : state.OneLineBodies) (line : Nat)
    {text : List Char} (oneLine : '\n' ∉ text) :
    (state.directive line (Directive.ofText text)).OneLineBodies := by
  cases read : Directive.ofText text with
  | define rest =>
    have restOneLine : '\n' ∉ rest := by
      rw [Directive.eq_argument_of_define read]
      intro member
      rcases Directive.mem_argument member with blank | inText
      · exact absurd blank (by decide)
      · exact oneLine inText
    simp only [State.directive]
    split
    · exact bodies.define line restOneLine
    · exact bodies
  | undefine rest =>
    simp only [State.directive]
    split
    · exact bodies.undefine line rest
    · exact bodies
  | _ => exact bodies.of_table (directive_table state line (by simp) (by simp))

theorem expandSegments_oneLine {state : State} (bodies : state.OneLineBodies) (line : Nat)
    {segments : List Comment.Segment} (oneLine : ∀ segment ∈ segments, '\n' ∉ segment.text) :
    '\n' ∉ (state.expandSegments line segments).1 := by
  fun_induction expandSegments state line segments with
  | case1 => simp
  | case2 state text rest later final expanded ih =>
    have here := oneLine _ List.mem_cons_self
    have after := ih bodies fun segment member => oneLine segment (List.mem_cons_of_mem _ member)
    rw [expanded] at after
    exact Macro.notMem_append here after
  | case3 state text rest expansion expands later final expanded ih =>
    have here := Macro.notMem_expand bodies (oneLine _ List.mem_cons_self) expands
    have after := ih bodies fun segment member => oneLine segment (List.mem_cons_of_mem _ member)
    rw [expanded] at after
    exact Macro.notMem_append here after
  | case4 state text rest problem _ later final expanded ih =>
    have here := oneLine _ List.mem_cons_self
    have after := ih (bodies.of_table (by simp)) fun segment member =>
      oneLine segment (List.mem_cons_of_mem _ member)
    rw [expanded] at after
    exact Macro.notMem_append here after

theorem codeLine_oneLine {state : State} (bodies : state.OneLineBodies) (line : Nat)
    {text : List Char} (oneLine : '\n' ∉ text) : '\n' ∉ (state.codeLine line text).1 := by
  unfold codeLine
  split
  · exact oneLine
  · refine expandSegments_oneLine bodies line ?_
    intro segment member inSegment
    exact oneLine (Comment.text_subset_of_mem_segments member inSegment)

end State

theorem text_mem_of_keepFrom {number : Nat} {lines : List (List Char)} {kept : KeptLine}
    (member : kept ∈ keepFrom number lines) : kept.text ∈ lines := by
  induction lines generalizing number with
  | nil => simp [keepFrom] at member
  | cons line rest ih =>
    rcases List.mem_cons.mp member with rfl | later
    · exact List.mem_cons_self
    · exact List.mem_cons_of_mem _ (ih later)

theorem joined_oneLine {line : List Char} {rest : List (List Char)}
    (oneLine : ∀ part ∈ line :: rest, '\n' ∉ part) :
    '\n' ∉ (Directive.joinContinuations (Text.trim line) rest).1 := by
  intro member
  rcases Directive.mem_joinContinuations member with blank | inLine | ⟨part, later, inPart⟩
  · exact absurd blank (by decide)
  · exact oneLine line List.mem_cons_self (Text.trim_subset line inLine)
  · exact oneLine part (List.mem_cons_of_mem _ later) inPart

/-- What a run over lines keeps are lines. -/
theorem run_oneLine {state : State} {number : Nat} {lines : List (List Char)}
    (bodies : state.OneLineBodies) (oneLine : ∀ line ∈ lines, '\n' ∉ line) :
    ∀ kept ∈ (run state number lines).1, '\n' ∉ kept.text := by
  fun_induction run state number lines with
  | case1 => simp
  | case2 state number line rest marked joined _ directive kept later final ran ih =>
    have whole : joined.2.1 ++ joined.2.2 = rest := Directive.joinContinuations_append _ _
    have remaining := ih (bodies.directive number (joined_oneLine oneLine)) fun part member =>
      oneLine part (List.mem_cons_of_mem _ (by rw [← whole]; exact List.mem_append_right _ member))
    rw [ran] at remaining
    intro line' member
    rcases List.mem_append.mp member with here | later'
    · simp only [kept] at here
      split at here
      · have original := text_mem_of_keepFrom here
        refine oneLine _ ?_
        rcases List.mem_cons.mp original with same | taken
        · exact same ▸ List.mem_cons_self
        · exact List.mem_cons_of_mem _ (by rw [← whole]; exact List.mem_append_left _ taken)
      · simp at here
    · exact remaining line' later'
  | case3 state number line rest _ _ text after expanded later final ran ih =>
    have here := State.codeLine_oneLine bodies number (oneLine line List.mem_cons_self)
    have same := State.codeLine_table state number line
    rw [expanded] at here same
    have remaining := ih (bodies.of_table same) fun part member =>
      oneLine part (List.mem_cons_of_mem _ member)
    rw [ran] at remaining
    intro line' member
    rcases List.mem_cons.mp member with rfl | later'
    · exact here
    · exact remaining line' later'
  | case4 state number line rest _ _ ih =>
    exact ih bodies fun part member => oneLine part (List.mem_cons_of_mem _ member)

theorem outcomeOf_oneLine (text : List Char) :
    ∀ part ∈ (outcomeOf text).kept.map (·.text), '\n' ∉ part := by
  intro part member
  obtain ⟨line, inKept, rfl⟩ := List.mem_map.mp member
  exact run_oneLine State.initial_oneLineBodies (fun _ => Text.noBreak_of_mem_lines) line inKept

/-- The kept lines of a text are the lines of its output. -/
theorem lines_codeText {text : List Char} (nonempty : (outcomeOf text).kept ≠ []) :
    Text.lines (outcomeOf text).codeText = (outcomeOf text).kept.map (·.text) :=
  Text.lines_unlines (outcomeOf_oneLine text) (by simpa using nonempty)

/-- No kept line at all is the empty text, which counts as one line. -/
theorem lineCount_codeText (text : List Char) :
    Text.lineCount (outcomeOf text).codeText = max (outcomeOf text).kept.length 1 := by
  rw [Outcome.codeText, Text.lineCount_unlines (outcomeOf_oneLine text), List.length_map]

end Multipass.Preprocess
