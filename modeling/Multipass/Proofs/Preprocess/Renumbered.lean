import Multipass.Proofs.Macro.Placement
import Multipass.Proofs.Preprocess.KeptLines

/-!
# A run over lines with other numbers

A run notes the numbers of lines, with macros, groups and problems, and decides nothing by them.
So the same lines with other numbers are kept alike, and leave the same state but for the
numbers in it.
-/

namespace Multipass.Preprocess

/-- A group without the number of the line that opened it. -/
def Group.withoutLine (group : Group) : Group :=
  { group with openedAt := 0 }

theorem parseDefinition_withoutLine (rest : List Char) (line : Nat) :
    parseDefinition rest 0 =
      (parseDefinition rest line).map fun parsed => (parsed.1, parsed.2.withoutLine) := by
  unfold parseDefinition
  split
  · rfl
  · split
    · rfl
    · rename_i name _ _ _ list _ _
      cases parseParameters _ list <;> rfl
  · rfl

theorem resolveDefined_withoutLines (table : Macro.Table) (insideWord : Bool) (text : List Char) :
    resolveDefined table.withoutLines insideWord text = resolveDefined table insideWord text := by
  fun_induction resolveDefined table insideWord text with
  | case1 => rw [resolveDefined.eq_def]
  | case2 c rest name ends after found shorter ih =>
    rw [resolveDefined.eq_def]
    dsimp only
    split
    · rename_i read
      rw [found] at read
      cases read
      rw [Macro.Table.contains_withoutLines, ih]
    · rename_i missed
      exact (missed _ _ _ rfl found).elim
  | case3 insideWord c rest missed ih =>
    rw [resolveDefined.eq_def]
    dsimp only
    split
    · rename_i read
      exact (missed _ _ _ rfl read).elim
    · rw [ih]

namespace State

/-- A state with no lines noted. -/
def withoutLines (state : State) : State :=
  { state with
    table := state.table.withoutLines
    groups := state.groups.map Group.withoutLine
    problems := state.problems.map fun problem => { problem with line := 0 } }

variable (state : State) (line : Nat)

@[simp] theorem table_withoutLines : state.withoutLines.table = state.table.withoutLines := rfl

@[simp] theorem groups_withoutLines :
    state.withoutLines.groups = state.groups.map Group.withoutLine := rfl

@[simp] theorem insideComment_withoutLines :
    state.withoutLines.insideComment = state.insideComment := rfl

@[simp] theorem reportedRecursion_withoutLines :
    state.withoutLines.reportedRecursion = state.reportedRecursion := rfl

@[simp] theorem active_withoutLines : state.withoutLines.active = state.active := by
  unfold active
  rw [groups_withoutLines]
  cases state.groups <;> rfl

@[simp] theorem withoutLines_report (problem : Problem) :
    (state.report line problem).withoutLines = state.withoutLines.report 0 problem := by
  simp [report, withoutLines]

@[simp] theorem withoutLines_reportExpansion (problem : Macro.ExpansionProblem) :
    (state.reportExpansion line problem).withoutLines =
      state.withoutLines.reportExpansion 0 problem := by
  cases problem with
  | arity name expected found => exact withoutLines_report state line _
  | recursion name =>
    unfold reportExpansion
    dsimp only
    rw [reportedRecursion_withoutLines]
    split
    · rfl
    · rw [withoutLines_report, table_withoutLines, Macro.Table.find?_withoutLines]
      cases state.table.find? name <;> rfl

theorem condition_withoutLines (text : List Char) :
    state.withoutLines.condition 0 text =
      ((state.condition line text).1, (state.condition line text).2.withoutLines) := by
  unfold condition
  rw [table_withoutLines, resolveDefined_withoutLines, Macro.expand_withoutLines]
  split
  · rw [withoutLines_reportExpansion]
  · split
    · rw [withoutLines_report]
    · rfl

theorem withoutLines_define (rest : List Char) :
    (state.define line rest).withoutLines = state.withoutLines.define 0 rest := by
  unfold define
  rw [parseDefinition_withoutLine rest line]
  cases parseDefinition rest line with
  | error problem => simp [Except.map]
  | ok parsed => simp [Except.map, withoutLines]

theorem withoutLines_undefine (rest : List Char) :
    (state.undefine line rest).withoutLines = state.withoutLines.undefine 0 rest := by
  unfold undefine
  cases Text.leadingName? rest with
  | none => simp
  | some named => simp [withoutLines]

theorem withoutLines_openGroup (opener : Opener) (holds : Bool) :
    (state.openGroup line opener holds).withoutLines =
      state.withoutLines.openGroup 0 opener holds := by
  unfold openGroup
  rw [active_withoutLines]
  rfl

theorem testName_withoutLines (opener : Opener) (wanted : Bool) (rest : List Char) :
    state.withoutLines.testName 0 opener wanted rest =
      ((state.testName line opener wanted rest).1,
        (state.testName line opener wanted rest).2.withoutLines) := by
  unfold testName
  cases Text.leadingName? rest with
  | none => simp
  | some named => simp

theorem withoutLines_nextBranch (rest : List Char) :
    (state.nextBranch line rest).withoutLines = state.withoutLines.nextBranch 0 rest := by
  unfold nextBranch
  rw [groups_withoutLines]
  cases state.groups with
  | nil => exact withoutLines_report state line _
  | cons group outer =>
    rw [List.map_cons]
    dsimp only [Group.withoutLine]
    split
    · exact withoutLines_report state line _
    · split
      · rw [condition_withoutLines state line]
        rfl
      · rfl

theorem withoutLines_lastBranch :
    (state.lastBranch line).withoutLines = state.withoutLines.lastBranch 0 := by
  unfold lastBranch
  rw [groups_withoutLines]
  cases state.groups with
  | nil => exact withoutLines_report state line _
  | cons group outer =>
    rw [List.map_cons]
    dsimp only [Group.withoutLine]
    split
    · exact withoutLines_report state line _
    · rfl

theorem withoutLines_closeGroup :
    (state.closeGroup line).withoutLines = state.withoutLines.closeGroup 0 := by
  unfold closeGroup
  rw [groups_withoutLines]
  cases state.groups with
  | nil => exact withoutLines_report state line _
  | cons group outer => rfl

/-- A directive does the same whatever lines are noted. -/
theorem withoutLines_directive (directive : Directive) :
    (state.directive line directive).withoutLines = state.withoutLines.directive 0 directive := by
  cases directive with
  | nothing | foreign => rfl
  | define rest =>
    simp only [State.directive, active_withoutLines]
    split
    · exact withoutLines_define state line rest
    · rfl
  | undefine rest =>
    simp only [State.directive, active_withoutLines]
    split
    · exact withoutLines_undefine state line rest
    · rfl
  | announce rest =>
    simp only [State.directive, active_withoutLines]
    split
    · exact withoutLines_report state line _
    · rfl
  | openNamed opener wanted rest =>
    simp only [State.directive, active_withoutLines]
    split
    · rw [testName_withoutLines state line, withoutLines_openGroup]
    · exact withoutLines_openGroup state line opener false
  | openCondition rest =>
    simp only [State.directive, active_withoutLines]
    split
    · rw [condition_withoutLines state line, withoutLines_openGroup]
    · exact withoutLines_openGroup state line _ false
  | orCondition rest => exact withoutLines_nextBranch state line rest
  | otherwise => exact withoutLines_lastBranch state line
  | close => exact withoutLines_closeGroup state line

theorem expandSegments_withoutLines (segments : List Comment.Segment) :
    state.withoutLines.expandSegments 0 segments =
      ((state.expandSegments line segments).1,
        (state.expandSegments line segments).2.withoutLines) := by
  fun_induction expandSegments state line segments with
  | case1 => rfl
  | case2 state text rest later final expanded ih =>
    rw [expandSegments, ih, expanded]
  | case3 state text rest expansion expands later final expanded ih =>
    rw [expandSegments, table_withoutLines, Macro.expand_withoutLines, expands]
    dsimp only
    rw [ih, expanded]
  | case4 state text rest problem fails later final expanded ih =>
    rw [expandSegments, table_withoutLines, Macro.expand_withoutLines, fails]
    dsimp only
    rw [← withoutLines_reportExpansion state line, ih, expanded]

/-- A line of code becomes the same whatever lines are noted. -/
theorem codeLine_withoutLines (text : List Char) :
    state.withoutLines.codeLine 0 text =
      ((state.codeLine line text).1, (state.codeLine line text).2.withoutLines) := by
  unfold codeLine
  rw [table_withoutLines, Macro.Table.isEmpty_withoutLines]
  split
  · rfl
  · rw [insideComment_withoutLines]
    dsimp only
    rw [expandSegments_withoutLines state line]
    rfl

end State

namespace State

variable {state other : State} (alike : state.withoutLines = other.withoutLines)

include alike

theorem insideComment_of_alike : other.insideComment = state.insideComment :=
  (congrArg State.insideComment alike).symm

theorem active_of_alike : other.active = state.active := by
  rw [← active_withoutLines, ← alike, active_withoutLines]

theorem sound_of_alike (sound : state.problems = [] ∧ state.groups = []) :
    other.problems = [] ∧ other.groups = [] := by
  have problems := congrArg State.problems alike
  have groups := congrArg State.groups alike
  simp only [withoutLines, sound.1, sound.2, List.map_nil] at problems groups
  exact ⟨List.map_eq_nil_iff.mp problems.symm, List.map_eq_nil_iff.mp groups.symm⟩

end State

/-- From states that differ in no more than the lines they note, the same lines are kept alike,
whatever their numbers. -/
theorem run_of_alike (state : State) (number : Nat) (lines : List (List Char)) :
    ∀ (other : State) (number' : Nat), state.withoutLines = other.withoutLines →
      (run state number lines).1.map (·.text) = (run other number' lines).1.map (·.text) ∧
        (run state number lines).2.withoutLines = (run other number' lines).2.withoutLines := by
  fun_induction run state number lines with
  | case1 state number =>
    intro other number' alike
    rw [run]
    exact ⟨rfl, alike⟩
  | case2 state number line rest marked joined _ directive here later final ran ih =>
    intro other number' alike
    have next : (state.directive number directive).withoutLines =
        (other.directive number' directive).withoutLines := by
      rw [State.withoutLines_directive, State.withoutLines_directive, alike]
    obtain ⟨texts, last⟩ := ih _ (number' + 1 + joined.2.1.length) next
    rw [ran] at texts last
    rw [run_directive (by rwa [State.insideComment_of_alike alike]) rfl, List.map_append,
      List.map_append, State.active_of_alike alike]
    refine ⟨congrArg₂ (· ++ ·) ?_ texts, last⟩
    by_cases owned : (directive = .foreign && state.active) = true
    · have keepsHere : here = keepFrom number (line :: joined.2.1) := dif_pos owned
      rw [keepsHere, if_pos owned, map_text_keepFrom, map_text_keepFrom]
    · have losesHere : here = [] := dif_neg owned
      rw [losesHere, if_neg owned]
  | case3 state number line rest plain active text after code later final ran ih =>
    intro other number' alike
    have expanded : (text, after.withoutLines) = ((other.codeLine number' line).1,
        (other.codeLine number' line).2.withoutLines) := by
      rw [← State.codeLine_withoutLines, ← alike, State.codeLine_withoutLines state number, code]
    obtain ⟨sameText, next⟩ := Prod.mk.inj expanded
    obtain ⟨texts, last⟩ := ih _ (number' + 1) next
    rw [ran] at texts last
    rw [run_code (by rwa [State.insideComment_of_alike alike])
      (by rwa [State.active_of_alike alike]), List.map_cons, List.map_cons]
    exact ⟨congrArg₂ List.cons sameText texts, last⟩
  | case4 state number line rest plain inactive ih =>
    intro other number' alike
    rw [run_skipped (by rwa [State.insideComment_of_alike alike])
      (by rwa [State.active_of_alike alike])]
    exact ih other (number' + 1) alike

end Multipass.Preprocess
