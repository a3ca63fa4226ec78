import Mathlib.Data.List.Induction
import Multipass.Proofs.Fallible
import Multipass.Proofs.Macro.Characters
import Multipass.Proofs.Preprocess.Events
import Multipass.Proofs.Preprocess.State

/-!
# The lines of problems

A problem is reported on the line where it was met, on the line that defines the macro it is
about, or on the line that opened the group it is about. All of these are lines that the run
went through, and none of them is empty.
-/

namespace Multipass.Preprocess

/-- A definition remembers the line it was read on. -/
theorem line_of_parseDefinition {rest name : List Char} {line : Nat}
    {definition : Macro.Definition}
    (parsed : parseDefinition rest line = .ok (name, definition)) : definition.line = line := by
  unfold parseDefinition at parsed
  split at parsed
  · cases parsed
  · split at parsed
    · cases parsed
    · obtain ⟨parameters, -, same⟩ := bind_eq_ok_iff.mp parsed
      cases same
      rfl
  · cases parsed
    rfl

namespace State

/-- The problems found so far, the macros in force and the groups that are open belong to
    lines of a kind. -/
structure LiesOn (allowed : Nat → Prop) (state : State) : Prop where
  problems : ∀ problem ∈ state.problems, allowed problem.line
  macros : ∀ entry ∈ state.table.entries, allowed entry.2.line
  groups : ∀ group ∈ state.groups, allowed group.openedAt

variable {allowed : Nat → Prop} {line : Nat} {state : State}

theorem liesOn_initial (allowed : Nat → Prop) : initial.LiesOn allowed :=
  ⟨fun _ member => absurd member List.not_mem_nil, fun _ member => absurd member List.not_mem_nil,
    fun _ member => absurd member List.not_mem_nil⟩

section Steps

variable (liesOn : state.LiesOn allowed) (here : allowed line)

include liesOn

theorem LiesOn.of_parts {later : State} (problems : later.problems = state.problems)
    (table : later.table = state.table) (groups : later.groups = state.groups) :
    later.LiesOn allowed :=
  ⟨problems ▸ liesOn.problems, table ▸ liesOn.macros, groups ▸ liesOn.groups⟩

theorem LiesOn.withGroups {groups : List Group}
    (places : ∀ group ∈ groups, allowed group.openedAt) :
    LiesOn allowed { state with groups } :=
  ⟨liesOn.problems, liesOn.macros, places⟩

include here

theorem LiesOn.report (problem : Problem) : (state.report line problem).LiesOn allowed := by
  refine ⟨fun found member => ?_, liesOn.macros, liesOn.groups⟩
  rcases List.mem_append.mp member with earlier | added
  · exact liesOn.problems found earlier
  · rw [List.mem_singleton.mp added]
    exact here

theorem LiesOn.reportExpansion (problem : Macro.ExpansionProblem) :
    (state.reportExpansion line problem).LiesOn allowed := by
  unfold State.reportExpansion
  split
  · exact liesOn.report here _
  · rename_i name
    split
    · exact liesOn
    · have noted : LiesOn allowed
          { state with reportedRecursion := name :: state.reportedRecursion } :=
        liesOn.of_parts rfl rfl rfl
      cases found : state.table.find? name with
      | none => exact noted.report here _
      | some definition =>
        exact noted.report (liesOn.macros _ (Macro.Table.mem_of_find? found)) _

theorem LiesOn.condition (text : List Char) :
    (state.condition line text).2.LiesOn allowed := by
  unfold State.condition
  split
  · exact liesOn.reportExpansion here _
  · split
    · exact liesOn.report here _
    · exact liesOn

theorem LiesOn.testName (opener : Opener) (wanted : Bool) (rest : List Char) :
    (state.testName line opener wanted rest).2.LiesOn allowed := by
  unfold State.testName
  split
  · exact liesOn.report here _
  · exact liesOn

theorem LiesOn.define (rest : List Char) : (state.define line rest).LiesOn allowed := by
  unfold State.define
  split
  · exact liesOn.report here _
  · rename_i name definition parsed
    refine ⟨liesOn.problems, fun entry member => ?_, liesOn.groups⟩
    rcases List.mem_cons.mp member with rfl | kept
    · rw [line_of_parseDefinition parsed]
      exact here
    · exact liesOn.macros entry (List.mem_of_mem_filter kept)

theorem LiesOn.undefine (rest : List Char) : (state.undefine line rest).LiesOn allowed := by
  unfold State.undefine
  split
  · exact liesOn.report here _
  · exact ⟨liesOn.problems, fun entry member => liesOn.macros entry (List.mem_of_mem_filter member),
      liesOn.groups⟩

theorem LiesOn.openGroup (opener : Opener) (holds : Bool) :
    (state.openGroup line opener holds).LiesOn allowed := by
  refine liesOn.withGroups fun group member => ?_
  rcases List.mem_cons.mp member with rfl | outer
  · exact here
  · exact liesOn.groups group outer

theorem LiesOn.nextBranch (rest : List Char) : (state.nextBranch line rest).LiesOn allowed := by
  unfold State.nextBranch
  split
  · exact liesOn.report here _
  · rename_i group outer inside
    have places : allowed group.openedAt ∧ ∀ group ∈ outer, allowed group.openedAt :=
      List.forall_mem_cons.mp (inside ▸ liesOn.groups)
    split
    · exact liesOn.report here _
    · split
      · exact (liesOn.condition here rest).withGroups (List.forall_mem_cons.mpr places)
      · exact liesOn.withGroups (List.forall_mem_cons.mpr places)

theorem LiesOn.lastBranch : (state.lastBranch line).LiesOn allowed := by
  unfold State.lastBranch
  split
  · exact liesOn.report here _
  · rename_i group outer inside
    have places : allowed group.openedAt ∧ ∀ group ∈ outer, allowed group.openedAt :=
      List.forall_mem_cons.mp (inside ▸ liesOn.groups)
    split
    · exact liesOn.report here _
    · exact liesOn.withGroups (List.forall_mem_cons.mpr places)

theorem LiesOn.closeGroup : (state.closeGroup line).LiesOn allowed := by
  unfold State.closeGroup
  split
  · exact liesOn.report here _
  · rename_i group outer inside
    exact liesOn.withGroups (List.forall_mem_cons.mp (inside ▸ liesOn.groups)).2

theorem LiesOn.directive (directive : Directive) :
    (state.directive line directive).LiesOn allowed := by
  cases directive with
  | nothing | foreign => exact liesOn
  | define rest =>
    rw [State.directive]
    split
    · exact liesOn.define here rest
    · exact liesOn
  | undefine rest =>
    rw [State.directive]
    split
    · exact liesOn.undefine here rest
    · exact liesOn
  | announce rest =>
    rw [State.directive]
    split
    · exact liesOn.report here _
    · exact liesOn
  | openNamed opener wanted rest =>
    rw [State.directive]
    split
    · exact (liesOn.testName here opener wanted rest).openGroup here _ _
    · exact liesOn.openGroup here _ _
  | openCondition rest =>
    rw [State.directive]
    split
    · exact (liesOn.condition here rest).openGroup here _ _
    · exact liesOn.openGroup here _ _
  | orCondition rest => exact liesOn.nextBranch here rest
  | otherwise => exact liesOn.lastBranch here
  | close => exact liesOn.closeGroup here

theorem LiesOn.expandSegments (segments : List Comment.Segment) :
    (state.expandSegments line segments).2.LiesOn allowed := by
  fun_induction State.expandSegments state line segments with
  | case1 => exact liesOn
  | case2 state text rest later final expanded ih => simpa [expanded] using ih liesOn
  | case3 state text rest expansion _ later final expanded ih => simpa [expanded] using ih liesOn
  | case4 state text rest problem _ later final expanded ih =>
    rw [expanded] at ih
    exact ih (liesOn.reportExpansion here problem)

theorem LiesOn.codeLine (text : List Char) : (state.codeLine line text).2.LiesOn allowed := by
  unfold State.codeLine
  split
  · exact liesOn.of_parts rfl rfl rfl
  · exact LiesOn.of_parts (liesOn.expandSegments here _) rfl rfl rfl

theorem LiesOn.after {event : Located Event} (place : event.line = line) :
    (state.after event).LiesOn allowed := by
  subst place
  unfold State.after
  split
  · exact liesOn.directive here _
  · exact liesOn.codeLine here _

end Steps

/-- In an empty line there is nothing to expand. -/
theorem codeLine_nil (state : State) (line : Nat) : (state.codeLine line []).2 = state := by
  have insideAfter : ∀ inside, Comment.insideAfter inside [] = inside := by decide +kernel
  have segments : ∀ inside, Comment.segments inside [] =
      ([if inside then .comment [] else .code []], inside) := by decide +kernel
  have expands : Macro.expand state.table [] = .ok [] := by
    rw [Macro.expand, Macro.expansionLimit, Macro.expandWithin, Macro.scan]
  have unchanged : (state.expandSegments line
      [if state.insideComment then .comment [] else .code []]).2 = state := by
    split
    · rfl
    · simp only [expandSegments, expands]
  unfold codeLine
  split
  · rw [insideAfter]
  · rw [segments]
    simp only [unchanged]

end State

/-- Problems lie on the lines of events; an empty line has none. -/
theorem liesOn_stateAfter {allowed : Nat → Prop} {events : List (Located Event)}
    (places : ∀ event ∈ events, event.content ≠ .code [] → allowed event.line) :
    (stateAfter events).LiesOn allowed := by
  induction events using List.reverseRecOn with
  | nil => exact State.liesOn_initial allowed
  | append_singleton events event ih =>
    rw [stateAfter_concat]
    have before := ih fun other member => places other (List.mem_append_left _ member)
    by_cases empty : event.content = .code []
    · have same : (stateAfter events).after event = stateAfter events := by
        rw [State.after, empty]
        exact State.codeLine_nil _ _
      rw [same]
      exact before
    · have here := places event (List.mem_append_right _ (List.mem_singleton_self event)) empty
      exact before.after here rfl

/-- A line of a text that is not empty. -/
def HasText (lines : List (List Char)) (number : Nat) : Prop :=
  1 ≤ number ∧ ∃ line, lines[number - 1]? = some line ∧ line ≠ []

theorem liesOn_run (lines : List (List Char)) :
    (run .initial 1 lines).2.LiesOn (HasText lines) := by
  rw [run_snd]
  refine liesOn_stateAfter fun event member notEmpty => ?_
  obtain ⟨le, line, found, stands⟩ := isMetIn_of_mem_events member
  refine ⟨le, line, found, ?_⟩
  rintro rfl
  cases content : event.content with
  | directive directive =>
    rw [content] at stands
    exact absurd (show Directive.isDirectiveLine [] = true from stands) (by decide)
  | code text =>
    rw [content] at stands
    exact notEmpty (content.trans (congrArg Event.code stands))

/-- The problems of a text lie on its lines. -/
theorem bounds_of_mem_problems {lines : List (List Char)} {problem : Located Problem}
    (member : problem ∈ (run .initial 1 lines).2.problems) :
    1 ≤ problem.line ∧ problem.line ≤ lines.length := by
  obtain ⟨positive, line, found, -⟩ := (liesOn_run lines).problems problem member
  have inside := (List.getElem?_eq_some_iff.mp found).1
  omega

/-- No error of a text lies on an empty line of it. -/
theorem hasText_of_mem_errors {text : List Char} {error : Located Problem}
    (member : error ∈ (outcomeOf text).errors) : HasText (Text.lines text) error.line := by
  have places := liesOn_run (Text.lines text)
  have found : error ∈ (run .initial 1 (Text.lines text)).2.problems ++
      unterminated (run .initial 1 (Text.lines text)).2 := List.mem_mergeSort.mp member
  rcases List.mem_append.mp found with problem | stillOpen
  · exact places.problems error problem
  · obtain ⟨group, isOpen, rfl⟩ := List.mem_map.mp stillOpen
    exact places.groups group (List.mem_reverse.mp isOpen)

end Multipass.Preprocess
