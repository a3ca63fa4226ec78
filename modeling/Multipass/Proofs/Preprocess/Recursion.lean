import Mathlib.Data.List.Induction
import Multipass.Proofs.Located
import Multipass.Proofs.Macro.Expansion
import Multipass.Proofs.Macro.Levels
import Multipass.Proofs.Preprocess.Directive
import Multipass.Proofs.Preprocess.Events
import Multipass.Proofs.Preprocess.ProblemLines
import Multipass.Proofs.Preprocess.State

/-!
# Reports of recursion

An expansion that goes deeper than the bound names the macro at which it gave up. However many
lines use such a macro, and whatever becomes of it later, a run reports it once: when it is met
for the first time, on the line of the definition that is in force there.
-/

namespace Multipass.Preprocess

open Macro

/-! ## What is expanded, and what is in force -/

/-- The texts that are expanded at an event: the code of a line outside of its comments, or a
    condition that is looked at. -/
def expandedTexts (state : State) : Event → List (List Char)
  | .code line => (Comment.segments state.insideComment line).1.filterMap fun
    | .code text => some text
    | .comment _ => none
  | .directive (.openCondition rest) =>
    if state.active then [resolveDefined state.table false rest] else []
  | .directive (.orCondition rest) =>
    match state.groups with
    | [] => []
    | group :: _ =>
      if !group.seenElse && group.parentActive && !group.taken then
        [resolveDefined state.table false rest]
      else []
  | .directive _ => []

theorem mem_expandedTexts_code {state : State} {line text : List Char} :
    text ∈ expandedTexts state (.code line) ↔
      .code text ∈ (Comment.segments state.insideComment line).1 := by
  rw [expandedTexts, List.mem_filterMap]
  constructor
  · rintro ⟨segment, member, same⟩
    cases segment with
    | code text =>
      cases same
      exact member
    | comment text => cases same
  · exact fun member => ⟨_, member, rfl⟩

/-- An expansion at an event goes deeper than the bound, and gives up at a macro. -/
def Overruns (name : List Char) (state : State) (event : Event) : Prop :=
  ∃ text ∈ expandedTexts state event, expand state.table text = .error (.recursion name)

/-- An event defines a macro. -/
def Defines (name : List Char) (state : State) (event : Located Event) : Prop :=
  state.active = true ∧ ∃ rest definition, event.content = .directive (.define rest) ∧
    parseDefinition rest event.line = .ok (name, definition)

/-- An event removes a macro. -/
def Removes (name : List Char) (state : State) (event : Located Event) : Prop :=
  state.active = true ∧ ∃ rest after, event.content = .directive (.undefine rest) ∧
    Text.leadingName? rest = some (name, after)

/-- The line of the definition of a macro that is in force after some events: the last event to
    define it is on that line, and none after it removes it. -/
inductive InForce (name : List Char) : List (Located Event) → Nat → Prop where
  | defined {events : List (Located Event)} {event : Located Event} :
      Defines name (stateAfter events) event → InForce name (events ++ [event]) event.line
  | kept {events : List (Located Event)} {event : Located Event} {line : Nat} :
      InForce name events line → ¬ Defines name (stateAfter events) event →
        ¬ Removes name (stateAfter events) event → InForce name (events ++ [event]) line

/-- The reports that a macro comes back to itself. -/
def recursions (name : List Char) (problems : List (Located Problem)) : List (Located Problem) :=
  problems.filter (·.content = .expansion (.recursion name))

theorem recursions_concat (name : List Char) (problems : List (Located Problem)) (line : Nat)
    (problem : Problem) : recursions name (problems ++ [⟨line, problem⟩]) =
      recursions name problems ++
        if problem = .expansion (.recursion name) then [⟨line, problem⟩] else [] := by
  simp [recursions, List.filter_singleton]

/-! ## What a step reports -/

/-- A step reports that a macro comes back to itself when it is met for the first time. -/
structure Tells (name : List Char) (met : Prop) (state later : State) : Prop where
  known : name ∈ later.reportedRecursion ↔ name ∈ state.reportedRecursion ∨ met
  silent : name ∈ state.reportedRecursion ∨ ¬ met →
    recursions name later.problems = recursions name state.problems
  told : name ∉ state.reportedRecursion → met → ∃ definition,
    state.table.find? name = some definition ∧ recursions name later.problems =
      recursions name state.problems ++ [⟨definition.line, .expansion (.recursion name)⟩]

section Tells

variable {name : List Char} {met other : Prop} {state middle later : State}

theorem Tells.of_same (known : later.reportedRecursion = state.reportedRecursion)
    (problems : recursions name later.problems = recursions name state.problems) (absent : ¬ met) :
    Tells name met state later := by
  refine ⟨?_, fun _ => problems, fun _ isMet => absurd isMet absent⟩
  rw [known]
  simp [absent]

theorem Tells.of_iff (tells : Tells name met state later) (same : other ↔ met) :
    Tells name other state later := by
  rwa [propext same]

theorem Tells.onto (tells : Tells name met state middle)
    (known : later.reportedRecursion = middle.reportedRecursion)
    (problems : later.problems = middle.problems) : Tells name met state later := by
  obtain ⟨knows, silent, told⟩ := tells
  exact ⟨known ▸ knows, problems ▸ silent, problems ▸ told⟩

theorem Tells.ifActive (tells : Tells name False state later) :
    Tells name False state (if state.active then later else state) := by
  split
  · exact tells
  · exact .of_same rfl rfl id

theorem Tells.trans (first : Tells name met state middle) (second : Tells name other middle later)
    (table : middle.table = state.table) : Tells name (met ∨ other) state later := by
  refine ⟨?_, fun quiet => ?_, fun unknown isMet => ?_⟩
  · rw [second.known, first.known, or_assoc]
  · have early := quiet.imp_right fun neither isMet => neither (.inl isMet)
    have late : name ∈ middle.reportedRecursion ∨ ¬ other := quiet.imp
      (fun known => first.known.mpr (.inl known)) fun neither isMet => neither (.inr isMet)
    rw [second.silent late, first.silent early]
  · by_cases here : met
    · obtain ⟨definition, found, told⟩ := first.told unknown here
      exact ⟨definition, found, (second.silent (.inl (first.known.mpr (.inr here)))).trans told⟩
    · have stillUnknown : name ∉ middle.reportedRecursion := fun known =>
        (first.known.mp known).elim unknown here
      obtain ⟨definition, found, told⟩ := second.told stillUnknown (isMet.resolve_left here)
      rw [first.silent (.inr here)] at told
      exact ⟨definition, table ▸ found, told⟩

end Tells

namespace State

variable (name : List Char) (state : State) (line : Nat)

theorem tells_report {problem : Problem} (different : problem ≠ .expansion (.recursion name)) :
    Tells name False state (state.report line problem) := by
  refine .of_same rfl ?_ id
  rw [report, recursions_concat, if_neg different, List.append_nil]

theorem tells_reportExpansion {problem : ExpansionProblem}
    (defined : ∀ met, problem = .recursion met → ∃ definition,
      state.table.find? met = some definition) :
    Tells name (problem = .recursion name) state (state.reportExpansion line problem) := by
  cases problem with
  | arity macroName expected found =>
    exact (tells_report name state line (by simp)).of_iff (by simp)
  | recursion met =>
    obtain ⟨definition, found⟩ := defined met rfl
    unfold reportExpansion
    simp only [List.contains_iff_mem, found, Option.map_some, Option.getD_some]
    by_cases same : met = name
    · subst same
      split
      · rename_i known
        exact ⟨by simp [known], fun _ => rfl, fun unknown => absurd known unknown⟩
      · rename_i unknown
        refine ⟨by simp [report], fun quiet => ?_, fun _ _ => ⟨definition, found, ?_⟩⟩
        · exact absurd rfl (quiet.resolve_left unknown)
        · rw [report, recursions_concat, if_pos rfl]
    · split
      · exact .of_same rfl rfl (by simpa using same)
      · refine ⟨?_, fun _ => ?_, fun _ isMet => absurd (ExpansionProblem.recursion.inj isMet) same⟩
        · simp [report, same, Ne.symm same]
        · rw [report, recursions_concat, if_neg (by simpa using same), List.append_nil]

theorem tells_condition (text : List Char) :
    Tells name (expand state.table (resolveDefined state.table false text) =
      .error (.recursion name)) state (state.condition line text).2 := by
  unfold condition
  split
  · rename_i problem failed
    refine (tells_reportExpansion name state line fun met same => ?_).of_iff ?_
    · exact exists_definition_of_recursion (same ▸ failed)
    · rw [failed]
      simp
  · rename_i expanded expansion
    have absent : ¬ expand state.table (resolveDefined state.table false text) =
        .error (.recursion name) := by
      rw [expansion]
      exact nofun
    split
    · exact (tells_report name state line (by simp)).of_iff (iff_false_intro absent)
    · exact .of_same rfl rfl absent

theorem tells_testName (opener : Opener) (wanted : Bool) (rest : List Char) :
    Tells name False state (state.testName line opener wanted rest).2 := by
  unfold testName
  split
  · exact tells_report name state line (by simp)
  · exact .of_same rfl rfl id

theorem tells_define (rest : List Char) : Tells name False state (state.define line rest) := by
  unfold define
  split
  · rename_i problem failed
    refine tells_report name state line ?_
    rcases parseDefinition_error_cases failed with rfl | ⟨_, rfl⟩ | ⟨_, _, rfl⟩ <;> simp
  · exact .of_same rfl rfl id

theorem tells_undefine (rest : List Char) : Tells name False state (state.undefine line rest) := by
  unfold undefine
  split
  · exact tells_report name state line (by simp)
  · exact .of_same rfl rfl id

theorem tells_expandSegments (segments : List Comment.Segment) :
    Tells name (∃ text, .code text ∈ segments ∧ expand state.table text = .error (.recursion name))
      state (state.expandSegments line segments).2 := by
  fun_induction expandSegments state line segments with
  | case1 => exact .of_same rfl rfl (by simp)
  | case2 state text rest later final expanded ih =>
    rw [expanded] at ih
    exact ih.of_iff (by simp)
  | case3 state text rest expansion ok later final expanded ih =>
    rw [expanded] at ih
    refine ih.of_iff ?_
    simp [or_and_right, exists_or, ok]
  | case4 state text rest problem failed later final expanded ih =>
    rw [expanded] at ih
    have here : Tells name (problem = .recursion name) state (state.reportExpansion line problem) :=
      tells_reportExpansion name state line fun met same =>
        exists_definition_of_recursion (same ▸ failed)
    refine (here.trans ih (reportExpansion_table state line problem)).of_iff ?_
    simp [or_and_right, exists_or, failed]

theorem tells_codeLine (text : List Char) :
    Tells name (Overruns name state (.code text)) state (state.codeLine line text).2 := by
  unfold codeLine
  split
  · rename_i empty
    refine .of_same rfl rfl ?_
    rintro ⟨code, -, failed⟩
    rw [expand_of_isEmpty empty] at failed
    cases failed
  · have segments := tells_expandSegments name state line
      (Comment.segments state.insideComment text).1
    refine (segments.of_iff ?_).onto rfl rfl
    simp only [Overruns, mem_expandedTexts_code]

theorem tells_nextBranch (rest : List Char) :
    Tells name (Overruns name state (.directive (.orCondition rest))) state
      (state.nextBranch line rest) := by
  unfold nextBranch
  split
  · rename_i none
    exact (tells_report name state line (by simp)).of_iff (by simp [Overruns, expandedTexts, none])
  · rename_i group outer inside
    split
    · rename_i last
      refine (tells_report name state line (by simp)).of_iff ?_
      simp [Overruns, expandedTexts, inside, last]
    · rename_i before
      split
      · rename_i looked
        refine ((tells_condition name state line rest).of_iff ?_).onto rfl rfl
        simp [Overruns, expandedTexts, inside, before, looked]
      · rename_i passed
        refine .of_same rfl rfl ?_
        simp [Overruns, expandedTexts, inside, before, passed]

theorem tells_lastBranch : Tells name False state (state.lastBranch line) := by
  unfold lastBranch
  split
  · exact tells_report name state line (by simp)
  · split
    · exact tells_report name state line (by simp)
    · exact .of_same rfl rfl id

theorem tells_closeGroup : Tells name False state (state.closeGroup line) := by
  unfold closeGroup
  split
  · exact tells_report name state line (by simp)
  · exact .of_same rfl rfl id

theorem tells_after (event : Located Event) :
    Tells name (Overruns name state event.content) state (state.after event) := by
  obtain ⟨line, content⟩ := event
  cases content with
  | code text => exact tells_codeLine name state line text
  | directive met =>
    have quiet : ∀ {later : State}, (∀ text, text ∉ expandedTexts state (.directive met)) →
        Tells name False state later →
          Tells name (Overruns name state (.directive met)) state later := by
      intro later none tells
      exact tells.of_iff (iff_false_intro fun ⟨text, member, _⟩ => none text member)
    cases met with
    | nothing | foreign => exact quiet (by simp [expandedTexts]) (.of_same rfl rfl id)
    | define rest =>
      exact quiet (by simp [expandedTexts]) (tells_define name state line rest).ifActive
    | undefine rest =>
      exact quiet (by simp [expandedTexts]) (tells_undefine name state line rest).ifActive
    | announce rest =>
      exact quiet (by simp [expandedTexts]) (tells_report name state line (by simp)).ifActive
    | openNamed opener wanted rest =>
      refine quiet (by simp [expandedTexts]) ?_
      show Tells name False state (if state.active then _ else _)
      split
      · exact (tells_testName name state line opener wanted rest).onto rfl rfl
      · exact .of_same rfl rfl id
    | openCondition rest =>
      simp only [State.after, State.directive]
      split
      · rename_i active
        refine ((tells_condition name state line rest).of_iff ?_).onto rfl rfl
        simp [Overruns, expandedTexts, active]
      · rename_i inactive
        exact .of_same rfl rfl (by simp [Overruns, expandedTexts, inactive])
    | orCondition rest => exact tells_nextBranch name state line rest
    | otherwise => exact quiet (by simp [expandedTexts]) (tells_lastBranch name state line)
    | close => exact quiet (by simp [expandedTexts]) (tells_closeGroup name state line)

end State

/-! ## The definition in force -/

section Definitions

variable {name : List Char} {events : List (Located Event)}

/-- Only a definition or its removal changes the macros. -/
theorem table_after (state : State) (event : Located Event) :
    (∃ name rest definition, state.active = true ∧ event.content = .directive (.define rest) ∧
        parseDefinition rest event.line = .ok (name, definition) ∧
        (state.after event).table = state.table.define name definition) ∨
      (∃ name rest after, state.active = true ∧ event.content = .directive (.undefine rest) ∧
        Text.leadingName? rest = some (name, after) ∧
        (state.after event).table = state.table.undefine name) ∨
      ((state.after event).table = state.table ∧ (∀ name, ¬ Defines name state event) ∧
        ∀ name, ¬ Removes name state event) := by
  obtain ⟨line, content⟩ := event
  cases content with
  | code text =>
    exact .inr (.inr ⟨state.codeLine_table line text, by simp [Defines], by simp [Removes]⟩)
  | directive met =>
    cases met with
    | define rest =>
      simp only [State.after, State.directive]
      by_cases active : state.active = true
      · rw [if_pos active, State.define]
        cases parsed : parseDefinition rest line with
        | error problem =>
          exact .inr (.inr ⟨rfl, by simp [Defines, parsed], by simp [Removes]⟩)
        | ok read => exact .inl ⟨read.1, rest, read.2, active, rfl, parsed, rfl⟩
      · rw [if_neg active]
        exact .inr (.inr ⟨rfl, by simp [Defines, active], by simp [Removes]⟩)
    | undefine rest =>
      simp only [State.after, State.directive]
      by_cases active : state.active = true
      · rw [if_pos active, State.undefine]
        cases named : Text.leadingName? rest with
        | none => exact .inr (.inr ⟨rfl, by simp [Defines], by simp [Removes, named]⟩)
        | some read => exact .inr (.inl ⟨read.1, rest, read.2, active, rfl, named, rfl⟩)
      · rw [if_neg active]
        exact .inr (.inr ⟨rfl, by simp [Defines], by simp [Removes, active]⟩)
    | nothing | openNamed | openCondition | orCondition | otherwise | close | announce | foreign =>
      exact .inr (.inr ⟨state.directive_table line (by simp) (by simp), by simp [Defines],
        by simp [Removes]⟩)

/-- A definition found after an event is the one the event gives, or it was found before and the
    event neither defines nor removes the macro. -/
theorem find?_after {state : State} {event : Located Event} {definition : Definition}
    (found : (state.after event).table.find? name = some definition) :
    (state.active = true ∧ ∃ rest, event.content = .directive (.define rest) ∧
        parseDefinition rest event.line = .ok (name, definition)) ∨
      (state.table.find? name = some definition ∧ ¬ Defines name state event ∧
        ¬ Removes name state event) := by
  rcases table_after state event with
    ⟨other, rest, read, active, content, parsed, table⟩ |
    ⟨other, rest, after, active, content, named, table⟩ | ⟨table, notDefined, notRemoved⟩
  · rw [table] at found
    by_cases same : name = other
    · subst same
      rw [Table.find?_define_self] at found
      cases found
      exact .inl ⟨active, rest, content, parsed⟩
    · rw [Table.find?_define_of_ne _ same] at found
      refine .inr ⟨found, ?_, by simp [Removes, content]⟩
      rintro ⟨-, _, _, content', parsed'⟩
      cases content.symm.trans content'
      cases parsed.symm.trans parsed'
      exact same rfl
  · rw [table] at found
    by_cases same : name = other
    · subst same
      rw [Table.find?_undefine_self] at found
      cases found
    · rw [Table.find?_undefine_of_ne _ same] at found
      refine .inr ⟨found, by simp [Defines, content], ?_⟩
      rintro ⟨-, _, _, content', named'⟩
      cases content.symm.trans content'
      cases named.symm.trans named'
      exact same rfl
  · rw [table] at found
    exact .inr ⟨found, notDefined name, notRemoved name⟩

/-- A macro has the definition that is in force. -/
theorem inForce_of_find? {definition : Definition}
    (found : (stateAfter events).table.find? name = some definition) :
    InForce name events definition.line := by
  induction events using List.reverseRecOn generalizing definition with
  | nil => cases found
  | append_singleton events event ih =>
    rw [stateAfter_concat] at found
    rcases find?_after found with ⟨active, rest, content, parsed⟩ | ⟨older, notDefined, notRemoved⟩
    · rw [line_of_parseDefinition parsed]
      exact .defined ⟨active, rest, definition, content, parsed⟩
    · exact .kept (ih older) notDefined notRemoved

end Definitions

/-! ## Whole runs -/

section Runs

variable {name : List Char} {events before : List (Located Event)} {event : Located Event}

/-- No expansion at these events gives up at a macro. -/
def NeverOverruns (name : List Char) (events : List (Located Event)) : Prop :=
  ∀ front event back, events = front ++ event :: back →
    ¬ Overruns name (stateAfter front) event.content

/-- At an event an expansion gives up at a macro for the first time. -/
structure IsFirstOverrun (name : List Char) (before : List (Located Event))
    (event : Located Event) : Prop where
  never : NeverOverruns name before
  overruns : Overruns name (stateAfter before) event.content

theorem neverOverruns_concat (never : NeverOverruns name events)
    (absent : ¬ Overruns name (stateAfter events) event.content) :
    NeverOverruns name (events ++ [event]) := by
  intro front middle back parts
  rcases append_eq_around parts with ⟨between, inFront, -⟩ | ⟨between, rfl, behind⟩
  · exact never front middle between inFront
  · rcases List.singleton_eq_append_iff.mp behind with ⟨rfl, same⟩ | ⟨-, none⟩
    · cases same
      rwa [List.append_nil]
    · cases none

/-- Either no expansion gives up at a macro, or there is a first one that does. -/
theorem neverOverruns_or_first (name : List Char) (events : List (Located Event)) :
    NeverOverruns name events ∨
      ∃ before event after, events = before ++ event :: after ∧
        IsFirstOverrun name before event := by
  induction events using List.reverseRecOn with
  | nil => exact .inl fun front event back parts => by simp at parts
  | append_singleton events event ih =>
    rcases ih with never | ⟨before, first, after, rfl, isFirst⟩
    · by_cases overruns : Overruns name (stateAfter events) event.content
      · exact .inr ⟨events, event, [], rfl, never, overruns⟩
      · exact .inl (neverOverruns_concat never overruns)
    · exact .inr ⟨before, first, after ++ [event], by simp, isFirst⟩

theorem recursions_of_never (never : NeverOverruns name events) :
    name ∉ (stateAfter events).reportedRecursion ∧
      recursions name (stateAfter events).problems = [] := by
  induction events using List.reverseRecOn with
  | nil => exact ⟨List.not_mem_nil, rfl⟩
  | append_singleton events event ih =>
    obtain ⟨unknown, none⟩ := ih fun front middle back parts =>
      never front middle (back ++ [event]) (by simp [parts])
    have tells := State.tells_after name (stateAfter events) event
    have absent := never events event [] rfl
    rw [stateAfter_concat]
    refine ⟨fun known => (tells.known.mp known).elim unknown absent, ?_⟩
    rw [tells.silent (.inr absent), none]

/-- The first event at which an expansion gives up at a macro reports it, on the line of its
    definition. -/
theorem recursions_of_first (first : IsFirstOverrun name before event) :
    name ∈ (stateAfter (before ++ [event])).reportedRecursion ∧
      ∃ line, InForce name before line ∧ recursions name (stateAfter (before ++ [event])).problems =
        [⟨line, .expansion (.recursion name)⟩] := by
  obtain ⟨unknown, none⟩ := recursions_of_never first.never
  have tells := State.tells_after name (stateAfter before) event
  obtain ⟨definition, found, told⟩ := tells.told unknown first.overruns
  rw [stateAfter_concat]
  refine ⟨tells.known.mpr (.inr first.overruns), definition.line, inForce_of_find? found, ?_⟩
  rw [told, none, List.nil_append]

/-- What was reported is not reported again. -/
theorem recursions_append (known : name ∈ (stateAfter before).reportedRecursion)
    (after : List (Located Event)) :
    name ∈ (stateAfter (before ++ after)).reportedRecursion ∧
      recursions name (stateAfter (before ++ after)).problems =
        recursions name (stateAfter before).problems := by
  induction after using List.reverseRecOn with
  | nil =>
    rw [List.append_nil]
    exact ⟨known, rfl⟩
  | append_singleton after event ih =>
    obtain ⟨stillKnown, same⟩ := ih
    have tells := State.tells_after name (stateAfter (before ++ after)) event
    rw [← List.append_assoc, stateAfter_concat]
    exact ⟨tells.known.mpr (.inl stillKnown), (tells.silent (.inl stillKnown)).trans same⟩

theorem InForce.exists_event {line : Nat} (inForce : InForce name events line) :
    ∃ event ∈ events, event.line = line := by
  induction inForce with
  | @defined events event defines => exact ⟨event, by simp, rfl⟩
  | kept _ _ _ ih =>
    obtain ⟨event, member, same⟩ := ih
    exact ⟨event, List.mem_append_left _ member, same⟩

/-- The errors that a macro comes back to itself are those that the events report. -/
theorem recursions_errors_perm (name text : List Char) :
    (recursions name (outcomeOf text).errors).Perm
      (recursions name (stateAfter (eventsOf text)).problems) := by
  have ofGroups : recursions name (unterminated (stateAfter (eventsOf text))) = [] := by
    refine List.filter_eq_nil_iff.mpr fun error member => ?_
    obtain ⟨group, -, rfl⟩ := List.mem_map.mp member
    simp
  have sorted := (Located.sortByLine_perm ((stateAfter (eventsOf text)).problems ++
    unterminated (stateAfter (eventsOf text)))).filter (·.content = .expansion (.recursion name))
  rw [errors_outcomeOf]
  refine sorted.trans ?_
  rw [List.filter_append]
  exact List.Perm.of_eq ((congrArg (_ ++ ·) ofGroups).trans (List.append_nil _))

/-- When expansions give up at a macro, that is one error however often it happens. It lies on the
    line of the definition that is in force where it happens first. -/
theorem recursions_errors (name text : List Char) :
    (NeverOverruns name (eventsOf text) → recursions name (outcomeOf text).errors = []) ∧
      (¬ NeverOverruns name (eventsOf text) → ∃ before event after line,
        eventsOf text = before ++ event :: after ∧ IsFirstOverrun name before event ∧
          InForce name before line ∧ line < event.line ∧
          recursions name (outcomeOf text).errors = [⟨line, .expansion (.recursion name)⟩]) := by
  have same := recursions_errors_perm name text
  refine ⟨fun never => ?_, fun overruns => ?_⟩
  · rw [(recursions_of_never never).2] at same
    exact same.eq_nil
  · obtain ⟨before, event, after, parts, first⟩ :=
      (neverOverruns_or_first name (eventsOf text)).resolve_left overruns
    obtain ⟨known, line, inForce, told⟩ := recursions_of_first first
    refine ⟨before, event, after, line, parts, first, inForce, ?_, ?_⟩
    · obtain ⟨definition, member, rfl⟩ := inForce.exists_event
      have ascending := events_ascending .initial 1 (Text.lines text)
      rw [← eventsOf, parts] at ascending
      exact (List.pairwise_append.mp ascending).2.2 definition member event List.mem_cons_self
    · have whole := (recursions_append known after).2
      rw [List.append_assoc, List.singleton_append, ← parts, told] at whole
      rw [whole] at same
      exact List.perm_singleton.mp same

private theorem eventsOf_circular :
    eventsOf "#define A A\nA + A".toList =
      [⟨1, .directive (.define "A A".toList)⟩, ⟨2, .code "A + A".toList⟩] := by
  have lines : Text.lines "#define A A\nA + A".toList =
      ["#define A A".toList, "A + A".toList] := by decide
  have joins : Directive.joinContinuations (Text.trim "#define A A".toList) ["A + A".toList] =
      ("#define A A".toList, [], ["A + A".toList]) := by decide
  have defines : Directive.ofText "#define A A".toList = .define "A A".toList := by decide +kernel
  rw [eventsOf, lines, events_directive (by decide) joins, defines,
    events_code (by decide +kernel) (by decide +kernel), events]
  rfl

theorem recursions_errors_circular :
    ¬ NeverOverruns "A".toList (eventsOf "#define A A\nA + A".toList) ∧
      ∃ before event after line, eventsOf "#define A A\nA + A".toList = before ++ event :: after ∧
        IsFirstOverrun "A".toList before event ∧ InForce "A".toList before line ∧
          line < event.line ∧ recursions "A".toList (outcomeOf "#define A A\nA + A".toList).errors =
            [⟨line, .expansion (.recursion "A".toList)⟩] := by
  have overruns : ¬ NeverOverruns "A".toList (eventsOf "#define A A\nA + A".toList) := by
    rw [eventsOf_circular]
    refine fun never => never [_] _ [] rfl ⟨"A + A".toList, ?_, ?_⟩
    · decide +kernel
    · decide +kernel
  exact ⟨overruns, (recursions_errors _ _).2 overruns⟩

end Runs

end Multipass.Preprocess
