import Multipass.Proofs.Preprocess.Seam

/-!
# The events of a run

On its way through the lines of a text a run meets directives and lines of code; lines that
are left out are no events. The state that a run leaves is the one to which its events lead,
one after the other, so what holds of every event holds of the run.
-/

namespace Multipass.Preprocess

/-- What a run meets on a line: the directive that begins there, or code. -/
inductive Event where
  | directive (directive : Directive)
  | code (text : List Char)
  deriving DecidableEq, Repr

/-- The state after an event. -/
def State.after (state : State) (event : Located Event) : State :=
  match event.content with
  | .directive directive => state.directive event.line directive
  | .code text => (state.codeLine event.line text).2

/-- The events of a run from the given line number on. -/
def events (state : State) (number : Nat) (lines : List (List Char)) : List (Located Event) :=
  match lines with
  | [] => []
  | line :: rest =>
    if !state.insideComment && Directive.isDirectiveLine line then
      let joined := Directive.joinContinuations (Text.trim line) rest
      have : (Directive.joinContinuations (Text.trim line) rest).2.2.length ≤ rest.length :=
        Directive.remaining_length_le (Text.trim line) rest
      let directive := Directive.ofText joined.1
      ⟨number, .directive directive⟩ :: events (state.directive number directive)
        (number + 1 + joined.2.1.length) joined.2.2
    else if state.active then
      ⟨number, .code line⟩ :: events (state.codeLine number line).2 (number + 1) rest
    else events state (number + 1) rest
  termination_by lines.length

/-- The events of a whole text. -/
def eventsOf (text : List Char) : List (Located Event) :=
  events .initial 1 (Text.lines text)

section Steps

variable {state : State} {number : Nat} {line : List Char} {rest : List (List Char)}

theorem events_directive (marked : (!state.insideComment && Directive.isDirectiveLine line) = true)
    {joined : List Char × List (List Char) × List (List Char)}
    (joins : Directive.joinContinuations (Text.trim line) rest = joined) :
    events state number (line :: rest) =
      ⟨number, .directive (Directive.ofText joined.1)⟩ ::
        events (state.directive number (Directive.ofText joined.1))
          (number + 1 + joined.2.1.length) joined.2.2 := by
  subst joins
  rw [events, if_pos marked]

theorem events_code (plain : ¬ (!state.insideComment && Directive.isDirectiveLine line) = true)
    (active : state.active = true) :
    events state number (line :: rest) =
      ⟨number, .code line⟩ :: events (state.codeLine number line).2 (number + 1) rest := by
  rw [events, if_neg plain, if_pos active]

end Steps

/-- The state after some events, where a text begins. -/
def stateAfter (events : List (Located Event)) : State :=
  events.foldl State.after .initial

@[simp] theorem stateAfter_nil : stateAfter [] = .initial := rfl

@[simp] theorem stateAfter_concat (events : List (Located Event)) (event : Located Event) :
    stateAfter (events ++ [event]) = (stateAfter events).after event := by
  simp [stateAfter]

theorem run_snd (state : State) (number : Nat) (lines : List (List Char)) :
    (run state number lines).2 = (events state number lines).foldl State.after state := by
  fun_induction events state number lines with
  | case1 => rw [run, List.foldl_nil]
  | case2 state number line rest marked joined _ directive ih =>
    rw [run_directive marked rfl, List.foldl_cons]
    exact ih
  | case3 state number line rest plain active ih =>
    rw [run_code plain active, List.foldl_cons]
    exact ih
  | case4 state number line rest plain inactive ih =>
    rw [run_skipped plain inactive]
    exact ih

/-- Where no directive goes on beyond the first lines, the others follow with their events. -/
theorem events_append_of_closed {state : State} {number : Nat} {front : List (List Char)}
    (closed : endsOpen state number front = false) (back : List (List Char)) :
    events state number (front ++ back) = events state number front ++
      events (run state number front).2 (number + front.length) back := by
  fun_induction events state number front with
  | case1 state number => rw [run]; rfl
  | case2 state number line rest marked joined _ directive ih =>
    rw [endsOpen, if_pos marked] at closed
    simp only [Bool.or_eq_false_iff] at closed
    have lengths : number + 1 + joined.2.1.length + joined.2.2.length =
        number + (line :: rest).length := Directive.number_after _ _ _ _
    have remaining := ih closed.2
    rw [lengths] at remaining
    rw [List.cons_append, events_directive marked
      (Directive.joinContinuations_of_ended closed.1 back), run_directive marked rfl]
    exact congrArg _ remaining
  | case3 state number line rest plain active ih =>
    rw [endsOpen, if_neg plain, if_pos active] at closed
    have remaining := ih closed
    rw [Nat.add_assoc, Nat.add_comm 1] at remaining
    rw [List.cons_append, events_code plain active, run_code plain active, remaining]
    rfl
  | case4 state number line rest plain inactive ih =>
    rw [endsOpen, if_neg plain, if_neg inactive] at closed
    have remaining := ih closed
    rw [Nat.add_assoc, Nat.add_comm 1] at remaining
    rw [List.cons_append, events, if_neg plain, if_neg inactive, run_skipped plain inactive,
      remaining]
    rfl

/-- A run over a text leaves the state after its events. -/
theorem run_initial (text : List Char) :
    (run .initial 1 (Text.lines text)).2 = stateAfter (eventsOf text) :=
  run_snd _ _ _

/-- The errors of a text are the problems after its events and the groups that are then open. -/
theorem errors_outcomeOf (text : List Char) :
    (outcomeOf text).errors = Located.sortByLine
      ((stateAfter (eventsOf text)).problems ++ unterminated (stateAfter (eventsOf text))) := by
  rw [← run_initial]
  rfl

/-! ## The lines of events -/

/-- Can an event be met on a line? -/
def Event.StandsOn (line : List Char) : Event → Prop
  | .directive _ => Directive.isDirectiveLine line = true
  | .code text => text = line

/-- An event that is met on one of the lines, which have numbers from the given one on. -/
structure IsMetIn (number : Nat) (lines : List (List Char)) (event : Located Event) : Prop where
  le : number ≤ event.line
  stands : ∃ line, lines[event.line - number]? = some line ∧ event.content.StandsOn line

section Lines

variable {state : State} {number : Nat} {lines : List (List Char)} {event : Located Event}

theorem IsMetIn.behind {back : List (List Char)} (front : List (List Char))
    (met : IsMetIn (number + front.length) back event) : IsMetIn number (front ++ back) event := by
  obtain ⟨le, line, found, stands⟩ := met
  refine ⟨by omega, line, ?_, stands⟩
  rw [List.getElem?_append_right (by omega), Nat.sub_sub]
  exact found

theorem isMetIn_of_mem_events (member : event ∈ events state number lines) :
    IsMetIn number lines event := by
  fun_induction events state number lines with
  | case1 => exact absurd member List.not_mem_nil
  | case2 state number line rest marked joined _ directive ih =>
    rcases List.mem_cons.mp member with rfl | later
    · exact ⟨Nat.le_refl _, line, by simp, ((Bool.and_eq_true _ _).mp marked).2⟩
    · have whole : joined.2.1 ++ joined.2.2 = rest := Directive.joinContinuations_append _ _
      have met := ih later
      rw [Nat.add_assoc, Nat.add_comm 1] at met
      rw [← whole, ← List.cons_append]
      exact met.behind (line :: joined.2.1)
  | case3 state number line rest plain active ih =>
    rcases List.mem_cons.mp member with rfl | later
    · exact ⟨Nat.le_refl _, line, by simp, rfl⟩
    · exact (ih later).behind [line]
  | case4 state number line rest plain inactive ih => exact (ih member).behind [line]

/-- No two events are met on one line. -/
theorem events_ascending (state : State) (number : Nat) (lines : List (List Char)) :
    (events state number lines).Pairwise (·.line < ·.line) := by
  fun_induction events state number lines with
  | case1 => exact .nil
  | case2 state number line rest marked joined _ directive ih =>
    refine List.pairwise_cons.mpr ⟨fun event later => ?_, ih⟩
    have beyond := (isMetIn_of_mem_events later).le
    show number < event.line
    omega
  | case3 state number line rest plain active ih =>
    exact List.pairwise_cons.mpr ⟨fun event later => (isMetIn_of_mem_events later).le, ih⟩
  | case4 state number line rest plain inactive ih => exact ih

end Lines

end Multipass.Preprocess
