import Multipass.Proofs.Queue.Custody
import Multipass.Proofs.Thumbnail.Size

/-!
# Every accepted request is answered once

Whatever the clients, the drain and the workers do, and in whatever order: the callback of
an accepted request is in one place, and no panic of a callback changes where the others
are.
-/

namespace Multipass

namespace Action

variable {κ : Type}

/-- The callback that a request comes with. -/
def callback? : Action κ → Option κ
  | request _ _ callback => some callback
  | _ => none

/-- Does the action dispose of the queue? -/
def disposes : Action κ → Bool
  | dispose => true
  | _ => false

/-- The callbacks of the requests that come before the queue is disposed of. A request that
    comes later is refused. -/
def accepted (actions : List (Action κ)) : List κ :=
  (actions.takeWhile fun action => !action.disposes).filterMap callback?

/-- The same step, with a callback that returns. -/
def calm : Action κ → Action κ
  | callBack drain _ => callBack drain (.returned ())
  | action => action

end Action

/-- Where the callback of an accepted request can be: with a pending job, with the job that
    is being rendered, with those who are about to be called, with those who were called,
    or with those whom the disposal gave up. -/
inductive Place where
  | pending
  | inFlight
  | inDelivery
  | invoked
  | givenUp

/-- The callbacks at a place, after the events of a run. -/
def Place.callbacks {κ φ σ : Type} (machine : Machine κ φ σ) (events : List (Event κ)) :
    Place → Multiset κ
  | pending => machine.queue.inPending
  | inFlight => machine.queue.inFlight
  | inDelivery => machine.inDelivery
  | invoked => Event.invoked events
  | givenUp => Event.givenUp events

namespace Machine

variable {κ φ σ : Type} {studio : Studio φ σ} {machine next : Machine κ φ σ}
  {action : Action κ} {actions : List (Action κ)} {events : List (Event κ)} {factory : φ}

/-! ## The balance of a run -/

theorem JobEnds.disposes_eq_false {drain number : Nat} {worker : Option Nat} {ending : Ending}
    (ends : JobEnds studio machine drain number worker action ending) :
    action.disposes = false := by
  cases ends <;> rfl

/-- A queue is disposed of once and for all, and by nothing but its disposal. -/
theorem disposed_of_transition (steps : Transition studio machine action next events) :
    next.queue.disposed = (machine.queue.disposed || action.disposes) := by
  cases steps with
  | joined _ _ _ joins => exact (Queue.join?_frame joins).2.1.trans (Bool.or_false _).symm
  | resolved _ ends _ =>
    rw [ends.disposes_eq_false, Bool.or_false]
    exact Queue.record_disposed _ _ _
  | cutShort _ ends _ =>
    rw [ends.disposes_eq_false, Bool.or_false]
    rfl
  | disposed live =>
    unfold Queue.dispose
    rw [if_neg (by simp [live]), live]
    rfl
  | disposedBefore disposed =>
    rw [disposed]
    rfl
  | _ => exact (Bool.or_false _).symm

/-- The callbacks that a run takes in. -/
def acceptedFrom : Bool → List (Action κ) → Multiset κ
  | true, _ => 0
  | false, actions => Action.accepted actions

theorem acceptedFrom_nil (disposed : Bool) : acceptedFrom disposed ([] : List (Action κ)) = 0 := by
  cases disposed <;> rfl

theorem acceptedFrom_cons (disposed : Bool) (action : Action κ) (rest : List (Action κ)) :
    acceptedFrom disposed (action :: rest) =
      accepts action disposed + acceptedFrom (disposed || action.disposes) rest := by
  cases disposed with
  | true => cases action <;> rfl
  | false =>
    cases action with
    | request key passes callback =>
      exact (Multiset.singleton_add callback (Action.accepted rest)).symm
    | _ => exact (zero_add _).symm

theorem Orderly.run_conserves (orderly : machine.Orderly)
    (runs : Machine.run studio actions machine = some (next, events)) :
    machine.held + acceptedFrom machine.queue.disposed actions =
      next.held + Event.invoked events + Event.givenUp events := by
  induction actions generalizing machine events with
  | nil =>
    cases runs
    rw [acceptedFrom_nil]
    exact balance_of_eq rfl
  | cons action rest ih =>
    obtain ⟨between, told, later, steps, goesOn, rfl⟩ := run_cons_eq_some.mp runs
    have steps := transition_of_step steps
    have first := orderly.conserves steps
    have others := ih (orderly.transition steps) goesOn
    rw [acceptedFrom_cons, ← disposed_of_transition steps, ← add_assoc, first,
      Event.invoked_append, Event.givenUp_append]
    calc between.held + Event.invoked told + Event.givenUp told +
          acceptedFrom between.queue.disposed rest
        = between.held + acceptedFrom between.queue.disposed rest + Event.invoked told +
          Event.givenUp told := by abel
      _ = next.held + Event.invoked later + Event.givenUp later + Event.invoked told +
          Event.givenUp told := by rw [others]
      _ = next.held + (Event.invoked told + Event.invoked later) +
          (Event.givenUp told + Event.givenUp later) := by abel

/-- The callbacks of the accepted requests are those at the five places, each as often as
    it was handed in. -/
theorem accepted_eq (runs : Machine.run studio actions (.start factory) = some (machine, events)) :
    (Action.accepted actions : Multiset κ) =
      Place.callbacks machine events .pending + Place.callbacks machine events .inFlight +
        Place.callbacks machine events .inDelivery + Place.callbacks machine events .invoked +
        Place.callbacks machine events .givenUp := by
  have balance := (orderly_start factory).run_conserves runs
  have nobody : held (start factory : Machine κ φ σ) = 0 := rfl
  rw [nobody, zero_add] at balance
  rw [show (Action.accepted actions : Multiset κ) =
    acceptedFrom (start factory : Machine κ φ σ).queue.disposed actions from rfl, balance]
  simp only [held, Place.callbacks]

/-- Of places that have one callback between them, one has it. -/
theorem existsUnique_place (number : Place → Nat)
    (one : number .pending + number .inFlight + number .inDelivery + number .invoked +
      number .givenUp = 1) : ∃! place, 0 < number place := by
  have somewhere : 0 < number .pending ∨ 0 < number .inFlight ∨ 0 < number .inDelivery ∨
      0 < number .invoked ∨ 0 < number .givenUp := by omega
  rcases somewhere with here | here | here | here | here
  all_goals
    refine ⟨_, here, ?_⟩
    intro other there
    cases other <;> first | rfl | omega

open Classical in
theorem existsUnique_callbacks {callback : κ}
    (runs : Machine.run studio actions (.start factory) = some (machine, events))
    (distinct : (Action.accepted actions).Nodup) (accepted : callback ∈ Action.accepted actions) :
    ∃! place : Place, callback ∈ place.callbacks machine events := by
  have one : Multiset.count callback (Action.accepted actions : Multiset κ) = 1 :=
    Multiset.count_eq_one_of_mem distinct accepted
  simp only [accepted_eq runs, Multiset.count_add] at one
  have place := existsUnique_place
    (fun place => Multiset.count callback (place.callbacks machine events)) one
  simpa only [Multiset.count_pos] using place

theorem invoked_le (runs : Machine.run studio actions (.start factory) = some (machine, events)) :
    Event.invoked events ≤ Action.accepted actions := by
  rw [accepted_eq runs]
  exact (Multiset.le_add_left _ _).trans (Multiset.le_add_right _ _)

/-! ## Runs without a disposal -/

theorem givenUp_of_transition (steps : Transition studio machine action next events)
    (kept : action ≠ .dispose) : Event.givenUp events = 0 := by
  cases steps with
  | disposed _ => exact absurd rfl kept
  | _ => rfl

theorem givenUp_of_run (runs : Machine.run studio actions machine = some (next, events))
    (kept : .dispose ∉ actions) : Event.givenUp events = 0 := by
  induction actions generalizing machine events with
  | nil =>
    cases runs
    rfl
  | cons action rest ih =>
    obtain ⟨between, told, later, steps, goesOn, rfl⟩ := run_cons_eq_some.mp runs
    obtain ⟨first, others⟩ := List.ne_and_not_mem_of_not_mem_cons kept
    rw [Event.givenUp_append, givenUp_of_transition (transition_of_step steps) first.symm,
      ih goesOn others, zero_add]

theorem invoked_eq (runs : Machine.run studio actions (.start factory) = some (machine, events))
    (kept : .dispose ∉ actions) (pending : machine.queue.pending = [])
    (flight : machine.queue.flight = none) (delivered : machine.inDelivery = 0) :
    Event.invoked events = Action.accepted actions := by
  rw [accepted_eq runs]
  simp only [Place.callbacks, Queue.inPending, Queue.inFlight, pending, flight, delivered,
    givenUp_of_run runs kept]
  show _ = 0 + 0 + 0 + Event.invoked events + 0
  rw [add_zero, add_zero, add_zero, zero_add]

/-! ## Callbacks that panic -/

/-- What a step or a run did, but for the panics that were contained. -/
def Outlook.answered (outlook : Outlook κ φ σ) : Machine κ φ σ × List (κ × Outcome) :=
  (outlook.1, Event.answers outlook.2)

theorem step_calm (studio : Studio φ σ) (action : Action κ) (machine : Machine κ φ σ) :
    (machine.step studio action).map Outlook.answered =
      (machine.step studio action.calm).map Outlook.answered := by
  cases action with
  | callBack drain returned =>
    simp only [Action.calm, step, callBack]
    cases machine.drains[drain]? with
    | none => rfl
    | some activity =>
      cases activity with
      | delivering outcome callback rest => cases returned <;> rfl
      | _ => rfl
  | _ => rfl

theorem run_cons_answered (action : Action κ) (rest : List (Action κ)) :
    (run studio (action :: rest) machine).map Outlook.answered =
      ((machine.step studio action).map Outlook.answered).bind fun first =>
        ((run studio rest first.1).map Outlook.answered).map fun later =>
          (later.1, first.2 ++ later.2) := by
  conv_lhs => unfold run
  cases machine.step studio action with
  | none => rfl
  | some first =>
    obtain ⟨between, told⟩ := first
    show Option.map _ (Option.bind (run studio rest between) _) =
      Option.map _ (Option.map _ (run studio rest between))
    cases run studio rest between with
    | none => rfl
    | some last => exact congrArg (fun told => some (last.1, told)) (Event.answers_append _ _)

/-- A run answers the same clients and ends in the same machine as the run in which no
    callback panics. -/
theorem run_calm (studio : Studio φ σ) (actions : List (Action κ)) (machine : Machine κ φ σ) :
    (run studio actions machine).map Outlook.answered =
      (run studio (actions.map Action.calm) machine).map Outlook.answered := by
  induction actions generalizing machine with
  | nil => rfl
  | cons action rest ih =>
    simp only [List.map_cons, run_cons_answered, step_calm studio action machine, ih]

theorem run_of_calm {others : List (Action κ)}
    (same : others.map Action.calm = actions.map Action.calm)
    (runs : run studio actions machine = some (next, events)) :
    ∃ told, run studio others machine = some (next, told) ∧
      Event.answers told = Event.answers events := by
  have answered := run_calm studio others machine
  rw [same, ← run_calm, runs] at answered
  obtain ⟨⟨last, told⟩, here, equal⟩ := Option.map_eq_some_iff.mp answered
  obtain ⟨rfl, answers⟩ := Prod.mk.inj equal
  exact ⟨told, here, answers⟩

theorem callBack_eq_some {drain : Nat} {outcome : Outcome} {callback : κ} {rest : List κ}
    (here : machine.drains[drain]? = some (.delivering outcome callback rest))
    (returned : Foreign Unit) :
    ∃ told, machine.callBack drain returned = some
        ({ machine with drains := machine.drains.set drain (.deliver outcome rest) }, told) ∧
      Event.answers told = [(callback, outcome)] := by
  unfold callBack
  rw [here]
  cases returned with
  | returned value => exact ⟨_, rfl, rfl⟩
  | panicked payload => exact ⟨_, rfl, rfl⟩

/-- A drain that delivers calls back everyone on its list, whatever the callbacks do. -/
theorem run_callBacks {drain : Nat} {outcome : Outcome} {callbacks : List κ}
    {returns : List (Foreign Unit)}
    (here : machine.drains[drain]? = some (.deliver outcome callbacks))
    (enough : returns.length = callbacks.length) :
    ∃ told, run studio (returns.map (.callBack drain)) machine =
        some ({ machine with drains := machine.drains.set drain .free }, told) ∧
      Event.answers told = callbacks.map fun callback => (callback, outcome) := by
  induction callbacks generalizing machine returns with
  | nil =>
    obtain rfl := List.length_eq_zero_iff.mp enough
    obtain ⟨inside, free⟩ := List.getElem?_eq_some_iff.mp here
    have same : machine.drains.set drain .free = machine.drains := by
      rw [← show machine.drains[drain] = .free from free, List.set_getElem_self]
    rw [same]
    exact ⟨[], rfl, rfl⟩
  | cons callback rest ih =>
    obtain ⟨returned, others, rfl⟩ := List.exists_cons_of_length_eq_add_one enough
    obtain ⟨told, first, answered⟩ := callBack_eq_some here returned
    let between := { machine with drains := machine.drains.set drain (.deliver outcome rest) }
    have goesOn : between.drains[drain]? = some (.deliver outcome rest) :=
      List.getElem?_set_self (List.getElem?_eq_some_iff.mp here).1
    obtain ⟨later, runs, answeredLater⟩ := ih goesOn (Nat.succ.inj enough)
    rw [List.set_set] at runs
    refine ⟨told ++ later, ?_, ?_⟩
    · exact run_cons_eq_some.mpr ⟨between, told, later, first, runs, rfl⟩
    · rw [Event.answers_append, answered, answeredLater]
      rfl

/-- While a drain delivers, nobody but that drain does anything to its list. -/
theorem Orderly.drains_of_delivering (orderly : machine.Orderly) {drain : Nat} {outcome : Outcome}
    {callback : κ} {rest : List κ}
    (delivers : machine.drains[drain]? = some (.delivering outcome callback rest))
    (steps : Transition studio machine action next events)
    (another : ∀ returned, action ≠ .callBack drain returned) : next.drains = machine.drains := by
  obtain ⟨first, drains, draining⟩ := orderly.only delivers
  cases steps with
  | drainStarted _ free _ =>
    rw [draining] at free
    cases free
  | drainEnded here _ | jobTaken here _ _ _ | resolved here _ _ | cutShort here _ _ =>
    obtain ⟨-, same, -⟩ := orderly.only here
    rw [drains] at same
    cases same
  | calledBack here _ | panicked here _ =>
    obtain ⟨same, -, -⟩ := orderly.only here
    exact absurd (by rw [same, first]) (another _)
  | _ => rfl

/-! ## Exactly once -/

/-- However the threads take turns, the callbacks of the accepted requests are shared out
    among five places, so that none is called twice. Those of different requests, when they
    can be told apart, are in one place each, and without a disposal all of them have been
    called once nobody waits any longer. A drain can call back everyone on its list
    whatever the callbacks do, nobody else does anything to that list, and a run ends in
    the same machine with the same clients answered when other callbacks panic. -/
theorem answered_exactly_once
    (runs : Machine.run studio actions (.start factory) = some (machine, events)) :
    (Action.accepted actions : Multiset κ) =
        Place.callbacks machine events .pending + Place.callbacks machine events .inFlight +
          Place.callbacks machine events .inDelivery + Place.callbacks machine events .invoked +
          Place.callbacks machine events .givenUp ∧
      Event.invoked events ≤ Action.accepted actions ∧
      ((Action.accepted actions).Nodup → (Event.invoked events).Nodup ∧
        ∀ callback ∈ Action.accepted actions,
          ∃! place : Place, callback ∈ place.callbacks machine events) ∧
      (.dispose ∉ actions → machine.queue.pending = [] → machine.queue.flight = none →
        machine.inDelivery = 0 → Event.invoked events = Action.accepted actions) ∧
      (∀ drain outcome callback rest,
        machine.drains[drain]? = some (.delivering outcome callback rest) →
        (∀ returns : List (Foreign Unit), returns.length = rest.length + 1 →
          ∃ told, Machine.run studio (returns.map (.callBack drain)) machine =
              some ({ machine with drains := machine.drains.set drain .free }, told) ∧
            Event.answers told = (callback :: rest).map fun client => (client, outcome)) ∧
        ∀ action next told, machine.step studio action = some (next, told) →
          (∀ returned, action ≠ .callBack drain returned) → next.drains = machine.drains) ∧
      ∀ others : List (Action κ), others.map Action.calm = actions.map Action.calm →
        ∃ told, Machine.run studio others (.start factory) = some (machine, told) ∧
          Event.answers told = Event.answers events := by
  refine ⟨accepted_eq runs, invoked_le runs, ?_, invoked_eq runs, ?_, ?_⟩
  · intro distinct
    refine ⟨Multiset.nodup_of_le (invoked_le runs) distinct, ?_⟩
    intro callback accepted
    exact existsUnique_callbacks runs distinct accepted
  · intro drain outcome callback rest here
    refine ⟨fun returns enough => run_callBacks here enough, ?_⟩
    intro action next told steps another
    have orderly := (orderly_start factory).run runs
    exact orderly.drains_of_delivering here (transition_of_step steps) another
  · intro others same
    exact run_of_calm same runs

/-- A studio in which no render context can be built. -/
def refusing : Studio Unit Unit where
  context := {
    reset := fun _ => (.returned (), ())
    compile := fun _ _ _ => (.returned (.rejected ""), ())
    renderFrame := fun _ _ => (.returned (.error "no context"), ())
    capture := fun _ => (.returned (.error "no context"), ()) }
  codec := .plain
  build := fun _ => (.returned (.error "no context"), ())
  config := { ThumbnailConfig.standard with coalesceDuplicates := true }

/-- Two clients wait for one job, and the callback of the first panics. -/
def panicking : List (Action Nat) :=
  [.request "a" [] 1, .request "a" [] 2, .startDrain, .beginRound 0, .takeUp 0, .finish 0,
    .callBack 0 (.panicked .other), .callBack 0 (.returned ())]

theorem answered_exactly_once_panicking :
    ∃ machine events, Machine.run refusing panicking (.start ()) = some (machine, events) ∧
      Event.invoked events = {1, 2} := by
  have kept : .dispose ∉ panicking := by simp [panicking]
  refine ⟨_, _, rfl, ?_⟩
  obtain ⟨-, -, -, whole, -⟩ := answered_exactly_once
    (show Machine.run refusing panicking (.start ()) = some (_, _) from rfl)
  exact whole kept rfl rfl rfl

end Machine

end Multipass
