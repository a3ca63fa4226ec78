import Mathlib.Algebra.Order.Group.Multiset
import Mathlib.Tactic.Abel
import Multipass.Proofs.Queue.Orderly

/-!
# Where the callbacks are

Callbacks move from pending jobs to the job that is being rendered, and on to the list that
a drain delivers, in steps that requests and a disposal can cut in between. Counted with
their multiplicities, none is lost on the way and none is doubled.
-/

namespace Multipass

/-- The callbacks that have yet to be called from the list that a drain works off. -/
def Drain.undelivered {κ : Type} : Drain κ → List κ
  | free => []
  | awaiting _ _ _ => []
  | delivering _ callback rest => callback :: rest

@[simp] theorem Drain.undelivered_deliver {κ : Type} (outcome : Outcome) (callbacks : List κ) :
    (Drain.deliver outcome callbacks).undelivered = callbacks := by
  cases callbacks <;> rfl

namespace Event

variable {κ : Type}

/-- The callback that was called, and with what. -/
def answer? : Event κ → Option (κ × Outcome)
  | answered callback outcome => some (callback, outcome)
  | _ => none

/-- The callback that was given up. -/
def dropped? : Event κ → Option κ
  | dropped callback => some callback
  | _ => none

/-- The callbacks that were called, with what they were called with. -/
def answers (events : List (Event κ)) : List (κ × Outcome) :=
  events.filterMap answer?

/-- The callbacks that were called, as often as they were. -/
def invoked (events : List (Event κ)) : Multiset κ :=
  ((answers events).map Prod.fst : List κ)

/-- The callbacks that were dropped without a call. -/
def givenUp (events : List (Event κ)) : Multiset κ :=
  (events.filterMap dropped? : List κ)

@[simp] theorem invoked_nil : invoked ([] : List (Event κ)) = 0 := rfl

@[simp] theorem givenUp_nil : givenUp ([] : List (Event κ)) = 0 := rfl

theorem answers_append (events more : List (Event κ)) :
    answers (events ++ more) = answers events ++ answers more :=
  List.filterMap_append

theorem invoked_append (events more : List (Event κ)) :
    invoked (events ++ more) = invoked events + invoked more := by
  simp only [invoked, answers_append, List.map_append, Multiset.coe_add]

theorem givenUp_append (events more : List (Event κ)) :
    givenUp (events ++ more) = givenUp events + givenUp more := by
  simp only [givenUp, List.filterMap_append, Multiset.coe_add]

@[simp] theorem invoked_dropped (callbacks : List κ) :
    invoked (callbacks.map Event.dropped) = 0 := by
  induction callbacks with
  | nil => rfl
  | cons callback rest ih => exact ih

@[simp] theorem givenUp_dropped (callbacks : List κ) :
    givenUp (callbacks.map Event.dropped) = callbacks := by
  simp only [givenUp, List.filterMap_map]
  exact congrArg _ (List.filterMap_some)

end Event

namespace Queue

variable {κ : Type} {queue after : Queue κ} {key : String} {callback : κ}

/-- Who waits for a pending job. -/
def inPending (queue : Queue κ) : Multiset κ :=
  (queue.pending.flatMap (·.callbacks) : List κ)

/-- Who waits for the job that is being rendered. -/
def inFlight (queue : Queue κ) : Multiset κ :=
  ((queue.flight.map (·.callbacks)).getD [] : List κ)

theorem coe_waiting (queue : Queue κ) :
    (queue.waiting : Multiset κ) = queue.inPending + queue.inFlight :=
  (Multiset.coe_add _ _).symm

theorem joinPending_callbacks {jobs joined : List (Job κ)}
    (joins : joinPending key callback jobs = some joined) :
    (joined.flatMap (·.callbacks) : Multiset κ) = jobs.flatMap (·.callbacks) + {callback} := by
  obtain ⟨front, job, back, rfl, -, -, rfl⟩ := joinPending_eq_some joins
  simp only [List.flatMap_append, List.flatMap_cons, ← Multiset.coe_add, Multiset.coe_singleton]
  abel

theorem join?_callbacks (joined : queue.join? key callback = some after) :
    after.inPending + after.inFlight = queue.inPending + queue.inFlight + {callback} := by
  rcases join?_cases joined with ⟨flight, rendering, -, rfl⟩ | ⟨pending, joins, rfl⟩
  · simp only [inPending, inFlight, rendering, Option.map_some, Option.getD_some,
      ← Multiset.coe_add, Multiset.coe_singleton]
    abel
  · simp only [inPending, inFlight, joinPending_callbacks joins]
    abel

theorem enqueue_callbacks (queue : Queue κ) (key : String) (passes : List PassSource)
    (callback : κ) :
    (queue.enqueue key passes callback).inPending = queue.inPending + {callback} := by
  simp only [inPending, enqueue, List.flatMap_append, ← Multiset.coe_add]
  rfl

/-- The front job takes its callbacks along when nobody else's job is being rendered. -/
theorem takeJob_callbacks {job : Job κ} {pending : List (Job κ)} (worker : Option Nat)
    (waits : queue.pending = job :: pending) (landed : queue.flight = none) :
    inPending { queue with pending, flight := some ⟨job.key, job.callbacks⟩, worker } +
      inFlight { queue with pending, flight := some ⟨job.key, job.callbacks⟩, worker } =
      queue.inPending + queue.inFlight := by
  simp only [inPending, inFlight, waits, landed, List.flatMap_cons, ← Multiset.coe_add,
    Option.map_some, Option.map_none, Option.getD_some, Option.getD_none, Multiset.coe_nil]
  abel

theorem resolve_callbacks (queue : Queue κ) (key : String) (ending : Ending) :
    inPending { queue.record key ending with flight := none } +
      inFlight { queue.record key ending with flight := none } = queue.inPending := by
  simp only [inPending, inFlight, record_pending]
  exact add_zero _

theorem dispose_callbacks (live : queue.disposed = false) :
    queue.dispose.inPending + queue.dispose.inFlight = 0 := by
  unfold dispose
  rw [if_neg (by simp [live])]
  rfl

end Queue

namespace Machine

variable {κ φ σ : Type}

/-- Who is about to be called back: clients whose request hit the cache, and those on the
    list of a drain. -/
def inDelivery (machine : Machine κ φ σ) : Multiset κ :=
  (machine.hits.map Prod.fst : List κ) + (machine.drains.flatMap (·.undelivered) : List κ)

/-- Everyone whose request was accepted and who was neither called back nor given up. -/
def held (machine : Machine κ φ σ) : Multiset κ :=
  machine.queue.inPending + machine.queue.inFlight + machine.inDelivery

/-- The callback that an action hands in, unless the queue was disposed of. -/
def accepts : Action κ → Bool → Multiset κ
  | .request _ _ callback, false => {callback}
  | _, _ => 0

variable {studio : Studio φ σ} {machine next : Machine κ φ σ} {action : Action κ}
  {events : List (Event κ)}

theorem JobEnds.accepts_eq_zero {drain number : Nat} {worker : Option Nat} {ending : Ending}
    (ends : JobEnds studio machine drain number worker action ending) (disposed : Bool) :
    accepts action disposed = 0 := by
  cases ends <;> rfl

/-- The hits without the one that is answered. -/
theorem hits_eraseIdx {hit : Nat} {callback : κ} {outcome : Outcome}
    (here : machine.hits[hit]? = some (callback, outcome)) :
    (machine.hits.map Prod.fst : Multiset κ) =
      {callback} + ((machine.hits.eraseIdx hit).map Prod.fst : List κ) := by
  obtain ⟨inside, here⟩ := List.getElem?_eq_some_iff.mp here
  have removed := ((List.getElem_cons_eraseIdx_perm inside).map Prod.fst).symm
  rw [here] at removed
  exact Multiset.coe_eq_coe.mpr removed

/-- The balance of a step that takes nothing in and tells of no callback. -/
theorem balance_of_eq {before after : Multiset κ} (same : before = after) :
    before + 0 = after + 0 + 0 := by
  rw [same, add_zero, add_zero]

/-- No step loses a callback or doubles one. -/
theorem Orderly.conserves (orderly : machine.Orderly)
    (steps : Transition studio machine action next events) :
    machine.held + accepts action machine.queue.disposed =
      next.held + Event.invoked events + Event.givenUp events := by
  cases steps with
  | refused disposed =>
    rw [disposed]
    exact balance_of_eq rfl
  | hit live _ =>
    rw [live]
    simp only [held, inDelivery, List.map_append, ← Multiset.coe_add, Event.invoked_nil,
      Event.givenUp_nil]
    simp only [accepts, List.map_cons, List.map_nil, Multiset.coe_singleton]
    abel
  | joined live _ _ joins =>
    rw [live]
    simp only [held, inDelivery, accepts, Queue.join?_callbacks joins, Event.invoked_nil,
      Event.givenUp_nil]
    abel
  | enqueued live _ _ =>
    rw [live]
    simp only [held, inDelivery, accepts, Queue.enqueue_callbacks]
    show _ = _ + machine.queue.inFlight + _ + 0 + 0
    abel
  | drainNotNeeded _ _ | takenUp _ _ | rendered _ _ | lost _ | disposedBefore _ =>
    exact balance_of_eq rfl
  | drainStarted _ free _ =>
    refine balance_of_eq ?_
    simp only [held, inDelivery, (orderly.idle free).1]
    rfl
  | hitAnswered here =>
    simp only [held, inDelivery, hits_eraseIdx here]
    show _ + 0 = _ + {_} + 0
    abel
  | drainEnded here _ =>
    obtain ⟨rfl, drains, -⟩ := orderly.only here
    refine balance_of_eq ?_
    simp only [held, inDelivery, drains]
    rfl
  | jobTaken here _ waits _ =>
    obtain ⟨rfl, drains, -⟩ := orderly.only here
    have landed := orderly.flight_eq_none here (by simp)
    refine balance_of_eq ?_
    simp only [held, inDelivery, drains, Queue.takeJob_callbacks _ waits landed]
    rfl
  | resolved here ends _ =>
    obtain ⟨rfl, drains, -⟩ := orderly.only here
    rw [ends.accepts_eq_zero]
    refine balance_of_eq ?_
    simp only [held, inDelivery, drains, Queue.resolve_callbacks, List.set_cons_zero,
      List.flatMap_singleton, Drain.undelivered_deliver]
    show _ + ((_ : Multiset κ) + 0) = _ + (_ + machine.queue.inFlight)
    abel
  | cutShort here ends _ =>
    obtain ⟨rfl, drains, -⟩ := orderly.only here
    rw [ends.accepts_eq_zero]
    refine balance_of_eq ?_
    simp only [held, inDelivery, drains]
    rfl
  | @calledBack _ _ callback rest _ here _ | @panicked _ _ callback rest _ _ here _ =>
    obtain ⟨rfl, drains, -⟩ := orderly.only here
    simp only [held, inDelivery, drains, List.set_cons_zero, List.flatMap_singleton,
      Drain.undelivered_deliver]
    show _ + (_ + ((callback :: rest : List κ) : Multiset κ)) + 0 = _ + {callback} + 0
    rw [← Multiset.cons_coe, ← Multiset.singleton_add]
    abel
  | disposed live =>
    rw [Event.invoked_dropped, Event.givenUp_dropped, Queue.coe_waiting]
    simp only [held, Queue.dispose_callbacks live]
    show _ + machine.inDelivery + 0 = 0 + machine.inDelivery + 0 + _
    abel

end Machine

end Multipass
