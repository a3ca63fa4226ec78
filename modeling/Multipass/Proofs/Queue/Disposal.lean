import Multipass.Proofs.Queue.Answers

/-!
# Disposal is final

Once the queue was disposed of it stays empty, whatever the threads that are still at work do
to it. Nobody who waited at that moment is called back, and nobody who comes later is: only
callbacks that were on their way already are still called.
-/

namespace Multipass

/-- A queue that gave up all it held: no job waits or is being rendered, no outcome is
    remembered, and there is no worker, nor anything to start one with. -/
structure Queue.IsReleased {κ : Type} (queue : Queue κ) : Prop where
  disposed : queue.disposed = true
  pending : queue.pending = []
  flight : queue.flight = none
  cache : queue.cache = []
  worker : queue.worker = none
  factory : queue.hasFactory = false

theorem Queue.IsReleased.waiting {κ : Type} {queue : Queue κ} (released : queue.IsReleased) :
    queue.inPending + queue.inFlight = 0 := by
  simp [inPending, inFlight, released.pending, released.flight]

namespace Machine

variable {κ φ σ : Type} {studio : Studio φ σ} {machine next disposed last : Machine κ φ σ}
  {action : Action κ} {before after : List (Action κ)} {told between later events : List (Event κ)}
  {factory : φ}

/-- Is the queue released, if it was disposed of? -/
def Settled (machine : Machine κ φ σ) : Prop :=
  machine.queue.disposed = true → machine.queue.IsReleased

theorem settled_start (factory : φ) : Settled (start factory : Machine κ φ σ) := by
  intro gone
  cases gone

/-- Every step that changes a queue looks first whether it was disposed of. -/
theorem Settled.transition (settled : machine.Settled)
    (steps : Transition studio machine action next events) : next.Settled := by
  intro gone
  cases steps with
  | joined live _ _ joins =>
    rw [(Queue.join?_frame joins).2.1, live] at gone
    cases gone
  | enqueued live _ _ | jobTaken _ live _ _ =>
    rw [show machine.queue.disposed = true from gone] at live
    cases live
  | resolved _ _ live =>
    rw [show machine.queue.disposed = true from (Queue.record_disposed _ _ _).symm.trans gone]
      at live
    cases live
  | drainStarted _ _ _ | drainEnded _ _ | cutShort _ _ _ =>
    have released := settled gone
    exact ⟨gone, released.pending, released.flight, released.cache, released.worker,
      released.factory⟩
  | disposed live =>
    rw [Queue.dispose_of_live live]
    exact ⟨rfl, rfl, rfl, rfl, rfl, rfl⟩
  | _ => exact settled gone

theorem Settled.run (settled : machine.Settled)
    (runs : Machine.run studio after machine = some (next, events)) : next.Settled :=
  run_preserves Settled Settled.transition settled runs

/-- What was disposed of stays so. -/
theorem disposed_of_run (gone : machine.queue.disposed = true)
    (runs : Machine.run studio after machine = some (next, events)) :
    next.queue.disposed = true := by
  refine run_preserves (fun machine => machine.queue.disposed = true) ?_ gone runs
  intro machine next action events gone steps
  rw [disposed_of_transition steps, gone, Bool.true_or]

/-- After its disposal a queue takes nobody in, so that only those are called back who were
    about to be. -/
theorem invoked_le_inDelivery (orderly : machine.Orderly) (released : machine.queue.IsReleased)
    (runs : Machine.run studio after machine = some (next, events)) :
    Event.invoked events ≤ machine.inDelivery := by
  have balance := orderly.run_conserves runs
  rw [released.disposed, held, released.waiting, zero_add] at balance
  calc Event.invoked events
      ≤ next.held + Event.invoked events := Multiset.le_add_left _ _
    _ ≤ next.held + Event.invoked events + Event.givenUp events := Multiset.le_add_right _ _
    _ = machine.inDelivery := by rw [← balance]; exact add_zero _

/-- The disposal itself calls nobody back, and those who are about to be called stay so. -/
theorem disposal_frame (disposes : machine.dispose = (disposed, told)) :
    disposed.inDelivery = machine.inDelivery ∧ Event.invoked told = 0 := by
  unfold dispose at disposes
  split at disposes
  · cases disposes
    exact ⟨rfl, rfl⟩
  · cases disposes
    exact ⟨rfl, Event.invoked_dropped _⟩

/-- Those who come before a disposal are among all who come. -/
theorem accepted_subset (actions : List (Action κ)) :
    (Action.accepted actions).Sublist (actions.filterMap Action.callback?) :=
  (List.takeWhile_sublist _).filterMap _

/-- From its disposal on the queue is empty for good. Those who were called back, before the
    disposal or after it, and those who waited at that moment are different ones among those
    whose requests were accepted before it. So nobody who waited is ever called back, nor
    anybody whose request came later. -/
theorem disposal_is_final
    (runs : Machine.run studio before (.start factory) = some (machine, told))
    (disposes : machine.dispose = (disposed, between))
    (goesOn : Machine.run studio after disposed = some (last, later)) :
    last.queue.IsReleased ∧
      Event.invoked (told ++ between ++ later) + machine.queue.waiting ≤ Action.accepted before ∧
      (((before ++ after).filterMap Action.callback?).Nodup → ∀ callback,
        callback ∈ machine.queue.waiting ∨ callback ∈ after.filterMap Action.callback? →
          callback ∉ Event.invoked (told ++ between ++ later)) := by
  have steps : Transition studio machine .dispose disposed between :=
    transition_of_dispose disposes
  have orderly := ((orderly_start factory).run runs).transition steps
  have gone : disposed.queue.disposed = true := by
    rw [disposed_of_transition steps]
    exact Bool.or_true _
  have settled := ((settled_start factory).run runs).transition steps
  have released := settled gone
  obtain ⟨delivery, silent⟩ := disposal_frame disposes
  have called : Event.invoked later ≤ machine.inDelivery :=
    delivery ▸ invoked_le_inDelivery orderly released goesOn
  have apart : Event.invoked (told ++ between ++ later) + machine.queue.waiting ≤
      Action.accepted before := by
    rw [Event.invoked_append, Event.invoked_append, silent, Queue.coe_waiting, accepted_eq runs]
    calc Event.invoked told + 0 + Event.invoked later +
          (machine.queue.inPending + machine.queue.inFlight)
        ≤ Event.invoked told + 0 + machine.inDelivery +
          (machine.queue.inPending + machine.queue.inFlight) := by gcongr
      _ = machine.queue.inPending + machine.queue.inFlight + machine.inDelivery +
          Event.invoked told := by abel
      _ ≤ _ := Multiset.le_add_right _ _
  refine ⟨settled.run goesOn (disposed_of_run gone goesOn), apart, ?_⟩
  intro distinct callback outside invoked
  rw [List.filterMap_append] at distinct
  have accepted : callback ∈ (before.filterMap Action.callback?) := by
    refine (accepted_subset before).subset ?_
    exact Multiset.mem_of_le apart (Multiset.mem_add.mpr (.inl invoked))
  rcases outside with waited | late
  · have once := Multiset.nodup_of_le apart
      (Multiset.coe_nodup.mpr ((List.nodup_append.mp distinct).1.sublist (accepted_subset before)))
    exact Multiset.disjoint_left.mp (Multiset.nodup_add.mp once).2.2 invoked waited
  · exact (List.nodup_append.mp distinct).2.2 callback accepted callback late rfl

/-- Two clients wait for the job that is being rendered and one for a pending job. -/
def waitingThree : List (Action Nat) :=
  [.request "a" [] 1, .startDrain, .beginRound 0, .request "a" [] 2, .request "b" [] 3]

/-- A reply that comes too late, a client that comes too late, and another disposal. -/
def tooLate : List (Action Nat) :=
  [.takeUp 0, .finish 0, .request "c" [] 4, .dispose]

theorem disposal_is_final_waitingThree :
    ∃ machine told disposed between last later,
      Machine.run refusing waitingThree (.start ()) = some (machine, told) ∧
      machine.dispose = (disposed, between) ∧
      Machine.run refusing tooLate disposed = some (last, later) ∧
      machine.queue.waiting = [3, 1, 2] ∧ last.queue.IsReleased ∧
      ∀ callback ∈ machine.queue.waiting ++ [4], callback ∉ Event.invoked (told ++ between ++ later) := by
  obtain ⟨machine, told, disposed, between, last, later, runs, disposes, goesOn, waits⟩ :
      ∃ machine told disposed between last later,
        Machine.run refusing waitingThree (.start ()) = some (machine, told) ∧
        machine.dispose = (disposed, between) ∧
        Machine.run refusing tooLate disposed = some (last, later) ∧
        machine.queue.waiting = [3, 1, 2] :=
    ⟨_, _, _, _, _, _, rfl, rfl, rfl, rfl⟩
  obtain ⟨released, -, silent⟩ := disposal_is_final runs disposes goesOn
  refine ⟨machine, told, disposed, between, last, later, runs, disposes, goesOn, waits,
    released, ?_⟩
  intro callback member
  exact silent (by decide) callback (List.mem_append.mp member)

end Machine

end Multipass
