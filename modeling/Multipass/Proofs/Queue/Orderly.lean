import Multipass.Proofs.Queue.Transition

/-!
# One drain, one job

Between any two steps at most one drain is at work, and a job is being rendered only while
that drain waits for it.
-/

namespace Multipass

namespace Queue

variable {κ : Type} {queue after : Queue κ} {key : String} {callback : κ}

/-- A request that joins a job changes nothing but who waits. -/
theorem join?_frame (joined : queue.join? key callback = some after) :
    after.draining = queue.draining ∧ after.disposed = queue.disposed ∧
      (after.flight.isSome = true → queue.flight.isSome = true) := by
  rcases join?_cases joined with ⟨flight, rendering, -, rfl⟩ | ⟨pending, -, rfl⟩
  · refine ⟨rfl, rfl, ?_⟩
    intro _
    rw [rendering]
    rfl
  · exact ⟨rfl, rfl, id⟩

end Queue

namespace Machine

variable {κ φ σ : Type}

/-- What holds of the queue and its drains between any two steps. A disposed queue holds
    nobody who waits. -/
structure Orderly (machine : Machine κ φ σ) : Prop where
  alone : machine.drains.length = machine.queue.draining.toNat
  waits : machine.queue.flight.isSome = true →
    ∃ number key worker, machine.drains = [.awaiting number key worker]
  gone : machine.queue.disposed = true →
    machine.queue.pending = [] ∧ machine.queue.flight = none

theorem orderly_start (factory : φ) : Orderly (start factory : Machine κ φ σ) where
  alone := rfl
  waits := by
    intro rendering
    cases rendering
  gone := by
    intro disposed
    cases disposed

variable {studio : Studio φ σ} {machine next : Machine κ φ σ} {action : Action κ}
  {events : List (Event κ)} {index : Nat} {drain : Drain κ}

/-- The drain that takes a step is the only one. -/
theorem Orderly.only (orderly : machine.Orderly) (here : machine.drains[index]? = some drain) :
    index = 0 ∧ machine.drains = [drain] ∧ machine.queue.draining = true := by
  obtain ⟨inside, here⟩ := List.getElem?_eq_some_iff.mp here
  have alone := orderly.alone
  cases draining : machine.queue.draining with
  | false =>
    rw [draining] at alone
    exact absurd inside (by simp [alone])
  | true =>
    rw [draining] at alone
    obtain ⟨only, drains⟩ := List.length_eq_one_iff.mp alone
    have first : index = 0 := by
      simp only [drains, List.length_singleton] at inside
      omega
    subst first
    simp only [drains, List.getElem_cons_zero] at here
    exact ⟨rfl, by rw [drains, here], rfl⟩

/-- Only a drain that waits leaves a job to be rendered. -/
theorem Orderly.flight_eq_none (orderly : machine.Orderly)
    (here : machine.drains[index]? = some drain)
    (busy : ∀ number key worker, drain ≠ .awaiting number key worker) :
    machine.queue.flight = none := by
  cases rendering : machine.queue.flight with
  | none => rfl
  | some flight =>
    obtain ⟨number, key, worker, drains⟩ := orderly.waits (by rw [rendering]; rfl)
    obtain ⟨-, same, -⟩ := orderly.only here
    rw [drains, List.singleton_inj] at same
    exact absurd same.symm (busy number key worker)

/-- No drain is at work, so that no job is being rendered. -/
theorem Orderly.idle (orderly : machine.Orderly) (free : machine.queue.draining = false) :
    machine.drains = [] ∧ machine.queue.flight = none := by
  have drains : machine.drains = [] := by
    rw [← List.length_eq_zero_iff, orderly.alone, free]
    rfl
  refine ⟨drains, ?_⟩
  cases rendering : machine.queue.flight with
  | none => rfl
  | some flight =>
    obtain ⟨number, key, worker, waiting⟩ := orderly.waits (by rw [rendering]; rfl)
    rw [drains] at waiting
    cases waiting

theorem Orderly.transition (orderly : machine.Orderly)
    (steps : Transition studio machine action next events) : next.Orderly := by
  cases steps with
  | refused _ | disposedBefore _ => exact orderly
  | hit _ _ | drainNotNeeded _ _ | hitAnswered _ | takenUp _ _ | rendered _ _ | lost _ =>
    exact ⟨orderly.alone, orderly.waits, orderly.gone⟩
  | joined live _ _ joins =>
    obtain ⟨draining, disposed, rendering⟩ := Queue.join?_frame joins
    refine ⟨?_, ?_, ?_⟩
    · exact orderly.alone.trans (congrArg Bool.toNat draining.symm)
    · intro flies
      exact orderly.waits (rendering flies)
    · intro gone
      exact absurd (disposed.symm.trans gone) (by simp [live])
  | enqueued live _ _ =>
    refine ⟨orderly.alone, orderly.waits, ?_⟩
    intro gone
    exact absurd gone (by simp [Queue.enqueue, live])
  | drainStarted _ free waits =>
    obtain ⟨drains, idle⟩ := orderly.idle free
    refine ⟨by simp [drains], ?_, ?_⟩
    · intro flies
      exact absurd flies (by simp [idle])
    · intro gone
      exact absurd (orderly.gone gone).1 waits
  | drainEnded here idle =>
    obtain ⟨rfl, drains, -⟩ := orderly.only here
    have landed := orderly.flight_eq_none here (by simp)
    refine ⟨by simp [drains, Queue.stopDrain], ?_, orderly.gone⟩
    intro flies
    exact absurd flies (by simp [Queue.stopDrain, landed])
  | jobTaken here live _ _ =>
    obtain ⟨rfl, drains, draining⟩ := orderly.only here
    refine ⟨by simp [drains, draining], ?_, ?_⟩
    · intro _
      exact ⟨_, _, _, by rw [drains]; rfl⟩
    · intro gone
      exact absurd gone (by simp [live])
  | resolved here _ live =>
    obtain ⟨rfl, drains, draining⟩ := orderly.only here
    refine ⟨by simp [drains, draining], ?_, ?_⟩
    · intro flies
      cases flies
    · intro gone
      exact absurd gone (by simp [live])
  | cutShort here _ disposed =>
    obtain ⟨rfl, drains, -⟩ := orderly.only here
    refine ⟨by simp [drains, Queue.stopDrain], ?_, orderly.gone⟩
    intro flies
    exact absurd flies (by simp [Queue.stopDrain, (orderly.gone disposed).2])
  | calledBack here _ | panicked here _ =>
    obtain ⟨rfl, drains, draining⟩ := orderly.only here
    have landed := orderly.flight_eq_none here (by simp)
    refine ⟨by simp [drains, draining], ?_, orderly.gone⟩
    intro flies
    exact absurd flies (by simp [landed])
  | disposed live =>
    rw [Queue.dispose_of_live live]
    refine ⟨orderly.alone, ?_, ?_⟩
    · intro flies
      cases flies
    · intro _
      exact ⟨rfl, rfl⟩

theorem Orderly.run {actions : List (Action κ)} (orderly : machine.Orderly)
    (runs : Machine.run studio actions machine = some (next, events)) : next.Orderly :=
  run_preserves Orderly Orderly.transition orderly runs

end Machine

end Multipass
