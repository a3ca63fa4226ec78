import Mathlib.Data.List.Basic
import Multipass.Queue.Machine

/-!
# What a step of the queue can do

For each way to hold the queue the outcomes that it can have, with what they say about
the queue before.
-/

namespace Multipass

namespace Queue

variable {κ : Type} {queue after : Queue κ} {key : String} {callback : κ}

theorem request_cases {coalesce : Bool} {passes : List PassSource} {admission : Admission}
    (requested : queue.request coalesce key passes callback = (after, admission)) :
    (queue.disposed = true ∧ after = queue ∧ admission = .refused) ∨
      (queue.disposed = false ∧ after = queue ∧
        ∃ outcome, queue.cached? key = some outcome ∧ admission = .cached outcome) ∨
      (queue.disposed = false ∧ queue.cached? key = none ∧ coalesce = true ∧
        queue.join? key callback = some after ∧ admission = .joined) ∨
      (queue.disposed = false ∧ queue.cached? key = none ∧
        (coalesce = true → queue.join? key callback = none) ∧
        after = queue.enqueue key passes callback ∧ admission = .enqueued queue.enqueued) := by
  unfold request at requested
  by_cases disposed : queue.disposed = true
  · rw [if_pos disposed] at requested
    exact .inl ⟨disposed, (Prod.mk.inj requested).1.symm, (Prod.mk.inj requested).2.symm⟩
  · rw [if_neg disposed] at requested
    refine .inr ?_
    have live := Bool.not_eq_true _ ▸ disposed
    cases cached : queue.cached? key with
    | some outcome =>
      rw [cached] at requested
      exact .inl ⟨live, (Prod.mk.inj requested).1.symm, outcome, rfl,
        (Prod.mk.inj requested).2.symm⟩
    | none =>
      rw [cached] at requested
      refine .inr ?_
      simp only at requested
      split at requested
      · rename_i joined
        rw [Option.ite_none_right_eq_some] at joined
        rw [← (Prod.mk.inj requested).1]
        exact .inl ⟨live, rfl, joined.1, joined.2, (Prod.mk.inj requested).2.symm⟩
      · rename_i apart
        refine .inr ⟨live, rfl, ?_, (Prod.mk.inj requested).1.symm,
          (Prod.mk.inj requested).2.symm⟩
        intro coalesces
        rwa [if_pos coalesces] at apart

/-- The first job for the key gets the callback, and the others stay as they are. -/
theorem joinPending_eq_some {jobs joined : List (Job κ)}
    (joins : joinPending key callback jobs = some joined) :
    ∃ front job back, jobs = front ++ job :: back ∧ job.key = key ∧
      (∀ other ∈ front, other.key ≠ key) ∧
      joined = front ++ { job with callbacks := job.callbacks ++ [callback] } :: back := by
  induction jobs generalizing joined with
  | nil => cases joins
  | cons job rest ih =>
    unfold joinPending at joins
    split at joins
    · rename_i same
      cases joins
      exact ⟨[], job, rest, rfl, same, by simp, rfl⟩
    · rename_i apart
      obtain ⟨later, joinsLater, rfl⟩ := Option.map_eq_some_iff.mp joins
      obtain ⟨front, found, back, rfl, same, first, rfl⟩ := ih joinsLater
      exact ⟨job :: front, found, back, rfl, same, List.forall_mem_cons.mpr ⟨apart, first⟩,
        rfl⟩

theorem join?_cases (joined : queue.join? key callback = some after) :
    (∃ flight, queue.flight = some flight ∧ flight.key = key ∧ after = { queue with
      flight := some { flight with callbacks := flight.callbacks ++ [callback] } }) ∨
      ∃ pending, joinPending key callback queue.pending = some pending ∧
        after = { queue with pending } := by
  unfold join? at joined
  simp only at joined
  split at joined
  · rename_i flight rendering
    split at joined
    · rename_i same
      exact .inl ⟨flight, rendering, same, (Option.some.inj joined).symm⟩
    · obtain ⟨pending, waits, same⟩ := Option.map_eq_some_iff.mp joined
      exact .inr ⟨pending, waits, same.symm⟩
  · obtain ⟨pending, waits, same⟩ := Option.map_eq_some_iff.mp joined
    exact .inr ⟨pending, waits, same.symm⟩

theorem startDrain_cases {starts : Bool} (started : queue.startDrain = (after, starts)) :
    (starts = false ∧ after = queue ∧ (queue.draining = true ∨ queue.pending = [])) ∨
      (starts = true ∧ after = { queue with draining := true } ∧ queue.draining = false ∧
        queue.pending ≠ []) := by
  unfold startDrain at started
  split at started
  · rename_i busy
    rw [Bool.or_eq_true, List.isEmpty_iff] at busy
    exact .inl ⟨(Prod.mk.inj started).2.symm, (Prod.mk.inj started).1.symm, busy⟩
  · rename_i free
    rw [Bool.not_eq_true, Bool.or_eq_false_iff, List.isEmpty_eq_false_iff] at free
    exact .inr ⟨(Prod.mk.inj started).2.symm, (Prod.mk.inj started).1.symm, free.1, free.2⟩

theorem takeJob_cases {taken : Option (Job κ)} (takes : queue.takeJob = (after, taken)) :
    (taken = none ∧ after = queue.stopDrain ∧ (queue.disposed = true ∨ queue.pending = [])) ∨
      ∃ job pending, taken = some job ∧ queue.disposed = false ∧ queue.pending = job :: pending ∧
        after = { queue with pending, flight := some ⟨job.key, job.callbacks⟩ } := by
  unfold takeJob at takes
  by_cases disposed : queue.disposed = true
  · rw [if_pos disposed] at takes
    exact .inl ⟨(Prod.mk.inj takes).2.symm, (Prod.mk.inj takes).1.symm, .inl disposed⟩
  · rw [if_neg disposed] at takes
    cases waiting : queue.pending with
    | nil =>
      rw [waiting] at takes
      exact .inl ⟨(Prod.mk.inj takes).2.symm, (Prod.mk.inj takes).1.symm, .inr rfl⟩
    | cons job pending =>
      rw [waiting] at takes
      exact .inr ⟨job, pending, (Prod.mk.inj takes).2.symm, Bool.not_eq_true _ ▸ disposed, rfl,
        (Prod.mk.inj takes).1.symm⟩

theorem resolve_cases {ending : Ending} {told : Option (List κ)}
    (resolves : queue.resolve key ending = (after, told)) :
    (told = none ∧ queue.disposed = true ∧ after = queue.stopDrain) ∨
      (told = some ((queue.flight.map (·.callbacks)).getD []) ∧ queue.disposed = false ∧
        after = { queue.record key ending with flight := none }) := by
  unfold resolve at resolves
  by_cases disposed : queue.disposed = true
  · rw [if_pos disposed] at resolves
    exact .inl ⟨(Prod.mk.inj resolves).2.symm, disposed, (Prod.mk.inj resolves).1.symm⟩
  · rw [if_neg disposed] at resolves
    exact .inr ⟨(Prod.mk.inj resolves).2.symm, Bool.not_eq_true _ ▸ disposed,
      (Prod.mk.inj resolves).1.symm⟩

theorem dispose_of_live (live : queue.disposed = false) :
    queue.dispose = { queue with
      cache := [], pending := [], flight := none, disposed := true, hasFactory := false,
      worker := none } :=
  if_neg (by simp [live])

section Record

variable (queue : Queue κ) (key : String) (ending : Ending)

@[simp] theorem record_pending : (queue.record key ending).pending = queue.pending := by
  cases ending <;> rfl

@[simp] theorem record_draining : (queue.record key ending).draining = queue.draining := by
  cases ending <;> rfl

@[simp] theorem record_enqueued : (queue.record key ending).enqueued = queue.enqueued := by
  cases ending <;> rfl

@[simp] theorem record_disposed : (queue.record key ending).disposed = queue.disposed := by
  cases ending <;> rfl

end Record

end Queue

end Multipass
