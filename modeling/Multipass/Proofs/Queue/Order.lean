import Mathlib.Data.List.Range
import Multipass.Proofs.Queue.Answers

/-!
# Progress and order of the jobs

Jobs go through the queue in the order in which they came: those that are resolved, the one
in hand and those that wait are together the jobs that were ever enqueued. While jobs wait
there is a drain, or a client that has yet to see to it.
-/

namespace Multipass

namespace Event

variable {κ : Type}

/-- The job that was enqueued, if one was. -/
def enqueued? : Event κ → Option Nat
  | enqueued number => some number
  | _ => none

/-- The job that a drain took, if one did. -/
def started? : Event κ → Option Nat
  | started number => some number
  | _ => none

/-- The job that was resolved, and how it ended. -/
def resolved? : Event κ → Option (Nat × Ending)
  | resolved number ending => some (number, ending)
  | _ => none

/-- The jobs that were enqueued, in this order. -/
def enqueuedJobs (events : List (Event κ)) : List Nat :=
  events.filterMap enqueued?

/-- The jobs that a drain took, in this order. -/
def startedJobs (events : List (Event κ)) : List Nat :=
  events.filterMap started?

/-- The jobs that were resolved, in this order, and how each of them ended. -/
def resolvedJobs (events : List (Event κ)) : List (Nat × Ending) :=
  events.filterMap resolved?

/-- What events say about the jobs of the queue. -/
structure Tells (events : List (Event κ)) (enqueued started : List Nat)
    (resolved : List (Nat × Ending)) : Prop where
  enqueuedJobs : enqueuedJobs events = enqueued
  startedJobs : startedJobs events = started
  resolvedJobs : resolvedJobs events = resolved

theorem Tells.append {events more : List (Event κ)} {enqueued started enqueued' started' : List Nat}
    {resolved resolved' : List (Nat × Ending)} (told : Tells events enqueued started resolved)
    (goesOn : Tells more enqueued' started' resolved') :
    Tells (events ++ more) (enqueued ++ enqueued') (started ++ started')
      (resolved ++ resolved') where
  enqueuedJobs := List.filterMap_append.trans
    (congrArg₂ _ told.enqueuedJobs goesOn.enqueuedJobs)
  startedJobs := List.filterMap_append.trans (congrArg₂ _ told.startedJobs goesOn.startedJobs)
  resolvedJobs := List.filterMap_append.trans (congrArg₂ _ told.resolvedJobs goesOn.resolvedJobs)

theorem tells_dropped (callbacks : List κ) : Tells (callbacks.map Event.dropped) [] [] [] := by
  induction callbacks with
  | nil => exact ⟨rfl, rfl, rfl⟩
  | cons callback rest ih => exact ⟨ih.enqueuedJobs, ih.startedJobs, ih.resolvedJobs⟩

end Event

/-- The outcome that is remembered for a job that ended so, if any is. -/
def Ending.remembered? : Ending → Option Outcome
  | finished outcome => some outcome
  | timedOut => some none
  | unreachable => none

/-- The outcomes to remember when jobs with these keys were resolved, in the same order. -/
def remembered (keys : List String) (resolved : List (Nat × Ending)) : List (String × Outcome) :=
  resolved.filterMap fun (number, ending) => do
    let key ← keys[number]?
    let outcome ← ending.remembered?
    return (key, outcome)

/-- The key and the number of a job. -/
def Job.label {κ : Type} (job : Job κ) : String × Nat :=
  (job.key, job.number)

/-- The job that a drain handed to a worker and that has yet to be resolved. -/
def Drain.awaited? {κ : Type} : Drain κ → Option (String × Nat)
  | awaiting number key _ => some (key, number)
  | _ => none

@[simp] theorem Drain.awaited?_deliver {κ : Type} (outcome : Outcome) (callbacks : List κ) :
    (Drain.deliver outcome callbacks).awaited? = none := by
  cases callbacks <;> rfl

/-- A drain that tells how a job ended awaits none. -/
theorem Drain.getElem?_deliver_ne_awaiting {κ : Type} (outcome : Outcome) (callbacks : List κ)
    {index number : Nat} {key : String} {worker : Option Nat} :
    [Drain.deliver outcome callbacks][index]? ≠ some (.awaiting number key worker) := by
  intro there
  have awaits := congrArg Drain.awaited? (List.mem_singleton.mp (List.mem_of_getElem? there))
  rw [Drain.awaited?_deliver] at awaits
  cases awaits

namespace Queue

variable {κ : Type} {queue after : Queue κ} {key : String} {callback : κ}

theorem joinPending_labels {jobs joined : List (Job κ)}
    (joins : joinPending key callback jobs = some joined) :
    joined.map Job.label = jobs.map Job.label := by
  obtain ⟨front, job, back, rfl, -, -, rfl⟩ := joinPending_eq_some joins
  rw [List.map_append, List.map_append, List.map_cons, List.map_cons]
  rfl

/-- A request that joins a job leaves the jobs and the cache alone. -/
theorem join?_jobs (joined : queue.join? key callback = some after) :
    after.pending.map Job.label = queue.pending.map Job.label ∧
      after.enqueued = queue.enqueued ∧ after.cache = queue.cache := by
  rcases join?_cases joined with ⟨flight, -, -, rfl⟩ | ⟨pending, joins, rfl⟩
  · exact ⟨rfl, rfl, rfl⟩
  · exact ⟨joinPending_labels joins, rfl, rfl⟩

theorem record_cache (queue : Queue κ) (key : String) (ending : Ending) :
    (queue.record key ending).cache.reverse =
      queue.cache.reverse ++ (ending.remembered?.map (key, ·)).toList := by
  cases ending with
  | finished outcome => exact List.reverse_cons
  | timedOut => exact List.reverse_cons
  | unreachable => exact (List.append_nil _).symm

end Queue

/-! ## Numbered keys -/

section Keys

variable {keys more : List String} {key : String} {number index : Nat}

/-- What comes at a place in a row of numbered keys. -/
theorem of_drop_zipIdx_eq_cons {rest : List (String × Nat)}
    (drop : keys.zipIdx.drop index = (key, number) :: rest) :
    number = index ∧ keys[index]? = some key ∧ keys.zipIdx.drop (index + 1) = rest := by
  have here := congrArg List.head? drop
  rw [List.head?_drop, List.getElem?_zipIdx, List.head?_cons, Option.map_eq_some_iff] at here
  obtain ⟨_, found, same⟩ := here
  cases same
  have tail := congrArg List.tail drop
  rw [List.tail_drop, List.tail_cons] at tail
  exact ⟨by omega, found, tail⟩

theorem remembered_append (keys : List String) (resolved others : List (Nat × Ending)) :
    remembered keys (resolved ++ others) = remembered keys resolved ++ remembered keys others :=
  List.filterMap_append

theorem remembered_singleton (found : keys[number]? = some key) (ending : Ending) :
    remembered keys [(number, ending)] = (ending.remembered?.map (key, ·)).toList := by
  simp only [remembered, List.filterMap_cons, found]
  cases ending <;> rfl

/-- Keys of later jobs make no difference to what is remembered for earlier ones. -/
theorem remembered_of_lt {resolved : List (Nat × Ending)}
    (known : ∀ job ∈ resolved, job.1 < keys.length) :
    remembered (keys ++ more) resolved = remembered keys resolved := by
  refine List.filterMap_congr ?_
  rintro ⟨number, ending⟩ member
  simp only [List.getElem?_append_left (known _ member)]

end Keys

namespace Machine

variable {κ φ σ : Type}

/-- The key of the job that a step enqueued, if it did. -/
def enqueuedKey : Action κ → List (Event κ) → List String
  | .request key _ _, [.enqueued _] => [key]
  | _, _ => []

/-- The keys of the jobs that a run enqueues, in the order of their numbers. -/
def enqueuedKeys (studio : Studio φ σ) : List (Action κ) → Machine κ φ σ → List String
  | [], _ => []
  | action :: rest, machine =>
    match machine.step studio action with
    | none => []
    | some (next, events) => enqueuedKey action events ++ enqueuedKeys studio rest next

/-- The job that is handed to a worker and has yet to be resolved. -/
def inHand (machine : Machine κ φ σ) : List (String × Nat) :=
  machine.drains.filterMap Drain.awaited?

/-- Where the jobs with the given keys are, after events that told of them: so many were
    started, and these were resolved. A disposed queue has forgotten the others. -/
structure Ordered (keys : List String) (told : List (Event κ)) (started : Nat)
    (resolved : List (Nat × Ending)) (machine : Machine κ φ σ) : Prop where
  count : machine.queue.enqueued = keys.length
  tells : Event.Tells told (List.range keys.length) (List.range started) resolved
  numbers : resolved.map Prod.fst = List.range resolved.length
  bounds : resolved.length ≤ started ∧ started ≤ resolved.length + 1 ∧ started ≤ keys.length
  begun : machine.queue.disposed = false → started = resolved.length + machine.inHand.length
  jobs : machine.queue.disposed = false →
    keys.zipIdx.drop resolved.length = machine.inHand ++ machine.queue.pending.map Job.label
  cache : machine.queue.disposed = false →
    machine.queue.cache.reverse = remembered keys resolved
  cleared : machine.queue.disposed = true → machine.queue.cache = []

theorem ordered_start (factory : φ) : Ordered [] [] 0 [] (start factory : Machine κ φ σ) where
  count := rfl
  tells := ⟨rfl, rfl, rfl⟩
  numbers := rfl
  bounds := ⟨Nat.le_refl 0, Nat.zero_le 1, Nat.le_refl 0⟩
  begun := fun _ => rfl
  jobs := fun _ => rfl
  cache := fun _ => rfl
  cleared := fun _ => rfl

section Steps

variable {studio : Studio φ σ} {machine next : Machine κ φ σ} {action : Action κ}
  {events told : List (Event κ)} {keys : List String} {started : Nat}
  {resolved : List (Nat × Ending)}

theorem Ordered.known (ordered : Ordered keys told started resolved machine) :
    ∀ job ∈ resolved, job.1 < keys.length := by
  intro job member
  have number := List.mem_map_of_mem (f := Prod.fst) member
  rw [ordered.numbers, List.mem_range] at number
  have := ordered.bounds
  omega

/-- A step that leaves the jobs where they are and says nothing about them. -/
theorem Ordered.quiet (ordered : Ordered keys told started resolved machine)
    (quiet : Event.Tells events [] [] []) (count : next.queue.enqueued = machine.queue.enqueued)
    (disposed : next.queue.disposed = machine.queue.disposed)
    (inHand : machine.queue.disposed = false → next.inHand = machine.inHand)
    (pending : next.queue.pending.map Job.label = machine.queue.pending.map Job.label)
    (cache : next.queue.cache = machine.queue.cache) :
    Ordered keys (told ++ events) started resolved next where
  count := count.trans ordered.count
  tells := by simpa using ordered.tells.append quiet
  numbers := ordered.numbers
  bounds := ordered.bounds
  begun := by
    intro live
    rw [disposed] at live
    rw [inHand live, ordered.begun live]
  jobs := by
    intro live
    rw [disposed] at live
    rw [inHand live, pending, ordered.jobs live]
  cache := by
    intro live
    rw [disposed] at live
    rw [cache, ordered.cache live]
  cleared := by
    intro gone
    rw [disposed] at gone
    rw [cache, ordered.cleared gone]

theorem Ordered.enqueue (ordered : Ordered keys told started resolved machine)
    (live : machine.queue.disposed = false) (key : String) (passes : List PassSource)
    (callback : κ) :
    Ordered (keys ++ [key]) (told ++ [.enqueued machine.queue.enqueued]) started resolved
      { machine with
        queue := machine.queue.enqueue key passes callback
        arriving := machine.arriving + 1 } where
  count := by
    rw [List.length_append, ← ordered.count]
    rfl
  tells := by
    have enqueued : Event.Tells [(.enqueued machine.queue.enqueued : Event κ)]
        [machine.queue.enqueued] [] [] := ⟨rfl, rfl, rfl⟩
    simpa [List.range_succ, ordered.count] using ordered.tells.append enqueued
  numbers := ordered.numbers
  bounds := by
    have bounds := ordered.bounds
    rw [List.length_append]
    omega
  begun := ordered.begun
  jobs := by
    intro _
    have inside : resolved.length ≤ keys.zipIdx.length := by
      have bounds := ordered.bounds
      rw [List.length_zipIdx]
      omega
    have waits : (machine.queue.enqueue key passes callback).pending.map Job.label =
        machine.queue.pending.map Job.label ++ [(key, machine.queue.enqueued)] := List.map_append
    simp only [List.zipIdx_append, List.drop_append_of_le_length inside, ordered.jobs live, waits,
      List.append_assoc, ordered.count, Nat.zero_add]
    rfl
  cache := by
    intro _
    exact (ordered.cache live).trans (remembered_of_lt ordered.known).symm
  cleared := by
    intro gone
    rw [show machine.queue.disposed = true from gone] at live
    cases live

/-- The job that a free drain takes is the next one in order. -/
theorem Ordered.take (ordered : Ordered keys told started resolved machine) {drain : Nat}
    {job : Job κ} {pending : List (Job κ)} {inUse worker : Option Nat}
    {workers : List (Worker σ)} (orderly : machine.Orderly)
    (here : machine.drains[drain]? = some .free) (live : machine.queue.disposed = false)
    (waits : machine.queue.pending = job :: pending) :
    Ordered keys (told ++ [.started job.number]) (started + 1) resolved
      { machine with
        queue := { machine.queue with
          pending, flight := some ⟨job.key, job.callbacks⟩, worker := inUse }
        workers
        drains := machine.drains.set drain (.awaiting job.number job.key worker) } := by
  obtain ⟨rfl, drains, -⟩ := orderly.only here
  have free : machine.inHand = [] := by
    rw [inHand, drains]
    rfl
  have jobs := ordered.jobs live
  have begun := ordered.begun live
  rw [free, waits] at jobs
  rw [free, List.length_nil, Nat.add_zero] at begun
  obtain ⟨turn, found, -⟩ := of_drop_zipIdx_eq_cons jobs
  have inside := (List.getElem?_eq_some_iff.mp found).1
  refine ⟨ordered.count, ?_, ordered.numbers, by omega, ?_, ?_, ordered.cache, ordered.cleared⟩
  · have told : Event.Tells [(.started job.number : Event κ)] [] [job.number] [] :=
      ⟨rfl, rfl, rfl⟩
    simpa [List.range_succ, turn, begun] using ordered.tells.append told
  · intro _
    rw [inHand, drains, begun]
    rfl
  · intro _
    rw [jobs, inHand, drains]
    rfl

/-- The job that is resolved is the one that was taken last. -/
theorem Ordered.resolve (ordered : Ordered keys told started resolved machine)
    {drain number : Nat} {key : String} {worker : Option Nat} (orderly : machine.Orderly)
    (here : machine.drains[drain]? = some (.awaiting number key worker))
    (live : machine.queue.disposed = false) (ending : Ending) (callbacks : List κ) :
    Ordered keys (told ++ [.resolved number ending]) started (resolved ++ [(number, ending)])
      { machine with
        queue := { machine.queue.record key ending with flight := none }
        drains := machine.drains.set drain (.deliver ending.outcome callbacks) } := by
  obtain ⟨rfl, drains, -⟩ := orderly.only here
  have busy : machine.inHand = [(key, number)] := by
    rw [inHand, drains]
    rfl
  have jobs := ordered.jobs live
  have begun := ordered.begun live
  rw [busy] at jobs begun
  obtain ⟨turn, found, others⟩ := of_drop_zipIdx_eq_cons jobs
  have size : (resolved ++ [(number, ending)]).length = resolved.length + 1 := List.length_append
  have bounds := ordered.bounds
  constructor
  · exact (Queue.record_enqueued _ _ _).trans ordered.count
  · have told : Event.Tells [(.resolved number ending : Event κ)] [] [] [(number, ending)] :=
      ⟨rfl, rfl, rfl⟩
    simpa using ordered.tells.append told
  · rw [List.map_append, ordered.numbers, size, List.range_succ, ← turn]
    rfl
  · rw [List.length_singleton] at begun
    omega
  · intro _
    rw [begun, size, inHand, drains]
    simp
  · intro _
    rw [size, others, inHand, drains]
    simp
  · intro _
    rw [remembered_append, ← ordered.cache live, remembered_singleton (turn ▸ found)]
    exact Queue.record_cache _ _ _
  · intro gone
    rw [show machine.queue.disposed = true by simpa using gone] at live
    cases live

theorem Ordered.dispose (ordered : Ordered keys told started resolved machine)
    (live : machine.queue.disposed = false) :
    Ordered keys (told ++ machine.queue.waiting.map .dropped) started resolved
      { machine with queue := machine.queue.dispose } := by
  rw [Queue.dispose_of_live live]
  refine ⟨ordered.count, ?_, ordered.numbers, ordered.bounds, ?_, ?_, ?_, fun _ => rfl⟩
  · simpa using ordered.tells.append (Event.tells_dropped machine.queue.waiting)
  all_goals
    intro still
    cases still

theorem JobEnds.enqueuedKey_eq_nil {drain number : Nat} {worker : Option Nat} {ending : Ending}
    (ends : JobEnds studio machine drain number worker action ending) (events : List (Event κ)) :
    enqueuedKey action events = [] := by
  cases ends <;> rfl

theorem Ordered.of_eq_nil {others : List String} (nothing : others = [])
    (ordered : Ordered keys told started resolved machine) :
    Ordered (keys ++ others) told started resolved machine := by
  rwa [nothing, List.append_nil]

/-- A step keeps the jobs in order. -/
theorem Ordered.transition (ordered : Ordered keys told started resolved machine)
    (orderly : machine.Orderly) (steps : Transition studio machine action next events) :
    ∃ begun ended,
      Ordered (keys ++ enqueuedKey action events) (told ++ events) begun ended next := by
  cases steps with
  | refused _ | hit _ _ | drainNotNeeded _ _ | hitAnswered _ | takenUp _ _ | rendered _ _
  | lost _ | disposedBefore _ =>
    refine ⟨_, _, .of_eq_nil rfl (ordered.quiet ⟨rfl, rfl, rfl⟩ rfl rfl ?_ rfl rfl)⟩
    exact fun _ => rfl
  | joined _ _ _ joins =>
    obtain ⟨pending, count, cache⟩ := Queue.join?_jobs joins
    have disposed := (Queue.join?_frame joins).2.1
    refine ⟨_, _, .of_eq_nil rfl (ordered.quiet ⟨rfl, rfl, rfl⟩ count disposed ?_ pending cache)⟩
    exact fun _ => rfl
  | enqueued live _ _ => exact ⟨_, _, ordered.enqueue live _ _ _⟩
  | drainStarted _ free _ =>
    have drains := (orderly.idle free).1
    refine ⟨_, _, .of_eq_nil rfl (ordered.quiet ⟨rfl, rfl, rfl⟩ rfl rfl ?_ rfl rfl)⟩
    intro _
    simp [inHand, drains, Drain.awaited?]
  | drainEnded here _ =>
    obtain ⟨rfl, drains, -⟩ := orderly.only here
    refine ⟨_, _, .of_eq_nil rfl (ordered.quiet ⟨rfl, rfl, rfl⟩ rfl rfl ?_ rfl rfl)⟩
    intro _
    simp [inHand, drains, Drain.awaited?]
  | jobTaken here live waits _ =>
    exact ⟨_, _, .of_eq_nil rfl (ordered.take orderly here live waits)⟩
  | resolved here ends live =>
    exact ⟨_, _, .of_eq_nil (ends.enqueuedKey_eq_nil _) (ordered.resolve orderly here live _ _)⟩
  | cutShort here ends disposed =>
    refine ⟨_, _, .of_eq_nil (ends.enqueuedKey_eq_nil _)
      (ordered.quiet ⟨rfl, rfl, rfl⟩ rfl rfl ?_ rfl rfl)⟩
    intro live
    rw [disposed] at live
    cases live
  | calledBack here _ | panicked here _ =>
    obtain ⟨rfl, drains, -⟩ := orderly.only here
    refine ⟨_, _, .of_eq_nil rfl (ordered.quiet ⟨rfl, rfl, rfl⟩ rfl rfl ?_ rfl rfl)⟩
    intro _
    simp only [inHand, drains, List.set_cons_zero, List.filterMap_cons, Drain.awaited?_deliver]
    rfl
  | disposed live => exact ⟨_, _, .of_eq_nil rfl (ordered.dispose live)⟩

theorem Ordered.run {actions : List (Action κ)}
    (ordered : Ordered keys told started resolved machine) (orderly : machine.Orderly)
    (runs : Machine.run studio actions machine = some (next, events)) :
    ∃ begun ended, Ordered (keys ++ enqueuedKeys studio actions machine) (told ++ events)
      begun ended next := by
  induction actions generalizing machine keys told started resolved events with
  | nil =>
    cases runs
    refine ⟨started, resolved, ?_⟩
    rwa [enqueuedKeys, List.append_nil, List.append_nil]
  | cons action rest ih =>
    obtain ⟨between, here, later, steps, goesOn, rfl⟩ := run_cons_eq_some.mp runs
    obtain ⟨_, _, first⟩ := ordered.transition orderly (transition_of_step steps)
    have last := ih first (orderly.transition (transition_of_step steps)) goesOn
    rw [List.append_assoc, List.append_assoc] at last
    rwa [enqueuedKeys, steps]

end Steps

/-! ## No wake-up is lost -/

/-- Jobs that wait have a drain, or a client that has yet to see to it. -/
def Attended (machine : Machine κ φ σ) : Prop :=
  machine.queue.pending ≠ [] → machine.drains ≠ [] ∨ 0 < machine.arriving

section Runs

variable {studio : Studio φ σ} {machine next : Machine κ φ σ} {action : Action κ}
  {events : List (Event κ)}

theorem Attended.transition (attended : machine.Attended) (orderly : machine.Orderly)
    (steps : Transition studio machine action next events) : next.Attended := by
  cases steps with
  | refused _ | disposedBefore _ => exact attended
  | hit _ _ | hitAnswered _ | takenUp _ _ | rendered _ _ | lost _ => exact attended
  | joined _ _ _ _ | enqueued _ _ _ => exact fun _ => .inr (Nat.succ_pos _)
  | drainNotNeeded _ busy =>
    intro waits
    have draining := busy.resolve_right waits
    refine .inl (List.ne_nil_of_length_pos ?_)
    rw [orderly.alone, draining]
    decide
  | drainStarted _ _ _ => exact fun _ => .inl (by simp)
  | drainEnded _ idle =>
    intro waits
    exact absurd (idle.elim (fun gone => (orderly.gone gone).1) id) waits
  | jobTaken here _ _ _ | resolved here _ _ | calledBack here _ | panicked here _ =>
    obtain ⟨rfl, drains, -⟩ := orderly.only here
    exact fun _ => .inl (by simp [drains])
  | cutShort _ _ disposed =>
    intro waits
    exact absurd (orderly.gone disposed).1 waits
  | disposed live =>
    rw [Queue.dispose_of_live live]
    exact fun waits => absurd rfl waits

theorem Attended.run {actions : List (Action κ)} (attended : machine.Attended)
    (orderly : machine.Orderly)
    (runs : Machine.run studio actions machine = some (next, events)) : next.Attended := by
  refine (run_preserves (fun machine => machine.Orderly ∧ machine.Attended) ?_
    ⟨orderly, attended⟩ runs).2
  rintro machine next action events ⟨orderly, attended⟩ steps
  exact ⟨orderly.transition steps, attended.transition orderly steps⟩

theorem Orderly.draining_iff (orderly : machine.Orderly) :
    machine.queue.draining = true ↔ machine.drains ≠ [] := by
  rw [← List.length_pos_iff, orderly.alone]
  cases machine.queue.draining <;> decide

/-- However the threads take turns, there is at most one drain, which the queue knows of,
    and at most one job in flight, which that drain waits for. Jobs that wait have a drain,
    or a client that has yet to see to it. Jobs are started and resolved in the order of
    their numbers, which they got when they were enqueued, and what the queue remembers of
    them it got in this order, until it is disposed of. -/
theorem jobs_in_order {factory : φ} {actions : List (Action κ)}
    (runs : Machine.run studio actions (.start factory) = some (machine, events)) :
    machine.drains.length ≤ 1 ∧
      (machine.queue.draining = true ↔ machine.drains ≠ []) ∧
      (machine.queue.flight.isSome = true →
        ∃ number key worker, machine.drains = [.awaiting number key worker]) ∧
      (machine.queue.disposed = false → machine.queue.pending ≠ [] →
        machine.drains ≠ [] ∨ 0 < machine.arriving) ∧
      ∃ started resolved, resolved ≤ started ∧ started ≤ resolved + 1 ∧
        started ≤ machine.queue.enqueued ∧
        Event.enqueuedJobs events = List.range machine.queue.enqueued ∧
        Event.startedJobs events = List.range started ∧
        (Event.resolvedJobs events).map Prod.fst = List.range resolved ∧
        (machine.queue.disposed = false → machine.queue.cache.reverse =
          remembered (enqueuedKeys studio actions (.start factory)) (Event.resolvedJobs events)) ∧
        (machine.queue.disposed = true → machine.queue.cache = []) := by
  have orderly := (orderly_start factory).run runs
  have attended := Attended.run (fun waits => absurd rfl waits) (orderly_start factory) runs
  obtain ⟨started, resolved, ordered⟩ := (ordered_start factory).run (orderly_start factory) runs
  rw [List.nil_append, List.nil_append] at ordered
  obtain ⟨enqueuedJobs, startedJobs, resolvedJobs⟩ := ordered.tells
  obtain ⟨ended, alone, inside⟩ := ordered.bounds
  refine ⟨?_, orderly.draining_iff, orderly.waits, fun _ => attended, started, resolved.length,
    ended, alone, ?_, ?_, startedJobs, ?_, ?_, ordered.cleared⟩
  · rw [orderly.alone]
    exact Bool.toNat_le _
  · rwa [ordered.count]
  · rwa [ordered.count]
  · rw [resolvedJobs, ordered.numbers]
  · rw [resolvedJobs]
    exact ordered.cache

/-- Every request gets a job of its own. The first of three jobs is resolved, the second is
    in flight, and the third waits. -/
def inTurn : List (Action Nat) :=
  [.request "a" [] 1, .request "b" [] 2, .startDrain, .beginRound 0, .takeUp 0,
    .request "c" [] 3, .finish 0, .callBack 0 (.returned ()), .beginRound 0]

theorem jobs_in_order_three :
    ∃ machine events,
      Machine.run { refusing with config := .standard } inTurn (.start ()) =
        some (machine, events) ∧
      Event.startedJobs events = [0, 1] ∧ machine.queue.cache = [("a", none)] ∧
      (machine.drains ≠ [] ∨ 0 < machine.arriving) ∧
      machine.queue.cache.reverse =
        remembered (enqueuedKeys { refusing with config := .standard } inTurn (.start ()))
          (Event.resolvedJobs events) := by
  obtain ⟨machine, events, runs, live, waits, started, cached⟩ :
      ∃ machine events, Machine.run { refusing with config := .standard } inTurn (.start ()) =
          some (machine, events) ∧ machine.queue.disposed = false ∧
        machine.queue.pending.length = 1 ∧ Event.startedJobs events = [0, 1] ∧
        machine.queue.cache = [("a", none)] :=
    ⟨_, _, rfl, rfl, rfl, rfl, rfl⟩
  obtain ⟨-, -, -, attended, _, _, -, -, -, -, -, -, cache, -⟩ := jobs_in_order runs
  have nonempty := List.ne_nil_of_length_eq_add_one waits
  exact ⟨machine, events, runs, started, cached, attended live nonempty, cache live⟩

end Runs

end Machine

end Multipass
