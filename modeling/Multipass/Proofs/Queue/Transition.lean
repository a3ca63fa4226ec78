import Multipass.Proofs.Queue.Steps

/-!
# The steps of the machine, one by one

Each constructor of `Transition` is one thing that an action can do, with the conditions
under which it does so. `transition_of_step` is the only place where `Machine.step` is
taken apart.
-/

namespace Multipass

namespace Machine

variable {κ φ σ : Type}

/-- The action with which a drain learns how the job that it handed to a worker ended. -/
inductive JobEnds (studio : Studio φ σ) (machine : Machine κ φ σ) (drain number : Nat)
    (worker : Option Nat) : Action κ → Ending → Prop where
  | finish {outcome : Outcome} :
      machine.reply? number = some outcome →
      JobEnds studio machine drain number worker (.finish drain) (.finished outcome)
  | timeOut :
      studio.config.renderTimeout.isSome = true →
      JobEnds studio machine drain number worker (.timeOut drain) .timedOut
  | abandon :
      machine.reply? number = none →
      machine.isUnreachable worker = true →
      JobEnds studio machine drain number worker (.abandon drain) .unreachable

/-- What an action can make of the machine, and what is told about it. -/
inductive Transition (studio : Studio φ σ) (machine : Machine κ φ σ) :
    Action κ → Machine κ φ σ → List (Event κ) → Prop where
  | refused {key : String} {passes : List PassSource} {callback : κ} :
      machine.queue.disposed = true →
      Transition studio machine (.request key passes callback) machine []
  | hit {key : String} {passes : List PassSource} {callback : κ} {outcome : Outcome} :
      machine.queue.disposed = false →
      machine.queue.cached? key = some outcome →
      Transition studio machine (.request key passes callback)
        { machine with hits := machine.hits ++ [(callback, outcome)] } []
  | joined {key : String} {passes : List PassSource} {callback : κ} {queue : Queue κ} :
      machine.queue.disposed = false →
      machine.queue.cached? key = none →
      studio.config.coalesceDuplicates = true →
      machine.queue.join? key callback = some queue →
      Transition studio machine (.request key passes callback)
        { machine with queue, arriving := machine.arriving + 1 } []
  | enqueued {key : String} {passes : List PassSource} {callback : κ} :
      machine.queue.disposed = false →
      machine.queue.cached? key = none →
      (studio.config.coalesceDuplicates = true → machine.queue.join? key callback = none) →
      Transition studio machine (.request key passes callback)
        { machine with
          queue := machine.queue.enqueue key passes callback
          arriving := machine.arriving + 1 }
        [.enqueued machine.queue.enqueued]
  | drainNotNeeded {arriving : Nat} :
      machine.arriving = arriving + 1 →
      machine.queue.draining = true ∨ machine.queue.pending = [] →
      Transition studio machine .startDrain { machine with arriving } []
  | drainStarted {arriving : Nat} :
      machine.arriving = arriving + 1 →
      machine.queue.draining = false →
      machine.queue.pending ≠ [] →
      Transition studio machine .startDrain
        { machine with
          queue := { machine.queue with draining := true }
          arriving
          drains := machine.drains ++ [.free] } []
  | hitAnswered {hit : Nat} {callback : κ} {outcome : Outcome} :
      machine.hits[hit]? = some (callback, outcome) →
      Transition studio machine (.answerHit hit)
        { machine with hits := machine.hits.eraseIdx hit } [.answered callback outcome]
  | drainEnded {drain : Nat} :
      machine.drains[drain]? = some .free →
      machine.queue.disposed = true ∨ machine.queue.pending = [] →
      Transition studio machine (.beginRound drain)
        { machine with
          queue := machine.queue.stopDrain
          drains := machine.drains.eraseIdx drain } []
  | jobTaken {drain : Nat} {job : Job κ} {pending : List (Job κ)} {inUse worker : Option Nat}
      {workers : List (Worker σ)} :
      machine.drains[drain]? = some .free →
      machine.queue.disposed = false →
      machine.queue.pending = job :: pending →
      assign ⟨job.number, job.passes⟩ machine =
        ({ machine with queue := { machine.queue with worker := inUse }, workers }, worker) →
      Transition studio machine (.beginRound drain)
        { machine with
          queue := { machine.queue with
            pending, flight := some ⟨job.key, job.callbacks⟩, worker := inUse }
          workers
          drains := machine.drains.set drain (.awaiting job.number job.key worker) }
        [.started job.number]
  | takenUp {worker : Nat} {owner after : Worker σ} {factory : φ} {task : RenderTask}
      {how : Worker.TakeUp} :
      machine.workers[worker]? = some owner →
      owner.takeUp studio machine.factory = some (after, factory, task, how) →
      Transition studio machine (.takeUp worker)
        { machine with
          workers := machine.workers.set worker after
          factory
          posted := if how = .refused then machine.posted ++ [⟨task.number, none⟩]
            else machine.posted }
        [.takenUp task.number how]
  | rendered {worker : Nat} {now : Moment} {owner after : Worker σ} {reply : Posted} :
      machine.workers[worker]? = some owner →
      owner.render studio now = some (after, reply) →
      Transition studio machine (.render worker now)
        { machine with
          workers := machine.workers.set worker after
          posted := machine.posted ++ [reply] } []
  | lost {worker : Nat} {owner : Worker σ} :
      machine.workers[worker]? = some owner →
      Transition studio machine (.lose worker)
        { machine with workers := machine.workers.set worker owner.lose } []
  | resolved {drain number : Nat} {key : String} {worker : Option Nat} {action : Action κ}
      {ending : Ending} :
      machine.drains[drain]? = some (.awaiting number key worker) →
      JobEnds studio machine drain number worker action ending →
      machine.queue.disposed = false →
      Transition studio machine action
        { machine with
          queue := { machine.queue.record key ending with flight := none }
          drains := machine.drains.set drain
            (.deliver ending.outcome ((machine.queue.flight.map (·.callbacks)).getD [])) }
        [.resolved number ending]
  | cutShort {drain number : Nat} {key : String} {worker : Option Nat} {action : Action κ}
      {ending : Ending} :
      machine.drains[drain]? = some (.awaiting number key worker) →
      JobEnds studio machine drain number worker action ending →
      machine.queue.disposed = true →
      Transition studio machine action
        { machine with
          queue := machine.queue.stopDrain
          drains := machine.drains.eraseIdx drain } []
  | calledBack {drain : Nat} {outcome : Outcome} {callback : κ} {rest : List κ}
      {returned : Foreign Unit} :
      machine.drains[drain]? = some (.delivering outcome callback rest) →
      returned.contain = .ok () →
      Transition studio machine (.callBack drain returned)
        { machine with drains := machine.drains.set drain (.deliver outcome rest) }
        [.answered callback outcome]
  | panicked {drain : Nat} {outcome : Outcome} {callback : κ} {rest : List κ}
      {returned : Foreign Unit} {message : String} :
      machine.drains[drain]? = some (.delivering outcome callback rest) →
      returned.contain = .error message →
      Transition studio machine (.callBack drain returned)
        { machine with drains := machine.drains.set drain (.deliver outcome rest) }
        [.answered callback outcome, .contained callback message]
  | disposed :
      machine.queue.disposed = false →
      Transition studio machine .dispose { machine with queue := machine.queue.dispose }
        (machine.queue.waiting.map .dropped)
  | disposedBefore :
      machine.queue.disposed = true →
      Transition studio machine .dispose machine []

variable {studio : Studio φ σ} {machine next : Machine κ φ σ} {events : List (Event κ)}

/-- Handing a task over changes the workers at most, and does not look at the jobs. -/
theorem assign_cases (task : RenderTask) (machine : Machine κ φ σ) (pending : List (Job κ))
    (flight : Option (Flight κ)) :
    ∃ inUse workers worker,
      assign task machine =
        ({ machine with queue := { machine.queue with worker := inUse }, workers }, worker) ∧
      assign task { machine with queue := { machine.queue with pending, flight } } =
        ({ machine with
          queue := { machine.queue with pending, flight, worker := inUse }, workers }, worker) := by
  obtain ⟨⟨cache, jobs, rendering, enqueued, draining, disposed, factory, worker⟩,
    arriving, hits, drains, workers, posted, builder⟩ := machine
  cases worker with
  | some worker => exact ⟨some worker, _, _, rfl, rfl⟩
  | none =>
    cases factory with
    | true => exact ⟨_, _, _, rfl, rfl⟩
    | false => exact ⟨none, workers, none, rfl, rfl⟩

theorem transition_of_request {key : String} {passes : List PassSource} {callback : κ}
    (requested : machine.request studio key passes callback = (next, events)) :
    Transition studio machine (.request key passes callback) next events := by
  unfold request at requested
  cases admits : machine.queue.request studio.config.coalesceDuplicates key passes callback with
  | mk queue admission =>
  rw [admits] at requested
  rcases Queue.request_cases admits with ⟨disposed, rfl, rfl⟩ |
    ⟨live, rfl, outcome, cached, rfl⟩ | ⟨live, missing, coalesces, joined, rfl⟩ |
    ⟨live, missing, apart, rfl, rfl⟩
  · cases requested
    exact .refused disposed
  · cases requested
    exact .hit live cached
  · cases requested
    exact .joined live missing coalesces joined
  · cases requested
    exact .enqueued live missing apart

theorem transition_of_startDrain (started : machine.startDrain = some (next, events)) :
    Transition studio machine .startDrain next events := by
  unfold startDrain at started
  cases waiting : machine.arriving with
  | zero =>
    rw [waiting] at started
    cases started
  | succ arriving =>
    rw [waiting] at started
    cases starts : machine.queue.startDrain with
    | mk queue starts =>
    rw [starts] at started
    rcases Queue.startDrain_cases ‹_› with ⟨rfl, rfl, busy⟩ | ⟨rfl, rfl, free, waits⟩
    · cases started
      exact .drainNotNeeded waiting busy
    · cases started
      exact .drainStarted waiting free waits

theorem transition_of_answerHit {hit : Nat}
    (answered : machine.answerHit hit = some (next, events)) :
    Transition studio machine (.answerHit hit) next events := by
  unfold answerHit at answered
  split at answered
  · rename_i callback outcome found
    cases answered
    exact .hitAnswered found
  · cases answered

theorem transition_of_beginRound {drain : Nat}
    (begun : machine.beginRound drain = some (next, events)) :
    Transition studio machine (.beginRound drain) next events := by
  unfold beginRound at begun
  split at begun
  · rename_i free
    cases takes : machine.queue.takeJob with
    | mk queue taken =>
    rw [takes] at begun
    rcases Queue.takeJob_cases takes with ⟨rfl, rfl, idle⟩ | ⟨job, pending, rfl, live, waits, rfl⟩
    · cases begun
      exact .drainEnded free idle
    · obtain ⟨inUse, workers, worker, assigned, taken⟩ := assign_cases
        ⟨job.number, job.passes⟩ machine pending (some ⟨job.key, job.callbacks⟩)
      simp only [taken] at begun
      cases begun
      exact .jobTaken free live waits assigned
  · cases begun

theorem transition_of_takeUp {worker : Nat}
    (taken : machine.takeUp studio worker = some (next, events)) :
    Transition studio machine (.takeUp worker) next events := by
  obtain ⟨owner, here, taken⟩ := Option.bind_eq_some_iff.mp taken
  obtain ⟨⟨after, factory, task, how⟩, takes, taken⟩ := Option.bind_eq_some_iff.mp taken
  cases taken
  exact .takenUp here takes

theorem transition_of_render {worker : Nat} {now : Moment}
    (renders : machine.render studio worker now = some (next, events)) :
    Transition studio machine (.render worker now) next events := by
  obtain ⟨owner, here, renders⟩ := Option.bind_eq_some_iff.mp renders
  obtain ⟨⟨after, reply⟩, replies, renders⟩ := Option.bind_eq_some_iff.mp renders
  cases renders
  exact .rendered here replies

theorem lose_cases {worker : Nat} (loses : machine.lose worker = some (next, events)) :
    ∃ owner, machine.workers[worker]? = some owner ∧
      next = { machine with workers := machine.workers.set worker owner.lose } ∧ events = [] := by
  unfold lose at loses
  split at loses
  · rename_i owner here
    cases loses
    exact ⟨owner, here, rfl, rfl⟩
  · cases loses

theorem transition_of_lose {worker : Nat} (loses : machine.lose worker = some (next, events)) :
    Transition studio machine (.lose worker) next events := by
  obtain ⟨owner, here, rfl, rfl⟩ := lose_cases loses
  exact .lost here

theorem transition_of_endRound {drain number : Nat} {key : String} {worker : Option Nat}
    {action : Action κ} {ending : Ending}
    (here : machine.drains[drain]? = some (.awaiting number key worker))
    (ends : JobEnds studio machine drain number worker action ending)
    (ended : endRound drain number key ending machine = (next, events)) :
    Transition studio machine action next events := by
  unfold endRound at ended
  cases resolves : machine.queue.resolve key ending with
  | mk queue told =>
  rw [resolves] at ended
  rcases Queue.resolve_cases resolves with ⟨rfl, disposed, rfl⟩ | ⟨rfl, live, rfl⟩
  · cases ended
    exact .cutShort here ends disposed
  · cases ended
    exact .resolved here ends live

theorem transition_of_finish {drain : Nat}
    (finished : machine.finish drain = some (next, events)) :
    Transition studio machine (.finish drain) next events := by
  unfold finish at finished
  split at finished
  · rename_i here
    obtain ⟨outcome, replied, ended⟩ := Option.map_eq_some_iff.mp finished
    exact transition_of_endRound here (.finish replied) ended
  · cases finished

theorem transition_of_timeOut {drain : Nat}
    (timedOut : machine.timeOut studio drain = some (next, events)) :
    Transition studio machine (.timeOut drain) next events := by
  unfold timeOut at timedOut
  split at timedOut
  · rename_i here
    obtain ⟨watched, ended⟩ := Option.ite_none_right_eq_some.mp timedOut
    exact transition_of_endRound here (.timeOut watched) (Option.some.inj ended)
  · cases timedOut

theorem transition_of_abandon {drain : Nat}
    (abandoned : machine.abandon drain = some (next, events)) :
    Transition studio machine (.abandon drain) next events := by
  unfold abandon at abandoned
  split at abandoned
  · rename_i here
    obtain ⟨hopeless, ended⟩ := Option.ite_none_right_eq_some.mp abandoned
    obtain ⟨silent, gone⟩ := Bool.and_eq_true_iff.mp hopeless
    exact transition_of_endRound here (.abandon (Option.isNone_iff_eq_none.mp silent) gone)
      (Option.some.inj ended)
  · cases abandoned

theorem transition_of_callBack {drain : Nat} {returned : Foreign Unit}
    (called : machine.callBack drain returned = some (next, events)) :
    Transition studio machine (.callBack drain returned) next events := by
  unfold callBack at called
  split at called
  · rename_i here
    cases contained : returned.contain with
    | ok value =>
      rw [contained] at called
      cases called
      exact .calledBack here contained
    | error message =>
      rw [contained] at called
      cases called
      exact .panicked here contained
  · cases called

theorem transition_of_dispose (disposes : machine.dispose = (next, events)) :
    Transition studio machine .dispose next events := by
  unfold dispose at disposes
  split at disposes
  · rename_i already
    cases disposes
    exact .disposedBefore already
  · rename_i live
    cases disposes
    exact .disposed (Bool.not_eq_true _ ▸ live)

theorem transition_of_step {action : Action κ}
    (steps : machine.step studio action = some (next, events)) :
    Transition studio machine action next events := by
  cases action with
  | request key passes callback => exact transition_of_request (Option.some.inj steps)
  | startDrain => exact transition_of_startDrain steps
  | answerHit hit => exact transition_of_answerHit steps
  | beginRound drain => exact transition_of_beginRound steps
  | takeUp worker => exact transition_of_takeUp steps
  | render worker now => exact transition_of_render steps
  | lose worker => exact transition_of_lose steps
  | finish drain => exact transition_of_finish steps
  | timeOut drain => exact transition_of_timeOut steps
  | abandon drain => exact transition_of_abandon steps
  | callBack drain returned => exact transition_of_callBack steps
  | dispose => exact transition_of_dispose (Option.some.inj steps)

/-- A run is its first step and the run from there. -/
theorem run_cons_eq_some {action : Action κ} {rest : List (Action κ)} :
    run studio (action :: rest) machine = some (next, events) ↔
      ∃ between told later, machine.step studio action = some (between, told) ∧
        run studio rest between = some (next, later) ∧ events = told ++ later := by
  constructor
  · intro runs
    obtain ⟨⟨between, told⟩, steps, runs⟩ := Option.bind_eq_some_iff.mp runs
    obtain ⟨⟨last, later⟩, goesOn, runs⟩ := Option.bind_eq_some_iff.mp runs
    cases runs
    exact ⟨between, told, later, steps, goesOn, rfl⟩
  · rintro ⟨between, told, later, steps, goesOn, rfl⟩
    refine Option.bind_eq_some_iff.mpr ⟨(between, told), steps, ?_⟩
    exact Option.bind_eq_some_iff.mpr ⟨(next, later), goesOn, rfl⟩

/-- What every step keeps, a run keeps. -/
theorem run_preserves (holds : Machine κ φ σ → Prop)
    (keeps : ∀ {machine next : Machine κ φ σ} {action : Action κ} {events : List (Event κ)},
      holds machine → Transition studio machine action next events → holds next)
    {actions : List (Action κ)} (initially : holds machine)
    (runs : run studio actions machine = some (next, events)) : holds next := by
  induction actions generalizing machine events with
  | nil =>
    cases runs
    exact initially
  | cons action rest ih =>
    obtain ⟨between, told, later, steps, goesOn, -⟩ := run_cons_eq_some.mp runs
    exact ih (keeps initially (transition_of_step steps)) goesOn

end Machine

end Multipass
