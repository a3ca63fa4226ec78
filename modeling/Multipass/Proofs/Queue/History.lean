import Mathlib.Data.List.Sigma
import Multipass.Proofs.Queue.Order

/-!
# The history of a run

What happened in a run, step by step. A history remembers what a queue forgets, so that
jobs which are resolved and requests which were answered can still be spoken of.
`history_induction` proves something of every run, with all that is known of the order of
the jobs at hand in each step.
-/

namespace Multipass

theorem Event.startedJobs_append {κ : Type} (events more : List (Event κ)) :
    startedJobs (events ++ more) = startedJobs events ++ startedJobs more :=
  List.filterMap_append

theorem Event.resolvedJobs_append {κ : Type} (events more : List (Event κ)) :
    resolvedJobs (events ++ more) = resolvedJobs events ++ resolvedJobs more :=
  List.filterMap_append

theorem Event.mem_resolvedJobs {κ : Type} {events : List (Event κ)} {number : Nat}
    {ending : Ending} :
    (number, ending) ∈ resolvedJobs events ↔ .resolved number ending ∈ events := by
  refine List.mem_filterMap.trans ⟨?_, fun told => ⟨_, told, rfl⟩⟩
  rintro ⟨event, member, same⟩
  cases event with
  | resolved =>
    cases same
    exact member
  | _ => cases same

/-- A step of a run: the machine before it, the action, and what was told of it. -/
structure Turn (κ φ σ : Type) where
  machine : Machine κ φ σ
  action : Action κ
  events : List (Event κ)

/-- The steps of a run, the first one first. -/
abbrev History (κ φ σ : Type) := List (Turn κ φ σ)

namespace History

variable {κ φ σ : Type}

/-- All that was told. -/
def events (past : History κ φ σ) : List (Event κ) :=
  past.flatMap (·.events)

/-- The keys of the jobs that were enqueued, in the order of their numbers. -/
def keys (past : History κ φ σ) : List String :=
  past.flatMap fun turn => Machine.enqueuedKey turn.action turn.events

/-- The number of jobs that a drain took. -/
def started (past : History κ φ σ) : Nat :=
  (Event.startedJobs past.events).length

/-- The jobs that were resolved, in this order, and how each of them ended. -/
def resolved (past : History κ φ σ) : List (Nat × Ending) :=
  Event.resolvedJobs past.events

theorem events_append (past more : History κ φ σ) :
    events (past ++ more) = past.events ++ more.events :=
  List.flatMap_append

theorem keys_append (past more : History κ φ σ) :
    keys (past ++ more) = past.keys ++ more.keys :=
  List.flatMap_append

theorem started_append (past more : History κ φ σ) :
    started (past ++ more) = past.started + more.started := by
  rw [started, events_append, Event.startedJobs_append, List.length_append]
  rfl

theorem resolved_append (past more : History κ φ σ) :
    resolved (past ++ more) = past.resolved ++ more.resolved := by
  rw [resolved, events_append, Event.resolvedJobs_append]
  rfl

@[simp] theorem events_singleton (turn : Turn κ φ σ) : events [turn] = turn.events :=
  List.flatMap_singleton _ _

@[simp] theorem keys_singleton (turn : Turn κ φ σ) :
    keys [turn] = Machine.enqueuedKey turn.action turn.events :=
  List.flatMap_singleton _ _

@[simp] theorem resolved_singleton (turn : Turn κ φ σ) :
    resolved [turn] = Event.resolvedJobs turn.events := by
  rw [resolved, events_singleton]

/-- A job keeps its place among those that come later. -/
theorem getElem?_append {α : Type} {items : List α} {place : Nat} {item : α}
    (found : items[place]? = some item) (more : List α) : (items ++ more)[place]? = some item := by
  rwa [List.getElem?_append_left (List.getElem?_eq_some_iff.mp found).1]

end History

theorem Ending.outcome_of_remembered {ending : Ending} {outcome : Outcome}
    (remembers : ending.remembered? = some outcome) : ending.outcome = outcome := by
  cases ending <;> cases remembers <;> rfl

/-- What is found for a key is there. -/
theorem mem_of_lookup_eq_some {entries : List (String × Outcome)} {key : String}
    {outcome : Outcome} (found : entries.lookup key = some outcome) : (key, outcome) ∈ entries := by
  obtain ⟨front, back, split, -⟩ := List.lookup_eq_some_iff.mp found
  rw [split]
  exact List.mem_append_right _ List.mem_cons_self

namespace Machine

variable {κ φ σ : Type}

/-- The steps that a run takes. -/
def history (studio : Studio φ σ) : List (Action κ) → Machine κ φ σ → History κ φ σ
  | [], _ => []
  | action :: rest, machine =>
    match machine.step studio action with
    | none => []
    | some (next, events) => ⟨machine, action, events⟩ :: history studio rest next

variable {studio : Studio φ σ} {machine next : Machine κ φ σ} {action : Action κ}
  {actions more : List (Action κ)} {events : List (Event κ)} {past : History κ φ σ}
  {factory : φ}

theorem history_cons (steps : machine.step studio action = some (next, events))
    (rest : List (Action κ)) :
    history studio (action :: rest) machine =
      ⟨machine, action, events⟩ :: history studio rest next := by
  rw [history, steps]

theorem events_history (runs : run studio actions machine = some (next, events)) :
    (history studio actions machine).events = events := by
  induction actions generalizing machine events with
  | nil =>
    cases runs
    rfl
  | cons action rest ih =>
    obtain ⟨between, told, later, steps, goesOn, rfl⟩ := run_cons_eq_some.mp runs
    rw [history_cons steps]
    exact congrArg (told ++ ·) (ih goesOn)

theorem keys_history (studio : Studio φ σ) (actions : List (Action κ)) (machine : Machine κ φ σ) :
    (history studio actions machine).keys = enqueuedKeys studio actions machine := by
  induction actions generalizing machine with
  | nil => rfl
  | cons action rest ih =>
    rw [history, enqueuedKeys]
    cases machine.step studio action with
    | none => rfl
    | some outlook => exact congrArg (enqueuedKey action outlook.2 ++ ·) (ih outlook.1)

/-- A run in two parts. -/
theorem run_append_eq_some {before after : List (Action κ)} :
    run studio (before ++ after) machine = some (next, events) ↔
      ∃ between told later, run studio before machine = some (between, told) ∧
        run studio after between = some (next, later) ∧ events = told ++ later := by
  induction before generalizing machine events with
  | nil =>
    constructor
    · intro runs
      exact ⟨machine, [], events, rfl, runs, rfl⟩
    · rintro ⟨_, _, later, here, runs, rfl⟩
      cases here
      exact runs
  | cons action rest ih =>
    rw [List.cons_append, run_cons_eq_some]
    constructor
    · rintro ⟨first, told, later, steps, runs, rfl⟩
      obtain ⟨between, told', later, begins, goesOn, rfl⟩ := ih.mp runs
      exact ⟨between, told ++ told', later, run_cons_eq_some.mpr ⟨_, _, _, steps, begins, rfl⟩,
        goesOn, (List.append_assoc _ _ _).symm⟩
    · rintro ⟨between, _, later, runs, goesOn, rfl⟩
      obtain ⟨first, told, told', steps, begins, rfl⟩ := run_cons_eq_some.mp runs
      exact ⟨first, told, told' ++ later, steps, ih.mpr ⟨_, _, _, begins, goesOn, rfl⟩,
        List.append_assoc _ _ _⟩

theorem history_append (runs : run studio actions machine = some (next, events))
    (more : List (Action κ)) :
    history studio (actions ++ more) machine =
      history studio actions machine ++ history studio more next := by
  induction actions generalizing machine events with
  | nil =>
    cases runs
    rfl
  | cons action rest ih =>
    obtain ⟨between, told, later, steps, goesOn, -⟩ := run_cons_eq_some.mp runs
    rw [List.cons_append, history_cons steps, history_cons steps, ih goesOn, List.cons_append]

/-- A step of a run is taken by the machine that the steps before it lead to. -/
theorem exists_run_of_mem {turn : Turn κ φ σ} (member : turn ∈ history studio actions machine) :
    ∃ front back told next, actions = front ++ turn.action :: back ∧
      run studio front machine = some (turn.machine, told) ∧
      turn.machine.step studio turn.action = some (next, turn.events) := by
  induction actions generalizing machine with
  | nil => cases member
  | cons action rest ih =>
    cases steps : machine.step studio action with
    | none =>
      rw [history, steps] at member
      cases member
    | some outlook =>
      obtain ⟨between, told⟩ := outlook
      rw [history_cons steps] at member
      rcases List.mem_cons.mp member with rfl | later
      · exact ⟨[], rest, [], between, rfl, rfl, steps⟩
      · obtain ⟨front, back, more, next, rfl, goesOn, taken⟩ := ih later
        exact ⟨action :: front, back, told ++ more, next, rfl,
          run_cons_eq_some.mpr ⟨between, told, more, steps, goesOn, rfl⟩, taken⟩

/-- A job is resolved by the drain that waited for it, while the workers do nothing. -/
theorem ends_of_resolved (steps : Transition studio machine action next events) {number : Nat}
    {ending : Ending} (resolved : (number, ending) ∈ Event.resolvedJobs events) :
    ∃ drain key worker, machine.drains[drain]? = some (.awaiting number key worker) ∧
      JobEnds studio machine drain number worker action ending ∧
      machine.queue.disposed = false ∧
      next = { machine with
        queue := { machine.queue.record key ending with flight := none }
        drains := machine.drains.set drain
          (.deliver ending.outcome ((machine.queue.flight.map (·.callbacks)).getD [])) } := by
  cases steps with
  | resolved here ends live =>
    cases List.mem_singleton.mp resolved
    exact ⟨_, _, _, here, ends, live, rfl⟩
  | disposed _ =>
    rw [(Event.tells_dropped _).resolvedJobs] at resolved
    cases resolved
  | _ => cases resolved

/-- Only a disposal disposes of a queue. -/
theorem live_of_transition (live : machine.queue.disposed = false) (kept : action ≠ .dispose)
    (steps : Transition studio machine action next events) : next.queue.disposed = false := by
  rw [disposed_of_transition steps, live, Bool.false_or]
  cases action with
  | dispose => exact absurd rfl kept
  | _ => rfl

theorem live_of_run (live : machine.queue.disposed = false) (kept : .dispose ∉ actions)
    (runs : run studio actions machine = some (next, events)) : next.queue.disposed = false := by
  induction actions generalizing machine events with
  | nil =>
    cases runs
    exact live
  | cons action rest ih =>
    obtain ⟨between, told, later, steps, goesOn, -⟩ := run_cons_eq_some.mp runs
    obtain ⟨first, others⟩ := List.ne_and_not_mem_of_not_mem_cons kept
    exact ih (live_of_transition live first.symm (transition_of_step steps)) others goesOn

/-! ## What is known of every history -/

/-- Where the jobs and the drain are after the steps of a history. -/
structure Regular (past : History κ φ σ) (machine : Machine κ φ σ) : Prop where
  orderly : machine.Orderly
  ordered : Ordered past.keys past.events past.started past.resolved machine

theorem regular_start (factory : φ) : Regular [] (start factory : Machine κ φ σ) :=
  ⟨orderly_start factory, ordered_start factory⟩

theorem Regular.transition (regular : Regular past machine)
    (steps : Transition studio machine action next events) :
    Regular (past ++ [⟨machine, action, events⟩]) next := by
  refine ⟨regular.orderly.transition steps, ?_⟩
  obtain ⟨begun, ended, ordered⟩ := regular.ordered.transition regular.orderly steps
  have same : begun = History.started (past ++ [⟨machine, action, events⟩]) := by
    rw [History.started, History.events_append, History.events_singleton,
      ordered.tells.startedJobs, List.length_range]
  have told : ended = History.resolved (past ++ [⟨machine, action, events⟩]) := by
    rw [History.resolved, History.events_append, History.events_singleton,
      ordered.tells.resolvedJobs]
  rw [← same, ← told, History.keys_append, History.events_append, History.keys_singleton,
    History.events_singleton]
  exact ordered

/-- What holds of an unused machine, and stays true from step to step, holds of the history
    of every run. -/
theorem history_induction (holds : History κ φ σ → Machine κ φ σ → Prop)
    (initially : holds [] (start factory))
    (keeps : ∀ {past : History κ φ σ} {machine next : Machine κ φ σ} {action : Action κ}
      {events : List (Event κ)}, Regular past machine → holds past machine →
      Transition studio machine action next events →
      holds (past ++ [⟨machine, action, events⟩]) next)
    (runs : run studio actions (start factory) = some (machine, events)) :
    holds (history studio actions (start factory)) machine := by
  -- For the induction the run goes on from any history, not only from the empty one.
  suffices goesOn : ∀ {past : History κ φ σ} {before : Machine κ φ σ} {events : List (Event κ)},
      Regular past before → holds past before →
      run studio actions before = some (machine, events) →
      holds (past ++ history studio actions before) machine from
    goesOn (regular_start factory) initially runs
  clear runs initially
  induction actions with
  | nil =>
    intro past before events _ here runs
    cases runs
    rwa [history, List.append_nil]
  | cons action rest ih =>
    intro past before events regular here runs
    obtain ⟨between, told, later, steps, goesOn, -⟩ := run_cons_eq_some.mp runs
    have taken := transition_of_step steps
    rw [history_cons steps, ← List.singleton_append, ← List.append_assoc]
    exact ih (regular.transition taken) (keeps regular here taken) goesOn

theorem regular_history (runs : run studio actions (start factory) = some (machine, events)) :
    Regular (history studio actions (start factory)) machine :=
  history_induction Regular (regular_start factory) (fun regular _ => regular.transition) runs

/-! ## The jobs that have yet to be resolved -/

/-- The jobs that were enqueued and have yet to be resolved, with their keys. -/
def unresolved (machine : Machine κ φ σ) : List (String × Nat) :=
  machine.inHand ++ machine.queue.pending.map Job.label

section Unresolved

variable {key : String} {number index : Nat} {worker : Option Nat}

theorem Regular.unresolved_eq (regular : Regular past machine)
    (live : machine.queue.disposed = false) :
    machine.unresolved = past.keys.zipIdx.drop past.resolved.length :=
  (regular.ordered.jobs live).symm

/-- The jobs that wait or are in hand come after those that were resolved. -/
theorem Regular.of_mem_unresolved (regular : Regular past machine)
    (live : machine.queue.disposed = false) (member : (key, number) ∈ machine.unresolved) :
    past.resolved.length ≤ number ∧ past.keys[number]? = some key := by
  rw [regular.unresolved_eq live] at member
  obtain ⟨place, inside, found⟩ := List.mem_iff_getElem.mp member
  rw [List.getElem_drop, List.getElem_zipIdx, Nat.zero_add] at found
  cases found
  exact ⟨Nat.le_add_right _ _, List.getElem?_eq_getElem _⟩

theorem Regular.mem_unresolved (regular : Regular past machine)
    (live : machine.queue.disposed = false) (later : past.resolved.length ≤ number)
    (found : past.keys[number]? = some key) : (key, number) ∈ machine.unresolved := by
  rw [regular.unresolved_eq live]
  obtain ⟨inside, rfl⟩ := List.getElem?_eq_some_iff.mp found
  refine List.mem_iff_getElem.mpr ⟨number - past.resolved.length, ?_, ?_⟩
  · rw [List.length_drop, List.length_zipIdx]
    omega
  · rw [List.getElem_drop, List.getElem_zipIdx]
    simp only [Nat.zero_add, Nat.add_sub_cancel' later]

/-- No two jobs have one number. -/
theorem Regular.nodup_unresolved (regular : Regular past machine)
    (live : machine.queue.disposed = false) : (machine.unresolved.map Prod.snd).Nodup := by
  rw [regular.unresolved_eq live, List.map_drop]
  exact (List.nodup_zipIdx_map_snd _).sublist (List.drop_sublist _ _)

/-- A job that waits has another number than those that wait before or after it, and than the
    one in hand. -/
theorem Regular.apart_of_pending (regular : Regular past machine)
    (live : machine.queue.disposed = false) {front back : List (Job κ)} {job : Job κ}
    (waits : machine.queue.pending = front ++ job :: back) :
    (∀ other, other ∈ front ∨ other ∈ back → job.number ≠ other.number) ∧
      ∀ label ∈ machine.inHand, job.number ≠ label.2 := by
  have distinct := regular.nodup_unresolved live
  have numbers : (machine.inHand.map Prod.snd ++ (front.map Job.number ++
      job.number :: back.map Job.number)).Nodup := by
    rw [unresolved, waits] at distinct
    simpa [Job.label, Function.comp_def] using distinct
  obtain ⟨-, waiting, inHand⟩ := List.nodup_append.mp numbers
  obtain ⟨-, later, earlier⟩ := List.nodup_append.mp waiting
  constructor
  · rintro other (before | after) same
    · exact earlier _ (List.mem_map_of_mem before) _ List.mem_cons_self same.symm
    · exact (List.nodup_cons.mp later).1 (same ▸ List.mem_map_of_mem after)
  · intro label member same
    exact inHand _ (List.mem_map_of_mem member) job.number (by simp) same.symm

/-- The job in hand is the next one to be resolved. -/
theorem Regular.number_of_awaiting (regular : Regular past machine)
    (live : machine.queue.disposed = false)
    (here : machine.drains[index]? = some (.awaiting number key worker)) :
    number = past.resolved.length ∧ past.keys[number]? = some key := by
  obtain ⟨-, drains, -⟩ := regular.orderly.only here
  have jobs := regular.ordered.jobs live
  have busy : machine.inHand = [(key, number)] := by
    rw [inHand, drains]
    rfl
  rw [busy] at jobs
  obtain ⟨turn, found, -⟩ := of_drop_zipIdx_eq_cons jobs
  exact ⟨turn, turn ▸ found⟩

theorem Regular.inHand_eq_nil (regular : Regular past machine) {drain : Drain κ}
    (here : machine.drains[index]? = some drain)
    (free : drain.awaited? = none) : machine.inHand = [] := by
  obtain ⟨-, drains, -⟩ := regular.orderly.only here
  simp [inHand, drains, free]

/-- The job that a free drain finds at the front is the next one to be resolved. -/
theorem Regular.number_of_front (regular : Regular past machine)
    (live : machine.queue.disposed = false) (free : machine.inHand = []) {job : Job κ}
    (front : machine.queue.pending.head? = some job) :
    job.number = past.resolved.length ∧ past.started = past.resolved.length := by
  have jobs := regular.ordered.jobs live
  have begun := regular.ordered.begun live
  obtain ⟨rest, waits⟩ := List.head?_eq_some_iff.mp front
  rw [free, waits] at jobs
  rw [free] at begun
  exact ⟨(of_drop_zipIdx_eq_cons jobs).1, begun⟩

/-- A job is resolved once. -/
theorem Regular.lookup_resolved (regular : Regular past machine) {ending : Ending}
    (member : (number, ending) ∈ past.resolved) : past.resolved.lookup number = some ending := by
  obtain ⟨before, after, same⟩ := List.append_of_mem member
  have distinct : (past.resolved.map Prod.fst).Nodup := by
    rw [regular.ordered.numbers]
    exact List.nodup_range
  rw [same, List.map_append, List.map_cons] at distinct
  refine List.lookup_eq_some_iff.mpr ⟨before, after, same, ?_⟩
  rintro ⟨other, _⟩ earlier
  have apart := (List.nodup_append.mp distinct).2.2 other (List.mem_map_of_mem earlier) number
    List.mem_cons_self
  exact bne_iff_ne.mpr apart.symm

/-- Only jobs that were resolved are among the resolved ones. -/
theorem Regular.lookup_eq_none (regular : Regular past machine)
    (later : past.resolved.length ≤ number) : past.resolved.lookup number = none := by
  refine List.lookup_eq_none_iff.mpr ?_
  intro job member
  have inside := List.mem_map_of_mem (f := Prod.fst) member
  rw [regular.ordered.numbers, List.mem_range] at inside
  exact bne_iff_ne.mpr (by omega)

/-- Jobs are resolved in the order of their numbers. -/
theorem Regular.le_of_mem_resolved {future : History κ φ σ} (regular : Regular past machine)
    (whole : Regular (past ++ future) next) {ending : Ending}
    (resolved : (number, ending) ∈ future.resolved) : past.resolved.length ≤ number := by
  have distinct : ((past ++ future).resolved.map Prod.fst).Nodup := by
    rw [whole.ordered.numbers]
    exact List.nodup_range
  rw [History.resolved_append, List.map_append, regular.ordered.numbers] at distinct
  by_contra earlier
  exact (List.nodup_append.mp distinct).2.2 number (List.mem_range.mpr (by omega)) number
    (List.mem_map_of_mem resolved) rfl

end Unresolved

/-! ## What the queue remembers -/

theorem mem_remembered {keys : List String} {resolved : List (Nat × Ending)} {key : String}
    {outcome : Outcome} : (key, outcome) ∈ remembered keys resolved ↔
      ∃ number ending, (number, ending) ∈ resolved ∧ keys[number]? = some key ∧
        ending.remembered? = some outcome := by
  simp only [remembered, List.mem_filterMap, Prod.exists]
  refine exists_congr fun number => exists_congr fun ending => and_congr_right fun _ => ?_
  cases keys[number]? <;> cases ending.remembered? <;> simp

section Memory

variable {key : String} {number : Nat} {ending : Ending} {outcome : Outcome}

/-- What is in the cache is the outcome of a job. -/
theorem Regular.mem_cache (regular : Regular past machine)
    (live : machine.queue.disposed = false) : (key, outcome) ∈ machine.queue.cache ↔
      ∃ number ending, (number, ending) ∈ past.resolved ∧ past.keys[number]? = some key ∧
        ending.remembered? = some outcome := by
  rw [← List.mem_reverse, regular.ordered.cache live, mem_remembered]

/-- Jobs that were resolved after another one have higher numbers. -/
theorem Regular.split_resolved (regular : Regular past machine)
    (member : (number, ending) ∈ past.resolved) :
    ∃ before after, past.resolved = before ++ (number, ending) :: after ∧
      ∀ job ∈ after, number < job.1 := by
  obtain ⟨before, after, split⟩ := List.append_of_mem member
  refine ⟨before, after, split, ?_⟩
  intro job later
  have ascending : (past.resolved.map Prod.fst).Pairwise (· < ·) := by
    rw [regular.ordered.numbers]
    exact List.pairwise_lt_range
  rw [split, List.map_append, List.map_cons, List.pairwise_append, List.pairwise_cons] at ascending
  exact ascending.2.1.1 job.1 (List.mem_map_of_mem later)

/-- The queue remembers the last outcome for a key. -/
theorem Regular.cached?_of_last (regular : Regular past machine)
    (live : machine.queue.disposed = false) (member : (number, ending) ∈ past.resolved)
    (found : past.keys[number]? = some key) (remembers : ending.remembered? = some outcome)
    (last : ∀ later other, number < later → past.keys[later]? = some key →
      (later, other) ∈ past.resolved → other.remembered? = none) :
    machine.queue.cached? key = some outcome := by
  obtain ⟨before, after, split, ascending⟩ := regular.split_resolved member
  have cache := congrArg List.reverse (regular.ordered.cache live)
  rw [List.reverse_reverse, split, remembered_append, ← List.singleton_append,
    remembered_append, remembered_singleton found, remembers] at cache
  -- What was resolved later left nothing behind for this key.
  have silent : (remembered past.keys after).reverse.lookup key = none := by
    refine List.lookup_eq_none_iff.mpr ?_
    rintro ⟨other, told⟩ inside
    obtain ⟨later, how, resolved, known, keeps⟩ :=
      mem_remembered.mp (List.mem_reverse.mp inside)
    refine bne_iff_ne.mpr ?_
    rintro rfl
    have forgets := last later how (ascending _ resolved) known
      (split ▸ List.mem_append_right _ (List.mem_cons_of_mem _ resolved))
    rw [forgets] at keeps
    cases keeps
  rw [Queue.cached?, cache, List.reverse_append, List.reverse_append, List.append_assoc,
    List.lookup_append, silent, Option.none_or]
  simp

/-- A key is cached when a job for it left an outcome behind. -/
theorem Regular.cached?_ne_none (regular : Regular past machine)
    (live : machine.queue.disposed = false) (member : (number, ending) ∈ past.resolved)
    (found : past.keys[number]? = some key) (remembers : ending.remembered? = some outcome) :
    machine.queue.cached? key ≠ none := by
  intro missing
  have inside := (regular.mem_cache live).mpr ⟨number, ending, member, found, remembers⟩
  exact bne_iff_ne.mp (List.lookup_eq_none_iff.mp missing (key, outcome) inside) rfl

end Memory

end Machine

end Multipass
