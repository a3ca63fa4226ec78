import Multipass.Proofs.Queue.History

/-!
# The tasks of the workers

A job goes to one worker, which renders it once or not at all and posts one reply. So the
number of a job is in one place at most: in the hands of one worker, or on one reply. A
worker that is abandoned keeps its task and may post its reply later, but that reply has the
number of a job that was resolved before.
-/

namespace Multipass

/-- A task, with the context that it is rendered on and the moment at which it is drawn. -/
structure Rendering (σ : Type) where
  task : RenderTask
  context : σ
  now : Moment

namespace Rendering

variable {φ σ : Type}

/-- What the worker tells of the rendering. -/
def outcome (studio : Studio φ σ) (rendering : Rendering σ) : Outcome :=
  (Worker.judge (studio.context.renderThumbnail studio.codec rendering.task.passes studio.config
    rendering.now rendering.context)).1

/-- The context that the worker has afterwards. -/
def survivor (studio : Studio φ σ) (rendering : Rendering σ) : Option σ :=
  (Worker.judge (studio.context.renderThumbnail studio.codec rendering.task.passes studio.config
    rendering.now rendering.context)).2

/-- The reply that the worker posts. -/
def reply (studio : Studio φ σ) (rendering : Rendering σ) : Posted :=
  ⟨rendering.task.number, rendering.outcome studio⟩

end Rendering

namespace Worker

variable {φ σ : Type} {studio : Studio φ σ} {owner after : Worker σ} {factory next : φ}
  {task : RenderTask} {how : TakeUp} {reply : Posted} {now : Moment}

/-- What the worker renders, if the clock says so while it does. -/
def rendering? (now : Moment) (worker : Worker σ) : Option (Rendering σ) :=
  match worker.activity with
  | .rendering context task => some ⟨task, context, now⟩
  | _ => none

theorem rendering?_now {worker : Worker σ} {now : Moment} {rendering : Rendering σ}
    (busy : worker.rendering? now = some rendering) : rendering.now = now := by
  unfold rendering? at busy
  split at busy
  · cases busy
    rfl
  · cases busy

/-- The tasks that a worker has in hand. One whose thread has ended does nothing any more. -/
def tasks (worker : Worker σ) : List RenderTask :=
  match worker.activity with
  | .idle _ => worker.inbox
  | .rendering _ task => task :: worker.inbox
  | .gone => []

theorem takeUp_cases (takes : owner.takeUp studio factory = some (after, next, task, how)) :
    ∃ inbox, owner.inbox = task :: inbox ∧
      ((∃ context, owner.activity = .idle (some context) ∧
          after = ⟨.rendering context task, inbox⟩ ∧ next = factory ∧ how = .reused) ∨
        (owner.activity = .idle none ∧ ∃ context,
          buildContext studio factory = (some context, next) ∧
          after = ⟨.rendering context task, inbox⟩ ∧ how = .built) ∨
        (owner.activity = .idle none ∧ buildContext studio factory = (none, next) ∧
          after = ⟨.idle none, inbox⟩ ∧ how = .refused)) := by
  obtain ⟨activity, inbox⟩ := owner
  unfold takeUp at takes
  split at takes
  · rename_i context first rest idle waits
    cases takes
    exact ⟨rest, waits, .inl ⟨context, idle, rfl, rfl, rfl⟩⟩
  · rename_i first rest idle waits
    split at takes
    · rename_i context later built
      cases takes
      exact ⟨rest, waits, .inr (.inl ⟨idle, context, built, rfl, rfl⟩)⟩
    · rename_i later refused
      cases takes
      exact ⟨rest, waits, .inr (.inr ⟨idle, refused, rfl, rfl⟩)⟩
  · cases takes

theorem render_cases (renders : owner.render studio now = some (after, reply)) :
    ∃ rendering, owner.rendering? now = some rendering ∧ reply = rendering.reply studio ∧
      after = ⟨.idle (rendering.survivor studio), owner.inbox⟩ := by
  obtain ⟨activity, inbox⟩ := owner
  unfold render at renders
  split at renders
  · rename_i context task busy
    cases renders
    refine ⟨⟨task, context, now⟩, ?_, rfl, rfl⟩
    rw [rendering?, busy]
  · cases renders

theorem tasks_of_isGone (gone : owner.isGone = true) : owner.tasks = [] := by
  obtain ⟨activity, inbox⟩ := owner
  cases activity with
  | gone => rfl
  | _ => cases gone

/-- A worker whose thread has ended gets nothing. -/
theorem tasks_send (worker : Worker σ) (task : RenderTask) :
    (worker.send task).tasks = worker.tasks ++ [task] ∨ (worker.send task).tasks = [] := by
  obtain ⟨activity, inbox⟩ := worker
  cases activity with
  | gone => exact .inr rfl
  | _ => exact .inl rfl

theorem tasks_takeUp (takes : owner.takeUp studio factory = some (after, next, task, how)) :
    task ∈ owner.tasks ∧ owner.tasks = (if how = .refused then [task] else []) ++ after.tasks := by
  obtain ⟨activity, inbox⟩ := owner
  obtain ⟨rest, rfl, ⟨context, rfl, rfl, -, rfl⟩ | ⟨rfl, context, -, rfl, rfl⟩ |
    ⟨rfl, -, rfl, rfl⟩⟩ := takeUp_cases takes
  all_goals exact ⟨List.mem_cons_self, rfl⟩

theorem tasks_of_rendering? {rendering : Rendering σ}
    (busy : owner.rendering? now = some rendering) : owner.tasks = rendering.task :: owner.inbox := by
  obtain ⟨activity, inbox⟩ := owner
  cases activity with
  | rendering context task =>
    cases busy
    rfl
  | _ => cases busy

/-- The numbers of the jobs that a worker has in hand. -/
def numbers (worker : Worker σ) : Multiset Nat :=
  (worker.tasks.map (·.number) : List Nat)

theorem numbers_send_le (worker : Worker σ) (task : RenderTask) :
    (worker.send task).numbers ≤ worker.numbers + {task.number} := by
  rcases tasks_send worker task with same | gone
  · rw [numbers, same, List.map_append, ← Multiset.coe_add]
    exact le_refl _
  · rw [numbers, gone]
    exact Multiset.zero_le _

end Worker

/-- Who is called back does not wait any more. -/
theorem Drain.awaiting_ne_deliver {κ : Type} {number : Nat} {key : String} {worker : Option Nat}
    {outcome : Outcome} {callbacks : List κ} :
    awaiting number key worker ≠ deliver outcome callbacks := by
  cases callbacks <;> simp [deliver]

theorem Queue.join?_worker {κ : Type} {queue after : Queue κ} {key : String} {callback : κ}
    (joined : queue.join? key callback = some after) :
    after.hasFactory = queue.hasFactory ∧ after.worker = queue.worker := by
  rcases join?_cases joined with ⟨flight, -, -, rfl⟩ | ⟨pending, -, rfl⟩
  all_goals exact ⟨rfl, rfl⟩

namespace Machine

variable {κ φ σ : Type}

/-- The numbers of the jobs that are in the hands of workers, and of those that were
    replied to. -/
def numbers (machine : Machine κ φ σ) : Multiset Nat :=
  (machine.workers.map Worker.numbers).sum + (machine.posted.map (·.number) : List Nat)

/-- What one worker lets go, the workers together let go. -/
theorem sum_numbers_set {workers : List (Worker σ)} {worker : Nat} {owner after : Worker σ}
    {gone : Multiset Nat} (here : workers[worker]? = some owner)
    (letsGo : owner.numbers = gone + after.numbers) :
    ((workers.set worker after).map Worker.numbers).sum + gone =
      (workers.map Worker.numbers).sum := by
  induction workers generalizing worker with
  | nil => cases here
  | cons first rest ih =>
    cases worker with
    | zero =>
      cases here
      simp only [List.set_cons_zero, List.map_cons, List.sum_cons, letsGo]
      abel
    | succ worker =>
      simp only [List.set_cons_succ, List.map_cons, List.sum_cons, add_assoc]
      rw [ih here]

variable {studio : Studio φ σ} {machine next : Machine κ φ σ} {action : Action κ}
  {actions : List (Action κ)} {events : List (Event κ)} {past : History κ φ σ} {factory : φ}

/-- What handing over a task does to the workers. -/
theorem assign_workers {task : RenderTask} {inUse worker : Option Nat}
    {workers : List (Worker σ)}
    (assigned : assign task machine =
      ({ machine with queue := { machine.queue with worker := inUse }, workers }, worker)) :
    (∃ number, machine.queue.worker = some number ∧ worker = some number ∧
        inUse = some number ∧ workers = machine.workers.modify number (·.send task)) ∨
      (machine.queue.worker = none ∧ machine.queue.hasFactory = true ∧
        worker = some machine.workers.length ∧ inUse = some machine.workers.length ∧
        workers = machine.workers ++ [.start task]) ∨
      (machine.queue.worker = none ∧ machine.queue.hasFactory = false ∧ worker = none ∧
        inUse = none ∧ workers = machine.workers) := by
  obtain ⟨⟨cache, jobs, rendering, enqueued, draining, disposed, canBuild, used⟩,
    arriving, hits, drains, owners, posted, builder⟩ := machine
  cases used with
  | some number =>
    cases assigned
    exact .inl ⟨number, rfl, rfl, rfl, rfl⟩
  | none =>
    cases canBuild with
    | true =>
      cases assigned
      exact .inr (.inl ⟨rfl, rfl, rfl, rfl, rfl⟩)
    | false =>
      cases assigned
      exact .inr (.inr ⟨rfl, rfl, rfl, rfl, rfl⟩)

/-- After a task was handed over a worker is what it was before, or it is the one that got the
    task. -/
theorem owner_of_assign {task : RenderTask} {inUse worker : Option Nat}
    {workers : List (Worker σ)}
    (assigned : assign task machine =
      ({ machine with queue := { machine.queue with worker := inUse }, workers }, worker))
    {other : Nat} {owner : Worker σ} (there : workers[other]? = some owner) :
    machine.workers[other]? = some owner ∨
      (worker = some other ∧ machine.queue.worker = some other ∧
        ∃ before, machine.workers[other]? = some before ∧ owner = before.send task) ∨
      (worker = some other ∧ machine.queue.worker = none ∧ owner = .start task) := by
  rcases assign_workers assigned with ⟨number, used, rfl, -, rfl⟩ | ⟨unused, -, rfl, -, rfl⟩ |
    ⟨-, -, -, -, rfl⟩
  · rw [List.getElem?_modify] at there
    obtain ⟨before, here, rfl⟩ := Option.map_eq_some_iff.mp there
    by_cases same : number = other
    · subst same
      exact .inr (.inl ⟨rfl, used, before, here, if_pos rfl⟩)
    · rw [if_neg same]
      exact .inl here
  · by_cases inside : other < machine.workers.length
    · rw [List.getElem?_append_left inside] at there
      exact .inl there
    · rw [List.getElem?_append_right (Nat.le_of_not_lt inside), List.getElem?_singleton] at there
      split at there
      · exact .inr (.inr ⟨congrArg some (by omega), unused, (Option.some.inj there).symm⟩)
      · cases there
  · exact .inl there

theorem sum_numbers_modify_le (workers : List (Worker σ)) (worker : Nat) (task : RenderTask) :
    ((workers.modify worker (·.send task)).map Worker.numbers).sum ≤
      (workers.map Worker.numbers).sum + {task.number} := by
  induction workers generalizing worker with
  | nil =>
    rw [List.modify_nil]
    exact Multiset.zero_le _
  | cons first rest ih =>
    cases worker with
    | zero =>
      simp only [List.modify_zero_cons, List.map_cons, List.sum_cons]
      calc (first.send task).numbers + (rest.map Worker.numbers).sum
          ≤ first.numbers + {task.number} + (rest.map Worker.numbers).sum := by
            gcongr
            exact first.numbers_send_le task
        _ = _ := by abel
    | succ worker =>
      simp only [List.modify_succ_cons, List.map_cons, List.sum_cons, add_assoc]
      gcongr
      exact ih worker

/-- A worker that lets numbers go can put them on replies, but no others. -/
theorem numbers_set_le {worker : Nat} {owner after : Worker σ} {gone : Multiset Nat}
    (here : machine.workers[worker]? = some owner) (letsGo : owner.numbers = gone + after.numbers)
    (workers : next.workers = machine.workers.set worker after)
    (posted : (next.posted.map (·.number) : Multiset Nat) ≤
      gone + (machine.posted.map (·.number) : List Nat)) : next.numbers ≤ machine.numbers := by
  rw [numbers, numbers, workers, ← sum_numbers_set here letsGo, add_assoc]
  gcongr

/-- A number comes to the workers when its job is started, and moves on to a reply. -/
theorem numbers_of_transition (steps : Transition studio machine action next events) :
    next.numbers ≤ machine.numbers + (Event.startedJobs events : List Nat) := by
  cases steps with
  | @jobTaken _ job _ _ _ _ _ _ _ assigned =>
    have told : (Event.startedJobs [(.started job.number : Event κ)] : Multiset Nat) =
        {job.number} := rfl
    rw [told]
    rcases assign_workers assigned with ⟨number, -, -, -, rfl⟩ | ⟨-, -, -, -, rfl⟩ |
      ⟨-, -, -, -, rfl⟩
    · calc ((machine.workers.modify number (·.send ⟨job.number, job.passes⟩)).map
              Worker.numbers).sum + (machine.posted.map (·.number) : List Nat)
          ≤ (machine.workers.map Worker.numbers).sum + {job.number} +
            (machine.posted.map (·.number) : List Nat) := by
            gcongr
            exact sum_numbers_modify_le _ _ _
        _ = machine.numbers + {job.number} := by
            rw [numbers]
            abel
    · refine le_of_eq ?_
      simp only [numbers, List.map_append, List.sum_append, List.map_cons, List.map_nil,
        List.sum_singleton]
      show _ + {job.number} + _ = _
      abel
    · exact Multiset.le_add_right _ _
  | @takenUp _ owner after _ task how here takes =>
    have letsGo : owner.numbers = (if how = .refused then {task.number} else 0) +
        after.numbers := by
      rw [Worker.numbers, (Worker.tasks_takeUp takes).2, List.map_append, ← Multiset.coe_add]
      split <;> rfl
    refine (numbers_set_le here letsGo rfl ?_).trans (Multiset.le_add_right _ _)
    simp only
    split
    · rw [List.map_append, ← Multiset.coe_add, add_comm]
      rfl
    · rw [zero_add]
  | @rendered _ _ owner _ _ here renders =>
    obtain ⟨rendering, busy, rfl, rfl⟩ := Worker.render_cases renders
    have letsGo : owner.numbers = {rendering.task.number} +
        Worker.numbers ⟨.idle (rendering.survivor studio), owner.inbox⟩ := by
      rw [Worker.numbers, Worker.tasks_of_rendering? busy]
      rfl
    refine (numbers_set_le here letsGo rfl ?_).trans (Multiset.le_add_right _ _)
    rw [List.map_append, ← Multiset.coe_add, add_comm]
    rfl
  | @lost _ owner here =>
    have letsGo : owner.numbers = owner.numbers + owner.lose.numbers := (add_zero _).symm
    refine (numbers_set_le here letsGo rfl ?_).trans (Multiset.le_add_right _ _)
    exact Multiset.le_add_left _ _
  | disposed live => exact Multiset.le_add_right _ _
  | _ => exact Multiset.le_add_right _ _

/-! ## Who has which task -/

/-- A worker has a task in hand. -/
def Has (machine : Machine κ φ σ) (worker : Nat) (task : RenderTask) : Prop :=
  ∃ owner, machine.workers[worker]? = some owner ∧ task ∈ owner.tasks

/-- What stands at a place of a list in which one place was set. -/
theorem getElem?_set_cases {α : Type} {items : List α} {place other : Nat} {item found : α}
    (there : (items.set place item)[other]? = some found) :
    items[other]? = some found ∨ place = other ∧ item = found := by
  by_cases same : place = other
  · subst same
    have inside := (List.getElem?_eq_some_iff.mp there).1
    rw [List.length_set] at inside
    rw [List.getElem?_set_self inside, Option.some.injEq] at there
    exact .inr ⟨rfl, there⟩
  · rw [List.getElem?_set_ne same] at there
    exact .inl there

/-- A worker that gets no task has none that it did not have. -/
theorem has_of_set {worker other : Nat} {owner after : Worker σ} {task : RenderTask}
    (here : machine.workers[worker]? = some owner)
    (workers : next.workers = machine.workers.set worker after)
    (kept : ∀ task ∈ after.tasks, task ∈ owner.tasks) (has : next.Has other task) :
    machine.Has other task := by
  obtain ⟨found, there, member⟩ := has
  rw [workers] at there
  rcases getElem?_set_cases there with before | ⟨rfl, rfl⟩
  · exact ⟨found, before, member⟩
  · exact ⟨owner, here, kept task member⟩

/-- Only the worker that a task is handed to has it in addition. -/
theorem has_of_assign {task : RenderTask} {inUse worker : Option Nat}
    {workers : List (Worker σ)}
    (assigned : assign task machine =
      ({ machine with queue := { machine.queue with worker := inUse }, workers }, worker))
    {other : Nat} {held : RenderTask} {owner : Worker σ} (there : workers[other]? = some owner)
    (member : held ∈ owner.tasks) :
    machine.Has other held ∨ held = task ∧ worker = some other := by
  rcases owner_of_assign assigned there with kept | ⟨got, -, before, here, rfl⟩ | ⟨got, -, rfl⟩
  · exact .inl ⟨owner, kept, member⟩
  · rcases Worker.tasks_send before task with tasks | tasks
    · rw [tasks] at member
      rcases List.mem_append.mp member with earlier | new
      · exact .inl ⟨before, here, earlier⟩
      · exact .inr ⟨List.mem_singleton.mp new, got⟩
    · rw [tasks] at member
      cases member
  · exact .inr ⟨List.mem_singleton.mp member, got⟩

/-- Only a drain that begins a round hands tasks over. -/
theorem has_of_transition (steps : Transition studio machine action next events)
    (another : ∀ drain, action ≠ .beginRound drain) {worker : Nat} {task : RenderTask}
    (has : next.Has worker task) : machine.Has worker task := by
  cases steps with
  | jobTaken _ _ _ _ => exact absurd rfl (another _)
  | takenUp here takes =>
    refine has_of_set here rfl ?_ has
    intro other member
    rw [(Worker.tasks_takeUp takes).2]
    exact List.mem_append_right _ member
  | rendered here renders =>
    obtain ⟨rendering, busy, -, rfl⟩ := Worker.render_cases renders
    refine has_of_set here rfl ?_ has
    intro other member
    rw [Worker.tasks_of_rendering? busy]
    exact List.mem_cons_of_mem _ member
  | lost here =>
    refine has_of_set here rfl ?_ has
    intro other member
    cases member
  | _ => exact has

/-- Each number that is in use is in somebody's hands or on a reply. -/
theorem mem_numbers {number : Nat} : number ∈ machine.numbers ↔
    (∃ worker task, machine.Has worker task ∧ task.number = number) ∨
      ∃ reply ∈ machine.posted, reply.number = number := by
  have owners : number ∈ (machine.workers.map Worker.numbers).sum ↔
      ∃ owner ∈ machine.workers, ∃ task ∈ owner.tasks, task.number = number := by
    induction machine.workers with
    | nil => simp
    | cons first rest ih =>
      simp only [List.map_cons, List.sum_cons, Multiset.mem_add, ih, List.exists_mem_cons_iff,
        Worker.numbers, Multiset.mem_coe, List.mem_map]
  rw [numbers, Multiset.mem_add, owners, Multiset.mem_coe, List.mem_map]
  refine or_congr_left ⟨?_, ?_⟩
  · rintro ⟨owner, member, task, holds, same⟩
    obtain ⟨worker, here⟩ := List.mem_iff_getElem?.mp member
    exact ⟨worker, task, ⟨owner, here, holds⟩, same⟩
  · rintro ⟨worker, task, ⟨owner, here, holds⟩, same⟩
    exact ⟨owner, List.mem_of_getElem? here, task, holds, same⟩

/-- Nobody has a task that was replied to. -/
theorem ne_of_posted (distinct : machine.numbers.Nodup) {reply : Posted}
    (posted : reply ∈ machine.posted) {worker : Nat} {task : RenderTask}
    (has : machine.Has worker task) : task.number ≠ reply.number := by
  obtain ⟨owner, here, member⟩ := has
  intro same
  have letsGo : owner.numbers = owner.numbers + owner.lose.numbers := (add_zero _).symm
  rw [numbers, ← sum_numbers_set here letsGo] at distinct
  refine Multiset.disjoint_left.mp (Multiset.nodup_add.mp distinct).2.2
    (Multiset.mem_add.mpr (.inr (Multiset.mem_coe.mpr (List.mem_map_of_mem member)))) ?_
  rw [same]
  exact Multiset.mem_coe.mpr (List.mem_map_of_mem posted)

theorem mem_posted_of_reply? {number : Nat} {outcome : Outcome}
    (replied : machine.reply? number = some outcome) : ⟨number, outcome⟩ ∈ machine.posted := by
  obtain ⟨⟨found, told⟩, first, rfl⟩ := Option.map_eq_some_iff.mp replied
  have same := List.find?_some first
  obtain rfl : found = number := beq_iff_eq.mp same
  exact List.mem_of_find?_eq_some first

/-- No number is on more than one reply or in more than one place. -/
theorem Regular.nodup_of_le (regular : Regular past machine)
    (numbers : machine.numbers ≤ (Event.startedJobs past.events : List Nat)) :
    machine.numbers.Nodup := by
  refine Multiset.nodup_of_le numbers (Multiset.coe_nodup.mpr ?_)
  rw [regular.ordered.tells.startedJobs]
  exact List.nodup_range

/-- Where the tasks are, until the queue is disposed of, when so many jobs were resolved. A
    worker has tasks of jobs that were resolved, because the drain stopped waiting for them,
    and the task that a drain handed to it. The worker in use has no others than that. -/
structure Placed (resolved : Nat) (machine : Machine κ φ σ) : Prop where
  canBuild : machine.queue.hasFactory = true
  started : ∀ worker, machine.queue.worker = some worker → worker < machine.workers.length
  held : ∀ worker task, machine.Has worker task → task.number < resolved ∨
    ∃ key, .awaiting task.number key (some worker) ∈ machine.drains
  current : ∀ worker task, machine.queue.worker = some worker → machine.Has worker task →
    resolved ≤ task.number
  awaited : ∀ number key worker, .awaiting number key worker ∈ machine.drains →
    worker = machine.queue.worker ∧ worker.isSome = true

theorem placed_start (factory : φ) : Placed 0 (start factory : Machine κ φ σ) where
  canBuild := rfl
  started := by
    intro worker inUse
    cases inUse
  held := by
    rintro worker task ⟨owner, here, -⟩
    cases here
  current := by
    intro worker task inUse
    cases inUse
  awaited := by
    intro number key worker awaits
    cases awaits

/-- A drain waits for the worker in use. -/
theorem Placed.exists_worker {resolved : Nat} (placed : Placed resolved machine)
    {drain number : Nat} {key : String} {worker : Option Nat}
    (here : machine.drains[drain]? = some (.awaiting number key worker)) :
    ∃ used, worker = some used ∧ machine.queue.worker = some used ∧
      used < machine.workers.length := by
  obtain ⟨rfl, inUse⟩ := placed.awaited _ _ _ (List.mem_of_getElem? here)
  obtain ⟨used, inUse⟩ := Option.isSome_iff_exists.mp inUse
  exact ⟨used, inUse, inUse, placed.started used inUse⟩

/-- A step that hands no task over and lets no drain wait. -/
theorem Placed.quiet {resolved : Nat} (placed : Placed resolved machine)
    (has : ∀ worker task, next.Has worker task → machine.Has worker task)
    (canBuild : next.queue.hasFactory = machine.queue.hasFactory)
    (worker : next.queue.worker = machine.queue.worker)
    (workers : next.workers.length = machine.workers.length)
    (awaited : ∀ number key worker,
      .awaiting number key worker ∈ next.drains ↔ .awaiting number key worker ∈ machine.drains) :
    Placed resolved next where
  canBuild := canBuild.trans placed.canBuild
  started := by
    rw [worker, workers]
    exact placed.started
  held := by
    intro worker task holds
    simpa only [awaited] using placed.held worker task (has worker task holds)
  current := by
    rw [worker]
    exact fun worker task inUse holds => placed.current worker task inUse (has worker task holds)
  awaited := by
    simpa only [awaited, worker] using placed.awaited

/-- The drain hands the task of the job at the front to the worker in use, which is idle, or
    to a new one. -/
theorem Placed.take {resolved : Nat} (placed : Placed resolved machine) (orderly : machine.Orderly)
    {drain : Nat} {job : Job κ} {pending : List (Job κ)} {inUse worker : Option Nat}
    {workers : List (Worker σ)} (free : machine.drains[drain]? = some .free)
    (turn : job.number = resolved)
    (assigned : assign ⟨job.number, job.passes⟩ machine =
      ({ machine with queue := { machine.queue with worker := inUse }, workers }, worker)) :
    Placed resolved
      { machine with
        queue := { machine.queue with
          pending, flight := some ⟨job.key, job.callbacks⟩, worker := inUse }
        workers
        drains := machine.drains.set drain (.awaiting job.number job.key worker) } := by
  obtain ⟨rfl, drains, -⟩ := orderly.only free
  have handed : worker = inUse ∧ ∃ number, worker = some number ∧ number < workers.length := by
    rcases assign_workers assigned with ⟨number, here, rfl, rfl, rfl⟩ | ⟨-, -, rfl, rfl, rfl⟩ |
      ⟨-, refused, -, -, -⟩
    · refine ⟨rfl, number, rfl, ?_⟩
      rw [List.length_modify]
      exact placed.started number here
    · exact ⟨rfl, _, rfl, by simp⟩
    · rw [placed.canBuild] at refused
      cases refused
  obtain ⟨rfl, number, rfl, inside⟩ := handed
  refine ⟨placed.canBuild, ?_, ?_, ?_, ?_⟩
  · rintro other ⟨rfl⟩
    exact inside
  · rintro other task ⟨owner, there, member⟩
    rcases has_of_assign assigned there member with earlier | ⟨rfl, here⟩
    · refine .inl ((placed.held other task earlier).resolve_right ?_)
      rintro ⟨key, awaits⟩
      rw [drains] at awaits
      cases List.mem_singleton.mp awaits
    · cases here
      exact .inr ⟨job.key, by rw [drains]; exact List.mem_singleton.mpr rfl⟩
  · rintro other task ⟨rfl⟩ ⟨owner, there, member⟩
    rcases has_of_assign assigned there member with earlier | ⟨rfl, -⟩
    · rcases assign_workers assigned with ⟨_, here, same, -, -⟩ | ⟨-, -, same, -, -⟩ |
        ⟨-, -, same, -, -⟩
      · cases same
        exact placed.current number task here earlier
      · cases same
        obtain ⟨_, here, -⟩ := earlier
        exact absurd (List.getElem?_eq_some_iff.mp here).1 (Nat.lt_irrefl _)
      · cases same
    · exact Nat.le_of_eq turn.symm
  · intro _ _ _ awaits
    rw [drains, List.set_cons_zero] at awaits
    cases List.mem_singleton.mp awaits
    exact ⟨rfl, rfl⟩

/-- A worker that replied stays in use; one that did not is abandoned with its task. -/
theorem Placed.resolve (placed : Placed past.resolved.length machine)
    (regular : Regular past machine) (distinct : machine.numbers.Nodup)
    (live : machine.queue.disposed = false) {drain number : Nat} {key : String}
    {worker : Option Nat} {ending : Ending} {callbacks : List κ}
    (here : machine.drains[drain]? = some (.awaiting number key worker))
    (ends : JobEnds studio machine drain number worker action ending) :
    Placed (past.resolved.length + 1)
      { machine with
        queue := { machine.queue.record key ending with flight := none }
        drains := machine.drains.set drain (.deliver ending.outcome callbacks) } := by
  obtain ⟨rfl, drains, -⟩ := regular.orderly.only here
  obtain ⟨turn, -⟩ := regular.number_of_awaiting live here
  have nobody : ∀ {other key worker}, Drain.awaiting other key worker ∉
      machine.drains.set 0 (.deliver ending.outcome callbacks) := by
    intro other key worker awaits
    rw [drains, List.set_cons_zero] at awaits
    exact Drain.awaiting_ne_deliver (List.mem_singleton.mp awaits)
  have canBuild : (machine.queue.record key ending).hasFactory = true := by
    cases ending <;> exact placed.canBuild
  have kept : ∀ other, (machine.queue.record key ending).worker = some other →
      machine.queue.worker = some other ∧ ∃ outcome, ending = .finished outcome := by
    intro other inUse
    cases ending with
    | finished outcome => exact ⟨inUse, outcome, rfl⟩
    | timedOut => cases inUse
    | unreachable => cases inUse
  refine ⟨canBuild, fun other inUse => placed.started other (kept other inUse).1, ?_, ?_, ?_⟩
  · intro other task has
    rcases placed.held other task has with earlier | ⟨_, awaits⟩
    · exact .inl (Nat.lt_succ_of_lt earlier)
    · rw [drains] at awaits
      cases List.mem_singleton.mp awaits
      exact .inl (by omega)
  · intro other task inUse has
    obtain ⟨before, outcome, rfl⟩ := kept other inUse
    have later := placed.current other task before has
    cases ends with
    | finish replied =>
      -- The reply to the job is there, so nobody has its task any more.
      have apart := ne_of_posted distinct (mem_posted_of_reply? replied) has
      simp only at apart
      omega
  · intro _ _ _ awaits
    exact absurd awaits nobody

theorem Placed.transition (placed : Placed past.resolved.length machine)
    (regular : Regular past machine) (distinct : machine.numbers.Nodup)
    (steps : Transition studio machine action next events)
    (live : next.queue.disposed = false) :
    Placed (past.resolved.length + (Event.resolvedJobs events).length) next := by
  have orderly := regular.orderly
  have moved : (∀ drain, action ≠ .beginRound drain) →
      ∀ worker task, next.Has worker task → machine.Has worker task :=
    fun another _ _ => has_of_transition steps another
  cases steps with
  | jobTaken free still waits assigned =>
    refine placed.take orderly free ?_ assigned
    exact (regular.number_of_front still (regular.inHand_eq_nil free rfl) (by rw [waits]; rfl)).1
  | resolved here ends still => exact placed.resolve regular distinct still here ends
  | joined _ _ _ joins =>
    obtain ⟨canBuild, worker⟩ := Queue.join?_worker joins
    exact placed.quiet (fun _ _ => id) canBuild worker rfl (fun _ _ _ => Iff.rfl)
  | drainStarted _ _ _ =>
    refine placed.quiet (fun _ _ => id) rfl rfl rfl ?_
    simp
  | drainEnded here _ =>
    obtain ⟨rfl, drains, -⟩ := orderly.only here
    refine placed.quiet (fun _ _ => id) rfl rfl rfl ?_
    simp [drains]
  | calledBack here _ | panicked here _ =>
    obtain ⟨rfl, drains, -⟩ := orderly.only here
    refine placed.quiet (fun _ _ => id) rfl rfl rfl ?_
    intro number key worker
    simp [drains, Drain.awaiting_ne_deliver]
  | takenUp _ _ | rendered _ _ | lost _ =>
    refine placed.quiet (fun _ _ => moved (by simp) _ _) rfl rfl ?_ (fun _ _ _ => Iff.rfl)
    exact List.length_set
  | cutShort _ _ disposed => exact absurd (disposed.symm.trans live) (by simp)
  | disposed still =>
    rw [Queue.dispose_of_live still] at live
    cases live
  | _ => exact placed.quiet (fun _ _ => id) rfl rfl rfl (fun _ _ _ => Iff.rfl)

/-! ## Workers that are given up -/

/-- The worker is there, but it is not in use. -/
def IsAbandoned (machine : Machine κ φ σ) (worker : Nat) : Prop :=
  worker < machine.workers.length ∧ machine.queue.worker ≠ some worker

/-- The queue never comes back to a worker that it gave up. -/
theorem IsAbandoned.transition {worker : Nat} (abandoned : machine.IsAbandoned worker)
    (steps : Transition studio machine action next events) : next.IsAbandoned worker := by
  obtain ⟨inside, unused⟩ := abandoned
  cases steps with
  | jobTaken _ _ _ assigned =>
    rcases assign_workers assigned with ⟨number, used, -, rfl, rfl⟩ | ⟨-, -, -, rfl, rfl⟩ |
      ⟨-, -, -, rfl, rfl⟩
    · exact ⟨by simpa using inside, used ▸ unused⟩
    · refine ⟨by simp; omega, ?_⟩
      intro same
      cases same
      exact absurd inside (Nat.lt_irrefl _)
    · exact ⟨inside, by simp⟩
  | joined _ _ _ joins => exact ⟨inside, (Queue.join?_worker joins).2 ▸ unused⟩
  | takenUp _ _ | rendered _ _ | lost _ => exact ⟨by simpa using inside, unused⟩
  | @resolved _ _ _ _ _ ending _ _ _ =>
    cases ending with
    | finished outcome => exact ⟨inside, unused⟩
    | timedOut => exact ⟨inside, by simp [Queue.record]⟩
    | unreachable => exact ⟨inside, by simp [Queue.record]⟩
  | disposed live =>
    rw [Queue.dispose_of_live live]
    exact ⟨inside, by simp⟩
  | _ => exact ⟨inside, unused⟩

theorem IsAbandoned.run {worker : Nat} (abandoned : machine.IsAbandoned worker)
    (runs : Machine.run studio actions machine = some (next, events)) : next.IsAbandoned worker :=
  run_preserves (IsAbandoned · worker) (fun abandoned => abandoned.transition) abandoned runs

/-- A worker that is there and in use after a step was in use before. -/
theorem inUse_of_transition (steps : Transition studio machine action next events) {worker : Nat}
    (inside : worker < machine.workers.length) (inUse : next.queue.worker = some worker) :
    machine.queue.worker = some worker := by
  by_contra unused
  exact (IsAbandoned.transition ⟨inside, unused⟩ steps).2 inUse

end Machine

end Multipass
