import Multipass.Proofs.Queue.Renderings
import Multipass.Proofs.Thumbnail.Alike

/-!
# Which job gets a new context

With a factory that always succeeds, a worker builds a context for the first task that it
takes up, and for the first one after a panic that cost it its context. Since a worker is in
use until a job of it is given up, this says for each job how the one before it must have
ended for a new context to be built.
-/

namespace Multipass

namespace Studio

variable {φ σ : Type}

/-- The factory never refuses, and never panics. -/
def AlwaysBuilds (studio : Studio φ σ) : Prop :=
  ∀ factory, ∃ context next, studio.build factory = (.returned (.ok context), next)

/-- A context as the factory hands it over. -/
def IsNew (studio : Studio φ σ) (context : σ) : Prop :=
  ∃ factory next, studio.build factory = (.returned (.ok context), next)

/-- A context that the factory built, after anything that can be done to it. -/
inductive IsUsed (studio : Studio φ σ) : σ → Prop where
  | new {state : σ} : studio.IsNew state → IsUsed studio state
  | reset {state : σ} : IsUsed studio state → IsUsed studio (studio.context.reset state).2
  | compile {state : σ} (pass : PassName) (text : String) : IsUsed studio state →
    IsUsed studio (studio.context.compile pass text state).2
  | renderFrame {state : σ} (uniforms : Uniforms) : IsUsed studio state →
    IsUsed studio (studio.context.renderFrame uniforms state).2
  | capture {state : σ} : IsUsed studio state → IsUsed studio (studio.context.capture state).2

variable {studio : Studio φ σ}

theorem keeps_isUsed : studio.context.Keeps studio.IsUsed where
  reset _ := .reset
  compile pass text _ := .compile pass text
  renderFrame uniforms _ := .renderFrame uniforms
  capture _ := .capture

theorem AlwaysBuilds.buildContext (builds : studio.AlwaysBuilds) (factory : φ) :
    ∃ context next, Worker.buildContext studio factory = (some context, next) ∧
      studio.IsNew context := by
  obtain ⟨context, next, built⟩ := builds factory
  refine ⟨context, next, ?_, factory, next, built⟩
  rw [Worker.buildContext, built]
  rfl

/-- A worker that takes up a task has a context for it afterwards. -/
theorem AlwaysBuilds.takeUp_cases (builds : studio.AlwaysBuilds) {owner after : Worker σ}
    {factory next : φ} {task : RenderTask} {how : Worker.TakeUp}
    (takes : owner.takeUp studio factory = some (after, next, task, how)) :
    ∃ context rest, owner.inbox = task :: rest ∧ after = ⟨.rendering context task, rest⟩ ∧
      (owner.activity = .idle (some context) ∧ how = .reused ∨
        owner.activity = .idle none ∧ how = .built ∧ studio.IsNew context) := by
  obtain ⟨rest, waits, ⟨context, idle, same, -, reused⟩ | ⟨idle, context, built, same, new⟩ |
    ⟨-, refused, -⟩⟩ := Worker.takeUp_cases takes
  · exact ⟨context, rest, waits, same, .inl ⟨idle, reused⟩⟩
  · obtain ⟨other, later, builds, isNew⟩ := builds.buildContext factory
    rw [built, Prod.mk.injEq, Option.some.injEq] at builds
    exact ⟨context, rest, waits, same, .inr ⟨idle, new, builds.1 ▸ isNew⟩⟩
  · obtain ⟨other, later, builds, -⟩ := builds.buildContext factory
    rw [refused, Prod.mk.injEq] at builds
    cases builds.1

end Studio

/-- A context that survives is the one that was rendered on. -/
theorem Worker.eq_of_judge {σ : Type} {rendered : Foreign (Except ShaderError Thumbnail)}
    {left context : σ} (survives : (judge (rendered, left)).2 = some context) :
    context = left := by
  unfold judge at survives
  cases contained : rendered.contain with
  | error message =>
    simp only [contained] at survives
    cases survives
  | ok result =>
    cases result <;> simp only [contained] at survives <;> exact (Option.some.inj survives).symm

theorem Rendering.isUsed_survivor {φ σ : Type} {studio : Studio φ σ} {rendering : Rendering σ}
    (used : studio.IsUsed rendering.context) {context : σ}
    (survives : rendering.survivor studio = some context) : studio.IsUsed context := by
  rw [Worker.eq_of_judge survives]
  exact Studio.keeps_isUsed.renderThumbnail studio.codec studio.config rendering.now
    rendering.task.passes used

/-- The worker of a job that ended so is given up. -/
def Ending.abandons : Ending → Bool
  | finished _ => false
  | timedOut | unreachable => true

/-- A job has to have a new context: it is the first one, or the worker of the job before it
    was given up or lost its context with that job. -/
def History.Renews {κ φ σ : Type} (studio : Studio φ σ) (past : History κ φ σ) (number : Nat) :
    Prop :=
  number = 0 ∨ ∃ before ending, before + 1 = number ∧ (before, ending) ∈ past.resolved ∧
    (ending.abandons = true ∨ ∃ rendering ∈ past.renderings,
      rendering.task.number = before ∧ rendering.survivor studio = none)

/-- What is left of the context on which the job that was started last was rendered. -/
def History.Leaves {κ φ σ : Type} (studio : Studio φ σ) (past : History κ φ σ)
    (context : Option σ) : Prop :=
  ∃ rendering ∈ past.renderings, rendering.task.number + 1 = past.started ∧
    context = rendering.survivor studio

namespace Machine

variable {κ φ σ : Type} {studio : Studio φ σ} {machine next : Machine κ φ σ}
  {action : Action κ} {actions : List (Action κ)} {events : List (Event κ)}
  {past : History κ φ σ} {factory : φ} {number : Nat}

/-- Whether a job has to have a new context is decided when the job before it is resolved. -/
theorem Traced.renews_append (traced : Traced studio past machine)
    (steps : Transition studio machine action next events)
    (decided : number ≤ past.resolved.length) :
    History.Renews studio (past ++ [⟨machine, action, events⟩]) number ↔
      past.Renews studio number := by
  have whole := traced.regular.transition steps
  refine or_congr_right (exists_congr fun before => exists_congr fun ending =>
    and_congr_right fun previous => ?_)
  rw [History.renderings_append, History.renderings_singleton]
  constructor
  · rintro ⟨resolved, renews⟩
    rw [History.resolved_append] at resolved
    rcases List.mem_append.mp resolved with earlier | later
    · refine ⟨earlier, ?_⟩
      cases ending with
      | timedOut => exact .inl rfl
      | unreachable => exact .inl rfl
      | finished outcome =>
        right
        obtain ⟨rendering, member, same, lost⟩ := renews.resolve_left (by simp [Ending.abandons])
        rcases List.mem_append.mp member with old | new
        · exact ⟨rendering, old, same, lost⟩
        · -- The job finished with its reply, so it is not being rendered any more.
          obtain ⟨worker, owner, here, busy⟩ :=
            Turn.owner_of_rendering? (Option.mem_toList.mp new)
          have replied := traced.replied.finished before outcome earlier
          exact absurd same (ne_of_posted traced.distinct replied (has_of_rendering? here busy))
    · have bound := traced.regular.le_of_mem_resolved whole later
      omega
  · rintro ⟨resolved, renews⟩
    rw [History.resolved_append]
    refine ⟨List.mem_append_left _ resolved, renews.imp_right ?_⟩
    rintro ⟨rendering, member, facts⟩
    exact ⟨rendering, List.mem_append_left _ member, facts⟩

/-- A number that is in use is that of a job whose predecessors were resolved. -/
theorem Traced.le_of_mem_numbers (traced : Traced studio past machine)
    (inUse : number ∈ machine.numbers) : number ≤ past.resolved.length := by
  have started := Multiset.mem_of_le traced.handed.numbers inUse
  rw [Multiset.mem_coe, traced.regular.ordered.tells.startedJobs, List.mem_range] at started
  have bounds := traced.regular.ordered.bounds
  omega

theorem Traced.le_of_has (traced : Traced studio past machine) {worker : Nat}
    {task : RenderTask} (has : machine.Has worker task) :
    task.number ≤ past.resolved.length :=
  traced.le_of_mem_numbers (mem_numbers.mpr (.inl ⟨worker, task, has, rfl⟩))

/-- The task that the worker in use has in hand is that of the job that was taken last. -/
theorem Traced.last_of_has (traced : Traced studio past machine)
    (live : machine.queue.disposed = false) {worker : Nat}
    (inUse : machine.queue.worker = some worker) {task : RenderTask}
    (has : machine.Has worker task) : task.number + 1 = past.started := by
  have placed := traced.handed.placed live
  rcases placed.held worker task has with earlier | ⟨key, awaits⟩
  · have later := placed.current worker task inUse has
    omega
  · obtain ⟨index, here⟩ := List.mem_iff_getElem?.mp awaits
    have turn := (traced.regular.number_of_awaiting live here).1
    obtain ⟨-, drains, -⟩ := traced.regular.orderly.only here
    have begun := traced.regular.ordered.begun live
    rw [inHand, drains] at begun
    rw [begun, turn]
    rfl

/-! ## The worker in use -/

/-- A worker is in use unless the last job that was resolved was given up, or there was
    none. -/
def Attached (past : History κ φ σ) (machine : Machine κ φ σ) : Prop :=
  machine.queue.disposed = false → machine.inHand = [] →
    (machine.queue.worker = none ↔ ∀ job ∈ past.resolved.getLast?, job.2.abandons = true)

theorem attached_start (factory : φ) : Attached [] (start factory : Machine κ φ σ) := by
  intro _ _
  simp [start, Queue.empty, History.resolved, History.events, Event.resolvedJobs]

theorem Attached.transition (attached : Attached past machine)
    (traced : Traced studio past machine)
    (steps : Transition studio machine action next events) :
    Attached (past ++ [⟨machine, action, events⟩]) next := by
  have quiet : Event.resolvedJobs events = [] → next.queue.disposed = machine.queue.disposed →
      (next.inHand = [] → machine.inHand = []) → next.queue.worker = machine.queue.worker →
      Attached (past ++ [⟨machine, action, events⟩]) next := by
    intro noEnd disposed inHand worker live free
    rw [History.resolved_append, History.resolved_singleton, noEnd, List.append_nil, worker]
    exact attached (disposed ▸ live) (inHand free)
  have orderly := traced.regular.orderly
  cases steps with
  | refused _ | hit _ _ | enqueued _ _ _ | drainNotNeeded _ _ | hitAnswered _ | takenUp _ _
  | rendered _ _ | lost _ | disposedBefore _ => exact quiet rfl rfl id rfl
  | joined _ _ _ joins =>
    exact quiet rfl (Queue.join?_frame joins).2.1 id (Queue.join?_worker joins).2
  | drainStarted _ free _ =>
    refine quiet rfl rfl (fun _ => ?_) rfl
    rw [inHand, (orderly.idle free).1]
    rfl
  | drainEnded here _ =>
    exact quiet rfl rfl (fun _ => traced.regular.inHand_eq_nil here rfl) rfl
  | calledBack here _ | panicked here _ =>
    exact quiet rfl rfl (fun _ => traced.regular.inHand_eq_nil here rfl) rfl
  | jobTaken here _ _ _ =>
    obtain ⟨rfl, drains, -⟩ := orderly.only here
    intro _ free
    rw [inHand, drains] at free
    cases free
  | @resolved _ number _ worker _ ending here ends live =>
    intro _ _
    obtain ⟨rfl, drains, -⟩ := orderly.only here
    obtain ⟨used, -, inUse, -⟩ := (traced.handed.placed live).exists_worker here
    rw [History.resolved_append, History.resolved_singleton]
    have last : (past.resolved ++ Event.resolvedJobs
        [(.resolved number ending : Event κ)]).getLast? = Option.some (number, ending) :=
      List.getLast?_concat
    simp only [last, Option.mem_some, forall_eq']
    cases ending with
    | finished outcome =>
      refine iff_of_false ?_ (by simp [Ending.abandons])
      show machine.queue.worker ≠ none
      rw [inUse]
      exact Option.some_ne_none used
    | timedOut => exact iff_of_true rfl rfl
    | unreachable => exact iff_of_true rfl rfl
  | cutShort _ _ gone =>
    intro live
    exact absurd (gone.symm.trans live) (by simp)
  | disposed live =>
    intro still
    rw [Queue.dispose_of_live live] at still
    cases still

theorem Regular.succ_eq_length (regular : Regular past machine) {ending : Ending}
    (last : past.resolved.getLast? = some (number, ending)) :
    number + 1 = past.resolved.length := by
  have numbers := congrArg List.getLast? regular.ordered.numbers
  rw [List.getLast?_map, last, List.getLast?_range] at numbers
  split at numbers
  · cases numbers
  · have same : number = past.resolved.length - 1 := Option.some.inj numbers
    omega

/-- A job that is taken while no worker is in use has to have a new context. -/
theorem Attached.renews_of_none (attached : Attached past machine) (regular : Regular past machine)
    (live : machine.queue.disposed = false) (free : machine.inHand = [])
    (unused : machine.queue.worker = none) :
    past.Renews studio past.resolved.length := by
  have abandons := (attached live free).mp unused
  cases last : past.resolved.getLast? with
  | none =>
    rw [List.getLast?_eq_none_iff.mp last]
    exact .inl rfl
  | some job =>
    obtain ⟨number, ending⟩ := job
    exact .inr ⟨number, ending, regular.succ_eq_length last, List.mem_of_getLast? last,
      .inl (abandons _ last)⟩

/-- A job that is taken while a worker is in use has to have a new context only if the worker
    lost its own with the job before. -/
theorem Attached.renews_iff (attached : Attached past machine)
    (traced : Traced studio past machine) (live : machine.queue.disposed = false)
    (free : machine.inHand = []) {worker : Nat} (inUse : machine.queue.worker = some worker)
    {rendering : Rendering σ} (member : rendering ∈ past.renderings)
    (previous : rendering.task.number + 1 = past.resolved.length) :
    past.Renews studio past.resolved.length ↔ rendering.survivor studio = none := by
  have regular := traced.regular
  constructor
  · rintro (first | ⟨before, ending, next, resolved, renews⟩)
    · omega
    · rcases renews with abandons | ⟨other, rendered, same, lost⟩
      · have used : machine.queue.worker ≠ none := by simp [inUse]
        refine absurd ((attached live free).mpr ?_) used
        rintro ⟨number, how⟩ last
        have same : number = before := by
          have := regular.succ_eq_length last
          omega
        subst same
        have equal := regular.lookup_resolved (List.mem_of_getLast? last)
        rw [regular.lookup_resolved resolved, Option.some.injEq] at equal
        exact equal ▸ abandons
      · have one := List.inj_on_of_nodup_map traced.nodup_renderings rendered member
          (show other.task.number = rendering.task.number by omega)
        rwa [one] at lost
  · intro lost
    have resolved : rendering.task.number ∈ past.resolved.map Prod.fst := by
      rw [regular.ordered.numbers, List.mem_range]
      omega
    obtain ⟨⟨number, ending⟩, ended, same⟩ := List.mem_map.mp resolved
    exact .inr ⟨number, ending, by simp only at same; omega, ended,
      .inr ⟨rendering, member, same.symm, lost⟩⟩

/-! ## The contexts of the workers -/

/-- How a worker came to be what it is after a step. -/
inductive Became (studio : Studio φ σ) (machine : Machine κ φ σ) (action : Action κ)
    (events : List (Event κ)) (worker : Nat) (owner : Worker σ) : Prop where
  | kept : machine.workers[worker]? = some owner → Became studio machine action events worker owner
  | handed {before : Worker σ} {job : Job κ} {drain : Nat} :
      machine.drains[drain]? = some .free → machine.queue.disposed = false →
      machine.queue.pending.head? = some job → machine.queue.worker = some worker →
      machine.workers[worker]? = some before → owner = before.send ⟨job.number, job.passes⟩ →
      Became studio machine action events worker owner
  | started {job : Job κ} {drain : Nat} :
      machine.drains[drain]? = some .free → machine.queue.disposed = false →
      machine.queue.pending.head? = some job → machine.queue.worker = none →
      owner = .start ⟨job.number, job.passes⟩ → Became studio machine action events worker owner
  | took {before : Worker σ} {factory : φ} {task : RenderTask} {how : Worker.TakeUp} :
      machine.workers[worker]? = some before →
      before.takeUp studio machine.factory = some (owner, factory, task, how) →
      events = [.takenUp task.number how] → Became studio machine action events worker owner
  | finished {before : Worker σ} {rendering : Rendering σ} {now : Moment} :
      machine.workers[worker]? = some before → before.rendering? now = some rendering →
      owner = ⟨.idle (rendering.survivor studio), before.inbox⟩ →
      Turn.rendering? ⟨machine, action, events⟩ = some rendering →
      Became studio machine action events worker owner
  | lost {before : Worker σ} :
      machine.workers[worker]? = some before → action = .lose worker → owner = before.lose →
      Became studio machine action events worker owner

theorem became_of_transition (steps : Transition studio machine action next events)
    {worker : Nat} {owner : Worker σ} (there : next.workers[worker]? = some owner) :
    Became studio machine action events worker owner := by
  cases steps with
  | @jobTaken _ job _ _ _ _ free live waits assigned =>
    have head : machine.queue.pending.head? = some job := by rw [waits]; rfl
    rcases owner_of_assign assigned there with kept | ⟨-, used, before, here, sent⟩ |
      ⟨-, unused, begun⟩
    · exact .kept kept
    · exact .handed free live head used here sent
    · exact .started free live head unused begun
  | takenUp here takes =>
    rcases getElem?_set_cases there with kept | ⟨rfl, rfl⟩
    · exact .kept kept
    · exact .took here takes rfl
  | rendered here renders =>
    obtain ⟨rendering, busy, -, rfl⟩ := Worker.render_cases renders
    rcases getElem?_set_cases there with kept | ⟨rfl, rfl⟩
    · exact .kept kept
    · exact .finished here busy rfl ((Turn.rendering?_of_render here _ []).trans busy)
  | lost here =>
    rcases getElem?_set_cases there with kept | ⟨rfl, rfl⟩
    · exact .kept kept
    · exact .lost here rfl rfl
  | _ => exact .kept there

/-- A context suits what is rendered on it: it is a used one, and for a job that has to have a
    new context it is the one that was just built for it. -/
def Suits (studio : Studio φ σ) (past : History κ φ σ) (rendering : Rendering σ) : Prop :=
  studio.IsUsed rendering.context ∧
    (.takenUp rendering.task.number .built ∈ past.events ∧ studio.IsNew rendering.context ∧
        past.Renews studio rendering.task.number ∨
      .takenUp rendering.task.number .reused ∈ past.events ∧
        ¬ past.Renews studio rendering.task.number)

/-- What is known of the contexts when the factory always succeeds. -/
structure Equipped (studio : Studio φ σ) (past : History κ φ σ) (machine : Machine κ φ σ) :
    Prop where
  attached : Attached past machine
  waiting : ∀ (worker : Nat) context inbox,
    machine.workers[worker]? = some ⟨.idle context, inbox⟩ →
    ∀ task ∈ inbox, context = none ↔ past.Renews studio task.number
  resting : machine.queue.disposed = false → ∀ (worker : Nat) context,
    machine.queue.worker = some worker → machine.workers[worker]? = some ⟨.idle context, []⟩ →
    past.Leaves studio context
  used : ∀ (worker : Nat) context inbox,
    machine.workers[worker]? = some ⟨.idle (some context), inbox⟩ → studio.IsUsed context
  busy : ∀ (worker : Nat) owner now rendering, machine.workers[worker]? = some owner →
    owner.rendering? now = some rendering → Suits studio past rendering
  rendered : ∀ rendering ∈ past.renderings, Suits studio past rendering
  taken : ∀ number how, .takenUp number how ∈ past.events → number ≤ past.resolved.length ∧
    (how = .built ∧ past.Renews studio number ∨ how = .reused ∧ ¬ past.Renews studio number)

theorem equipped_start (studio : Studio φ σ) (factory : φ) :
    Equipped studio [] (start factory : Machine κ φ σ) where
  attached := attached_start factory
  waiting := by
    intro worker context inbox here
    cases here
  resting := by
    intro _ worker context inUse
    cases inUse
  used := by
    intro worker context inbox here
    cases here
  busy := by
    intro worker owner now rendering here
    cases here
  rendered := by
    intro rendering member
    cases member
  taken := by
    intro number how member
    cases member

section Step

variable (traced : Traced studio past machine)
  (steps : Transition studio machine action next events)

include steps

theorem Equipped.used_of_transition (equipped : Equipped studio past machine)
    (builds : studio.AlwaysBuilds) {worker : Nat} {context : σ}
    {inbox : List RenderTask}
    (there : next.workers[worker]? = some ⟨.idle (some context), inbox⟩) :
    studio.IsUsed context := by
  cases became_of_transition steps there with
  | kept here => exact equipped.used worker context inbox here
  | @handed before _ _ _ _ _ _ here same =>
    obtain ⟨activity, rest⟩ := before
    cases same
    exact equipped.used worker context rest here
  | started _ _ _ _ same => cases same
  | took _ takes _ =>
    obtain ⟨_, _, -, same, -⟩ := builds.takeUp_cases takes
    cases same
  | finished here busy same _ =>
    obtain ⟨idle, -⟩ := Worker.mk.inj same
    exact Rendering.isUsed_survivor (equipped.busy worker _ _ _ here busy).1
      (Activity.idle.inj idle).symm
  | lost _ _ same => cases same

include traced

theorem Suits.append {rendering : Rendering σ} (suits : Suits studio past rendering)
    (decided : rendering.task.number ≤ past.resolved.length) :
    Suits studio (past ++ [⟨machine, action, events⟩]) rendering := by
  refine ⟨suits.1, ?_⟩
  rw [traced.renews_append steps decided, History.events_append]
  rcases suits.2 with ⟨taken, new, renews⟩ | ⟨taken, keeps⟩
  · exact .inl ⟨List.mem_append_left _ taken, new, renews⟩
  · exact .inr ⟨List.mem_append_left _ taken, keeps⟩

variable (equipped : Equipped studio past machine)

include equipped

/-- A worker that has a task to take up is without a context if the job has to have a new one,
    and only then. -/
theorem Equipped.waiting_of_transition (builds : studio.AlwaysBuilds) {worker : Nat}
    {context : Option σ} {inbox : List RenderTask}
    (there : next.workers[worker]? = some ⟨.idle context, inbox⟩) {task : RenderTask}
    (member : task ∈ inbox) : task.number ≤ past.resolved.length ∧
      (context = none ↔ past.Renews studio task.number) := by
  have regular := traced.regular
  have started : ∀ {drain : Nat} {job : Job κ}, machine.drains[drain]? = some .free →
      machine.queue.disposed = false → machine.queue.pending.head? = some job →
      machine.inHand = [] ∧ job.number = past.resolved.length ∧
        past.started = past.resolved.length := by
    intro drain job free live front
    have inHand := regular.inHand_eq_nil free rfl
    exact ⟨inHand, regular.number_of_front live inHand front⟩
  cases became_of_transition steps there with
  | kept here =>
    exact ⟨traced.le_of_has ⟨_, here, member⟩,
      equipped.waiting worker context inbox here task member⟩
  | @handed before job drain free live front inUse here same =>
    obtain ⟨activity, rest⟩ := before
    cases same
    obtain ⟨inHand, turn, begun⟩ := started free live front
    -- The worker in use is idle: what it has is what the job that was resolved last left.
    have nothing : rest = [] := (traced.handed.placed live).idle regular.orderly free inUse here
    subst nothing
    obtain ⟨rendering, rendered, previous, rfl⟩ :=
      equipped.resting live worker context inUse here
    cases List.mem_singleton.mp member
    rw [turn]
    exact ⟨Nat.le_refl _, (equipped.attached.renews_iff traced live inHand inUse rendered
      (previous.trans begun)).symm⟩
  | started free live front unused same =>
    cases same
    obtain ⟨inHand, turn, -⟩ := started free live front
    cases List.mem_singleton.mp member
    rw [turn]
    exact ⟨Nat.le_refl _,
      iff_of_true rfl (equipped.attached.renews_of_none regular live inHand unused)⟩
  | took here takes _ =>
    obtain ⟨_, _, -, same, -⟩ := builds.takeUp_cases takes
    cases same
  | @finished before rendering _ here busy same _ =>
    cases same
    have few := traced.handed.few worker before here
    rw [Worker.tasks_of_rendering? busy, List.length_cons] at few
    rw [List.length_eq_zero_iff.mp (Nat.le_zero.mp (Nat.le_of_succ_le_succ few))] at member
    cases member
  | lost _ _ same => cases same

/-- A step in which no job is started. -/
theorem Equipped.resting_of_quiet (builds : studio.AlwaysBuilds)
    (quiet : Event.startedJobs events = []) (live : machine.queue.disposed = false) {worker : Nat}
    {context : Option σ} (inUse : next.queue.worker = some worker)
    (there : next.workers[worker]? = some ⟨.idle context, []⟩) :
    History.Leaves studio (past ++ [⟨machine, action, events⟩]) context := by
  have used : ∀ {owner : Worker σ}, machine.workers[worker]? = some owner →
      machine.queue.worker = some worker := fun here =>
    inUse_of_transition steps (List.getElem?_eq_some_iff.mp here).1 inUse
  have begun : History.started (past ++ [⟨machine, action, events⟩]) = past.started := by
    rw [History.started_append, History.started, History.started, History.events_singleton, quiet]
    rfl
  rw [History.Leaves, begun, History.renderings_append]
  cases became_of_transition steps there with
  | kept here =>
    obtain ⟨rendering, member, last, same⟩ := equipped.resting live worker context (used here) here
    exact ⟨rendering, List.mem_append_left _ member, last, same⟩
  | handed _ _ _ _ _ same => exact absurd (congrArg Worker.inbox same) (by simp [Worker.send])
  | started _ _ _ _ same => exact absurd (congrArg Worker.inbox same) (by simp [Worker.start])
  | took _ takes _ =>
    obtain ⟨_, _, -, same, -⟩ := builds.takeUp_cases takes
    cases same
  | @finished owner rendering _ here busy same rendered =>
    refine ⟨rendering, List.mem_append_right _ ?_,
      traced.last_of_has live (used here) (has_of_rendering? here busy),
      Activity.idle.inj (Worker.mk.inj same).1⟩
    rw [History.renderings_singleton, rendered]
    exact List.mem_singleton.mpr rfl
  | lost _ _ same => cases same

/-- When a job was started, the worker in use has its task to take up. -/
theorem Equipped.resting_of_transition (builds : studio.AlwaysBuilds)
    (live : next.queue.disposed = false) {worker : Nat} {context : Option σ}
    (inUse : next.queue.worker = some worker)
    (there : next.workers[worker]? = some ⟨.idle context, []⟩) :
    History.Leaves studio (past ++ [⟨machine, action, events⟩]) context := by
  have quiet := fun quiet before =>
    equipped.resting_of_quiet traced steps builds quiet before inUse there
  have before : machine.queue.disposed = false := by
    rw [disposed_of_transition steps, Bool.or_eq_false_iff] at live
    exact live.1
  cases steps with
  | jobTaken _ _ _ assigned =>
    rcases assign_workers assigned with ⟨number, -, -, rfl, rfl⟩ | ⟨-, -, -, rfl, rfl⟩ |
      ⟨-, -, -, rfl, -⟩
    · obtain rfl : number = worker := Option.some.inj inUse
      simp only [List.getElem?_modify, if_pos] at there
      obtain ⟨owner, -, same⟩ := Option.map_eq_some_iff.mp there
      exact absurd (congrArg Worker.inbox same) (by simp [Worker.send])
    · obtain rfl : machine.workers.length = worker := Option.some.inj inUse
      simp only [List.getElem?_concat_length, Option.some.injEq] at there
      exact absurd (congrArg Worker.inbox there) (by simp [Worker.start])
    · cases inUse
  | disposed still =>
    rw [Queue.dispose_of_live still] at live
    cases live
  | _ => exact quiet rfl before

theorem Equipped.busy_of_transition (builds : studio.AlwaysBuilds) {worker : Nat}
    {owner : Worker σ} {now : Moment} {rendering : Rendering σ}
    (there : next.workers[worker]? = some owner) (busy : owner.rendering? now = some rendering) :
    Suits studio (past ++ [⟨machine, action, events⟩]) rendering := by
  have kept : ∀ before, machine.workers[worker]? = some before →
      before.rendering? now = some rendering →
      Suits studio (past ++ [⟨machine, action, events⟩]) rendering := by
    intro before here busy
    exact (equipped.busy worker before now rendering here busy).append traced steps
      (traced.le_of_has (has_of_rendering? here busy))
  cases became_of_transition steps there with
  | kept here => exact kept owner here busy
  | @handed before _ _ _ _ _ _ here same =>
    subst same
    exact kept before here busy
  | started _ _ _ _ same =>
    subst same
    cases busy
  | @took before _ task how here takes told =>
    obtain ⟨activity, inbox⟩ := before
    obtain ⟨context, rest, rfl, rfl, taken⟩ := builds.takeUp_cases takes
    cases busy
    have decided : task.number ≤ past.resolved.length :=
      traced.le_of_has ⟨_, here, (Worker.tasks_takeUp takes).1⟩
    have event : .takenUp task.number how ∈
        History.events (past ++ [⟨machine, action, events⟩]) := by
      rw [History.events_append, History.events_singleton, told]
      exact List.mem_append_right _ (List.mem_singleton.mpr rfl)
    rw [Suits, traced.renews_append steps decided]
    rcases taken with ⟨idle, rfl⟩ | ⟨idle, rfl, new⟩
    all_goals
      subst idle
      have waits := equipped.waiting worker _ _ here task List.mem_cons_self
    · exact ⟨equipped.used worker context _ here, .inr ⟨event, fun renews => by
        cases waits.mpr renews⟩⟩
    · exact ⟨.new new, .inl ⟨event, new, waits.mp rfl⟩⟩
  | finished _ _ same _ =>
    subst same
    cases busy
  | lost _ _ same =>
    subst same
    cases busy

theorem Equipped.taken_of_transition (builds : studio.AlwaysBuilds) {number : Nat}
    {how : Worker.TakeUp} (told : .takenUp number how ∈ events) :
    number ≤ past.resolved.length ∧ (how = .built ∧ past.Renews studio number ∨
      how = .reused ∧ ¬ past.Renews studio number) := by
  cases steps with
  | @takenUp worker owner _ _ task _ here takes =>
    cases List.mem_singleton.mp told
    obtain ⟨activity, inbox⟩ := owner
    obtain ⟨context, rest, rfl, -, taken⟩ := builds.takeUp_cases takes
    refine ⟨traced.le_of_has ⟨_, here, (Worker.tasks_takeUp takes).1⟩, ?_⟩
    rcases taken with ⟨rfl, rfl⟩ | ⟨rfl, rfl, -⟩
    all_goals have waits := equipped.waiting worker _ _ here task List.mem_cons_self
    · exact .inr ⟨rfl, fun renews => by cases waits.mpr renews⟩
    · exact .inl ⟨rfl, waits.mp rfl⟩
  | disposed _ =>
    obtain ⟨callback, -, same⟩ := List.mem_map.mp told
    cases same
  | panicked _ _ => simp at told
  | enqueued _ _ _ | hitAnswered _ | jobTaken _ _ _ _ | resolved _ _ _ | calledBack _ _ =>
    cases List.mem_singleton.mp told
  | _ => cases told

theorem Equipped.transition (builds : studio.AlwaysBuilds) :
    Equipped studio (past ++ [⟨machine, action, events⟩]) next where
  attached := equipped.attached.transition traced steps
  waiting := by
    intro worker context inbox there task member
    obtain ⟨decided, same⟩ := equipped.waiting_of_transition traced steps builds there member
    rwa [traced.renews_append steps decided]
  resting := by
    intro live worker context
    exact equipped.resting_of_transition traced steps builds live
  used := by
    intro worker context inbox
    exact equipped.used_of_transition steps builds
  busy := by
    intro worker owner now rendering
    exact equipped.busy_of_transition traced steps builds
  rendered := by
    rw [History.renderings_append, History.renderings_singleton]
    intro rendering member
    rcases List.mem_append.mp member with earlier | new
    · refine (equipped.rendered rendering earlier).append traced steps ?_
      refine traced.le_of_mem_numbers (mem_numbers.mpr (.inr ?_))
      exact ⟨_, traced.replied.replies.subset (List.mem_map_of_mem earlier), rfl⟩
    · obtain ⟨worker, owner, here, busy⟩ := Turn.owner_of_rendering? (Option.mem_toList.mp new)
      exact (equipped.busy worker owner _ rendering here busy).append traced steps
        (traced.le_of_has (has_of_rendering? here busy))
  taken := by
    rw [History.events_append, History.events_singleton, History.resolved_append,
      List.length_append]
    intro number how told
    have known : number ≤ past.resolved.length ∧ (how = .built ∧ past.Renews studio number ∨
        how = .reused ∧ ¬ past.Renews studio number) := by
      rcases List.mem_append.mp told with earlier | new
      · exact equipped.taken number how earlier
      · exact equipped.taken_of_transition traced steps builds new
    rw [traced.renews_append steps known.1]
    exact ⟨known.1.trans (Nat.le_add_right _ _), known.2⟩

end Step

theorem equipped_history (builds : studio.AlwaysBuilds)
    (runs : run studio actions (start factory) = some (machine, events)) :
    Equipped studio (history studio actions (start factory)) machine :=
  traced_induction (Equipped studio) (equipped_start studio factory)
    (fun traced equipped steps => equipped.transition traced steps builds) runs

/-- A job that finished has the outcome of its own passes, on a context that suits it. -/
theorem Equipped.exists_rendering (equipped : Equipped studio past machine)
    (traced : Traced studio past machine) {outcome : Outcome}
    (finished : (number, .finished outcome) ∈ past.resolved) :
    ∃ rendering ∈ past.renderings, rendering.task.number = number ∧
      past.passes[number]? = some rendering.task.passes ∧
      rendering.outcome studio = outcome ∧ Suits studio past rendering := by
  rcases traced.replied.others _ (traced.replied.finished number outcome finished) with
    ⟨rendering, member, same⟩ | ⟨-, refused⟩
  · obtain ⟨rfl, rfl⟩ := Posted.mk.inj same
    exact ⟨rendering, member, rfl, traced.replied.rendered rendering member, rfl,
      equipped.rendered rendering member⟩
  · obtain ⟨-, ⟨built, -⟩ | ⟨reused, -⟩⟩ := equipped.taken number .refused refused
    · cases built
    · cases reused

end Machine

end Multipass
