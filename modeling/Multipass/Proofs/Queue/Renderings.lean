import Multipass.Proofs.Queue.Tasks
import Multipass.Proofs.Queue.Tickets

/-!
# What the replies say

Every reply is that of a rendering of the passes that came with the job, or tells of a
context that could not be built. A job that finished has the outcome of its reply, and a job
that reached no worker was never rendered.
-/

namespace Multipass

/-- The rendering that a step finished, if it did. -/
def Turn.rendering? {κ φ σ : Type} (turn : Turn κ φ σ) : Option (Rendering σ) :=
  match turn.action with
  | .render worker now => turn.machine.workers[worker]?.bind (Worker.rendering? now)
  | _ => none

theorem Turn.rendering?_of_render {κ φ σ : Type} {machine : Machine κ φ σ} {worker : Nat}
    {owner : Worker σ} (here : machine.workers[worker]? = some owner) (now : Moment)
    (events : List (Event κ)) :
    Turn.rendering? ⟨machine, .render worker now, events⟩ = owner.rendering? now := by
  simp [rendering?, here]

theorem Turn.owner_of_rendering? {κ φ σ : Type} {turn : Turn κ φ σ} {rendering : Rendering σ}
    (renders : turn.rendering? = some rendering) :
    ∃ (worker : Nat) (owner : Worker σ), turn.machine.workers[worker]? = some owner ∧
      owner.rendering? rendering.now = some rendering := by
  obtain ⟨machine, action, events⟩ := turn
  cases action with
  | render worker now =>
    obtain ⟨owner, here, busy⟩ := Option.bind_eq_some_iff.mp renders
    exact ⟨worker, owner, here, Worker.rendering?_now busy ▸ busy⟩
  | _ => cases renders

/-- The passes of the job that a step enqueued, if it did. -/
def Machine.enqueuedPasses {κ : Type} : Action κ → List (Event κ) → List (List PassSource)
  | .request _ passes _, [.enqueued _] => [passes]
  | _, _ => []

namespace History

variable {κ φ σ : Type}

/-- The passes of the jobs that were enqueued, in the order of their numbers. -/
def passes (past : History κ φ σ) : List (List PassSource) :=
  past.flatMap fun turn => Machine.enqueuedPasses turn.action turn.events

/-- The renderings that were finished, in this order. -/
def renderings (past : History κ φ σ) : List (Rendering σ) :=
  past.filterMap Turn.rendering?

theorem passes_append (past more : History κ φ σ) :
    passes (past ++ more) = past.passes ++ more.passes :=
  List.flatMap_append

@[simp] theorem passes_singleton (turn : Turn κ φ σ) :
    passes [turn] = Machine.enqueuedPasses turn.action turn.events :=
  List.flatMap_singleton _ _

theorem renderings_append (past more : History κ φ σ) :
    renderings (past ++ more) = past.renderings ++ more.renderings :=
  List.filterMap_append

@[simp] theorem renderings_singleton (turn : Turn κ φ σ) :
    renderings [turn] = turn.rendering?.toList := by
  rw [renderings, List.filterMap_cons]
  cases turn.rendering? <;> rfl

theorem length_passes (past : History κ φ σ) : past.passes.length = past.keys.length := by
  induction past with
  | nil => rfl
  | cons turn rest ih =>
    have first : (Machine.enqueuedPasses turn.action turn.events).length =
        (Machine.enqueuedKey turn.action turn.events).length := by
      unfold Machine.enqueuedPasses Machine.enqueuedKey
      split <;> simp_all
    rw [passes, keys, List.flatMap_cons, List.flatMap_cons, List.length_append,
      List.length_append, first]
    exact congrArg _ ih

end History

namespace Machine

variable {κ φ σ : Type} {studio : Studio φ σ} {machine next : Machine κ φ σ}
  {action : Action κ} {actions : List (Action κ)} {events : List (Event κ)}
  {past : History κ φ σ} {factory : φ}

/-- Who renders a task has it in hand. -/
theorem has_of_rendering? {worker : Nat} {owner : Worker σ} {rendering : Rendering σ}
    {now : Moment} (here : machine.workers[worker]? = some owner)
    (busy : owner.rendering? now = some rendering) :
    machine.Has worker rendering.task := by
  refine ⟨owner, here, ?_⟩
  rw [Worker.tasks_of_rendering? busy]
  exact List.mem_cons_self

/-! ## The way of a task -/

/-- Where the jobs and the tasks made of them are. -/
structure Handed (past : History κ φ σ) (machine : Machine κ φ σ) : Prop where
  described : ∀ job ∈ machine.queue.pending, past.passes[job.number]? = some job.passes
  own : ∀ worker task, machine.Has worker task → past.passes[task.number]? = some task.passes
  few : ∀ (worker : Nat) owner, machine.workers[worker]? = some owner → owner.tasks.length ≤ 1
  numbers : machine.numbers ≤ (Event.startedJobs past.events : List Nat)
  placed : machine.queue.disposed = false → Placed past.resolved.length machine

theorem handed_start (factory : φ) : Handed [] (start factory : Machine κ φ σ) where
  described := by
    intro job member
    cases member
  own := by
    rintro worker task ⟨owner, here, -⟩
    cases here
  few := by
    intro worker owner here
    cases here
  numbers := Multiset.zero_le _
  placed := fun _ => placed_start factory

/-- The worker in use has nothing to do when the drain is free. -/
theorem Placed.idle {resolved : Nat} (placed : Placed resolved machine) (orderly : machine.Orderly)
    {drain worker : Nat} (free : machine.drains[drain]? = some .free)
    (inUse : machine.queue.worker = some worker) {owner : Worker σ}
    (here : machine.workers[worker]? = some owner) : owner.tasks = [] := by
  obtain ⟨-, drains, -⟩ := orderly.only free
  refine List.eq_nil_iff_forall_not_mem.mpr ?_
  intro task member
  have has : machine.Has worker task := ⟨owner, here, member⟩
  rcases placed.held worker task has with earlier | ⟨key, awaits⟩
  · exact absurd (placed.current worker task inUse has) (by omega)
  · rw [drains] at awaits
    cases List.mem_singleton.mp awaits

/-- No worker has more than one task. -/
theorem Handed.few_of_assign (handed : Handed past machine) (orderly : machine.Orderly)
    (live : machine.queue.disposed = false) {drain : Nat}
    (free : machine.drains[drain]? = some .free) {task : RenderTask}
    {inUse worker : Option Nat} {workers : List (Worker σ)}
    (assigned : assign task machine =
      ({ machine with queue := { machine.queue with worker := inUse }, workers }, worker))
    {other : Nat} {owner : Worker σ} (there : workers[other]? = some owner) :
    owner.tasks.length ≤ 1 := by
  rcases owner_of_assign assigned there with kept | ⟨-, used, before, here, rfl⟩ | ⟨-, -, rfl⟩
  · exact handed.few other owner kept
  · rcases before.tasks_send task with tasks | tasks
    · rw [tasks, (handed.placed live).idle orderly free used here]
      exact Nat.le_refl 1
    · rw [tasks]
      exact Nat.zero_le 1
  · exact Nat.le_refl 1

/-- A request that joins a job leaves its number and its passes alone. -/
theorem described_of_join {queue : Queue κ} {key : String} {callback : κ}
    (joined : machine.queue.join? key callback = some queue) {job : Job κ}
    (member : job ∈ queue.pending) : ∃ before ∈ machine.queue.pending,
      before.number = job.number ∧ before.passes = job.passes := by
  rcases Queue.join?_cases joined with ⟨flight, -, -, rfl⟩ | ⟨pending, joins, rfl⟩
  · exact ⟨job, member, rfl, rfl⟩
  · obtain ⟨front, found, back, waits, -, -, rfl⟩ := Queue.joinPending_eq_some joins
    rw [waits]
    rcases List.mem_append.mp member with before | member
    · exact ⟨job, List.mem_append_left _ before, rfl, rfl⟩
    · rcases List.mem_cons.mp member with rfl | after
      · exact ⟨found, by simp, rfl, rfl⟩
      · exact ⟨job, by simp [after], rfl, rfl⟩

theorem Handed.described_of_transition (handed : Handed past machine)
    (regular : Regular past machine) (steps : Transition studio machine action next events) :
    ∀ job ∈ next.queue.pending,
      (past.passes ++ enqueuedPasses action events)[job.number]? = some job.passes := by
  intro job member
  have known := fun job member =>
    History.getElem?_append (handed.described job member) (enqueuedPasses action events)
  cases steps with
  | joined _ _ _ joins =>
    obtain ⟨before, earlier, number, passes⟩ := described_of_join joins member
    rw [← number, ← passes]
    exact known before earlier
  | enqueued _ _ _ =>
    rcases List.mem_append.mp member with earlier | new
    · exact known job earlier
    · cases List.mem_singleton.mp new
      rw [regular.ordered.count, ← History.length_passes]
      exact List.getElem?_concat_length
  | jobTaken _ _ waits _ => exact known job (waits ▸ List.mem_cons_of_mem _ member)
  | resolved _ _ _ => exact known job (by simpa using member)
  | disposed live =>
    rw [Queue.dispose_of_live live] at member
    cases member
  | _ => exact known job member

theorem Handed.own_of_transition (handed : Handed past machine)
    (steps : Transition studio machine action next events) {worker : Nat} {task : RenderTask}
    (has : next.Has worker task) :
    (past.passes ++ enqueuedPasses action events)[task.number]? = some task.passes := by
  have moved := has_of_transition steps
  cases steps with
  | @jobTaken _ job _ _ _ _ _ _ waits assigned =>
    obtain ⟨owner, there, member⟩ := has
    rcases has_of_assign assigned there member with earlier | ⟨rfl, -⟩
    · exact History.getElem?_append (handed.own worker task earlier) _
    · exact History.getElem?_append (handed.described job (by simp [waits])) _
  | drainEnded _ _ => exact History.getElem?_append (handed.own worker task has) _
  | resolved _ ends _ | cutShort _ ends _ =>
    refine History.getElem?_append (handed.own worker task (moved ?_ has)) _
    cases ends <;> simp
  | _ => exact History.getElem?_append (handed.own worker task (moved (by simp) has)) _

theorem Handed.few_of_transition (handed : Handed past machine) (orderly : machine.Orderly)
    (steps : Transition studio machine action next events) :
    ∀ (worker : Nat) owner, next.workers[worker]? = some owner → owner.tasks.length ≤ 1 := by
  have changed : ∀ {worker : Nat} {owner after : Worker σ},
      machine.workers[worker]? = some owner → after.tasks.length ≤ owner.tasks.length →
      ∀ (other : Nat) found, (machine.workers.set worker after)[other]? = some found →
        found.tasks.length ≤ 1 := by
    intro worker owner after here fewer other found there
    rcases getElem?_set_cases there with before | ⟨rfl, rfl⟩
    · exact handed.few other found before
    · exact fewer.trans (handed.few worker owner here)
  cases steps with
  | jobTaken free live _ assigned =>
    exact fun other owner there => handed.few_of_assign orderly live free assigned there
  | takenUp here takes =>
    refine changed here ?_
    rw [(Worker.tasks_takeUp takes).2, List.length_append]
    exact Nat.le_add_left _ _
  | rendered here renders =>
    obtain ⟨rendering, busy, -, rfl⟩ := Worker.render_cases renders
    refine changed here ?_
    rw [Worker.tasks_of_rendering? busy]
    exact Nat.le_add_right _ _
  | lost here => exact changed here (Nat.zero_le _)
  | _ => exact handed.few

theorem Handed.transition (handed : Handed past machine) (regular : Regular past machine)
    (steps : Transition studio machine action next events) :
    Handed (past ++ [⟨machine, action, events⟩]) next := by
  refine ⟨?_, ?_, handed.few_of_transition regular.orderly steps, ?_, ?_⟩
  · rw [History.passes_append, History.passes_singleton]
    exact handed.described_of_transition regular steps
  · rw [History.passes_append, History.passes_singleton]
    exact fun worker task => handed.own_of_transition steps
  · rw [History.events_append, History.events_singleton, Event.startedJobs_append,
      ← Multiset.coe_add]
    refine (numbers_of_transition steps).trans ?_
    gcongr
    exact handed.numbers
  · intro live
    rw [History.resolved_append, History.resolved_singleton, List.length_append]
    refine Placed.transition (handed.placed ?_) regular (regular.nodup_of_le handed.numbers)
      steps live
    rw [disposed_of_transition steps, Bool.or_eq_false_iff] at live
    exact live.1

/-! ## The way of a reply -/

/-- What is known of the replies, and of the jobs that were resolved with them. -/
structure Replied (studio : Studio φ σ) (past : History κ φ σ) (machine : Machine κ φ σ) :
    Prop where
  replies : (past.renderings.map (·.reply studio)).Sublist machine.posted
  others : ∀ reply ∈ machine.posted,
    (∃ rendering ∈ past.renderings, rendering.reply studio = reply) ∨
      reply.outcome = none ∧ .takenUp reply.number .refused ∈ past.events
  rendered : ∀ rendering ∈ past.renderings,
    past.passes[rendering.task.number]? = some rendering.task.passes
  finished : ∀ number outcome, (number, .finished outcome) ∈ past.resolved →
    ⟨number, outcome⟩ ∈ machine.posted
  unreachable : ∀ number, (number, .unreachable) ∈ past.resolved → number ∉ machine.numbers

theorem replied_start (studio : Studio φ σ) (factory : φ) :
    Replied studio [] (start factory : Machine κ φ σ) where
  replies := List.Sublist.refl []
  others := by
    intro reply member
    cases member
  rendered := by
    intro rendering member
    cases member
  finished := by
    intro number outcome member
    cases member
  unreachable := by
    intro number member
    cases member

/-- What a step posts: the reply of a rendering, or the word that there is no context. -/
theorem posted_of_transition (steps : Transition studio machine action next events) :
    ∃ more, next.posted = machine.posted ++ more ∧
      ((Turn.rendering? ⟨machine, action, events⟩).toList.map (·.reply studio)).Sublist more ∧
      ∀ reply ∈ more, (∃ rendering, Turn.rendering? ⟨machine, action, events⟩ = some rendering ∧
          rendering.reply studio = reply) ∨
        reply.outcome = none ∧ .takenUp reply.number .refused ∈ events := by
  have silent : ∀ {turn : Turn κ φ σ}, turn.rendering? = none →
      machine.posted = machine.posted ++ [] ∧
        (turn.rendering?.toList.map (·.reply studio)).Sublist [] ∧ ∀ reply ∈ ([] : List Posted),
          (∃ rendering, turn.rendering? = some rendering ∧ rendering.reply studio = reply) ∨
            reply.outcome = none ∧ .takenUp reply.number .refused ∈ turn.events := by
    intro turn nothing
    rw [nothing]
    exact ⟨(List.append_nil _).symm, List.Sublist.refl _, by simp⟩
  cases steps with
  | rendered here renders =>
    obtain ⟨rendering, busy, rfl, rfl⟩ := Worker.render_cases renders
    refine ⟨[rendering.reply studio], rfl, ?_, ?_⟩
    · rw [Turn.rendering?_of_render here, busy]
      exact List.Sublist.refl _
    · intro reply member
      refine .inl ⟨rendering, ?_, (List.mem_singleton.mp member).symm⟩
      rw [Turn.rendering?_of_render here, busy]
  | @takenUp _ _ _ _ task how _ _ =>
    simp only
    by_cases refused : how = .refused
    · subst refused
      rw [if_pos rfl]
      refine ⟨[⟨task.number, none⟩], rfl, List.nil_sublist _, ?_⟩
      intro reply member
      cases List.mem_singleton.mp member
      exact .inr ⟨rfl, List.mem_singleton.mpr rfl⟩
    · rw [if_neg refused]
      exact ⟨[], silent rfl⟩
  | resolved _ ends _ | cutShort _ ends _ =>
    refine ⟨[], silent ?_⟩
    cases ends <;> rfl
  | _ => exact ⟨[], silent rfl⟩

theorem Replied.finished_of_transition (replied : Replied studio past machine)
    (steps : Transition studio machine action next events) {number : Nat} {outcome : Outcome}
    (member : (number, .finished outcome) ∈ past.resolved ++ Event.resolvedJobs events) :
    ⟨number, outcome⟩ ∈ next.posted := by
  obtain ⟨more, posted, -⟩ := posted_of_transition steps
  rw [posted]
  refine List.mem_append_left _ ?_
  rcases List.mem_append.mp member with earlier | here
  · exact replied.finished number outcome earlier
  · obtain ⟨_, _, _, -, ends, -, -⟩ := ends_of_resolved steps here
    cases ends with
    | finish found => exact mem_posted_of_reply? found

/-- A job that its worker cannot render any more is in nobody's hands. -/
theorem Handed.not_mem_numbers (handed : Handed past machine) (regular : Regular past machine)
    (live : machine.queue.disposed = false) {drain number : Nat} {key : String}
    {worker : Option Nat} (here : machine.drains[drain]? = some (.awaiting number key worker))
    (silent : machine.reply? number = none) (gone : machine.isUnreachable worker = true) :
    number ∉ machine.numbers := by
  rw [mem_numbers]
  rintro (⟨other, task, has, rfl⟩ | ⟨reply, posted, rfl⟩)
  · rcases (handed.placed live).held other task has with earlier | ⟨_, awaits⟩
    · exact absurd (regular.number_of_awaiting live here).1 (by omega)
    · obtain ⟨-, drains, -⟩ := regular.orderly.only here
      rw [drains] at awaits
      cases List.mem_singleton.mp awaits
      obtain ⟨owner, there, member⟩ := has
      simp only [isUnreachable, there, Option.map_some, Option.getD_some] at gone
      rw [Worker.tasks_of_isGone gone] at member
      cases member
  · have missing := List.find?_eq_none.mp (Option.map_eq_none_iff.mp silent) reply posted
    exact absurd (beq_self_eq_true reply.number) missing

theorem Replied.unreachable_of_transition (replied : Replied studio past machine)
    (handed : Handed past machine) (regular : Regular past machine)
    (steps : Transition studio machine action next events) {number : Nat}
    (member : (number, .unreachable) ∈ past.resolved ++ Event.resolvedJobs events) :
    number ∉ next.numbers := by
  rcases List.mem_append.mp member with earlier | here
  · intro inUse
    rcases Multiset.mem_add.mp (Multiset.mem_of_le (numbers_of_transition steps) inUse) with
      before | started
    · exact replied.unreachable number earlier before
    · -- The number could only come back with a job that is started again.
      have order := (regular.transition steps).ordered.tells.startedJobs
      have distinct : (Event.startedJobs past.events ++ Event.startedJobs events).Nodup := by
        rw [History.events_append, History.events_singleton, Event.startedJobs_append] at order
        rw [order]
        exact List.nodup_range
      refine (List.nodup_append.mp distinct).2.2 number ?_ number started rfl
      have inside := List.mem_map_of_mem (f := Prod.fst) earlier
      rw [regular.ordered.numbers, List.mem_range] at inside
      rw [regular.ordered.tells.startedJobs, List.mem_range]
      have := regular.ordered.bounds
      omega
  · obtain ⟨_, _, _, there, ends, live, rfl⟩ := ends_of_resolved steps here
    cases ends with
    | abandon silent gone => exact handed.not_mem_numbers regular live there silent gone

theorem Replied.transition (replied : Replied studio past machine) (handed : Handed past machine)
    (regular : Regular past machine) (steps : Transition studio machine action next events) :
    Replied studio (past ++ [⟨machine, action, events⟩]) next := by
  obtain ⟨more, posted, sublist, origin⟩ := posted_of_transition steps
  have resolved : History.resolved (past ++ [⟨machine, action, events⟩]) =
      past.resolved ++ Event.resolvedJobs events := by
    rw [History.resolved_append, History.resolved_singleton]
  constructor
  · rw [History.renderings_append, History.renderings_singleton, List.map_append, posted]
    exact replied.replies.append sublist
  · rw [posted, History.renderings_append, History.renderings_singleton, History.events_append,
      History.events_singleton]
    intro reply member
    rcases List.mem_append.mp member with earlier | new
    · rcases replied.others reply earlier with ⟨rendering, known, same⟩ | ⟨nothing, refused⟩
      · exact .inl ⟨rendering, List.mem_append_left _ known, same⟩
      · exact .inr ⟨nothing, List.mem_append_left _ refused⟩
    · rcases origin reply new with ⟨rendering, known, same⟩ | ⟨nothing, refused⟩
      · exact .inl ⟨rendering, List.mem_append_right _ (Option.mem_toList.mpr known), same⟩
      · exact .inr ⟨nothing, List.mem_append_right _ refused⟩
  · rw [History.renderings_append, History.renderings_singleton, History.passes_append]
    intro rendering member
    rcases List.mem_append.mp member with earlier | new
    · exact History.getElem?_append (replied.rendered rendering earlier) _
    · obtain ⟨worker, owner, here, busy⟩ := Turn.owner_of_rendering? (Option.mem_toList.mp new)
      exact History.getElem?_append (handed.own worker _ (has_of_rendering? here busy)) _
  · rw [resolved]
    exact fun number outcome => replied.finished_of_transition steps
  · rw [resolved]
    exact fun number => replied.unreachable_of_transition handed regular steps

/-! ## What is known of every run -/

/-- All that is known of the tasks and the replies. -/
structure Traced (studio : Studio φ σ) (past : History κ φ σ) (machine : Machine κ φ σ) :
    Prop where
  regular : Regular past machine
  handed : Handed past machine
  replied : Replied studio past machine

theorem Traced.transition (traced : Traced studio past machine)
    (steps : Transition studio machine action next events) :
    Traced studio (past ++ [⟨machine, action, events⟩]) next where
  regular := traced.regular.transition steps
  handed := traced.handed.transition traced.regular steps
  replied := traced.replied.transition traced.handed traced.regular steps

/-- What holds of an unused machine, and stays true from step to step, holds of the history of
    every run. In each step it is known where the tasks and the replies are. -/
theorem traced_induction (holds : History κ φ σ → Machine κ φ σ → Prop)
    (initially : holds [] (start factory))
    (keeps : ∀ {past : History κ φ σ} {machine next : Machine κ φ σ} {action : Action κ}
      {events : List (Event κ)}, Traced studio past machine → holds past machine →
      Transition studio machine action next events →
      holds (past ++ [⟨machine, action, events⟩]) next)
    (runs : run studio actions (start factory) = some (machine, events)) :
    holds (history studio actions (start factory)) machine := by
  have known := history_induction
    (fun past machine => Traced studio past machine ∧ holds past machine)
    ⟨⟨regular_start factory, handed_start factory, replied_start studio factory⟩, initially⟩
    (fun _ known steps => ⟨known.1.transition steps, keeps known.1 known.2 steps⟩) runs
  exact known.2

theorem traced_history (runs : run studio actions (start factory) = some (machine, events)) :
    Traced studio (history studio actions (start factory)) machine :=
  traced_induction (Traced studio)
    ⟨regular_start factory, handed_start factory, replied_start studio factory⟩
    (fun traced _ => traced.transition) runs

section Traced

variable (traced : Traced studio past machine)

include traced

theorem Traced.distinct : machine.numbers.Nodup :=
  traced.regular.nodup_of_le traced.handed.numbers

/-- No job is rendered twice. -/
theorem Traced.nodup_renderings : (past.renderings.map (·.task.number)).Nodup := by
  have posted : (machine.posted.map (·.number)).Nodup :=
    Multiset.coe_nodup.mp (Multiset.nodup_add.mp traced.distinct).2.1
  have sublist := (traced.replied.replies.map (·.number)).nodup posted
  rwa [List.map_map] at sublist

/-- A job that reached no worker was not rendered. -/
theorem Traced.not_unreachable {rendering : Rendering σ} (member : rendering ∈ past.renderings) :
    (rendering.task.number, .unreachable) ∉ past.resolved := by
  intro resolved
  refine traced.replied.unreachable _ resolved (mem_numbers.mpr (.inr ?_))
  exact ⟨_, traced.replied.replies.subset (List.mem_map_of_mem member), rfl⟩

end Traced

end Machine

/-! ## A studio for examples -/

/-- A picture of one dot. -/
def dotFrame : Frame :=
  ⟨1, 1, #[255, 0, 0, 255]⟩

/-- The thumbnail that shows it. -/
def dot : Thumbnail :=
  "data:image/png;base64,/wAA/w=="

/-- A studio in which every shader that compiles draws a dot. -/
def drawing (config : ThumbnailConfig) : Studio Unit Unit where
  context := {
    reset := fun _ => (.returned (), ())
    compile := fun _ _ _ => (.returned (.accepted ""), ())
    renderFrame := fun _ _ => (.returned (.ok ()), ())
    capture := fun _ => (.returned (.ok dotFrame), ()) }
  codec := .plain
  build := fun _ => (.returned (.ok ()), ())
  config

/-- The passes of a shader that compiles. -/
def plain : List PassSource :=
  [⟨.image, "void mainImage(out vec4 c, vec2 p) { }"⟩]

/-- A reading of the clock. -/
def noon : Moment :=
  ⟨2024, 0, 1, 43200, 0⟩

example : Rendering.outcome (drawing .standard) ⟨⟨0, plain⟩, (), noon⟩ = some dot := by
  decide +kernel

end Multipass
