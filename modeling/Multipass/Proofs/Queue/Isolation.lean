import Multipass.Proofs.Queue.Contexts

/-!
# Workers that were given up

A job that times out leaves its worker behind. Whatever that worker still does with its task,
nobody notices: the machine goes on just as if the worker had stayed with its task for good.
-/

namespace Multipass

/-- The steps in which a worker ends the work on its task. -/
def Action.ends {κ : Type} (given : Nat → Bool) : Action κ → Bool
  | render worker _ | lose worker => given worker
  | _ => false

namespace Machine

variable {κ φ σ : Type} {studio : Studio φ σ} {machine calm next : Machine κ φ σ}
  {action : Action κ} {before after : List (Action κ)} {events later : List (Event κ)}
  {past : History κ φ σ} {factory : φ} {given : Nat → Bool}

/-! ## A machine with other workers -/

/-- The same machine with other workers and other replies. -/
def behind (machine : Machine κ φ σ) (workers : List (Worker σ)) (posted : List Posted) :
    Machine κ φ σ :=
  { machine with workers, posted }

section Behind

variable (workers : List (Worker σ)) (posted : List Posted)

/-- What a step comes to with other workers and replies. -/
def Outlook.behind (outlook : Outlook κ φ σ) : Outlook κ φ σ :=
  (outlook.1.behind workers posted, outlook.2)

theorem request_behind (key : String) (passes : List PassSource) (callback : κ)
    (machine : Machine κ φ σ) :
    request studio key passes callback (machine.behind workers posted) =
      (request studio key passes callback machine).behind workers posted := by
  unfold request behind
  simp only
  cases machine.queue.request studio.config.coalesceDuplicates key passes callback with
  | mk queue admission => cases admission <;> rfl

theorem startDrain_behind (machine : Machine κ φ σ) :
    (machine.behind workers posted).startDrain =
      machine.startDrain.map (Outlook.behind workers posted) := by
  unfold startDrain behind
  cases machine.arriving <;> rfl

theorem answerHit_behind (hit : Nat) (machine : Machine κ φ σ) :
    (machine.behind workers posted).answerHit hit =
      (machine.answerHit hit).map (Outlook.behind workers posted) := by
  unfold answerHit behind
  simp only
  cases machine.hits[hit]? <;> rfl

theorem endRound_behind (drain number : Nat) (key : String) (ending : Ending)
    (machine : Machine κ φ σ) :
    endRound drain number key ending (machine.behind workers posted) =
      (endRound drain number key ending machine).behind workers posted := by
  unfold endRound behind
  simp only
  cases machine.queue.resolve key ending with
  | mk queue told => cases told <;> rfl

@[simp] theorem drains_behind (machine : Machine κ φ σ) :
    (machine.behind workers posted).drains = machine.drains := rfl

theorem callBack_behind (drain : Nat) (returned : Foreign Unit) (machine : Machine κ φ σ) :
    (machine.behind workers posted).callBack drain returned =
      (machine.callBack drain returned).map (Outlook.behind workers posted) := by
  unfold callBack
  rw [drains_behind]
  cases machine.drains[drain]? with
  | none => rfl
  | some activity =>
    cases activity with
    | delivering outcome callback rest => cases returned <;> rfl
    | _ => rfl

theorem timeOut_behind (drain : Nat) (machine : Machine κ φ σ) :
    timeOut studio drain (machine.behind workers posted) =
      (timeOut studio drain machine).map (Outlook.behind workers posted) := by
  unfold timeOut
  rw [drains_behind]
  cases machine.drains[drain]? with
  | none => rfl
  | some activity =>
    cases activity with
    | awaiting number key worker =>
      simp only [endRound_behind]
      split <;> rfl
    | _ => rfl

theorem finish_behind {drain : Nat} {machine : Machine κ φ σ}
    (same : ∀ number key worker, machine.drains[drain]? = some (.awaiting number key worker) →
      (machine.behind workers posted).reply? number = machine.reply? number) :
    (machine.behind workers posted).finish drain =
      (machine.finish drain).map (Outlook.behind workers posted) := by
  unfold finish
  rw [drains_behind]
  cases here : machine.drains[drain]? with
  | none => rfl
  | some activity =>
    cases activity with
    | awaiting number key worker =>
      simp only [endRound_behind, same number key worker here]
      cases machine.reply? number <;> rfl
    | _ => rfl

theorem abandon_behind {drain : Nat} {machine : Machine κ φ σ}
    (same : ∀ number key worker, machine.drains[drain]? = some (.awaiting number key worker) →
      (machine.behind workers posted).reply? number = machine.reply? number ∧
      (machine.behind workers posted).isUnreachable worker = machine.isUnreachable worker) :
    (machine.behind workers posted).abandon drain =
      (machine.abandon drain).map (Outlook.behind workers posted) := by
  unfold abandon
  rw [drains_behind]
  cases here : machine.drains[drain]? with
  | none => rfl
  | some activity =>
    cases activity with
    | awaiting number key worker =>
      obtain ⟨replies, reachable⟩ := same number key worker here
      simp only [endRound_behind, replies, reachable]
      split <;> rfl
    | _ => rfl

end Behind

/-! ## Machines that differ in workers that were given up -/

/-- The workers of the calm machine that are not given do what the others do. Those that are
    given have at most their task in hand for longer, and their replies, which are to jobs
    that were resolved before, can be missing. -/
structure Shadows (given : Nat → Bool) (resolved : Nat) (machine : Machine κ φ σ)
    (workers : List (Worker σ)) (posted : List Posted) : Prop where
  length : workers.length = machine.workers.length
  others : ∀ worker, given worker = false → workers[worker]? = machine.workers[worker]?
  working : ∀ (worker : Nat) owner, machine.workers[worker]? = some owner →
    owner.tasks ≠ [] → workers[worker]? = some owner
  replies : ∀ number, resolved ≤ number →
    posted.find? (·.number == number) = machine.posted.find? (·.number == number)

/-- The worker in use is none of those that were given up. -/
theorem not_given_of_inUse (abandoned : ∀ worker, given worker = true → machine.IsAbandoned worker)
    {worker : Nat} (inUse : machine.queue.worker = some worker) : given worker = false := by
  by_contra hidden
  exact (abandoned worker (Bool.not_eq_false _ ▸ hidden)).2 inUse

theorem Shadows.refl (given : Nat → Bool) (resolved : Nat) (machine : Machine κ φ σ) :
    Shadows given resolved machine machine.workers machine.posted where
  length := rfl
  others _ _ := rfl
  working _ _ here _ := here
  replies _ _ := rfl

/-- A step that touches neither workers nor replies. -/
theorem Shadows.quiet {resolved more : Nat} {workers : List (Worker σ)} {posted : List Posted}
    (shadows : Shadows given resolved machine workers posted)
    (same : next.workers = machine.workers) (told : next.posted = machine.posted) :
    Shadows given (resolved + more) next workers posted where
  length := same ▸ shadows.length
  others := same ▸ shadows.others
  working := same ▸ shadows.working
  replies number later := told ▸ shadows.replies number (by omega)

section Shadows

variable {resolved : Nat} {workers : List (Worker σ)} {posted : List Posted}
  {worker : Nat} {owner changed : Worker σ}

/-- A worker that is the same in both machines does the same in both. -/
theorem Shadows.set (shadows : Shadows given resolved machine workers posted)
    (more : List Posted) (here : machine.workers[worker]? = some owner)
    (there : workers[worker]? = some owner)
    (same : next.workers = machine.workers.set worker changed)
    (told : next.posted = machine.posted ++ more) :
    Shadows given resolved next (workers.set worker changed) (posted ++ more) := by
  have inside := (List.getElem?_eq_some_iff.mp here).1
  have inside' := (List.getElem?_eq_some_iff.mp there).1
  refine ⟨by simp [same, shadows.length], ?_, ?_, ?_⟩
  · intro other kept
    rw [same]
    by_cases equal : worker = other
    · subst equal
      rw [List.getElem?_set_self inside, List.getElem?_set_self inside']
    · rw [List.getElem?_set_ne equal, List.getElem?_set_ne equal, shadows.others other kept]
  · intro other found there busy
    rw [same] at there
    by_cases equal : worker = other
    · subst equal
      rw [List.getElem?_set_self inside] at there
      rwa [List.getElem?_set_self inside']
    · rw [List.getElem?_set_ne equal] at there ⊢
      exact shadows.working other found there busy
  · intro number later
    rw [told, List.find?_append, List.find?_append, shadows.replies number later]

/-- What a given worker does, while it stays with its task in the other machine. -/
theorem Shadows.hide (shadows : Shadows given resolved machine workers posted)
    (more : List Posted) (hidden : given worker = true)
    (same : next.workers = machine.workers.set worker changed) (done : changed.tasks = [])
    (told : next.posted = machine.posted ++ more) (late : ∀ reply ∈ more, reply.number < resolved) :
    Shadows given resolved next workers posted := by
  refine ⟨by simp [same, shadows.length], ?_, ?_, ?_⟩
  · intro other kept
    have apart : worker ≠ other := by
      rintro rfl
      rw [hidden] at kept
      cases kept
    rw [same, List.getElem?_set_ne apart, shadows.others other kept]
  · intro other found there busy
    rw [same] at there
    rcases getElem?_set_cases there with before | ⟨-, rfl⟩
    · exact shadows.working other found before busy
    · exact absurd done busy
  · intro number later
    have silent : more.find? (·.number == number) = none := by
      refine List.find?_eq_none.mpr ?_
      intro reply member
      have := late reply member
      simp only [beq_iff_eq]
      omega
    rw [told, List.find?_append, silent, Option.or_none, shadows.replies number later]

/-- What becomes of the workers when a task is handed over. -/
def handOver (queue : Queue κ) (task : RenderTask) (workers : List (Worker σ)) :
    List (Worker σ) :=
  match queue.worker with
  | some worker => workers.modify worker (·.send task)
  | none => if queue.hasFactory then workers ++ [.start task] else workers

theorem assign_behind (task : RenderTask) (length : workers.length = machine.workers.length) :
    assign task (machine.behind workers posted) =
      ((assign task machine).1.behind (handOver machine.queue task workers) posted,
        (assign task machine).2) := by
  unfold assign handOver behind
  simp only
  cases machine.queue.worker with
  | some worker => rfl
  | none =>
    simp only [length]
    split <;> rfl

theorem workers_assign (task : RenderTask) (machine : Machine κ φ σ) :
    (assign task machine).1.workers = handOver machine.queue task machine.workers ∧
      (assign task machine).1.posted = machine.posted := by
  unfold assign handOver
  cases machine.queue.worker with
  | some worker => exact ⟨rfl, rfl⟩
  | none =>
    simp only
    split <;> exact ⟨rfl, rfl⟩

theorem Shadows.handOver (shadows : Shadows given resolved machine workers posted)
    {queue : Queue κ} (task : RenderTask)
    (kept : ∀ worker, queue.worker = some worker → given worker = false)
    (same : next.workers = Machine.handOver queue task machine.workers)
    (told : next.posted = machine.posted) :
    Shadows given resolved next (Machine.handOver queue task workers) posted := by
  unfold Machine.handOver at *
  cases inUse : queue.worker with
  | some used =>
    simp only [inUse] at same ⊢
    refine ⟨by simp [same, shadows.length], ?_, ?_, told ▸ shadows.replies⟩
    · intro other unhidden
      rw [same, List.getElem?_modify, List.getElem?_modify, shadows.others other unhidden]
    · intro other found there busy
      rw [same, List.getElem?_modify] at there
      obtain ⟨before, here, rfl⟩ := Option.map_eq_some_iff.mp there
      rw [List.getElem?_modify]
      by_cases equal : used = other
      · subst equal
        rw [shadows.others used (kept used inUse), here]
        rfl
      · simp only [if_neg equal] at busy ⊢
        rw [shadows.working other before here busy]
        rfl
  | none =>
    simp only [inUse] at same ⊢
    by_cases builds : queue.hasFactory = true
    · rw [if_pos builds] at same ⊢
      refine ⟨by simp [same, shadows.length], ?_, ?_, told ▸ shadows.replies⟩
      · intro other unhidden
        rw [same, List.getElem?_append, List.getElem?_append, shadows.length,
          shadows.others other unhidden]
      · intro other found there busy
        rw [same, List.getElem?_append] at there
        rw [List.getElem?_append, shadows.length]
        by_cases inside : other < machine.workers.length
        · rw [if_pos inside] at there ⊢
          exact shadows.working other found there busy
        · rwa [if_neg inside] at there ⊢
    · rw [if_neg builds] at same ⊢
      exact ⟨same ▸ shadows.length, same ▸ shadows.others, same ▸ shadows.working,
        told ▸ shadows.replies⟩

end Shadows

/-! ## The calm run -/

section Step

variable {workers : List (Worker σ)} {posted : List Posted}

/-- The calm machine can take the same step, and tells the same of it. -/
def Follows (studio : Studio φ σ) (given : Nat → Bool) (past : History κ φ σ)
    (workers : List (Worker σ)) (posted : List Posted) (machine : Machine κ φ σ)
    (action : Action κ) (next : Machine κ φ σ) (events : List (Event κ)) : Prop :=
  ∃ others replies, (machine.behind workers posted).step studio action =
      some (next.behind others replies, events) ∧
    Shadows given (past.resolved.length + (Event.resolvedJobs events).length) next others replies

variable (shadows : Shadows given past.resolved.length machine workers posted)

include shadows

/-- What a drain looks at is the same in the calm machine. -/
theorem Shadows.observed (traced : Traced studio past machine)
    (abandoned : ∀ worker, given worker = true → machine.IsAbandoned worker)
    (live : machine.queue.disposed = false) {drain number : Nat} {key : String}
    {worker : Option Nat} (here : machine.drains[drain]? = some (.awaiting number key worker)) :
    (machine.behind workers posted).reply? number = machine.reply? number ∧
      (machine.behind workers posted).isUnreachable worker = machine.isUnreachable worker := by
  have turn := (traced.regular.number_of_awaiting live here).1
  refine ⟨congrArg _ (shadows.replies number (Nat.le_of_eq turn.symm)), ?_⟩
  obtain ⟨used, rfl, inUse, -⟩ := (traced.handed.placed live).exists_worker here
  have kept := not_given_of_inUse abandoned inUse
  show ((workers[used]?.map (·.isGone)).getD true) = _
  rw [shadows.others used kept]
  rfl

theorem Shadows.follows_beginRound {drain : Nat}
    (kept : ∀ worker, machine.queue.worker = some worker → given worker = false)
    (begun : machine.beginRound drain = some (next, events)) :
    Follows studio given past workers posted machine (.beginRound drain) next events := by
  unfold Follows
  simp only [step]
  unfold beginRound at begun ⊢
  rw [drains_behind]
  cases here : machine.drains[drain]? with
  | none =>
    rw [here] at begun
    cases begun
  | some activity =>
    rw [here] at begun
    cases activity with
    | free =>
      simp only at begun ⊢
      cases takes : machine.queue.takeJob with
      | mk queue taken =>
      rw [show (machine.behind workers posted).queue.takeJob = machine.queue.takeJob from rfl,
        takes]
      rw [takes] at begun
      cases taken with
      | none =>
        cases begun
        exact ⟨workers, posted, rfl, shadows.quiet rfl rfl⟩
      | some job =>
        have unchanged : queue.worker = machine.queue.worker := by
          rcases Queue.takeJob_cases takes with ⟨nothing, -⟩ | ⟨_, _, -, -, -, rfl⟩
          · cases nothing
          · rfl
        obtain ⟨owners, silent⟩ :=
          workers_assign ⟨job.number, job.passes⟩ { machine with queue }
        have assigned := @assign_behind _ _ _ { machine with queue } _ posted
          ⟨job.number, job.passes⟩ shadows.length
        cases assigns : assign ⟨job.number, job.passes⟩ { machine with queue } with
        | mk after worker =>
        rw [assigns] at assigned owners silent
        simp only [assigns] at begun
        cases begun
        refine ⟨_, posted, ?_, shadows.handOver ⟨job.number, job.passes⟩
          (fun used inUse => kept used (unchanged ▸ inUse)) owners silent⟩
        unfold behind at assigned ⊢
        simp only [assigned]
    | awaiting _ _ _ => cases begun
    | delivering _ _ _ => cases begun

theorem Shadows.follows_takeUp {worker : Nat}
    (taken : machine.takeUp studio worker = some (next, events)) :
    Follows studio given past workers posted machine (.takeUp worker) next events := by
  obtain ⟨owner, here, taken⟩ := Option.bind_eq_some_iff.mp taken
  obtain ⟨⟨after, factory, task, how⟩, takes, taken⟩ := Option.bind_eq_some_iff.mp taken
  cases taken
  have busy : owner.tasks ≠ [] := List.ne_nil_of_mem (Worker.tasks_takeUp takes).1
  have there := shadows.working worker owner here busy
  by_cases refused : how = .refused
  · refine ⟨_, _, ?_, shadows.set [⟨task.number, none⟩] here there rfl (if_pos refused)⟩
    simp [step, Machine.takeUp, behind, there, takes, refused]
  · refine ⟨_, _, ?_, shadows.set [] here there rfl ?_⟩
    · simp [step, Machine.takeUp, behind, there, takes, refused]
    · simp [refused]

theorem Shadows.follows_render {worker : Nat} {now : Moment} (kept : given worker = false)
    (renders : machine.render studio worker now = some (next, events)) :
    Follows studio given past workers posted machine (.render worker now) next events := by
  obtain ⟨owner, here, renders⟩ := Option.bind_eq_some_iff.mp renders
  obtain ⟨⟨after, reply⟩, replies, renders⟩ := Option.bind_eq_some_iff.mp renders
  cases renders
  have there := (shadows.others worker kept).trans here
  refine ⟨_, _, ?_, shadows.set _ here there rfl rfl⟩
  simp [step, Machine.render, behind, there, replies]

theorem Shadows.follows_lose {worker : Nat} (kept : given worker = false)
    (loses : machine.lose worker = some (next, events)) :
    Follows studio given past workers posted machine (.lose worker) next events := by
  obtain ⟨owner, here, rfl, rfl⟩ := lose_cases loses
  have there := (shadows.others worker kept).trans here
  refine ⟨_, _, ?_, shadows.set [] here there rfl (List.append_nil _).symm⟩
  simp [step, Machine.lose, behind, there]

variable (steps : machine.step studio action = some (next, events))

include steps

/-- A step that is the same with other workers and other replies. -/
theorem Shadows.follows_of_behind
    (same : (machine.behind workers posted).step studio action =
      (machine.step studio action).map (Outlook.behind workers posted))
    (itself : (machine.behind machine.workers machine.posted).step studio action =
      (machine.step studio action).map (Outlook.behind machine.workers machine.posted)) :
    Follows studio given past workers posted machine action next events := by
  rw [show machine.behind machine.workers machine.posted = machine from rfl, steps,
    Option.map_some, Option.some.injEq, Prod.mk.injEq] at itself
  have untouched : next.workers = machine.workers := (congrArg Machine.workers itself.1).trans rfl
  have silent : next.posted = machine.posted := (congrArg Machine.posted itself.1).trans rfl
  exact ⟨workers, posted, by rw [same, steps]; rfl, shadows.quiet untouched silent⟩

/-- A given worker ends the work on its task, and the calm machine does nothing. -/
theorem Shadows.skips (traced : Traced studio past machine)
    (abandoned : ∀ worker, given worker = true → machine.IsAbandoned worker)
    (live : machine.queue.disposed = false) (hidden : action.ends given = true) :
    events = [] ∧ Shadows given past.resolved.length next workers posted ∧
      next.behind workers posted = machine.behind workers posted := by
  cases action with
  | render worker now =>
    obtain ⟨owner, here, renders⟩ := Option.bind_eq_some_iff.mp steps
    obtain ⟨⟨after, reply⟩, replies, renders⟩ := Option.bind_eq_some_iff.mp renders
    cases renders
    obtain ⟨rendering, busy, rfl, rfl⟩ := Worker.render_cases replies
    -- The task is the only one that the worker has, and its job was resolved without a reply.
    have few := traced.handed.few worker owner here
    rw [Worker.tasks_of_rendering? busy, List.length_cons] at few
    have done : owner.inbox = [] :=
      List.length_eq_zero_iff.mp (Nat.le_zero.mp (Nat.le_of_succ_le_succ few))
    refine ⟨rfl, shadows.hide _ hidden rfl done rfl ?_, rfl⟩
    intro reply member
    cases List.mem_singleton.mp member
    refine ((traced.handed.placed live).held worker _
      (has_of_rendering? here busy)).resolve_right ?_
    rintro ⟨key, awaits⟩
    have used := ((traced.handed.placed live).awaited _ _ _ awaits).1
    exact (abandoned worker hidden).2 used.symm
  | lose worker =>
    obtain ⟨owner, -, rfl, rfl⟩ := lose_cases steps
    exact ⟨rfl, shadows.hide [] hidden rfl rfl (List.append_nil _).symm (by simp), rfl⟩
  | _ => cases hidden

/-- Any other step the calm machine takes as well. -/
theorem Shadows.follows (traced : Traced studio past machine)
    (abandoned : ∀ worker, given worker = true → machine.IsAbandoned worker)
    (live : machine.queue.disposed = false) (shown : action.ends given = false)
    (kept : action ≠ .dispose) :
    Follows studio given past workers posted machine action next events := by
  cases action with
  | request key passes callback =>
    exact shadows.follows_of_behind steps (congrArg some (request_behind _ _ key passes callback _))
      (congrArg some (request_behind _ _ key passes callback _))
  | startDrain =>
    exact shadows.follows_of_behind steps (startDrain_behind _ _ _) (startDrain_behind _ _ _)
  | answerHit hit =>
    exact shadows.follows_of_behind steps (answerHit_behind _ _ hit _) (answerHit_behind _ _ hit _)
  | beginRound drain =>
    exact shadows.follows_beginRound (fun worker => not_given_of_inUse abandoned) steps
  | takeUp worker => exact shadows.follows_takeUp steps
  | render worker now => exact shadows.follows_render shown steps
  | lose worker => exact shadows.follows_lose shown steps
  | finish drain =>
    refine shadows.follows_of_behind steps (finish_behind _ _ ?_) (finish_behind _ _ ?_)
    · exact fun number key worker here => (shadows.observed traced abandoned live here).1
    · exact fun _ _ _ _ => rfl
  | timeOut drain =>
    exact shadows.follows_of_behind steps (timeOut_behind _ _ drain _) (timeOut_behind _ _ drain _)
  | abandon drain =>
    refine shadows.follows_of_behind steps (abandon_behind _ _ ?_) (abandon_behind _ _ ?_)
    · exact fun number key worker here => shadows.observed traced abandoned live here
    · exact fun _ _ _ _ => ⟨rfl, rfl⟩
  | callBack drain returned =>
    exact shadows.follows_of_behind steps (callBack_behind _ _ drain returned _)
      (callBack_behind _ _ drain returned _)
  | dispose => exact absurd rfl kept

end Step

/-- The run without the steps in which the given workers end their work: it tells the same,
    and leads to the same machine but for the workers and the replies. -/
theorem Shadows.run {workers : List (Worker σ)} {posted : List Posted}
    (shadows : Shadows given past.resolved.length machine workers posted)
    (traced : Traced studio past machine)
    (abandoned : ∀ worker, given worker = true → machine.IsAbandoned worker)
    (live : machine.queue.disposed = false) (kept : .dispose ∉ after)
    (runs : Machine.run studio after machine = some (next, later)) :
    ∃ others replies, Machine.run studio (after.filter fun action => !action.ends given)
      (machine.behind workers posted) = some (next.behind others replies, later) := by
  -- Of the replies only those to unresolved jobs must agree, and with each job that is
  -- resolved this asks for less. That is why the history goes along with the run.
  induction after generalizing past machine workers posted later with
  | nil =>
    cases runs
    exact ⟨workers, posted, rfl⟩
  | cons action rest ih =>
    obtain ⟨between, told, more, steps, goesOn, rfl⟩ := run_cons_eq_some.mp runs
    obtain ⟨first, others⟩ := List.ne_and_not_mem_of_not_mem_cons kept
    have taken := transition_of_step steps
    have still := live_of_transition live (Ne.symm first) taken
    have ahead : ∀ {workers posted},
        Shadows given (past.resolved.length + (Event.resolvedJobs told).length) between workers
          posted →
        ∃ others replies, Machine.run studio (rest.filter fun action => !action.ends given)
          (between.behind workers posted) = some (next.behind others replies, more) := by
      intro workers posted shadows
      refine ih ?_ (traced.transition taken)
        (fun worker hidden => (abandoned worker hidden).transition taken) still others goesOn
      rwa [History.resolved_append, History.resolved_singleton, List.length_append]
    cases hidden : action.ends given with
    | true =>
      obtain ⟨rfl, next, same⟩ := shadows.skips steps traced abandoned live hidden
      rw [List.filter_cons_of_neg (by simp [hidden]), List.nil_append, ← same]
      exact ahead next
    | false =>
      obtain ⟨_, _, follows, next⟩ :=
        shadows.follows steps traced abandoned live hidden (Ne.symm first)
      obtain ⟨_, _, calm⟩ := ahead next
      rw [List.filter_cons_of_pos (by simp [hidden])]
      exact ⟨_, _, run_cons_eq_some.mpr ⟨_, _, _, follows, calm, rfl⟩⟩

/-! ## Threads that end -/

/-- The thread of the worker in use ends. -/
def CutsOff (turn : Turn κ φ σ) : Prop :=
  ∃ worker, turn.action = .lose worker ∧ turn.machine.queue.worker = some worker

/-- A worker in use that is gone, and one that a job did not reach, was cut off while it was in
    use. -/
structure Lost (past : History κ φ σ) (machine : Machine κ φ σ) : Prop where
  gone : ∀ (worker : Nat) owner, machine.queue.worker = some worker →
    machine.workers[worker]? = some owner → owner.isGone = true → ∃ turn ∈ past, CutsOff turn
  unreachable : ∀ number, (number, .unreachable) ∈ past.resolved → ∃ turn ∈ past, CutsOff turn

theorem lost_start (factory : φ) : Lost [] (start factory : Machine κ φ σ) where
  gone := by
    intro worker owner inUse
    cases inUse
  unreachable := by
    intro number member
    cases member

theorem Lost.gone_of_transition (lost : Lost past machine)
    (steps : Transition studio machine action next events) {worker : Nat} {owner : Worker σ}
    (inUse : next.queue.worker = some worker) (there : next.workers[worker]? = some owner)
    (gone : owner.isGone = true) :
    ∃ turn ∈ past ++ [⟨machine, action, events⟩], CutsOff turn := by
  have before : ∀ {before : Worker σ}, machine.workers[worker]? = some before →
      before.isGone = true → ∃ turn ∈ past ++ [⟨machine, action, events⟩], CutsOff turn := by
    intro before here gone
    have used := inUse_of_transition steps (List.getElem?_eq_some_iff.mp here).1 inUse
    obtain ⟨turn, member, cuts⟩ := lost.gone worker before used here gone
    exact ⟨turn, List.mem_append_left _ member, cuts⟩
  cases became_of_transition steps there with
  | kept here => exact before here gone
  | handed _ _ _ _ here same =>
    subst same
    exact before here gone
  | started _ _ _ _ same =>
    subst same
    cases gone
  | took _ takes _ =>
    obtain ⟨_, -, ⟨_, -, rfl, -⟩ | ⟨-, _, -, rfl, -⟩ | ⟨-, -, rfl, -⟩⟩ :=
      Worker.takeUp_cases takes
    all_goals cases gone
  | finished _ _ same _ =>
    subst same
    cases gone
  | lost here loses _ =>
    have used := inUse_of_transition steps (List.getElem?_eq_some_iff.mp here).1 inUse
    exact ⟨_, List.mem_append_right _ (List.mem_singleton.mpr rfl), worker, loses, used⟩

theorem Lost.transition (lost : Lost past machine) (traced : Traced studio past machine)
    (steps : Transition studio machine action next events) :
    Lost (past ++ [⟨machine, action, events⟩]) next := by
  refine ⟨fun worker owner => lost.gone_of_transition steps, ?_⟩
  intro number member
  have known : ∀ turn ∈ past, CutsOff turn →
      ∃ turn ∈ past ++ [⟨machine, action, events⟩], CutsOff turn :=
    fun turn member cuts => ⟨turn, List.mem_append_left _ member, cuts⟩
  rw [History.resolved_append, History.resolved_singleton] at member
  rcases List.mem_append.mp member with earlier | here
  · obtain ⟨turn, inside, cuts⟩ := lost.unreachable number earlier
    exact known turn inside cuts
  · obtain ⟨_, _, _, awaits, ends, live, -⟩ := ends_of_resolved steps here
    cases ends with
    | abandon _ gone =>
      obtain ⟨worker, rfl, inUse, inside⟩ := (traced.handed.placed live).exists_worker awaits
      have there := List.getElem?_eq_getElem inside
      simp only [isUnreachable, there, Option.map_some, Option.getD_some] at gone
      obtain ⟨turn, inside, cuts⟩ := lost.gone worker _ inUse there gone
      exact known turn inside cuts

theorem lost_history (runs : Machine.run studio before (start factory) = some (machine, events)) :
    Lost (history studio before (start factory)) machine :=
  traced_induction Lost (lost_start factory) (fun traced lost => lost.transition traced) runs

/-! ## Jobs that time out -/

section TimedOut

variable {number : Nat}

/-- The worker of a job that times out is given up. -/
theorem Traced.abandons (traced : Traced studio past machine)
    (steps : Transition studio machine action next events)
    (timedOut : .resolved number .timedOut ∈ events) :
    ∃ key worker, .awaiting number key (some worker) ∈ machine.drains ∧
      past.keys[number]? = some key ∧ next.IsAbandoned worker := by
  obtain ⟨_, key, _, here, -, live, rfl⟩ :=
    ends_of_resolved steps (Event.mem_resolvedJobs.mpr timedOut)
  obtain ⟨worker, rfl, -, inside⟩ := (traced.handed.placed live).exists_worker here
  refine ⟨key, worker, List.mem_of_getElem? here, (traced.regular.number_of_awaiting live here).2,
    inside, ?_⟩
  simp [Queue.record]

/-- What becomes of a job that timed out. Those who wait for it are told that it failed, and
    this is remembered until another job for the key is resolved. Its worker is given up,
    and the next job gets a new context. -/
structure TimedOut (studio : Studio φ σ) (past : History κ φ σ) (machine : Machine κ φ σ)
    (number : Nat) (key : String) : Prop where
  told : ∀ ticket ∈ past.tickets studio, ticket.due = .job number →
    ticket.answer? past.resolved = some (ticket.callback, none)
  cached : (∀ later ending, number < later → past.keys[later]? = some key →
      (later, ending) ∈ past.resolved → ending.remembered? = none) →
    machine.queue.cached? key = some none
  givenUp : ∃ turn ∈ past, ∃ worker, .resolved number .timedOut ∈ turn.events ∧
    .awaiting number key (some worker) ∈ turn.machine.drains ∧ machine.IsAbandoned worker
  built : ∀ how, .takenUp (number + 1) how ∈ past.events → how = .built
  new : ∀ rendering ∈ past.renderings, rendering.task.number = number + 1 →
    studio.IsNew rendering.context

theorem timedOut_of_run (builds : studio.AlwaysBuilds)
    (runs : Machine.run studio before (start factory) = some (machine, events))
    (live : machine.queue.disposed = false)
    (timedOut : (number, .timedOut) ∈ (history studio before (start factory)).resolved) :
    ∃ key, (history studio before (start factory)).keys[number]? = some key ∧
      TimedOut studio (history studio before (start factory)) machine number key := by
  have regular := regular_history runs
  have equipped := equipped_history builds runs
  have renews : History.Renews studio (history studio before (start factory)) (number + 1) :=
    .inr ⟨number, .timedOut, rfl, timedOut, .inl rfl⟩
  obtain ⟨turn, member, told⟩ := List.mem_flatMap.mp (Event.mem_resolvedJobs.mp timedOut)
  obtain ⟨front, back, _, between, rfl, begins, steps⟩ := exists_run_of_mem member
  obtain ⟨_, _, _, begins', goesOn, -⟩ := run_append_eq_some.mp runs
  rw [begins, Option.some.injEq, Prod.mk.injEq] at begins'
  obtain ⟨rfl, -⟩ := begins'
  obtain ⟨_, _, _, steps', goesOn, -⟩ := run_cons_eq_some.mp goesOn
  rw [steps, Option.some.injEq, Prod.mk.injEq] at steps'
  obtain ⟨rfl, -⟩ := steps'
  obtain ⟨key, worker, awaits, found, abandoned⟩ :=
    (traced_history begins).abandons (transition_of_step steps) told
  have known : (history studio (front ++ turn.action :: back) (start factory)).keys[number]? =
      some key := by
    rw [history_append begins, History.keys_append]
    exact History.getElem?_append found _
  refine ⟨key, known, ?_, ?_, ?_, ?_, ?_⟩
  · intro ticket _ due
    simp [Ticket.answer?, due, regular.lookup_resolved timedOut, Ending.outcome]
  · exact regular.cached?_of_last live timedOut known rfl
  · exact ⟨turn, member, worker, told, awaits, abandoned.run goesOn⟩
  · intro how taken
    obtain ⟨-, ⟨rfl, -⟩ | ⟨-, keeps⟩⟩ := equipped.taken _ how taken
    · rfl
    · exact absurd renews keeps
  · intro rendering rendered next
    rcases (equipped.rendered rendering rendered).2 with ⟨-, new, -⟩ | ⟨-, keeps⟩
    · exact new
    · exact absurd (next ▸ renews) keeps

end TimedOut

/-- When the factory always succeeds, a job that times out does no harm to others, however the
    threads take turns. Those who wait for it are told that it failed, and this is
    remembered. Its worker is never used again, and the next job gets a new context. Every
    job that finishes has the outcome of its own passes, a job reaches no worker only if the
    thread of a worker in use ended, and clients are told what is due to them. Whether
    workers that were given up render their tasks, or whether their threads end, nobody
    notices: without these steps everything else goes on in the same way. -/
theorem timed_out_jobs_are_isolated (builds : studio.AlwaysBuilds)
    (kept : .dispose ∉ before ++ after)
    (runs : Machine.run studio before (start factory) = some (machine, events))
    (goesOn : Machine.run studio after machine = some (next, later)) :
    (∀ number, (number, .timedOut) ∈ Event.resolvedJobs events →
        ∃ key, (history studio before (start factory)).keys[number]? = some key ∧
          TimedOut studio (history studio before (start factory)) machine number key) ∧
      (∀ number outcome, (number, .finished outcome) ∈ Event.resolvedJobs events →
        ∃ rendering ∈ (history studio before (start factory)).renderings,
          rendering.task.number = number ∧
          (history studio before (start factory)).passes[number]? = some rendering.task.passes ∧
          rendering.outcome studio = outcome) ∧
      (∀ number, (number, .unreachable) ∈ Event.resolvedJobs events →
        ∃ turn ∈ history studio before (start factory), CutsOff turn) ∧
      (Event.answers events : Multiset (κ × Outcome)) + machine.owed =
        Ticket.answers (Event.resolvedJobs events)
          ((history studio before (start factory)).tickets studio) ∧
      ∀ given : Nat → Bool, (∀ worker, given worker = true → machine.IsAbandoned worker) →
        ∃ calm, Machine.run studio (after.filter fun action => !action.ends given) machine =
            some (calm, later) ∧
          calm.queue = next.queue ∧ calm.hits = next.hits ∧ calm.drains = next.drains := by
  rw [List.mem_append, not_or] at kept
  have traced := traced_history runs
  have live : machine.queue.disposed = false := live_of_run rfl kept.1 runs
  have told := (served_history runs).told
  have resolved : Event.resolvedJobs events = (history studio before (start factory)).resolved :=
    congrArg Event.resolvedJobs (events_history runs).symm
  rw [events_history runs] at told
  rw [resolved]
  refine ⟨fun number => timedOut_of_run builds runs live, ?_, (lost_history runs).unreachable,
    told, ?_⟩
  · intro number outcome finished
    obtain ⟨rendering, member, same, own, tells, -⟩ :=
      (equipped_history builds runs).exists_rendering traced finished
    exact ⟨rendering, member, same, own, tells⟩
  · intro given abandoned
    obtain ⟨others, replies, calm⟩ :=
      (Shadows.refl given _ machine).run traced abandoned live kept.2 goesOn
    exact ⟨_, calm, rfl, rfl, rfl⟩

/-- A studio that does not wait long for a thumbnail. -/
def hasty : Studio Unit Unit :=
  drawing { ThumbnailConfig.standard with renderTimeout := some 10 }

theorem hasty_alwaysBuilds : hasty.AlwaysBuilds :=
  fun _ => ⟨(), (), rfl⟩

/-- The first of two jobs times out while its worker renders, and the second one is started. -/
def overdue : List (Action Nat) :=
  [.request "a" plain 1, .startDrain, .request "b" plain 2, .beginRound 0, .takeUp 0, .timeOut 0,
    .callBack 0 (.returned ()), .beginRound 0, .takeUp 1]

/-- The first worker replies late, before the second one does. -/
def lateReply : List (Action Nat) :=
  [.render 0 noon, .render 1 noon, .finish 0]

theorem timed_out_jobs_are_isolated_overdue :
    ∃ machine events next later,
      Machine.run hasty overdue (.start ()) = some (machine, events) ∧
      Machine.run hasty lateReply machine = some (next, later) ∧
      (0, .timedOut) ∈ Event.resolvedJobs events ∧
      TimedOut hasty (history hasty overdue (.start ())) machine 0 "a" ∧
      machine.IsAbandoned 0 ∧
      ∃ calm, Machine.run hasty [.render 1 noon, .finish 0] machine = some (calm, later) ∧
        calm.queue = next.queue := by
  have computed : ((Machine.run hasty overdue (.start ())).bind fun first =>
      (Machine.run hasty lateReply first.1).map fun last =>
        (Event.resolvedJobs first.2, first.1.workers.length, first.1.queue.worker)) =
      some ([(0, .timedOut)], 2, some 1) := by decide +kernel
  have keys : (history hasty overdue (.start ())).keys[0]? = some "a" := by decide +kernel
  obtain ⟨⟨machine, events⟩, runs, computed⟩ := Option.bind_eq_some_iff.mp computed
  obtain ⟨⟨next, later⟩, goesOn, computed⟩ := Option.map_eq_some_iff.mp computed
  obtain ⟨resolved, two, inUse⟩ := by simpa only [Prod.mk.injEq] using computed
  have timedOut : (0, .timedOut) ∈ Event.resolvedJobs events := by
    rw [resolved]
    exact List.mem_singleton.mpr rfl
  have abandoned : machine.IsAbandoned 0 := ⟨by rw [two]; decide, by rw [inUse]; decide⟩
  obtain ⟨ends, -, -, -, unnoticed⟩ :=
    timed_out_jobs_are_isolated hasty_alwaysBuilds (by simp [overdue, lateReply]) runs goesOn
  obtain ⟨key, found, known⟩ := ends 0 timedOut
  rw [keys, Option.some.injEq] at found
  obtain ⟨calm, goesOn', same, -, -⟩ := unnoticed (· == 0) (fun worker given => by
    rw [beq_iff_eq.mp given]
    exact abandoned)
  exact ⟨machine, events, next, later, runs, goesOn, timedOut, found ▸ known, abandoned, calm,
    goesOn', same⟩

end Machine

end Multipass
