import Multipass.Proofs.Queue.Disposal
import Multipass.Proofs.Queue.Renderings
import Multipass.Proofs.Queue.Tickets

/-!
# One rendering for each key

When requests are coalesced, a key has one job at a time, and a new one only if the one
before it reached no worker. So what the first job for a key that ends otherwise leaves
behind is the answer to every request for the key, from then on and for all who wait for
this job.
-/

namespace Multipass

/-- The keys of the jobs that have yet to be resolved: of the one that is being rendered, and
    of those that wait. -/
def Queue.openKeys {κ : Type} (queue : Queue κ) : List String :=
  (queue.flight.map (·.key)).toList ++ queue.pending.map (·.key)

namespace Machine

variable {κ φ σ : Type} {studio : Studio φ σ} {machine next : Machine κ φ σ}
  {action : Action κ} {before after : List (Action κ)} {events later : List (Event κ)}
  {past : History κ φ σ} {factory : φ} {key : String} {number : Nat} {outcome : Outcome}

/-- A key has a second job only because the first one reached no worker. -/
def Coalesced (past : History κ φ σ) : Prop :=
  ∀ (first second : Nat) (key : String), first < second → past.keys[first]? = some key →
    past.keys[second]? = some key → (first, .unreachable) ∈ past.resolved

/-- The jobs that are open are those of the open keys. -/
theorem Served.openKeys_eq (served : Served studio past machine) (orderly : machine.Orderly)
    (live : machine.queue.disposed = false) :
    machine.queue.openKeys = machine.unresolved.map Prod.fst := by
  have flying : (machine.queue.flight.map (·.key)).toList = machine.inHand.map Prod.fst := by
    cases rendering : machine.queue.flight with
    | some flight =>
      obtain ⟨number, worker, drains, -⟩ := served.awaiting_of_flight orderly live rendering
      rw [inHand, drains]
      rfl
    | none =>
      have free : machine.inHand = [] := by
        refine List.filterMap_eq_nil_iff.mpr ?_
        intro drain member
        obtain ⟨index, here⟩ := List.mem_iff_getElem?.mp member
        cases drain with
        | awaiting number key worker =>
          rw [served.flight live index number key worker here] at rendering
          cases rendering
        | _ => rfl
      rw [free]
      rfl
  rw [Queue.openKeys, unresolved, List.map_append, flying, List.map_map]
  rfl

/-- When a job is enqueued, its key is neither cached nor is there a job for it to join. -/
theorem enqueuedKey_of_transition (steps : Transition studio machine action next events) :
    enqueuedKey action events = [] ∨ ∃ key callback, enqueuedKey action events = [key] ∧
      machine.queue.disposed = false ∧ machine.queue.cached? key = none ∧
      (studio.config.coalesceDuplicates = true → machine.queue.join? key callback = none) := by
  cases steps with
  | enqueued live missing apart => exact .inr ⟨_, _, rfl, live, missing, apart⟩
  | resolved _ ends _ | cutShort _ ends _ => exact .inl (ends.enqueuedKey_eq_nil _)
  | _ => exact .inl rfl

/-- A job for a key that is enqueued now is the first one, or others reached no worker. -/
theorem Regular.unreachable_of_enqueued (regular : Regular past machine)
    (served : Served studio past machine)
    (coalesces : studio.config.coalesceDuplicates = true)
    (live : machine.queue.disposed = false) (missing : machine.queue.cached? key = none)
    {callback : κ} (apart : machine.queue.join? key callback = none)
    (found : past.keys[number]? = some key) : (number, .unreachable) ∈ past.resolved := by
  by_cases waits : past.resolved.length ≤ number
  · have member := regular.mem_unresolved live waits found
    have new : machine.jobFor studio key = machine.queue.enqueued :=
      served.jobFor_of_enqueued live fun _ => apart
    rw [jobFor, if_pos coalesces] at new
    cases joined : machine.unresolved.lookup key with
    | none => exact absurd rfl (bne_iff_ne.mp (List.lookup_eq_none_iff.mp joined _ member))
    | some other =>
      rw [joined, Option.getD_some] at new
      obtain ⟨front, back, split, -⟩ := List.lookup_eq_some_iff.mp joined
      have waits : (key, other) ∈ machine.unresolved := by
        rw [split]
        simp
      have inside := (regular.of_mem_unresolved live waits).2
      have bound := (List.getElem?_eq_some_iff.mp inside).1
      have count := regular.ordered.count
      omega
  · have resolved : number ∈ past.resolved.map Prod.fst := by
      rw [regular.ordered.numbers, List.mem_range]
      omega
    obtain ⟨⟨_, ending⟩, member, rfl⟩ := List.mem_map.mp resolved
    cases ending with
    | unreachable => exact member
    | finished outcome => exact absurd missing (regular.cached?_ne_none live member found rfl)
    | timedOut => exact absurd missing (regular.cached?_ne_none live member found rfl)

/-- No step gives a key a second job, unless the first one reached no worker. -/
theorem Coalesced.transition (coalesced : Coalesced past)
    (coalesces : studio.config.coalesceDuplicates = true) (regular : Regular past machine)
    (served : Served studio past machine)
    (steps : Transition studio machine action next events) :
    Coalesced (past ++ [⟨machine, action, events⟩]) := by
  intro first second key less here there
  rw [History.keys_append, History.keys_singleton] at here there
  rw [History.resolved_append]
  refine List.mem_append_left _ ?_
  by_cases old : second < past.keys.length
  · rw [List.getElem?_append_left old] at there
    rw [List.getElem?_append_left (less.trans old)] at here
    exact coalesced first second key less here there
  · rw [List.getElem?_append_right (by omega)] at there
    rcases enqueuedKey_of_transition steps with none | ⟨_, callback, new, live, missing, apart⟩
    · rw [none] at there
      cases there
    · rw [new] at there
      have last := (List.getElem?_eq_some_iff.mp there).1
      rw [List.length_singleton] at last
      rw [List.getElem?_singleton, if_pos (by omega), Option.some.injEq] at there
      rw [List.getElem?_append_left (by omega), ← there] at here
      exact regular.unreachable_of_enqueued served coalesces live missing (apart coalesces) here

/-- All that is known of a run in which requests are coalesced. -/
structure Joined (studio : Studio φ σ) (past : History κ φ σ) (machine : Machine κ φ σ) :
    Prop where
  traced : Traced studio past machine
  served : Served studio past machine
  coalesced : Coalesced past

theorem joined_history (coalesces : studio.config.coalesceDuplicates = true)
    (runs : run studio before (start factory) = some (machine, events)) :
    Joined studio (history studio before (start factory)) machine := by
  have known := history_induction
    (fun past machine => Served studio past machine ∧ Coalesced past)
    ⟨served_start studio factory, fun first second key _ here => by cases here⟩
    (fun regular known steps => ⟨known.1.transition regular steps,
      known.2.transition coalesces regular known.1 steps⟩) runs
  exact ⟨traced_history runs, known.1, known.2⟩

section Joined

variable (joined : Joined studio past machine) {ending : Ending}

include joined

/-- A job that left an outcome behind is the last one for its key. -/
theorem Joined.last (resolved : (number, ending) ∈ past.resolved)
    (found : past.keys[number]? = some key) (remembers : ending.remembered? = some outcome)
    {other : Nat} (there : past.keys[other]? = some key) : other ≤ number := by
  by_contra later
  have unreachable := joined.coalesced number other key (by omega) found there
  have same := joined.traced.regular.lookup_resolved unreachable
  rw [joined.traced.regular.lookup_resolved resolved, Option.some.injEq] at same
  subst same
  cases remembers

theorem Joined.cached (live : machine.queue.disposed = false)
    (resolved : (number, ending) ∈ past.resolved) (found : past.keys[number]? = some key)
    (remembers : ending.remembered? = some outcome) :
    machine.queue.cached? key = some outcome := by
  refine joined.traced.regular.cached?_of_last live resolved found remembers ?_
  intro later other more there
  exact absurd (joined.last resolved found remembers there) (by omega)

theorem Joined.nodup_openKeys (live : machine.queue.disposed = false) :
    machine.queue.openKeys.Nodup := by
  have regular := joined.traced.regular
  rw [joined.served.openKeys_eq regular.orderly live, regular.unresolved_eq live, List.map_drop,
    List.zipIdx_map_fst, List.nodup_iff_getElem?_ne_getElem?]
  intro first second less inside same
  rw [List.getElem?_drop, List.getElem?_drop] at same
  rw [List.length_drop] at inside
  have there := List.getElem?_eq_getElem (l := past.keys)
    (show past.resolved.length + second < past.keys.length by omega)
  have unreachable := joined.coalesced _ _ _ (by omega) (same.trans there) there
  have bound := List.mem_map_of_mem (f := Prod.fst) unreachable
  rw [regular.ordered.numbers, List.mem_range] at bound
  omega

theorem Joined.uncached (live : machine.queue.disposed = false)
    (waits : key ∈ machine.queue.openKeys) : machine.queue.cached? key = none := by
  have regular := joined.traced.regular
  rw [joined.served.openKeys_eq regular.orderly live] at waits
  obtain ⟨⟨_, number⟩, member, rfl⟩ := List.mem_map.mp waits
  obtain ⟨waiting, there⟩ := regular.of_mem_unresolved live member
  by_contra cached
  obtain ⟨outcome, cached⟩ := Option.ne_none_iff_exists'.mp cached
  obtain ⟨first, ending, resolved, found, remembers⟩ :=
    (regular.mem_cache live).mp (mem_of_lookup_eq_some cached)
  have last := joined.last resolved found remembers there
  have bound := List.mem_map_of_mem (f := Prod.fst) resolved
  rw [regular.ordered.numbers, List.mem_range] at bound
  simp only at bound
  omega

/-- No key is rendered twice, be it by different jobs. -/
theorem Joined.nodup_renderings :
    (past.renderings.map fun rendering => past.keys[rendering.task.number]?).Nodup := by
  have distinct := joined.traced.nodup_renderings
  have inside : ∀ number ∈ past.renderings.map (·.task.number), (past.keys[number]?).isSome ∧
      (number, .unreachable) ∉ past.resolved := by
    intro number member
    obtain ⟨rendering, rendered, rfl⟩ := List.mem_map.mp member
    refine ⟨?_, joined.traced.not_unreachable rendered⟩
    have known := (List.getElem?_eq_some_iff.mp (joined.traced.replied.rendered _ rendered)).1
    rw [History.length_passes] at known
    rw [List.getElem?_eq_getElem known]
    rfl
  have apart := List.Nodup.map_on (f := fun number => past.keys[number]?) ?_ distinct
  · rwa [List.map_map] at apart
  · intro first here second there same
    obtain ⟨key, found⟩ := Option.isSome_iff_exists.mp (inside first here).1
    -- Of two jobs for a key the first one reached no worker, so it was not rendered.
    by_contra differ
    rcases Nat.lt_or_gt_of_ne differ with less | less
    · exact (inside first here).2 (joined.coalesced _ _ key less found (same ▸ found))
    · exact (inside second there).2 (joined.coalesced _ _ key less (same ▸ found) found)

/-- Whoever asks for an open key waits for the job that is there for it. -/
theorem Joined.jobFor_eq (coalesces : studio.config.coalesceDuplicates = true)
    (live : machine.queue.disposed = false) (waits : (key, number) ∈ machine.unresolved) :
    machine.jobFor studio key = number := by
  have distinct := joined.nodup_openKeys live
  rw [joined.served.openKeys_eq joined.traced.regular.orderly live] at distinct
  obtain ⟨front, back, split⟩ := List.append_of_mem waits
  rw [split, List.map_append, List.map_cons] at distinct
  have first : machine.unresolved.lookup key = some number := by
    refine List.lookup_eq_some_iff.mpr ⟨front, back, split, ?_⟩
    intro label earlier
    refine bne_iff_ne.mpr (Ne.symm ?_)
    exact (List.nodup_append.mp distinct).2.2 _ (List.mem_map_of_mem earlier) key
      List.mem_cons_self
  rw [jobFor, if_pos coalesces, first, Option.getD_some]

end Joined

/-! ## What becomes of a key -/

/-- What becomes of a key for which a job left an outcome behind, in the time from then on. The
    outcome stays in the cache. No other job is enqueued for the key, and none but this job
    is ever rendered for it. Whoever asks for the key before the job is resolved gets a
    ticket for it, and whoever asks later one for the outcome. So all tickets for the key
    come to this outcome, but for those for an earlier job that reached no worker. -/
structure AnsweredForGood (studio : Studio φ σ) (past future : History κ φ σ)
    (machine next : Machine κ φ σ) (key : String) (number : Nat) (outcome : Outcome) :
    Prop where
  cached : machine.queue.cached? key = some outcome
  stays : next.queue.cached? key = some outcome
  enqueued : key ∉ future.keys
  rendered : ∀ rendering ∈ (past ++ future).renderings,
    (past ++ future).keys[rendering.task.number]? = some key → rendering.task.number = number
  joins : ∀ turn ∈ past ++ future, (key, number) ∈ turn.machine.unresolved →
    ∀ ticket, ticket? studio turn = some ticket → ticket.key = key → ticket.due = .job number
  hits : ∀ ticket ∈ future.tickets studio, ticket.key = key → ticket.due = .remembered outcome
  told : ∀ ticket ∈ (past ++ future).tickets studio, ticket.key = key →
    ticket.answer? (past ++ future).resolved = some (ticket.callback, outcome) ∨
      ∃ earlier < number, ticket.due = .job earlier ∧
        (earlier, .unreachable) ∈ past.resolved

/-- Of every step of a history it is known how things stood before it. -/
def Retraced (studio : Studio φ σ) (past future : History κ φ σ) : Prop :=
  ∀ turn ∈ future, ∃ front back, future = front ++ back ∧
    Joined studio (past ++ front) turn.machine

theorem retraced_history (coalesces : studio.config.coalesceDuplicates = true)
    (runs : run studio before (start factory) = some (machine, events))
    (after : List (Action κ)) :
    Retraced studio (history studio before (start factory)) (history studio after machine) := by
  intro turn member
  obtain ⟨front, back, told, _, rfl, goesOn, -⟩ := exists_run_of_mem member
  refine ⟨_, _, history_append goesOn _, ?_⟩
  rw [← history_append runs]
  exact joined_history coalesces (run_append_eq_some.mpr ⟨_, _, _, runs, goesOn, rfl⟩)

/-- A ticket for an outcome was given out when a job for the key had left it behind. -/
theorem Retraced.resolved_of_remembered (retraced : Retraced studio [] past)
    {ticket : Ticket κ} (member : ticket ∈ past.tickets studio)
    (due : ticket.due = .remembered outcome) :
    ∃ number ending, (number, ending) ∈ past.resolved ∧
      past.keys[number]? = some ticket.key ∧ ending.remembered? = some outcome := by
  obtain ⟨turn, inside, gives⟩ := List.mem_filterMap.mp member
  obtain ⟨front, rest, rfl, joined⟩ := retraced turn inside
  rw [List.nil_append] at joined
  obtain ⟨live, -, ⟨other, cached, same⟩ | ⟨-, job⟩⟩ := ticket?_cases gives
  · rw [due] at same
    cases same
    obtain ⟨number, ending, resolved, found, remembers⟩ :=
      (joined.traced.regular.mem_cache live).mp (mem_of_lookup_eq_some cached)
    rw [History.resolved_append, History.keys_append]
    exact ⟨number, ending, List.mem_append_left _ resolved, History.getElem?_append found _,
      remembers⟩
  · rw [due] at job
    cases job

/-- What is told to those who hold tickets for the key. -/
theorem Joined.told (joined : Joined studio past machine) (retraced : Retraced studio [] past)
    {ending : Ending} (resolved : (number, ending) ∈ past.resolved)
    (found : past.keys[number]? = some key) (remembers : ending.remembered? = some outcome)
    {ticket : Ticket κ} (member : ticket ∈ past.tickets studio) (same : ticket.key = key) :
    ticket.answer? past.resolved = some (ticket.callback, outcome) ∨
      ∃ earlier < number, ticket.due = .job earlier ∧ (earlier, .unreachable) ∈ past.resolved := by
  subst same
  cases due : ticket.due with
  | remembered other =>
    obtain ⟨another, how, ended, there, keeps⟩ := retraced.resolved_of_remembered member due
    have one : another = number := Nat.le_antisymm (joined.last resolved found remembers there)
      (joined.last ended there keeps found)
    subst one
    have equal := joined.traced.regular.lookup_resolved ended
    rw [joined.traced.regular.lookup_resolved resolved, Option.some.injEq] at equal
    subst equal
    rw [remembers, Option.some.injEq] at keeps
    subst keeps
    simp [Ticket.answer?, due]
  | job other =>
    have there := joined.served.known ticket member other due
    rcases Nat.lt_or_eq_of_le (joined.last resolved found remembers there) with less | rfl
    · exact .inr ⟨other, less, rfl, joined.coalesced other number _ less there found⟩
    · left
      simp [Ticket.answer?, due, joined.traced.regular.lookup_resolved resolved,
        Ending.outcome_of_remembered remembers]

/-- Only the last job for the key is ever rendered. -/
theorem Joined.rendered (joined : Joined studio past machine) {ending : Ending}
    (resolved : (number, ending) ∈ past.resolved) (found : past.keys[number]? = some key)
    (remembers : ending.remembered? = some outcome) {rendering : Rendering σ}
    (member : rendering ∈ past.renderings)
    (there : past.keys[rendering.task.number]? = some key) :
    rendering.task.number = number := by
  rcases Nat.lt_or_eq_of_le (joined.last resolved found remembers there) with less | same
  · have unreachable := joined.coalesced _ number key less there found
    exact absurd unreachable (joined.traced.not_unreachable member)
  · exact same

theorem Joined.answeredForGood {future : History κ φ σ} (first : Joined studio past machine)
    (last : Joined studio (past ++ future) next) (retraced : Retraced studio [] (past ++ future))
    (goesOn : Retraced studio past future)
    (coalesces : studio.config.coalesceDuplicates = true)
    (begins : machine.queue.disposed = false) (live : next.queue.disposed = false)
    {ending : Ending} (resolved : (number, ending) ∈ past.resolved)
    (found : past.keys[number]? = some key) (remembers : ending.remembered? = some outcome) :
    AnsweredForGood studio past future machine next key number outcome := by
  have ended : (number, ending) ∈ (past ++ future).resolved := by
    rw [History.resolved_append]
    exact List.mem_append_left _ resolved
  have known : (past ++ future).keys[number]? = some key := by
    rw [History.keys_append]
    exact History.getElem?_append found _
  refine ⟨first.cached begins resolved found remembers, last.cached live ended known remembers,
    ?_, fun rendering => last.rendered ended known remembers, ?_, ?_, ?_⟩
  · intro member
    obtain ⟨index, there⟩ := List.mem_iff_getElem?.mp member
    have again : (past ++ future).keys[past.keys.length + index]? = some key := by
      rw [History.keys_append, List.getElem?_append_right (by omega), Nat.add_sub_cancel_left,
        there]
    have bound := last.last ended known remembers again
    have inside := (List.getElem?_eq_some_iff.mp found).1
    omega
  · intro turn member waits ticket gives same
    obtain ⟨front, rest, -, joined⟩ := retraced turn member
    obtain ⟨still, -, ⟨other, cached, -⟩ | ⟨-, due⟩⟩ := ticket?_cases gives
    · have opened : key ∈ turn.machine.queue.openKeys := by
        rw [joined.served.openKeys_eq joined.traced.regular.orderly still]
        exact List.mem_map_of_mem (f := Prod.fst) waits
      rw [same, joined.uncached still opened] at cached
      cases cached
    · rw [due, same, joined.jobFor_eq coalesces still waits]
  · intro ticket member same
    obtain ⟨turn, inside, gives⟩ := List.mem_filterMap.mp member
    obtain ⟨front, rest, -, joined⟩ := goesOn turn inside
    obtain ⟨still, -, ⟨other, cached, due⟩ | ⟨missing, -⟩⟩ := ticket?_cases gives
    all_goals
      have here : turn.machine.queue.cached? key = some outcome := joined.cached still
        (by rw [History.resolved_append]; exact List.mem_append_left _ resolved)
        (by rw [History.keys_append]; exact History.getElem?_append found _) remembers
    · rw [same, here, Option.some.injEq] at cached
      rw [due, cached]
    · rw [same, here] at missing
      cases missing
  · intro ticket member same
    refine (last.told retraced ended known remembers member same).imp_right ?_
    rintro ⟨earlier, less, due, -⟩
    refine ⟨earlier, less, due, ?_⟩
    have there := last.served.known ticket member earlier due
    rw [same, History.keys_append, List.getElem?_append_left
      (less.trans (List.getElem?_eq_some_iff.mp found).1)] at there
    exact first.coalesced earlier number key less there found

/-- When requests are coalesced, then however the threads take turns, the keys of the jobs that
    wait or are being rendered are different ones, and none of them is cached. No key is
    rendered twice. Those who wait for a job are those who hold tickets for it, and all that
    was told or is about to be told is what is due for the tickets. A job that finishes or
    times out answers its key for good. -/
theorem coalesced_keys_are_answered_for_good
    (coalesces : studio.config.coalesceDuplicates = true)
    (runs : run studio before (start factory) = some (machine, events))
    (goesOn : run studio after machine = some (next, later))
    (live : next.queue.disposed = false) :
    next.queue.openKeys.Nodup ∧
      (∀ key ∈ next.queue.openKeys, next.queue.cached? key = none) ∧
      ((history studio (before ++ after) (start factory)).renderings.map fun rendering =>
        (history studio (before ++ after) (start factory)).keys[rendering.task.number]?).Nodup ∧
      (∀ job ∈ next.queue.pending, job.callbacks = Ticket.holders job.number
        ((history studio (before ++ after) (start factory)).tickets studio)) ∧
      (∀ (index number : Nat) (key : String) (worker : Option Nat),
        next.drains[index]? = some (.awaiting number key worker) →
        next.queue.flight = some ⟨key, Ticket.holders number
          ((history studio (before ++ after) (start factory)).tickets studio)⟩) ∧
      (Event.answers (events ++ later) : Multiset (κ × Outcome)) + next.owed =
        Ticket.answers (Event.resolvedJobs (events ++ later))
          ((history studio (before ++ after) (start factory)).tickets studio) ∧
      ∀ number ending key outcome, (number, ending) ∈ Event.resolvedJobs events →
        (enqueuedKeys studio before (start factory))[number]? = some key →
        ending.remembered? = some outcome →
        AnsweredForGood studio (history studio before (start factory))
          (history studio after machine) machine next key number outcome := by
  have whole := history_append runs after
  have all : run studio (before ++ after) (start factory) = some (next, events ++ later) :=
    run_append_eq_some.mpr ⟨machine, events, later, runs, goesOn, rfl⟩
  have first := joined_history coalesces runs
  have last := joined_history coalesces all
  have told := last.served.told
  rw [History.resolved, events_history all] at told
  refine ⟨last.nodup_openKeys live, fun key => last.uncached live, last.nodup_renderings,
    fun job member => (last.served.pending job member).symm, last.served.flight live, told, ?_⟩
  intro number ending key outcome resolved found remembers
  rw [← events_history runs] at resolved
  rw [← keys_history] at found
  have begins : machine.queue.disposed = false := by
    by_contra gone
    rw [disposed_of_run (Bool.not_eq_false _ ▸ gone) goesOn] at live
    cases live
  rw [whole] at last
  refine first.answeredForGood last ?_ (retraced_history coalesces runs after) coalesces begins
    live resolved found remembers
  rw [← whole]
  have unused : run studio [] (start factory : Machine κ φ σ) = some (start factory, []) := rfl
  exact retraced_history coalesces unused (before ++ after)

/-- A studio in which requests are coalesced. -/
def sharing : Studio Unit Unit :=
  drawing { ThumbnailConfig.standard with coalesceDuplicates := true }

/-- The second client asks for a key while the job for it is being rendered. -/
def askedTwice : List (Action Nat) :=
  [.request "a" plain 1, .startDrain, .beginRound 0, .request "a" [] 2, .takeUp 0, .render 0 noon,
    .finish 0, .callBack 0 (.returned ()), .callBack 0 (.returned ())]

theorem coalesced_keys_are_answered_for_good_askedTwice :
    ∃ machine events next later,
      run sharing askedTwice (.start ()) = some (machine, events) ∧
      run sharing [.request "a" [] 3] machine = some (next, later) ∧
      next.queue.cached? "a" = some (some dot) ∧
      ∀ ticket ∈ (history sharing [.request "a" [] 3] machine).tickets sharing,
        ticket.key = "a" → ticket.due = .remembered (some dot) := by
  have computed : ((run sharing askedTwice (.start ())).bind fun first =>
      (run sharing [.request "a" [] 3] first.1).map fun last =>
        (Event.resolvedJobs first.2, last.1.queue.disposed)) =
      some ([(0, .finished (some dot))], false) := by decide +kernel
  have keys : (enqueuedKeys sharing askedTwice (.start ()))[0]? = some "a" := by decide +kernel
  obtain ⟨⟨machine, events⟩, runs, computed⟩ := Option.bind_eq_some_iff.mp computed
  obtain ⟨⟨next, later⟩, goesOn, computed⟩ := Option.map_eq_some_iff.mp computed
  obtain ⟨resolved, live⟩ := Prod.mk.inj computed
  obtain ⟨-, -, -, -, -, -, answered⟩ :=
    coalesced_keys_are_answered_for_good (show sharing.config.coalesceDuplicates = true from rfl)
      runs goesOn live
  have good := answered 0 _ "a" _ (by rw [resolved]; exact List.mem_singleton.mpr rfl) keys rfl
  exact ⟨machine, events, next, later, runs, goesOn, good.stays, good.hits⟩

end Machine

end Multipass
