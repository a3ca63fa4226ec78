import Multipass.Proofs.Queue.Coalescing

/-!
# How long a thumbnail stays in the cache

A cached key gets no further jobs. But where requests are not coalesced, several jobs for one
key can wait at once, and each of them leaves its outcome behind when it is resolved: those
that were there when a thumbnail was cached can still replace it, even by a failure.
-/

namespace Multipass

namespace Machine

variable {κ φ σ : Type} {studio : Studio φ σ} {machine next : Machine κ φ σ}
  {before after : List (Action κ)} {events later : List (Event κ)} {past future : History κ φ σ}
  {factory : φ} {key : String} {number : Nat} {outcome : Outcome} {thumbnail : Thumbnail}

/-- A queue that remembers something was not disposed of. -/
theorem Regular.live_of_cached (regular : Regular past machine)
    (cached : machine.queue.cached? key = some outcome) : machine.queue.disposed = false := by
  cases gone : machine.queue.disposed with
  | false => rfl
  | true =>
    have empty := mem_of_lookup_eq_some cached
    rw [regular.ordered.cleared gone] at empty
    cases empty

/-- What a run adds to the cache are the outcomes of the jobs that it resolves. -/
theorem Regular.cache_append (regular : Regular past machine)
    (whole : Regular (past ++ future) next) (begins : machine.queue.disposed = false)
    (live : next.queue.disposed = false) :
    next.queue.cache =
      (remembered (past ++ future).keys future.resolved).reverse ++ machine.queue.cache := by
  have before : remembered (past.keys ++ future.keys) past.resolved = _ :=
    remembered_of_lt regular.ordered.known
  rw [← regular.ordered.cache begins] at before
  have after := whole.ordered.cache live
  rw [History.resolved_append, remembered_append, History.keys_append, before,
    ← History.keys_append] at after
  rw [← List.reverse_reverse next.queue.cache, after, List.reverse_append, List.reverse_reverse]

/-- What is remembered for a key is the last outcome that it got, or what it was before. -/
theorem Regular.cached?_append (regular : Regular past machine)
    (whole : Regular (past ++ future) next) (begins : machine.queue.disposed = false)
    (live : next.queue.disposed = false) (key : String) :
    next.queue.cached? key =
      ((remembered (past ++ future).keys future.resolved).reverse.lookup key).or
        (machine.queue.cached? key) := by
  rw [Queue.cached?, regular.cache_append whole begins live, List.lookup_append, Queue.cached?]

section Runs

variable (runs : run studio before (start factory) = some (machine, events))
  (cached : machine.queue.cached? key = some outcome)

include runs cached

/-- A key that is cached stays so, until the queue is disposed of. -/
theorem cached?_of_run (kept : .dispose ∉ after)
    (goesOn : run studio after machine = some (next, later)) :
    next.queue.cached? key =
      ((remembered (enqueuedKeys studio (before ++ after) (start factory))
        (Event.resolvedJobs later)).reverse.lookup key).or (some outcome) := by
  have regular := regular_history runs
  have begins := regular.live_of_cached cached
  have all := run_append_eq_some.mpr ⟨machine, events, later, runs, goesOn, rfl⟩
  have whole := regular_history all
  rw [history_append runs after] at whole
  have appended := regular.cached?_append whole begins (live_of_run begins kept goesOn) key
  rwa [← history_append runs after, keys_history, History.resolved, events_history goesOn,
    cached] at appended

theorem cached?_isSome_of_mem (kept : .dispose ∉ after) {turn : Turn κ φ σ}
    (member : turn ∈ history studio after machine) :
    ∃ other, turn.machine.queue.cached? key = some other := by
  obtain ⟨front, back, told, _, rfl, goesOn, -⟩ := exists_run_of_mem member
  have stays := cached?_of_run runs cached
    (fun disposes => kept (List.mem_append_left _ disposes)) goesOn
  rw [stays]
  cases List.lookup key _ with
  | none => exact ⟨outcome, rfl⟩
  | some other => exact ⟨other, rfl⟩

/-- No further job is enqueued for a key that is cached. -/
theorem not_mem_keys_of_cached (kept : .dispose ∉ after) :
    key ∉ (history studio after machine).keys := by
  intro member
  obtain ⟨turn, inside, new⟩ := List.mem_flatMap.mp member
  obtain ⟨other, remembers⟩ := cached?_isSome_of_mem runs cached kept inside
  obtain ⟨-, -, -, _, -, -, steps⟩ := exists_run_of_mem inside
  rcases enqueuedKey_of_transition (transition_of_step steps) with
    nothing | ⟨enqueued, _, same, -, missing, -⟩
  · rw [nothing] at new
    cases new
  · rw [same, List.mem_singleton] at new
    subst new
    rw [missing] at remembers
    cases remembers

/-- The jobs for a cached key that are resolved later were there when it was cached. -/
theorem mem_unresolved_of_cached (kept : .dispose ∉ after)
    (goesOn : run studio after machine = some (next, later)) {ending : Ending}
    (resolved : (number, ending) ∈ Event.resolvedJobs later)
    (found : (enqueuedKeys studio (before ++ after) (start factory))[number]? = some key) :
    (key, number) ∈ machine.unresolved := by
  have regular := regular_history runs
  have all := run_append_eq_some.mpr ⟨machine, events, later, runs, goesOn, rfl⟩
  have whole := regular_history all
  refine regular.mem_unresolved (regular.live_of_cached cached) ?_ ?_
  · rw [← events_history goesOn] at resolved
    rw [history_append runs] at whole
    exact regular.le_of_mem_resolved whole resolved
  · rw [← keys_history, history_append runs, History.keys_append] at found
    by_cases inside : number < (history studio before (start factory)).keys.length
    · rwa [List.getElem?_append_left inside] at found
    · rw [List.getElem?_append_right (by omega)] at found
      exact absurd (List.mem_of_getElem? found) (not_mem_keys_of_cached runs cached kept)

/-- Only a job that was there when the key was cached can replace what is remembered. -/
theorem cached?_of_no_duplicate (kept : .dispose ∉ after)
    (goesOn : run studio after machine = some (next, later))
    (alone : ∀ number, (key, number) ∉ machine.unresolved) :
    next.queue.cached? key = some outcome := by
  rw [cached?_of_run runs cached kept goesOn]
  suffices nothing : (remembered (enqueuedKeys studio (before ++ after) (start factory))
      (Event.resolvedJobs later)).reverse.lookup key = none by
    rw [nothing, Option.none_or]
  refine List.lookup_eq_none_iff.mpr ?_
  rintro ⟨other, told⟩ member
  obtain ⟨number, ending, resolved, found, -⟩ := mem_remembered.mp (List.mem_reverse.mp member)
  refine bne_iff_ne.mpr ?_
  rintro rfl
  exact alone number (mem_unresolved_of_cached runs cached kept goesOn resolved found)

/-- With coalescing there is no other job for a key that is cached. -/
theorem not_mem_unresolved_of_cached (coalesces : studio.config.coalesceDuplicates = true) :
    (key, number) ∉ machine.unresolved := by
  intro waits
  have joined := joined_history coalesces runs
  have live := joined.traced.regular.live_of_cached cached
  have opened : key ∈ machine.queue.openKeys := by
    rw [joined.served.openKeys_eq joined.traced.regular.orderly live]
    exact List.mem_map_of_mem (f := Prod.fst) waits
  rw [joined.uncached live opened] at cached
  cases cached

end Runs

/-- Once a thumbnail is cached for a key, then until the queue is disposed of no further job is
    enqueued for this key, and every request for it is answered with what is cached at that
    moment. Only jobs for the key that were there when the thumbnail was cached are still
    resolved; the last one of them that leaves an outcome behind decides what is remembered.
    So the thumbnail stays when requests are coalesced or when there was no such job, and a
    thumbnail stays as long as none of these jobs fails. -/
theorem thumbnail_kept_from_new_jobs
    (runs : run studio before (start factory) = some (machine, events))
    (cached : machine.queue.cached? key = some (some thumbnail)) (kept : .dispose ∉ after)
    (goesOn : run studio after machine = some (next, later)) :
    key ∉ enqueuedKeys studio after machine ∧
      (∀ turn ∈ history studio after machine, ∀ ticket, ticket? studio turn = some ticket →
        ticket.key = key → ∃ outcome, turn.machine.queue.cached? key = some outcome ∧
          ticket.due = .remembered outcome) ∧
      (∀ number ending, (number, ending) ∈ Event.resolvedJobs later →
        (enqueuedKeys studio (before ++ after) (start factory))[number]? = some key →
        (key, number) ∈ machine.unresolved) ∧
      next.queue.cached? key =
        ((remembered (enqueuedKeys studio (before ++ after) (start factory))
          (Event.resolvedJobs later)).reverse.lookup key).or (some (some thumbnail)) ∧
      (studio.config.coalesceDuplicates = true ∨ (∀ number, (key, number) ∉ machine.unresolved) →
        next.queue.cached? key = some (some thumbnail)) ∧
      ((∀ number ending, (number, ending) ∈ Event.resolvedJobs later →
          (enqueuedKeys studio (before ++ after) (start factory))[number]? = some key →
          ending.remembered? ≠ some none) →
        ∃ other, next.queue.cached? key = some (some other)) := by
  have decided := cached?_of_run runs cached kept goesOn
  refine ⟨?_, ?_, ?_, decided, ?_, ?_⟩
  · rw [← keys_history]
    exact not_mem_keys_of_cached runs cached kept
  · intro turn member ticket gives same
    obtain ⟨other, remembers⟩ := cached?_isSome_of_mem runs cached kept member
    obtain ⟨-, -, ⟨outcome, here, due⟩ | ⟨missing, -⟩⟩ := ticket?_cases gives
    · exact ⟨outcome, same ▸ here, due⟩
    · rw [same, remembers] at missing
      cases missing
  · intro number ending
    exact mem_unresolved_of_cached runs cached kept goesOn
  · rintro (coalesces | alone)
    · exact cached?_of_no_duplicate runs cached kept goesOn
        fun number => not_mem_unresolved_of_cached runs cached coalesces
    · exact cached?_of_no_duplicate runs cached kept goesOn alone
  · intro succeed
    cases found : (remembered (enqueuedKeys studio (before ++ after) (start factory))
        (Event.resolvedJobs later)).reverse.lookup key with
    | none =>
      rw [found, Option.none_or] at decided
      exact ⟨thumbnail, decided⟩
    | some outcome =>
      obtain ⟨number, ending, resolved, known, remembers⟩ :=
        mem_remembered.mp (List.mem_reverse.mp (mem_of_lookup_eq_some found))
      rw [found, Option.some_or] at decided
      cases outcome with
      | some other => exact ⟨other, decided⟩
      | none => exact absurd remembers (succeed number ending resolved known)

/-- Two clients ask for one key, each with passes of its own. The first job draws a
    thumbnail; the passes of the second have no entry point. -/
def askedApart : List (Action Nat) :=
  [.request "a" plain 1, .startDrain, .request "a" [] 2, .beginRound 0, .takeUp 0, .render 0 noon,
    .finish 0, .callBack 0 (.returned ())]

/-- The round for the second job. -/
def secondRound : List (Action Nat) :=
  [.beginRound 0, .takeUp 0, .render 0 noon, .finish 0]

theorem thumbnail_kept_from_new_jobs_askedApart :
    ∃ machine events next later,
      run (drawing .standard) askedApart (.start ()) = some (machine, events) ∧
      machine.queue.cached? "a" = some (some dot) ∧
      run (drawing .standard) [.request "a" [] 3, .answerHit 0] machine = some (next, later) ∧
      next.queue.cached? "a" = some (some dot) ∧
      "a" ∉ enqueuedKeys (drawing .standard) [.request "a" [] 3, .answerHit 0] machine := by
  have computed : ((run (drawing .standard) askedApart (.start ())).bind fun first =>
      (run (drawing .standard) [.request "a" [] 3, .answerHit 0] first.1).map fun last =>
        (first.1.queue.cached? "a", Event.resolvedJobs last.2)) = some (some (some dot), []) := by
    decide +kernel
  obtain ⟨⟨machine, events⟩, runs, computed⟩ := Option.bind_eq_some_iff.mp computed
  obtain ⟨⟨next, later⟩, goesOn, computed⟩ := Option.map_eq_some_iff.mp computed
  obtain ⟨cached, resolved⟩ := Prod.mk.inj computed
  obtain ⟨new, -, -, decided, -⟩ :=
    thumbnail_kept_from_new_jobs runs cached (by simp) goesOn
  rw [resolved] at decided
  exact ⟨machine, events, next, later, runs, cached, goesOn, decided, new⟩

/-- A cached thumbnail can be replaced by a failure, and the clients that come later are told
    of the failure. -/
theorem thumbnail_lost_to_duplicate :
    ∃ machine events next later last answers,
      run (drawing .standard) askedApart (.start ()) = some (machine, events) ∧
      machine.queue.cached? "a" = some (some dot) ∧
      run (drawing .standard) secondRound machine = some (next, later) ∧
      next.queue.cached? "a" = some none ∧
      run (drawing .standard) [.request "a" plain 3, .answerHit 0] next = some (last, answers) ∧
      Event.answers answers = [(3, none)] := by
  have computed : ((run (drawing .standard) askedApart (.start ())).bind fun first =>
      (run (drawing .standard) secondRound first.1).bind fun second =>
        (run (drawing .standard) [.request "a" plain 3, .answerHit 0] second.1).map fun third =>
          (first.1.queue.cached? "a", second.1.queue.cached? "a", Event.answers third.2)) =
      some (some (some dot), some none, [(3, none)]) := by decide +kernel
  obtain ⟨⟨machine, events⟩, runs, computed⟩ := Option.bind_eq_some_iff.mp computed
  obtain ⟨⟨next, later⟩, goesOn, computed⟩ := Option.bind_eq_some_iff.mp computed
  obtain ⟨⟨last, answers⟩, asks, computed⟩ := Option.map_eq_some_iff.mp computed
  obtain ⟨cached, lost, told⟩ := by simpa only [Prod.mk.injEq] using computed
  exact ⟨machine, events, next, later, last, answers, runs, cached, goesOn, lost, asks, told⟩

end Machine

end Multipass
