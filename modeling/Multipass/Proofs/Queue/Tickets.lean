import Multipass.Proofs.Queue.History

/-!
# What the clients are told

A client whose request is accepted holds a ticket: for an outcome that the queue remembers,
or for a job, a new one or one that it joins. Whoever holds a ticket for a job is told how
this job ended, and nobody is told anything else.
-/

namespace Multipass

/-- What a client waits for. -/
inductive Due where
  | remembered (outcome : Outcome)
  | job (number : Nat)
  deriving DecidableEq

/-- What the client of an accepted request holds. -/
structure Ticket (κ : Type) where
  key : String
  callback : κ
  due : Due

namespace Ticket

variable {κ : Type}

/-- The client, if it waits for this job. -/
def holder? (number : Nat) (ticket : Ticket κ) : Option κ :=
  if ticket.due = .job number then some ticket.callback else none

/-- The clients that wait for a job, in the order of their requests. -/
def holders (number : Nat) (tickets : List (Ticket κ)) : List κ :=
  tickets.filterMap (holder? number)

/-- What the client is told when these jobs were resolved, if that is decided. -/
def answer? (resolved : List (Nat × Ending)) (ticket : Ticket κ) : Option (κ × Outcome) :=
  match ticket.due with
  | .remembered outcome => some (ticket.callback, outcome)
  | .job number => (resolved.lookup number).map fun ending => (ticket.callback, ending.outcome)

/-- All that the clients are told when these jobs were resolved. -/
def answers (resolved : List (Nat × Ending)) (tickets : List (Ticket κ)) :
    Multiset (κ × Outcome) :=
  (tickets.filterMap (answer? resolved) : List (κ × Outcome))

variable {number : Nat} {ticket : Ticket κ} {tickets : List (Ticket κ)}
  {resolved : List (Nat × Ending)}

theorem holders_append (number : Nat) (tickets more : List (Ticket κ)) :
    holders number (tickets ++ more) = holders number tickets ++ holders number more :=
  List.filterMap_append

theorem holders_of_due (due : ticket.due = .job number) :
    holders number [ticket] = [ticket.callback] := by
  simp [holders, holder?, due]

theorem holders_of_ne (due : ticket.due ≠ .job number) : holders number [ticket] = [] := by
  simp [holders, holder?, due]

/-- Nobody waits for a job that nobody has a ticket for. -/
theorem holders_eq_nil (unknown : ∀ ticket ∈ tickets, ticket.due ≠ .job number) :
    holders number tickets = [] := by
  refine List.filterMap_eq_nil_iff.mpr ?_
  intro ticket member
  exact if_neg (unknown ticket member)

theorem answers_append (resolved : List (Nat × Ending)) (tickets more : List (Ticket κ)) :
    answers resolved (tickets ++ more) = answers resolved tickets + answers resolved more := by
  simp only [answers, List.filterMap_append, Multiset.coe_add]

theorem answers_of_remembered {outcome : Outcome} (due : ticket.due = .remembered outcome) :
    answers resolved [ticket] = {(ticket.callback, outcome)} := by
  simp [answers, answer?, due]

theorem answers_of_unresolved (due : ticket.due = .job number)
    (waits : resolved.lookup number = none) : answers resolved [ticket] = 0 := by
  simp [answers, answer?, due, waits]

/-- When a job is resolved, those who wait for it are told its outcome. -/
theorem answers_resolve (waits : resolved.lookup number = none) (ending : Ending)
    (tickets : List (Ticket κ)) :
    answers (resolved ++ [(number, ending)]) tickets =
      answers resolved tickets +
        ((holders number tickets).map (·, ending.outcome) : List (κ × Outcome)) := by
  induction tickets with
  | nil => rfl
  | cons ticket rest ih =>
    rw [← List.singleton_append (x := ticket), answers_append, answers_append, holders_append,
      List.map_append, ← Multiset.coe_add, ih]
    suffices first : answers (resolved ++ [(number, ending)]) [ticket] =
        answers resolved [ticket] +
          ((holders number [ticket]).map (·, ending.outcome) : List (κ × Outcome)) by
      rw [first]
      abel
    by_cases due : ticket.due = .job number
    · rw [holders_of_due due, answers_of_unresolved due waits, zero_add]
      simp [answers, answer?, due, List.lookup_append, waits]
    · rw [holders_of_ne due, List.map_nil, Multiset.coe_nil, add_zero]
      cases about : ticket.due with
      | remembered outcome => rw [answers_of_remembered about, answers_of_remembered about]
      | job other =>
        have apart : (other == number) = false := by
          refine beq_eq_false_iff_ne.mpr ?_
          rintro rfl
          exact due about
        have same : ticket.answer? (resolved ++ [(number, ending)]) = ticket.answer? resolved := by
          have waitsOn : List.lookup other (resolved ++ [(number, ending)]) =
              resolved.lookup other := by
            rw [List.lookup_append, List.lookup_cons, apart]
            exact Option.or_none
          unfold answer?
          rw [about]
          exact congrArg (Option.map _) waitsOn
        simp only [answers, List.filterMap_cons, List.filterMap_nil, same]

end Ticket

/-- What a drain has yet to tell. -/
def Drain.owed {κ : Type} : Drain κ → List (κ × Outcome)
  | delivering outcome callback rest => (callback :: rest).map (·, outcome)
  | _ => []

@[simp] theorem Drain.owed_deliver {κ : Type} (outcome : Outcome) (callbacks : List κ) :
    (Drain.deliver outcome callbacks).owed = callbacks.map (·, outcome) := by
  cases callbacks <;> rfl

/-! ## Joining a job -/

namespace Queue

variable {κ : Type} {queue : Queue κ} {key : String} {callback : κ}

theorem joinPending_eq_none_iff {jobs : List (Job κ)} :
    joinPending key callback jobs = none ↔ ∀ job ∈ jobs, job.key ≠ key := by
  induction jobs with
  | nil => simp [joinPending]
  | cons job rest ih =>
    unfold joinPending
    split
    · rename_i same
      simp [same]
    · rename_i apart
      simp [ih, apart]

theorem join?_of_flight {flight : Flight κ} (rendering : queue.flight = some flight)
    (same : flight.key = key) :
    queue.join? key callback = some { queue with
      flight := some { flight with callbacks := flight.callbacks ++ [callback] } } := by
  unfold join?
  simp only [rendering, if_pos same]

theorem join?_of_apart (apart : ∀ flight, queue.flight = some flight → flight.key ≠ key) :
    queue.join? key callback =
      (joinPending key callback queue.pending).map fun pending => { queue with pending } := by
  unfold join?
  cases rendering : queue.flight with
  | none => rfl
  | some flight => simp only [if_neg (apart flight rendering)]

end Queue

theorem lookup_labels_eq_none {κ : Type} {key : String} {jobs : List (Job κ)}
    (apart : ∀ job ∈ jobs, job.key ≠ key) : (jobs.map Job.label).lookup key = none := by
  refine List.lookup_eq_none_iff.mpr ?_
  intro label member
  obtain ⟨job, inside, rfl⟩ := List.mem_map.mp member
  exact bne_iff_ne.mpr (apart job inside).symm

namespace Machine

variable {κ φ σ : Type}

/-- The job that a request for a key waits for: with coalescing one that is there for the
    key, and else a new one. -/
def jobFor (studio : Studio φ σ) (key : String) (machine : Machine κ φ σ) : Nat :=
  (if studio.config.coalesceDuplicates then machine.unresolved.lookup key else none).getD
    machine.queue.enqueued

/-- The ticket that a request gets, unless it is refused. -/
def ticket? (studio : Studio φ σ) (turn : Turn κ φ σ) : Option (Ticket κ) :=
  match turn.action with
  | .request key _ callback =>
    if turn.machine.queue.disposed then none
    else some ⟨key, callback, match turn.machine.queue.cached? key with
      | some outcome => .remembered outcome
      | none => .job (turn.machine.jobFor studio key)⟩
  | _ => none

/-- A ticket is given to a client whose request is accepted. -/
theorem ticket?_cases {studio : Studio φ σ} {turn : Turn κ φ σ} {ticket : Ticket κ}
    (gives : ticket? studio turn = some ticket) :
    turn.machine.queue.disposed = false ∧
      (∃ passes, turn.action = .request ticket.key passes ticket.callback) ∧
      ((∃ outcome, turn.machine.queue.cached? ticket.key = some outcome ∧
          ticket.due = .remembered outcome) ∨
        turn.machine.queue.cached? ticket.key = none ∧
          ticket.due = .job (turn.machine.jobFor studio ticket.key)) := by
  obtain ⟨machine, action, events⟩ := turn
  cases action with
  | request key passes callback =>
    simp only [ticket?] at gives
    split at gives
    · cases gives
    · rename_i live
      cases gives
      refine ⟨Bool.not_eq_true _ ▸ live, ⟨passes, rfl⟩, ?_⟩
      cases cached : machine.queue.cached? key with
      | some outcome => exact .inl ⟨outcome, rfl, rfl⟩
      | none => exact .inr ⟨rfl, rfl⟩
  | _ => cases gives

/-- All that clients have yet to be told. -/
def owed (machine : Machine κ φ σ) : Multiset (κ × Outcome) :=
  (machine.hits : List (κ × Outcome)) + (machine.drains.flatMap Drain.owed : List (κ × Outcome))

end Machine

namespace History

variable {κ φ σ : Type}

/-- The tickets of all clients whose requests were accepted. -/
def tickets (studio : Studio φ σ) (past : History κ φ σ) : List (Ticket κ) :=
  past.filterMap (Machine.ticket? studio)

theorem tickets_append (studio : Studio φ σ) (past more : History κ φ σ) :
    tickets studio (past ++ more) = past.tickets studio ++ more.tickets studio :=
  List.filterMap_append

end History

namespace Machine

variable {κ φ σ : Type} {studio : Studio φ σ} {machine next : Machine κ φ σ}
  {action : Action κ} {events : List (Event κ)} {past : History κ φ σ}
  {actions : List (Action κ)} {factory : φ}

/-- Every ticket is for a job of its key, a job carries the callbacks of those who hold
    tickets for it, and what clients were told or are about to be told is what is due. -/
structure Served (studio : Studio φ σ) (past : History κ φ σ) (machine : Machine κ φ σ) :
    Prop where
  known : ∀ ticket ∈ past.tickets studio, ∀ number, ticket.due = .job number →
    past.keys[number]? = some ticket.key
  pending : ∀ job ∈ machine.queue.pending,
    Ticket.holders job.number (past.tickets studio) = job.callbacks
  flight : machine.queue.disposed = false → ∀ (index number : Nat) (key : String)
    (worker : Option Nat), machine.drains[index]? = some (.awaiting number key worker) →
    machine.queue.flight = some ⟨key, Ticket.holders number (past.tickets studio)⟩
  told : (Event.answers past.events : Multiset (κ × Outcome)) + machine.owed =
    Ticket.answers past.resolved (past.tickets studio)

theorem served_start (studio : Studio φ σ) (factory : φ) :
    Served studio [] (start factory : Machine κ φ σ) where
  known := by
    intro ticket member
    cases member
  pending := by
    intro job member
    cases member
  flight := by
    intro _ index number key worker here
    cases here
  told := rfl

/-- A step that gives out no ticket and resolves no job. Those who wait stay where they are,
    and who is told something was to be told it. -/
theorem Served.quiet (served : Served studio past machine)
    (noTicket : ticket? studio ⟨machine, action, events⟩ = none)
    (noEnd : Event.resolvedJobs events = [])
    (pending : ∀ job ∈ next.queue.pending, job ∈ machine.queue.pending)
    (flight : next.queue.disposed = false → ∀ (index number : Nat) (key : String)
      (worker : Option Nat), next.drains[index]? = some (.awaiting number key worker) →
      next.queue.flight = some ⟨key, Ticket.holders number (past.tickets studio)⟩)
    (told : (Event.answers events : Multiset (κ × Outcome)) + next.owed = machine.owed) :
    Served studio (past ++ [⟨machine, action, events⟩]) next := by
  have tickets : History.tickets studio (past ++ [⟨machine, action, events⟩]) =
      past.tickets studio := by
    rw [History.tickets_append]
    simp [History.tickets, noTicket]
  have resolved : History.resolved (past ++ [⟨machine, action, events⟩]) = past.resolved := by
    rw [History.resolved_append]
    simp [History.resolved, noEnd]
  constructor
  · rw [tickets]
    intro ticket member number due
    rw [History.keys_append]
    exact History.getElem?_append (served.known ticket member number due) _
  · rw [tickets]
    intro job member
    exact served.pending job (pending job member)
  · rwa [tickets]
  · rw [tickets, resolved, ← served.told, ← told, History.events_append, Event.answers_append,
      ← Multiset.coe_add, History.events_singleton, add_assoc]

/-- A step that gives out a ticket. -/
theorem Served.admit (served : Served studio past machine) {ticket : Ticket κ}
    (gives : ticket? studio ⟨machine, action, events⟩ = some ticket)
    (noAnswer : Event.answers events = []) (noEnd : Event.resolvedJobs events = [])
    (known : ∀ number, ticket.due = .job number →
      (past.keys ++ enqueuedKey action events)[number]? = some ticket.key)
    (pending : ∀ job ∈ next.queue.pending,
      Ticket.holders job.number (past.tickets studio ++ [ticket]) = job.callbacks)
    (flight : next.queue.disposed = false → ∀ (index number : Nat) (key : String)
      (worker : Option Nat), next.drains[index]? = some (.awaiting number key worker) →
      next.queue.flight = some ⟨key, Ticket.holders number (past.tickets studio ++ [ticket])⟩)
    (owed : next.owed = machine.owed + Ticket.answers past.resolved [ticket]) :
    Served studio (past ++ [⟨machine, action, events⟩]) next := by
  have tickets : History.tickets studio (past ++ [⟨machine, action, events⟩]) =
      past.tickets studio ++ [ticket] := by
    rw [History.tickets_append]
    simp [History.tickets, gives]
  have resolved : History.resolved (past ++ [⟨machine, action, events⟩]) = past.resolved := by
    rw [History.resolved_append]
    simp [History.resolved, noEnd]
  refine ⟨?_, ?_, ?_, ?_⟩
  · rw [tickets, History.keys_append, History.keys_singleton]
    intro other member number due
    rcases List.mem_append.mp member with earlier | here
    · exact History.getElem?_append (served.known other earlier number due) _
    · cases List.mem_singleton.mp here
      exact known number due
  · rwa [tickets]
  · rwa [tickets]
  · rw [tickets, resolved, Ticket.answers_append, ← served.told, owed, History.events_append,
      Event.answers_append, History.events_singleton, noAnswer, List.append_nil, add_assoc]

theorem JobEnds.ticket?_eq_none {drain number : Nat} {worker : Option Nat} {ending : Ending}
    (ends : JobEnds studio machine drain number worker action ending) (before : Machine κ φ σ)
    (events : List (Event κ)) : ticket? studio ⟨before, action, events⟩ = none := by
  cases ends <;> rfl

/-- No ticket is for a job that is yet to be enqueued. -/
theorem Served.holders_eq_nil (served : Served studio past machine) (regular : Regular past machine)
    {number : Nat} (later : machine.queue.enqueued ≤ number) :
    Ticket.holders number (past.tickets studio) = [] := by
  refine Ticket.holders_eq_nil ?_
  intro ticket member due
  have inside := (List.getElem?_eq_some_iff.mp (served.known ticket member number due)).1
  have count := regular.ordered.count
  omega

/-! ## Requests -/

section Admission

variable {key : String} {passes : List PassSource} {callback : κ} {number : Nat}

theorem ticket?_of_hit (live : machine.queue.disposed = false) {outcome : Outcome}
    (cached : machine.queue.cached? key = some outcome) (events : List (Event κ)) :
    ticket? studio ⟨machine, .request key passes callback, events⟩ =
      some ⟨key, callback, .remembered outcome⟩ := by
  simp [ticket?, live, cached]

theorem ticket?_of_miss (live : machine.queue.disposed = false)
    (missing : machine.queue.cached? key = none) (waitsFor : machine.jobFor studio key = number)
    (events : List (Event κ)) :
    ticket? studio ⟨machine, .request key passes callback, events⟩ =
      some ⟨key, callback, .job number⟩ := by
  simp [ticket?, live, missing, waitsFor]

/-- The job in hand is in flight, with those who wait for it. -/
theorem Served.awaiting_of_flight (served : Served studio past machine) (orderly : machine.Orderly)
    (live : machine.queue.disposed = false) {flight : Flight κ}
    (rendering : machine.queue.flight = some flight) :
    ∃ number worker, machine.drains = [.awaiting number flight.key worker] ∧
      flight.callbacks = Ticket.holders number (past.tickets studio) := by
  obtain ⟨number, key, worker, drains⟩ := orderly.waits (by rw [rendering]; rfl)
  have same := served.flight live 0 number key worker (by rw [drains]; rfl)
  rw [rendering, Option.some.injEq] at same
  cases same
  exact ⟨number, worker, drains, rfl⟩

/-- A job in hand that is not for this key makes no difference to who joins which job. -/
theorem Served.jobFor_of_apart (served : Served studio past machine)
    (live : machine.queue.disposed = false)
    (coalesces : studio.config.coalesceDuplicates = true)
    (apart : ∀ flight, machine.queue.flight = some flight → flight.key ≠ key) :
    machine.jobFor studio key =
      ((machine.queue.pending.map Job.label).lookup key).getD machine.queue.enqueued := by
  have others : machine.inHand.lookup key = none := by
    refine List.lookup_eq_none_iff.mpr ?_
    rintro ⟨other, number⟩ member
    obtain ⟨drain, inside, awaits⟩ := List.mem_filterMap.mp member
    obtain ⟨index, here⟩ := List.mem_iff_getElem?.mp inside
    cases drain with
    | awaiting number key worker =>
      cases awaits
      exact bne_iff_ne.mpr (apart _ (served.flight live index _ _ _ here)).symm
    | _ => cases awaits
  rw [jobFor, if_pos coalesces, unresolved, List.lookup_append, others, Option.none_or]

/-- A request that joins no job gets a new one. -/
theorem Served.jobFor_of_enqueued (served : Served studio past machine)
    (live : machine.queue.disposed = false)
    (apart : studio.config.coalesceDuplicates = true →
      machine.queue.join? key callback = none) :
    machine.jobFor studio key = machine.queue.enqueued := by
  cases coalesces : studio.config.coalesceDuplicates with
  | false => simp [jobFor, coalesces]
  | true =>
    have nobody := apart coalesces
    have another : ∀ flight, machine.queue.flight = some flight → flight.key ≠ key := by
      intro flight rendering same
      rw [Queue.join?_of_flight rendering same] at nobody
      cases nobody
    rw [Queue.join?_of_apart another, Option.map_eq_none_iff,
      Queue.joinPending_eq_none_iff] at nobody
    rw [served.jobFor_of_apart live coalesces another, lookup_labels_eq_none nobody,
      Option.getD_none]

theorem Served.hit (served : Served studio past machine) (live : machine.queue.disposed = false)
    {outcome : Outcome} (cached : machine.queue.cached? key = some outcome) :
    Served studio (past ++ [⟨machine, .request key passes callback, []⟩])
      { machine with hits := machine.hits ++ [(callback, outcome)] } := by
  refine served.admit (ticket?_of_hit live cached []) rfl rfl ?_ ?_ ?_ ?_
  · intro number due
    cases due
  · intro job member
    rw [Ticket.holders_append, Ticket.holders_of_ne (by simp), List.append_nil]
    exact served.pending job member
  · intro _ index number key worker here
    rw [Ticket.holders_append, Ticket.holders_of_ne (by simp), List.append_nil]
    exact served.flight live index number key worker here
  · rw [Ticket.answers_of_remembered rfl]
    simp only [Machine.owed, ← Multiset.coe_add, Multiset.coe_singleton]
    abel

theorem Served.enqueue (served : Served studio past machine) (regular : Regular past machine)
    (live : machine.queue.disposed = false) (missing : machine.queue.cached? key = none)
    (apart : studio.config.coalesceDuplicates = true →
      machine.queue.join? key callback = none) :
    Served studio (past ++
        [⟨machine, .request key passes callback, [.enqueued machine.queue.enqueued]⟩])
      { machine with
        queue := machine.queue.enqueue key passes callback
        arriving := machine.arriving + 1 } := by
  have waitsFor : machine.jobFor studio key = machine.queue.enqueued :=
    served.jobFor_of_enqueued live apart
  have earlier : ∀ job ∈ machine.queue.pending, job.number ≠ machine.queue.enqueued := by
    intro job member same
    have label : (job.key, job.number) ∈ machine.unresolved :=
      List.mem_append_right _ (List.mem_map_of_mem member)
    obtain ⟨-, found⟩ := regular.of_mem_unresolved live label
    have inside := (List.getElem?_eq_some_iff.mp found).1
    have count := regular.ordered.count
    omega
  have count := regular.ordered.count
  have bounds := regular.ordered.bounds
  refine served.admit (ticket?_of_miss live missing waitsFor _) rfl rfl ?_ ?_ ?_ ?_
  · rintro number ⟨rfl⟩
    rw [count]
    exact List.getElem?_concat_length
  · intro job member
    rw [Ticket.holders_append]
    rcases List.mem_append.mp member with earlierJob | newest
    · rw [Ticket.holders_of_ne (by simpa using (earlier job earlierJob).symm), List.append_nil]
      exact served.pending job earlierJob
    · cases List.mem_singleton.mp newest
      rw [served.holders_eq_nil regular (Nat.le_refl _), Ticket.holders_of_due rfl]
      rfl
  · intro _ index number key worker here
    have first := (regular.number_of_awaiting live here).2
    have inside := (List.getElem?_eq_some_iff.mp first).1
    rw [Ticket.holders_append, Ticket.holders_of_ne (by simp; omega), List.append_nil]
    exact served.flight live index number key worker here
  · rw [Ticket.answers_of_unresolved rfl (regular.lookup_eq_none (by omega)), add_zero]
    rfl

theorem Served.joinFlight (served : Served studio past machine) (regular : Regular past machine)
    (live : machine.queue.disposed = false) (missing : machine.queue.cached? key = none)
    (coalesces : studio.config.coalesceDuplicates = true) {flight : Flight κ}
    (rendering : machine.queue.flight = some flight) (same : flight.key = key) :
    Served studio (past ++ [⟨machine, .request key passes callback, []⟩])
      { machine with
        queue := { machine.queue with
          flight := some { flight with callbacks := flight.callbacks ++ [callback] } }
        arriving := machine.arriving + 1 } := by
  obtain ⟨number, worker, drains, holders⟩ :=
    served.awaiting_of_flight regular.orderly live rendering
  subst same
  have busy : machine.inHand = [(flight.key, number)] := by
    rw [inHand, drains]
    rfl
  have waitsFor : machine.jobFor studio flight.key = number := by
    simp [jobFor, coalesces, unresolved, busy]
  have here : machine.drains[0]? = some (.awaiting number flight.key worker) := by
    rw [drains]
    rfl
  obtain ⟨turn, found⟩ := regular.number_of_awaiting live here
  have distinct := regular.nodup_unresolved live
  rw [unresolved, busy, List.map_append, List.map_singleton, List.singleton_append,
    List.nodup_cons] at distinct
  refine served.admit (ticket?_of_miss live missing waitsFor _) rfl rfl ?_ ?_ ?_ ?_
  · rintro number ⟨rfl⟩
    exact History.getElem?_append found _
  · intro job member
    have apart : number ≠ job.number := by
      rintro rfl
      exact distinct.1 (by simpa [Job.label] using ⟨job, member, rfl⟩)
    rw [Ticket.holders_append, Ticket.holders_of_ne (by simpa using apart), List.append_nil]
    exact served.pending job member
  · intro _ index other key worker there
    obtain ⟨-, alone, -⟩ := regular.orderly.only there
    rw [drains, List.singleton_inj] at alone
    cases alone
    rw [Ticket.holders_append, Ticket.holders_of_due rfl, holders]
  · rw [Ticket.answers_of_unresolved rfl (regular.lookup_eq_none (by omega)), add_zero]
    rfl

theorem Served.joinPending (served : Served studio past machine) (regular : Regular past machine)
    (live : machine.queue.disposed = false) (missing : machine.queue.cached? key = none)
    (coalesces : studio.config.coalesceDuplicates = true)
    (apart : ∀ flight, machine.queue.flight = some flight → flight.key ≠ key)
    {pending : List (Job κ)}
    (joins : Queue.joinPending key callback machine.queue.pending = some pending) :
    Served studio (past ++ [⟨machine, .request key passes callback, []⟩])
      { machine with
        queue := { machine.queue with pending }
        arriving := machine.arriving + 1 } := by
  obtain ⟨front, job, back, waiting, rfl, first, rfl⟩ := Queue.joinPending_eq_some joins
  have waitsFor : machine.jobFor studio job.key = job.number := by
    rw [served.jobFor_of_apart live coalesces apart, waiting, List.map_append,
      List.lookup_append, lookup_labels_eq_none first]
    simp [Job.label]
  have label : (job.key, job.number) ∈ machine.unresolved := by
    refine List.mem_append_right _ (List.mem_map_of_mem (f := Job.label) ?_)
    simp [waiting]
  obtain ⟨later, found⟩ := regular.of_mem_unresolved live label
  obtain ⟨others, inHandApart⟩ := regular.apart_of_pending live waiting
  have joined : Ticket.holders job.number [⟨job.key, callback, .job job.number⟩] = [callback] :=
    Ticket.holders_of_due rfl
  refine served.admit (ticket?_of_miss live missing waitsFor _) rfl rfl ?_ ?_ ?_ ?_
  · rintro number ⟨rfl⟩
    exact History.getElem?_append found _
  · intro other member
    rw [Ticket.holders_append]
    have kept : other ∈ front ∨ other ∈ back → Ticket.holders other.number
        (past.tickets studio) ++ Ticket.holders other.number
          [⟨job.key, callback, .job job.number⟩] = other.callbacks := by
      intro elsewhere
      rw [Ticket.holders_of_ne (by simpa using others other elsewhere), List.append_nil]
      refine served.pending other ?_
      rw [waiting]
      rcases elsewhere with before | after
      · exact List.mem_append_left _ before
      · exact List.mem_append_right _ (List.mem_cons_of_mem _ after)
    rcases List.mem_append.mp member with before | member
    · exact kept (.inl before)
    · rcases List.mem_cons.mp member with rfl | after
      · rw [joined, served.pending job (by simp [waiting])]
      · exact kept (.inr after)
  · intro _ index number key worker there
    have apart : job.number ≠ number := inHandApart (key, number)
      (List.mem_filterMap.mpr ⟨_, List.mem_of_getElem? there, rfl⟩)
    rw [Ticket.holders_append, Ticket.holders_of_ne (by simpa using apart), List.append_nil]
    exact served.flight live index number key worker there
  · rw [Ticket.answers_of_unresolved rfl (regular.lookup_eq_none later), add_zero]
    rfl

end Admission

/-! ## The drain -/

/-- The job that a drain takes goes into flight with those who wait for it. -/
theorem Served.take (served : Served studio past machine) (orderly : machine.Orderly)
    {drain : Nat} {job : Job κ} {pending : List (Job κ)} {inUse worker : Option Nat}
    {workers : List (Worker σ)} (here : machine.drains[drain]? = some .free)
    (waits : machine.queue.pending = job :: pending) :
    Served studio (past ++ [⟨machine, .beginRound drain, [.started job.number]⟩])
      { machine with
        queue := { machine.queue with
          pending, flight := some ⟨job.key, job.callbacks⟩, worker := inUse }
        workers
        drains := machine.drains.set drain (.awaiting job.number job.key worker) } := by
  obtain ⟨rfl, drains, -⟩ := orderly.only here
  refine served.quiet rfl rfl ?_ ?_ ?_
  · intro other member
    rw [waits]
    exact List.mem_cons_of_mem _ member
  · intro _ index number key worker there
    rw [drains, List.set_cons_zero] at there
    cases List.mem_singleton.mp (List.mem_of_getElem? there)
    rw [served.pending job (by simp [waits])]
  · simp only [Machine.owed, drains]
    rfl

/-- Those who wait for the job that is resolved are told how it ended. -/
theorem Served.resolve (served : Served studio past machine) (regular : Regular past machine)
    {drain number : Nat} {key : String} {worker : Option Nat} {ending : Ending}
    (here : machine.drains[drain]? = some (.awaiting number key worker))
    (ends : JobEnds studio machine drain number worker action ending)
    (live : machine.queue.disposed = false) :
    Served studio (past ++ [⟨machine, action, [.resolved number ending]⟩])
      { machine with
        queue := { machine.queue.record key ending with flight := none }
        drains := machine.drains.set drain
          (.deliver ending.outcome ((machine.queue.flight.map (·.callbacks)).getD [])) } := by
  obtain ⟨rfl, drains, -⟩ := regular.orderly.only here
  have tickets : History.tickets studio
      (past ++ [⟨machine, action, [.resolved number ending]⟩]) = past.tickets studio := by
    rw [History.tickets_append]
    simp [History.tickets, ends.ticket?_eq_none]
  have resolved : History.resolved (past ++ [⟨machine, action, [.resolved number ending]⟩]) =
      past.resolved ++ [(number, ending)] :=
    History.resolved_append _ _
  have waits : past.resolved.lookup number = none := regular.lookup_eq_none
    (Nat.le_of_eq (regular.number_of_awaiting live here).1.symm)
  refine ⟨?_, ?_, ?_, ?_⟩
  · rw [tickets, History.keys_append]
    intro ticket member number due
    exact History.getElem?_append (served.known ticket member number due) _
  · rw [tickets]
    intro job member
    exact served.pending job (by simpa using member)
  · intro _ index other key worker there
    rw [drains, List.set_cons_zero] at there
    exact absurd there (Drain.getElem?_deliver_ne_awaiting _ _)
  · rw [tickets, resolved, Ticket.answers_resolve waits, ← served.told, History.events_append,
      Event.answers_append]
    have answers : Event.answers (History.events
        [⟨machine, action, [.resolved number ending]⟩]) = [] := rfl
    simp only [answers, List.append_nil, Machine.owed, drains, List.set_cons_zero,
      List.flatMap_singleton, Drain.owed_deliver, served.flight live 0 number key worker here]
    show _ = _ + (_ + (0 : Multiset (κ × Outcome))) + _
    rw [add_zero, add_assoc]
    rfl

/-- The step that calls somebody back. -/
theorem Served.callBack (served : Served studio past machine) (orderly : machine.Orderly)
    {drain : Nat} {outcome : Outcome} {callback : κ} {rest : List κ} {returned : Foreign Unit}
    (here : machine.drains[drain]? = some (.delivering outcome callback rest))
    (noEnd : Event.resolvedJobs events = [])
    (answers : Event.answers events = [(callback, outcome)]) :
    Served studio (past ++ [⟨machine, .callBack drain returned, events⟩])
      { machine with drains := machine.drains.set drain (.deliver outcome rest) } := by
  obtain ⟨rfl, drains, -⟩ := orderly.only here
  refine served.quiet rfl noEnd (fun _ => id) ?_ ?_
  · intro _ index other key worker there
    rw [drains, List.set_cons_zero] at there
    exact absurd there (Drain.getElem?_deliver_ne_awaiting _ _)
  · have first : ((Drain.delivering outcome callback rest).owed : Multiset (κ × Outcome)) =
        {(callback, outcome)} + (rest.map (·, outcome) : List (κ × Outcome)) := rfl
    simp only [answers, Machine.owed, drains, List.set_cons_zero, List.flatMap_singleton,
      Drain.owed_deliver, first, Multiset.coe_singleton]
    abel

/-- No step breaks what the clients are due. -/
theorem Served.transition (served : Served studio past machine) (regular : Regular past machine)
    (steps : Transition studio machine action next events) :
    Served studio (past ++ [⟨machine, action, events⟩]) next := by
  have orderly := regular.orderly
  cases steps with
  | refused disposed =>
    exact served.quiet (by simp [ticket?, disposed]) rfl (fun _ => id) served.flight (zero_add _)
  | hit live cached => exact served.hit live cached
  | joined live missing coalesces joins =>
    rename_i key passes callback queue
    by_cases flies : ∃ flight, machine.queue.flight = some flight ∧ flight.key = key
    · obtain ⟨flight, rendering, same⟩ := flies
      rw [Queue.join?_of_flight rendering same, Option.some.injEq] at joins
      rw [← joins]
      exact served.joinFlight regular live missing coalesces rendering same
    · have apart : ∀ flight, machine.queue.flight = some flight → flight.key ≠ key :=
        fun flight rendering same => flies ⟨flight, rendering, same⟩
      rw [Queue.join?_of_apart apart] at joins
      obtain ⟨pending, joinsWaiting, rfl⟩ := Option.map_eq_some_iff.mp joins
      exact served.joinPending regular live missing coalesces apart joinsWaiting
  | enqueued live missing apart => exact served.enqueue regular live missing apart
  | drainNotNeeded _ _ | takenUp _ _ | rendered _ _ | lost _ | disposedBefore _ =>
    exact served.quiet rfl rfl (fun _ => id) served.flight (zero_add _)
  | drainStarted _ free _ =>
    have drains := (orderly.idle free).1
    refine served.quiet rfl rfl (fun _ => id) ?_ ?_
    · intro _ index number key worker here
      simp only [drains, List.nil_append] at here
      cases List.mem_singleton.mp (List.mem_of_getElem? here)
    · simp only [Machine.owed, drains]
      exact zero_add _
  | hitAnswered here =>
    refine served.quiet rfl rfl (fun _ => id) served.flight ?_
    obtain ⟨inside, found⟩ := List.getElem?_eq_some_iff.mp here
    have removed := Multiset.coe_eq_coe.mpr (List.getElem_cons_eraseIdx_perm inside).symm
    rw [found, ← Multiset.cons_coe, ← Multiset.singleton_add] at removed
    simp only [Machine.owed, removed, Event.answers, List.filterMap_cons, List.filterMap_nil,
      Event.answer?, Multiset.coe_singleton]
    abel
  | drainEnded here _ =>
    obtain ⟨rfl, drains, -⟩ := orderly.only here
    refine served.quiet rfl rfl (fun _ => id) ?_ ?_
    · intro _ index number key worker there
      rw [drains] at there
      cases there
    · simp only [Machine.owed, drains]
      exact zero_add _
  | jobTaken here _ waits _ => exact served.take orderly here waits
  | resolved here ends live => exact served.resolve regular here ends live
  | cutShort here ends disposed =>
    obtain ⟨rfl, drains, -⟩ := orderly.only here
    refine served.quiet (ends.ticket?_eq_none _ _) rfl (fun _ => id) ?_ ?_
    · intro live
      exact absurd (disposed.symm.trans live) (by simp)
    · simp only [Machine.owed, drains]
      exact zero_add _
  | calledBack here _ => exact served.callBack orderly here rfl rfl
  | panicked here _ => exact served.callBack orderly here rfl rfl
  | disposed live =>
    rw [Queue.dispose_of_live live]
    refine served.quiet rfl ?_ ?_ ?_ ?_
    · exact (Event.tells_dropped _).resolvedJobs
    · intro job member
      cases member
    · intro still
      cases still
    · have silent : Event.answers (machine.queue.waiting.map Event.dropped) = [] := by
        refine List.filterMap_eq_nil_iff.mpr ?_
        intro event member
        obtain ⟨callback, -, rfl⟩ := List.mem_map.mp member
        rfl
      rw [silent]
      exact zero_add _

/-- Whoever got a ticket is told what is due for it, or has yet to be told; and nobody is
    told anything else. -/
theorem served_history (runs : run studio actions (start factory) = some (machine, events)) :
    Served studio (history studio actions (start factory)) machine :=
  history_induction (Served studio) (served_start studio factory)
    (fun regular served => served.transition regular) runs

end Machine

end Multipass
