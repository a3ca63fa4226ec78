import Multipass.Queue.Worker

/-!
# The threads around the queue

Clients make requests, a drain takes the jobs off the queue, and workers render them. Each
of them holds the queue for a moment only, so what they do comes in steps, and the steps of
different threads can come in any order. An action names one such step.

Callbacks run outside of the queue: those for a cached outcome on the thread that made the
request, all others on the drain, where a panic is contained.
-/

namespace Multipass

/-- What a drain does: it is between two rounds, it waits for a job that it handed to a
    worker, or it calls back those who waited for a job. -/
inductive Drain (κ : Type) where
  | free
  | awaiting (number : Nat) (key : String) (worker : Option Nat)
  | delivering (outcome : Outcome) (callback : κ) (rest : List κ)

/-- Call back a list of clients. -/
def Drain.deliver {κ : Type} (outcome : Outcome) : List κ → Drain κ
  | [] => free
  | callback :: rest => delivering outcome callback rest

/-- The queue and every thread that has to do with it, as a machine that takes steps.
    `arriving` counts the requests that wait but whose client has yet to see to the drain,
    `hits` are the requests that have yet to be called back with a cached outcome, and
    `posted` are the replies of the workers. -/
structure Machine (κ φ σ : Type) where
  queue : Queue κ
  arriving : Nat
  hits : List (κ × Outcome)
  drains : List (Drain κ)
  workers : List (Worker σ)
  posted : List Posted
  factory : φ

/-- A step of some thread. Drains, workers and hits are named by their place. What a thread
    meets with from outside comes with its step: what the clock says while a worker renders,
    and whether a callback returns. -/
inductive Action (κ : Type) where
  | request (key : String) (passes : List PassSource) (callback : κ)
  | startDrain
  | answerHit (hit : Nat)
  | beginRound (drain : Nat)
  | takeUp (worker : Nat)
  | render (worker : Nat) (now : Moment)
  | lose (worker : Nat)
  | finish (drain : Nat)
  | timeOut (drain : Nat)
  | abandon (drain : Nat)
  | callBack (drain : Nat) (returned : Foreign Unit)
  | dispose

/-- What can be told about a step from outside. -/
inductive Event (κ : Type) where
  | enqueued (number : Nat)
  | started (number : Nat)
  | takenUp (number : Nat) (how : Worker.TakeUp)
  | resolved (number : Nat) (ending : Ending)
  | answered (callback : κ) (outcome : Outcome)
  | contained (callback : κ) (message : String)
  | dropped (callback : κ)

namespace Machine

variable {κ φ σ : Type}

/-- The machine with a queue that nobody has used. -/
def start (factory : φ) : Machine κ φ σ :=
  ⟨.empty, 0, [], [], [], [], factory⟩

/-- The machine after a step, and what can be told about the step. -/
abbrev Outlook (κ φ σ : Type) := Machine κ φ σ × List (Event κ)

/-- A client makes a request. -/
def request (studio : Studio φ σ) (key : String) (passes : List PassSource) (callback : κ)
    (machine : Machine κ φ σ) : Outlook κ φ σ :=
  let (queue, admission) :=
    machine.queue.request studio.config.coalesceDuplicates key passes callback
  match admission with
  | .refused => (machine, [])
  | .cached outcome => ({ machine with hits := machine.hits ++ [(callback, outcome)] }, [])
  | .joined => ({ machine with queue, arriving := machine.arriving + 1 }, [])
  | .enqueued number =>
    ({ machine with queue, arriving := machine.arriving + 1 }, [.enqueued number])

/-- A client whose request waits sees to it that there is a drain. -/
def startDrain (machine : Machine κ φ σ) : Option (Outlook κ φ σ) :=
  match machine.arriving with
  | 0 => none
  | arriving + 1 =>
    let (queue, starts) := machine.queue.startDrain
    let drains := if starts then machine.drains ++ [.free] else machine.drains
    some ({ machine with queue, arriving, drains }, [])

/-- A client is called back with a cached outcome. Its panic would be its own. -/
def answerHit (hit : Nat) (machine : Machine κ φ σ) : Option (Outlook κ φ σ) :=
  match machine.hits[hit]? with
  | some (callback, outcome) =>
    some ({ machine with hits := machine.hits.eraseIdx hit }, [.answered callback outcome])
  | none => none

/-- Hand a task to the worker in use, or to a new one. Without a factory no worker can be
    started, and nobody takes the task. -/
def assign (task : RenderTask) (machine : Machine κ φ σ) : Machine κ φ σ × Option Nat :=
  match machine.queue.worker with
  | some worker =>
    ({ machine with workers := machine.workers.modify worker (·.send task) }, some worker)
  | none =>
    if machine.queue.hasFactory then
      let worker := machine.workers.length
      ({ machine with
        queue := { machine.queue with worker := some worker }
        workers := machine.workers ++ [.start task] }, some worker)
    else (machine, none)

/-- A drain that is free takes the next job, or ends when there is none. -/
def beginRound (drain : Nat) (machine : Machine κ φ σ) : Option (Outlook κ φ σ) :=
  match machine.drains[drain]? with
  | some .free =>
    match machine.queue.takeJob with
    | (queue, none) =>
      some ({ machine with queue, drains := machine.drains.eraseIdx drain }, [])
    | (queue, some job) =>
      let (machine, worker) := assign ⟨job.number, job.passes⟩ { machine with queue }
      let drains := machine.drains.set drain (.awaiting job.number job.key worker)
      some ({ machine with drains }, [.started job.number])
  | _ => none

/-- A worker takes up its next task. -/
def takeUp (studio : Studio φ σ) (worker : Nat) (machine : Machine κ φ σ) :
    Option (Outlook κ φ σ) := do
  let owner ← machine.workers[worker]?
  let (owner, factory, task, how) ← owner.takeUp studio machine.factory
  let posted :=
    if how = .refused then machine.posted ++ [⟨task.number, none⟩] else machine.posted
  let workers := machine.workers.set worker owner
  return ({ machine with workers, factory, posted }, [.takenUp task.number how])

/-- A worker renders its task and posts the reply. -/
def render (studio : Studio φ σ) (worker : Nat) (now : Moment) (machine : Machine κ φ σ) :
    Option (Outlook κ φ σ) := do
  let owner ← machine.workers[worker]?
  let (owner, reply) ← owner.render studio now
  let workers := machine.workers.set worker owner
  return ({ machine with workers, posted := machine.posted ++ [reply] }, [])

/-- The thread of a worker ends. -/
def lose (worker : Nat) (machine : Machine κ φ σ) : Option (Outlook κ φ σ) :=
  match machine.workers[worker]? with
  | some owner => some ({ machine with workers := machine.workers.set worker owner.lose }, [])
  | none => none

/-- The reply to a job, if there is one. -/
def reply? (machine : Machine κ φ σ) (number : Nat) : Option Outcome :=
  (machine.posted.find? (·.number == number)).map (·.outcome)

/-- Nobody will reply to a job that was handed to this worker. -/
def isUnreachable (machine : Machine κ φ σ) : Option Nat → Bool
  | none => true
  | some worker => (machine.workers[worker]?.map (·.isGone)).getD true

/-- The end of a round: the job that a drain waits for is resolved. -/
def endRound (drain number : Nat) (key : String) (ending : Ending) (machine : Machine κ φ σ) :
    Outlook κ φ σ :=
  match machine.queue.resolve key ending with
  | (queue, none) => ({ machine with queue, drains := machine.drains.eraseIdx drain }, [])
  | (queue, some callbacks) =>
    let drains := machine.drains.set drain (.deliver ending.outcome callbacks)
    ({ machine with queue, drains }, [.resolved number ending])

/-- A drain finds the reply to its job. -/
def finish (drain : Nat) (machine : Machine κ φ σ) : Option (Outlook κ φ σ) :=
  match machine.drains[drain]? with
  | some (.awaiting number key _) =>
    (machine.reply? number).map fun outcome =>
      endRound drain number key (.finished outcome) machine
  | _ => none

/-- A drain has waited for its job as long as the configuration allows. -/
def timeOut (studio : Studio φ σ) (drain : Nat) (machine : Machine κ φ σ) :
    Option (Outlook κ φ σ) :=
  match machine.drains[drain]? with
  | some (.awaiting number key _) =>
    if studio.config.renderTimeout.isSome then
      some (endRound drain number key .timedOut machine)
    else none
  | _ => none

/-- A drain learns that nobody will reply to its job. -/
def abandon (drain : Nat) (machine : Machine κ φ σ) : Option (Outlook κ φ σ) :=
  match machine.drains[drain]? with
  | some (.awaiting number key worker) =>
    if (machine.reply? number).isNone && machine.isUnreachable worker then
      some (endRound drain number key .unreachable machine)
    else none
  | _ => none

/-- A drain calls a client back. Whether the callback returns or panics, the drain goes on
    to the next. -/
def callBack (drain : Nat) (returned : Foreign Unit) (machine : Machine κ φ σ) :
    Option (Outlook κ φ σ) :=
  match machine.drains[drain]? with
  | some (.delivering outcome callback rest) =>
    let machine := { machine with drains := machine.drains.set drain (.deliver outcome rest) }
    match returned.contain with
    | .ok () => some (machine, [.answered callback outcome])
    | .error message => some (machine, [.answered callback outcome, .contained callback message])
  | _ => none

/-- The queue is disposed of. -/
def dispose (machine : Machine κ φ σ) : Outlook κ φ σ :=
  if machine.queue.disposed then (machine, [])
  else ({ machine with queue := machine.queue.dispose }, machine.queue.waiting.map .dropped)

/-- Take one step. An action that no thread could take now gives nothing. -/
def step (studio : Studio φ σ) (action : Action κ) (machine : Machine κ φ σ) :
    Option (Outlook κ φ σ) :=
  match action with
  | .request key passes callback => some (request studio key passes callback machine)
  | .startDrain => machine.startDrain
  | .answerHit hit => machine.answerHit hit
  | .beginRound drain => machine.beginRound drain
  | .takeUp worker => machine.takeUp studio worker
  | .render worker now => machine.render studio worker now
  | .lose worker => machine.lose worker
  | .finish drain => machine.finish drain
  | .timeOut drain => machine.timeOut studio drain
  | .abandon drain => machine.abandon drain
  | .callBack drain returned => machine.callBack drain returned
  | .dispose => some machine.dispose

/-- Take steps one after the other, and collect what can be told about them. -/
def run (studio : Studio φ σ) : List (Action κ) → Machine κ φ σ → Option (Outlook κ φ σ)
  | [], machine => some (machine, [])
  | action :: rest, machine => do
    let (machine, events) ← machine.step studio action
    let (machine, later) ← run studio rest machine
    return (machine, events ++ later)

end Machine

end Multipass
