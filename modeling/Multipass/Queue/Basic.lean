import Multipass.Pass.Source
import Multipass.Thumbnail.Frame

/-!
# The thumbnail queue

Requests for thumbnails wait in one queue, in the order in which they came. Every outcome
is remembered under its key, failures included. The functions below are what happens to
the queue while one thread holds it; the threads themselves are in `Multipass.Queue.Machine`.

A callback of type `κ` stands for the client that made a request.
-/

namespace Multipass

/-- The outcome of a job: a thumbnail, or nothing when rendering failed. -/
abbrev Outcome := Option Thumbnail

/-- A job that waits. Jobs are numbered in the order in which they were enqueued. -/
structure Job (κ : Type) where
  number : Nat
  key : String
  passes : List PassSource
  callbacks : List κ

/-- The job that is being rendered, and who waits for it. -/
structure Flight (κ : Type) where
  key : String
  callbacks : List κ

/-- What the threads share. `cache` has the outcomes, the newest first; `enqueued` counts
    the jobs so far; `worker` is the worker in use, if any. While `hasFactory` holds, a
    worker can be started. -/
structure Queue (κ : Type) where
  cache : List (String × Outcome)
  pending : List (Job κ)
  flight : Option (Flight κ)
  enqueued : Nat
  draining : Bool
  disposed : Bool
  hasFactory : Bool
  worker : Option Nat

/-- How a job ended for the thread that waited for it. -/
inductive Ending where
  | finished (outcome : Outcome)
  | timedOut
  | unreachable
  deriving DecidableEq

/-- The outcome that the clients of the job are told. -/
def Ending.outcome : Ending → Outcome
  | finished outcome => outcome
  | timedOut | unreachable => none

/-- What becomes of a request. -/
inductive Admission where
  | refused
  | cached (outcome : Outcome)
  | joined
  | enqueued (number : Nat)
  deriving DecidableEq

namespace Queue

variable {κ : Type}

/-- A queue that nobody has used. -/
def empty : Queue κ where
  cache := []
  pending := []
  flight := none
  enqueued := 0
  draining := false
  disposed := false
  hasFactory := true
  worker := none

/-- The outcome for a key, if a job for it was ever resolved. -/
def cached? (queue : Queue κ) (key : String) : Option Outcome :=
  queue.cache.lookup key

/-- Remember the outcome for a key, in place of an earlier one. -/
def remember (queue : Queue κ) (key : String) (outcome : Outcome) : Queue κ :=
  { queue with cache := (key, outcome) :: queue.cache }

/-- The first waiting job for a key takes one more callback, if there is such a job. -/
def joinPending (key : String) (callback : κ) : List (Job κ) → Option (List (Job κ))
  | [] => none
  | job :: rest =>
    if job.key = key then some ({ job with callbacks := job.callbacks ++ [callback] } :: rest)
    else (joinPending key callback rest).map (job :: ·)

/-- Join the job for the same key that is being rendered, or else one that waits. -/
def join? (queue : Queue κ) (key : String) (callback : κ) : Option (Queue κ) :=
  let joinWaiting := (joinPending key callback queue.pending).map fun pending =>
    { queue with pending }
  match queue.flight with
  | some flight =>
    if flight.key = key then
      some { queue with flight := some { flight with callbacks := flight.callbacks ++ [callback] } }
    else joinWaiting
  | none => joinWaiting

/-- Put a new job behind those that wait. -/
def enqueue (queue : Queue κ) (key : String) (passes : List PassSource) (callback : κ) :
    Queue κ :=
  { queue with
    pending := queue.pending ++ [⟨queue.enqueued, key, passes, [callback]⟩]
    enqueued := queue.enqueued + 1 }

/-- Take a request in. A cached outcome answers it. Otherwise it waits, with the job that
    is there for its key if requests are coalesced. A disposed queue takes nothing. -/
def request (queue : Queue κ) (coalesce : Bool) (key : String) (passes : List PassSource)
    (callback : κ) : Queue κ × Admission :=
  if queue.disposed then (queue, .refused)
  else
    match queue.cached? key with
    | some outcome => (queue, .cached outcome)
    | none =>
      match if coalesce then queue.join? key callback else none with
      | some queue => (queue, .joined)
      | none => (queue.enqueue key passes callback, .enqueued queue.enqueued)

/-- A drain is started when jobs wait and no drain is at work. -/
def startDrain (queue : Queue κ) : Queue κ × Bool :=
  if queue.draining || queue.pending.isEmpty then (queue, false)
  else ({ queue with draining := true }, true)

/-- The drain stops. -/
def stopDrain (queue : Queue κ) : Queue κ :=
  { queue with draining := false }

/-- Take the job at the front, for a drain that begins a round. Without one, and after
    disposal, the drain stops. -/
def takeJob (queue : Queue κ) : Queue κ × Option (Job κ) :=
  if queue.disposed then (queue.stopDrain, none)
  else
    match queue.pending with
    | [] => (queue.stopDrain, none)
    | job :: pending =>
      ({ queue with pending, flight := some ⟨job.key, job.callbacks⟩ }, some job)

/-- Record how a job ended. A job that timed out counts as failed, and its worker is
    abandoned; a job that reached no worker leaves nothing behind. -/
def record (queue : Queue κ) (key : String) : Ending → Queue κ
  | .finished outcome => queue.remember key outcome
  | .timedOut => { queue.remember key none with worker := none }
  | .unreachable => { queue with worker := none }

/-- Resolve the job that is being rendered: its outcome is recorded, and its callbacks are
    handed to the drain. After disposal the drain stops. -/
def resolve (queue : Queue κ) (key : String) (ending : Ending) :
    Queue κ × Option (List κ) :=
  if queue.disposed then (queue.stopDrain, none)
  else
    let callbacks := (queue.flight.map (·.callbacks)).getD []
    ({ queue.record key ending with flight := none }, some callbacks)

/-- Everyone who waits: in pending jobs and for the job that is being rendered. -/
def waiting (queue : Queue κ) : List κ :=
  queue.pending.flatMap (·.callbacks) ++ (queue.flight.map (·.callbacks)).getD []

/-- Give up everything that the queue holds. Those who wait are never called back. -/
def dispose (queue : Queue κ) : Queue κ :=
  if queue.disposed then queue
  else
    { queue with
      cache := []
      pending := []
      flight := none
      disposed := true
      hasFactory := false
      worker := none }

end Queue

end Multipass
