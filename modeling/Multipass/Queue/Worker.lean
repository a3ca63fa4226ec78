import Multipass.Queue.Basic
import Multipass.Thumbnail.Render

/-!
# Workers

A worker is a thread that owns a render context. It takes its tasks one after the other,
builds the context when it has none, renders, and posts a reply. A panic that leaves the
rendering costs the worker its context, since nothing is known about the state of it.
-/

namespace Multipass

/-- Builds render contexts, and keeps a state of type `φ` while doing so. -/
abbrev Factory (φ σ : Type) := φ → Foreign (Except String σ) × φ

/-- What the thumbnails of a queue are made with. -/
structure Studio (φ σ : Type) where
  context : RenderContext σ
  codec : Codec
  build : Factory φ σ
  config : ThumbnailConfig

/-- A job in the hands of a worker. -/
structure RenderTask where
  number : Nat
  passes : List PassSource

/-- The outcome of a job, addressed by its number. -/
structure Posted where
  number : Nat
  outcome : Outcome
  deriving DecidableEq

/-- What a worker does. It has no context before its first task, after a context could not
    be built, and after a panic; `gone` is a worker whose thread has ended. -/
inductive Activity (σ : Type) where
  | idle (context : Option σ)
  | rendering (context : σ) (task : RenderTask)
  | gone

/-- A worker with the tasks that were sent to it. -/
structure Worker (σ : Type) where
  activity : Activity σ
  inbox : List RenderTask

namespace Worker

variable {φ σ : Type}

/-- A worker that was just started for a task. -/
def start (task : RenderTask) : Worker σ :=
  ⟨.idle none, [task]⟩

/-- Send a worker one more task. -/
def send (worker : Worker σ) (task : RenderTask) : Worker σ :=
  { worker with inbox := worker.inbox ++ [task] }

/-- Has the thread of the worker ended? -/
def isGone (worker : Worker σ) : Bool :=
  match worker.activity with
  | .gone => true
  | _ => false

/-- Ask the factory for a context. A panic of the factory counts as its refusal. -/
def buildContext (studio : Studio φ σ) (factory : φ) : Option σ × φ :=
  match studio.build factory with
  | (built, factory) =>
    match built.contain with
    | .ok (.ok context) => (some context, factory)
    | _ => (none, factory)

/-- What a worker did when it took up a task. -/
inductive TakeUp where
  | reused
  | built
  | refused
  deriving DecidableEq, Repr

/-- Take up the next task. A worker without a context has one built first; when that
    fails, so does the task. -/
def takeUp (studio : Studio φ σ) (factory : φ) (worker : Worker σ) :
    Option (Worker σ × φ × RenderTask × TakeUp) :=
  match worker.activity, worker.inbox with
  | .idle (some context), task :: inbox =>
    some (⟨.rendering context task, inbox⟩, factory, task, .reused)
  | .idle none, task :: inbox =>
    match buildContext studio factory with
    | (some context, factory) =>
      some (⟨.rendering context task, inbox⟩, factory, task, .built)
    | (none, factory) => some (⟨.idle none, inbox⟩, factory, task, .refused)
  | _, _ => none

/-- The outcome of a rendering, and the context if it can still be used. -/
def judge : Foreign (Except ShaderError Thumbnail) × σ → Outcome × Option σ
  | (rendered, context) =>
    match rendered.contain with
    | .ok (.ok thumbnail) => (some thumbnail, some context)
    | .ok (.error _) => (none, some context)
    | .error _ => (none, none)

/-- Render the task that was taken up. The clock is read in between. -/
def render (studio : Studio φ σ) (now : Moment) (worker : Worker σ) :
    Option (Worker σ × Posted) :=
  match worker.activity with
  | .rendering context task =>
    let (outcome, context) :=
      judge (studio.context.renderThumbnail studio.codec task.passes studio.config now context)
    some ({ worker with activity := .idle context }, ⟨task.number, outcome⟩)
  | _ => none

/-- The thread of the worker ends. What it was doing is lost. -/
def lose (worker : Worker σ) : Worker σ :=
  { worker with activity := .gone }

end Worker

end Multipass
