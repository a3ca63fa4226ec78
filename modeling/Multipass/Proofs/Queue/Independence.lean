import Multipass.Proofs.Queue.Isolation
import Multipass.Proofs.Thumbnail.Escape

/-!
# Thumbnails that do not depend on history

A worker draws one thumbnail after the other on the same context. When a reset leaves nothing
of what was done to the context before, each thumbnail comes out as it would on a new one at the
same moment. The moment makes a difference only if the context draws the date.
-/

namespace Multipass

theorem Worker.judge_fst_congr {σ : Type} {left right : Foreign (Except ShaderError Thumbnail) × σ}
    (same : left.1 = right.1) : (judge left).1 = (judge right).1 := by
  obtain ⟨rendered, before⟩ := left
  obtain ⟨_, after⟩ := right
  cases same
  cases rendered with
  | panicked payload => rfl
  | returned result => cases result <;> rfl

theorem Worker.judge_snd_eq_none_iff {σ : Type}
    {result : Foreign (Except ShaderError Thumbnail) × σ} :
    (judge result).2 = none ↔ ∃ payload, result.1 = .panicked payload := by
  obtain ⟨rendered, context⟩ := result
  cases rendered with
  | panicked payload => exact iff_of_true rfl ⟨payload, rfl⟩
  | returned result => cases result <;> simp [judge, Foreign.contain]

/-- A worker loses its context with a job from which a panic escapes. -/
theorem Rendering.survivor_eq_none_iff {φ σ : Type} {studio : Studio φ σ}
    {rendering : Rendering σ} : rendering.survivor studio = none ↔
      studio.context.Escapes studio.codec rendering.task.passes studio.config rendering.now
        rendering.context :=
  Worker.judge_snd_eq_none_iff.trans RenderContext.escapes_iff.symm

namespace Studio

variable {φ σ : Type} {studio : Studio φ σ} {used new : σ}

/-- Whatever was done to a context, a reset makes up for it. It returns if it does on a new
    context, and then nothing tells the context from a new one. -/
structure Forgets (studio : Studio φ σ) : Prop where
  returns : ∀ used new, studio.IsUsed used → studio.IsNew new →
    ((studio.context.reset used).1 = .returned () ↔ (studio.context.reset new).1 = .returned ())
  alike : ∀ used new next, studio.IsUsed used → studio.IsNew new →
    studio.context.reset used = (.returned (), next) → studio.context.Alike next new

/-- The outcome of the passes alone: what comes of them at this moment on a new context,
    whichever it is. -/
def Draws (studio : Studio φ σ) (now : Moment) (passes : List PassSource) (outcome : Outcome) :
    Prop :=
  ∀ context, studio.IsNew context →
    (Worker.judge (studio.context.renderThumbnail studio.codec passes studio.config now
      context)).1 = outcome

/-- A panic leaves the rendering of the passes at this moment on a new context. -/
def Breaks (studio : Studio φ σ) (now : Moment) (passes : List PassSource) : Prop :=
  ∀ context, studio.IsNew context →
    studio.context.Escapes studio.codec passes studio.config now context

/-- On a used context a thumbnail comes out as on a new one. -/
theorem Forgets.rendered_eq (forgets : studio.Forgets) (isUsed : studio.IsUsed used)
    (isNew : studio.IsNew new) (passes : List PassSource) (now : Moment) :
    (Worker.judge (studio.context.renderThumbnail studio.codec passes studio.config now used)).1 =
        (Worker.judge (studio.context.renderThumbnail studio.codec passes studio.config now
          new)).1 ∧
      (studio.context.Escapes studio.codec passes studio.config now used ↔
        studio.context.Escapes studio.codec passes studio.config now new) := by
  have both := forgets.returns used new isUsed isNew
  rcases resets : studio.context.reset used with ⟨⟨⟨⟩⟩ | ⟨payload⟩, next⟩ <;>
    rcases resets' : studio.context.reset new with ⟨⟨⟨⟩⟩ | ⟨payload'⟩, next'⟩ <;>
    rw [resets, resets'] at both
  · have alike := (forgets.alike used new next isUsed isNew resets).trans
      (forgets.alike new new next' (.new isNew) isNew resets').symm
    have same := alike.renderReset studio.codec studio.config now passes
    rw [RenderContext.escapes_iff, RenderContext.escapes_iff,
      RenderContext.renderThumbnail_of_returned studio.codec studio.config now passes resets,
      RenderContext.renderThumbnail_of_returned studio.codec studio.config now passes resets',
      same]
    exact ⟨Worker.judge_fst_congr same, Iff.rfl⟩
  · cases both.mp rfl
  · cases both.mpr rfl
  · rw [RenderContext.renderThumbnail_of_panicked studio.codec studio.config now passes resets,
      RenderContext.renderThumbnail_of_panicked studio.codec studio.config now passes resets']
    exact ⟨rfl, iff_of_true (.reset (congrArg Prod.fst resets))
      (.reset (congrArg Prod.fst resets'))⟩

theorem Forgets.draws (forgets : studio.Forgets) {rendering : Rendering σ}
    (isUsed : studio.IsUsed rendering.context) :
    studio.Draws rendering.now rendering.task.passes (rendering.outcome studio) :=
  fun _ isNew => (forgets.rendered_eq isUsed isNew rendering.task.passes rendering.now).1.symm

theorem Forgets.breaks_iff (forgets : studio.Forgets) (builds : studio.AlwaysBuilds)
    (factory : φ) {rendering : Rendering σ} (isUsed : studio.IsUsed rendering.context) :
    rendering.survivor studio = none ↔ studio.Breaks rendering.now rendering.task.passes := by
  obtain ⟨new, next, built⟩ := builds factory
  rw [Rendering.survivor_eq_none_iff]
  constructor
  · intro escapes context isNew
    exact (forgets.rendered_eq isUsed isNew rendering.task.passes rendering.now).2.mp escapes
  · intro breaks
    have isNew : studio.IsNew new := ⟨factory, next, built⟩
    exact (forgets.rendered_eq isUsed isNew rendering.task.passes rendering.now).2.mpr
      (breaks new isNew)

/-- The date on which a frame is drawn does not show in it. -/
def IgnoresDate (studio : Studio φ σ) : Prop :=
  ∀ now now' state,
    studio.context.renderFrame (RenderContext.uniforms studio.config now) state =
      studio.context.renderFrame (RenderContext.uniforms studio.config now') state

/-- Without the date, every moment is the same. -/
theorem IgnoresDate.renderThumbnail (ignores : studio.IgnoresDate) (passes : List PassSource)
    (now now' : Moment) (context : σ) :
    studio.context.renderThumbnail studio.codec passes studio.config now context =
      studio.context.renderThumbnail studio.codec passes studio.config now' context := by
  have draws : ∀ state,
      studio.context.drawThumbnail studio.codec studio.config now state =
        studio.context.drawThumbnail studio.codec studio.config now' state := by
    intro state
    rw [RenderContext.drawThumbnail, RenderContext.drawThumbnail, ignores now now' state]
  simp only [RenderContext.renderThumbnail, draws]

theorem IgnoresDate.breaks_iff (ignores : studio.IgnoresDate) (passes : List PassSource)
    (now now' : Moment) : studio.Breaks now passes ↔ studio.Breaks now' passes := by
  simp only [Breaks, RenderContext.escapes_iff, ignores.renderThumbnail passes now now']

end Studio

/-- The job was rendered from these passes, which are its own, at this moment. -/
def History.Rendered {κ φ σ : Type} (past : History κ φ σ) (number : Nat)
    (passes : List PassSource) (now : Moment) : Prop :=
  past.passes[number]? = some passes ∧ ∃ rendering ∈ past.renderings,
    rendering.task.number = number ∧ rendering.task.passes = passes ∧ rendering.now = now

namespace Machine

variable {κ φ σ : Type} {studio : Studio φ σ} {machine : Machine κ φ σ}
  {actions : List (Action κ)} {events : List (Event κ)} {past : History κ φ σ} {factory : φ}
  {number : Nat}

/-- Whether a job has to have a new context is decided by how the job before it ended, and by
    the passes of that job. -/
theorem Equipped.renews_iff (equipped : Equipped studio past machine)
    (traced : Traced studio past machine) (forgets : studio.Forgets)
    (builds : studio.AlwaysBuilds) :
    past.Renews studio number ↔ number = 0 ∨ ∃ before ending, before + 1 = number ∧
      (before, ending) ∈ past.resolved ∧ (ending = .timedOut ∨ ending = .unreachable ∨
        ∃ passes now, past.Rendered before passes now ∧ studio.Breaks now passes) := by
  have lost_iff : ∀ rendering ∈ past.renderings, rendering.survivor studio = none ↔
      studio.Breaks rendering.now rendering.task.passes := fun rendering member =>
    forgets.breaks_iff builds machine.factory (equipped.rendered rendering member).1
  refine or_congr_right (exists_congr fun before => exists_congr fun ending =>
    and_congr_right fun _ => and_congr_right fun resolved => ?_)
  constructor
  · rintro (abandons | ⟨rendering, member, rfl, lost⟩)
    · cases ending with
      | timedOut => exact .inl rfl
      | unreachable => exact .inr (.inl rfl)
      | finished outcome => cases abandons
    · have own := traced.replied.rendered rendering member
      exact .inr (.inr ⟨_, _, ⟨own, rendering, member, rfl, rfl, rfl⟩,
        (lost_iff rendering member).mp lost⟩)
  · rintro (rfl | rfl | ⟨_, _, ⟨-, rendering, member, same, rfl, rfl⟩, breaks⟩)
    · exact .inl rfl
    · exact .inl rfl
    · exact .inr ⟨rendering, member, same, (lost_iff rendering member).mpr breaks⟩

deriving instance DecidableEq for Event

end Machine

end Multipass
