import Mathlib.Logic.Relation
import Multipass.Proofs.Compile.Verdict
import Multipass.Thumbnail.Render

/-!
# Render contexts that cannot be told apart

Two states of a render context are alike when nothing that is done to them tells them apart:
they give the same answers, and go on to states that are alike. A thumbnail that is drawn on
either of them is the same.
-/

namespace Multipass

namespace RenderContext

variable {σ : Type}

/-- Whatever is done to a context in such a state leaves it in such a state. -/
structure Keeps (context : RenderContext σ) (holds : σ → Prop) : Prop where
  reset : ∀ state, holds state → holds (context.reset state).2
  compile : ∀ pass text state, holds state → holds (context.compile pass text state).2
  renderFrame : ∀ uniforms state, holds state → holds (context.renderFrame uniforms state).2
  capture : ∀ state, holds state → holds (context.capture state).2

/-- States that are related give the same answers, and states that are related after them. -/
structure Mirrors (context : RenderContext σ) (related : σ → σ → Prop) : Prop where
  compile : ∀ pass text {left right}, related left right →
    (context.compile pass text left).1 = (context.compile pass text right).1 ∧
      related (context.compile pass text left).2 (context.compile pass text right).2
  renderFrame : ∀ uniforms {left right}, related left right →
    (context.renderFrame uniforms left).1 = (context.renderFrame uniforms right).1 ∧
      related (context.renderFrame uniforms left).2 (context.renderFrame uniforms right).2
  capture : ∀ {left right}, related left right →
    (context.capture left).1 = (context.capture right).1 ∧
      related (context.capture left).2 (context.capture right).2

/-- States that compiling, drawing and reading back cannot tell apart. -/
def Alike (context : RenderContext σ) (left right : σ) : Prop :=
  ∃ related, context.Mirrors related ∧ related left right

variable {context : RenderContext σ} {holds : σ → Prop} {related : σ → σ → Prop}
  {left right other : σ}

theorem Alike.symm (alike : context.Alike left right) : context.Alike right left := by
  obtain ⟨related, mirrors, here⟩ := alike
  refine ⟨fun right left => related left right, ⟨?_, ?_, ?_⟩, here⟩
  · intro pass text right left same
    exact ⟨(mirrors.compile pass text same).1.symm, (mirrors.compile pass text same).2⟩
  · intro uniforms right left same
    exact ⟨(mirrors.renderFrame uniforms same).1.symm, (mirrors.renderFrame uniforms same).2⟩
  · intro right left same
    exact ⟨(mirrors.capture same).1.symm, (mirrors.capture same).2⟩

theorem Alike.trans (alike : context.Alike left right) (further : context.Alike right other) :
    context.Alike left other := by
  obtain ⟨first, mirrors, here⟩ := alike
  obtain ⟨second, mirrors', there⟩ := further
  refine ⟨Relation.Comp first second, ⟨?_, ?_, ?_⟩, right, here, there⟩
  · rintro pass text left right ⟨between, same, same'⟩
    obtain ⟨equal, next⟩ := mirrors.compile pass text same
    obtain ⟨equal', next'⟩ := mirrors'.compile pass text same'
    exact ⟨equal.trans equal', _, next, next'⟩
  · rintro uniforms left right ⟨between, same, same'⟩
    obtain ⟨equal, next⟩ := mirrors.renderFrame uniforms same
    obtain ⟨equal', next'⟩ := mirrors'.renderFrame uniforms same'
    exact ⟨equal.trans equal', _, next, next'⟩
  · rintro left right ⟨between, same, same'⟩
    obtain ⟨equal, next⟩ := mirrors.capture same
    obtain ⟨equal', next'⟩ := mirrors'.capture same'
    exact ⟨equal.trans equal', _, next, next'⟩

/-- What every operation keeps is a way for a state to be related to itself. -/
theorem Keeps.mirrors (keeps : context.Keeps holds) :
    context.Mirrors fun left right => left = right ∧ holds left where
  compile := by
    rintro pass text state _ ⟨rfl, here⟩
    exact ⟨rfl, rfl, keeps.compile pass text state here⟩
  renderFrame := by
    rintro uniforms state _ ⟨rfl, here⟩
    exact ⟨rfl, rfl, keeps.renderFrame uniforms state here⟩
  capture := by
    rintro state _ ⟨rfl, here⟩
    exact ⟨rfl, rfl, keeps.capture state here⟩

theorem Alike.refl (context : RenderContext σ) (state : σ) : context.Alike state state := by
  have anything : context.Keeps fun _ => True :=
    ⟨fun _ _ => trivial, fun _ _ _ _ => trivial, fun _ _ _ => trivial, fun _ _ => trivial⟩
  exact ⟨_, anything.mirrors, rfl, trivial⟩

/-! ## Compiling -/

section Compile

variable (common : String)

/-- The result of a pass does not depend on which of two states that are alike it is compiled
    in, whatever was compiled before. -/
theorem Mirrors.compilePass (mirrors : context.Mirrors related) (source : PassSource)
    {first second : Compile.Session σ} (alike : related first.state second.state) :
    (Compile.compilePass context.compile common source first).1 =
        (Compile.compilePass context.compile common source second).1 ∧
      related (Compile.compilePass context.compile common source first).2.state
        (Compile.compilePass context.compile common source second).2.state := by
  unfold Compile.compilePass
  cases Compile.prepare common source with
  | error failure => exact ⟨rfl, alike⟩
  | ok assembled =>
    obtain ⟨same, next⟩ :=
      mirrors.compile assembled.attribution.pass assembled.finalSource alike
    exact ⟨congrArg (Compile.judge assembled) same, next⟩

theorem Mirrors.compileSources (mirrors : context.Mirrors related) (sources : List PassSource)
    {report : Compile.Report} {first second : Compile.Session σ}
    (alike : related first.state second.state) :
    (Compile.compileSources context.compile common sources report first).1 =
        (Compile.compileSources context.compile common sources report second).1 ∧
      related (Compile.compileSources context.compile common sources report first).2.state
        (Compile.compileSources context.compile common sources report second).2.state := by
  induction sources generalizing report first second with
  | nil => exact ⟨rfl, alike⟩
  | cons source rest ih =>
    obtain ⟨same, next⟩ := mirrors.compilePass common source alike
    rw [Compile.compileSources_cons, Compile.compileSources_cons, same]
    cases (Compile.compilePass context.compile common source second).1 with
    | error overflow => exact ⟨rfl, next⟩
    | ok result => exact ih next

theorem Mirrors.compileAll (mirrors : context.Mirrors related) (passes : List PassSource)
    (alike : related left right) :
    (Compile.compileAll context.compile passes (.start left)).1 =
        (Compile.compileAll context.compile passes (.start right)).1 ∧
      related (Compile.compileAll context.compile passes (.start left)).2.state
        (Compile.compileAll context.compile passes (.start right)).2.state :=
  mirrors.compileSources (commonCode passes) _ alike

end Compile

/-! ## Drawing -/

section Draw

variable (codec : Codec) (config : ThumbnailConfig) (now : Moment) (passes : List PassSource)

theorem Mirrors.captureThumbnail (mirrors : context.Mirrors related) (format : ImageFormat)
    (alike : related left right) :
    (context.captureThumbnail codec format left).1 =
        (context.captureThumbnail codec format right).1 ∧
      related (context.captureThumbnail codec format left).2
        (context.captureThumbnail codec format right).2 := by
  obtain ⟨same, next⟩ := mirrors.capture alike
  unfold RenderContext.captureThumbnail
  cases there : context.capture right with
  | mk answer after =>
  cases here : context.capture left with
  | mk told between =>
  rw [here, there] at same next
  subst same
  cases told with
  | panicked payload => exact ⟨rfl, next⟩
  | returned captured => cases captured <;> exact ⟨rfl, next⟩

theorem Mirrors.drawThumbnail (mirrors : context.Mirrors related) (alike : related left right) :
    (context.drawThumbnail codec config now left).1 =
        (context.drawThumbnail codec config now right).1 ∧
      related (context.drawThumbnail codec config now left).2
        (context.drawThumbnail codec config now right).2 := by
  obtain ⟨same, next⟩ := mirrors.renderFrame (uniforms config now) alike
  unfold RenderContext.drawThumbnail
  cases there : context.renderFrame (uniforms config now) right with
  | mk answer after =>
  cases here : context.renderFrame (uniforms config now) left with
  | mk told between =>
  rw [here, there] at same next
  subst same
  cases told with
  | panicked payload => exact ⟨rfl, next⟩
  | returned drawn =>
    cases drawn with
    | error reason => exact ⟨rfl, next⟩
    | ok _ => exact mirrors.captureThumbnail codec config.format next

/-- What is done for a thumbnail once the context was reset. -/
def renderReset (context : RenderContext σ) (codec : Codec) (passes : List PassSource)
    (config : ThumbnailConfig) (now : Moment) (state : σ) :
    Foreign (Except ShaderError Thumbnail) × σ :=
  match Compile.compileAll context.compile passes (.start state) with
  | (.error overflow, session) => (overflow.panic, session.state)
  | (.ok report, session) =>
    match report.failures with
    | failure :: _ => (.returned (.error failure.toShaderError), session.state)
    | [] => context.drawThumbnail codec config now session.state

theorem renderThumbnail_of_returned {state next : σ}
    (resets : context.reset state = (.returned (), next)) :
    context.renderThumbnail codec passes config now state =
      context.renderReset codec passes config now next := by
  unfold renderThumbnail
  rw [resets]
  rfl

theorem renderThumbnail_of_panicked {state next : σ} {payload : PanicPayload}
    (panics : context.reset state = (.panicked payload, next)) :
    context.renderThumbnail codec passes config now state = (.panicked payload, next) := by
  unfold renderThumbnail
  rw [panics]

theorem Mirrors.renderReset (mirrors : context.Mirrors related) (alike : related left right) :
    (context.renderReset codec passes config now left).1 =
        (context.renderReset codec passes config now right).1 ∧
      related (context.renderReset codec passes config now left).2
        (context.renderReset codec passes config now right).2 := by
  obtain ⟨same, next⟩ := mirrors.compileAll passes alike
  unfold RenderContext.renderReset
  cases there : Compile.compileAll context.compile passes (.start right) with
  | mk answer after =>
  cases here : Compile.compileAll context.compile passes (.start left) with
  | mk told between =>
  rw [here, there] at same next
  subst same
  cases told with
  | error overflow => exact ⟨rfl, next⟩
  | ok report =>
    simp only
    split
    · exact ⟨rfl, next⟩
    · exact mirrors.drawThumbnail codec config now next

/-- On states that are alike a thumbnail comes out the same. -/
theorem Alike.renderReset (alike : context.Alike left right) :
    (context.renderReset codec passes config now left).1 =
      (context.renderReset codec passes config now right).1 := by
  obtain ⟨related, mirrors, here⟩ := alike
  exact (mirrors.renderReset codec config now passes here).1

theorem Keeps.renderThumbnail (keeps : context.Keeps holds) {state : σ} (here : holds state) :
    holds (context.renderThumbnail codec passes config now state).2 := by
  have next := keeps.reset state here
  cases resets : context.reset state with
  | mk answer after =>
  rw [resets] at next
  cases answer with
  | panicked payload =>
    rw [renderThumbnail_of_panicked codec config now passes resets]
    exact next
  | returned _ =>
    rw [renderThumbnail_of_returned codec config now passes resets]
    exact (keeps.mirrors.renderReset codec config now passes ⟨rfl, next⟩).2.2

end Draw

end RenderContext

end Multipass
