import Multipass.Proofs.Compile.Verdict
import Multipass.Proofs.Thumbnail.Alike

/-!
# Panics that leave a rendering

A panic of the compiler becomes a failure of the pass that it was asked about. The other
panics leave the rendering: those of the reset, of the drawing and of the reading back, those
of the image library, and those over a number that is too great, in a log or in the size of a
frame.
-/

namespace Multipass

variable {σ : Type} {passes : List PassSource} {state : σ}

namespace Compile

variable {compiler : Compiler σ} {common : String}

end Compile

namespace RenderContext

variable {context : RenderContext σ} {codec : Codec} {config : ThumbnailConfig} {now : Moment}

/-- A panic leaves the rendering. When this happens while the passes are drawn, every pass was
    compiled. -/
inductive Escapes (context : RenderContext σ) (codec : Codec) (passes : List PassSource)
    (config : ThumbnailConfig) (now : Moment) (state : σ) : Prop where
  | reset {payload : PanicPayload} :
      (context.reset state).1 = .panicked payload →
      Escapes context codec passes config now state
  | overflow {next : σ} {overflow : Overflow} {session : Compile.Session σ} :
      context.reset state = (.returned (), next) →
      Compile.compileAll context.compile passes (.start next) = (.error overflow, session) →
      Escapes context codec passes config now state
  | renderFrame {next : σ} {compiled : List CompiledPass} {session : Compile.Session σ}
      {payload : PanicPayload} :
      context.reset state = (.returned (), next) →
      Compile.compileAll context.compile passes (.start next) = (.ok ⟨compiled, []⟩, session) →
      (context.renderFrame (uniforms config now) session.state).1 = .panicked payload →
      Escapes context codec passes config now state
  | capture {next drawn : σ} {compiled : List CompiledPass} {session : Compile.Session σ}
      {payload : PanicPayload} :
      context.reset state = (.returned (), next) →
      Compile.compileAll context.compile passes (.start next) = (.ok ⟨compiled, []⟩, session) →
      context.renderFrame (uniforms config now) session.state = (.returned (.ok ()), drawn) →
      (context.capture drawn).1 = .panicked payload →
      Escapes context codec passes config now state
  | encode {next drawn captured : σ} {compiled : List CompiledPass} {session : Compile.Session σ}
      {frame : Frame} {payload : PanicPayload} :
      context.reset state = (.returned (), next) →
      Compile.compileAll context.compile passes (.start next) = (.ok ⟨compiled, []⟩, session) →
      context.renderFrame (uniforms config now) session.state = (.returned (.ok ()), drawn) →
      context.capture drawn = (.returned (.ok frame), captured) →
      frame.encode codec config.format = .panicked payload →
      Escapes context codec passes config now state

theorem captureThumbnail_panicked_iff {format : ImageFormat} {payload : PanicPayload} :
    (context.captureThumbnail codec format state).1 = .panicked payload ↔
      (context.capture state).1 = .panicked payload ∨
        ∃ frame captured, context.capture state = (.returned (.ok frame), captured) ∧
          frame.encode codec format = .panicked payload := by
  unfold captureThumbnail
  rcases context.capture state with ⟨⟨⟨reason⟩ | ⟨frame⟩⟩ | ⟨panic⟩, next⟩ <;> simp

theorem drawThumbnail_panicked_iff {payload : PanicPayload} :
    (context.drawThumbnail codec config now state).1 = .panicked payload ↔
      (context.renderFrame (uniforms config now) state).1 = .panicked payload ∨
        ∃ drawn, context.renderFrame (uniforms config now) state = (.returned (.ok ()), drawn) ∧
          (context.captureThumbnail codec config.format drawn).1 = .panicked payload := by
  unfold drawThumbnail
  rcases context.renderFrame (uniforms config now) state with
    ⟨⟨⟨reason⟩ | ⟨⟨⟩⟩⟩ | ⟨panic⟩, next⟩ <;> simp

/-- The panics that leave a rendering are those that it does not contain. -/
theorem escapes_iff : context.Escapes codec passes config now state ↔
    ∃ payload, (context.renderThumbnail codec passes config now state).1 = .panicked payload := by
  constructor
  · intro escapes
    cases escapes with
    | @reset payload panics =>
      refine ⟨payload, ?_⟩
      rw [renderThumbnail_of_panicked codec config now passes (Prod.ext panics rfl)]
    | @overflow next overflow session resets overflows =>
      refine ⟨.text overflow.message, ?_⟩
      rw [renderThumbnail_of_returned codec config now passes resets, renderReset, overflows]
      rfl
    | @renderFrame next compiled session payload resets compiles panics =>
      refine ⟨payload, ?_⟩
      rw [renderThumbnail_of_returned codec config now passes resets, renderReset, compiles]
      exact drawThumbnail_panicked_iff.mpr (.inl panics)
    | @capture next drawn compiled session payload resets compiles draws panics =>
      refine ⟨payload, ?_⟩
      rw [renderThumbnail_of_returned codec config now passes resets, renderReset, compiles]
      refine drawThumbnail_panicked_iff.mpr (.inr ⟨drawn, draws, ?_⟩)
      exact captureThumbnail_panicked_iff.mpr (.inl panics)
    | @encode next drawn captured compiled session frame payload resets compiles draws captures
        panics =>
      refine ⟨payload, ?_⟩
      rw [renderThumbnail_of_returned codec config now passes resets, renderReset, compiles]
      refine drawThumbnail_panicked_iff.mpr (.inr ⟨drawn, draws, ?_⟩)
      exact captureThumbnail_panicked_iff.mpr (.inr ⟨frame, captured, captures, panics⟩)
  · rintro ⟨payload, panics⟩
    rcases resets : context.reset state with ⟨⟨⟨⟩⟩ | ⟨panic⟩, next⟩
    · rw [renderThumbnail_of_returned codec config now passes resets, renderReset] at panics
      rcases compiles : Compile.compileAll context.compile passes (.start next) with
        ⟨overflow | ⟨compiled, failures⟩, session⟩
      · exact .overflow resets compiles
      rw [compiles] at panics
      cases failures with
      | cons failure rest => cases panics
      | nil =>
        rcases drawThumbnail_panicked_iff.mp panics with draws | ⟨drawn, draws, panics⟩
        · exact .renderFrame resets compiles draws
        rcases captureThumbnail_panicked_iff.mp panics with
          captures | ⟨frame, captured, captures, encodes⟩
        · exact .capture resets compiles draws captures
        · exact .encode resets compiles draws captures encodes
    · exact .reset (by rw [resets])

end RenderContext

end Multipass
