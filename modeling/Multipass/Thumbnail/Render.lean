import Multipass.Compile.Report
import Multipass.Thumbnail.Frame
import Multipass.Thumbnail.Uniforms

/-!
# Rendering a thumbnail

A render context compiles passes, draws them and reads the picture back. It is foreign
code: each of its operations may panic. Only a panic inside the compiler is contained
here; any other leaves the rendering, and so does an overflow. The clock is read when the
passes are drawn.
-/

namespace Multipass

/-- A render context whose state has type `σ`. `reset` forgets the passes of an earlier
    shader. -/
structure RenderContext (σ : Type) where
  reset : σ → Foreign Unit × σ
  compile : Compiler σ
  renderFrame : Uniforms → σ → Foreign (Except String Unit) × σ
  capture : σ → Foreign (Except String Frame) × σ

namespace RenderContext

variable {σ : Type}

/-- The uniforms of a thumbnail under a configuration. -/
def uniforms (config : ThumbnailConfig) (now : Moment) : Uniforms :=
  .atTime config.width.toUInt32 config.height.toUInt32 config.time.toBits now

/-- Read back what was drawn and write it in the format that was asked for. -/
def captureThumbnail (context : RenderContext σ) (codec : Codec) (format : ImageFormat)
    (state : σ) : Foreign (Except ShaderError Thumbnail) × σ :=
  match context.capture state with
  | (.panicked payload, state) => (.panicked payload, state)
  | (.returned (.error reason), state) => (.returned (.error (.render reason)), state)
  | (.returned (.ok frame), state) => (frame.encode codec format, state)

/-- Draw the compiled passes and take the thumbnail. -/
def drawThumbnail (context : RenderContext σ) (codec : Codec) (config : ThumbnailConfig)
    (now : Moment) (state : σ) : Foreign (Except ShaderError Thumbnail) × σ :=
  match context.renderFrame (uniforms config now) state with
  | (.panicked payload, state) => (.panicked payload, state)
  | (.returned (.error reason), state) => (.returned (.error (.render reason)), state)
  | (.returned (.ok ()), state) => context.captureThumbnail codec config.format state

/-- Compile, draw and capture one still frame. The first failure of the compile is the
    error; nothing is drawn then. -/
def renderThumbnail (context : RenderContext σ) (codec : Codec) (passes : List PassSource)
    (config : ThumbnailConfig) (now : Moment) (state : σ) :
    Foreign (Except ShaderError Thumbnail) × σ :=
  match context.reset state with
  | (.panicked payload, state) => (.panicked payload, state)
  | (.returned (), state) =>
    match Compile.compileAll context.compile passes (.start state) with
    | (.error overflow, session) => (overflow.panic, session.state)
    | (.ok report, session) =>
      match report.failures with
      | failure :: _ => (.returned (.error failure.toShaderError), session.state)
      | [] => context.drawThumbnail codec config now session.state

end RenderContext

end Multipass
