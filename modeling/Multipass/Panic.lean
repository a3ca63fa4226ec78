import Multipass.Text.Blank
import Multipass.Text.Lines
import Multipass.Text.Search

/-!
# Panics of foreign code

Compilers and render contexts are foreign code that may panic. A panic is contained
where that code is called and becomes a message.
-/

namespace Multipass

/-- What a panic carries: a text, or something that cannot be shown. -/
inductive PanicPayload where
  | text (message : String)
  | other
  deriving DecidableEq, Repr

namespace PanicPayload

/-- What is told about a panic. -/
def message : PanicPayload → String
  | text message => message
  | other => "Unknown panic occurred"

end PanicPayload

/-- Foreign code either returns a value or panics. -/
inductive Foreign (α : Type) where
  | returned (value : α)
  | panicked (payload : PanicPayload)

/-- The value of foreign code, or the message of its panic. -/
def Foreign.contain {α : Type} : Foreign α → Except String α
  | .returned value => .ok value
  | .panicked payload => .error payload.message

/-- A panic message as an entry of a compiler log; only its first line counts. -/
def panicEntry (message : String) : String :=
  let firstLine := String.ofList (Text.trim ((Text.logLines message.toList).head?.getD []))
  if Text.contains "Validation Error".toList message.toList then
    s!"Shader validation error (driver panic): {firstLine}"
  else s!"Internal error (compiler panic): {firstLine}"

end Multipass
