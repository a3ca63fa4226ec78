import Multipass.CommandLine.Run

/-!
# The program

Reads the files that a command line asks for, runs it, and writes what it leaves. A check
accepts every text that a compiler of shaders would be asked about.
-/

namespace Multipass.CommandLine

/-- What the user is told about a file that cannot be read. -/
def unreadable : IO.Error → String
  | .noFileOrDirectory .. => "No such file or directory (os error 2)"
  | .permissionDenied .. => "Permission denied (os error 13)"
  | .inappropriateType .. => "Is a directory (os error 21)"
  | problem => toString problem

/-- The text of a file, or the reason why there is none. -/
def readText (path : String) : IO (Except String String) := do
  try
    match String.fromUTF8? (← IO.FS.readBinFile path) with
    | some text => return .ok text
    | none => return .error "stream did not contain valid UTF-8"
  catch problem => return .error (unreadable problem)

/-- The files that a command line may read. -/
def filesOf (arguments : List String) : List String :=
  match Invocation.ofArguments arguments with
  | .ok invocation => invocation.files
  | .error _ => []

/-- Texts that were read beforehand, as files. -/
def filesFrom (texts : List (String × Except String String)) : Files := fun path =>
  (texts.lookup path).getD (.error "No such file or directory (os error 2)")

/-- Run a command line and write what it leaves. -/
def execute (arguments : List String) : IO UInt32 := do
  let texts ← (filesOf arguments).mapM fun path => return (path, ← readText path)
  let printout := run accepting () (filesFrom texts) arguments
  IO.print printout.output
  IO.eprint printout.errors
  return printout.code.toUInt32

end Multipass.CommandLine

/-- The command line tool. -/
def main (arguments : List String) : IO UInt32 :=
  Multipass.CommandLine.execute arguments
