import Multipass.LineMap
import Multipass.Overflow
import Multipass.Pass.Name

/-!
# Attribution of lines

A compiled text consists of scaffold lines, the expanded Common text and the
expanded text of the pass. An attribution tells for each line of it which pass it
belongs to and which line of that pass it came from.
-/

namespace Multipass

/-- `startLine` is the number of scaffold lines before the expanded text, and
    `commonLines` the number of expanded lines that belong to Common, zero without
    one. The line map goes from expanded lines to lines of the pass that each
    belongs to. -/
structure Attribution where
  pass : PassName
  startLine : Nat
  commonLines : Nat
  lineMap : LineMap

namespace Attribution

/-- The pass and line for a line of the expanded text. Lines before it belong to
    the first line of the pass. Beyond the lines of Common, the nearest mapped line
    is never looked for inside Common. -/
def expandedLine (attribution : Attribution) (line : Int) : PassName × Nat :=
  if line < 1 then (attribution.pass, 1)
  else
    let line := line.toNat
    let hasCommon := attribution.pass ≠ .common ∧ 0 < attribution.commonLines
    if hasCommon ∧ line ≤ attribution.commonLines then
      (.common, max ((attribution.lineMap.nearest? line 1).getD line) 1)
    else if hasCommon then
      let first := attribution.commonLines + 1
      (attribution.pass, max ((attribution.lineMap.nearest? line first).getD (line - first)) 1)
    else
      (attribution.pass, max ((attribution.lineMap.nearest? line 1).getD line) 1)

/-- The pass and line for a line of the compiled text. Line numbers are 64-bit words that are
    read as signed ones. A number from 2⁶³ on is negative then; the difference overflows for
    the first `startLine` of these, and is that of a line before the expanded text for the
    others. -/
def finalLine (attribution : Attribution) (line : Nat) : Checked (PassName × Nat) := do
  let line ← Checked.sub (Checked.signed line) (Checked.signed attribution.startLine)
  return attribution.expandedLine line

end Attribution

end Multipass
