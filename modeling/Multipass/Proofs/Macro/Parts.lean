import Multipass.Proofs.Macro.Scanning
import Multipass.Proofs.Text.Token

/-!
# The parts of an expansion

An expansion is text: what is kept of a text and what its macros expand to, one after the other
with nothing in between. Its tokens are those of these parts exactly if no part ends in a token
that goes on into the next one.
-/

namespace Multipass.Macro

/-- Text that is kept, or what one use of a macro expands to. -/
inductive Part where
  | kept (text : List Char)
  | expansion (text : List Char)
  deriving DecidableEq, Repr

/-- The text of a part, kept or expanded. -/
def Part.text : Part → List Char
  | .kept text | .expansion text => text

/-- Parts, one after the other. -/
def joined (parts : List Part) : List Char :=
  parts.flatMap Part.text

/-- Text that is kept is one part with what is kept right behind it. -/
def keep (text : List Char) : List Part → List Part
  | .kept later :: rest => .kept (text ++ later) :: rest
  | parts => .kept text :: parts

theorem joined_keep (text : List Char) (parts : List Part) :
    joined (keep text parts) = text ++ joined parts := by
  unfold keep
  split <;> simp [joined, Part.text]

/-- The parts of a text, with some levels left: how each use of a macro is expanded, from left
    to right. Where a call is passed on, the text goes on with the callee, one level deeper. -/
inductive Expands (table : Table) : Nat → List Char → List Part → Prop where
  | nil {levels : Nat} : Expands table levels [] []
  | kept {levels : Nat} {c : Char} {rest after : List Char} {lexeme : Text.Lexeme}
      {parts : List Part} :
      Text.leadingLexeme c rest = (lexeme, after) → table.Leaves lexeme →
      Expands table levels after parts →
      Expands table levels (c :: rest) (keep lexeme.text parts)
  | uncalled {levels : Nat} {c : Char} {rest name body after : List Char}
      {parameters : List (List Char)} {line : Nat} {parts : List Part} :
      Text.leadingLexeme c rest = (.name name, after) →
      table.find? name = some ⟨some parameters, body, line⟩ → arguments? after = none →
      Expands table (levels + 1) after parts →
      Expands table (levels + 1) (c :: rest) (keep name parts)
  | replaced {levels : Nat} {c : Char} {rest name body expansion after : List Char} {line : Nat}
      {parts : List Part} :
      Text.leadingLexeme c rest = (.name name, after) →
      table.find? name = some ⟨none, body, line⟩ →
      expandWithin table levels body = .ok expansion → table.passesOn? expansion after = none →
      Expands table (levels + 1) after parts →
      Expands table (levels + 1) (c :: rest) (.expansion expansion :: parts)
  | passedOn {levels : Nat} {c : Char} {rest name body expansion front callee after : List Char}
      {line : Nat} {parts : List Part} :
      Text.leadingLexeme c rest = (.name name, after) →
      table.find? name = some ⟨none, body, line⟩ →
      expandWithin table levels body = .ok expansion →
      table.passesOn? expansion after = some (front, callee) →
      Expands table levels (callee ++ after) parts →
      Expands table (levels + 1) (c :: rest) (.expansion front :: parts)
  | called {levels : Nat} {c : Char} {rest name body expansion after afterCall : List Char}
      {parameters written values : List (List Char)} {line : Nat} {parts : List Part} :
      Text.leadingLexeme c rest = (.name name, after) →
      table.find? name = some ⟨some parameters, body, line⟩ →
      arguments? after = some (written, afterCall) →
      (callArguments parameters written).length = parameters.length →
      (callArguments parameters written).mapM
        (fun argument => expandWithin table levels (Text.trim argument)) = .ok values →
      expandWithin table levels (substitute parameters values body) = .ok expansion →
      Expands table (levels + 1) afterCall parts →
      Expands table (levels + 1) (c :: rest) (.expansion expansion :: parts)

/-! ## Parts of texts -/

section Parts

variable {table : Table} {levels : Nat} {text : List Char} {parts : List Part}

/-- What is expanded is the text of its parts. -/
theorem Expands.expandWithin_eq (expands : Expands table levels text parts) :
    expandWithin table levels text = .ok (joined parts) := by
  induction expands with
  | @nil levels => cases levels <;> rw [expandWithin, scan] <;> rfl
  | kept begins leaves _ ih =>
    rw [joined_keep, expandWithin_of_leaves begins leaves, ih]
    rfl
  | uncalled begins found uncalled _ ih =>
    rw [expandWithin] at ih ⊢
    rw [joined_keep, scan_of_uncalled begins found uncalled, ih]
    rfl
  | replaced begins found ofBody stays _ ih =>
    rw [expandWithin] at ih ⊢
    rw [scan_of_replaced begins found ofBody stays, ih]
    rfl
  | passedOn begins found ofBody passes _ ih =>
    rw [expandWithin, scan_of_passedOn begins found ofBody passes, ih]
    rfl
  | called begins found called arity ofArguments ofBody _ ih =>
    rw [expandWithin] at ih ⊢
    rw [scan_of_called begins found called arity ofArguments, ofBody, ih]
    rfl

/-- Does an expander give nothing but the text of parts? -/
def GivesParts (table : Table) (levels : Nat)
    (expand : List Char → Except ExpansionProblem (List Char)) : Prop :=
  ∀ text expansion, expand text = .ok expansion →
    ∃ parts, Expands table levels text parts ∧ joined parts = expansion

theorem scan_givesParts {deeper : Option (List Char → Except ExpansionProblem (List Char))}
    (below : ∀ expand ∈ deeper, ∃ fewer, levels = fewer + 1 ∧ expand = expandWithin table fewer ∧
      GivesParts table fewer expand) : GivesParts table levels (scan table deeper) := by
  intro text expansion expanded
  rw [scan_eq_ok_iff] at expanded
  induction expanded with
  | nil => exact ⟨[], .nil, rfl⟩
  | kept begins leaves _ ih =>
    obtain ⟨parts, expands, rfl⟩ := ih
    exact ⟨_, .kept begins leaves expands, joined_keep _ parts⟩
  | uncalled given begins found uncalled _ ih =>
    obtain ⟨fewer, rfl, rfl, -⟩ := below _ given
    obtain ⟨parts, expands, rfl⟩ := ih
    exact ⟨_, .uncalled begins found uncalled expands, joined_keep _ parts⟩
  | replaced given begins found ofBody stays _ ih =>
    obtain ⟨fewer, rfl, rfl, -⟩ := below _ given
    obtain ⟨parts, expands, rfl⟩ := ih
    exact ⟨_, .replaced begins found ofBody stays expands, rfl⟩
  | passedOn given begins found ofBody passes ofCall =>
    obtain ⟨fewer, rfl, rfl, gives⟩ := below _ given
    obtain ⟨parts, expands, rfl⟩ := gives _ _ ofCall
    exact ⟨_, .passedOn begins found ofBody passes expands, rfl⟩
  | called given begins found called arity ofArguments ofBody _ ih =>
    obtain ⟨fewer, rfl, rfl, -⟩ := below _ given
    obtain ⟨parts, expands, rfl⟩ := ih
    exact ⟨_, .called begins found called arity ofArguments ofBody expands, rfl⟩

theorem expandWithin_givesParts (table : Table) (levels : Nat) :
    GivesParts table levels (expandWithin table levels) := by
  induction levels with
  | zero => exact scan_givesParts (by simp)
  | succ levels ih =>
    refine scan_givesParts fun expand same => ?_
    obtain rfl := Option.some.inj same
    exact ⟨levels, rfl, rfl, ih⟩

/-- A text has an expansion exactly if it has parts, and these make the expansion. -/
theorem expandWithin_eq_ok_iff {expansion : List Char} :
    expandWithin table levels text = .ok expansion ↔
      ∃ parts, Expands table levels text parts ∧ joined parts = expansion := by
  refine ⟨expandWithin_givesParts table levels text expansion, ?_⟩
  rintro ⟨parts, expands, rfl⟩
  exact expands.expandWithin_eq

end Parts

/-! ## Tokens -/

/-- Does no part end in a token that goes on into the next one? Parts around an empty one meet. -/
def KeepApart (parts : List Part) : Prop :=
  ((parts.map Part.text).filter (· ≠ [])).IsChain Text.Apart

/-- The tokens of parts, one after the other. -/
def tokensOf (parts : List Part) : List (List Char) :=
  parts.flatMap fun part => Text.tokens part.text

theorem tokens_joined_iff (parts : List Part) :
    Text.tokens (joined parts) = tokensOf parts ↔ KeepApart parts := by
  have cut := Text.tokens_flatten_iff (parts.map Part.text)
  rwa [← List.flatMap_def, List.flatMap_map] at cut

/-- The parts of a text make its expansion. Its tokens are those of the parts, one after the
    other, exactly if these keep apart. -/
theorem tokens_expand {table : Table} {text expansion : List Char}
    (expanded : expand table text = .ok expansion) :
    (∃ parts, Expands table expansionLimit text parts) ∧
      ∀ parts, Expands table expansionLimit text parts →
        joined parts = expansion ∧
          (Text.tokens expansion = tokensOf parts ↔ KeepApart parts) := by
  refine ⟨(expandWithin_eq_ok_iff.mp expanded).imp fun _ made => made.1, fun parts expands => ?_⟩
  have whole : joined parts = expansion :=
    Except.ok.inj (expands.expandWithin_eq.symm.trans expanded)
  exact ⟨whole, whole ▸ tokens_joined_iff parts⟩

/-- A body with a sign in front. -/
def signed : Table :=
  ⟨[(['N'], ⟨none, ['-', '1'], 1⟩)]⟩

/-- A use of that body in front of a text that is no call. -/
theorem Expands.signed {after : List Char} {parts : List Part}
    (ends : Text.leadingLexeme 'N' after = (.name ['N'], after))
    (stays : signed.passesOn? ['-', '1'] after = none)
    (later : Expands signed expansionLimit after parts) :
    Expands signed expansionLimit ('N' :: after) (.expansion ['-', '1'] :: parts) := by
  have found : Macro.signed.find? ['N'] = some ⟨none, ['-', '1'], 1⟩ := rfl
  have body : expandWithin Macro.signed 63 ['-', '1'] = .ok ['-', '1'] := by decide +kernel
  exact .replaced ends found body stays later

theorem tokens_expand_signed :
    expand signed ['-', ' ', 'N', '<', 'b'] = .ok ['-', ' ', '-', '1', '<', 'b'] ∧
      ∃ parts, Expands signed expansionLimit ['-', ' ', 'N', '<', 'b'] parts ∧ KeepApart parts ∧
        Text.tokens ['-', ' ', '-', '1', '<', 'b'] = tokensOf parts := by
  have expanded : expand signed ['-', ' ', 'N', '<', 'b'] =
      .ok ['-', ' ', '-', '1', '<', 'b'] := by decide +kernel
  have minus : Text.leadingLexeme '-' [' ', 'N', '<', 'b'] = (.gap ['-', ' '], ['N', '<', 'b']) := by
    decide +kernel
  have less : Text.leadingLexeme '<' ['b'] = (.gap ['<'], ['b']) := by decide +kernel
  have name : Text.leadingLexeme 'b' [] = (.name ['b'], []) := by decide +kernel
  have absent : signed.find? ['b'] = none := by decide
  have whole : Expands signed expansionLimit ['-', ' ', 'N', '<', 'b']
      [.kept ['-', ' '], .expansion ['-', '1'], .kept ['<', 'b']] :=
    .kept minus trivial (.signed (by decide +kernel) (by decide +kernel)
      (.kept less trivial (.kept name absent .nil)))
  have apart : KeepApart [.kept ['-', ' '], .expansion ['-', '1'], .kept ['<', 'b']] := by
    unfold KeepApart
    decide +kernel
  exact ⟨expanded, _, whole, apart, ((tokens_expand expanded).2 _ whole).2.mpr apart⟩

/-- A sign in front of a macro and the one that its body begins with become one operator. -/
theorem not_tokens_expand_signed :
    ¬ ∀ (table : Table) (text expansion : List Char),
      (∀ entry ∈ table.entries, ¬ ['#', '#'] <:+: entry.2.body) →
        expand table text = .ok expansion →
          ∀ parts, Expands table expansionLimit text parts →
            Text.tokens expansion = tokensOf parts := by
  intro claim
  have minus : Text.leadingLexeme '-' ['N'] = (.gap ['-'], ['N']) := by decide +kernel
  have whole : Expands signed expansionLimit ['-', 'N'] [.kept ['-'], .expansion ['-', '1']] :=
    .kept minus trivial (.signed (by decide +kernel) (by decide +kernel) .nil)
  have same := claim signed _ ['-', '-', '1'] (by decide) (by decide +kernel) _ whole
  revert same
  decide +kernel

end Multipass.Macro
