import Multipass.Proofs.Macro.Filling
import Multipass.Proofs.Macro.Scanning

/-!
# Characters of an expansion

Expanding macros makes no characters up: each one stands in the text or in the body
of a macro. So a text without line feeds has an expansion without line feeds, and a
line stays one line.
-/

namespace Multipass.Macro

variable {c : Char} {table : Table}

theorem Table.mem_of_find? {name : List Char} {definition : Definition}
    (found : table.find? name = some definition) : (name, definition) ∈ table.entries := by
  obtain ⟨before, after, split, -⟩ := List.lookup_eq_some_iff.mp found
  simp [split]

/-- No body in the table has this character. -/
def Table.Avoids (c : Char) (table : Table) : Prop :=
  ∀ entry ∈ table.entries, c ∉ entry.2.body

theorem Table.Avoids.body {name : List Char} {definition : Definition} (avoids : table.Avoids c)
    (found : table.find? name = some definition) : c ∉ definition.body :=
  avoids (name, definition) (Table.mem_of_find? found)

theorem Table.Avoids.undefine (avoids : table.Avoids c) (name : List Char) :
    (table.undefine name).Avoids c := by
  intro entry member
  exact avoids entry (List.mem_of_mem_filter member)

theorem Table.Avoids.define {definition : Definition} (avoids : table.Avoids c)
    (name : List Char) (body : c ∉ definition.body) :
    (table.define name definition).Avoids c := by
  intro entry member
  rcases List.mem_cons.mp member with rfl | older
  · exact body
  · exact avoids.undefine name entry older

/-- The arguments and the text after them are made of characters of a text. -/
def ArgumentsFrom (text : List Char) (found : List (List Char) × List Char) : Prop :=
  (∀ argument ∈ found.1, argument ⊆ text) ∧ found.2 ⊆ text

theorem ArgumentsFrom.later {rest : List Char} {found : List (List Char) × List Char}
    (within : ArgumentsFrom rest found) (c : Char) : ArgumentsFrom (c :: rest) found := by
  have step : rest ⊆ c :: rest := List.subset_cons_self c rest
  exact ⟨fun argument member => List.Subset.trans (within.1 argument member) step,
    List.Subset.trans within.2 step⟩

theorem ArgumentsFrom.addToFirst {rest : List Char} {found : List (List Char) × List Char}
    (within : ArgumentsFrom rest found) (c : Char) :
    ArgumentsFrom (c :: rest) (addToFirst c found) := by
  obtain ⟨arguments, after⟩ := found
  refine ⟨?_, (within.later c).2⟩
  cases arguments with
  | nil => simp [Macro.addToFirst]
  | cons first others =>
    intro argument member
    rcases List.mem_cons.mp member with rfl | other
    · exact List.cons_subset_cons c (within.1 first List.mem_cons_self)
    · exact (within.later c).1 argument (List.mem_cons_of_mem _ other)

theorem argumentsWithin?_subset {depth : Nat} {text : List Char}
    {found : List (List Char) × List Char} (result : argumentsWithin? depth text = some found) :
    ArgumentsFrom text found := by
  fun_induction argumentsWithin? depth text generalizing found with
  | case1 => simp at result
  | case2 depth rest ih =>
    obtain ⟨inner, closed, rfl⟩ := Option.map_eq_some_iff.mp result
    exact (ih closed).addToFirst _
  | case3 rest =>
    simp only [Option.some.injEq] at result
    subst result
    simp [ArgumentsFrom]
  | case4 rest _ outer ih =>
    obtain ⟨inner, closed, rfl⟩ := Option.map_eq_some_iff.mp result
    exact (ih closed).addToFirst _
  | case5 depth c rest _ _ _ ih =>
    obtain ⟨inner, closed, rfl⟩ := Option.map_eq_some_iff.mp result
    have within := (ih closed).later c
    refine ⟨?_, within.2⟩
    intro argument member
    rcases List.mem_cons.mp member with rfl | other
    · exact List.nil_subset _
    · exact within.1 argument other
  | case6 depth c rest _ _ _ ih =>
    obtain ⟨inner, closed, rfl⟩ := Option.map_eq_some_iff.mp result
    exact (ih closed).addToFirst _

theorem arguments?_subset {text : List Char} {found : List (List Char) × List Char}
    (result : arguments? text = some found) : ArgumentsFrom text found := by
  unfold arguments? at result
  split at result
  · rename_i rest opened
    have within := argumentsWithin?_subset result
    have part : rest ⊆ text := by
      intro c member
      refine (List.dropWhile_sublist Text.isSpaceOrTab).subset ?_
      rw [opened]
      exact List.mem_cons_of_mem _ member
    exact ⟨fun argument member => List.Subset.trans (within.1 argument member) part,
      List.Subset.trans within.2 part⟩
  · simp at result

theorem callArguments_subset (parameters arguments : List (List Char)) :
    callArguments parameters arguments ⊆ arguments := by
  unfold callArguments
  split
  · split
    · exact List.nil_subset _
    · exact List.Subset.refl _
  · exact List.Subset.refl _

theorem afterJoin?_subset {text after : List Char} (joined : afterJoin? text = some after) :
    after ⊆ text := by
  unfold afterJoin? at joined
  split at joined
  · rename_i later spaced
    have part : ('#' :: '#' :: later).Sublist text := spaced ▸ List.dropWhile_sublist _
    intro x member
    rw [← Option.some.inj joined] at member
    have inLater : x ∈ later := (List.dropWhile_sublist _).subset member
    exact part.subset (List.mem_cons_of_mem _ (List.mem_cons_of_mem _ inLater))
  · cases joined

theorem paste_subset (text : List Char) : paste text ⊆ text := by
  fun_induction paste text with
  | case1 => exact List.Subset.refl _
  | case2 c rest after joined _ ih => exact List.Subset.trans ih (afterJoin?_subset joined)
  | case3 c rest _ ih => exact List.cons_subset_cons c ih

theorem substitute_avoids {parameters arguments : List (List Char)} {body : List Char}
    (inBody : c ∉ body) (inArguments : ∀ argument ∈ arguments, c ∉ argument) :
    c ∉ substitute parameters arguments body :=
  fun member => notMem_filled inBody inArguments (paste_subset _ member)

theorem trailingNameChars_subset (text : List Char) :
    (Text.trailingNameChars text).1 ⊆ text ∧ (Text.trailingNameChars text).2 ⊆ text := by
  refine ⟨Text.dropTrailing_subset _ _, ?_⟩
  intro x member
  exact List.mem_reverse.mp ((List.takeWhile_sublist _).subset (List.mem_reverse.mp member))

theorem trailingCallee?_subset {expansion front callee : List Char}
    (found : trailingCallee? table expansion = some (front, callee)) :
    front ⊆ expansion ∧ callee ⊆ expansion := by
  have parts := trailingNameChars_subset expansion
  rwa [(trailingCallee?_cases found).1] at parts

/-- Does a macro bring a character up only where an argument has it? -/
def Definition.KeepsOut (c : Char) (definition : Definition) : Prop :=
  match definition.parameters with
  | none => c ∉ definition.body
  | some parameters => ∀ arguments : List (List Char), (∀ argument ∈ arguments, c ∉ argument) →
      c ∉ substitute parameters arguments definition.body

/-- A table none of whose macros brings in a character that its arguments do not have. -/
def Table.KeepsOut (c : Char) (table : Table) : Prop :=
  ∀ name definition, table.find? name = some definition → definition.KeepsOut c

theorem Table.Avoids.keepsOut (avoids : table.Avoids c) : table.KeepsOut c := by
  intro name definition found
  unfold Definition.KeepsOut
  split
  · exact avoids.body found
  · exact fun _ => substitute_avoids (avoids.body found)

/-- A function that gives texts without a character for texts without it. -/
def Keeps (c : Char) (expand : List Char → Except ExpansionProblem (List Char)) : Prop :=
  ∀ text expansion, c ∉ text → expand text = .ok expansion → c ∉ expansion

theorem notMem_lexeme {first : Char} {rest after : List Char} {lexeme : Text.Lexeme}
    (begins : Text.leadingLexeme first rest = (lexeme, after)) (absent : c ∉ first :: rest) :
    c ∉ lexeme.text ∧ c ∉ after := by
  obtain ⟨rfl, rfl⟩ := Prod.ext_iff.mp begins
  have parts := Text.leadingLexeme_subset first rest
  exact ⟨fun member => absent (parts.1 member), fun member => absent (parts.2 member)⟩

theorem notMem_append {front back : List Char} (inFront : c ∉ front) (inBack : c ∉ back) :
    c ∉ front ++ back := by
  simp [inFront, inBack]

/-- The values of the arguments of a call have no character that the call does not have. -/
theorem Keeps.values {expand : List Char → Except ExpansionProblem (List Char)}
    {after afterCall : List Char} {parameters written values : List (List Char)}
    (keeps : Keeps c expand) (absent : c ∉ after)
    (called : arguments? after = some (written, afterCall))
    (ofArguments : (callArguments parameters written).mapM
      (fun argument => expand (Text.trim argument)) = .ok values) :
    ∀ value ∈ values, c ∉ value := by
  intro value member
  obtain ⟨argument, given, gives⟩ := exists_of_mem_mapM ofArguments member
  have inAfter := (arguments?_subset called).1 argument (callArguments_subset _ _ given)
  exact keeps _ _ (fun inTrimmed => absent (inAfter (Text.trim_subset argument inTrimmed))) gives

theorem scan_keeps {deeper : Option (List Char → Except ExpansionProblem (List Char))}
    (keepsOut : table.KeepsOut c) (keeps : ∀ expand ∈ deeper, Keeps c expand) :
    Keeps c (scan table deeper) := by
  intro text expansion absent expanded
  rw [scan_eq_ok_iff] at expanded
  induction expanded with
  | nil => exact List.not_mem_nil
  | kept begins _ _ ih =>
    obtain ⟨inLexeme, inAfter⟩ := notMem_lexeme begins absent
    exact notMem_append inLexeme (ih inAfter)
  | uncalled _ begins _ _ _ ih =>
    obtain ⟨inName, inAfter⟩ := notMem_lexeme begins absent
    exact notMem_append inName (ih inAfter)
  | replaced given begins found ofBody _ _ ih =>
    obtain ⟨-, inAfter⟩ := notMem_lexeme begins absent
    have inExpansion := keeps _ given _ _ (keepsOut _ _ found) ofBody
    exact notMem_append inExpansion (ih inAfter)
  | passedOn given begins found ofBody passes ofCall =>
    obtain ⟨-, inAfter⟩ := notMem_lexeme begins absent
    have inExpansion := keeps _ given _ _ (keepsOut _ _ found) ofBody
    have pieces := trailingCallee?_subset (trailingCallee?_of_passesOn? passes)
    have inCall := notMem_append (fun member => inExpansion (pieces.2 member)) inAfter
    exact notMem_append (fun member => inExpansion (pieces.1 member)) (keeps _ given _ _ inCall ofCall)
  | called given begins found called _ ofArguments ofBody _ ih =>
    obtain ⟨-, inAfter⟩ := notMem_lexeme begins absent
    have inValues := (keeps _ given).values inAfter called ofArguments
    have inExpansion := keeps _ given _ _ (keepsOut _ _ found _ inValues) ofBody
    have within := (arguments?_subset called).2
    exact notMem_append inExpansion (ih fun member => inAfter (within member))

theorem expandWithin_keeps (keepsOut : table.KeepsOut c) (levels : Nat) :
    Keeps c (expandWithin table levels) := by
  induction levels with
  | zero => exact scan_keeps keepsOut (by simp)
  | succ levels ih => exact scan_keeps keepsOut (by simpa using ih)

/-- A character that neither the text nor any body has is not in the expansion. -/
theorem notMem_expand {text expansion : List Char} (avoids : table.Avoids c) (absent : c ∉ text)
    (expanded : expand table text = .ok expansion) : c ∉ expansion :=
  expandWithin_keeps avoids.keepsOut expansionLimit text expansion absent expanded

end Multipass.Macro
