import Multipass.Macro.Expansion
import Multipass.Proofs.Fallible

/-!
# Going through a text

What a scan does with a text, one lexeme at a time, where it meets no problem: a lexeme is kept, a
name gives way to its body or to its call, or the rest of the text is passed on. Whatever holds of
the expansions that scans give is an induction over these ways to go on.
-/

namespace Multipass.Macro

/-- Is a lexeme no use of a macro? -/
def Table.Leaves (table : Table) : Text.Lexeme → Prop
  | .number _ | .gap _ => True
  | .name name => table.find? name = none

/-- Is a call passed on to what follows, with the name that an expansion ends in? -/
def Table.passesOn? (table : Table) (expansion after : List Char) :
    Option (List Char × List Char) :=
  if (Text.trimStart after).head? = some '(' then trailingCallee? table expansion else none

/-- A callee is the name of a macro with parameters, with all characters of that name. -/
theorem trailingCallee?_cases {table : Table} {expansion front callee : List Char}
    (found : trailingCallee? table expansion = some (front, callee)) :
    Text.trailingNameChars expansion = (front, callee) ∧
      (∃ c rest, callee = c :: rest ∧ Text.isNameStart c = true) ∧
      ∃ parameters body line, table.find? callee = some ⟨some parameters, body, line⟩ := by
  unfold trailingCallee? at found
  generalize Text.trailingNameChars expansion = cut at found ⊢
  obtain ⟨before, name⟩ := cut
  cases name with
  | nil => cases found
  | cons c rest =>
    obtain ⟨called, same⟩ := Option.ite_none_right_eq_some.mp found
    obtain ⟨rfl, rfl⟩ := Prod.mk.inj (Option.some.inj same)
    obtain ⟨start, takes⟩ := Bool.and_eq_true_iff.mp called
    obtain ⟨⟨parameters, body, line⟩, isMacro, given⟩ := (Option.any_eq_true _ _).mp takes
    obtain ⟨parameters, rfl⟩ := Option.isSome_iff_exists.mp given
    exact ⟨rfl, ⟨c, rest, rfl, start⟩, parameters, body, line, isMacro⟩

theorem trailingCallee?_of_passesOn? {table : Table} {expansion after : List Char}
    {cut : List Char × List Char} (passes : table.passesOn? expansion after = some cut) :
    trailingCallee? table expansion = some cut :=
  (Option.ite_none_right_eq_some.mp passes).2

/-! ## One lexeme at a time -/

section Steps

variable {table : Table} {c : Char} {rest after : List Char}

theorem scan_of_leaves {lexeme : Text.Lexeme} (begins : Text.leadingLexeme c rest = (lexeme, after))
    (leaves : table.Leaves lexeme)
    (deeper : Option (List Char → Except ExpansionProblem (List Char))) :
    scan table deeper (c :: rest) = (lexeme.text ++ ·) <$> scan table deeper after := by
  obtain ⟨isLexeme, rfl⟩ := Prod.ext_iff.mp begins
  rw [scan]
  cases lexeme with
  | number text | gap text => rw [isLexeme]; rfl
  | name name =>
    simp only [isLexeme, show table.find? name = none from leaves]
    rfl

theorem expandWithin_of_leaves {levels : Nat} {lexeme : Text.Lexeme}
    (begins : Text.leadingLexeme c rest = (lexeme, after)) (leaves : table.Leaves lexeme) :
    expandWithin table levels (c :: rest) =
      (lexeme.text ++ ·) <$> expandWithin table levels after := by
  cases levels <;> exact scan_of_leaves begins leaves _

variable {name body : List Char} {line : Nat}
  {expand : List Char → Except ExpansionProblem (List Char)}

section Plain

variable (begins : Text.leadingLexeme c rest = (.name name, after))
  (found : table.find? name = some ⟨none, body, line⟩) {expansion : List Char}
  (ofBody : expand body = .ok expansion)

include begins found ofBody

theorem scan_of_replaced (stays : table.passesOn? expansion after = none) :
    scan table (some expand) (c :: rest) = (expansion ++ ·) <$> scan table (some expand) after := by
  rw [scan]
  simp only [begins, found, ofBody, bind, Except.bind]
  unfold Table.passesOn? at stays
  split
  · rfl
  · rename_i passes
    rw [passes] at stays
    split at stays
    · cases stays
    · rename_i uncalled
      exact if_neg uncalled

theorem scan_of_passedOn {front callee : List Char}
    (passes : table.passesOn? expansion after = some (front, callee)) :
    scan table (some expand) (c :: rest) = (front ++ ·) <$> expand (callee ++ after) := by
  obtain ⟨called, cut⟩ := Option.ite_none_right_eq_some.mp passes
  rw [scan]
  simp only [begins, found, ofBody, bind, Except.bind, cut]
  exact if_pos called

end Plain

section Called

variable {parameters : List (List Char)} (begins : Text.leadingLexeme c rest = (.name name, after))
  (found : table.find? name = some ⟨some parameters, body, line⟩)

include begins found

theorem scan_of_uncalled (uncalled : arguments? after = none) :
    scan table (some expand) (c :: rest) = (name ++ ·) <$> scan table (some expand) after := by
  obtain ⟨isName, rfl⟩ := Prod.ext_iff.mp begins
  rw [scan]
  simp only [isName, found]
  split
  · rfl
  · rename_i called
    rw [uncalled] at called
    cases called

theorem scan_of_called {written values : List (List Char)} {afterCall : List Char}
    (called : arguments? after = some (written, afterCall))
    (arity : (callArguments parameters written).length = parameters.length)
    (ofArguments : (callArguments parameters written).mapM (fun argument =>
      expand (Text.trim argument)) = .ok values) :
    scan table (some expand) (c :: rest) = expand (substitute parameters values body) >>=
      fun expansion => (expansion ++ ·) <$> scan table (some expand) afterCall := by
  obtain ⟨isName, rfl⟩ := Prod.ext_iff.mp begins
  rw [scan]
  simp only [isName, found]
  split
  · rename_i uncalled
    rw [called] at uncalled
    cases uncalled
  · rename_i same
    obtain ⟨rfl, rfl⟩ := Prod.mk.inj (Option.some.inj (called.symm.trans same))
    rw [if_pos arity, ofArguments]
    rfl

end Called

end Steps

/-! ## A whole text -/

/-- What a text becomes where no problem comes up in it. Bodies, arguments and texts that are passed
    on are left to `deeper`. -/
inductive Scans (table : Table)
    (deeper : Option (List Char → Except ExpansionProblem (List Char))) :
    List Char → List Char → Prop where
  | nil : Scans table deeper [] []
  | kept {c : Char} {rest after later : List Char} {lexeme : Text.Lexeme} :
      Text.leadingLexeme c rest = (lexeme, after) → table.Leaves lexeme →
      Scans table deeper after later →
      Scans table deeper (c :: rest) (lexeme.text ++ later)
  | uncalled {c : Char} {rest name body after later : List Char} {parameters : List (List Char)}
      {line : Nat} {expand : List Char → Except ExpansionProblem (List Char)} :
      expand ∈ deeper → Text.leadingLexeme c rest = (.name name, after) →
      table.find? name = some ⟨some parameters, body, line⟩ → arguments? after = none →
      Scans table deeper after later →
      Scans table deeper (c :: rest) (name ++ later)
  | replaced {c : Char} {rest name body expansion after later : List Char} {line : Nat}
      {expand : List Char → Except ExpansionProblem (List Char)} :
      expand ∈ deeper → Text.leadingLexeme c rest = (.name name, after) →
      table.find? name = some ⟨none, body, line⟩ → expand body = .ok expansion →
      table.passesOn? expansion after = none →
      Scans table deeper after later →
      Scans table deeper (c :: rest) (expansion ++ later)
  | passedOn {c : Char} {rest name body expansion front callee after later : List Char} {line : Nat}
      {expand : List Char → Except ExpansionProblem (List Char)} :
      expand ∈ deeper → Text.leadingLexeme c rest = (.name name, after) →
      table.find? name = some ⟨none, body, line⟩ → expand body = .ok expansion →
      table.passesOn? expansion after = some (front, callee) →
      expand (callee ++ after) = .ok later →
      Scans table deeper (c :: rest) (front ++ later)
  | called {c : Char} {rest name body expansion after afterCall later : List Char}
      {parameters written values : List (List Char)} {line : Nat}
      {expand : List Char → Except ExpansionProblem (List Char)} :
      expand ∈ deeper → Text.leadingLexeme c rest = (.name name, after) →
      table.find? name = some ⟨some parameters, body, line⟩ →
      arguments? after = some (written, afterCall) →
      (callArguments parameters written).length = parameters.length →
      (callArguments parameters written).mapM
        (fun argument => expand (Text.trim argument)) = .ok values →
      expand (substitute parameters values body) = .ok expansion →
      Scans table deeper afterCall later →
      Scans table deeper (c :: rest) (expansion ++ later)

section Scan

variable {table : Table} {deeper : Option (List Char → Except ExpansionProblem (List Char))}

theorem Scans.scan_eq {text expansion : List Char} (scans : Scans table deeper text expansion) :
    scan table deeper text = .ok expansion := by
  induction scans with
  | nil => rw [scan]
  | kept begins leaves _ ih =>
    rw [scan_of_leaves begins leaves, ih]
    rfl
  | uncalled given begins found uncalled _ ih =>
    obtain rfl := Option.mem_def.mp given
    rw [scan_of_uncalled begins found uncalled, ih]
    rfl
  | replaced given begins found ofBody stays _ ih =>
    obtain rfl := Option.mem_def.mp given
    rw [scan_of_replaced begins found ofBody stays, ih]
    rfl
  | passedOn given begins found ofBody passes ofCall =>
    obtain rfl := Option.mem_def.mp given
    rw [scan_of_passedOn begins found ofBody passes, ofCall]
    rfl
  | called given begins found called arity ofArguments ofBody _ ih =>
    obtain rfl := Option.mem_def.mp given
    rw [scan_of_called begins found called arity ofArguments, ofBody, ih]
    rfl

theorem scans_of_scan_eq {text : List Char} (expansion : List Char)
    (expanded : scan table deeper text = .ok expansion) :
    Scans table deeper text expansion := by
  fun_induction scan table deeper text generalizing expansion with
  | case1 =>
    cases expanded
    exact .nil
  | case2 c rest after _ text isLexeme ih | case3 c rest after _ text isLexeme ih =>
    obtain ⟨later, scanned, rfl⟩ := map_eq_ok_iff.mp expanded
    exact .kept (Prod.ext isLexeme rfl) trivial (ih later scanned)
  | case4 c rest after _ name isName absent ih =>
    obtain ⟨later, scanned, rfl⟩ := map_eq_ok_iff.mp expanded
    exact .kept (Prod.ext isName rfl) absent (ih later scanned)
  | case5 => cases expanded
  | case6 c rest after _ name isName body line expand given found ih =>
    subst given
    have begins : Text.leadingLexeme c rest = (.name name, after) := Prod.ext isName rfl
    obtain ⟨inner, ofBody, expanded⟩ := bind_eq_ok_iff.mp expanded
    have replaced (stays : table.passesOn? inner after = none)
        (ofRest : (inner ++ ·) <$> scan table (some expand) after = .ok expansion) :
        Scans table (some expand) (c :: rest) expansion := by
      obtain ⟨later, scanned, rfl⟩ := map_eq_ok_iff.mp ofRest
      exact .replaced rfl begins found ofBody stays (ih later scanned)
    split at expanded
    · rename_i noCallee
      exact replaced (by rw [Table.passesOn?, noCallee, ite_self]) expanded
    · rename_i front callee cut
      split at expanded
      · rename_i called
        obtain ⟨later, ofCall, rfl⟩ := map_eq_ok_iff.mp expanded
        exact .passedOn rfl begins found ofBody ((if_pos called).trans cut) ofCall
      · rename_i uncalled
        exact replaced (if_neg uncalled) expanded
  | case7 c rest after _ name isName parameters body line expand given found uncalled ih =>
    subst given
    obtain ⟨later, scanned, rfl⟩ := map_eq_ok_iff.mp expanded
    exact .uncalled rfl (Prod.ext isName rfl) found uncalled (ih later scanned)
  | case8 c rest after _ name isName parameters body line expand given found written afterCall
      called _ arguments arity ih =>
    subst given
    obtain ⟨values, ofArguments, expanded⟩ := bind_eq_ok_iff.mp expanded
    obtain ⟨inner, ofBody, expanded⟩ := bind_eq_ok_iff.mp expanded
    obtain ⟨later, scanned, rfl⟩ := map_eq_ok_iff.mp expanded
    exact .called rfl (Prod.ext isName rfl) found called arity ofArguments ofBody (ih later scanned)
  | case9 => cases expanded

theorem scan_eq_ok_iff {text expansion : List Char} :
    scan table deeper text = .ok expansion ↔ Scans table deeper text expansion :=
  ⟨scans_of_scan_eq expansion, Scans.scan_eq⟩

end Scan

end Multipass.Macro
