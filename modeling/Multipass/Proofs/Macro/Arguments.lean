import Mathlib.Data.List.Infix
import Multipass.Proofs.Macro.Call

/-!
# Calls are cut exactly

An argument may have parentheses of its own, as long as they are balanced, and commas inside of
them. A call gives back its arguments as they are written and takes up the text up to the
parenthesis that closes it. Where no parenthesis is opened, or the one that is opened is not
closed, there is no call.
-/

namespace Multipass.Macro

/-- Balanced parentheses: as many are closed as are opened, and none is closed that is not open. -/
structure Balanced (text : List Char) : Prop where
  closed : text.count ')' = text.count '('
  within : ∀ front, front <+: text → front.count ')' ≤ front.count '('

/-- Balanced parentheses, and commas inside of them only. -/
structure IsArgument (text : List Char) : Prop extends Balanced text where
  guarded : ∀ front, front ++ [','] <+: text → front.count ')' < front.count '('

/-- Does a text begin, behind spaces and tabs, with a parenthesis that is closed? -/
def BeginsCall (text : List Char) : Prop :=
  ∃ blanks inner after, (∀ c ∈ blanks, Text.isSpaceOrTab c = true) ∧ Balanced inner ∧
    text = blanks ++ '(' :: (inner ++ ')' :: after)

/-- The arguments of the call that a text begins with, and the number of bytes from the beginning
    of the text to behind the closing parenthesis. -/
def callExtent? (text : List Char) : Option (List (List Char) × Nat) :=
  (arguments? text).map fun (arguments, after) =>
    (arguments, (String.ofList text).utf8ByteSize - (String.ofList after).utf8ByteSize)

theorem balanced_iff_inits (text : List Char) : Balanced text ↔ text.count ')' = text.count '(' ∧
    ∀ front ∈ text.inits, front.count ')' ≤ front.count '(' := by
  simp only [List.mem_inits]
  exact ⟨fun ⟨closed, within⟩ => ⟨closed, within⟩, fun ⟨closed, within⟩ => ⟨closed, within⟩⟩

instance : DecidablePred Balanced := fun text =>
  decidable_of_iff' _ (balanced_iff_inits text)

theorem isArgument_iff_inits (text : List Char) : IsArgument text ↔ Balanced text ∧
    ∀ front ∈ text.inits, front ++ [','] <+: text → front.count ')' < front.count '(' := by
  constructor
  · exact fun ⟨balanced, guarded⟩ => ⟨balanced, fun front _ => guarded front⟩
  · intro ⟨balanced, guarded⟩
    refine ⟨balanced, fun front isFront => guarded front ?_ isFront⟩
    exact (List.mem_inits _ _).mpr ((List.prefix_append front [',']).trans isFront)

instance : DecidablePred IsArgument := fun text =>
  decidable_of_iff' _ (isArgument_iff_inits text)

/-! ## Inside open parentheses -/

/-- Inside `depth` open parentheses, a text closes none that is not open and leaves `left` of them
    open. -/
structure Leaves (depth left : Nat) (text : List Char) : Prop where
  level : left + text.count ')' = depth + text.count '('
  within : ∀ front, front <+: text → front.count ')' ≤ depth + front.count '('

/-- No comma of a text stands outside of all parentheses, `depth` of which are open in front of
    it. -/
def Guards (depth : Nat) (text : List Char) : Prop :=
  ∀ front, front ++ [','] <+: text → front.count ')' < depth + front.count '('

section Levels

variable {depth left : Nat} {c : Char} {text rest : List Char}

theorem leaves_zero_iff : Leaves 0 0 text ↔ Balanced text := by
  constructor
  · rintro ⟨level, within⟩
    simp only [Nat.zero_add] at level within
    exact ⟨level, within⟩
  · rintro ⟨closed, within⟩
    exact ⟨by rw [closed], fun front isFront => by simpa using within front isFront⟩

theorem count_cons_eq (c d : Char) (text : List Char) :
    (c :: text).count d = [c].count d + text.count d :=
  (List.count_append : ([c] ++ text).count d = _)

theorem leaves_cons_iff : Leaves depth left (c :: rest) ↔
    [c].count ')' ≤ depth + [c].count '(' ∧
      Leaves (depth + [c].count '(' - [c].count ')') left rest := by
  have opened := count_cons_eq c '('
  have closed := count_cons_eq c ')'
  constructor
  · rintro ⟨level, within⟩
    have first := within [c] (List.prefix_append [c] rest)
    refine ⟨first, by have := opened rest; have := closed rest; omega, fun front isFront => ?_⟩
    have later := within (c :: front) (List.cons_prefix_cons.mpr ⟨rfl, isFront⟩)
    have := opened front
    have := closed front
    omega
  · rintro ⟨first, level, within⟩
    refine ⟨by have := opened rest; have := closed rest; omega, fun front isFront => ?_⟩
    rcases List.prefix_cons_iff.mp isFront with rfl | ⟨later, rfl, isLater⟩
    · exact Nat.zero_le _
    · have := within later isLater
      have := opened later
      have := closed later
      omega

theorem Guards.tail (guards : Guards depth (c :: rest)) :
    (c = ',' → 0 < depth) ∧ Guards (depth + [c].count '(' - [c].count ')') rest := by
  constructor
  · rintro rfl
    exact guards [] (List.prefix_append [','] rest)
  · intro front isFront
    have later := guards (c :: front) (List.cons_prefix_cons.mpr ⟨rfl, isFront⟩)
    have := count_cons_eq c '(' front
    have := count_cons_eq c ')' front
    omega

/-- A text closes `depth` open parentheses, and then one more. -/
def Closes (depth : Nat) (text : List Char) : Prop :=
  ∃ inner after, Leaves depth 0 inner ∧ text = inner ++ ')' :: after

theorem closes_cons_iff : Closes depth (c :: rest) ↔ c = ')' ∧ depth = 0 ∨
    [c].count ')' ≤ depth + [c].count '(' ∧
      Closes (depth + [c].count '(' - [c].count ')') rest := by
  constructor
  · rintro ⟨inner, after, leaves, whole⟩
    cases inner with
    | nil => exact .inl ⟨(List.cons.inj whole).1, leaves.level.symm⟩
    | cons d inner =>
      obtain ⟨rfl, rfl⟩ := List.cons.inj whole
      obtain ⟨first, leaves⟩ := leaves_cons_iff.mp leaves
      exact .inr ⟨first, inner, after, leaves, rfl⟩
  · rintro (⟨rfl, rfl⟩ | ⟨first, inner, after, leaves, rfl⟩)
    · exact ⟨[], rest, leaves_zero_iff.mpr ⟨rfl, by simp⟩, rfl⟩
    · exact ⟨c :: inner, after, leaves_cons_iff.mpr ⟨first, leaves⟩, rfl⟩

end Levels

/-! ## Reading up to the closing parenthesis -/

/-- Put a text in front of the first argument. -/
def putInFront (front : List Char) (found : List (List Char) × List Char) :
    List (List Char) × List Char :=
  (found.1.modifyHead (front ++ ·), found.2)

theorem putInFront_nil (found : List (List Char) × List Char) : putInFront [] found = found := by
  obtain ⟨arguments, after⟩ := found
  cases arguments <;> rfl

theorem addToFirst_putInFront (c : Char) (front : List Char)
    (found : List (List Char) × List Char) :
    addToFirst c (putInFront front found) = putInFront (c :: front) found := by
  obtain ⟨arguments, after⟩ := found
  cases arguments <;> rfl

/-- A text without commas that separate belongs to the first argument. -/
theorem argumentsWithin?_append {depth left : Nat} {front : List Char}
    (leaves : Leaves depth left front) (guards : Guards depth front) (rest : List Char) :
    argumentsWithin? depth (front ++ rest) =
      (argumentsWithin? left rest).map (putInFront front) := by
  induction front generalizing depth with
  | nil =>
    have level : left = depth := leaves.level
    rw [level, List.nil_append, funext putInFront_nil]
    exact Option.map_id'.symm
  | cons c front ih =>
    obtain ⟨first, leaves⟩ := leaves_cons_iff.mp leaves
    obtain ⟨apart, guards⟩ := guards.tail
    have later := ih leaves guards
    have whole : (argumentsWithin? left rest).map (putInFront (c :: front)) =
        ((argumentsWithin? left rest).map (putInFront front)).map (addToFirst c) := by
      rw [Option.map_map]
      congr 1
      exact funext fun found => (addToFirst_putInFront c front found).symm
    rw [whole, ← later, List.cons_append, argumentsWithin?.eq_def]
    simp only
    by_cases opening : c = '('
    · subst opening
      rfl
    · rw [if_neg opening]
      by_cases closing : c = ')'
      · subst closing
        obtain ⟨outer, rfl⟩ : ∃ outer, depth = outer + 1 := Nat.exists_eq_add_of_le' first
        rfl
      · have same : depth + [c].count '(' - [c].count ')' = depth := by
          simp [opening, closing]
        have noSeparator : ¬ (c = ',' && depth == 0) = true := by
          simp only [Bool.and_eq_true, decide_eq_true_eq, beq_iff_eq, not_and]
          exact fun comma => Nat.ne_of_gt (apart comma)
        rw [if_neg closing, if_neg noSeparator, same]

/-- Arguments that are separated by commas are read one by one. -/
theorem argumentsWithin?_join {arguments : List (List Char)} (nonempty : arguments ≠ [])
    (separate : ∀ argument ∈ arguments, IsArgument argument) (after : List Char) :
    argumentsWithin? 0 (Text.join ',' arguments ++ ')' :: after) = some (arguments, after) := by
  induction arguments with
  | nil => exact absurd rfl nonempty
  | cons argument others ih =>
    have first := separate argument List.mem_cons_self
    have read := argumentsWithin?_append (leaves_zero_iff.mpr first.toBalanced)
      (by simpa [Guards] using first.guarded)
    by_cases last : others = []
    · subst last
      rw [Text.join, List.intercalate_singleton, read]
      simp [argumentsWithin?, putInFront]
    · have later := ih last fun other member => separate other (List.mem_cons_of_mem _ member)
      rw [join_cons argument last, List.append_assoc, List.cons_append, read]
      simp [argumentsWithin?, later, putInFront]

/-- Inside open parentheses, one of which is that of a call, a text is read up to the closing
    parenthesis if it closes all of them. -/
theorem isSome_argumentsWithin?_iff (depth : Nat) (text : List Char) :
    (argumentsWithin? depth text).isSome = true ↔ Closes depth text := by
  fun_induction argumentsWithin? depth text with
  | case1 depth =>
    simp [Closes]
  | case2 depth rest ih =>
    rw [Option.isSome_map, ih, closes_cons_iff]
    simp
  | case3 rest =>
    simp [closes_cons_iff]
  | case4 rest outer opening ih =>
    rw [Option.isSome_map, ih, closes_cons_iff]
    simp
  | case5 depth c rest opening closing separates ih =>
    have outside : depth = 0 := by simp_all
    rw [Option.isSome_map, ih, closes_cons_iff, outside]
    simp [opening, closing]
  | case6 depth c rest opening closing _ ih =>
    rw [Option.isSome_map, ih, closes_cons_iff]
    simp [opening, closing]

/-- Behind the blanks, a call begins with its parenthesis. -/
theorem arguments?_append {blanks : List Char} (blank : ∀ c ∈ blanks, Text.isSpaceOrTab c = true)
    (rest : List Char) : arguments? (blanks ++ '(' :: rest) = argumentsWithin? 0 rest := by
  have begins : (blanks ++ '(' :: rest).dropWhile Text.isSpaceOrTab = '(' :: rest := by
    rw [List.dropWhile_append_of_pos blank, List.dropWhile_cons_of_neg (by decide)]
  unfold arguments?
  rw [begins]
  rfl

theorem isSome_arguments?_iff (text : List Char) :
    (arguments? text).isSome = true ↔ BeginsCall text := by
  constructor
  · intro found
    unfold arguments? at found
    split at found
    · rename_i rest begins
      obtain ⟨inner, after, leaves, rfl⟩ := (isSome_argumentsWithin?_iff 0 rest).mp found
      refine ⟨text.takeWhile Text.isSpaceOrTab, inner, after,
        fun c member => List.mem_takeWhile_imp member, leaves_zero_iff.mp leaves, ?_⟩
      rw [← begins, List.takeWhile_append_dropWhile]
    · cases found
  · rintro ⟨blanks, inner, after, blank, balanced, rfl⟩
    rw [arguments?_append blank, isSome_argumentsWithin?_iff]
    exact ⟨inner, after, leaves_zero_iff.mpr balanced, rfl⟩

/-- A call gives back its arguments, unchanged and in order, and the bytes up to and with its
    closing parenthesis, whatever stands behind it. A text that begins with no parenthesis that is
    closed begins with no call, and any other does. -/
theorem callExtent?_exact :
    (∀ (blanks after : List Char) (arguments : List (List Char)),
      (∀ c ∈ blanks, Text.isSpaceOrTab c = true) → arguments ≠ [] →
      (∀ argument ∈ arguments, IsArgument argument) →
        callExtent? (blanks ++ '(' :: (Text.join ',' arguments ++ ')' :: after)) =
          some (arguments,
            (String.ofList (blanks ++ '(' :: (Text.join ',' arguments ++ [')']))).utf8ByteSize)) ∧
      ∀ text, callExtent? text = none ↔ ¬ BeginsCall text := by
  constructor
  · intro blanks after arguments blank nonempty separate
    have cut : blanks ++ '(' :: (Text.join ',' arguments ++ ')' :: after) =
        blanks ++ '(' :: (Text.join ',' arguments ++ [')']) ++ after := by simp
    rw [callExtent?, arguments?_append blank, argumentsWithin?_join nonempty separate,
      Option.map_some, cut, String.ofList_append, String.utf8ByteSize_append]
    simp only [Nat.add_sub_cancel]
  · intro text
    rw [callExtent?, Option.map_eq_none_iff, ← Option.not_isSome_iff_eq_none,
      isSome_arguments?_iff]

/-- A call with an empty argument and an argument that is a call, and a parenthesis that stays
    open. -/
theorem callExtent?_exact_nested :
    (∀ c ∈ [' ', '\t'], Text.isSpaceOrTab c = true) ∧
      (∀ argument ∈ ["é".toList, [], "f(a, b)".toList], IsArgument argument) ∧
      callExtent? " \t(é,,f(a, b)) * (c)".toList = some (["é".toList, [], "f(a, b)".toList], 15) ∧
      ¬ BeginsCall "(a, (b)".toList := by
  have blank : ∀ c ∈ [' ', '\t'], Text.isSpaceOrTab c = true := by simp [Text.isSpaceOrTab]
  have separate : ∀ argument ∈ ["é".toList, [], "f(a, b)".toList], IsArgument argument := by
    decide +kernel
  have cut := callExtent?_exact.1 _ " * (c)".toList _ blank (List.cons_ne_nil _ _) separate
  exact ⟨blank, separate, cut, (callExtent?_exact.2 _).mp (by decide +kernel)⟩

end Multipass.Macro
