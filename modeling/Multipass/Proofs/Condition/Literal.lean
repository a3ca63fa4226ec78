import Mathlib.Data.List.Forall2
import Mathlib.Data.Nat.Digits.Defs
import Multipass.Condition.Token
import Multipass.Proofs.Text.Blank

/-!
# Integer literals

What an integer literal is, said without reading one: digits of a base, most
significant first, after the mark of the base and before any number of `u`. The reader
of literals accepts these and gives their value.
-/

namespace Multipass.Condition

/-- A digit of a base up to sixteen; letters in either case. -/
def IsDigit (base : Nat) (c : Char) (digit : Nat) : Prop :=
  digit < base ∧ (c = digit.digitChar ∨ c = digit.digitChar.toUpper)

/-- A row of one or more digits, the most significant first, and its value. -/
def IsNumeral (base : Nat) (text : List Char) (value : Nat) : Prop :=
  text ≠ [] ∧ ∃ digits, List.Forall₂ (IsDigit base) text digits ∧
    value = Nat.ofDigits base digits.reverse

/-- Any number of `u`, in either case. -/
def IsSuffix (text : List Char) : Prop :=
  ∀ c ∈ text, c = 'u' ∨ c = 'U'

/-- Literals and their magnitude. A first digit `0` marks a literal as octal, unless it
    is the only digit, and `0x` marks it as hexadecimal. -/
inductive IsLiteral : List Char → Nat → Prop where
  | decimal {digits suffix : List Char} {value : Nat} :
      IsNumeral 10 digits value → (digits.head? = some '0' → digits = ['0']) →
      IsSuffix suffix → IsLiteral (digits ++ suffix) value
  | octal {digits suffix : List Char} {value : Nat} :
      IsNumeral 8 digits value → IsSuffix suffix → IsLiteral ('0' :: digits ++ suffix) value
  | hexadecimal {digits suffix : List Char} {value : Nat} {mark : Char} :
      mark = 'x' ∨ mark = 'X' → IsNumeral 16 digits value → IsSuffix suffix →
      IsLiteral ('0' :: mark :: digits ++ suffix) value

/-! ## Digits -/

section Digits

variable {base digit : Nat} {c : Char}

/-- What holds of the characters of all sixteen digits holds of a digit. -/
theorem IsDigit.of_all {p : Char → Nat → Prop}
    (all : ∀ digit < 16, p digit.digitChar digit ∧ p digit.digitChar.toUpper digit)
    (isDigit : IsDigit base c digit) (small : base ≤ 16) : p c digit := by
  obtain ⟨below, rfl | rfl⟩ := isDigit
  · exact (all digit (Nat.lt_of_lt_of_le below small)).1
  · exact (all digit (Nat.lt_of_lt_of_le below small)).2

theorem digitValue?_of_isDigit (isDigit : IsDigit base c digit) (small : base ≤ 16) :
    digitValue? c = some digit :=
  isDigit.of_all (p := fun c digit => digitValue? c = some digit) (by decide) small

theorem isDigit_of_digitValue? (found : digitValue? c = some digit) (below : digit < base)
    (small : base ≤ 16) : IsDigit base c digit := by
  have bound : digit < 16 := Nat.lt_of_lt_of_le below small
  have decimal : ∀ n < 58, 48 ≤ n → Char.ofNat n = (n - 48).digitChar := by decide
  have lower : ∀ n < 103, 97 ≤ n → Char.ofNat n = (n - 97 + 10).digitChar := by decide
  have upper : ∀ n < 71, 65 ≤ n → Char.ofNat n = (n - 65 + 10).digitChar.toUpper := by decide
  refine ⟨below, ?_⟩
  rw [← Char.ofNat_toNat c]
  unfold digitValue? at found
  split at found
  · rename_i inside
    obtain ⟨low, high⟩ := Char.isDigit_iff_toNat.mp inside
    rw [← Option.some.inj found]
    exact .inl (decimal c.toNat (Nat.lt_succ_of_le high) low)
  · split at found
    · rename_i inside
      obtain ⟨low, -⟩ := (Bool.and_eq_true _ _).mp inside
      have low : 97 ≤ c.toNat := of_decide_eq_true low
      have size : c.toNat - 97 + 10 = digit := Option.some.inj found
      rw [← size]
      exact .inl (lower c.toNat (by omega) low)
    · obtain ⟨inside, found⟩ := Option.ite_none_right_eq_some.mp found
      obtain ⟨low, -⟩ := (Bool.and_eq_true _ _).mp inside
      have low : 65 ≤ c.toNat := of_decide_eq_true low
      have size : c.toNat - 65 + 10 = digit := Option.some.inj found
      rw [← size]
      exact .inr (upper c.toNat (by omega) low)

end Digits

/-! ## Numerals -/

section Numerals

variable {base : Nat} {text : List Char}

/-- One step of reading a numeral. -/
theorem addDigit_eq_some_iff {value next : Nat} {c : Char} (small : base ≤ 16) :
    ((digitValue? c).bind fun digit =>
        if digit < base then some (value * base + digit) else none) = some next ↔
      ∃ digit, IsDigit base c digit ∧ next = value * base + digit := by
  constructor
  · intro added
    obtain ⟨digit, found, added⟩ := Option.bind_eq_some_iff.mp added
    obtain ⟨below, same⟩ := Option.ite_none_right_eq_some.mp added
    exact ⟨digit, isDigit_of_digitValue? found below small, (Option.some.inj same).symm⟩
  · rintro ⟨digit, isDigit, rfl⟩
    rw [digitValue?_of_isDigit isDigit small]
    exact if_pos isDigit.1

/-- The digits that were read count as one digit in front of the others. -/
theorem ofDigits_reverse_cons (base first second : Nat) (digits : List Nat) :
    Nat.ofDigits base ((first * base + second) :: digits).reverse =
      Nat.ofDigits base (first :: second :: digits).reverse := by
  simp only [List.reverse_cons, List.append_assoc, Nat.ofDigits_append, List.cons_append,
    List.nil_append, Nat.ofDigits_cons, Nat.ofDigits_nil]
  ring

theorem foldlM_digits_eq_some_iff {read value : Nat} (small : base ≤ 16) :
    text.foldlM (fun value c => (digitValue? c).bind fun digit =>
        if digit < base then some (value * base + digit) else none) read = some value ↔
      ∃ digits, List.Forall₂ (IsDigit base) text digits ∧
        value = Nat.ofDigits base (read :: digits).reverse := by
  induction text generalizing read with
  | nil =>
    simp only [List.foldlM_nil, List.forall₂_nil_left_iff, exists_eq_left]
    simp [eq_comm]
  | cons c rest ih =>
    rw [List.foldlM_cons]
    constructor
    · intro folded
      obtain ⟨next, added, folded⟩ := Option.bind_eq_some_iff.mp folded
      obtain ⟨digit, isDigit, rfl⟩ := (addDigit_eq_some_iff small).mp added
      obtain ⟨digits, areDigits, rfl⟩ := ih.mp folded
      exact ⟨digit :: digits, .cons isDigit areDigits, ofDigits_reverse_cons _ _ _ _⟩
    · rintro ⟨_, _ | ⟨isDigit, areDigits⟩, rfl⟩
      refine Option.bind_eq_some_iff.mpr ⟨_, (addDigit_eq_some_iff small).mpr
        ⟨_, isDigit, rfl⟩, ih.mpr ⟨_, areDigits, (ofDigits_reverse_cons _ _ _ _).symm⟩⟩

theorem digitsValue?_eq_some_iff {value : Nat} (small : base ≤ 16) :
    digitsValue? base text = some value ↔ IsNumeral base text value := by
  unfold digitsValue? IsNumeral
  rw [Option.ite_none_left_eq_some, List.isEmpty_iff]
  refine and_congr_right fun _ => (foldlM_digits_eq_some_iff small).trans ?_
  simp [Nat.ofDigits_append]

theorem IsNumeral.forall_mem {value : Nat} {p : Char → Prop} (numeral : IsNumeral base text value)
    (all : ∀ c digit, IsDigit base c digit → p c) : ∀ c ∈ text, p c := by
  obtain ⟨-, digits, areDigits, -⟩ := numeral
  intro c member
  obtain ⟨index, inside, rfl⟩ := List.getElem_of_mem member
  exact all _ _ (areDigits.get inside (areDigits.length_eq ▸ inside))

end Numerals

/-! ## Literals -/

section Literals

variable {text : List Char} {value : Nat}

/-- No digit is taken for a part of the suffix. -/
theorem notSuffix_of_isDigit {base digit : Nat} {c : Char} (isDigit : IsDigit base c digit)
    (small : base ≤ 16) : (c == 'u' || c == 'U') = false :=
  isDigit.of_all (p := fun c _ => (c == 'u' || c == 'U') = false) (by decide) small

theorem isAlphanum_of_isDigit {base digit : Nat} {c : Char} (isDigit : IsDigit base c digit)
    (small : base ≤ 16) : c.isAlphanum = true :=
  isDigit.of_all (p := fun c _ => c.isAlphanum = true) (by decide) small

theorem IsSuffix.forall_mem (suffix : IsSuffix text) {p : Char → Prop} (lower : p 'u')
    (upper : p 'U') : ∀ c ∈ text, p c := by
  intro c member
  rcases suffix c member with rfl | rfl
  · exact lower
  · exact upper

/-- The suffix is what the reader of literals trims. -/
theorem dropTrailing_suffix {front suffix : List Char}
    (stays : ∀ c ∈ front, (c == 'u' || c == 'U') = false) (isSuffix : IsSuffix suffix) :
    Text.dropTrailing (fun c => c == 'u' || c == 'U') (front ++ suffix) = front :=
  Text.dropTrailing_append_of_all stays (isSuffix.forall_mem rfl rfl)

theorem isSuffix_trimmed (text : List Char) :
    IsSuffix (text.reverse.takeWhile fun c => c == 'u' || c == 'U').reverse := by
  intro c member
  have trimmed := List.all_eq_true.mp List.all_takeWhile c (List.mem_reverse.mp member)
  simpa using trimmed

/-- A literal is made of letters and digits, and begins with a digit. -/
theorem IsLiteral.isAlphanum (literal : IsLiteral text value) :
    ∀ c ∈ text, c.isAlphanum = true := by
  cases literal with
  | decimal numeral _ suffix =>
    refine List.forall_mem_append.mpr ⟨numeral.forall_mem ?_, suffix.forall_mem rfl rfl⟩
    exact fun c digit isDigit => isAlphanum_of_isDigit isDigit (by decide)
  | octal numeral suffix =>
    refine List.forall_mem_append.mpr ⟨List.forall_mem_cons.mpr ⟨rfl, numeral.forall_mem ?_⟩,
      suffix.forall_mem rfl rfl⟩
    exact fun c digit isDigit => isAlphanum_of_isDigit isDigit (by decide)
  | hexadecimal mark numeral suffix =>
    refine List.forall_mem_append.mpr ⟨List.forall_mem_cons.mpr ⟨rfl,
      List.forall_mem_cons.mpr ⟨?_, numeral.forall_mem ?_⟩⟩, suffix.forall_mem rfl rfl⟩
    · rcases mark with rfl | rfl <;> rfl
    · exact fun c digit isDigit => isAlphanum_of_isDigit isDigit (by decide)

theorem IsLiteral.exists_cons (literal : IsLiteral text value) :
    ∃ c rest, text = c :: rest ∧ c.isDigit = true := by
  cases literal with
  | decimal numeral _ _ =>
    obtain ⟨nonempty, digits, areDigits, -⟩ := numeral
    cases areDigits with
    | nil => exact absurd rfl nonempty
    | cons isDigit _ =>
      refine ⟨_, _, rfl, ?_⟩
      obtain ⟨below, rfl | rfl⟩ := isDigit
      · revert below
        exact (by decide : ∀ digit < 10, digit.digitChar.isDigit = true) _
      · revert below
        exact (by decide : ∀ digit < 10, digit.digitChar.toUpper.isDigit = true) _
  | octal _ _ => exact ⟨_, _, rfl, rfl⟩
  | hexadecimal _ _ _ => exact ⟨_, _, rfl, rfl⟩

theorem literalValue?_of_isLiteral (literal : IsLiteral text value) (bound : value < 2 ^ 63) :
    literalValue? text = some (Int64.ofNat value) := by
  refine Option.bind_eq_some_iff.mpr ⟨value, ?_, if_pos bound⟩
  cases literal with
  | decimal numeral single suffix =>
    rw [dropTrailing_suffix (numeral.forall_mem fun c digit isDigit =>
      notSuffix_of_isDigit isDigit (by decide)) suffix]
    split
    · exact absurd (single rfl) (by simp)
    · exact absurd (single rfl) (by simp)
    · exact absurd (single rfl) (by simp)
    · exact (digitsValue?_eq_some_iff (by decide)).mpr numeral
  | octal numeral suffix =>
    have read := (digitsValue?_eq_some_iff (by decide)).mpr numeral
    rw [dropTrailing_suffix (List.forall_mem_cons.mpr ⟨rfl, numeral.forall_mem
      fun c digit isDigit => notSuffix_of_isDigit isDigit (by decide)⟩) suffix]
    -- The mark of a hexadecimal literal is no octal digit.
    have unmarked : ∀ c ∈ _, c ≠ 'x' ∧ c ≠ 'X' := numeral.forall_mem fun c digit isDigit =>
      isDigit.of_all (p := fun c _ => c ≠ 'x' ∧ c ≠ 'X') (by decide) (by decide)
    split
    · rename_i same
      cases same
      exact absurd rfl (unmarked _ List.mem_cons_self).1
    · rename_i same
      cases same
      exact absurd rfl (unmarked _ List.mem_cons_self).2
    · rename_i same
      cases same
      exact read
    · rename_i several
      obtain ⟨c, rest, rfl⟩ := List.exists_cons_of_ne_nil numeral.1
      exact absurd rfl (several c rest)
  | hexadecimal mark numeral suffix =>
    have read := (digitsValue?_eq_some_iff (by decide)).mpr numeral
    have digits := numeral.forall_mem fun c digit isDigit =>
      notSuffix_of_isDigit isDigit (by decide)
    rcases mark with rfl | rfl
    all_goals
      rw [dropTrailing_suffix (List.forall_mem_cons.mpr
        ⟨rfl, List.forall_mem_cons.mpr ⟨rfl, digits⟩⟩) suffix]
      exact read

theorem isLiteral_of_literalValue? {read : Int64} (found : literalValue? text = some read) :
    ∃ value, IsLiteral text value ∧ value < 2 ^ 63 ∧ read = Int64.ofNat value := by
  obtain ⟨value, found, fits⟩ := Option.bind_eq_some_iff.mp found
  obtain ⟨bound, same⟩ := Option.ite_none_right_eq_some.mp fits
  refine ⟨value, ?_, bound, (Option.some.inj same).symm⟩
  rw [← Text.dropTrailing_append_trimmed (fun c => c == 'u' || c == 'U') text]
  have suffix := isSuffix_trimmed text
  split at found
  · rename_i same
    rw [same]
    exact .hexadecimal (.inl rfl) ((digitsValue?_eq_some_iff (by decide)).mp found) suffix
  · rename_i same
    rw [same]
    exact .hexadecimal (.inr rfl) ((digitsValue?_eq_some_iff (by decide)).mp found) suffix
  · rename_i same
    rw [same]
    exact .octal ((digitsValue?_eq_some_iff (by decide)).mp found) suffix
  · rename_i several
    refine .decimal ((digitsValue?_eq_some_iff (by decide)).mp found) ?_ suffix
    intro zero
    obtain ⟨rest, same⟩ := List.head?_eq_some_iff.mp zero
    cases rest with
    | nil => exact same
    | cons c rest => exact absurd same (several c rest)

/-- The reader of literals accepts the literals below 2^63 and gives their values. -/
theorem literalValue?_eq_some_iff {read : Int64} :
    literalValue? text = some read ↔
      ∃ value, IsLiteral text value ∧ value < 2 ^ 63 ∧ read = Int64.ofNat value := by
  refine ⟨isLiteral_of_literalValue?, ?_⟩
  rintro ⟨value, literal, bound, rfl⟩
  exact literalValue?_of_isLiteral literal bound

end Literals

end Multipass.Condition
