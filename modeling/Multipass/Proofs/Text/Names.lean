import Mathlib.Data.List.TakeWhile
import Multipass.Proofs.Text.Blank
import Multipass.Text.Lexeme

/-!
# The names in a text

A name in a text is a lexeme of its own: what a number swallows is no name. When two texts
are put together, a number at the end of the first can swallow names of the second, and a
gap at the seam hides nothing. Only two names that meet at the seam make a new one.
-/

namespace Multipass.Text

/-- The name that a lexeme is, if it is one. -/
def Lexeme.name? : Lexeme → Option (List Char)
  | .name text => some text
  | .number _ | .gap _ => none

/-- The names among the lexemes of a text. -/
def names (text : List Char) : List (List Char) :=
  (lexemes text).filterMap Lexeme.name?

/-! ## Spans -/

section Spans

variable {p : Char → Bool} {span rest : List Char}

/-- A class of characters that a text does not begin with. -/
theorem takeWhile_of_boundary (boundary : ∀ c ∈ rest.head?, p c = false) :
    rest.takeWhile p = [] := by
  cases rest with
  | nil => rfl
  | cons c rest => exact List.takeWhile_cons_of_neg (by simp [boundary c rfl])

theorem dropWhile_of_boundary (boundary : ∀ c ∈ rest.head?, p c = false) :
    rest.dropWhile p = rest := by
  cases rest with
  | nil => rfl
  | cons c rest => exact List.dropWhile_cons_of_neg (by simp [boundary c rfl])

theorem takeWhile_append_of_boundary (inside : ∀ c ∈ span, p c = true)
    (boundary : ∀ c ∈ rest.head?, p c = false) : (span ++ rest).takeWhile p = span := by
  rw [List.takeWhile_append_of_pos inside, takeWhile_of_boundary boundary, List.append_nil]

theorem dropWhile_append_of_boundary (inside : ∀ c ∈ span, p c = true)
    (boundary : ∀ c ∈ rest.head?, p c = false) : (span ++ rest).dropWhile p = rest := by
  rw [List.dropWhile_append_of_pos inside, dropWhile_of_boundary boundary]

theorem takeWhile_append_cons {c : Char} (stops : p c = false) (front back : List Char) :
    (front ++ c :: back).takeWhile p = front.takeWhile p := by
  induction front with
  | nil => exact List.takeWhile_cons_of_neg (by simp [stops])
  | cons d front ih => rw [List.cons_append, List.takeWhile_cons, List.takeWhile_cons, ih]

theorem dropWhile_append_cons {c : Char} (stops : p c = false) (front back : List Char) :
    (front ++ c :: back).dropWhile p = front.dropWhile p ++ c :: back := by
  induction front with
  | nil => exact List.dropWhile_cons_of_neg (by simp [stops])
  | cons d front ih =>
    rw [List.cons_append, List.dropWhile_cons, List.dropWhile_cons, ih]
    split <;> rfl

theorem boundary_dropWhile (p : Char → Bool) (text : List Char) :
    ∀ c ∈ (text.dropWhile p).head?, p c = false := by
  intro c member
  have stops := List.head?_dropWhile_not p text
  rwa [Option.mem_def.mp member] at stops

end Spans

/-! ## Classes of characters -/

section Characters

variable {c : Char}

theorem not_isDigit_of_isNameStart (start : isNameStart c = true) : ¬ c.isDigit = true := by
  intro digit
  have bounds := Char.isDigit_iff_toNat.mp digit
  rcases (Bool.or_eq_true _ _).mp start with letter | underscore
  · have high : c.toNat ≤ 57 := bounds.2
    have low := (toNat_of_isAlpha letter).1
    omega
  · rw [beq_iff_eq.mp underscore] at bounds
    exact absurd bounds (by decide)

theorem isNameChar_eq (c : Char) : isNameChar c = (c.isDigit || isNameStart c) := by
  simp only [isNameChar, isNameStart, Char.isAlphanum, Bool.or_assoc, Bool.or_left_comm]

theorem isNumberChar_of_isNameChar (inName : isNameChar c = true) : isNumberChar c = true := by
  rw [isNumberChar, inName, Bool.true_or]

theorem isNameChar_of_not_isNumberChar (outside : isNumberChar c = false) :
    isNameChar c = false :=
  (Bool.or_eq_false_iff.mp outside).1

end Characters

/-- The three kinds of lexemes, by the character that they begin with. -/
theorem leadingLexeme_cases (c : Char) (rest : List Char) :
    (c.isDigit = true ∧ leadingLexeme c rest =
      (.number (c :: rest.takeWhile isNumberChar), rest.dropWhile isNumberChar)) ∨
    (isNameStart c = true ∧ leadingLexeme c rest =
      (.name (c :: rest.takeWhile isNameChar), rest.dropWhile isNameChar)) ∨
    (isNameChar c = false ∧ leadingLexeme c rest =
      (.gap (c :: rest.takeWhile (!isNameChar ·)), rest.dropWhile (!isNameChar ·))) := by
  by_cases digit : c.isDigit = true
  · exact .inl ⟨digit, if_pos digit⟩
  · by_cases start : isNameStart c = true
    · exact .inr (.inl ⟨start, (if_neg digit).trans (if_pos start)⟩)
    · exact .inr (.inr ⟨by simp [isNameChar_eq, digit, start], (if_neg digit).trans (if_neg start)⟩)

theorem leadingLexeme_of_gap {c : Char} (outside : isNameChar c = false) (rest : List Char) :
    leadingLexeme c rest =
      (.gap (c :: rest.takeWhile (!isNameChar ·)), rest.dropWhile (!isNameChar ·)) := by
  rw [isNameChar_eq, Bool.or_eq_false_iff] at outside
  rw [leadingLexeme, if_neg (by simp [outside.1]), if_neg (by simp [outside.2])]

/-- A name is as long as it can be. -/
theorem boundary_of_name {c : Char} {rest name : List Char}
    (isName : (leadingLexeme c rest).1 = .name name) :
    ∀ d ∈ (leadingLexeme c rest).2.head?, isNameChar d = false := by
  rcases leadingLexeme_cases c rest with ⟨-, same⟩ | ⟨-, same⟩ | ⟨-, same⟩
  · rw [same] at isName
    cases isName
  · rw [same]
    exact boundary_dropWhile isNameChar rest
  · rw [same] at isName
    cases isName

/-! ## The names, character by character -/

section Beginnings

variable {c : Char}

@[simp] theorem names_nil : names [] = [] := by
  rw [names, lexemes]
  rfl

theorem names_cons (c : Char) (rest : List Char) :
    names (c :: rest) =
      (leadingLexeme c rest).1.name?.toList ++ names (leadingLexeme c rest).2 := by
  rw [names, lexemes, List.filterMap_cons, names]
  cases (leadingLexeme c rest).1 <;> rfl

theorem names_of_isDigit (digit : c.isDigit = true) (rest : List Char) :
    names (c :: rest) = names (rest.dropWhile isNumberChar) := by
  rw [names_cons, leadingLexeme, if_pos digit]
  rfl

theorem names_of_isNameStart (start : isNameStart c = true) (rest : List Char) :
    names (c :: rest) = (c :: rest.takeWhile isNameChar) :: names (rest.dropWhile isNameChar) := by
  rw [names_cons, leadingLexeme, if_neg (not_isDigit_of_isNameStart start), if_pos start]
  rfl

/-- A character of a gap hides nothing. -/
theorem names_of_gap (outside : isNameChar c = false) (rest : List Char) :
    names (c :: rest) = names rest := by
  have gapAt : ∀ {d : Char} (later : List Char), isNameChar d = false →
      names (d :: later) = names (later.dropWhile (!isNameChar ·)) := by
    intro d later outside
    rw [names_cons, leadingLexeme_of_gap outside]
    rfl
  rw [gapAt rest outside]
  cases rest with
  | nil => rfl
  | cons d later =>
    cases inName : isNameChar d with
    | true => rw [List.dropWhile_cons_of_neg (by simp [inName])]
    | false => rw [List.dropWhile_cons_of_pos (by simp [inName]), gapAt later inName]

/-- A text, lexeme by lexeme, with gaps character by character. -/
theorem induction_on_names {motive : List Char → Prop} (nil : motive [])
    (number : ∀ (c : Char) (rest : List Char), c.isDigit = true →
      motive (rest.dropWhile isNumberChar) → motive (c :: rest))
    (name : ∀ (c : Char) (rest : List Char), isNameStart c = true →
      motive (rest.dropWhile isNameChar) → motive (c :: rest))
    (gap : ∀ (c : Char) (rest : List Char), isNameChar c = false → motive rest →
      motive (c :: rest))
    (text : List Char) : motive text :=
  match text with
  | [] => nil
  | c :: rest =>
    have shorter (p : Char → Bool) : (rest.dropWhile p).length < (c :: rest).length :=
      Nat.lt_succ_of_le (List.dropWhile_sublist p).length_le
    if digit : c.isDigit = true then
      have := shorter isNumberChar
      number c rest digit (induction_on_names nil number name gap (rest.dropWhile isNumberChar))
    else if start : isNameStart c = true then
      have := shorter isNameChar
      name c rest start (induction_on_names nil number name gap (rest.dropWhile isNameChar))
    else
      gap c rest (by simp [isNameChar_eq, digit, start])
        (induction_on_names nil number name gap rest)
  termination_by text.length
  decreasing_by
    · exact this
    · exact this
    · exact Nat.lt_succ_self _

end Beginnings

theorem names_append_of_gap {front : List Char} (gap : ∀ c ∈ front, isNameChar c = false)
    (back : List Char) : names (front ++ back) = names back := by
  induction front with
  | nil => rfl
  | cons c rest ih =>
    rw [List.cons_append, names_of_gap (gap c List.mem_cons_self)]
    exact ih fun d member => gap d (List.mem_cons_of_mem c member)

theorem names_eq_nil_of_gap {text : List Char} (gap : ∀ c ∈ text, isNameChar c = false) :
    names text = [] := by
  rw [← List.append_nil text, names_append_of_gap gap, names_nil]

/-- A name that a text goes on after without characters of names. -/
theorem names_name_append {c : Char} {rest back : List Char} (start : isNameStart c = true)
    (inside : ∀ d ∈ rest, isNameChar d = true) (boundary : ∀ d ∈ back.head?, isNameChar d = false) :
    names (c :: rest ++ back) = (c :: rest) :: names back := by
  rw [List.cons_append, names_of_isNameStart start, takeWhile_append_of_boundary inside boundary,
    dropWhile_append_of_boundary inside boundary]

/-! ## Parts of a text -/

theorem names_dropWhile_sublist (text : List Char) :
    (names (text.dropWhile isNumberChar)).Sublist (names text) := by
  induction text using induction_on_names with
  | nil => exact List.Sublist.refl _
  | number c rest digit _ =>
    have inNumber : isNumberChar c = true :=
      isNumberChar_of_isNameChar (by rw [isNameChar_eq, digit, Bool.true_or])
    rw [List.dropWhile_cons_of_pos inNumber, names_of_isDigit digit]
  | name c rest start ih =>
    have inNumber : isNumberChar c = true :=
      isNumberChar_of_isNameChar (by rw [isNameChar_eq, start, Bool.or_true])
    have skipped : rest.dropWhile isNumberChar =
        (rest.dropWhile isNameChar).dropWhile isNumberChar := by
      conv_lhs => rw [← List.takeWhile_append_dropWhile (p := isNameChar) (l := rest)]
      refine List.dropWhile_append_of_pos fun d member => ?_
      exact isNumberChar_of_isNameChar (List.mem_takeWhile_imp member)
    rw [List.dropWhile_cons_of_pos inNumber, names_of_isNameStart start, skipped]
    exact ih.trans (List.sublist_cons_self _ _)
  | gap c rest outside ih =>
    cases inNumber : isNumberChar c with
    | true =>
      rw [List.dropWhile_cons_of_pos inNumber, names_of_gap outside]
      exact ih
    | false =>
      rw [List.dropWhile_cons_of_neg (by simp [inNumber])]

/-- Do two texts meet without two names becoming one? -/
def MeetApart (front back : List Char) : Prop :=
  ∀ c ∈ front.getLast?, isNameChar c = true → ∀ d ∈ back.head?, isNameChar d = false

theorem MeetApart.later {p : Char → Bool} {c : Char} {rest back : List Char}
    (apart : MeetApart (c :: rest) back) : MeetApart (rest.dropWhile p) back := by
  intro d last
  refine apart d ?_
  rw [Option.mem_def] at last ⊢
  have whole := List.takeWhile_append_dropWhile (p := p) (l := rest)
  rw [← whole, ← List.cons_append, List.getLast?_append, last, Option.some_or]

theorem names_append {front back : List Char} (apart : MeetApart front back) :
    names (front ++ back) = names front ++ names back ∨
      names (front ++ back) = names front ++ names (back.dropWhile isNumberChar) := by
  induction front using induction_on_names with
  | nil =>
    rw [names_nil]
    exact .inl rfl
  | number c rest digit ih =>
    rw [List.cons_append, names_of_isDigit digit, names_of_isDigit digit, List.dropWhile_append]
    split
    · rename_i swallowed
      rw [List.isEmpty_iff.mp swallowed, names_nil]
      exact .inr rfl
    · exact ih apart.later
  | name c rest start ih =>
    rw [List.cons_append, names_of_isNameStart start, names_of_isNameStart start,
      List.dropWhile_append, List.takeWhile_append]
    split
    · rename_i whole
      have all : ∀ d ∈ rest, isNameChar d = true :=
        List.takeWhile_eq_self_iff.mp ((List.takeWhile_sublist _).eq_of_length whole)
      have boundary : ∀ d ∈ back.head?, isNameChar d = false := by
        obtain ⟨last, isLast⟩ : ∃ last, (c :: rest).getLast? = some last :=
          ⟨_, List.getLast?_eq_some_getLast (List.cons_ne_nil c rest)⟩
        refine apart last isLast ?_
        rcases List.mem_cons.mp (List.mem_of_getLast? isLast) with rfl | inRest
        · rw [isNameChar_eq, start, Bool.or_true]
        · exact all last inRest
      have nothing : rest.dropWhile isNameChar = [] := List.dropWhile_eq_nil_iff.mpr all
      rw [nothing, takeWhile_of_boundary boundary, dropWhile_of_boundary boundary,
        List.append_nil, List.takeWhile_eq_self_iff.mpr all, names_nil]
      exact .inl rfl
    · rename_i part
      have something : (rest.dropWhile isNameChar).isEmpty = false := by
        rw [List.isEmpty_eq_false_iff]
        intro nothing
        rw [List.takeWhile_eq_self_iff.mpr (List.dropWhile_eq_nil_iff.mp nothing)] at part
        exact part rfl
      rw [something]
      exact (ih apart.later).imp (congrArg _) (congrArg _)
  | gap c rest outside ih =>
    rw [List.cons_append, names_of_gap outside, names_of_gap outside]
    have later : MeetApart rest back := by
      have := apart.later (p := fun _ => false)
      rwa [List.dropWhile_eq_self_iff.mpr (fun _ => Bool.false_ne_true)] at this
    exact ih later

/-- A character that neither names nor numbers have ends whatever is in front of it. -/
theorem names_append_of_outside {front back : List Char}
    (outside : ∀ d ∈ back.head?, isNumberChar d = false) :
    names (front ++ back) = names front ++ names back := by
  have apart : MeetApart front back := fun _ _ _ d head =>
    isNameChar_of_not_isNumberChar (outside d head)
  rcases names_append apart with same | swallowed
  · exact same
  · rwa [dropWhile_of_boundary outside] at swallowed

theorem names_append_cons {c : Char} (outside : isNumberChar c = false) (front back : List Char) :
    names (front ++ c :: back) = names front ++ names back := by
  rw [names_append_of_outside, names_of_gap (isNameChar_of_not_isNumberChar outside)]
  rintro d ⟨⟩
  exact outside

theorem names_left_subset {front back : List Char} (apart : MeetApart front back) :
    names front ⊆ names (front ++ back) := by
  rcases names_append apart with same | swallowed
  · rw [same]
    exact List.subset_append_left _ _
  · rw [swallowed]
    exact List.subset_append_left _ _

/-- A number at the seam can swallow names, and nothing else happens to them. -/
theorem names_append_sublist {front back : List Char} (apart : MeetApart front back) :
    (names (front ++ back)).Sublist (names front ++ names back) := by
  rcases names_append apart with same | swallowed
  · rw [same]
  · rw [swallowed]
    exact (List.Sublist.refl _).append (names_dropWhile_sublist back)

theorem names_append_subset {front back : List Char} (apart : MeetApart front back) :
    names (front ++ back) ⊆ names front ++ names back :=
  (names_append_sublist apart).subset

/-- The names in a lexeme on its own. -/
theorem names_text_leadingLexeme (c : Char) (rest : List Char) :
    names (leadingLexeme c rest).1.text = (leadingLexeme c rest).1.name?.toList := by
  have inside : ∀ (p : Char → Bool), ∀ d ∈ rest.takeWhile p, p d = true :=
    fun p d member => List.mem_takeWhile_imp member
  rcases leadingLexeme_cases c rest with ⟨digit, same⟩ | ⟨start, same⟩ | ⟨outside, same⟩
  · rw [same, Lexeme.text, names_of_isDigit digit, List.dropWhile_eq_nil_iff.mpr (inside _),
      names_nil]
    rfl
  · rw [same, Lexeme.text, names_of_isNameStart start, List.takeWhile_eq_self_iff.mpr (inside _),
      List.dropWhile_eq_nil_iff.mpr (inside _), names_nil]
    rfl
  · rw [same]
    refine names_eq_nil_of_gap fun d member => ?_
    rcases List.mem_cons.mp member with rfl | inRest
    · exact outside
    · simpa using inside _ d inRest

/-! ## Trimming -/

theorem trim_isInfix (text : List Char) : trim text <:+: text := by
  have front : trim text <+: trimStart text := ⟨_, dropTrailing_append_trimmed isBlank _⟩
  exact front.isInfix.trans (List.dropWhile_suffix isBlank).isInfix

theorem isBlank_of_isNumberChar {c : Char} (inNumber : isNumberChar c = true) :
    isBlank c = false := by
  simp only [isNumberChar, isNameChar, Char.isAlphanum, Bool.or_eq_true, beq_iff_eq] at inNumber
  rcases inNumber with ((letter | digit) | rfl) | rfl
  · exact isBlank_of_isAlpha letter
  · have low : 48 ≤ c.toNat := (Char.isDigit_iff_toNat.mp digit).1
    have high : c.toNat ≤ 57 := (Char.isDigit_iff_toNat.mp digit).2
    simp only [isBlank, Bool.or_eq_false_iff, Bool.and_eq_false_iff, decide_eq_false_iff_not,
      beq_eq_false_iff_ne]
    omega
  · rfl
  · rfl

theorem isNumberChar_of_isBlank {c : Char} (blank : isBlank c = true) : isNumberChar c = false := by
  refine Bool.eq_false_iff.mpr fun inNumber => ?_
  rw [isBlank_of_isNumberChar inNumber] at blank
  exact Bool.false_ne_true blank

theorem isNameChar_of_isBlank {c : Char} (blank : isBlank c = true) : isNameChar c = false :=
  isNameChar_of_not_isNumberChar (isNumberChar_of_isBlank blank)

/-- Trimming takes no name off. -/
theorem names_trim (text : List Char) : names (trim text) = names text := by
  have front : names (trimStart text) = names text := by
    conv_rhs => rw [← List.takeWhile_append_dropWhile (p := isBlank) (l := text)]
    exact (names_append_of_gap
      (fun c member => isNameChar_of_isBlank (List.mem_takeWhile_imp member)) _).symm
  have ends : ∀ c ∈ ((trimStart text).reverse.takeWhile isBlank).reverse, isBlank c = true :=
    fun c member => List.mem_takeWhile_imp (List.mem_reverse.mp member)
  have back := congrArg names (dropTrailing_append_trimmed isBlank (trimStart text))
  rw [names_append_of_outside fun c head =>
      isNumberChar_of_isBlank (ends c (List.mem_of_mem_head? head)),
    names_eq_nil_of_gap fun c member => isNameChar_of_isBlank (ends c member),
    List.append_nil, front] at back
  exact back

theorem names_of_isAllBlank {text : List Char} (blank : isAllBlank text = true) :
    names text = [] :=
  names_eq_nil_of_gap fun c member => isNameChar_of_isBlank (List.all_eq_true.mp blank c member)

end Multipass.Text
