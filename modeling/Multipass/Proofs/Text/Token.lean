import Mathlib.Data.List.Chain
import Multipass.Proofs.Text.Names

/-!
# Tokens

The shading language reads a text from left to right and makes each token as long as it can:
names, numbers, operators and the openings of comments. Blanks end a token. Two texts side by
side keep their tokens unless the last one of the first text goes on into the second.
-/

namespace Multipass.Text

/-- The operators of two characters and more, the openings of comments among them. A longer one
    begins with a shorter one. -/
def longOperators : List (List Char) :=
  [['/', '/'], ['/', '*'], ['+', '+'], ['-', '-'], ['<', '<'], ['>', '>'], ['<', '='], ['>', '='],
    ['=', '='], ['!', '='], ['&', '&'], ['|', '|'], ['^', '^'], ['+', '='], ['-', '='], ['*', '='],
    ['/', '='], ['%', '='], ['&', '='], ['|', '='], ['^', '='], ['<', '<', '='], ['>', '>', '='],
    ['#', '#']]

/-- Does a token begin as a number does, with a digit or with a point in front of one? -/
def isNumeral : List Char → Bool
  | '.' :: next :: _ => next.isDigit
  | first :: _ => first.isDigit
  | [] => false

/-- Does a number end where the sign of its exponent can follow? -/
def awaitsExponent (token : List Char) : Bool :=
  token.dropLast.all (fun c => c.isDigit || c == '.') && token.getLast?.any fun c =>
    c == 'e' || c == 'E'

/-- Does a token go on with a character that follows it? -/
def goesOn (token : List Char) (c : Char) : Bool :=
  if token.head?.any isNameStart then isNameChar c
  else if isNumeral token then isNumberChar c || (c == '+' || c == '-') && awaitsExponent token
  else token == ['.'] && c.isDigit || longOperators.contains (token ++ [c])

/-- The tokens of a text in front of which a token has begun. -/
def munch (token : List Char) : List Char → List (List Char)
  | [] => [token]
  | c :: rest => if goesOn token c then munch (token ++ [c]) rest else token :: munch [c] rest

/-- The tokens of a text, each blank as one of its own. -/
def rawTokens : List Char → List (List Char)
  | [] => []
  | c :: rest => munch [c] rest

/-- The tokens of a text, without the blanks between them. -/
def tokens (text : List Char) : List (List Char) :=
  (rawTokens text).filter (!isAllBlank ·)

/-- Do two texts meet without the last token of the one going on into the other? -/
def Apart (front back : List Char) : Prop :=
  ∀ last ∈ (rawTokens front).getLast?, ∀ c ∈ back.head?, goesOn last c = false

instance (front back : List Char) : Decidable (Apart front back) :=
  decidable_of_iff
    ((rawTokens front).getLast?.all fun last => back.head?.all fun c => !goesOn last c)
    (by simp [Apart, Option.all_eq_true])

/-! ## A token and what follows it -/

theorem not_isBlank_of_mem_longOperators :
    ∀ operator ∈ longOperators, ∀ c ∈ operator, isBlank c = false := by
  have visible : (longOperators.all fun operator => operator.all fun c => !isBlank c) = true := by
    decide +kernel
  simpa [List.all_eq_true] using visible

/-- A token that goes on is no blank. -/
theorem not_isAllBlank_of_goesOn {token : List Char} {c : Char} (longer : goesOn token c = true)
    (nonempty : token ≠ []) (more : List Char) : isAllBlank (token ++ more) = false := by
  obtain ⟨first, rest, rfl⟩ := List.exists_cons_of_ne_nil nonempty
  suffices visible : isBlank first = false by simp [isAllBlank, visible]
  refine Bool.eq_false_iff.mpr fun blank => ?_
  have noNumberChar : isNumberChar first = false := isNumberChar_of_isBlank blank
  have noName : isNameChar first = false := isNameChar_of_isBlank blank
  rw [isNameChar_eq, Bool.or_eq_false_iff] at noName
  have noNumeral : isNumeral (first :: rest) = false := by
    unfold isNumeral
    split
    · rename_i same
      cases same
      cases noNumberChar
    · rename_i same
      cases same
      exact noName.1
    · rfl
  have noPoint : (first :: rest == ['.']) = false := by
    refine beq_eq_false_iff_ne.mpr fun same => ?_
    cases same
    cases noNumberChar
  rw [goesOn, List.head?_cons, Option.any_some, noName.2, if_neg Bool.false_ne_true, noNumeral,
    if_neg Bool.false_ne_true, noPoint, Bool.false_and, Bool.false_or,
    List.contains_iff_mem] at longer
  have visible := not_isBlank_of_mem_longOperators _ longer first List.mem_cons_self
  rw [blank] at visible
  cases visible

/-- The first token begins with what has begun. -/
theorem exists_munch_eq (token text : List Char) :
    ∃ more later, munch token text = (token ++ more) :: later := by
  induction text generalizing token with
  | nil => exact ⟨[], [], by rw [munch, List.append_nil]⟩
  | cons c rest ih =>
    rw [munch]
    split
    · obtain ⟨more, later, same⟩ := ih (token ++ [c])
      exact ⟨c :: more, later, by rw [same, List.append_assoc, List.singleton_append]⟩
    · exact ⟨[], munch [c] rest, by rw [List.append_nil]⟩

/-- What follows a text is read from its last token on. -/
theorem munch_append {token : List Char} (nonempty : token ≠ []) (front : List Char) :
    ∃ before last, last ≠ [] ∧ munch token front = before ++ [last] ∧
      ∀ back, munch token (front ++ back) = before ++ munch last back := by
  induction front generalizing token with
  | nil => exact ⟨[], token, nonempty, rfl, fun _ => rfl⟩
  | cons c rest ih =>
    simp only [List.cons_append, munch]
    split
    · exact ih (by simp)
    · obtain ⟨before, last, isToken, whole, goesOn⟩ := ih (List.cons_ne_nil c [])
      refine ⟨token :: before, last, isToken, by rw [whole, List.cons_append], fun back => ?_⟩
      rw [goesOn, List.cons_append]

/-! ## Texts side by side -/

section Append

variable {front back : List Char}

theorem tokens_append_of_apart (apart : Apart front back) :
    tokens (front ++ back) = tokens front ++ tokens back := by
  cases front with
  | nil => rfl
  | cons c rest =>
    cases back with
    | nil => rw [List.append_nil, show tokens [] = [] from rfl, List.append_nil]
    | cons d later =>
      obtain ⟨before, last, -, whole, goesOn⟩ := munch_append (List.cons_ne_nil c []) rest
      have stops : Text.goesOn last d = false :=
        apart last (by rw [rawTokens, whole]; simp) d rfl
      have joined : rawTokens (c :: rest ++ d :: later) =
          rawTokens (c :: rest) ++ rawTokens (d :: later) := by
        rw [List.cons_append, rawTokens, rawTokens, rawTokens, goesOn, munch,
          if_neg (by simp [stops]), whole, List.append_assoc, List.singleton_append]
      rw [tokens, joined, List.filter_append]
      rfl

/-- If the tokens of a text are also found in front of others when more text follows, then the
    two texts keep apart. -/
theorem apart_of_tokens_append {others : List (List Char)}
    (same : tokens (front ++ back) = tokens front ++ others) : Apart front back := by
  intro last isLast d isNext
  cases front with
  | nil => cases isLast
  | cons c rest =>
    obtain ⟨later, rfl⟩ : ∃ later, back = d :: later := List.head?_eq_some_iff.mp isNext
    obtain ⟨before, token, nonempty, whole, goesOn⟩ := munch_append (List.cons_ne_nil c []) rest
    obtain rfl : token = last := by
      rw [rawTokens, whole] at isLast
      simpa using isLast
    refine Bool.eq_false_iff.mpr fun longer => ?_
    obtain ⟨more, behind, joined⟩ := exists_munch_eq (token ++ [d]) later
    have visible := not_isAllBlank_of_goesOn longer nonempty
    have lastVisible : (!isAllBlank token) = true := by simpa using visible []
    have joinedVisible : (!isAllBlank (token ++ [d] ++ more)) = true := by
      rw [List.append_assoc, visible, Bool.not_false]
    rw [List.cons_append, tokens, rawTokens, goesOn, munch, if_pos longer, joined, tokens, rawTokens,
      whole, List.filter_append, List.filter_append,
      List.filter_cons_of_pos (p := (!isAllBlank ·)) joinedVisible,
      List.filter_cons_of_pos (p := (!isAllBlank ·)) lastVisible,
      List.append_assoc (List.filter _ before), List.append_cancel_left_eq] at same
    have longerToken := congrArg List.length (List.cons.inj same).1
    simp at longerToken

end Append

/-! ## Tokens of one character -/

/-- Is a character a token of its own whatever stands beside it, as a bracket is? -/
def isLone (c : Char) : Bool :=
  !(isNumberChar c || isBlank c || longOperators.any (·.contains c))

/-- Does a text begin with a token of one character? -/
def beginsLone (text : List Char) : Bool :=
  text.head?.any isLone

/-- Does a text end in a token of one character? -/
def endsLone (text : List Char) : Bool :=
  text.getLast?.any isLone

section Lone

variable {c : Char} {front back : List Char}

theorem isNumberChar_of_isLone (lone : isLone c = true) : isNumberChar c = false := by
  simp only [isLone, Bool.not_eq_true', Bool.or_eq_false_iff] at lone
  exact lone.1.1

theorem isBlank_of_isLone (lone : isLone c = true) : isBlank c = false := by
  simp only [isLone, Bool.not_eq_true', Bool.or_eq_false_iff] at lone
  exact lone.1.2

theorem notMem_longOperators_of_isLone (lone : isLone c = true) {operator : List Char}
    (member : c ∈ operator) : operator ∉ longOperators := by
  simp only [isLone, Bool.not_eq_true', Bool.or_eq_false_iff, List.any_eq_false] at lone
  exact fun isOperator => lone.2 operator isOperator (by simpa using member)

theorem isNameChar_of_isLone (lone : isLone c = true) : isNameChar c = false :=
  isNameChar_of_not_isNumberChar (isNumberChar_of_isLone lone)

theorem begins_of_isLone (lone : isLone c = true) : c.isDigit = false ∧ isNameStart c = false := by
  have outside := isNameChar_of_isLone lone
  rwa [isNameChar_eq, Bool.or_eq_false_iff] at outside

theorem goesOn_lone (lone : isLone c = true) (token : List Char) : goesOn token c = false := by
  have noNumber := isNumberChar_of_isLone lone
  have noName := isNameChar_of_isLone lone
  have noSign : c ≠ '+' ∧ c ≠ '-' := by
    constructor <;> rintro rfl <;> revert lone <;> decide
  have noOperator : token ++ [c] ∉ longOperators :=
    notMem_longOperators_of_isLone lone (by simp)
  simp [goesOn, noNumber, noName, noSign, begins_of_isLone lone, noOperator]

theorem goesOn_of_isLone (lone : isLone c = true) (d : Char) : goesOn [c] d = false := by
  have noPoint : c ≠ '.' := by
    rintro rfl
    revert lone
    decide
  have noOperator : [c, d] ∉ longOperators :=
    notMem_longOperators_of_isLone lone List.mem_cons_self
  simp [goesOn, isNumeral, begins_of_isLone lone, noPoint, noOperator]

theorem apart_of_beginsLone (lone : beginsLone back = true) : Apart front back := by
  intro last _ c isNext
  rw [beginsLone, Option.mem_def.mp isNext] at lone
  exact goesOn_lone lone last

theorem apart_of_endsLone (lone : endsLone front = true) : Apart front back := by
  intro last isLast d _
  obtain ⟨c, isEnd, loneEnd⟩ := (Option.any_eq_true _ _).mp lone
  obtain ⟨before, rfl⟩ := List.getLast?_eq_some_iff.mp isEnd
  suffices only : last = [c] by rw [only, goesOn_of_isLone loneEnd]
  cases before with
  | nil => simpa [rawTokens, munch, eq_comm] using isLast
  | cons e later =>
    obtain ⟨tokens, token, -, -, goesOn⟩ := munch_append (List.cons_ne_nil e []) later
    rw [List.cons_append, rawTokens, goesOn, munch, goesOn_lone loneEnd, if_neg Bool.false_ne_true,
      munch] at isLast
    simpa [eq_comm] using isLast

@[simp] theorem endsLone_append_cons (front : List Char) (c : Char) (rest : List Char) :
    endsLone (front ++ c :: rest) = endsLone (c :: rest) := by
  rw [endsLone, List.getLast?_append_cons, endsLone]

end Lone

/-! ## Many texts -/

/-- What meets texts one after the other meets the first one that is not empty. -/
theorem apart_flatten_iff {front : List Char} (texts : List (List Char)) :
    Apart front texts.flatten ↔ ∀ next ∈ (texts.filter (· ≠ [])).head?, Apart front next := by
  induction texts with
  | nil => simp [Apart]
  | cons text rest ih =>
    cases text with
    | nil => simpa using ih
    | cons c later => simp [Apart]

/-- Texts one after the other keep their tokens exactly if neighbours keep apart. -/
theorem tokens_flatten_iff (texts : List (List Char)) :
    tokens texts.flatten = texts.flatMap tokens ↔ (texts.filter (· ≠ [])).IsChain Apart := by
  induction texts with
  | nil => simp [tokens, rawTokens]
  | cons text rest ih =>
    by_cases empty : text = []
    · subst empty
      simpa [tokens, rawTokens] using ih
    · rw [List.filter_cons_of_pos (by simpa using empty), List.isChain_cons, ← ih,
        ← apart_flatten_iff, List.flatten_cons, List.flatMap_cons]
      constructor
      · intro same
        have apart := apart_of_tokens_append same
        rw [tokens_append_of_apart apart] at same
        exact ⟨apart, List.append_cancel_left same⟩
      · rintro ⟨apart, same⟩
        rw [tokens_append_of_apart apart, same]

end Multipass.Text
