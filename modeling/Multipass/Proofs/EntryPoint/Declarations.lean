import Multipass.Proofs.EntryPoint.Spelling

/-!
# The declarations of a text

A declaration stands wherever a word, the name of the entry point and an opening parenthesis
stand next to each other. The search goes on behind that parenthesis and misses nothing by it:
no declaration begins between the first letter of a word and the parenthesis.
-/

namespace Multipass.EntryPoint

open Comment Text

/-! ## Inside and outside words -/

/-- Is the end of a text inside a word, given whether its beginning is? -/
def insideWordAfter (inside : Bool) (text : List Char) : Bool :=
  text.getLast?.elim inside isWordChar

section Ends

variable {inside : Bool} {front back : List Char} {c : Char}

@[simp] theorem insideWordAfter_nil : insideWordAfter inside [] = inside := rfl

@[simp] theorem insideWordAfter_cons :
    insideWordAfter inside (c :: back) = insideWordAfter (isWordChar c) back := by
  cases back <;> simp [insideWordAfter, List.getLast?_cons]

@[simp] theorem insideWordAfter_append :
    insideWordAfter inside (front ++ back) = insideWordAfter (insideWordAfter inside front) back := by
  induction front generalizing inside with
  | nil => rfl
  | cons c front ih => simp [ih]

/-- A text that is part of a word ends inside it. -/
theorem insideWordAfter_of_word (nonempty : back ≠ []) (word : ∀ c ∈ back, isWordChar c = true) :
    insideWordAfter inside back = true := by
  rw [insideWordAfter, List.getLast?_eq_some_getLast nonempty]
  exact word _ (List.getLast_mem nonempty)

end Ends

/-! ## Headings -/

section Headings

variable {text type parameters blanks blanks' consumed : List Char}

/-- A heading is a word, blanks, the name, possibly blanks, and an opening parenthesis. -/
theorem heading?_eq_some_iff :
    heading? text = some (type, parameters) ↔
      ∃ blanks blanks', IsWord type ∧ blanks ≠ [] ∧ isAllBlank blanks = true ∧
        isAllBlank blanks' = true ∧
        text = type ++ (blanks ++ (name ++ (blanks' ++ '(' :: parameters))) := by
  have readAsCode := @heading?_map_iff (asCode text) parameters type
  rw [map_blanked_alike] at readAsCode
  rw [readAsCode]
  constructor
  · rintro ⟨_, rest, isWord, @⟨space, gap, isSpace, isGap⟩, whole, rfl⟩
    refine ⟨space.map Placed.blanked, gap.map Placed.blanked, isWord, by simpa using isSpace.1,
      isAllBlank_map_blanked.mpr isSpace.2, isAllBlank_map_blanked.mpr isGap, ?_⟩
    simpa using congrArg (List.map Placed.blanked) whole
  · rintro ⟨blanks, blanks', isWord, some, blank, blank', rfl⟩
    have isGap {text : List Char} (blank : isAllBlank text = true) : IsGap (asCode text) := by
      rwa [← isAllBlank_map_blanked, map_blanked_alike]
    refine ⟨_, asCode parameters, isWord, .intro ⟨?_, isGap blank⟩ (isGap blank'), ?_, by simp⟩
    · simpa [alike] using some
    · simp [alike]

theorem heading?_eq_none_of_head (stops : ∀ c ∈ text.head?, isWordChar c = false) :
    heading? text = none := by
  cases text with
  | nil => rfl
  | cons c rest =>
    have noStart : isNameStart c = false :=
      Bool.eq_false_iff.mpr fun start =>
        Bool.false_ne_true ((stops c rfl).symm.trans (isWordChar_of_isNameStart start))
    rw [heading?_eq, leadingWord?, if_neg (by simp [noStart])]
    rfl

theorem isWord_name : IsWord name :=
  ⟨by decide, List.all_eq_true.mp (by decide)⟩

theorem isWord_void : IsWord "void".toList :=
  ⟨by decide, List.all_eq_true.mp (by decide)⟩

/-- The name in a heading begins no heading itself: no second name follows it. -/
theorem heading?_name_eq_none (blank : isAllBlank blanks = true) :
    heading? (name ++ (blanks ++ '(' :: parameters)) = none := by
  have ends : ∀ c ∈ (blanks ++ '(' :: parameters).head?, isWordChar c = false := by
    cases blanks with
    | nil =>
      rintro c ⟨⟩
      decide
    | cons first others =>
      rintro c ⟨⟩
      exact isWordChar_of_isBlank (List.all_eq_true.mp blank first List.mem_cons_self)
  have noNaming : afterNaming? (blanks ++ '(' :: parameters) = none := by
    by_cases empty : blanks = []
    · subst empty
      rfl
    · have stops : ∀ c ∈ ('(' :: parameters).head?, isBlank c = false := by
        rintro c ⟨⟩
        rfl
      rw [afterNaming?, afterBlanks?_eq_some_iff.mpr ⟨blanks, empty, blank, rfl, stops⟩]
      rfl
  rw [heading?_eq, leadingWord?_eq_some_iff.mpr ⟨rfl, isWord_name, ends⟩]
  exact congrArg (Option.map _) noNaming

theorem heading?_suffix (found : heading? text = some (type, parameters)) :
    ∃ consumed, text = consumed ++ parameters := by
  obtain ⟨blanks, blanks', -, -, -, -, rfl⟩ := heading?_eq_some_iff.mp found
  exact ⟨type ++ (blanks ++ (name ++ (blanks' ++ ['(']))), by simp⟩

/-- A heading ends in its opening parenthesis. -/
theorem exists_heading (found : heading? (consumed ++ parameters) = some (type, parameters)) :
    ∃ blanks blanks', IsWord type ∧ isAllBlank blanks = true ∧ isAllBlank blanks' = true ∧
      consumed = type ++ (blanks ++ (name ++ (blanks' ++ ['(']))) := by
  obtain ⟨blanks, blanks', isWord, -, blank, blank', whole⟩ := heading?_eq_some_iff.mp found
  have same : consumed ++ parameters =
      type ++ (blanks ++ (name ++ (blanks' ++ ['(']))) ++ parameters := by
    simpa using whole
  exact ⟨blanks, blanks', isWord, blank, blank', List.append_cancel_right same⟩

theorem insideWordAfter_heading
    (found : heading? (consumed ++ parameters) = some (type, parameters)) (inside : Bool) :
    insideWordAfter inside consumed = false := by
  obtain ⟨blanks, blanks', -, -, -, rfl⟩ := exists_heading found
  simp only [insideWordAfter_append, insideWordAfter_cons, insideWordAfter_nil]
  decide

/-- No heading begins inside another one. -/
theorem heading?_eq_none_inside {before later : List Char}
    (found : heading? (before ++ later ++ parameters) = some (type, parameters))
    (behind : before ≠ []) (inside : later ≠ []) (boundary : insideWordAfter false before = false) :
    heading? (later ++ parameters) = none := by
  obtain ⟨blanks, blanks', isWord, blank, blank', whole⟩ := exists_heading found
  clear found
  -- A heading begins with a letter behind no letter: that is the type or the name.
  rcases List.append_eq_append_iff.mp whole with
    ⟨middle, rfl, rfl⟩ | ⟨before, rfl, behindType⟩
  · have inWord := @insideWordAfter_of_word false before behind fun c member =>
      isWord.isWordChar c (List.mem_append_left middle member)
    exact absurd (inWord.symm.trans boundary) (by decide)
  rcases List.append_eq_append_iff.mp behindType.symm with
    ⟨middle, rfl, rfl⟩ | ⟨before, rfl, behindBlanks⟩
  · cases middle with
    | nil => simpa using @heading?_name_eq_none parameters _ blank'
    | cons first others =>
      refine heading?_eq_none_of_head ?_
      rintro c ⟨⟩
      exact isWordChar_of_isBlank (List.all_eq_true.mp blank _ (by simp))
  rcases List.append_eq_append_iff.mp behindBlanks.symm with
    ⟨middle, same, rfl⟩ | ⟨before, rfl, behindName⟩
  · by_cases empty : before = []
    · subst empty
      rw [List.nil_append] at same
      subst same
      simpa using @heading?_name_eq_none parameters _ blank'
    · rw [insideWordAfter_append, insideWordAfter_append, insideWordAfter_of_word empty] at boundary
      · exact absurd boundary (by decide)
      · intro c member
        exact isWord_name.isWordChar c (same ▸ List.mem_append_left middle member)
  · refine heading?_eq_none_of_head fun c head => ?_
    obtain ⟨others, rfl⟩ : ∃ others, later = c :: others := by
      cases later with
      | nil => exact absurd rfl inside
      | cons d others =>
        cases head
        exact ⟨others, rfl⟩
    have member : c ∈ blanks' ++ ['('] := behindName ▸ by simp
    rcases List.mem_append.mp member with inBlanks | isOpening
    · exact isWordChar_of_isBlank (List.all_eq_true.mp blank' c inBlanks)
    · rw [List.mem_singleton.mp isOpening]
      decide

/-- Where a sign ends the text in front of it, no heading reaches over it. -/
theorem heading?_eq_none_of_sign {front rest : List Char} {sign : Char}
    (visible : isBlank sign = false) (noWordChar : isWordChar sign = false)
    (noOpening : '(' ∉ front ++ [sign]) : heading? (front ++ sign :: rest) = none := by
  refine Option.eq_none_iff_forall_ne_some.mpr fun (type, parameters) found => ?_
  obtain ⟨blanks, blanks', isWord, -, blank, blank', whole⟩ := heading?_eq_some_iff.mp found
  have regrouped : front ++ sign :: rest =
      (type ++ (blanks ++ (name ++ blanks'))) ++ '(' :: parameters := by
    simpa using whole
  rcases List.append_eq_append_iff.mp regrouped with ⟨middle, same, later⟩ | ⟨middle, rfl, later⟩
  · cases middle with
    | nil =>
      cases later
      exact noOpening (by simp)
    | cons c others =>
      cases later
      have member : sign ∈ type ++ (blanks ++ (name ++ blanks')) := same ▸ by simp
      have visible' := fun blanks (blank : isAllBlank blanks = true) (member : sign ∈ blanks) =>
        Bool.false_ne_true (visible.symm.trans (List.all_eq_true.mp blank sign member))
      have noWordChar' := fun word (isWord : IsWord word) (member : sign ∈ word) =>
        Bool.false_ne_true (noWordChar.symm.trans (isWord.isWordChar sign member))
      simp only [List.mem_append] at member
      rcases member with inType | inBlanks | inName | inBlanks
      · exact noWordChar' type isWord inType
      · exact visible' blanks blank inBlanks
      · exact noWordChar' name isWord_name inName
      · exact visible' blanks' blank' inBlanks
  · cases middle with
    | nil =>
      cases later
      exact noOpening (by simp)
    | cons c others =>
      cases later
      exact noOpening (by simp)

/-- A heading has the name in it. -/
theorem name_infix_of_heading? (found : heading? text = some (type, parameters)) : name <:+: text := by
  obtain ⟨blanks, blanks', -, -, -, -, rfl⟩ := heading?_eq_some_iff.mp found
  exact ⟨type ++ blanks, blanks' ++ '(' :: parameters, by simp⟩

/-- A text without the name has no heading that ends behind it, if the text ends outside words
and neither a blank nor the name follows. -/
theorem heading?_append_eq_none {front rest : List Char} (nonempty : front ≠ [])
    (nameless : ¬ name <:+: front) (ends : insideWordAfter false front = false)
    (visible : ∀ c ∈ rest.head?, isBlank c = false) (unnamed : ¬ name <+: rest) :
    heading? (front ++ rest) = none := by
  refine Option.eq_none_iff_forall_ne_some.mpr fun (type, parameters) found => ?_
  obtain ⟨blanks, blanks', isWord, -, blank, blank', whole⟩ := heading?_eq_some_iff.mp found
  rcases List.append_eq_append_iff.mp whole with ⟨middle, rfl, rfl⟩ | ⟨behind, rfl, fromBlanks⟩
  · have inWord := @insideWordAfter_of_word false front nonempty fun c member =>
      isWord.isWordChar c (List.mem_append_left middle member)
    exact Bool.false_ne_true (ends.symm.trans inWord)
  rcases List.append_eq_append_iff.mp fromBlanks.symm with ⟨middle, rfl, rfl⟩ | ⟨behind, rfl, fromName⟩
  · cases middle with
    | nil => exact unnamed ⟨_, rfl⟩
    | cons c others =>
      have isBlank' := List.all_eq_true.mp blank c (by simp)
      exact Bool.false_ne_true ((visible c rfl).symm.trans isBlank')
  rcases List.append_eq_append_iff.mp fromName.symm with ⟨middle, same, rfl⟩ | ⟨behind, rfl, -⟩
  · by_cases empty : behind = []
    · subst empty
      exact unnamed ⟨blanks' ++ '(' :: parameters, by rw [same, List.nil_append]⟩
    · rw [insideWordAfter_append, insideWordAfter_append, insideWordAfter_of_word empty] at ends
      · exact absurd ends (by decide)
      · intro c member
        exact isWord_name.isWordChar c (same ▸ List.mem_append_left middle member)
  · exact nameless ⟨type ++ blanks, behind, by simp⟩

end Headings

/-! ## Behind the parameters -/

/-- No parenthesis stands in the code. -/
def IsFlat (characters : List Placed) : Prop :=
  ∀ character ∈ characters, character.blanked ≠ '(' ∧ character.blanked ≠ ')'

section Flat

variable {front back gap named output input parameters : List Placed} {word : List Char} {sign : Char}

@[simp] theorem isFlat_append : IsFlat (front ++ back) ↔ IsFlat front ∧ IsFlat back :=
  List.forall_mem_append

theorem isFlat_asCode : IsFlat (asCode word) ↔ ∀ c ∈ word, c ≠ '(' ∧ c ≠ ')' :=
  List.forall_mem_map

theorem isFlat_of_isGap (isGap : IsGap gap) : IsFlat gap := by
  intro character member
  have blank : isBlank character.blanked = true := by
    rw [Placed.isBlank_blanked, isGap character member]
  refine ⟨fun same => ?_, fun same => ?_⟩ <;> simp [same, isBlank] at blank

theorem isFlat_of_isWord (isWord : IsWord word) : IsFlat (asCode word) := by
  refine isFlat_asCode.mpr fun c member => ?_
  have inWord := isWord.isWordChar c member
  refine ⟨?_, ?_⟩ <;>
  · rintro rfl
    exact absurd inWord (by decide)

theorem IsNamed.exists_isFlat (isNamed : IsNamed sign named) :
    ∃ inner, named = inner ++ asCode [sign] ∧ IsFlat inner := by
  cases isNamed with
  | @intro space gap word isSpace isWord isGap =>
    refine ⟨space ++ (asCode word ++ gap), by simp, ?_⟩
    simp [isFlat_of_isGap isSpace.2, isFlat_of_isWord isWord, isFlat_of_isGap isGap]

theorem IsOutput.isFlat (isOutput : IsOutput output) : IsFlat output := by
  cases isOutput with
  | intro isGap isSpace isNamed =>
    obtain ⟨inner, rfl, isFlat⟩ := isNamed.exists_isFlat
    simp [isFlat_of_isGap isGap, isFlat_of_isGap isSpace.2, isFlat, isFlat_asCode]

theorem IsInput.exists_isFlat (isInput : IsInput input) :
    ∃ inner, input = inner ++ asCode [')'] ∧ IsFlat inner := by
  cases isInput with
  | @intro gap qualifier named isGap isQualifier isNamed =>
    obtain ⟨inner, rfl, isFlat⟩ := isNamed.exists_isFlat
    refine ⟨gap ++ (qualifier ++ (asCode "vec2".toList ++ inner)), by simp, ?_⟩
    have flatQualifier : IsFlat qualifier := by
      cases isQualifier with
      | missing => exact fun _ member => absurd member List.not_mem_nil
      | input isSpace => simp [isFlat_of_isGap isSpace.2, isFlat_asCode]
    simp [isFlat_of_isGap isGap, flatQualifier, isFlat, isFlat_asCode]

theorem IsParameters.exists_isFlat (isParameters : IsParameters parameters) :
    ∃ inner, parameters = inner ++ asCode [')'] ∧ IsFlat inner := by
  cases isParameters with
  | @intro output _ isOutput isInput =>
    obtain ⟨inner, rfl, isFlat⟩ := isInput.exists_isFlat
    exact ⟨output ++ inner, by simp, by simp [isOutput.isFlat, isFlat]⟩

end Flat

theorem afterClosing?_append {inner : List Char} (flat : ∀ c ∈ inner, c ≠ '(' ∧ c ≠ ')')
    (rest : List Char) : afterClosing? 0 (inner ++ ')' :: rest) = some rest := by
  induction inner with
  | nil => rfl
  | cons c inner ih =>
    obtain ⟨noOpening, noClosing⟩ := flat c List.mem_cons_self
    rw [List.cons_append, afterClosing?.eq_5 0 c _ noOpening noClosing,
      ih fun d member => flat d (List.mem_cons_of_mem c member)]

theorem kindAt_append {inner : List Char} (flat : ∀ c ∈ inner, c ≠ '(' ∧ c ≠ ')')
    (rest : List Char) :
    kindAt (inner ++ ')' :: rest) = .prototype ↔ ∃ later, after? [';'] (trimStart rest) = some later := by
  rw [kindAt, afterClosing?_append flat]
  dsimp only
  split
  · rename_i opened
    simp [opened, after?]
  · rename_i ended
    simp [ended, after?]
  · rename_i noBrace noSemicolon
    refine iff_of_false (by simp) ?_
    rintro ⟨later, found⟩
    exact noSemicolon later (after?_eq_some_iff.mp found)

/-- A sign follows, perhaps behind blanks and comments. -/
def Follows (sign : Char) (rest : List Placed) : Prop :=
  ∃ gap later, IsGap gap ∧ rest = gap ++ (asCode [sign] ++ later)

/-- A declaration is a prototype if a semicolon follows its parameters. -/
theorem kindAt_eq_prototype_iff {parameters rest : List Placed} (isParameters : IsParameters parameters) :
    kindAt ((parameters ++ rest).map Placed.blanked) = .prototype ↔ Follows ';' rest := by
  obtain ⟨inner, rfl, isFlat⟩ := isParameters.exists_isFlat
  have flat : ∀ c ∈ inner.map Placed.blanked, c ≠ '(' ∧ c ≠ ')' := List.forall_mem_map.mpr isFlat
  rw [List.append_assoc, List.map_append, List.map_append, map_blanked_alike, List.singleton_append,
    kindAt_append flat]
  constructor
  · rintro ⟨read, found⟩
    obtain ⟨gap, later, isGap, whole, -⟩ :=
      (after?_trimStart_map_iff (visible_of_all (by decide)) (List.cons_ne_nil _ _)).mp found
    exact ⟨gap, later, isGap, whole⟩
  · rintro ⟨gap, later, isGap, whole⟩
    exact ⟨_, (after?_trimStart_map_iff (visible_of_all (by decide)) (List.cons_ne_nil _ _)).mpr
      ⟨gap, later, isGap, whole, rfl⟩⟩

/-! ## The search -/

section Search

variable {line : Nat} {inside : Bool} {code text type parameters consumed : List Char} {c : Char}

/-- The declaration a heading stands for, if its word is a type. -/
def headed (line : Nat) (text type parameters : List Char) : List Declaration :=
  if expressionKeywords.contains type then []
  else [⟨line + linesBeforeName text, text, kindAt parameters⟩]

/-- Behind a heading the search goes on with the parameters. -/
theorem declarationsFrom_heading (line : Nat)
    (found : heading? (consumed ++ parameters) = some (type, parameters)) :
    declarationsFrom line false (consumed ++ parameters) =
      headed line (consumed ++ parameters) type parameters ++
        declarationsFrom (line + consumed.count '\n') false parameters := by
  cases whole : consumed ++ parameters with
  | nil =>
    rw [whole] at found
    cases found
  | cons c rest =>
    have front : (c :: rest).take ((c :: rest).length - parameters.length) = consumed := by
      simp [← whole]
    rw [declarationsFrom.eq_def]
    dsimp only
    split
    · rename_i type' parameters' found'
      rw [← whole, found] at found'
      cases found'
      rw [front]
      by_cases keyword : type ∈ expressionKeywords
      · simp [headed, keyword]
      · simp [headed, keyword]
    · rename_i missed
      exact (missed type parameters rfl (whole ▸ found)).elim

/-- Where no heading begins the search goes on with the next character. -/
theorem declarationsFrom_cons (line : Nat) (none : inside = false → heading? (c :: text) = none) :
    declarationsFrom line inside (c :: text) =
      declarationsFrom (line + [c].count '\n') (isWordChar c) text := by
  rw [declarationsFrom.eq_def]
  dsimp only
  split
  · rename_i found
    rw [none rfl] at found
    cases found
  · congr 1
    by_cases lineFeed : c = '\n'
    · simp [lineFeed]
    · simp [lineFeed]

/-- A heading in a text, behind `before`, that begins with a whole word. -/
structure IsHeading (inside : Bool) (code before text type parameters : List Char) : Prop where
  whole : code = before ++ text
  boundary : insideWordAfter inside before = false
  found : heading? text = some (type, parameters)

/-- The search passes over a text none of whose characters begins a heading. -/
theorem declarationsFrom_append {front : List Char} (line : Nat)
    (none : ∀ later, later ≠ [] → later <:+ front → (later = front → inside = false) →
      heading? (later ++ code) = none) :
    declarationsFrom line inside (front ++ code) =
      declarationsFrom (line + front.count '\n') (insideWordAfter inside front) code := by
  induction front generalizing line inside with
  | nil => rfl
  | cons c front ih =>
    have skip : inside = false → heading? (c :: (front ++ code)) = Option.none := fun outside =>
      none _ (List.cons_ne_nil c front) List.suffix_rfl fun _ => outside
    rw [List.cons_append, declarationsFrom_cons line skip, ih, insideWordAfter_cons,
      Nat.add_assoc, ← List.count_append]
    · rfl
    · intro later nonempty suffix _
      refine none later nonempty (suffix.trans (List.suffix_cons c front)) fun same => ?_
      subst same
      exact absurd suffix.length_le (by simp)

section Steps

variable {before text' type' parameters' : List Char}

theorem isHeading_cons (skip : inside = false → heading? (c :: code) = none) :
    IsHeading inside (c :: code) before text type parameters ↔
      ∃ later, before = c :: later ∧
        IsHeading (isWordChar c) code later text type parameters := by
  constructor
  · rintro ⟨whole, boundary, found⟩
    cases before with
    | nil =>
      rw [List.nil_append] at whole
      rw [← whole, skip boundary] at found
      cases found
    | cons d later =>
      cases whole
      exact ⟨later, rfl, rfl, by simpa using boundary, found⟩
  · rintro ⟨later, rfl, rfl, boundary, found⟩
    exact ⟨rfl, by simpa using boundary, found⟩

/-- A text that begins with a heading has this one, and those behind it. -/
theorem isHeading_append
    (found : heading? (consumed ++ parameters) = some (type, parameters)) :
    IsHeading false (consumed ++ parameters) before text' type' parameters' ↔
      (before = [] ∧ text' = consumed ++ parameters ∧ type' = type ∧ parameters' = parameters) ∨
        ∃ later, before = consumed ++ later ∧
          IsHeading false parameters later text' type' parameters' := by
  constructor
  · rintro ⟨whole, boundary, found'⟩
    rcases List.append_eq_append_iff.mp whole with ⟨later, rfl, rfl⟩ | ⟨later, rfl, rfl⟩
    · rw [insideWordAfter_append, insideWordAfter_heading found] at boundary
      exact .inr ⟨later, rfl, rfl, boundary, found'⟩
    · by_cases behind : before = []
      · subst behind
        rw [List.nil_append] at found
        cases found.symm.trans found'
        exact .inl ⟨rfl, rfl, rfl, rfl⟩
      · by_cases ends : later = []
        · subst ends
          exact .inr ⟨[], by simp, rfl, rfl, found'⟩
        · rw [heading?_eq_none_inside found behind ends boundary] at found'
          cases found'
  · rintro (⟨rfl, rfl, rfl, rfl⟩ | ⟨later, rfl, rfl, boundary, found'⟩)
    · exact ⟨rfl, rfl, found⟩
    · refine ⟨(List.append_assoc _ _ _).symm, ?_, found'⟩
      rwa [insideWordAfter_append, insideWordAfter_heading found]

end Steps

/-- Every declaration is found: wherever a heading begins with a whole word that is a type. -/
theorem mem_declarationsFrom_iff {declaration : Declaration} :
    declaration ∈ declarationsFrom line inside code ↔
      ∃ before text type parameters, IsHeading inside code before text type parameters ∧
        declaration ∈ headed (line + before.count '\n') text type parameters := by
  induction length : code.length using Nat.strong_induction_on generalizing line inside code with
  | _ n ih =>
    subst length
    cases code with
    | nil =>
      rw [declarationsFrom.eq_def]
      refine ⟨fun member => absurd member List.not_mem_nil, ?_⟩
      rintro ⟨before, text, type, parameters, ⟨whole, -, found⟩, -⟩
      obtain ⟨rfl, rfl⟩ := List.append_eq_nil_iff.mp whole.symm
      cases found
    | cons c rest =>
      by_cases skip : inside = false → heading? (c :: rest) = none
      · rw [declarationsFrom_cons line skip, ih rest.length (Nat.lt_succ_self _) rfl]
        simp only [isHeading_cons skip]
        constructor
        · rintro ⟨before, text, type, parameters, heading, member⟩
          rw [Nat.add_assoc, ← List.count_append] at member
          exact ⟨_, text, type, parameters, ⟨before, rfl, heading⟩, member⟩
        · rintro ⟨_, text, type, parameters, ⟨before, rfl, heading⟩, member⟩
          refine ⟨before, text, type, parameters, heading, ?_⟩
          rwa [Nat.add_assoc, ← List.count_append]
      · obtain ⟨rfl, some⟩ := Classical.not_imp.mp skip
        obtain ⟨⟨type, parameters⟩, found⟩ := Option.ne_none_iff_exists'.mp some
        obtain ⟨consumed, whole⟩ := heading?_suffix found
        rw [whole] at found ⊢
        have shorter : parameters.length < (c :: rest).length := heading?_shorter (whole ▸ found)
        rw [declarationsFrom_heading line found, List.mem_append, ih _ shorter rfl]
        simp only [isHeading_append found]
        constructor
        · rintro (member | ⟨before, text, type', parameters', heading, member⟩)
          · exact ⟨[], _, _, _, .inl ⟨rfl, rfl, rfl, rfl⟩, member⟩
          · rw [Nat.add_assoc, ← List.count_append] at member
            exact ⟨_, _, _, _, .inr ⟨before, rfl, heading⟩, member⟩
        · rintro ⟨_, _, _, _, ⟨rfl, rfl, rfl, rfl⟩ | ⟨before, rfl, heading⟩, member⟩
          · exact .inl member
          · refine .inr ⟨before, _, _, _, heading, ?_⟩
            rwa [Nat.add_assoc, ← List.count_append]

end Search

end Multipass.EntryPoint
