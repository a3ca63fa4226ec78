import Multipass.Proofs.EntryPoint.Acceptance

/-!
# Entry points in any layout

However a declaration of the entry point is laid out, with blanks, line feeds and comments
between its words, the search finds it whole: it passes over the code in front, which does not
name the entry point, reads the heading, and passes over the parameters up to the sign behind
them.
-/

namespace Multipass.EntryPoint

open Comment Text

/-- The entry point with its signature, and a sign behind the parameters. -/
inductive IsDeclared (sign : Char) : List Placed → Prop where
  | intro {naming parameters gap : List Placed} : IsNaming naming → IsParameters parameters →
      IsGap gap → IsDeclared sign
        (asCode "void".toList ++ (naming ++ (parameters ++ (gap ++ asCode [sign]))))

/-- Code in front of a declaration: it ends outside comments and words and does not name the
entry point. -/
structure IsFiller (text : List Char) : Prop where
  outsideComments : placeAfter .code text = .code
  outsideWords : insideWordAfter false text = false
  nameless : ¬ asCode name <:+: placed .code text

/-! ## Texts side by side -/

section Sides

variable {front rest declared : List Char} {sign : Char} {characters : List Placed}

/-- A sign of the code that is part of no marker leaves a reader in the code. -/
theorem placed_append_of_sign (noSlash : sign ≠ '/') (noStar : sign ≠ '*')
    (ends : placed .code declared = characters ++ asCode [sign]) (rest : List Char) :
    placed .code (declared ++ rest) = placed .code declared ++ placed .code rest := by
  have whole : declared = characters.map (·.char) ++ [sign] := by
    rw [← map_char_placed .code declared, ends]
    simp [alike]
  have alone := placed_append_cons noSlash noStar .code (characters.map (·.char)) []
  have joined := placed_append_cons noSlash noStar .code (characters.map (·.char)) rest
  rw [whole] at ends ⊢
  rw [alone] at ends ⊢
  rw [List.append_assoc, List.singleton_append, joined, List.append_assoc]
  congr 1
  have single (place : Place) : (placed place [sign]).length = 1 := by
    rw [← List.length_map (·.char), map_char_placed]
    rfl
  have isCode := List.append_inj_right' ends (single _)
  generalize placeAfter .code (characters.map (·.char)) = place at isCode ⊢
  cases place with
  | code => simp [placed, noSlash]
  | line =>
    have lineFeed : sign = '\n' := by simpa [placed, alike] using isCode
    simp [placed, lineFeed]
  | block => simp [placed, alike] at isCode

theorem blank_filler_append (isFiller : IsFiller front) (rest : List Char) {c : Char}
    (noSlash : c ≠ '/') (noStar : c ≠ '*') :
    blank (front ++ c :: rest) = blank front ++ blank (c :: rest) := by
  rw [blank_eq_map, placed_append_cons noSlash noStar, isFiller.outsideComments, List.map_append,
    ← blank_eq_map, ← blank_eq_map]

theorem insideWordAfter_of_suffix {later text : List Char} (nonempty : later ≠ [])
    (suffix : later <:+ text) (inside inside' : Bool) :
    insideWordAfter inside later = insideWordAfter inside' text := by
  obtain ⟨before, rfl⟩ := suffix
  rw [insideWordAfter_append, insideWordAfter, insideWordAfter,
    List.getLast?_eq_some_getLast nonempty]
  rfl

/-- Where a text ends outside words, it does so with its comments blanked out. -/
theorem insideWordAfter_blank (ends : insideWordAfter false front = false) :
    insideWordAfter false (blank front) = false := by
  rw [← map_char_placed .code front, insideWordAfter, List.getLast?_map] at ends
  rw [blank_eq_map, insideWordAfter, List.getLast?_map]
  cases last : (placed .code front).getLast? with
  | none => rfl
  | some character =>
    rw [last] at ends
    by_cases isGap : character.isGap = true
    · exact isWordChar_blanked_of_isGap isGap
    · have isCode : character.inComment = false := by
        simp only [Placed.isGap, Bool.or_eq_true, not_or, Bool.not_eq_true] at isGap
        exact isGap.1
      simpa [Placed.blanked, isCode] using ends

/-- Only the code of a text can name the entry point once the comments are blanked out. -/
theorem not_name_infix_blank (nameless : ¬ asCode name <:+: placed .code front) :
    ¬ name <:+: blank front := by
  rintro ⟨before, after, whole⟩
  rw [blank_eq_map, List.append_assoc] at whole
  obtain ⟨before, back, split, rfl, named⟩ := List.map_eq_append_iff.mp whole.symm
  obtain ⟨after, rfl, rfl⟩ := (map_blanked_eq_append_iff (visible_of_all (by decide))).mp named
  exact nameless ⟨before, after, by rw [split, List.append_assoc]⟩

end Sides

/-! ## Reading past a declaration -/

section Past

variable {front rest declared : List Char} {sign : Char}

/-- The search passes over what stands in front of a declaration. -/
theorem declarationsFrom_filler (isFiller : IsFiller front) (line : Nat) {rest : List Char}
    (visible : ∀ c ∈ rest.head?, isBlank c = false) (unnamed : ¬ name <+: rest) :
    declarationsFrom line false (blank front ++ rest) =
      declarationsFrom (line + (blank front).count '\n') false rest := by
  have ends := insideWordAfter_blank isFiller.outsideWords
  rw [declarationsFrom_append line fun later nonempty suffix _ => ?_, ends]
  refine heading?_append_eq_none nonempty ?_ ?_ visible unnamed
  · intro named
    exact not_name_infix_blank isFiller.nameless (named.trans suffix.isInfix)
  · rw [insideWordAfter_of_suffix nonempty suffix false false, ends]

/-- The search passes over the parameters of a declaration, up to the sign behind them. -/
theorem declarationsFrom_parameters {parameters gap : List Placed} (isParameters : IsParameters parameters)
    (isGap : IsGap gap) (signs : sign = '{' ∨ sign = ';') (line : Nat) (rest : List Char) :
    ∃ line', declarationsFrom line false
        ((parameters ++ (gap ++ asCode [sign])).map Placed.blanked ++ rest) =
      declarationsFrom line' false rest := by
  have visible : isBlank sign = false := by rcases signs with rfl | rfl <;> rfl
  have noWordChar : isWordChar sign = false := by rcases signs with rfl | rfl <;> decide
  have noOpening : '(' ∉ (parameters ++ gap).map Placed.blanked := by
    obtain ⟨inner, rfl, isFlat⟩ := isParameters.exists_isFlat
    have flat := isFlat_append.mpr ⟨isFlat, isFlat_of_isGap isGap⟩
    rw [List.append_assoc, List.map_append, List.map_append, map_blanked_alike]
    intro member
    rcases List.mem_append.mp member with inInner | inGap
    · obtain ⟨character, inInner, same⟩ := List.mem_map.mp inInner
      exact (isFlat character inInner).1 same
    · rcases List.mem_cons.mp inGap with closing | inGap
      · exact absurd closing (by decide)
      · obtain ⟨character, inGap, same⟩ := List.mem_map.mp inGap
        exact (isFlat_of_isGap isGap character inGap).1 same
  have ends : insideWordAfter false ((parameters ++ gap).map Placed.blanked ++ [sign]) = false := by
    simpa using noWordChar
  have passed : ∀ later, later ≠ [] →
      later <:+ (parameters ++ gap).map Placed.blanked ++ [sign] → heading? (later ++ rest) = none := by
    intro later nonempty suffix
    rcases List.suffix_concat_iff.mp suffix with rfl | ⟨inner, rfl, within⟩
    · exact absurd rfl nonempty
    · rw [List.append_assoc]
      refine heading?_eq_none_of_sign visible noWordChar fun member => ?_
      rcases List.mem_append.mp member with inInner | isSign
      · exact noOpening (within.subset inInner)
      · rcases signs with rfl | rfl <;> exact absurd isSign (by decide)
  have read := declarationsFrom_append line fun later nonempty suffix
    (_ : later = _ → false = false) => passed later nonempty suffix
  rw [ends] at read
  exact ⟨_, by simpa using read⟩

theorem follows_iff {gap : List Placed} (isGap : IsGap gap) (signs : sign = '{' ∨ sign = ';')
    (rest : List Placed) : Follows ';' (gap ++ (asCode [sign] ++ rest)) ↔ sign = ';' := by
  constructor
  · rintro ⟨gap', later, isGap', same⟩
    have visible : ∀ c ∈ [sign], isBlank c = false := by
      rcases signs with rfl | rfl <;> exact visible_of_all (by decide)
    have read := (after?_trimStart_map_iff visible (List.cons_ne_nil _ _)).mpr
      ⟨gap, rest, isGap, rfl, rfl⟩
    have read' := (after?_trimStart_map_iff (visible_of_all (by decide)) (List.cons_ne_nil _ _)).mpr
      ⟨gap', later, isGap', same, rfl⟩
    have begins := after?_eq_some_iff.mp read
    rw [after?_eq_some_iff.mp read'] at begins
    exact (List.cons.inj begins).1.symm
  · rintro rfl
    exact ⟨gap, rest, isGap, rfl⟩

/-- The search finds a heading at the beginning of a text and goes on behind it. -/
theorem declarationsFrom_naming {type : List Char} {naming : List Placed} (isWord : IsWord type)
    (isNaming : IsNaming naming) (line : Nat) (after : List Placed) :
    ∃ line', declarationsFrom line false ((asCode type ++ (naming ++ after)).map Placed.blanked) =
      headed line ((asCode type ++ (naming ++ after)).map Placed.blanked) type
          (after.map Placed.blanked) ++
        declarationsFrom line' false (after.map Placed.blanked) := by
  have found := heading?_map_iff.mpr ⟨naming, after, isWord, isNaming, rfl, rfl⟩
  rw [← List.append_assoc, List.map_append] at found ⊢
  exact ⟨_, declarationsFrom_heading line found⟩

/-- Behind a filler a declaration is found, and the search goes on with the text behind it. -/
theorem declarationsFrom_declared (isFiller : IsFiller front)
    (isDeclared : IsDeclared sign (placed .code declared)) (signs : sign = '{' ∨ sign = ';')
    (line : Nat) (rest : List Char) :
    ∃ declaration line', declarationsFrom line false (blank (front ++ (declared ++ rest))) =
        declaration :: declarationsFrom line' false (blank rest) ∧
      hasSignature declaration.text = true ∧ (declaration.kind = .prototype ↔ sign = ';') := by
  generalize whole : placed .code declared = characters at isDeclared
  cases isDeclared with
  | @intro naming parameters gap isNaming isParameters isGap =>
    have noMarker : sign ≠ '/' ∧ sign ≠ '*' := by rcases signs with rfl | rfl <;> decide
    have ends : placed .code declared =
        asCode "void".toList ++ (naming ++ (parameters ++ gap)) ++ asCode [sign] := by
      rw [whole]
      simp
    have joined : placed .code (declared ++ rest) = asCode "void".toList ++ (naming ++
        (parameters ++ (gap ++ (asCode [sign] ++ placed .code rest)))) := by
      rw [placed_append_of_sign noMarker.1 noMarker.2 ends, ends]
      simp
    obtain ⟨tail, begins⟩ : ∃ tail, declared ++ rest = 'v' :: tail := by
      rw [← map_char_placed .code (declared ++ rest), joined]
      exact ⟨_, rfl⟩
    have split : blank (front ++ (declared ++ rest)) = blank front ++ blank (declared ++ rest) := by
      rw [begins, blank_filler_append isFiller tail (by decide) (by decide)]
    obtain ⟨behindHeading, heading⟩ := declarationsFrom_naming isWord_void isNaming
      (line + (blank front).count '\n') (parameters ++ (gap ++ (asCode [sign] ++ placed .code rest)))
    obtain ⟨line', passed⟩ := declarationsFrom_parameters isParameters isGap signs behindHeading
      (blank rest)
    rw [split, blank_eq_map (declared ++ rest), joined, declarationsFrom_filler isFiller line,
      heading, headed, if_neg (by decide), List.singleton_append]
    · refine ⟨_, line', congrArg (_ :: ·) ?_, ?_, ?_⟩
      · rw [← passed, blank_eq_map]
        simp
      · exact (hasSignature_declared isWord_void isNaming).mpr
          ⟨rfl, parameters, _, isParameters, rfl⟩
      · exact (kindAt_eq_prototype_iff isParameters).trans (follows_iff isGap signs _)
    · rintro c ⟨⟩
      rfl
    · rintro ⟨after, same⟩
      cases same

end Past

/-! ## Any layout -/

/-- A declaration with the signature, laid out in any way, and the code in front of it. -/
structure Part where
  filler : List Char
  declaration : List Char
  sign : Char
  isFiller : IsFiller filler
  isDeclared : IsDeclared sign (placed .code declaration)
  signs : sign = '{' ∨ sign = ';'

/-- The text of parts, and the code behind them. -/
def joinParts (parts : List Part) (post : List Char) : List Char :=
  parts.foldr (fun part rest => part.filler ++ (part.declaration ++ rest)) post

section Parts

variable {post : List Char}

/-- The code behind the last declaration declares nothing. -/
theorem declarationsFrom_post (nameless : ¬ asCode name <:+: placed .code post) (line : Nat) :
    declarationsFrom line false (blank post) = [] := by
  refine List.eq_nil_iff_forall_not_mem.mpr fun declaration member => ?_
  obtain ⟨before, text, type, parameters, ⟨whole, -, found⟩, -⟩ := mem_declarationsFrom_iff.mp member
  refine not_name_infix_blank nameless ((name_infix_of_heading? found).trans ?_)
  exact ⟨before, [], by rw [whole, List.append_nil]⟩

/-- The declarations that are found are those of the parts, one after the other. -/
theorem declarationsFrom_joinParts (nameless : ¬ asCode name <:+: placed .code post)
    (parts : List Part) (line : Nat) :
    (declarationsFrom line false (blank (joinParts parts post))).map
        (fun declaration => (hasSignature declaration.text, declaration.kind == .prototype)) =
      parts.map fun part => (true, part.sign == ';') := by
  induction parts generalizing line with
  | nil =>
    rw [joinParts, List.foldr_nil, declarationsFrom_post nameless]
    rfl
  | cons part parts ih =>
    obtain ⟨declaration, line', found, signature, kind⟩ :=
      declarationsFrom_declared part.isFiller part.isDeclared part.signs line (joinParts parts post)
    have sameKind : (declaration.kind == .prototype) = (part.sign == ';') := by
      rw [Bool.eq_iff_iff, beq_iff_eq, beq_iff_eq, kind]
    rw [joinParts, List.foldr_cons, ← joinParts, found, List.map_cons, List.map_cons, ih, signature,
      sameKind]

/-- A text is accepted that declares the entry point with its signature, as often as it likes and
in any layout, at least once as a definition, and does not name it elsewhere. -/
theorem accepts_layout (parts : List Part) (post : List Char) (pass : PassName)
    (defined : ∃ part ∈ parts, part.sign = '{')
    (nameless : ¬ asCode name <:+: placed .code post) :
    validateEntryPoint (String.ofList (joinParts parts post)) pass = .ok () := by
  have found := declarationsFrom_joinParts nameless parts 1
  rw [validateEntryPoint_eq_ok_iff, problem?_eq_none_iff, String.toList_ofList]
  constructor
  · obtain ⟨part, member, sign⟩ := defined
    have isDefinition : (true, false) ∈ parts.map fun part => (true, part.sign == ';') :=
      List.mem_map.mpr ⟨part, member, by rw [sign]; rfl⟩
    obtain ⟨declaration, member, same⟩ := List.mem_map.mp (found ▸ isDefinition)
    exact ⟨declaration, member, beq_eq_false_iff_ne.mp (Prod.ext_iff.mp same).2⟩
  · intro declaration member
    have isPart : (hasSignature declaration.text, declaration.kind == .prototype) ∈
        parts.map fun part => (true, part.sign == ';') :=
      found ▸ List.mem_map.mpr ⟨declaration, member, rfl⟩
    obtain ⟨part, -, same⟩ := List.mem_map.mp isPart
    exact (Prod.ext_iff.mp same).1.symm

/-- A declaration with one space and one gap everywhere. -/
theorem isDeclared_uniform (sign : Char) {space gap : List Placed} (isSpace : IsSpace space)
    (isGap : IsGap gap) :
    IsDeclared sign (asCode "void".toList ++
      ((space ++ (asCode name ++ (gap ++ asCode ['(']))) ++
        (((gap ++ (asCode "out".toList ++ (space ++ (asCode "vec4".toList ++
            (space ++ (asCode ['c'] ++ (gap ++ asCode [',']))))))) ++
          (gap ++ ((asCode "in".toList ++ space) ++ (asCode "vec2".toList ++
            (space ++ (asCode ['p'] ++ (gap ++ asCode [')']))))))) ++ (gap ++ asCode [sign])))) :=
  .intro (.intro isSpace isGap)
    (.intro (.intro isGap isSpace (.intro isSpace ⟨by decide, by simp⟩ isGap))
      (.intro isGap (.input isSpace) (.intro isSpace ⟨by decide, by simp⟩ isGap)))
    isGap

/-- A prototype behind other code. -/
def plainPrototype : Part where
  filler := "float f;\n".toList
  declaration := ["void ", "mainImage(", "out vec4 c,", "in vec2 p);"].flatMap String.toList
  sign := ';'
  isFiller := ⟨by decide, by decide, by decide +kernel⟩
  isDeclared := @isDeclared_uniform ';' (asCode [' ']) [] (by decide) (by decide)
  signs := .inr rfl

/-- A definition behind a comment, with comments between all its words. -/
def commentedDefinition : Part where
  filler := "/* void mainImage( */\n".toList
  declaration := ["void//\n", "mainImage/*)*/(/*)*/", "out//\n", "vec4//\n", "c/*)*/,/*)*/", "in//\n",
    "vec2//\n", "p/*)*/)/*)*/\x7b"].flatMap String.toList
  sign := '{'
  isFiller := ⟨by decide, by decide, by decide +kernel⟩
  isDeclared := @isDeclared_uniform '{' (placed .code "//\n".toList) (placed .code "/*)*/".toList)
    (by decide) (by decide)
  signs := .inl rfl

theorem accepts_layout_commented :
    validateEntryPoint
      (String.ofList (joinParts [plainPrototype, commentedDefinition] " \x7d".toList)) .image =
        .ok () :=
  accepts_layout _ _ _ ⟨commentedDefinition, by simp, rfl⟩ (by decide +kernel)

end Parts

end Multipass.EntryPoint
