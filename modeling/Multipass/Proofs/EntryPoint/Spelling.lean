import Multipass.Assembly.EntryPoint
import Multipass.Proofs.Comment.Blanking
import Multipass.Proofs.Text.Word

/-!
# How the entry point is written

A declaration of the entry point, said by its characters: words of the code, and between them
blanks and comments. The readers of declarations work on a text whose comments are blanked out;
what they find there is a declaration in the text itself, and each declaration of the text is
found.
-/

namespace Multipass.EntryPoint

open Comment Text

/-- The characters of a text that is code. -/
abbrev asCode (text : List Char) : List Placed :=
  alike false text

/-- At least one blank or comment. -/
def IsSpace (characters : List Placed) : Prop :=
  characters ≠ [] ∧ IsGap characters

instance : DecidablePred IsSpace :=
  fun characters => inferInstanceAs (Decidable (characters ≠ [] ∧ IsGap characters))

/-- The name of the entry point with a space in front of it, and an opening parenthesis. -/
inductive IsNaming : List Placed → Prop where
  | intro {space gap : List Placed} : IsSpace space → IsGap gap →
      IsNaming (space ++ (asCode name ++ (gap ++ asCode ['('])))

/-- A name with a space in front of it, then a sign. -/
inductive IsNamed (sign : Char) : List Placed → Prop where
  | intro {space gap : List Placed} {name : List Char} : IsSpace space → IsWord name → IsGap gap →
      IsNamed sign (space ++ (asCode name ++ (gap ++ asCode [sign])))

/-- `out vec4 <name> ,` -/
inductive IsOutput : List Placed → Prop where
  | intro {gap space named : List Placed} : IsGap gap → IsSpace space → IsNamed ',' named →
      IsOutput (gap ++ (asCode "out".toList ++ (space ++ (asCode "vec4".toList ++ named))))

/-- Nothing, or `in`. -/
inductive IsQualifier : List Placed → Prop where
  | missing : IsQualifier []
  | input {space : List Placed} : IsSpace space → IsQualifier (asCode "in".toList ++ space)

/-- `[in] vec2 <name> )` -/
inductive IsInput : List Placed → Prop where
  | intro {gap qualifier named : List Placed} : IsGap gap → IsQualifier qualifier →
      IsNamed ')' named → IsInput (gap ++ (qualifier ++ (asCode "vec2".toList ++ named)))

/-- The parameters of the entry point and the parenthesis behind them. -/
inductive IsParameters : List Placed → Prop where
  | intro {output input : List Placed} : IsOutput output → IsInput input →
      IsParameters (output ++ input)

/-! ## What words and gaps end -/

/-- Does a text not begin with a blank or a comment? -/
def IsVisible (characters : List Placed) : Prop :=
  ∀ character ∈ characters.head?, character.isGap = false

/-- Does a word in front of a text end there? -/
def EndsWord (characters : List Placed) : Prop :=
  ∀ character ∈ characters.head?, isWordChar character.blanked = false

section Ends

variable {gap space : List Placed} {word : List Char}

theorem isVisible_asCode (visible : ∀ c ∈ word, isBlank c = false) (nonempty : word ≠ [])
    (rest : List Placed) : IsVisible (asCode word ++ rest) := by
  obtain ⟨first, others, rfl⟩ := List.exists_cons_of_ne_nil nonempty
  rintro character ⟨⟩
  exact visible first List.mem_cons_self

theorem isBlank_of_mem_word (isWord : IsWord word) : ∀ c ∈ word, isBlank c = false :=
  fun c member => isBlank_of_isWordChar (isWord.isWordChar c member)

theorem ne_nil_of_isWord (isWord : IsWord word) : word ≠ [] := by
  rintro rfl
  exact isWord

theorem isWordChar_blanked_of_isGap {character : Placed} (isGap : character.isGap = true) :
    isWordChar character.blanked = false :=
  isWordChar_of_isBlank (by rw [Placed.isBlank_blanked, isGap])

theorem IsSpace.endsWord (isSpace : IsSpace space) (rest : List Placed) :
    EndsWord (space ++ rest) := by
  obtain ⟨first, others, rfl⟩ := List.exists_cons_of_ne_nil isSpace.1
  rintro character ⟨⟩
  exact isWordChar_blanked_of_isGap (isSpace.2 first List.mem_cons_self)

/-- A sign ends a word, also behind a gap. -/
theorem endsWord_gap_append (isGap : IsGap gap) {sign : Char} (noWordChar : isWordChar sign = false)
    (rest : List Placed) : EndsWord (gap ++ (asCode [sign] ++ rest)) := by
  by_cases empty : gap = []
  · subst empty
    rintro character ⟨⟩
    exact noWordChar
  · exact IsSpace.endsWord ⟨empty, isGap⟩ _

end Ends

/-! ## Reading a blanked text -/

section Readers

variable {characters : List Placed} {word read : List Char}

theorem head?_map_blanked_iff :
    (∀ c ∈ (characters.map Placed.blanked).head?, isBlank c = false) ↔ IsVisible characters := by
  cases characters with
  | nil => simp [IsVisible]
  | cons first rest => simp [IsVisible, Placed.isBlank_blanked]

theorem after?_map_iff (visible : ∀ c ∈ word, isBlank c = false) :
    after? word (characters.map Placed.blanked) = some read ↔
      ∃ rest, characters = asCode word ++ rest ∧ rest.map Placed.blanked = read := by
  rw [after?_eq_some_iff, map_blanked_eq_append_iff visible]

/-- Blanks in front of a blanked text are a gap in front of the text. -/
theorem trimStart_map_iff :
    trimStart (characters.map Placed.blanked) = read ↔
      ∃ gap rest, IsGap gap ∧ characters = gap ++ rest ∧ rest.map Placed.blanked = read ∧
        IsVisible rest := by
  rw [trimStart_eq_iff]
  constructor
  · rintro ⟨blanks, blank, whole, stops⟩
    obtain ⟨gap, rest, rfl, rfl, rfl⟩ := List.map_eq_append_iff.mp whole
    exact ⟨gap, rest, isAllBlank_map_blanked.mp blank, rfl, rfl, head?_map_blanked_iff.mp stops⟩
  · rintro ⟨gap, rest, isGap, rfl, rfl, stops⟩
    exact ⟨gap.map Placed.blanked, isAllBlank_map_blanked.mpr isGap, List.map_append,
      head?_map_blanked_iff.mpr stops⟩

theorem afterBlanks?_map_iff :
    afterBlanks? (characters.map Placed.blanked) = some read ↔
      ∃ space rest, IsSpace space ∧ characters = space ++ rest ∧ rest.map Placed.blanked = read ∧
        IsVisible rest := by
  rw [afterBlanks?_eq_some_iff]
  constructor
  · rintro ⟨blanks, nonempty, blank, whole, stops⟩
    obtain ⟨space, rest, rfl, rfl, rfl⟩ := List.map_eq_append_iff.mp whole
    have isSpace : IsSpace space := by
      refine ⟨?_, isAllBlank_map_blanked.mp blank⟩
      rintro rfl
      exact nonempty rfl
    exact ⟨space, rest, isSpace, rfl, rfl, head?_map_blanked_iff.mp stops⟩
  · rintro ⟨space, rest, ⟨nonempty, isGap⟩, rfl, rfl, stops⟩
    exact ⟨space.map Placed.blanked, by simpa using nonempty, isAllBlank_map_blanked.mpr isGap,
      List.map_append, head?_map_blanked_iff.mpr stops⟩

theorem leadingWord?_map_iff :
    leadingWord? (characters.map Placed.blanked) = some (word, read) ↔
      ∃ rest, IsWord word ∧ characters = asCode word ++ rest ∧ rest.map Placed.blanked = read ∧
        EndsWord rest := by
  rw [leadingWord?_eq_some_iff]
  have ends (rest : List Placed) :
      (∀ c ∈ (rest.map Placed.blanked).head?, isWordChar c = false) ↔ EndsWord rest := by
    cases rest with
    | nil => simp [EndsWord]
    | cons first others => simp [EndsWord]
  constructor
  · rintro ⟨whole, isWord, stops⟩
    obtain ⟨rest, rfl, rfl⟩ := (map_blanked_eq_append_iff (isBlank_of_mem_word isWord)).mp whole
    exact ⟨rest, isWord, rfl, rfl, (ends rest).mp stops⟩
  · rintro ⟨rest, isWord, rfl, rfl, stops⟩
    exact ⟨by simp, isWord, (ends rest).mpr stops⟩

/-- A word behind a gap. -/
theorem after?_trimStart_map_iff (visible : ∀ c ∈ word, isBlank c = false) (nonempty : word ≠ []) :
    after? word (trimStart (characters.map Placed.blanked)) = some read ↔
      ∃ gap rest, IsGap gap ∧ characters = gap ++ (asCode word ++ rest) ∧
        rest.map Placed.blanked = read := by
  constructor
  · intro found
    obtain ⟨gap, rest, isGap, rfl, trimmed, -⟩ := (@trimStart_map_iff characters _).mp rfl
    rw [← trimmed] at found
    obtain ⟨rest, rfl, rfl⟩ := (after?_map_iff visible).mp found
    exact ⟨gap, rest, isGap, rfl, rfl⟩
  · rintro ⟨gap, rest, isGap, rfl, rfl⟩
    rw [trimStart_map_iff.mpr ⟨gap, _, isGap, rfl, rfl, isVisible_asCode visible nonempty rest⟩]
    exact (after?_map_iff visible).mpr ⟨rest, rfl, rfl⟩

/-- A word behind a space. -/
theorem after?_afterBlanks?_map_iff (visible : ∀ c ∈ word, isBlank c = false)
    (nonempty : word ≠ []) :
    (afterBlanks? (characters.map Placed.blanked)).bind (after? word) = some read ↔
      ∃ space rest, IsSpace space ∧ characters = space ++ (asCode word ++ rest) ∧
        rest.map Placed.blanked = read := by
  rw [Option.bind_eq_some_iff]
  constructor
  · rintro ⟨_, spaced, found⟩
    obtain ⟨space, rest, isSpace, rfl, rfl, -⟩ := afterBlanks?_map_iff.mp spaced
    obtain ⟨rest, rfl, rfl⟩ := (after?_map_iff visible).mp found
    exact ⟨space, rest, isSpace, rfl, rfl⟩
  · rintro ⟨space, rest, isSpace, rfl, rfl⟩
    exact ⟨_, afterBlanks?_map_iff.mpr ⟨space, _, isSpace, rfl, rfl,
      isVisible_asCode visible nonempty rest⟩, (after?_map_iff visible).mpr ⟨rest, rfl, rfl⟩⟩

end Readers

/-! ## Reading the parts of a declaration -/

/-- The text after the name of the entry point and an opening parenthesis. -/
def afterNaming? (text : List Char) : Option (List Char) :=
  ((afterBlanks? text).bind (after? name)).bind fun rest => after? ['('] (trimStart rest)

/-- The text after a name and a sign. -/
def afterNamed? (sign : Char) (text : List Char) : Option (List Char) :=
  (afterParameterName? text).bind (after? [sign])

/-- The text after a parameter for the output. -/
def afterOutput? (text : List Char) : Option (List Char) :=
  (after? "out".toList (trimStart text)).bind fun rest =>
    ((afterBlanks? rest).bind (after? "vec4".toList)).bind (afterNamed? ',')

/-- The text after a parameter for the input, blanks in front of it left out. -/
def afterInput? (text : List Char) : Option (List Char) :=
  (after? "vec2".toList (((after? "in".toList text).bind afterBlanks?).getD text)).bind
    (afterNamed? ')')

theorem heading?_eq (text : List Char) :
    heading? text = (leadingWord? text).bind fun (type, rest) =>
      (afterNaming? rest).map (type, ·) := by
  unfold heading? afterNaming?
  simp only [Option.bind_eq_bind, Option.pure_def, Option.map_eq_bind, Option.bind_assoc,
    Function.comp_def]

theorem hasSignature_eq (text : List Char) :
    hasSignature text =
      ((after? "void".toList text).bind fun rest => (afterNaming? rest).bind fun rest =>
        (afterOutput? rest).bind fun rest => afterInput? (trimStart rest)).isSome := by
  unfold hasSignature afterNaming? afterOutput? afterInput? afterNamed?
  simp only [Option.bind_eq_bind, Option.bind_assoc]

section Parts

variable {characters : List Placed} {read : List Char}

theorem afterNaming?_map_iff :
    afterNaming? (characters.map Placed.blanked) = some read ↔
      ∃ naming rest, IsNaming naming ∧ characters = naming ++ rest ∧
        rest.map Placed.blanked = read := by
  have visible : ∀ c ∈ name, isBlank c = false := visible_of_all (by decide)
  rw [afterNaming?, Option.bind_eq_some_iff]
  constructor
  · rintro ⟨_, named, opened⟩
    obtain ⟨space, rest, isSpace, rfl, rfl⟩ :=
      (after?_afterBlanks?_map_iff visible (by decide)).mp named
    obtain ⟨gap, rest, isGap, rfl, rfl⟩ :=
      (after?_trimStart_map_iff (visible_of_all (by decide)) (by decide)).mp opened
    exact ⟨_, rest, .intro isSpace isGap, by simp, rfl⟩
  · rintro ⟨_, rest, ⟨isSpace, isGap⟩, rfl, rfl⟩
    exact ⟨_, (after?_afterBlanks?_map_iff visible (by decide)).mpr
        ⟨_, _, isSpace, by rw [List.append_assoc, List.append_assoc], rfl⟩,
      (after?_trimStart_map_iff (visible_of_all (by decide)) (by decide)).mpr
        ⟨_, rest, isGap, by rw [List.append_assoc], rfl⟩⟩

theorem afterNamed?_map_iff {sign : Char} (visible : isBlank sign = false)
    (noWordChar : isWordChar sign = false) :
    afterNamed? sign (characters.map Placed.blanked) = some read ↔
      ∃ named rest, IsNamed sign named ∧ characters = named ++ rest ∧
        rest.map Placed.blanked = read := by
  have visible : ∀ c ∈ [sign], isBlank c = false := by simpa using visible
  simp only [afterNamed?, afterParameterName?, Option.bind_eq_bind, Option.pure_def,
    Option.bind_assoc, Option.bind_some, Option.bind_eq_some_iff]
  constructor
  · rintro ⟨_, spaced, ⟨_, _⟩, named, signed⟩
    obtain ⟨space, rest, isSpace, rfl, rfl, -⟩ := afterBlanks?_map_iff.mp spaced
    obtain ⟨rest, isWord, rfl, rfl, -⟩ := leadingWord?_map_iff.mp named
    obtain ⟨gap, rest, isGap, rfl, rfl⟩ :=
      (after?_trimStart_map_iff visible (List.cons_ne_nil _ _)).mp signed
    exact ⟨_, rest, .intro isSpace isWord isGap, by simp, rfl⟩
  · rintro ⟨_, rest, ⟨isSpace, isWord, isGap⟩, rfl, rfl⟩
    refine ⟨_, afterBlanks?_map_iff.mpr ⟨_, _, isSpace, List.append_assoc _ _ _, rfl, ?_⟩, _,
      leadingWord?_map_iff.mpr ⟨_, isWord, List.append_assoc _ _ _, rfl, ?_⟩, ?_⟩
    · rw [List.append_assoc]
      exact isVisible_asCode (isBlank_of_mem_word isWord) (ne_nil_of_isWord isWord) _
    · rw [List.append_assoc]
      exact endsWord_gap_append isGap noWordChar rest
    · exact (after?_trimStart_map_iff visible (List.cons_ne_nil _ _)).mpr
        ⟨_, rest, isGap, List.append_assoc _ _ _, rfl⟩

theorem afterOutput?_map_iff :
    afterOutput? (characters.map Placed.blanked) = some read ↔
      ∃ output rest, IsOutput output ∧ characters = output ++ rest ∧
        rest.map Placed.blanked = read := by
  rw [afterOutput?, Option.bind_eq_some_iff]
  constructor
  · rintro ⟨_, qualified, later⟩
    obtain ⟨_, typed, named⟩ := Option.bind_eq_some_iff.mp later
    obtain ⟨gap, rest, isGap, rfl, rfl⟩ :=
      (after?_trimStart_map_iff (visible_of_all (by decide)) (by decide)).mp qualified
    obtain ⟨space, rest, isSpace, rfl, rfl⟩ :=
      (after?_afterBlanks?_map_iff (visible_of_all (by decide)) (by decide)).mp typed
    obtain ⟨named, rest, isNamed, rfl, rfl⟩ :=
      (afterNamed?_map_iff (by decide) (by decide)).mp named
    exact ⟨_, rest, .intro isGap isSpace isNamed, by simp, rfl⟩
  · rintro ⟨_, rest, ⟨isGap, isSpace, isNamed⟩, rfl, rfl⟩
    refine ⟨_, (after?_trimStart_map_iff (visible_of_all (by decide)) (by decide)).mpr
      ⟨_, _, isGap, by rw [List.append_assoc, List.append_assoc], rfl⟩, ?_⟩
    exact Option.bind_eq_some_iff.mpr ⟨_,
      (after?_afterBlanks?_map_iff (visible_of_all (by decide)) (by decide)).mpr
        ⟨_, _, isSpace, by rw [List.append_assoc, List.append_assoc], rfl⟩,
      (afterNamed?_map_iff (by decide) (by decide)).mpr ⟨_, rest, isNamed, rfl, rfl⟩⟩

/-- A parameter for the input behind its qualifier. -/
theorem afterTyped?_map_iff :
    (after? "vec2".toList (characters.map Placed.blanked)).bind (afterNamed? ')') = some read ↔
      ∃ named rest, IsNamed ')' named ∧ characters = asCode "vec2".toList ++ (named ++ rest) ∧
        rest.map Placed.blanked = read := by
  rw [Option.bind_eq_some_iff]
  constructor
  · rintro ⟨_, typed, ended⟩
    obtain ⟨rest, rfl, rfl⟩ := (after?_map_iff (visible_of_all (by decide))).mp typed
    obtain ⟨named, rest, isNamed, rfl, rfl⟩ :=
      (afterNamed?_map_iff (by decide) (by decide)).mp ended
    exact ⟨named, rest, isNamed, rfl, rfl⟩
  · rintro ⟨named, rest, isNamed, rfl, rfl⟩
    exact ⟨_, (after?_map_iff (visible_of_all (by decide))).mpr ⟨_, rfl, rfl⟩,
      (afterNamed?_map_iff (by decide) (by decide)).mpr ⟨named, rest, isNamed, rfl, rfl⟩⟩

theorem afterInput?_map_iff :
    afterInput? (trimStart (characters.map Placed.blanked)) = some read ↔
      ∃ input rest, IsInput input ∧ characters = input ++ rest ∧
        rest.map Placed.blanked = read := by
  rw [afterInput?]
  constructor
  · intro found
    obtain ⟨gap, rest, isGap, rfl, trimmed, -⟩ := (@trimStart_map_iff characters _).mp rfl
    rw [← trimmed] at found
    cases qualified : (after? "in".toList (rest.map Placed.blanked)).bind afterBlanks? with
    | none =>
      rw [qualified, Option.getD_none] at found
      obtain ⟨named, rest, isNamed, rfl, rfl⟩ := afterTyped?_map_iff.mp found
      exact ⟨_, rest, .intro isGap .missing isNamed, by simp, rfl⟩
    | some later =>
      rw [qualified, Option.getD_some] at found
      obtain ⟨_, isInput, spaced⟩ := Option.bind_eq_some_iff.mp qualified
      obtain ⟨rest, rfl, rfl⟩ := (after?_map_iff (visible_of_all (by decide))).mp isInput
      obtain ⟨space, rest, isSpace, rfl, rfl, -⟩ := afterBlanks?_map_iff.mp spaced
      obtain ⟨named, rest, isNamed, rfl, rfl⟩ := afterTyped?_map_iff.mp found
      exact ⟨_, rest, .intro isGap (.input isSpace) isNamed, by simp, rfl⟩
  · rintro ⟨_, rest, ⟨isGap, isQualifier, isNamed⟩, rfl, rfl⟩
    rename_i gap qualifier named
    refine Eq.trans (congrArg (Option.bind · _) (congrArg (after? _) ?_))
      (afterTyped?_map_iff.mpr ⟨named, rest, isNamed, rfl, rfl⟩)
    rw [List.append_assoc, List.append_assoc, List.append_assoc]
    cases isQualifier with
    | missing =>
      rw [List.nil_append, trimStart_map_iff.mpr ⟨gap, _, isGap, rfl, rfl,
        isVisible_asCode (visible_of_all (by decide)) (by decide) _⟩]
      rfl
    | input isSpace =>
      rename_i space
      rw [List.append_assoc, trimStart_map_iff.mpr ⟨gap, _, isGap, rfl, rfl,
          isVisible_asCode (visible_of_all (by decide)) (by decide) _⟩,
        (after?_map_iff (visible_of_all (by decide))).mpr ⟨_, rfl, rfl⟩, Option.bind_some,
        afterBlanks?_map_iff.mpr ⟨space, _, isSpace, rfl, rfl,
          isVisible_asCode (visible_of_all (by decide)) (by decide) _⟩, Option.getD_some]

/-- A word, the name of the entry point and an opening parenthesis. -/
theorem heading?_map_iff {type : List Char} :
    heading? (characters.map Placed.blanked) = some (type, read) ↔
      ∃ naming rest, IsWord type ∧ IsNaming naming ∧ characters = asCode type ++ (naming ++ rest) ∧
        rest.map Placed.blanked = read := by
  simp only [heading?_eq, Option.bind_eq_some_iff, Prod.exists, Option.map_eq_some_iff, Prod.mk.injEq]
  constructor
  · rintro ⟨type, _, typed, _, named, rfl, rfl⟩
    obtain ⟨rest, isWord, rfl, rfl, -⟩ := leadingWord?_map_iff.mp typed
    obtain ⟨naming, rest, isNaming, rfl, rfl⟩ := afterNaming?_map_iff.mp named
    exact ⟨naming, rest, isWord, isNaming, rfl, rfl⟩
  · rintro ⟨naming, rest, isWord, isNaming, rfl, rfl⟩
    have ends : EndsWord (naming ++ rest) := by
      cases isNaming with
      | intro isSpace isGap =>
        rw [List.append_assoc]
        exact isSpace.endsWord _
    exact ⟨type, _, leadingWord?_map_iff.mpr ⟨_, isWord, rfl, rfl, ends⟩, _,
      afterNaming?_map_iff.mpr ⟨naming, rest, isNaming, rfl, rfl⟩, rfl, rfl⟩

theorem hasSignature_map_iff :
    hasSignature (characters.map Placed.blanked) = true ↔
      ∃ naming parameters rest, IsNaming naming ∧ IsParameters parameters ∧
        characters = asCode "void".toList ++ (naming ++ (parameters ++ rest)) := by
  simp only [hasSignature_eq, Option.isSome_iff_exists, Option.bind_eq_some_iff]
  constructor
  · rintro ⟨_, _, typed, _, named, _, output, input⟩
    obtain ⟨rest, rfl, rfl⟩ := (after?_map_iff (visible_of_all (by decide))).mp typed
    obtain ⟨naming, rest, isNaming, rfl, rfl⟩ := afterNaming?_map_iff.mp named
    obtain ⟨output, rest, isOutput, rfl, rfl⟩ := afterOutput?_map_iff.mp output
    obtain ⟨input, rest, isInput, rfl, rfl⟩ := afterInput?_map_iff.mp input
    exact ⟨naming, _, rest, isNaming, .intro isOutput isInput, by simp⟩
  · rintro ⟨naming, _, rest, isNaming, ⟨isOutput, isInput⟩, rfl⟩
    refine ⟨_, _, (after?_map_iff (visible_of_all (by decide))).mpr ⟨_, rfl, rfl⟩, _,
      afterNaming?_map_iff.mpr ⟨naming, _, isNaming, rfl, rfl⟩, _,
      afterOutput?_map_iff.mpr ⟨_, _, isOutput, List.append_assoc _ _ _, rfl⟩,
      afterInput?_map_iff.mpr ⟨_, rest, isInput, rfl, rfl⟩⟩

end Parts

end Multipass.EntryPoint
