import Multipass.Proofs.Comment.Lexing

/-!
# What blanking leaves of a text

Blanking the comments of a text leaves the characters of the code as they are and line feeds
where they are; every other character becomes a space. So what is read off the blanked text can
be read off the characters of the text, each with its place: blanks there are blanks and
characters of comments here, and any other character there is one of the code here.
-/

namespace Multipass.Comment

open Text

namespace Placed

/-- What blanking makes of a character. -/
def blanked (character : Placed) : Char :=
  if character.inComment && character.char != '\n' then ' ' else character.char

/-- Can a character stand between two words? -/
def isGap (character : Placed) : Bool :=
  character.inComment || isBlank character.char

variable {character : Placed}

theorem isBlank_blanked (character : Placed) : isBlank character.blanked = character.isGap := by
  obtain ⟨c, inComment⟩ := character
  cases inComment with
  | false => rfl
  | true =>
    by_cases lineFeed : c = '\n'
    · subst lineFeed
      rfl
    · have replaced : blanked ⟨c, true⟩ = ' ' := if_pos (by simp [lineFeed])
      rw [replaced]
      rfl

/-- Only characters of the code are left as visible ones. -/
theorem eq_of_blanked {c : Char} (visible : isBlank c = false) (same : character.blanked = c) :
    character = ⟨c, false⟩ := by
  have noGap : character.isGap = false := by rw [← isBlank_blanked, same, visible]
  obtain ⟨outside, -⟩ := Bool.or_eq_false_iff.mp noGap
  obtain ⟨char, inComment⟩ := character
  cases outside
  cases same
  rfl

end Placed

theorem blankFrom_eq_map (place : Place) (text : List Char) :
    blankFrom place text = (placed place text).map Placed.blanked := by
  fun_induction placed place text with
  | case1 place => cases place <;> rfl
  | case2 c rest ih =>
    rw [blankFrom, List.map_cons, ← ih]
    by_cases lineFeed : c = '\n'
    · subst lineFeed
      rfl
    · simp [Placed.blanked, lineFeed]
  | case3 rest ih | case5 rest ih | case6 rest ih =>
    simp [blankFrom, ih, Placed.blanked]
  | case4 c rest goesOn ih =>
    rw [blankFrom.eq_4 c rest goesOn, List.map_cons, ← ih]
    by_cases lineFeed : c = '\n'
    · subst lineFeed
      rfl
    · simp [Placed.blanked, lineFeed]
  | case7 c rest noLine noBlock ih =>
    rw [blankFrom.eq_7 c rest noLine noBlock, List.map_cons, ← ih]
    rfl

theorem blank_eq_map (text : List Char) : blank text = (placed .code text).map Placed.blanked :=
  blankFrom_eq_map .code text

theorem map_char_placed (place : Place) (text : List Char) :
    (placed place text).map (·.char) = text := by
  fun_induction placed place text <;> simp_all

/-- Blanking neither adds nor removes a line feed. -/
theorem Placed.blanked_eq_lineFeed_iff {character : Placed} :
    character.blanked = '\n' ↔ character.char = '\n' := by
  unfold Placed.blanked
  split <;> simp_all

theorem count_map_blanked (characters : List Placed) :
    (characters.map Placed.blanked).count '\n' = (characters.map (·.char)).count '\n' := by
  induction characters with
  | nil => rfl
  | cons character rest ih =>
    simp [List.count_cons, ih, Placed.blanked_eq_lineFeed_iff]

/-! ## Words and gaps -/

/-- Blanks and comments. -/
def IsGap (characters : List Placed) : Prop :=
  ∀ character ∈ characters, character.isGap = true

instance : DecidablePred IsGap :=
  fun characters => inferInstanceAs (Decidable (∀ character ∈ characters, character.isGap = true))

section Words

variable {characters rest : List Placed} {word : List Char}

@[simp] theorem map_blanked_alike (word : List Char) : (alike false word).map Placed.blanked = word := by
  rw [alike, List.map_map]
  exact List.map_id word

theorem isAllBlank_map_blanked : isAllBlank (characters.map Placed.blanked) = true ↔ IsGap characters := by
  simp [isAllBlank, IsGap, Placed.isBlank_blanked]

/-- Visible characters of the blanked text are characters of the code. -/
theorem map_blanked_eq_iff (visible : ∀ c ∈ word, isBlank c = false) :
    characters.map Placed.blanked = word ↔ characters = alike false word := by
  constructor
  · intro same
    induction characters generalizing word with
    | nil =>
      subst same
      rfl
    | cons character later ih =>
      subst same
      have first := Placed.eq_of_blanked (visible _ List.mem_cons_self) rfl
      have others := ih (fun c member => visible c (List.mem_cons_of_mem _ member)) rfl
      rw [List.map_cons, alike, List.map_cons, ← alike, ← others, ← first]
  · rintro rfl
    exact map_blanked_alike word

/-- A word in front of a blanked text is one in front of the text. -/
theorem map_blanked_eq_append_iff {text : List Char} (visible : ∀ c ∈ word, isBlank c = false) :
    characters.map Placed.blanked = word ++ text ↔
      ∃ rest, characters = alike false word ++ rest ∧ rest.map Placed.blanked = text := by
  rw [List.map_eq_append_iff]
  constructor
  · rintro ⟨front, rest, rfl, same, rfl⟩
    exact ⟨rest, by rw [(map_blanked_eq_iff visible).mp same], rfl⟩
  · rintro ⟨rest, rfl, rfl⟩
    exact ⟨alike false word, rest, rfl, map_blanked_alike word, rfl⟩

end Words

/-! ## Texts side by side -/

/-- A character that is part of no marker stands apart from the text in front of it. -/
theorem placed_append_cons {c : Char} (noSlash : c ≠ '/') (noStar : c ≠ '*') (place : Place)
    (front rest : List Char) :
    placed place (front ++ c :: rest) =
      placed place front ++ placed (placeAfter place front) (c :: rest) := by
  fun_induction placeAfter place front with
  | case1 place => cases place <;> rfl
  | case2 d text ih => rw [List.cons_append, placed, placed, ih, List.cons_append]
  | case3 text ih | case5 text ih | case6 text ih =>
    rw [List.cons_append, List.cons_append, placed, placed, ih]
    rfl
  | case4 d text goesOn ih =>
    rw [List.cons_append, placed.eq_4, placed.eq_4 d text goesOn, ih]
    · rfl
    · intro after opens closes
      cases text <;> simp_all
  | case7 d text noLine noBlock ih =>
    rw [List.cons_append, placed.eq_7, placed.eq_7 d text noLine noBlock, ih]
    · rfl
    · intro after opens goesOn
      cases text <;> simp_all
    · intro after opens goesOn
      cases text <;> simp_all

end Multipass.Comment
