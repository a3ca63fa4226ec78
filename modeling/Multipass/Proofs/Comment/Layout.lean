import Multipass.Proofs.Comment.Blanking

/-!
# The layout of a text without its comments

A text is read from left to right as characters of code and comments: a line comment goes on to
the end of its line, a block comment to the next `*/`, which shares no character with its opening,
or to the end of the text. There is one such reading. Blanking keeps every character of code where
it is, writes a space over every character of a comment but a line feed, and finds nothing more to
blank in what it leaves.
-/

namespace Multipass.Comment

/-- What a reader of a text comes upon: a character of code or a comment, with its text between
    the markers. -/
inductive Part where
  | code (c : Char)
  | line (body : List Char)
  | block (body : List Char)
  | unclosed (body : List Char)
  deriving DecidableEq, Repr

/-- The parts of a text, read from left to right. -/
inductive Lexes : List Char → List Part → Prop where
  | nil : Lexes [] []
  | code {c : Char} {rest : List Char} {parts : List Part} :
      ¬ ['/', '/'] <+: c :: rest → ¬ ['/', '*'] <+: c :: rest → Lexes rest parts →
        Lexes (c :: rest) (.code c :: parts)
  | line {body rest : List Char} {parts : List Part} :
      '\n' ∉ body → (∀ c ∈ rest.head?, c = '\n') → Lexes rest parts →
        Lexes ('/' :: '/' :: (body ++ rest)) (.line body :: parts)
  | block {body rest : List Char} {parts : List Part} :
      ¬ ['*', '/'] <:+: body → Lexes rest parts →
        Lexes ('/' :: '*' :: (body ++ '*' :: '/' :: rest)) (.block body :: parts)
  | unclosed {body : List Char} :
      ¬ ['*', '/'] <:+: body → Lexes ('/' :: '*' :: body) [.unclosed body]

/-- The characters of a part, each with its place. -/
def Part.placed : Part → List Placed
  | .code c => alike false [c]
  | .line body => alike true ('/' :: '/' :: body)
  | .block body => alike true ('/' :: '*' :: (body ++ ['*', '/']))
  | .unclosed body => alike true ('/' :: '*' :: body)

/-- The characters of all parts, in order. -/
def characters (parts : List Part) : List Placed :=
  parts.flatMap Part.placed

section Closing

variable {text body rest : List Char}

theorem splitAtClosing?_eq_none_iff : splitAtClosing? text = none ↔ ¬ ['*', '/'] <:+: text := by
  rw [← Text.contains_iff, Text.contains, splitAtClosing?, Option.not_isSome_iff_eq_none]

/-- A block comment is closed at the first `*/`. -/
theorem splitAtClosing?_eq_some_iff : splitAtClosing? text = some (body, rest) ↔
    text = body ++ '*' :: '/' :: rest ∧ ¬ ['*', '/'] <:+: body := by
  constructor
  · intro cut
    have whole := Text.eq_append_of_breakAt? cut
    refine ⟨by rw [whole]; simp, ?_⟩
    rintro ⟨before, behind, rfl⟩
    rw [whole, List.append_assoc, List.append_assoc, List.append_assoc] at cut
    have first := Text.length_le_of_breakAt? cut
    simp only [List.length_append, List.length_cons] at first
    omega
  · rintro ⟨rfl, open'⟩
    induction body with
    | nil => exact Text.breakAt?_self_append (List.cons_ne_nil _ _) rest
    | cons c body ih =>
      have later := ih fun inside => open' (inside.trans (List.suffix_cons c body).isInfix)
      rcases splitAtClosing?_cons c (body ++ '*' :: '/' :: rest) with
        ⟨after, rfl, closes, -⟩ | ⟨-, cut⟩
      · cases body with
        | nil => exact absurd (List.cons.inj closes).1 (by decide)
        | cons d body =>
          obtain ⟨rfl, -⟩ := List.cons.inj closes
          exact absurd (List.prefix_append ['*', '/'] body).isInfix open'
      · rw [List.cons_append, cut, later]
        rfl

end Closing

/-! ## One reading -/

/-- The parts of a text, one after the other. -/
def partsOf : List Char → List Part
  | '/' :: '/' :: rest =>
    have : (rest.dropWhile (· != '\n')).length ≤ rest.length := (List.dropWhile_sublist _).length_le
    .line (rest.takeWhile (· != '\n')) :: partsOf (rest.dropWhile (· != '\n'))
  | '/' :: '*' :: rest =>
    match closing : splitAtClosing? rest with
    | none => [.unclosed rest]
    | some (body, after) =>
      have : after.length < rest.length := splitAtClosing?_shorter closing
      .block body :: partsOf after
  | c :: rest => .code c :: partsOf rest
  | [] => []
  termination_by text => text.length

theorem lexes_partsOf (text : List Char) : Lexes text (partsOf text) := by
  fun_induction partsOf text with
  | case1 rest shorter ih =>
    have whole : rest.takeWhile (· != '\n') ++ rest.dropWhile (· != '\n') = rest :=
      List.takeWhile_append_dropWhile
    have oneLine : '\n' ∉ rest.takeWhile (· != '\n') := fun member =>
      absurd (List.mem_takeWhile_imp member) (by decide)
    have ends : ∀ c ∈ (rest.dropWhile (· != '\n')).head?, c = '\n' := by
      intro c head
      have stops := List.head?_dropWhile_not (· != '\n') rest
      rw [Option.mem_def.mp head] at stops
      simpa using stops
    have lexes := Lexes.line oneLine ends ih
    rwa [whole] at lexes
  | case2 rest closing => exact .unclosed (splitAtClosing?_eq_none_iff.mp closing)
  | case3 rest body after closing shorter ih =>
    obtain ⟨rfl, open'⟩ := splitAtClosing?_eq_some_iff.mp closing
    exact .block open' ih
  | case4 c rest noLine noBlock ih =>
    refine .code ?_ ?_ ih
    · rintro ⟨after, same⟩
      obtain ⟨rfl, rfl⟩ := List.cons.inj same
      exact noLine after rfl rfl
    · rintro ⟨after, same⟩
      obtain ⟨rfl, rfl⟩ := List.cons.inj same
      exact noBlock after rfl rfl
  | case5 => exact .nil

section Reading

variable {text body rest : List Char} {parts : List Part}

theorem takeWhile_line (oneLine : '\n' ∉ body) (ends : ∀ c ∈ rest.head?, c = '\n') :
    (body ++ rest).takeWhile (· != '\n') = body := by
  have inLine : ∀ c ∈ body, (c != '\n') = true := fun c member =>
    bne_iff_ne.mpr fun same => oneLine (same ▸ member)
  rw [List.takeWhile_append_of_pos inLine]
  cases rest with
  | nil => exact List.append_nil body
  | cons c rest => rw [ends c rfl, List.takeWhile_cons_of_neg (by decide), List.append_nil]

theorem dropWhile_line (oneLine : '\n' ∉ body) (ends : ∀ c ∈ rest.head?, c = '\n') :
    (body ++ rest).dropWhile (· != '\n') = rest := by
  have whole := List.takeWhile_append_dropWhile (p := (· != '\n')) (l := body ++ rest)
  rw [takeWhile_line oneLine ends] at whole
  exact List.append_cancel_left whole

/-- A text is read in one way only. -/
theorem Lexes.eq_partsOf (lexes : Lexes text parts) : parts = partsOf text := by
  induction lexes with
  | nil => rw [partsOf]
  | @code c rest parts noLine noBlock _ ih =>
    rw [partsOf.eq_3, ih]
    · rintro after rfl rfl
      exact noLine (List.prefix_append ['/', '/'] after)
    · rintro after rfl rfl
      exact noBlock (List.prefix_append ['/', '*'] after)
  | line oneLine ends _ ih =>
    rw [partsOf, takeWhile_line oneLine ends, dropWhile_line oneLine ends, ih]
  | @block body rest parts open' _ ih =>
    have cut : splitAtClosing? (body ++ '*' :: '/' :: rest) = some (body, rest) :=
      splitAtClosing?_eq_some_iff.mpr ⟨rfl, open'⟩
    rw [partsOf]
    split <;> simp_all
  | unclosed open' =>
    have none := splitAtClosing?_eq_none_iff.mpr open'
    rw [partsOf]
    split <;> simp_all

/-- A line comment goes on to the end of the line, and what follows is read as code. -/
theorem placed_line_append (oneLine : '\n' ∉ body) (ends : ∀ c ∈ rest.head?, c = '\n') :
    placed .line (body ++ rest) = alike true body ++ placed .code rest := by
  cases rest with
  | nil => rw [List.append_nil, placed_line oneLine, placed, List.append_nil]
  | cons c rest =>
    have leaves : placed .line ('\n' :: rest) = placed .code ('\n' :: rest) := by
      have other : ('\n' : Char) ≠ '/' := by decide
      rw [placed.eq_7 '\n' rest (fun _ slash => absurd slash other)
        (fun _ slash => absurd slash other), placed]
      rfl
    rw [ends c rfl, placed_append_cons (by decide) (by decide), placed_line oneLine,
      placeAfter_line oneLine, leaves]

/-- The characters of the parts are those of the text, each at its place. -/
theorem Lexes.characters_eq (lexes : Lexes text parts) : characters parts = placed .code text := by
  unfold characters
  induction lexes with
  | nil => rfl
  | @code c rest parts noLine noBlock _ ih =>
    rw [List.flatMap_cons, ih, placed.eq_7]
    · rfl
    · rintro after rfl rfl
      exact noLine (List.prefix_append ['/', '/'] after)
    · rintro after rfl rfl
      exact noBlock (List.prefix_append ['/', '*'] after)
  | @line body rest parts oneLine ends _ ih =>
    rw [List.flatMap_cons, ih, placed, placed_line_append oneLine ends]
    rfl
  | @block body rest parts open' _ ih =>
    have cut : splitAtClosing? (body ++ '*' :: '/' :: rest) = some (body, rest) :=
      splitAtClosing?_eq_some_iff.mpr ⟨rfl, open'⟩
    rw [List.flatMap_cons, ih, placed, placed_block, cut]
    rfl
  | @unclosed body open' =>
    rw [List.flatMap_singleton, placed, placed_block, splitAtClosing?_eq_none_iff.mpr open']
    rfl

end Reading

/-! ## Blanking once and twice -/

/-- Visible characters of the blanked text stand in the text. -/
theorem Placed.char_of_blanked {character : Placed} {c : Char} (same : character.blanked = c)
    (visible : c ≠ ' ') : character.char = c := by
  unfold blanked at same
  split at same
  · exact absurd same.symm visible
  · exact same

theorem head_of_blankFrom {place : Place} {text after : List Char} {c : Char}
    (blanked : blankFrom place text = c :: after) (visible : c ≠ ' ') :
    ∃ later, text = c :: later := by
  rw [blankFrom_eq_map] at blanked
  obtain ⟨character, later, characters, same, -⟩ := List.map_eq_cons_iff.mp blanked
  refine ⟨later.map (·.char), ?_⟩
  rw [← map_char_placed place text, characters, List.map_cons,
    Placed.char_of_blanked same visible]

/-- No comment opens with a character that is not a slash. -/
theorem blankFrom_code_cons {c : Char} (other : c ≠ '/') (rest : List Char) :
    blankFrom .code (c :: rest) = c :: blankFrom .code rest :=
  blankFrom.eq_7 c rest (fun _ slash => absurd slash other) (fun _ slash => absurd slash other)

/-- What is left of a text opens no comment. -/
theorem blankFrom_blankFrom (place : Place) (text : List Char) :
    blankFrom .code (blankFrom place text) = blankFrom place text := by
  fun_induction blankFrom place text with
  | case1 => rfl
  | case2 rest ih | case3 c rest _ ih =>
    rw [blankFrom_code_cons (by decide), ih]
  | case4 rest ih | case6 rest ih | case7 rest ih =>
    rw [blankFrom_code_cons (by decide), blankFrom_code_cons (by decide), ih]
  | case5 c rest _ ih =>
    rw [blankFrom_code_cons (by split <;> decide), ih]
  | case8 c rest noLine noBlock ih =>
    rw [blankFrom.eq_7, ih]
    · intro after slash opens
      obtain ⟨later, same⟩ := head_of_blankFrom opens (by decide)
      exact noLine later slash same
    · intro after slash opens
      obtain ⟨later, same⟩ := head_of_blankFrom opens (by decide)
      exact noBlock later slash same

theorem getElem?_blank (text : List Char) (index : Nat) :
    (blank text)[index]? = ((placed .code text)[index]?).map Placed.blanked := by
  rw [blank_eq_map, List.getElem?_map]

theorem getElem?_char_placed (text : List Char) (index : Nat) :
    text[index]? = ((placed .code text)[index]?).map (·.char) := by
  conv => lhs; rw [← map_char_placed .code text]
  rw [List.getElem?_map]

theorem getElem?_of_placed {text : List Char} {index : Nat} {character : Placed}
    (found : (placed .code text)[index]? = some character) :
    text[index]? = some character.char ∧ (blank text)[index]? = some character.blanked := by
  rw [getElem?_char_placed, getElem?_blank, found]
  exact ⟨rfl, rfl⟩

/-- Blanking keeps the layout of a text. A text is read from left to right in one way. Blanked, it
    has the same length and its line feeds at the same places; a character of code stays where it
    is, and any other character of a comment than a line feed is a space. A blanked text is not
    changed by being blanked again. -/
theorem blank_layout (text : List Char) :
    (blank text).length = text.length ∧
      (∀ index : Nat, (blank text)[index]? = some '\n' ↔ text[index]? = some '\n') ∧
      (∃ parts, Lexes text parts ∧ (∀ others, Lexes text others → others = parts) ∧
        (characters parts).length = text.length ∧
        (∀ (index : Nat) (c : Char), (characters parts)[index]? = some ⟨c, false⟩ →
          text[index]? = some c ∧ (blank text)[index]? = some c) ∧
        ∀ (index : Nat) (c : Char), (characters parts)[index]? = some ⟨c, true⟩ →
          text[index]? = some c ∧
            (blank text)[index]? = some (if c = '\n' then '\n' else ' ')) ∧
      blank (blank text) = blank text := by
  have lexes := lexes_partsOf text
  refine ⟨?_, ?_, ⟨partsOf text, lexes, fun others => Lexes.eq_partsOf, ?_, ?_, ?_⟩,
    blankFrom_blankFrom .code text⟩
  · rw [blank_eq_map, List.length_map, ← List.length_map (·.char), map_char_placed]
  · intro index
    rw [getElem?_blank, getElem?_char_placed]
    simp [Placed.blanked_eq_lineFeed_iff]
  · rw [lexes.characters_eq, ← List.length_map (·.char), map_char_placed]
  · intro index c found
    rw [lexes.characters_eq] at found
    exact getElem?_of_placed found
  · intro index c found
    rw [lexes.characters_eq] at found
    obtain ⟨inText, blanked⟩ := getElem?_of_placed found
    refine ⟨inText, blanked.trans ?_⟩
    by_cases lineFeed : c = '\n' <;> simp [Placed.blanked, lineFeed]

/-- A star that opens a comment does not close it. -/
example : blank "a /*/ b */ c //* d".toList = "a          c      ".toList := by
  decide

end Multipass.Comment
