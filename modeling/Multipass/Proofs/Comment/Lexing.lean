import Mathlib.Data.List.SplitBy
import Mathlib.Data.List.TakeWhile
import Multipass.Proofs.Text.Characters
import Multipass.Proofs.Text.Lines

/-!
# Comments, character by character

A reader of a text looks at two characters at a time: `//` and `/*` open a comment, a line feed
or `*/` ends it. Each character belongs to a comment or to the code. Cutting one line after the
other into segments, following only the comments of a line, and blanking the comments of a
whole text are all the same reading.
-/

namespace Multipass.Comment

/-- Where a reader stands at the beginning of a line. -/
def Place.ofInside (inside : Bool) : Place :=
  if inside then .block else .code

/-- Where a reader stands after a text. -/
def placeAfter : Place → List Char → Place
  | place, [] => place
  | .line, c :: rest => placeAfter (if c = '\n' then .code else .line) rest
  | .block, '*' :: '/' :: rest => placeAfter .code rest
  | .block, _ :: rest => placeAfter .block rest
  | .code, '/' :: '/' :: rest => placeAfter .line rest
  | .code, '/' :: '*' :: rest => placeAfter .block rest
  | .code, _ :: rest => placeAfter .code rest

/-- A character, and whether it belongs to a comment. -/
structure Placed where
  char : Char
  inComment : Bool
  deriving DecidableEq, Repr

/-- The characters of a text, each with its place. The line feed behind a line comment does not
    belong to it. -/
def placed : Place → List Char → List Placed
  | _, [] => []
  | .line, c :: rest => ⟨c, c != '\n'⟩ :: placed (if c = '\n' then .code else .line) rest
  | .block, '*' :: '/' :: rest => ⟨'*', true⟩ :: ⟨'/', true⟩ :: placed .code rest
  | .block, c :: rest => ⟨c, true⟩ :: placed .block rest
  | .code, '/' :: '/' :: rest => ⟨'/', true⟩ :: ⟨'/', true⟩ :: placed .line rest
  | .code, '/' :: '*' :: rest => ⟨'/', true⟩ :: ⟨'*', true⟩ :: placed .block rest
  | .code, c :: rest => ⟨c, false⟩ :: placed .code rest

/-- A segment of code or of a comment. -/
def Segment.of (inComment : Bool) (text : List Char) : Segment :=
  if inComment then .comment text else .code text

/-- Characters that stand together, as one segment. -/
def Segment.ofRun (run : List Placed) : Segment :=
  .of (run.any (·.inComment)) (run.map (·.char))

/-- The longest segments of characters that belong to comments, and that do not. -/
def runs (characters : List Placed) : List Segment :=
  (characters.splitBy fun c d => c.inComment == d.inComment).map .ofRun

/-- A line cut into the longest segments of code and of comments, by its characters. -/
def reading (inside : Bool) (line : List Char) : List Segment :=
  runs (placed (.ofInside inside) line)

/-! ## Openings and closings -/

/-- Where a reader stands behind the opening of a comment. -/
def Opening.place : Opening → Place
  | .line => .line
  | .block => .block

/-- The characters of a text that is code, or that is part of a comment, as a whole. -/
def alike (inComment : Bool) (text : List Char) : List Placed :=
  text.map (⟨·, inComment⟩)

section Reading

variable {text front rest : List Char}

/-- Up to the first opening there is code. -/
theorem placed_code (text : List Char) :
    placed .code text = alike false (splitAtOpening text).1 ++
      (splitAtOpening text).2.elim [] fun comment =>
        alike true comment.1.spelling ++ placed comment.1.place comment.2 := by
  fun_induction splitAtOpening text with
  | case1 | case2 => simp [placed, alike, Opening.spelling, Opening.place]
  | case3 c rest noLine noBlock before later split ih =>
    rw [placed.eq_7 c rest noLine noBlock, ih, split]
    rfl
  | case4 => rfl

theorem placeAfter_code (text : List Char) :
    placeAfter .code text = (splitAtOpening text).2.elim .code fun comment =>
      placeAfter comment.1.place comment.2 := by
  fun_induction splitAtOpening text with
  | case1 | case2 => simp [placeAfter, Opening.place]
  | case3 c rest noLine noBlock before later split ih =>
    rw [placeAfter.eq_7 c rest noLine noBlock, ih, split]
  | case4 => rfl

/-- A line comment goes on to the end of the line. -/
theorem placed_line (oneLine : '\n' ∉ text) : placed .line text = alike true text := by
  induction text with
  | nil => rfl
  | cons c rest ih =>
    have notBreak : c ≠ '\n' := fun same => oneLine (same ▸ List.mem_cons_self)
    rw [placed, if_neg notBreak, ih fun later => oneLine (List.mem_cons_of_mem c later)]
    simp [alike, notBreak]

theorem placeAfter_line (oneLine : '\n' ∉ text) : placeAfter .line text = .line := by
  induction text with
  | nil => rfl
  | cons c rest ih =>
    have notBreak : c ≠ '\n' := fun same => oneLine (same ▸ List.mem_cons_self)
    rw [placeAfter, if_neg notBreak, ih fun later => oneLine (List.mem_cons_of_mem c later)]

/-- A text begins with a closing, or its first closing is that of the text after its first
    character. -/
theorem splitAtClosing?_cons (c : Char) (rest : List Char) :
    (∃ after, c = '*' ∧ rest = '/' :: after ∧ splitAtClosing? (c :: rest) = some ([], after)) ∨
      (∀ after, c = '*' → rest = '/' :: after → False) ∧ splitAtClosing? (c :: rest) =
        (splitAtClosing? rest).map fun (front, after) => (c :: front, after) := by
  unfold splitAtClosing?
  rw [Text.breakAt?]
  cases here : Text.after? ['*', '/'] (c :: rest) with
  | some after =>
    have whole := Text.after?_eq_some_iff.mp here
    cases whole
    exact .inl ⟨after, rfl, rfl, rfl⟩
  | none =>
    refine .inr ⟨?_, rfl⟩
    rintro after rfl rfl
    exact absurd here (by simp [Text.after?])

/-- A block comment goes on to the first closing. -/
theorem placed_block (text : List Char) :
    placed .block text = (splitAtClosing? text).elim (alike true text) fun parts =>
      alike true (parts.1 ++ ['*', '/']) ++ placed .code parts.2 := by
  induction text with
  | nil => rfl
  | cons c rest ih =>
    rcases splitAtClosing?_cons c rest with ⟨after, rfl, rfl, cut⟩ | ⟨goesOn, cut⟩
    · rw [cut, placed]
      rfl
    · rw [cut, placed.eq_4 c rest goesOn, ih]
      cases splitAtClosing? rest <;> rfl

theorem placeAfter_block (text : List Char) :
    placeAfter .block text = (splitAtClosing? text).elim .block fun parts =>
      placeAfter .code parts.2 := by
  induction text with
  | nil => rfl
  | cons c rest ih =>
    rcases splitAtClosing?_cons c rest with ⟨after, rfl, rfl, cut⟩ | ⟨goesOn, cut⟩
    · rw [cut, placeAfter]
      rfl
    · rw [cut, placeAfter.eq_4 c rest goesOn, ih]
      cases splitAtClosing? rest <;> rfl

end Reading

/-! ## Segments -/

/-- The characters of a segment, each with whether it is in a comment. -/
def Segment.placed : Segment → List Placed
  | .code text => alike false text
  | .comment text => alike true text

/-- The segments of a line have its characters at their places. -/
theorem flatMap_placed_segments {inside : Bool} {line : List Char} (oneLine : '\n' ∉ line) :
    (segments inside line).1.flatMap Segment.placed = placed (.ofInside inside) line := by
  fun_induction segments inside line with
  | case1 line open' =>
    rw [Place.ofInside, if_pos rfl, placed_block, open']
    simp [Segment.placed]
  | case2 line body rest closed _ later state cut ih =>
    have remaining := ih fun member => oneLine (splitAtClosing?_subset closed member)
    rw [cut] at remaining
    rw [Place.ofInside, if_pos rfl, placed_block, closed, List.flatMap_cons, remaining]
    rfl
  | case3 inside line outside code split =>
    rw [Place.ofInside, if_neg outside, placed_code, split]
    simp [Segment.placed]
  | case4 inside line outside code body split =>
    have bodyOneLine : '\n' ∉ body := fun member =>
      oneLine ((splitAtOpening_subset split).2 _ rfl member)
    rw [Place.ofInside, if_neg outside, placed_code, split, Option.elim_some]
    rw [show Opening.line.place = .line from rfl, placed_line bodyOneLine]
    simp [Segment.placed, alike, Opening.spelling]
  | case5 inside line outside code rest split _ later state cut ih =>
    have remaining := ih fun member => oneLine ((splitAtOpening_subset split).2 _ rfl member)
    rw [cut] at remaining
    rw [Place.ofInside, if_neg outside, placed_code, split, Option.elim_some, List.flatMap_cons,
      List.flatMap_cons, remaining]
    rfl

/-- Following the comments of a line comes to where its segments end. -/
theorem insideAfter_eq (inside : Bool) (line : List Char) :
    insideAfter inside line = (segments inside line).2 := by
  fun_induction segments inside line with
  | case1 line open' =>
    rw [insideAfter, if_pos rfl]
    split <;> simp_all
  | case2 line body rest closed _ later state cut ih =>
    rw [insideAfter, if_pos rfl]
    split <;> simp_all
  | case3 inside line outside code split =>
    rw [insideAfter, if_neg outside]
    split <;> simp_all
  | case4 inside line outside code body split =>
    rw [insideAfter, if_neg outside]
    split <;> simp_all
  | case5 inside line outside code rest split _ later state cut ih =>
    rw [insideAfter, if_neg outside]
    split <;> simp_all

/-- A reader is inside a block comment after a line exactly if the next line begins there. -/
theorem placeAfter_eq_block_iff {inside : Bool} {line : List Char} (oneLine : '\n' ∉ line) :
    placeAfter (.ofInside inside) line = .block ↔ insideAfter inside line = true := by
  fun_induction insideAfter inside line with
  | case1 line open' => simp [Place.ofInside, placeAfter_block, open']
  | case2 line front rest closed _ ih =>
    have remaining := ih fun member => oneLine (splitAtClosing?_subset closed member)
    rw [← remaining, Place.ofInside, if_pos rfl, placeAfter_block, closed]
    rfl
  | case3 inside line outside code split =>
    rw [Place.ofInside, if_neg outside, placeAfter_code, split]
    simp
  | case4 inside line outside code body split =>
    have bodyOneLine : '\n' ∉ body := fun member =>
      oneLine ((splitAtOpening_subset split).2 _ rfl member)
    rw [Place.ofInside, if_neg outside, placeAfter_code, split, Option.elim_some]
    rw [show Opening.line.place = .line from rfl, placeAfter_line bodyOneLine]
    simp
  | case5 inside line outside code rest split _ ih =>
    have remaining := ih fun member => oneLine ((splitAtOpening_subset split).2 _ rfl member)
    rw [← remaining, Place.ofInside, if_neg outside, placeAfter_code, split]
    rfl

/-! ## The end of a line -/

/-- No opening and no closing begins right in front of a line feed. -/
theorem placeAfter_append_break (place : Place) (front rest : List Char) :
    placeAfter place (front ++ '\n' :: rest) = placeAfter (placeAfter place front) ('\n' :: rest) := by
  fun_induction placeAfter place front with
  | case1 => rfl
  | case2 c text ih => rw [List.cons_append, placeAfter, ih]
  | case3 text ih | case5 text ih | case6 text ih =>
    rw [List.cons_append, List.cons_append, placeAfter, ih]
  | case4 c text goesOn ih =>
    rw [List.cons_append, placeAfter.eq_4, ih]
    intro after opens closes
    cases text <;> simp_all
  | case7 c text noLine noBlock ih =>
    rw [List.cons_append, placeAfter.eq_7, ih]
    · intro after opens goesOn
      cases text <;> simp_all
    · intro after opens goesOn
      cases text <;> simp_all

theorem blankFrom_append_break (place : Place) (front rest : List Char) :
    blankFrom place (front ++ '\n' :: rest) =
      blankFrom place front ++ blankFrom (placeAfter place front) ('\n' :: rest) := by
  fun_induction placeAfter place front with
  | case1 => rfl
  | case2 c text ih =>
    rw [List.cons_append, blankFrom, blankFrom]
    split <;> simp_all
  | case3 text ih | case5 text ih | case6 text ih =>
    rw [List.cons_append, List.cons_append, blankFrom, blankFrom, ih]
    rfl
  | case4 c text goesOn ih =>
    rw [List.cons_append, blankFrom.eq_4, blankFrom.eq_4 c text goesOn, ih]
    · rfl
    · intro after opens closes
      cases text <;> simp_all
  | case7 c text noLine noBlock ih =>
    rw [List.cons_append, blankFrom.eq_7, blankFrom.eq_7 c text noLine noBlock, ih]
    · rfl
    · intro after opens goesOn
      cases text <;> simp_all
    · intro after opens goesOn
      cases text <;> simp_all

section Lines

variable {inside : Bool} {line : List Char}

/-- A line feed ends a line comment and leaves a block comment open. -/
theorem placeAfter_break (place : Place) (rest : List Char) :
    placeAfter place ('\n' :: rest) = placeAfter (.ofInside (place == .block)) rest := by
  cases place with
  | code => exact placeAfter.eq_7 '\n' rest nofun nofun
  | line => rfl
  | block => exact placeAfter.eq_4 '\n' rest nofun

theorem blankFrom_break (place : Place) (rest : List Char) :
    blankFrom place ('\n' :: rest) = '\n' :: blankFrom (.ofInside (place == .block)) rest := by
  cases place with
  | code => exact blankFrom.eq_7 '\n' rest nofun nofun
  | line => rfl
  | block => exact blankFrom.eq_4 '\n' rest nofun

theorem placeAfter_beq_block (oneLine : '\n' ∉ line) :
    (placeAfter (.ofInside inside) line == .block) = insideAfter inside line := by
  rw [Bool.eq_iff_iff, beq_iff_eq]
  exact placeAfter_eq_block_iff oneLine

/-- A reader goes from one line to the next as the comments of lines are followed. -/
theorem placeAfter_line_append (oneLine : '\n' ∉ line) (rest : List Char) :
    placeAfter (.ofInside inside) (line ++ '\n' :: rest) =
      placeAfter (.ofInside (insideAfter inside line)) rest := by
  rw [placeAfter_append_break, placeAfter_break, placeAfter_beq_block oneLine]

theorem blankFrom_line_append (oneLine : '\n' ∉ line) (rest : List Char) :
    blankFrom (.ofInside inside) (line ++ '\n' :: rest) =
      blankFrom (.ofInside inside) line ++
        '\n' :: blankFrom (.ofInside (insideAfter inside line)) rest := by
  rw [blankFrom_append_break, blankFrom_break, placeAfter_beq_block oneLine]

end Lines

/-! ## Longest segments -/

section Runs

variable {text : List Char} {front back : List Placed}

theorem runs_append
    (apart : ∀ c ∈ front.getLast?, ∀ d ∈ back.head?, (c.inComment == d.inComment) = false) :
    runs (front ++ back) = runs front ++ runs back := by
  rw [runs, List.splitBy_append apart, List.map_append]
  rfl

theorem runs_alike (inComment : Bool) (text : List Char) :
    runs (alike inComment text) = if text = [] then [] else [.of inComment text] := by
  cases text with
  | nil => rfl
  | cons c rest =>
    have same : (alike inComment (c :: rest)).IsChain
        fun x y => (x.inComment == y.inComment) = true :=
      (List.isChain_map _).mpr (List.Pairwise.isChain (List.pairwise_of_forall fun _ _ => by simp))
    have chars : (alike inComment (c :: rest)).map (·.char) = c :: rest := by
      simp [alike, Function.comp_def]
    have kind : (alike inComment (c :: rest)).any (·.inComment) = inComment := by
      cases inComment <;> simp [alike]
    have nonempty : alike inComment (c :: rest) ≠ [] := List.cons_ne_nil _ _
    rw [runs, List.splitBy_of_isChain nonempty same, List.map_singleton, Segment.ofRun, chars, kind,
      if_neg (List.cons_ne_nil c rest)]

/-- The part of a comment that characters begin with. -/
theorem exists_comment_append (characters : List Placed) :
    ∃ text later, characters = alike true text ++ later ∧
      ∀ d ∈ later.head?, d.inComment = false := by
  refine ⟨(characters.takeWhile (·.inComment)).map (·.char), characters.dropWhile (·.inComment),
    ?_, ?_⟩
  · have same : alike true ((characters.takeWhile (·.inComment)).map (·.char)) =
        characters.takeWhile (·.inComment) := by
      rw [alike, List.map_map]
      refine (List.map_congr_left fun c member => ?_).trans (List.map_id _)
      have inside : c.inComment = true := List.mem_takeWhile_imp member
      simp [← inside]
    rw [same, List.takeWhile_append_dropWhile]
  · intro d head
    have stops := List.head?_dropWhile_not (·.inComment) characters
    rwa [Option.mem_def.mp head] at stops

theorem apart_of_alike {inComment : Bool} (apart : ∀ d ∈ back.head?, d.inComment = !inComment) :
    ∀ c ∈ (alike inComment text).getLast?, ∀ d ∈ back.head?,
      (c.inComment == d.inComment) = false := by
  intro c last d head
  obtain ⟨char, -, rfl⟩ := List.mem_map.mp (List.mem_of_getLast? last)
  rw [apart d head]
  cases inComment <;> rfl

end Runs

/-! What is made of segments, where comments stay as they are and nothing is made of nothing. -/

section Made

variable {f : Segment → List Char}

theorem flatMap_runs_comment (comments : ∀ text, f (.comment text) = text) (text : List Char)
    (back : List Placed) :
    (runs (alike true text ++ back)).flatMap f = text ++ (runs back).flatMap f := by
  have whole : ∀ text, (runs (alike true text)).flatMap f = text := by
    intro text
    rw [runs_alike]
    split <;> simp_all [Segment.of]
  obtain ⟨more, later, rfl, apart⟩ := exists_comment_append back
  have joined : alike true text ++ alike true more = alike true (text ++ more) :=
    List.map_append.symm
  rw [← List.append_assoc, joined, runs_append (apart_of_alike apart),
    runs_append (apart_of_alike apart), List.flatMap_append, List.flatMap_append, whole, whole,
    List.append_assoc]

theorem flatMap_runs_code (nothing : f (.code []) = []) (text : List Char) {back : List Placed}
    (apart : ∀ d ∈ back.head?, d.inComment = true) :
    (runs (alike false text ++ back)).flatMap f = f (.code text) ++ (runs back).flatMap f := by
  rw [runs_append (apart_of_alike apart), List.flatMap_append, runs_alike]
  split <;> simp_all [Segment.of]

/-- Cut by its comments or by its characters, the same is made of a line. -/
theorem flatMap_reading (comments : ∀ text, f (.comment text) = text) (nothing : f (.code []) = [])
    {inside : Bool} {line : List Char} (oneLine : '\n' ∉ line) :
    (reading inside line).flatMap f = (segments inside line).1.flatMap f := by
  rw [reading, ← flatMap_placed_segments oneLine]
  clear oneLine
  fun_induction segments inside line with
  | case1 line unclosed =>
    simp only [List.flatMap_singleton, Segment.placed]
    rw [← List.append_nil (alike true line), flatMap_runs_comment comments, comments]
    exact List.append_nil line
  | case2 line body rest closed _ later state cut ih =>
    rw [cut] at ih
    rw [List.flatMap_cons, List.flatMap_cons, ← ih, comments]
    exact flatMap_runs_comment comments _ _
  | case3 inside line outside code split =>
    have apart : ∀ d ∈ ([] : List Placed).head?, d.inComment = true := by simp
    simp only [List.flatMap_singleton, Segment.placed]
    rw [← List.append_nil (alike false code), flatMap_runs_code nothing code apart]
    exact List.append_nil _
  | case4 inside line outside code body split =>
    simp only [List.flatMap_cons, Segment.placed]
    rw [flatMap_runs_code nothing code (by rintro d ⟨⟩; rfl), flatMap_runs_comment comments,
      comments]
    rfl
  | case5 inside line outside code rest split _ later state cut ih =>
    rw [cut] at ih
    simp only [List.flatMap_cons, Segment.placed]
    rw [flatMap_runs_code nothing code (by rintro d ⟨⟩; rfl), flatMap_runs_comment comments, ih,
      comments]

end Made

end Multipass.Comment
