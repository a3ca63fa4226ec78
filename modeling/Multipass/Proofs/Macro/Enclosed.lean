import Multipass.Proofs.Macro.Pasting

/-!
# Bodies in brackets

Where every body begins and ends with a character that is a token of its own, with a bracket
say, so does whatever comes of a body. Then no expansion runs together with what stands beside
it, whatever the text.
-/

namespace Multipass.Macro

open Text (isLone beginsLone endsLone endsLone_append_cons)

/-- Does a text begin and end with a token of one character? -/
def isEnclosed (text : List Char) : Bool :=
  beginsLone text && endsLone text

theorem beginsLone_of_isEnclosed {text : List Char} (enclosed : isEnclosed text = true) :
    beginsLone text = true :=
  (Bool.and_eq_true_iff.mp enclosed).1

theorem endsLone_of_isEnclosed {text : List Char} (enclosed : isEnclosed text = true) :
    endsLone text = true :=
  (Bool.and_eq_true_iff.mp enclosed).2

/-- The bodies of a table are enclosed. -/
def Table.IsEnclosed (table : Table) : Prop :=
  ∀ entry ∈ table.entries, isEnclosed entry.2.body = true

instance (table : Table) : Decidable table.IsEnclosed :=
  inferInstanceAs (Decidable (∀ entry ∈ table.entries, _))

theorem Table.IsEnclosed.body {table : Table} {name : List Char} {definition : Definition}
    (bodies : table.IsEnclosed) (found : table.find? name = some definition) :
    isEnclosed definition.body = true :=
  bodies (name, definition) (Table.mem_of_find? found)

/-! ## Ends of texts -/

section Ends

variable {front back text after : List Char}

theorem endsLone_append (lone : endsLone back = true) : endsLone (front ++ back) = true := by
  cases back with
  | nil => cases lone
  | cons c rest => rwa [endsLone_append_cons]

/-- A text goes on as another one does, behind a piece that ends in a token of one character. -/
theorem endsLone_append_of_suffix {piece : List Char} (lone : endsLone piece = true)
    (later : after <:+ text) (whole : endsLone (front ++ text) = true) :
    endsLone (piece ++ after) = true := by
  cases after with
  | nil => rwa [List.append_nil]
  | cons c rest =>
    obtain ⟨before, rfl⟩ := later
    rw [← List.append_assoc, endsLone_append_cons] at whole
    rwa [endsLone_append_cons]

theorem isBlank_of_isSpaceOrTab {c : Char} (blank : Text.isSpaceOrTab c = true) :
    Text.isBlank c = true := by
  simp only [Text.isSpaceOrTab, Bool.or_eq_true, beq_iff_eq] at blank
  rcases blank with rfl | rfl <;> rfl

theorem endsLone_dropWhile (lone : endsLone text = true) :
    endsLone (text.dropWhile Text.isSpaceOrTab) = true := by
  cases rest : text.dropWhile Text.isSpaceOrTab with
  | nil =>
    obtain ⟨c, isEnd, loneEnd⟩ := (Option.any_eq_true _ _).mp lone
    have blank := List.dropWhile_eq_nil_iff.mp rest c (List.mem_of_getLast? isEnd)
    have visible := Text.isBlank_of_isLone loneEnd
    rw [isBlank_of_isSpaceOrTab blank] at visible
    cases visible
  | cons c later =>
    rw [← List.takeWhile_append_dropWhile (p := Text.isSpaceOrTab) (l := text), rest,
      endsLone_append_cons] at lone
    exact lone

theorem endsLone_of_afterJoin? (joined : afterJoin? text = some after)
    (lone : endsLone text = true) : endsLone after = true := by
  have spaced := endsLone_dropWhile lone
  unfold afterJoin? at joined
  split at joined
  · rename_i later signs
    obtain rfl := Option.some.inj joined
    rw [signs] at spaced
    refine endsLone_dropWhile ?_
    cases later with
    | nil => exact absurd spaced (by decide)
    | cons c rest => rwa [← endsLone_append_cons ['#', '#']]
  · cases joined

theorem endsLone_paste (lone : endsLone text = true) : endsLone (paste text) = true := by
  fun_induction paste text with
  | case1 => exact lone
  | case2 c rest after joined _ ih => exact ih (endsLone_of_afterJoin? joined lone)
  | case3 c rest _ ih =>
    cases rest with
    | nil => rwa [paste]
    | cons d later =>
      have laterLone : endsLone (d :: later) = true := by rwa [← endsLone_append_cons [c]]
      rw [← List.singleton_append]
      exact endsLone_append (ih laterLone)

theorem beginsLone_paste (lone : beginsLone text = true) : beginsLone (paste text) = true := by
  cases text with
  | nil => cases lone
  | cons c rest =>
    have visible : ¬ Text.isSpaceOrTab c = true := fun blank => by
      have outside := Text.isBlank_of_isLone lone
      rw [isBlank_of_isSpaceOrTab blank] at outside
      cases outside
    have noSign : '#' ∉ [c] := by
      intro sign
      have loneSign : isLone '#' = true := List.mem_singleton.mp sign ▸ lone
      exact absurd loneSign (by decide)
    have stays : afterJoin? (c :: rest) = none :=
      afterJoin?_append_of_visible ⟨c, List.mem_cons_self, visible⟩ noSign rest
    rwa [paste_of_visible stays]

/-- Arguments change nothing at the ends of a body that is enclosed. -/
theorem isEnclosed_substitute {body : List Char} (enclosed : isEnclosed body = true)
    (parameters arguments : List (List Char)) :
    isEnclosed (substitute parameters arguments body) = true := by
  obtain ⟨begins, ends⟩ := Bool.and_eq_true_iff.mp enclosed
  obtain ⟨c, isFirst, loneFirst⟩ := (Option.any_eq_true _ _).mp begins
  obtain ⟨d, isEnd, loneEnd⟩ := (Option.any_eq_true _ _).mp ends
  rw [substitute_eq, isEnclosed, Bool.and_eq_true_iff]
  constructor
  · obtain ⟨rest, rfl⟩ := List.head?_eq_some_iff.mp isFirst
    rw [filled_of_gap (Text.isNameChar_of_isLone loneFirst)]
    exact beginsLone_paste loneFirst
  · obtain ⟨before, rfl⟩ := List.getLast?_eq_some_iff.mp isEnd
    rw [filled_append_cons (Text.isNumberChar_of_isLone loneEnd), filled_nil]
    exact endsLone_paste (endsLone_append loneEnd)

/-- An enclosed text ends in no callee, so it passes no call on. -/
theorem passesOn?_of_isEnclosed (table : Table) (enclosed : isEnclosed text = true) :
    table.passesOn? text after = none := by
  cases passes : table.passesOn? text after with
  | none => rfl
  | some cut =>
    obtain ⟨rfl, -, c, rest, same, start, inside⟩ :=
      eq_of_trailingCallee? (trailingCallee?_of_passesOn? passes)
    have ends := endsLone_of_isEnclosed enclosed
    rw [same, endsLone_append_cons] at ends
    obtain ⟨d, isEnd, loneEnd⟩ := (Option.any_eq_true _ _).mp ends
    have inName : Text.isNameChar d = true := by
      rcases List.mem_cons.mp (List.mem_of_getLast? isEnd) with rfl | inRest
      · rw [Text.isNameChar_eq, start, Bool.or_true]
      · exact inside d inRest
    rw [Text.isNameChar_of_isLone loneEnd] at inName
    cases inName

end Ends

/-! ## Expansions of enclosed texts -/

/-- A function that gives enclosed texts for enclosed ones. -/
def Encloses (expand : List Char → Except ExpansionProblem (List Char)) : Prop :=
  ∀ text expansion, isEnclosed text = true → expand text = .ok expansion →
    isEnclosed expansion = true

section Scanning

variable {table : Table}

/-- The end of a text stays, or an enclosed expansion takes its place. -/
theorem Scans.endsLone {deeper : Option (List Char → Except ExpansionProblem (List Char))}
    (bodies : table.IsEnclosed) (below : ∀ expand ∈ deeper, Encloses expand)
    {text expansion : List Char} (scans : Scans table deeper text expansion) (front : List Char)
    (lone : Text.endsLone (front ++ text) = true) :
    Text.endsLone (front ++ expansion) = true := by
  have text_eq {c : Char} {rest after : List Char} {lexeme : Text.Lexeme}
      (begins : Text.leadingLexeme c rest = (lexeme, after)) :
      c :: rest = lexeme.text ++ after := by
    rw [← Text.leadingLexeme_append c rest, begins]
  induction scans generalizing front with
  | nil => exact lone
  | kept begins _ _ ih =>
    rw [text_eq begins, ← List.append_assoc] at lone
    rw [← List.append_assoc]
    exact ih _ lone
  | uncalled _ begins _ _ _ ih =>
    rw [text_eq begins, ← List.append_assoc] at lone
    rw [← List.append_assoc]
    exact ih _ lone
  | replaced given begins found ofBody _ _ ih =>
    have enclosed := below _ given _ _ (bodies.body found) ofBody
    have later := text_eq begins ▸ List.suffix_append _ _
    rw [← List.append_assoc]
    have ends := endsLone_of_isEnclosed enclosed
    exact ih _ (endsLone_append_of_suffix (endsLone_append ends) later lone)
  | passedOn given begins found ofBody passes _ =>
    have enclosed := below _ given _ _ (bodies.body found) ofBody
    cases (passesOn?_of_isEnclosed table enclosed).symm.trans passes
  | called given begins found called _ _ ofBody _ ih =>
    have enclosed := below _ given _ _ (isEnclosed_substitute (bodies.body found) _ _) ofBody
    obtain ⟨blanks, -, rfl⟩ := eq_of_arguments? called
    have later := text_eq begins ▸ List.suffix_append _ _
    have behind {close : Char} {inside : List Char} {afterCall : List Char} :
        afterCall <:+ blanks ++ '(' :: (inside ++ close :: afterCall) :=
      ⟨blanks ++ '(' :: (inside ++ [close]), by simp⟩
    rw [← List.append_assoc]
    have ends := endsLone_of_isEnclosed enclosed
    exact ih _ (endsLone_append_of_suffix (endsLone_append ends) (behind.trans later) lone)

theorem scan_encloses {deeper : Option (List Char → Except ExpansionProblem (List Char))}
    (bodies : table.IsEnclosed) (below : ∀ expand ∈ deeper, Encloses expand) :
    Encloses (scan table deeper) := by
  intro text expansion enclosed expanded
  obtain ⟨begins, ends⟩ := Bool.and_eq_true_iff.mp enclosed
  have scans := scan_eq_ok_iff.mp expanded
  have sameFirst : expansion.head? = text.head? := by
    refine scans.begins fun c isFirst => ?_
    rw [beginsLone, Option.mem_def.mp isFirst] at begins
    exact Text.isNameChar_of_isLone begins
  rw [isEnclosed, Bool.and_eq_true_iff]
  exact ⟨by rwa [beginsLone, sameFirst], scans.endsLone bodies below [] ends⟩

theorem expandWithin_encloses (bodies : table.IsEnclosed) (levels : Nat) :
    Encloses (expandWithin table levels) := by
  induction levels with
  | zero => exact scan_encloses bodies nofun
  | succ levels ih =>
    refine scan_encloses bodies ?_
    rintro expand ⟨⟩
    exact ih

end Scanning

/-! ## Parts that keep apart -/

/-- Is a part an expansion that is enclosed, or text that is kept? -/
def Part.IsSealed : Part → Prop
  | .kept text => text ≠ []
  | .expansion text => isEnclosed text = true

/-- Does a token of one character stand between two parts? -/
def Part.Meets (front back : Part) : Prop :=
  endsLone front.text = true ∨ beginsLone back.text = true

/-- Parts that are sealed, each with a token of one character between it and the next one. -/
structure Sealed (parts : List Part) : Prop where
  each : ∀ part ∈ parts, part.IsSealed
  meet : parts.IsChain Part.Meets

section Sealed

variable {parts : List Part} {text : List Char}

theorem Sealed.expansion (sealed : Sealed parts) (enclosed : isEnclosed text = true) :
    Sealed (.expansion text :: parts) := by
  refine ⟨List.forall_mem_cons.mpr ⟨enclosed, sealed.each⟩, ?_⟩
  exact List.isChain_cons.mpr ⟨fun _ _ => .inl (endsLone_of_isEnclosed enclosed), sealed.meet⟩

theorem Sealed.keep (sealed : Sealed parts) (nonempty : text ≠ []) :
    Sealed (keep text parts) := by
  obtain ⟨each, meet⟩ := sealed
  unfold Macro.keep
  split
  · -- What is kept ends as it did, so it meets the next part as it did.
    rename_i later rest
    obtain ⟨-, each⟩ := List.forall_mem_cons.mp each
    obtain ⟨next, meet⟩ := List.isChain_cons.mp meet
    refine ⟨List.forall_mem_cons.mpr ⟨by simp [Part.IsSealed, nonempty], each⟩, ?_⟩
    refine List.isChain_cons.mpr ⟨fun part isNext => ?_, meet⟩
    exact (next part isNext).imp_left endsLone_append
  · rename_i notKept
    refine ⟨List.forall_mem_cons.mpr ⟨nonempty, each⟩, List.isChain_cons.mpr ⟨?_, meet⟩⟩
    rintro (later | expansion) isNext
    · obtain ⟨rest, same⟩ := List.head?_eq_some_iff.mp isNext
      exact absurd same (notKept later rest)
    · have enclosed := each _ (List.mem_of_head? isNext)
      exact .inr (beginsLone_of_isEnclosed enclosed)

theorem Sealed.keepApart (sealed : Sealed parts) : KeepApart parts := by
  have nonempty : (parts.map Part.text).filter (· ≠ []) = parts.map Part.text := by
    refine List.filter_eq_self.mpr fun text member => ?_
    obtain ⟨part, isPart, rfl⟩ := List.mem_map.mp member
    have each := sealed.each part isPart
    cases part with
    | kept text => exact decide_eq_true each
    | expansion text =>
      refine decide_eq_true fun empty => ?_
      rw [show text = [] from empty] at each
      cases each
  rw [KeepApart, nonempty, List.isChain_map]
  exact sealed.meet.imp fun _ _ meets =>
    meets.elim Text.apart_of_endsLone Text.apart_of_beginsLone

end Sealed

theorem lexeme_ne_nil {c : Char} {rest after : List Char} {lexeme : Text.Lexeme}
    (begins : Text.leadingLexeme c rest = (lexeme, after)) : lexeme.text ≠ [] := by
  rcases Text.leadingLexeme_cases c rest with ⟨-, same⟩ | ⟨-, same⟩ | ⟨-, same⟩ <;>
  · cases same.symm.trans begins
    exact List.cons_ne_nil c _

theorem Expands.sealed {table : Table} {levels : Nat} {text : List Char} {parts : List Part}
    (bodies : table.IsEnclosed) (expands : Expands table levels text parts) : Sealed parts := by
  induction expands with
  | nil => exact ⟨by simp, .nil⟩
  | kept begins _ _ ih => exact ih.keep (lexeme_ne_nil begins)
  | uncalled begins _ _ _ ih => exact ih.keep (lexeme_ne_nil begins)
  | replaced _ found ofBody _ _ ih =>
    exact ih.expansion (expandWithin_encloses bodies _ _ _ (bodies.body found) ofBody)
  | passedOn _ found ofBody passes _ _ =>
    have enclosed := expandWithin_encloses bodies _ _ _ (bodies.body found) ofBody
    cases (passesOn?_of_isEnclosed table enclosed).symm.trans passes
  | called _ found _ _ _ ofBody _ ih =>
    have enclosed := isEnclosed_substitute (bodies.body found)
    exact ih.expansion (expandWithin_encloses bodies _ _ _ (enclosed _ _) ofBody)

/-- Where all bodies stand in brackets, tokens run together in no text: those of an expansion
    are those of its parts, one after the other. -/
theorem Expands.tokens_joined {table : Table} {levels : Nat} {text : List Char}
    {parts : List Part} (bodies : table.IsEnclosed) (expands : Expands table levels text parts) :
    Text.tokens (joined parts) = tokensOf parts :=
  (tokens_joined_iff parts).mpr (expands.sealed bodies).keepApart

example : Table.IsEnclosed ⟨[(['N'], ⟨none, ['(', '-', '1', ')'], 1⟩)]⟩ := by decide +kernel

end Multipass.Macro
