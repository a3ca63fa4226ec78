import Mathlib.Data.List.Chain
import Multipass.Proofs.Macro.Characters
import Multipass.Proofs.Macro.Circular

/-!
# Nothing is left to expand

What a macro becomes meets the text around it. Where no closing parenthesis and no `#` stands in
front of a character of a name or of a `#`, and no character of a name in front of a `#`, neither
a `##` nor a new name comes together there, at any depth. So the expansion of such a text has no
name left that stands for a body.
-/

namespace Multipass.Macro

/-! ## Spacing -/

/-- May two characters not stand side by side? -/
def clash (c d : Char) : Bool :=
  (c == ')' || c == '#') && (Text.isNameChar d || d == '#') || Text.isNameChar c && d == '#'

/-- Neighbours in a text do not clash. -/
def Spaced (text : List Char) : Prop :=
  text.IsChain fun c d => clash c d = false

instance (text : List Char) : Decidable (Spaced text) :=
  inferInstanceAs (Decidable (text.IsChain _))

/-- May every character follow this one? -/
def isOpen (c : Char) : Bool :=
  !(Text.isNameChar c || c == ')' || c == '#')

/-- May every character stand in front of this one? -/
def isClosed (c : Char) : Bool :=
  !(Text.isNameChar c || c == '#')

theorem clash_of_isOpen {c : Char} (openEnd : isOpen c = true) (d : Char) : clash c d = false := by
  simp only [isOpen, Bool.not_eq_true', Bool.or_eq_false_iff] at openEnd
  simp [clash, openEnd]

theorem clash_of_isClosed {d : Char} (closed : isClosed d = true) (c : Char) :
    clash c d = false := by
  simp only [isClosed, Bool.not_eq_true', Bool.or_eq_false_iff] at closed
  simp [clash, closed]

/-- Two texts meet without a clash, and without two names becoming one. -/
def Seam (front back : List Char) : Prop :=
  ∀ c ∈ front.getLast?, ∀ d ∈ back.head?,
    clash c d = false ∧ (Text.isNameChar c = true → Text.isNameChar d = false)

theorem isOpen_of_clash {c d : Char} (outside : Text.isNameChar c = false)
    (inName : Text.isNameChar d = true) (apart : clash c d = false) : isOpen c = true := by
  simpa [clash, isOpen, outside, inName] using apart

theorem isClosed_of_clash {c d : Char} (ends : Text.isNameChar c = true ∨ c = ')')
    (outside : Text.isNameChar d = false) (apart : clash c d = false) : isClosed d = true := by
  rcases ends with inName | rfl
  · simp_all [clash, isClosed]
  · simp_all [clash, isClosed]

section Spacing

variable {front back text : List Char}

theorem Spaced.within {inner : List Char} (spaced : Spaced text) (inside : inner <:+: text) :
    Spaced inner :=
  List.IsChain.infix spaced inside

theorem Spaced.meets (spaced : Spaced (front ++ back)) :
    ∀ c ∈ front.getLast?, ∀ d ∈ back.head?, clash c d = false :=
  (List.isChain_append.mp spaced).2.2

theorem Spaced.append (first : Spaced front) (second : Spaced back) (seam : Seam front back) :
    Spaced (front ++ back) :=
  List.isChain_append.mpr ⟨first, second, fun c last d head => (seam c last d head).1⟩

theorem Seam.meetApart (seam : Seam front back) : Text.MeetApart front back :=
  fun c last inName d head => (seam c last d head).2 inName

theorem seam_of_isOpen (openEnd : ∀ c ∈ front.getLast?, isOpen c = true) : Seam front back := by
  intro c last d _
  have ends := openEnd c last
  refine ⟨clash_of_isOpen ends d, fun inName => ?_⟩
  simp [isOpen, inName] at ends

theorem seam_of_isClosed (closed : ∀ d ∈ back.head?, isClosed d = true) : Seam front back := by
  intro c _ d head
  have begins := closed d head
  refine ⟨clash_of_isClosed begins c, fun _ => ?_⟩
  simp only [isClosed, Bool.not_eq_true', Bool.or_eq_false_iff] at begins
  exact begins.1

end Spacing

/-! ## What follows a lexeme -/

/-- A text begins as another one does, if that does not begin with a name or a number. -/
def Begins (text result : List Char) : Prop :=
  (∀ d ∈ text.head?, Text.isNameChar d = false) → result.head? = text.head?

theorem Begins.seam {text result front : List Char} (begins : Begins text result)
    (closed : ∀ d ∈ text.head?, isClosed d = true) : Seam front result := by
  refine seam_of_isClosed ?_
  rw [begins]
  · exact closed
  · intro d head
    have outside := closed d head
    simp only [isClosed, Bool.not_eq_true', Bool.or_eq_false_iff] at outside
    exact outside.1

section Lexemes

variable {c : Char} {rest name result : List Char}

theorem Spaced.later (spaced : Spaced (c :: rest)) : Spaced (Text.leadingLexeme c rest).2 := by
  rw [← Text.leadingLexeme_append c rest] at spaced
  exact spaced.within (List.suffix_append _ _).isInfix

theorem Spaced.lexeme (spaced : Spaced (c :: rest)) : Spaced (Text.leadingLexeme c rest).1.text := by
  rw [← Text.leadingLexeme_append c rest] at spaced
  exact spaced.within (List.prefix_append _ _).isInfix

/-- What follows a name clashes with nothing that takes the place of the name. -/
theorem Spaced.closed_of_name (spaced : Spaced (c :: rest))
    (isName : (Text.leadingLexeme c rest).1 = .name name) :
    ∀ d ∈ (Text.leadingLexeme c rest).2.head?, isClosed d = true := by
  intro d head
  have outside := Text.boundary_of_name isName d head
  rw [← Text.leadingLexeme_append c rest] at spaced
  rcases Text.leadingLexeme_cases c rest with ⟨-, same⟩ | ⟨start, same⟩ | ⟨-, same⟩
  · rw [same] at isName
    cases isName
  · rw [same] at spaced head
    obtain ⟨last, isLast⟩ : ∃ last, (c :: rest.takeWhile Text.isNameChar).getLast? = some last :=
      ⟨_, List.getLast?_eq_some_getLast (List.cons_ne_nil c _)⟩
    refine isClosed_of_clash (.inl ?_) outside (spaced.meets last isLast d head)
    rcases List.mem_cons.mp (List.mem_of_getLast? isLast) with rfl | inRest
    · rw [Text.isNameChar_eq, start, Bool.or_true]
    · exact List.mem_takeWhile_imp inRest
  · rw [same] at isName
    cases isName

/-- A lexeme that stays meets what the text after it becomes as it met that text. -/
theorem Spaced.seam (spaced : Spaced (c :: rest))
    (begins : Begins (Text.leadingLexeme c rest).2 result) :
    Seam (Text.leadingLexeme c rest).1.text result := by
  rw [← Text.leadingLexeme_append c rest] at spaced
  have meets := spaced.meets
  have unchanged : (∀ d ∈ (Text.leadingLexeme c rest).2.head?, Text.isNameChar d = false) →
      Seam (Text.leadingLexeme c rest).1.text result := by
    intro outside x last d head
    rw [begins outside] at head
    exact ⟨meets x last d head, fun _ => outside d head⟩
  rcases Text.leadingLexeme_cases c rest with ⟨-, same⟩ | ⟨-, same⟩ | ⟨outside, same⟩
  · refine unchanged ?_
    rw [same]
    exact fun d head => Text.isNameChar_of_not_isNumberChar (Text.boundary_dropWhile _ _ d head)
  · refine unchanged ?_
    rw [same]
    exact Text.boundary_dropWhile _ _
  · -- A name or a number follows a gap, so the gap ends in a character that anything may follow.
    cases after : (Text.leadingLexeme c rest).2 with
    | nil =>
      refine unchanged ?_
      rw [after]
      exact nofun
    | cons d later =>
      rw [same] at after meets ⊢
      have head : d ∈ (rest.dropWhile (!Text.isNameChar ·)).head? := congrArg List.head? after
      have inName : Text.isNameChar d = true := by
        simpa using Text.boundary_dropWhile (!Text.isNameChar ·) rest d head
      refine seam_of_isOpen fun last isLast => ?_
      refine isOpen_of_clash ?_ inName (meets last isLast d head)
      rcases List.mem_cons.mp (List.mem_of_getLast? isLast) with rfl | inRest
      · exact outside
      · simpa using List.mem_takeWhile_imp inRest

end Lexemes

/-! ## Bodies with their arguments -/

/-- Nothing is joined where characters do not clash. -/
theorem Spaced.paste_eq {text : List Char} (spaced : Spaced text) : paste text = text := by
  fun_induction paste text with
  | case1 => rfl
  | case2 c rest after joined _ _ =>
    unfold afterJoin? at joined
    split at joined
    · rename_i later signs
      have inside : ('#' :: '#' :: later) <:+: c :: rest := by
        rw [← signs]
        exact (List.dropWhile_suffix _).isInfix
      have clashes := (List.isChain_cons_cons.mp (spaced.within inside)).1
      exact absurd clashes (by decide)
    · cases joined
  | case3 c rest _ ih => rw [ih (spaced.within (List.suffix_cons c rest).isInfix)]

section Filling

variable {parameters arguments : List (List Char)}

theorem filled_begins (body : List Char) : Begins body (filled parameters arguments body) := by
  intro outside
  cases body with
  | nil => rw [filled_nil]
  | cons c rest =>
    rw [filled_cons, Text.leadingLexeme_of_gap (outside c rfl)]
    rfl

theorem Spaced.filled {body : List Char} (spaced : Spaced body)
    (given : ∀ argument ∈ arguments, Spaced argument) :
    Spaced (filled parameters arguments body) := by
  fun_induction Text.lexemes body with
  | case1 =>
    rw [filled_nil]
    exact .nil
  | case2 c rest ih =>
    have later := ih spaced.later
    have begins : Begins _ (Macro.filled parameters arguments _) :=
      filled_begins (Text.leadingLexeme c rest).2
    rw [filled_cons]
    rcases fill_cases (Text.leadingLexeme c rest).1 with stays | ⟨⟨name, isName⟩, member⟩
    · rw [stays]
      exact spaced.lexeme.append later (spaced.seam begins)
    · exact (given _ member).append later (begins.seam (spaced.closed_of_name isName))

theorem Spaced.substitute {body : List Char} (spaced : Spaced body)
    (given : ∀ argument ∈ arguments, Spaced argument) :
    Spaced (substitute parameters arguments body) := by
  have fills : Spaced (Macro.filled parameters arguments body) := spaced.filled given
  rw [substitute_eq, fills.paste_eq]
  exact fills

end Filling

/-! ## Finished texts -/

/-- No name in a text stands for a body. -/
structure Finished (table : Table) (text : List Char) : Prop where
  spaced : Spaced text
  names : ∀ name ∈ Text.names text, ¬ table.StandsAlone name

/-- The bodies of a table are spaced. -/
def Table.IsSpaced (table : Table) : Prop :=
  ∀ entry ∈ table.entries, Spaced entry.2.body

instance (table : Table) : Decidable table.IsSpaced :=
  inferInstanceAs (Decidable (∀ entry ∈ table.entries, _))

theorem Table.IsSpaced.body {table : Table} {name : List Char} {definition : Definition}
    (bodies : table.IsSpaced) (found : table.find? name = some definition) :
    Spaced definition.body :=
  bodies (name, definition) (Table.mem_of_find? found)

/-- A function that gives finished texts for spaced ones. -/
def Finishes (table : Table) (expand : List Char → Except ExpansionProblem (List Char)) : Prop :=
  ∀ text expansion, Spaced text → expand text = .ok expansion → Finished table expansion

section Scanning

variable {table : Table} {front back : List Char}

theorem Finished.append (first : Finished table front) (second : Finished table back)
    (seam : Seam front back) : Finished table (front ++ back) := by
  refine ⟨first.spaced.append second.spaced seam, fun name member => ?_⟩
  rcases List.mem_append.mp (Text.names_append_subset seam.meetApart member) with inFront | inBack
  · exact first.names name inFront
  · exact second.names name inBack

/-- What stands in front of a callee at the end of an expansion. -/
theorem Finished.beforeCallee {expansion callee : List Char} (finished : Finished table expansion)
    (trailing : trailingCallee? table expansion = some (front, callee)) :
    Finished table front ∧ ∀ c ∈ front.getLast?, isOpen c = true := by
  obtain ⟨rfl, ends, c, rest, rfl, start, -⟩ := eq_of_trailingCallee? trailing
  have apart : Text.MeetApart front (c :: rest) := by
    intro last isLast inName
    rw [ends last isLast] at inName
    cases inName
  refine ⟨⟨finished.spaced.within (List.prefix_append _ _).isInfix, fun name member => ?_⟩, ?_⟩
  · exact finished.names name (Text.names_left_subset apart member)
  · intro last isLast
    have inName : Text.isNameChar c = true := by rw [Text.isNameChar_eq, start, Bool.or_true]
    exact isOpen_of_clash (ends last isLast) inName (finished.spaced.meets last isLast c rfl)

/-- A callee in front of the text that its call stands in. -/
theorem Finished.call {expansion callee after : List Char} (finished : Finished table expansion)
    (trailing : trailingCallee? table expansion = some (front, callee)) (spaced : Spaced after)
    (closed : ∀ d ∈ after.head?, isClosed d = true) : Spaced (callee ++ after) := by
  rw [← (eq_of_trailingCallee? trailing).1] at finished
  have calleeSpaced := finished.spaced.within (List.suffix_append _ _).isInfix
  exact calleeSpaced.append spaced (seam_of_isClosed closed)

theorem Scans.begins {deeper : Option (List Char → Except ExpansionProblem (List Char))}
    {text expansion : List Char} (scans : Scans table deeper text expansion) :
    Begins text expansion := by
  intro outside
  have expanded := scans.scan_eq
  cases text with
  | nil =>
    rw [scan] at expanded
    cases expanded
    rfl
  | cons c rest =>
    rw [scan] at expanded
    simp only [Text.leadingLexeme_of_gap (outside c rfl)] at expanded
    obtain ⟨later, -, rfl⟩ := map_eq_ok_iff.mp expanded
    rfl

/-- A lexeme that stays, in front of what the text after it becomes. -/
theorem Finished.lexeme {c : Char} {rest later : List Char} (spaced : Spaced (c :: rest))
    (stays : ∀ name, (Text.leadingLexeme c rest).1 = .name name → ¬ table.StandsAlone name)
    (finished : Finished table later) (begins : Begins (Text.leadingLexeme c rest).2 later) :
    Finished table ((Text.leadingLexeme c rest).1.text ++ later) := by
  refine Finished.append ⟨spaced.lexeme, fun name member => ?_⟩ finished (spaced.seam begins)
  rw [Text.names_text_leadingLexeme] at member
  cases lexeme : (Text.leadingLexeme c rest).1 with
  | name text =>
    rw [lexeme] at member
    rw [List.mem_singleton.mp member]
    exact stays text lexeme
  | number text | gap text =>
    rw [lexeme] at member
    exact absurd member List.not_mem_nil

theorem Finished.name {c : Char} {rest name later : List Char} (spaced : Spaced (c :: rest))
    (isName : (Text.leadingLexeme c rest).1 = .name name) (stays : ¬ table.StandsAlone name)
    (finished : Finished table later) (begins : Begins (Text.leadingLexeme c rest).2 later) :
    Finished table (name ++ later) := by
  have whole := finished.lexeme spaced (fun other same => ?_) begins
  · rwa [isName] at whole
  · rw [isName] at same
    cases same
    exact stays

/-- The parts of a call are spaced, and what follows it clashes with nothing. -/
theorem Spaced.call {text after : List Char} {arguments : List (List Char)} (spaced : Spaced text)
    (reads : arguments? text = some (arguments, after)) :
    (∀ argument ∈ arguments, Spaced argument) ∧ Spaced after ∧
      ∀ d ∈ after.head?, isClosed d = true := by
  obtain ⟨blanks, -, rfl⟩ := eq_of_arguments? reads
  have written : Spaced (Text.join ',' arguments ++ ')' :: after) :=
    spaced.within ((List.suffix_cons _ _).trans (List.suffix_append _ _)).isInfix
  have closing : Spaced (')' :: after) := written.within (List.suffix_append _ _).isInfix
  refine ⟨fun argument member => ?_, closing.within (List.suffix_cons _ _).isInfix, ?_⟩
  · exact written.within ((infix_join member).trans (List.prefix_append _ _).isInfix)
  · intro d head
    cases after with
    | nil => cases head
    | cons e later =>
      cases head
      have apart := (List.isChain_cons_cons.mp closing).1
      have notName : Text.isNameChar ')' = false := rfl
      simpa [clash, isClosed, notName] using apart

/-- The values of spaced arguments are spaced. -/
theorem Finishes.values {expand : List Char → Except ExpansionProblem (List Char)}
    {parameters written values : List (List Char)} (finishes : Finishes table expand)
    (spaced : ∀ argument ∈ written, Spaced argument)
    (ofArguments : (callArguments parameters written).mapM
      (fun argument => expand (Text.trim argument)) = .ok values) :
    ∀ value ∈ values, Spaced value := by
  intro value member
  obtain ⟨argument, given, gives⟩ := exists_of_mem_mapM ofArguments member
  have argumentSpaced := spaced argument (callArguments_subset _ _ given)
  exact (finishes _ _ (argumentSpaced.within (Text.trim_isInfix argument)) gives).spaced

theorem scan_finishes {deeper : Option (List Char → Except ExpansionProblem (List Char))}
    (bodies : table.IsSpaced) (finishes : ∀ expand ∈ deeper, Finishes table expand) :
    Finishes table (scan table deeper) := by
  intro text expansion spaced expanded
  rw [scan_eq_ok_iff] at expanded
  induction expanded with
  | nil => exact ⟨.nil, by simp⟩
  | kept begins leaves scans ih =>
    obtain ⟨rfl, rfl⟩ := Prod.ext_iff.mp begins
    refine (ih spaced.later).lexeme spaced ?_ scans.begins
    rintro name isName ⟨definition, found, -⟩
    rw [isName] at leaves
    cases found.symm.trans leaves
  | uncalled _ begins found _ scans ih =>
    obtain ⟨isName, rfl⟩ := Prod.ext_iff.mp begins
    refine (ih spaced.later).name spaced isName ?_ scans.begins
    rintro ⟨definition, found', without⟩
    cases found.symm.trans found'
    cases without
  | replaced given begins found ofBody _ scans ih =>
    obtain ⟨isName, rfl⟩ := Prod.ext_iff.mp begins
    have expansionFinished := finishes _ given _ _ (bodies.body found) ofBody
    have closed := spaced.closed_of_name isName
    exact expansionFinished.append (ih spaced.later) (scans.begins.seam closed)
  | passedOn given begins found ofBody passes ofCall =>
    obtain ⟨isName, rfl⟩ := Prod.ext_iff.mp begins
    have expansionFinished := finishes _ given _ _ (bodies.body found) ofBody
    have trailing := trailingCallee?_of_passesOn? passes
    have callSpaced :=
      expansionFinished.call trailing spaced.later (spaced.closed_of_name isName)
    obtain ⟨before, openEnd⟩ := expansionFinished.beforeCallee trailing
    exact before.append (finishes _ given _ _ callSpaced ofCall) (seam_of_isOpen openEnd)
  | called given begins found called _ ofArguments ofBody scans ih =>
    obtain ⟨-, rfl⟩ := Prod.ext_iff.mp begins
    obtain ⟨writtenSpaced, restSpaced, closed⟩ := spaced.later.call called
    have valuesSpaced := (finishes _ given).values writtenSpaced ofArguments
    have expansionFinished :=
      finishes _ given _ _ ((bodies.body found).substitute valuesSpaced) ofBody
    exact expansionFinished.append (ih restSpaced) (scans.begins.seam closed)

theorem expandWithin_finishes (bodies : table.IsSpaced) (levels : Nat) :
    Finishes table (expandWithin table levels) := by
  induction levels with
  | zero => exact scan_finishes bodies nofun
  | succ levels ih =>
    refine scan_finishes bodies ?_
    rintro expand ⟨⟩
    exact ih

end Scanning

/-- An expansion of a spaced text has no name left that stands for a body, and a text that uses a
    name that comes back to itself has no expansion. -/
theorem names_expand :
    (∀ (table : Table) (text expansion : List Char), table.IsSpaced → Spaced text →
      expand table text = .ok expansion →
        ∀ name ∈ Text.names expansion, ¬ table.StandsAlone name) ∧
    ∀ (table : Table) (name text : List Char), table.Circles name → name ∈ Text.names text →
      ∃ problem, expand table text = .error problem := by
  refine ⟨?_, fun table name text => exists_error_of_circles⟩
  intro table text expansion bodies spaced expanded
  exact (expandWithin_finishes bodies expansionLimit text expansion spaced expanded).names

/-- A body that ends in a callee, a parameter that is used twice and signs that stand alone. -/
def scales : Table :=
  ⟨[("SCALE".toList, ⟨some ["x".toList], "(x * x) - A.x".toList, 1⟩),
    ("A".toList, ⟨none, "B # 2.0e".toList, 2⟩), ("B".toList, ⟨none, "v".toList, 3⟩),
    ("CALL".toList, ⟨none, "-SCALE".toList, 4⟩)]⟩

/-- Two macros, each with the other's name in its body. -/
def ring : Table :=
  ⟨[("A".toList, ⟨none, "1 + B".toList, 1⟩), ("B".toList, ⟨none, "(A)".toList, 2⟩)]⟩

theorem names_expand_callee :
    (scales.IsSpaced ∧ Spaced "1.0*CALL (B)".toList ∧
      expand scales "1.0*CALL (B)".toList = .ok "1.0*-(v * v) - v # 2.0e.v".toList ∧
      ∀ name ∈ Text.names "1.0*-(v * v) - v # 2.0e.v".toList, ¬ scales.StandsAlone name) ∧
    ring.Circles "A".toList ∧ "A".toList ∈ Text.names "f(A, 2)".toList ∧
      ∃ problem, expand ring "f(A, 2)".toList = .error problem := by
  have expanded : expand scales "1.0*CALL (B)".toList = .ok "1.0*-(v * v) - v # 2.0e.v".toList := by
    decide +kernel
  have toB : ring.LeadsTo "A".toList "B".toList :=
    ⟨⟨none, "1 + B".toList, 1⟩, by decide, rfl, by decide +kernel⟩
  have toA : ring.LeadsTo "B".toList "A".toList :=
    ⟨⟨none, "(A)".toList, 2⟩, by decide, rfl, by decide +kernel⟩
  have circles : ring.Circles "A".toList := .head toB (.single toA)
  have used : "A".toList ∈ Text.names "f(A, 2)".toList := by decide +kernel
  exact ⟨⟨by decide, by decide, expanded, names_expand.1 _ _ _ (by decide) (by decide) expanded⟩,
    circles, used, names_expand.2 _ _ _ circles used⟩

/-- A text without `##`, and without a closing parenthesis in front of a character of a name. -/
def Separate (text : List Char) : Prop :=
  ¬ ['#', '#'] <:+: text ∧ text.IsChain fun c d => c = ')' → Text.isNameChar d = false

instance (text : List Char) : Decidable (Separate text) :=
  inferInstanceAs (Decidable (_ ∧ _))

/-- The sign of an argument meets the one in the body. -/
def signs : Table :=
  ⟨[("F".toList, ⟨some ["x".toList], "G(a) #x b".toList, 1⟩),
    ("G".toList, ⟨some ["x".toList], "foo".toList, 2⟩), ("foob".toList, ⟨none, "1".toList, 3⟩)]⟩

/-- Signs in a text and in a body can come together, which exposes a new name. So it is not
    enough that neither has a `##`. -/
theorem not_names_expand_of_separate :
    ¬ ∀ (table : Table) (text expansion : List Char),
      (∀ part ∈ text :: table.entries.map (·.2.body), Separate part) →
        expand table text = .ok expansion →
          ∀ name ∈ Text.names expansion, ¬ table.StandsAlone name := by
  intro claim
  have expanded : expand signs "F(#)".toList = .ok "foob".toList := by decide +kernel
  have left : "foob".toList ∈ Text.names "foob".toList := by decide +kernel
  exact claim signs _ _ (by decide +kernel) expanded _ left
    ⟨⟨none, "1".toList, 3⟩, by decide, rfl⟩

end Multipass.Macro
