import Multipass.Json.Number

/-!
# Passing over a value

A value that nobody asked for is still checked to be well formed, however deep its lists
and objects are nested.
-/

namespace Multipass.Json

/-- The characters that may stand between tokens. -/
def isBlank (c : Char) : Bool :=
  c == ' ' || c == '\n' || c == '\t' || c == '\r'

/-- The text behind its leading blanks. -/
def skipBlanks (text : List Char) : List Char :=
  text.dropWhile isBlank

theorem skipBlanks_length_le (text : List Char) : (skipBlanks text).length ≤ text.length :=
  (List.dropWhile_sublist _).length_le

/-- The given characters and nothing else. -/
def word : List Char → List Char → Result Unit
  | [], text => .ok ((), text)
  | _ :: _, [] => faultAt .endInValue []
  | expected :: letters, c :: text =>
    if c = expected then word letters text else faultAfter .expectedWord (c :: text)

theorem word_length_le {letters text rest : List Char}
    (read : word letters text = .ok ((), rest)) : rest.length ≤ text.length := by
  fun_induction word letters text with
  | case1 =>
    simp only [Except.ok.injEq, Prod.mk.injEq] at read
    exact Nat.le_of_eq (congrArg List.length read.2.symm)
  | case2 => simp [faultAt] at read
  | case3 _ _ _ ih => exact Nat.le_succ_of_le (ih read)
  | case4 => simp [faultAfter] at read

/-- Pass over a value that is no list and no object. A numeral that ends too early is an
    invalid one, whatever follows. -/
def skipScalar (text : List Char) : Result Unit :=
  match text with
  | [] => faultAfter .endInValue []
  | c :: rest =>
    if c = 'n' then word "ull".toList rest
    else if c = 't' then word "rue".toList rest
    else if c = 'f' then word "alse".toList rest
    else if c = '"' then skipTextTail rest
    else if c = '-' || c.isDigit then 
      (numeral .invalidNumber (c :: rest)).map fun (_, after) => ((), after)
    else faultAfter .expectedValue (c :: rest)

theorem skipScalar_shorter {text rest : List Char}
    (read : skipScalar text = .ok ((), rest)) : rest.length < text.length := by
  unfold skipScalar at read
  split at read
  · simp [faultAfter] at read
  · rename_i c after
    split at read
    · exact Nat.lt_succ_of_le (word_length_le read)
    · split at read
      · exact Nat.lt_succ_of_le (word_length_le read)
      · split at read
        · exact Nat.lt_succ_of_le (word_length_le read)
        · split at read
          · exact Nat.lt_succ_of_le (skipTextTail_length_le read)
          · split at read
            · cases written : numeral .invalidNumber (c :: after) with
              | error problem => simp [written, Except.map] at read
              | ok result =>
                simp only [written, Except.map, Except.ok.injEq, Prod.mk.injEq, true_and] at read
                rw [← read]
                exact @numeral_shorter _ _ result.2 result.1 written
            · simp [faultAfter] at read

/-- A colon with blanks in front of it. -/
def colon (text : List Char) : Result Unit :=
  match skipBlanks text with
  | ':' :: rest => .ok ((), rest)
  | [] => faultAfter .endInObject []
  | text => faultAfter .expectedColon text

/-- Pass over a key and the colon after it. -/
def skipKey (text : List Char) : Result Unit :=
  match skipBlanks text with
  | '"' :: rest =>
    match skipTextTail rest with
    | .error problem => .error problem
    | .ok ((), after) => colon after
  | [] => faultAfter .endInObject []
  | text => faultAfter .keyNotText text

theorem colon_length_le {text rest : List Char} (read : colon text = .ok ((), rest)) :
    rest.length ≤ text.length := by
  have bound := skipBlanks_length_le text
  unfold colon faultAfter at read
  split at read
  · rename_i taken
    simp only [Except.ok.injEq, Prod.mk.injEq, true_and] at read
    rw [taken, List.length_cons] at bound
    rw [← read]; omega
  all_goals simp at read

theorem skipKey_length_le {text rest : List Char} (read : skipKey text = .ok ((), rest)) :
    rest.length ≤ text.length := by
  have bound := skipBlanks_length_le text
  unfold skipKey faultAfter at read
  split at read
  · rename_i taken
    rw [taken, List.length_cons] at bound
    split at read
    · simp at read
    · rename_i skipped
      have key := skipTextTail_length_le skipped
      have := colon_length_le read
      omega
  all_goals simp at read

/-- What is open around a value. -/
inductive Bracket where
  | list
  | object
  deriving DecidableEq, Repr

/-- The character that closes a bracket. -/
def Bracket.closing : Bracket → Char
  | list => ']'
  | object => '}'

/-- The fault of a text that ends inside a bracket. -/
def Bracket.endFault : Bracket → SyntaxFault
  | list => .endInList
  | object => .endInObject

/-- The fault of something else where a bracket goes on or ends. -/
def Bracket.commaFault : Bracket → SyntaxFault
  | list => .expectedCommaOrListEnd
  | object => .expectedCommaOrObjectEnd

/-- What comes before the next value inside a bracket: a key in an object. -/
def Bracket.skipLead : Bracket → List Char → Result Unit
  | list, text => .ok ((), text)
  | object, text => skipKey text

theorem Bracket.skipLead_length_le {bracket : Bracket} {text rest : List Char}
    (read : bracket.skipLead text = .ok ((), rest)) : rest.length ≤ text.length := by
  cases bracket with
  | list =>
    simp only [Bracket.skipLead, Except.ok.injEq, Prod.mk.injEq, true_and] at read
    exact Nat.le_of_eq (congrArg List.length read.symm)
  | object => exact skipKey_length_le read

/-- Pass over a value inside the given brackets and over all that closes them. Where a
    value was just passed, `passed` is set. -/
def skipInside (passed : Bool) (brackets : List Bracket) (text : List Char) : Result Unit :=
  match passed, brackets with
  | true, [] => .ok ((), text)
  | true, bracket :: outer =>
    match after : skipBlanks text with
    | [] => faultAfter bracket.endFault []
    | c :: rest =>
      have : rest.length < text.length := by
        have := skipBlanks_length_le text
        rw [after, List.length_cons] at this; omega
      if c = bracket.closing then skipInside true outer rest
      else if c = ',' then
        match lead : bracket.skipLead rest with
        | .error problem => .error problem
        | .ok ((), rest') =>
          have := Bracket.skipLead_length_le lead
          skipInside false brackets rest'
      else faultAfter bracket.commaFault (c :: rest)
  | false, brackets =>
    match after : skipBlanks text with
    | [] => faultAfter .endInValue []
    | c :: rest =>
      have : rest.length < text.length := by
        have := skipBlanks_length_le text
        rw [after, List.length_cons] at this; omega
      if c = '[' || c = '{' then
        let bracket := if c = '[' then Bracket.list else .object
        match inner : skipBlanks rest with
        | [] => faultAfter bracket.endFault []
        | d :: later =>
          have : later.length < rest.length := by
            have := skipBlanks_length_le rest
            rw [inner, List.length_cons] at this; omega
          if d = bracket.closing then skipInside true brackets later
          else
            match lead : bracket.skipLead (d :: later) with
            | .error problem => .error problem
            | .ok ((), rest') =>
              have := Bracket.skipLead_length_le lead
              skipInside false (bracket :: brackets) rest'
      else
        match scalar : skipScalar (c :: rest) with
        | .error problem => .error problem
        | .ok ((), rest') =>
          have := skipScalar_shorter scalar
          skipInside true brackets rest'
  termination_by text.length
  decreasing_by all_goals grind

theorem skipInside_length_le {passed : Bool} {brackets : List Bracket} {text rest : List Char}
    (read : skipInside passed brackets text = .ok ((), rest)) : rest.length ≤ text.length := by
  fun_induction skipInside passed brackets text with
  | case1 =>
    simp only [Except.ok.injEq, Prod.mk.injEq, true_and] at read
    exact Nat.le_of_eq (congrArg List.length read.symm)
  | _ => grind [faultAfter]

end Multipass.Json
