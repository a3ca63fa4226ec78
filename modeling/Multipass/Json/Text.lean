import Multipass.Json.Reader

/-!
# Texts in documents

A text stands between double quotes. Controls and the two special characters are
escaped; a character beyond the basic plane may be escaped as a pair of surrogates, and
a surrogate on its own is no character. A text that is passed over is not checked for
that.
-/

namespace Multipass.Json

/-- A malformed document, with the problem in front of the given text. -/
def faultAt {α : Type} (fault : SyntaxFault) (unread : List Char) : Result α :=
  .error ⟨.malformed fault, unread, .here⟩

/-- A malformed document, with the problem one byte into the given text. -/
def faultAfter {α : Type} (fault : SyntaxFault) (unread : List Char) : Result α :=
  .error ⟨.malformed fault, unread, .next⟩

/-- The value of a hexadecimal digit. -/
def hexValue? (c : Char) : Option Nat :=
  if c.isDigit then some (c.toNat - '0'.toNat)
  else if 'a' ≤ c && c ≤ 'f' then some (c.toNat - 'a'.toNat + 10)
  else if 'A' ≤ c && c ≤ 'F' then some (c.toNat - 'A'.toNat + 10)
  else none

/-- A text that does not begin with four hexadecimal digits. The four bytes where they
    should be count as read. -/
def noCodeUnit {α : Type} (text : List Char) : Result α :=
  if 4 ≤ byteCount (text.take 4) then .error ⟨.malformed .invalidEscape, text, .after 4⟩
  else faultAt .endInText []

/-- The code unit that four hexadecimal digits give. -/
def codeUnit (text : List Char) : Result Nat :=
  match text with
  | a :: b :: c :: d :: rest =>
    match [a, b, c, d].mapM hexValue? with
    | some values => .ok (values.foldl (fun unit digit => unit * 16 + digit) 0, rest)
    | none => noCodeUnit text
  | _ => noCodeUnit text

theorem noCodeUnit_ne_ok {α : Type} (text : List Char) (result : α × List Char) :
    noCodeUnit text ≠ .ok result := by
  unfold noCodeUnit faultAt
  split <;> simp

/-- Is this the first unit of a pair that stands for one character? -/
def isLeadingSurrogate (unit : Nat) : Bool :=
  0xD800 ≤ unit && unit ≤ 0xDBFF

/-- Is this the second unit of such a pair? -/
def isTrailingSurrogate (unit : Nat) : Bool :=
  0xDC00 ≤ unit && unit ≤ 0xDFFF

/-- The character of a pair of surrogates. -/
def pairChar (leading trailing : Nat) : Char :=
  Char.ofNat (0x10000 + (leading - 0xD800) * 0x400 + (trailing - 0xDC00))

/-- The second half of a pair of surrogates, an escape of its own. -/
def trailingHalf (leading : Nat) (text : List Char) : Result Char :=
  match text with
  | '\\' :: 'u' :: rest =>
    match codeUnit rest with
    | .error problem => .error problem
    | .ok (trailing, rest) =>
      if isTrailingSurrogate trailing then .ok (pairChar leading trailing, rest)
      else faultAt .loneSurrogate rest
  | [] | ['\\'] => faultAt .endInText []
  | '\\' :: rest => faultAfter .unfinishedSurrogate rest
  | text => faultAfter .unfinishedSurrogate text

/-- The character of an escape by code point. -/
def codePointEscape (text : List Char) : Result Char :=
  match codeUnit text with
  | .error problem => .error problem
  | .ok (unit, rest) =>
    if isTrailingSurrogate unit then faultAt .loneSurrogate rest
    else if isLeadingSurrogate unit then trailingHalf unit rest
    else .ok (Char.ofNat unit, rest)

/-- Characters with an escape of one letter. -/
def letterEscapes : List (Char × Char) := [
  ('"', '"'), ('\\', '\\'), ('/', '/'), ('b', '\x08'), ('f', '\x0C'), ('n', '\n'), ('r', '\r'),
  ('t', '\t')]

/-- The character that an escape stands for, after the backslash. -/
def escape : List Char → Result Char
  | [] => faultAt .endInText []
  | c :: rest =>
    if c = 'u' then codePointEscape rest
    else
      match letterEscapes.lookup c with
      | some escaped => .ok (escaped, rest)
      | none => faultAfter .invalidEscape (c :: rest)

theorem codeUnit_length_le {text rest : List Char} {unit : Nat}
    (read : codeUnit text = .ok (unit, rest)) : rest.length ≤ text.length := by
  unfold codeUnit at read
  split at read
  · split at read
    · simp only [Except.ok.injEq, Prod.mk.injEq] at read
      rw [← read.2]; simp; omega
    · exact absurd read (noCodeUnit_ne_ok _ _)
  · exact absurd read (noCodeUnit_ne_ok _ _)

theorem trailingHalf_length_le {leading : Nat} {text rest : List Char} {c : Char}
    (read : trailingHalf leading text = .ok (c, rest)) : rest.length ≤ text.length := by
  unfold trailingHalf faultAt faultAfter at read
  split at read
  · split at read
    · simp at read
    · rename_i unit
      have := codeUnit_length_le unit
      split at read
      · simp only [Except.ok.injEq, Prod.mk.injEq] at read
        rw [← read.2]; simp; omega
      · simp at read
  all_goals simp at read

theorem codePointEscape_length_le {text rest : List Char} {c : Char}
    (read : codePointEscape text = .ok (c, rest)) : rest.length ≤ text.length := by
  unfold codePointEscape faultAt at read
  split at read
  · simp at read
  · rename_i unit
    have := codeUnit_length_le unit
    split at read
    · simp at read
    · split at read
      · exact Nat.le_trans (trailingHalf_length_le read) this
      · simp only [Except.ok.injEq, Prod.mk.injEq] at read
        rw [← read.2]; exact this

theorem escape_length_le {text rest : List Char} {c : Char}
    (read : escape text = .ok (c, rest)) : rest.length ≤ text.length := by
  unfold escape faultAt faultAfter at read
  split at read
  · simp at read
  · split at read
    · exact Nat.le_succ_of_le (codePointEscape_length_le read)
    · split at read
      · simp only [Except.ok.injEq, Prod.mk.injEq] at read
        rw [← read.2]; simp
      · simp at read

/-- The characters up to the closing quote. -/
def textTail (text : List Char) : Result (List Char) :=
  match text with
  | [] => faultAt .endInText []
  | c :: rest =>
    if c = '"' then .ok ([], rest)
    else if c = '\\' then
      match read : escape rest with
      | .error problem => .error problem
      | .ok (escaped, after) =>
        have : after.length ≤ rest.length := escape_length_le read
        match textTail after with
        | .error problem => .error problem
        | .ok (value, last) => .ok (escaped :: value, last)
    else if c.toNat < 0x20 then faultAt .controlCharacter rest
    else
      match textTail rest with
      | .error problem => .error problem
      | .ok (value, last) => .ok (c :: value, last)
  termination_by text.length

theorem textTail_length_le {text rest value : List Char}
    (read : textTail text = .ok (value, rest)) : rest.length ≤ text.length := by
  fun_induction textTail text generalizing value rest with
  | case1 => simp [faultAt] at read
  | case2 =>
    simp only [Except.ok.injEq, Prod.mk.injEq] at read
    rw [← read.2]; simp
  | case3 => simp at read
  | case4 => simp at read
  | case5 rest escaped after _ shorter value' last tail _ ih =>
    simp only [Except.ok.injEq, Prod.mk.injEq] at read
    have := ih tail
    rw [← read.2, List.length_cons]; omega
  | case6 => simp [faultAt] at read
  | case7 => simp at read
  | case8 c after notQuote notEscape printable value' last tail ih =>
    simp only [Except.ok.injEq, Prod.mk.injEq] at read
    have := ih tail
    rw [← read.2]; simp; omega

/-- Pass over the characters up to the closing quote. A control in the text is not read. -/
def skipTextTail (text : List Char) : Result Unit :=
  match text with
  | [] => faultAt .endInText []
  | c :: rest =>
    if c = '"' then .ok ((), rest)
    else if c = '\\' then
      match rest with
      | [] => faultAt .endInText []
      | 'u' :: unit =>
        match read : codeUnit unit with
        | .error problem => .error problem
        | .ok (_, after) =>
          have := codeUnit_length_le read
          skipTextTail after
      | letter :: after =>
        if (letterEscapes.lookup letter).isSome then skipTextTail after
        else faultAfter .invalidEscape (letter :: after)
    else if c.toNat < 0x20 then faultAt .controlCharacter (c :: rest)
    else skipTextTail rest
  termination_by text.length

theorem skipTextTail_length_le {text rest : List Char}
    (read : skipTextTail text = .ok ((), rest)) : rest.length ≤ text.length := by
  fun_induction skipTextTail text with
  | case2 =>
    simp only [Except.ok.injEq, Prod.mk.injEq] at read
    rw [← read.2]; simp
  | case5 unit code after _ shorter _ ih =>
    have := ih read
    simp; omega
  | case6 letter after _ _ _ ih =>
    have := ih read
    simp; omega
  | case9 c after _ _ _ ih =>
    have := ih read
    simp; omega
  | _ => simp [faultAt, faultAfter] at read

end Multipass.Json
