/-!
# Searching a text

`after?` takes a beginning off a text; `breakAt?` cuts a text at the first
occurrence of a needle. Both give back the parts that make up the text.
-/

namespace Multipass.Text

/-- The text after a given beginning. -/
def after? : List Char → List Char → Option (List Char)
  | [], text => some text
  | _ :: _, [] => none
  | expected :: beginning, c :: text => if c = expected then after? beginning text else none

theorem after?_eq_some_iff {beginning text rest : List Char} :
    after? beginning text = some rest ↔ text = beginning ++ rest := by
  fun_induction after? beginning text <;> simp_all

/-- The parts before and after the first occurrence of the needle. -/
def breakAt? (needle : List Char) : List Char → Option (List Char × List Char)
  | [] => (after? needle []).map fun rest => ([], rest)
  | c :: text =>
    match after? needle (c :: text) with
    | some rest => some ([], rest)
    | none => (breakAt? needle text).map fun (front, rest) => (c :: front, rest)

theorem eq_append_of_breakAt? {needle text front rest : List Char}
    (found : breakAt? needle text = some (front, rest)) : text = front ++ needle ++ rest := by
  induction text generalizing front with
  | nil =>
    unfold breakAt? at found
    cases here : after? needle [] with
    | none => simp [here] at found
    | some after =>
      simp only [here, Option.map_some, Option.some.injEq, Prod.mk.injEq] at found
      obtain ⟨rfl, rfl⟩ := found
      simpa using after?_eq_some_iff.mp here
  | cons c text ih =>
    unfold breakAt? at found
    split at found
    · rename_i here
      simp only [Option.some.injEq, Prod.mk.injEq] at found
      obtain ⟨rfl, rfl⟩ := found
      simpa using after?_eq_some_iff.mp here
    · cases later : breakAt? needle text with
      | none => simp [later] at found
      | some parts =>
        simp only [later, Option.map_some, Option.some.injEq, Prod.mk.injEq] at found
        obtain ⟨rfl, rfl⟩ := found
        simp [ih later]

/-- Does the needle occur anywhere in the text? -/
def contains (needle text : List Char) : Bool :=
  (breakAt? needle text).isSome

/-- Does the text start with the given beginning? -/
def startsWith (beginning text : List Char) : Bool :=
  (after? beginning text).isSome

/-- The characters of a text that are not listed. -/
def without (unwanted : List Char) (text : List Char) : List Char :=
  text.filter fun c => !unwanted.contains c

/-- Simple case folding onto ASCII: the upper-case ASCII letters, the long s and
    the Kelvin sign. Every other character stands for itself. -/
def foldCase (c : Char) : Char :=
  if c = '\u017F' then 's' else if c = '\u212A' then 'k' else c.toLower

/-- The text after a beginning that is compared without regard to case. The
    beginning is given in lower-case ASCII. -/
def afterAnyCase? : List Char → List Char → Option (List Char)
  | [], text => some text
  | _ :: _, [] => none
  | expected :: beginning, c :: text =>
    if foldCase c = expected then afterAnyCase? beginning text else none

end Multipass.Text
