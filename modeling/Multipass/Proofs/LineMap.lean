import Mathlib.Data.List.Basic
import Multipass.LineMap

/-!
# Looking up a mapped line

The look-up goes back to the nearest mapped line only where the line itself has no
entry.
-/

namespace Multipass.LineMap

theorem mem_numbered {first index origin : Nat} {origins : List Nat}
    (found : origins[index]? = some origin) : (first + index, origin) ∈ numbered first origins := by
  induction origins generalizing first index with
  | nil => simp at found
  | cons head rest ih =>
    cases index with
    | zero =>
      rw [List.getElem?_cons_zero, Option.some.injEq] at found
      rw [found]
      exact List.mem_cons_self
    | succ index =>
      rw [List.getElem?_cons_succ] at found
      have later : (first + 1 + index, origin) ∈ numbered (first + 1) rest := ih found
      rw [Nat.add_assoc, Nat.add_comm 1] at later
      exact List.mem_cons_of_mem _ later

/-- Every entry is that of a place in the list of origins. -/
theorem exists_of_mem_numbered {first output origin : Nat} {origins : List Nat}
    (member : (output, origin) ∈ numbered first origins) :
    ∃ index, output = first + index ∧ origins[index]? = some origin := by
  induction origins generalizing first with
  | nil => exact absurd member List.not_mem_nil
  | cons head rest ih =>
    rcases List.mem_cons.mp member with here | later
    · cases here
      exact ⟨0, rfl, rfl⟩
    · obtain ⟨index, rfl, found⟩ := ih later
      exact ⟨index + 1, by omega, found⟩

theorem lookup_numbered (first index : Nat) (origins : List Nat) :
    (numbered first origins).lookup (first + index) = origins[index]? := by
  induction origins generalizing first index with
  | nil => rfl
  | cons head rest ih =>
    rw [numbered, List.lookup_cons]
    cases index with
    | zero => simp
    | succ index =>
      have other : (first + (index + 1) == first) = false := by simp
      rw [other, List.getElem?_cons_succ, ← ih (first + 1) index, Nat.add_assoc, Nat.add_comm 1]

/-- The line zero of an output text has no origin. -/
theorem get?_ofOrigins_zero (origins : List Nat) : (ofOrigins origins).get? 0 = none := by
  refine List.lookup_eq_none_iff.mpr fun entry member => ?_
  have := le_of_mem_numbered member
  simp
  omega

theorem get?_ofOrigins_succ (origins : List Nat) (index : Nat) :
    (ofOrigins origins).get? (index + 1) = origins[index]? := by
  rw [get?, ofOrigins, Nat.add_comm, lookup_numbered]

theorem keys_numbered (first : Nat) (origins : List Nat) :
    (numbered first origins).map Prod.fst = List.range' first origins.length := by
  induction origins generalizing first with
  | nil => rfl
  | cons origin rest ih => rw [numbered, List.map_cons, ih, List.length_cons, List.range'_succ]

theorem values_numbered (first : Nat) (origins : List Nat) :
    (numbered first origins).map Prod.snd = origins := by
  induction origins generalizing first with
  | nil => rfl
  | cons origin rest ih => rw [numbered, List.map_cons, ih]

/-- The lines from `first` on, each mapped to itself. -/
theorem numbered_range' (first count : Nat) :
    numbered first (List.range' first count) =
      (List.range' first count).map fun number => (number, number) := by
  induction count generalizing first with
  | zero => rfl
  | succ count ih => rw [List.range'_succ, numbered, ih, List.map_cons]

theorem mem_changeOrigins {change : Nat → Option Nat} {map : LineMap} {output input input' : Nat}
    (member : (output, input) ∈ map.entries) (changed : change input = some input') :
    (output, input') ∈ (map.changeOrigins change).entries :=
  List.mem_filterMap.mpr ⟨(output, input), member, by simp [changed]⟩

theorem exists_of_mem_changeOrigins {change : Nat → Option Nat} {map : LineMap}
    {output input' : Nat} (member : (output, input') ∈ (map.changeOrigins change).entries) :
    ∃ input, (output, input) ∈ map.entries ∧ change input = some input' := by
  obtain ⟨⟨output', input⟩, inMap, changed⟩ := List.mem_filterMap.mp member
  obtain ⟨result, given, same⟩ := Option.map_eq_some_iff.mp changed
  cases same
  exact ⟨input, inMap, given⟩

/-- The entry for the greatest line comes last. -/
theorem getLast?_of_greatest {entries : List (Nat × Nat)}
    (ascending : entries.Pairwise (·.1 < ·.1)) {entry : Nat × Nat} (member : entry ∈ entries)
    (greatest : ∀ other ∈ entries, other.1 ≤ entry.1) : entries.getLast? = some entry := by
  obtain rfl | ⟨front, last, rfl⟩ := List.eq_nil_or_concat' entries
  · simp at member
  · rw [List.getLast?_concat]
    rcases List.mem_append.mp member with earlier | isLast
    · have below := (List.pairwise_append.mp ascending).2.2 entry earlier last List.mem_cons_self
      have bound := greatest last (List.mem_append_right _ List.mem_cons_self)
      omega
    · rw [List.mem_singleton.mp isLast]

/-- A mapped line is the nearest mapped line. -/
theorem nearest?_of_mem {map : LineMap} {output floor input : Nat}
    (member : (output, input) ∈ map.entries) (above : floor ≤ output) :
    map.nearest? output floor = some input := by
  rw [nearest?, getLast?_of_greatest (map.ascending.filter _)
    (List.mem_filter.mpr ⟨member, by simp [above]⟩), Option.map_some]
  intro other kept
  have inside := (List.mem_filter.mp kept).2
  simp only [Bool.and_eq_true, decide_eq_true_eq] at inside
  exact inside.2

/-- The nearest mapped line is one of the lines that were asked for. -/
theorem exists_of_nearest? {map : LineMap} {output floor input : Nat}
    (found : map.nearest? output floor = some input) :
    ∃ line, floor ≤ line ∧ line ≤ output ∧ (line, input) ∈ map.entries := by
  obtain ⟨⟨line, origin⟩, last, rfl⟩ := Option.map_eq_some_iff.mp found
  obtain ⟨member, inside⟩ := List.mem_filter.mp (List.mem_of_getLast? last)
  simp only [Bool.and_eq_true, decide_eq_true_eq] at inside
  exact ⟨line, inside.1, inside.2, member⟩

/-- Without a nearest mapped line, none of the lines that were asked for is mapped. -/
theorem lt_of_nearest?_eq_none {map : LineMap} {output floor line input : Nat}
    (none : map.nearest? output floor = none) (member : (line, input) ∈ map.entries)
    (above : floor ≤ line) : output < line := by
  rw [nearest?, Option.map_eq_none_iff, List.getLast?_eq_none_iff, List.filter_eq_nil_iff] at none
  have outside := none (line, input) member
  simp only [Bool.and_eq_true, decide_eq_true_eq] at outside
  omega

end Multipass.LineMap
