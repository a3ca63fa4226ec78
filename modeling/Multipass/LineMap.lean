/-!
# Line maps

A line map sends lines of an output text to lines of the input they came from.
It is sparse: a line without one origin has no entry. `lookup?` answers for such
a line with the nearest mapped line before it, and `nearest?` does the same
without going below a given line.
-/

namespace Multipass

/-- Entries in strictly ascending order of their output line. -/
structure LineMap where
  entries : List (Nat × Nat)
  ascending : entries.Pairwise (·.1 < ·.1)

namespace LineMap

/-- The map of a text without lines. -/
def empty : LineMap :=
  ⟨[], .nil⟩

instance : Inhabited LineMap := ⟨empty⟩

/-- The entries with one more, which takes the place of an entry for the same
    output line. -/
def insertEntry (output input : Nat) : List (Nat × Nat) → List (Nat × Nat)
  | [] => [(output, input)]
  | (line, origin) :: rest =>
    if output < line then (output, input) :: (line, origin) :: rest
    else if output = line then (output, input) :: rest
    else (line, origin) :: insertEntry output input rest

theorem mem_insertEntry {output input : Nat} {entries : List (Nat × Nat)} {entry : Nat × Nat}
    (member : entry ∈ insertEntry output input entries) :
    entry = (output, input) ∨ entry ∈ entries := by
  induction entries with
  | nil => simpa [insertEntry] using member
  | cons head rest ih =>
    unfold insertEntry at member
    split at member
    · simpa using member
    · split at member
      · rcases List.mem_cons.mp member with same | later
        · exact .inl same
        · exact .inr (List.mem_cons_of_mem _ later)
      · rcases List.mem_cons.mp member with same | later
        · exact .inr (same ▸ List.mem_cons_self)
        · exact (ih later).imp_right (List.mem_cons_of_mem _)

theorem insertEntry_ascending (output input : Nat) {entries : List (Nat × Nat)}
    (ascending : entries.Pairwise (·.1 < ·.1)) :
    (insertEntry output input entries).Pairwise (·.1 < ·.1) := by
  induction entries with
  | nil => simp [insertEntry]
  | cons head rest ih =>
    have bounds := (List.pairwise_cons.mp ascending).1
    have restAscending := (List.pairwise_cons.mp ascending).2
    unfold insertEntry
    split
    · refine List.pairwise_cons.mpr ⟨?_, ascending⟩
      intro entry member
      rcases List.mem_cons.mp member with same | later
      · subst same; assumption
      · have := bounds entry later; simp only at *; omega
    · split
      · refine List.pairwise_cons.mpr ⟨?_, restAscending⟩
        intro entry member
        have := bounds entry member; simp only at *; omega
      · refine List.pairwise_cons.mpr ⟨?_, ih restAscending⟩
        intro entry member
        rcases mem_insertEntry member with same | earlier
        · subst same; simp only at *; omega
        · exact bounds entry earlier

/-- Map an output line to an input line. -/
def insert (map : LineMap) (output input : Nat) : LineMap :=
  ⟨insertEntry output input map.entries, insertEntry_ascending output input map.ascending⟩

/-- The map with the given entries, a later one taking the place of an earlier
    one for the same output line. -/
def ofList (entries : List (Nat × Nat)) : LineMap :=
  entries.foldl (fun map (output, input) => map.insert output input) empty

/-- The entries that send the lines from `first` on to the given origins. -/
def numbered (first : Nat) : List Nat → List (Nat × Nat)
  | [] => []
  | origin :: rest => (first, origin) :: numbered (first + 1) rest

theorem le_of_mem_numbered {first : Nat} {origins : List Nat} {entry : Nat × Nat}
    (member : entry ∈ numbered first origins) : first ≤ entry.1 := by
  induction origins generalizing first with
  | nil => simp [numbered] at member
  | cons origin rest ih =>
    rcases List.mem_cons.mp member with same | later
    · simp [same]
    · exact Nat.le_of_succ_le (ih later)

theorem numbered_ascending (first : Nat) (origins : List Nat) :
    (numbered first origins).Pairwise (·.1 < ·.1) := by
  induction origins generalizing first with
  | nil => exact .nil
  | cons origin rest ih =>
    exact List.pairwise_cons.mpr ⟨fun _ member => le_of_mem_numbered member, ih (first + 1)⟩

/-- The map that sends the lines 1, 2, … of an output text to the given origins. -/
def ofOrigins (origins : List Nat) : LineMap :=
  ⟨numbered 1 origins, numbered_ascending 1 origins⟩

/-- The entries with other origins; those that have none are dropped. -/
def reoriginate (change : Nat → Option Nat) (entries : List (Nat × Nat)) : List (Nat × Nat) :=
  entries.filterMap fun (output, input) => (change input).map (output, ·)

theorem reoriginate_ascending (change : Nat → Option Nat) {entries : List (Nat × Nat)}
    (ascending : entries.Pairwise (·.1 < ·.1)) :
    (reoriginate change entries).Pairwise (·.1 < ·.1) := by
  refine List.Pairwise.filterMap _ (fun first second below first' changed second' changed' => ?_)
    ascending
  simp only [Option.map_eq_some_iff] at changed changed'
  obtain ⟨_, _, rfl⟩ := changed
  obtain ⟨_, _, rfl⟩ := changed'
  exact below

/-- The map with every origin changed. A line whose origin becomes none loses its
    entry. -/
def changeOrigins (change : Nat → Option Nat) (map : LineMap) : LineMap :=
  ⟨reoriginate change map.entries, reoriginate_ascending change map.ascending⟩

/-- The entries of a map, from the first output line on. -/
def toList (map : LineMap) : List (Nat × Nat) :=
  map.entries

/-- The number of lines that are mapped. -/
def size (map : LineMap) : Nat :=
  map.entries.length

/-- Is no line mapped? -/
def isEmpty (map : LineMap) : Bool :=
  map.entries.isEmpty

/-- The entry for exactly this output line. -/
def get? (map : LineMap) (output : Nat) : Option Nat :=
  map.entries.lookup output

/-- The entry for the last mapped output line from `floor` to `output`. -/
def nearest? (map : LineMap) (output floor : Nat) : Option Nat :=
  (map.entries.filter fun (line, _) => floor ≤ line && line ≤ output).getLast?.map (·.2)

/-- The entry for the last mapped output line up to `output`. -/
def lookup? (map : LineMap) (output : Nat) : Option Nat :=
  map.nearest? output 1

end LineMap

end Multipass
