import GpioLines.Line

/-!
# The records of a chip

A chip keeps a record for each line that something was done with, by ascending offset; a line that
is not listed is as it is before its first refresh. So a chip costs what is used of it, however many
lines it has. Looking up after a change finds the change (`get_modify`), and the offsets stay
ascending (`Ascending.modify`).
-/

namespace GpioLines

structure LineRecords where
  entries : List (Offset × LineRecord) := []

namespace LineRecords

def empty : LineRecords := {}

/-- The offsets that are listed. -/
def offsets (records : LineRecords) : List Offset := records.entries.map (·.1)

def get (records : LineRecords) (offset : Offset) : LineRecord :=
  (records.entries.lookup offset).getD (.initial offset)

/-- Puts an entry before the first one whose offset is not below it; one for the same offset is
replaced. -/
def put (offset : Offset) (record : LineRecord) :
    List (Offset × LineRecord) → List (Offset × LineRecord)
  | [] => [(offset, record)]
  | entry :: rest =>
    if entry.1 < offset then entry :: put offset record rest
    else if entry.1 = offset then (offset, record) :: rest
    else (offset, record) :: entry :: rest

def modify (records : LineRecords) (offset : Offset) (f : LineRecord → LineRecord) : LineRecords :=
  ⟨put offset (f (records.get offset)) records.entries⟩

/-- A line that satisfies the predicate is listed. -/
def any (records : LineRecords) (p : LineRecord → Bool) : Bool := records.entries.any (p ·.2)

@[simp] theorem get_empty (offset : Offset) : empty.get offset = .initial offset := rfl

theorem lookup_entry (offset : Offset) (record : LineRecord) (other : Offset)
    (rest : List (Offset × LineRecord)) :
    ((offset, record) :: rest).lookup other =
      if other = offset then some record else rest.lookup other := by
  by_cases h : other = offset
  · simp [h]
  · rw [List.lookup_cons, beq_false_of_ne h, if_neg h]

theorem lookup_put (offset : Offset) (record : LineRecord) (other : Offset)
    (entries : List (Offset × LineRecord)) :
    (put offset record entries).lookup other =
      if other = offset then some record else entries.lookup other := by
  induction entries with
  | nil => rw [put, lookup_entry]
  | cons entry rest ih =>
    obtain ⟨key, old⟩ := entry
    unfold put
    split
    · next hlt =>
      have hne : key ≠ offset := fun h => by simp [h] at hlt
      rw [lookup_entry, lookup_entry, ih]
      by_cases hkey : other = key <;> simp [hkey, hne]
    · split
      · next heq =>
        subst heq
        rw [lookup_entry, lookup_entry]
        split <;> rfl
      · rw [lookup_entry]

theorem get_modify (records : LineRecords) (offset : Offset) (f : LineRecord → LineRecord)
    (other : Offset) :
    (records.modify offset f).get other =
      if other = offset then f (records.get offset) else records.get other := by
  by_cases h : other = offset <;> simp [get, modify, lookup_put, h]

def Ascending (records : LineRecords) : Prop := records.offsets.Pairwise (· < ·)

theorem ascending_empty : empty.Ascending := .nil

theorem mem_put {offset : Offset} {record : LineRecord} {entries : List (Offset × LineRecord)}
    {key : Offset} (h : key ∈ (put offset record entries).map (·.1)) :
    key = offset ∨ key ∈ entries.map (·.1) := by
  induction entries with
  | nil => exact .inl (by simpa [put] using h)
  | cons entry rest ih =>
    unfold put at h
    split at h
    · rcases List.mem_cons.mp h with h | h
      · exact .inr (by simp [h])
      · exact (ih h).imp_right (List.mem_cons_of_mem _)
    · split at h
      · exact (List.mem_cons.mp h).imp_right (List.mem_cons_of_mem _)
      · exact List.mem_cons.mp h

theorem pairwise_put (offset : Offset) (record : LineRecord) {entries : List (Offset × LineRecord)}
    (h : (entries.map (·.1)).Pairwise (· < ·)) :
    ((put offset record entries).map (·.1)).Pairwise (· < ·) := by
  induction entries with
  | nil => simp [put]
  | cons entry rest ih =>
    rw [List.map_cons, List.pairwise_cons] at h
    unfold put
    split
    · refine List.pairwise_cons.mpr ⟨fun key hkey => ?_, ih h.2⟩
      rcases mem_put hkey with rfl | hkey
      · assumption
      · exact h.1 key hkey
    · split
      · next heq => exact List.pairwise_cons.mpr ⟨heq ▸ h.1, h.2⟩
      · next hlt hne =>
        have hbelow : offset < entry.1 := UInt32.lt_of_le_of_ne (UInt32.not_lt.mp hlt) (Ne.symm hne)
        refine List.pairwise_cons.mpr ⟨fun key hkey => ?_, List.pairwise_cons.mpr h⟩
        rcases List.mem_cons.mp hkey with rfl | hkey
        · exact hbelow
        · exact UInt32.lt_trans hbelow (h.1 key hkey)

theorem Ascending.modify {records : LineRecords} (h : records.Ascending) (offset : Offset)
    (f : LineRecord → LineRecord) : (records.modify offset f).Ascending :=
  pairwise_put offset _ h

theorem lookup_of_mem {entries : List (Offset × LineRecord)}
    (h : (entries.map (·.1)).Pairwise (· < ·)) {offset : Offset} {record : LineRecord}
    (hmem : (offset, record) ∈ entries) : entries.lookup offset = some record := by
  induction entries with
  | nil => simp at hmem
  | cons entry rest ih =>
    rw [List.map_cons, List.pairwise_cons] at h
    rw [lookup_entry]
    rcases List.mem_cons.mp hmem with rfl | hmem
    · simp
    · have hlt := h.1 offset (List.mem_map.mpr ⟨_, hmem, rfl⟩)
      have hne : offset ≠ entry.1 := fun heq => by simp [heq] at hlt
      rw [if_neg hne]
      exact ih h.2 hmem

theorem mem_of_lookup {entries : List (Offset × LineRecord)} {offset : Offset}
    {record : LineRecord} (h : entries.lookup offset = some record) :
    (offset, record) ∈ entries := by
  induction entries with
  | nil => simp at h
  | cons entry rest ih =>
    rw [lookup_entry] at h
    by_cases heq : offset = entry.1
    · rw [if_pos heq] at h
      obtain rfl := Option.some.inj h
      simp [heq]
    · rw [if_neg heq] at h
      exact List.mem_cons_of_mem _ (ih h)

/-- What an initial record does not satisfy is satisfied by some line exactly if a line that is
listed satisfies it. -/
theorem Ascending.any_iff {records : LineRecords} (h : records.Ascending)
    {p : LineRecord → Bool} (hinitial : ∀ offset, p (.initial offset) = false) :
    records.any p = true ↔ ∃ offset, p (records.get offset) = true := by
  simp only [any, List.any_eq_true]
  constructor
  · rintro ⟨⟨offset, record⟩, hmem, hp⟩
    refine ⟨offset, ?_⟩
    rw [get, lookup_of_mem h hmem]
    exact hp
  · rintro ⟨offset, hp⟩
    cases hlookup : records.entries.lookup offset with
    | none => simp [get, hlookup, hinitial] at hp
    | some record =>
      refine ⟨(offset, record), mem_of_lookup hlookup, ?_⟩
      simpa [get, hlookup] using hp

theorem get_of_not_mem {records : LineRecords} {offset : Offset} (h : offset ∉ records.offsets) :
    records.get offset = .initial offset := by
  cases hlookup : records.entries.lookup offset with
  | none => simp [get, hlookup]
  | some record =>
    exact absurd (List.mem_map.mpr ⟨_, mem_of_lookup hlookup, rfl⟩) h

end LineRecords

end GpioLines
