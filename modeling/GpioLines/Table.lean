/-!
# Tables with keys that are never used again

Open files, handles and streams are entries of a table. A new entry takes the next key, and an
erased key stays unused, so a key that outlives its entry finds nothing instead of a stranger.
-/

namespace GpioLines

structure Table (α : Type) where
  next : Nat
  entries : List (Nat × α)

namespace Table

variable {α : Type}

def empty : Table α := ⟨0, []⟩

def get? (table : Table α) (key : Nat) : Option α :=
  (table.entries.find? (·.1 == key)).map (·.2)

def contains (table : Table α) (key : Nat) : Bool := (table.get? key).isSome

/-- Adds an entry under the key `table.next`. -/
def add (table : Table α) (value : α) : Table α :=
  ⟨table.next + 1, table.entries ++ [(table.next, value)]⟩

def modify (table : Table α) (key : Nat) (f : α → α) : Table α :=
  { table with
    entries := table.entries.map fun entry =>
      if entry.1 == key then (entry.1, f entry.2) else entry }

def erase (table : Table α) (key : Nat) : Table α :=
  { table with entries := table.entries.filter (·.1 != key) }

def values (table : Table α) : List α := table.entries.map (·.2)

/-- Every key in use is older than the next one. -/
def Fresh (table : Table α) : Prop := ∀ entry ∈ table.entries, entry.1 < table.next

@[simp] theorem get?_empty (key : Nat) : (empty : Table α).get? key = none := rfl

theorem fresh_empty : (empty : Table α).Fresh := by simp [Fresh, empty]

theorem Fresh.get?_next {table : Table α} (h : table.Fresh) : table.get? table.next = none := by
  simp only [get?, Option.map_eq_none_iff, List.find?_eq_none]
  intro entry hmem
  have := h entry hmem
  simp only [beq_iff_eq]
  omega

theorem Fresh.add {table : Table α} (h : table.Fresh) (value : α) : (table.add value).Fresh := by
  intro entry hmem
  simp only [Table.add, List.mem_append, List.mem_singleton] at hmem ⊢
  rcases hmem with hmem | rfl
  · have := h entry hmem
    omega
  · exact Nat.lt_succ_self _

theorem Fresh.modify {table : Table α} (h : table.Fresh) (key : Nat) (f : α → α) :
    (table.modify key f).Fresh := by
  intro entry hmem
  simp only [Table.modify, List.mem_map] at hmem ⊢
  obtain ⟨old, hold, rfl⟩ := hmem
  have := h old hold
  split <;> exact this

theorem Fresh.erase {table : Table α} (h : table.Fresh) (key : Nat) : (table.erase key).Fresh :=
  fun entry hmem => h entry (List.mem_filter.mp hmem).1

theorem get?_add {table : Table α} (h : table.Fresh) (value : α) (key : Nat) :
    (table.add value).get? key = if key = table.next then some value else table.get? key := by
  by_cases hkey : key = table.next
  · subst hkey
    have hnone : table.entries.find? (·.1 == table.next) = none := by
      simpa [get?] using h.get?_next
    simp [get?, add, List.find?_append, hnone]
  · have : (table.next == key) = false := by simpa using Ne.symm hkey
    simp [get?, add, List.find?_append, this, hkey]

theorem get?_modify (table : Table α) (key : Nat) (f : α → α) (other : Nat) :
    (table.modify key f).get? other =
      if other = key then (table.get? other).map f else table.get? other := by
  have hkeys : ((fun entry : Nat × α => entry.1 == other) ∘ fun entry =>
      if entry.1 == key then (entry.1, f entry.2) else entry) = fun entry => entry.1 == other := by
    funext entry
    simp only [Function.comp]
    split <;> rfl
  simp only [get?, modify, List.find?_map, hkeys]
  cases hfind : table.entries.find? (fun entry => entry.1 == other) with
  | none => simp
  | some entry =>
    have hentry : entry.1 = other := by simpa using List.find?_some hfind
    by_cases h : other = key <;> simp [hentry, h]

theorem get?_erase (table : Table α) (key other : Nat) :
    (table.erase key).get? other = if other = key then none else table.get? other := by
  simp only [get?, erase, List.find?_filter]
  by_cases h : other = key
  · subst h
    simp
  · have : (fun entry : Nat × α => decide (entry.1 ≠ key ∧ entry.1 = other)) =
        fun entry => entry.1 == other := by
      funext entry
      by_cases ho : entry.1 = other
      · subst ho; simp [h]
      · simp [ho]
    simp_all

/-! ### Every key once -/

/-- The keys ascend in the order of the entries, so none occurs twice. -/
def Ascending (table : Table α) : Prop := (table.entries.map (·.1)).Pairwise (· < ·)

theorem ascending_empty : (empty : Table α).Ascending := .nil

theorem Ascending.add {table : Table α} (h : table.Ascending) (hfresh : table.Fresh) (value : α) :
    (table.add value).Ascending := by
  simp only [Ascending, Table.add, List.map_append, List.map_cons, List.map_nil,
    List.pairwise_append, List.pairwise_singleton, List.mem_singleton, true_and]
  refine ⟨h, fun key hkey next hnext => ?_⟩
  obtain ⟨entry, hentry, rfl⟩ := List.mem_map.mp hkey
  exact hnext ▸ hfresh entry hentry

theorem Ascending.modify {table : Table α} (h : table.Ascending) (key : Nat) (f : α → α) :
    (table.modify key f).Ascending := by
  have hkeys : ((table.modify key f).entries.map (·.1)) = table.entries.map (·.1) := by
    simp only [Table.modify, List.map_map]
    refine List.map_congr_left fun entry _ => ?_
    simp only [Function.comp]
    split <;> rfl
  rw [Ascending, hkeys]
  exact h

theorem Ascending.erase {table : Table α} (h : table.Ascending) (key : Nat) :
    (table.erase key).Ascending :=
  h.sublist (List.filter_sublist.map _)

theorem Ascending.mem_entries_iff {table : Table α} (h : table.Ascending) {key : Nat} {value : α} :
    (key, value) ∈ table.entries ↔ table.get? key = some value := by
  obtain ⟨next, entries⟩ := table
  simp only [Ascending] at h
  simp only [get?]
  induction entries with
  | nil => simp
  | cons entry rest ih =>
    rw [List.map_cons, List.pairwise_cons] at h
    have hrest := ih h.2
    by_cases hkey : entry.1 = key
    · have hnot : (key, value) ∉ rest := by
        intro hmem
        have := h.1 key (List.mem_map.mpr ⟨_, hmem, rfl⟩)
        omega
      obtain ⟨first, found⟩ := entry
      simp only at hkey
      simp [hkey, hnot, eq_comm]
    · have hne : (key, value) ≠ entry := by
        rintro rfl
        exact hkey rfl
      rw [List.find?_cons_of_neg (by simpa using hkey), List.mem_cons, ← hrest]
      simp [hne]

theorem get?_lt {table : Table α} (h : table.Fresh) {key : Nat} {value : α}
    (hget : table.get? key = some value) : key < table.next := by
  obtain ⟨entry, hfind, -⟩ := Option.map_eq_some_iff.mp hget
  have hkey : entry.1 = key := by simpa using List.find?_some hfind
  exact hkey ▸ h entry (List.mem_of_find?_eq_some hfind)

/-! ### Several entries -/

/-- Adds entries under the next keys, in order. -/
def addAll (table : Table α) (values : List α) : Table α := values.foldl add table

theorem addAll_cons (table : Table α) (value : α) (rest : List α) :
    table.addAll (value :: rest) = (table.add value).addAll rest := rfl

/-- What was there stays, and the new entries are found under the keys from `table.next` on. -/
theorem get?_addAll {table : Table α} (h : table.Fresh) (values : List α) (key : Nat) :
    (table.addAll values).get? key =
      if key < table.next then table.get? key else values[key - table.next]? := by
  induction values generalizing table with
  | nil =>
    split
    · rfl
    · next hlt =>
      cases hget : table.get? key with
      | none => simp [addAll, hget]
      | some value => exact absurd (get?_lt h hget) hlt
  | cons value rest ih =>
    rw [addAll_cons, ih (h.add value), get?_add h]
    have hnext : (table.add value).next = table.next + 1 := rfl
    rw [hnext]
    rcases Nat.lt_trichotomy key table.next with hlt | rfl | hgt
    · rw [if_pos (by omega), if_neg (by omega), if_pos hlt]
    · simp
    · rw [if_neg (by omega), if_neg (by omega)]
      obtain ⟨index, rfl⟩ : ∃ index, key = table.next + 1 + index := ⟨key - (table.next + 1), by omega⟩
      have hindex : table.next + 1 + index - table.next = index + 1 := by omega
      rw [hindex, List.getElem?_cons_succ, Nat.add_sub_cancel_left]

theorem map_get?_addAll {table : Table α} (h : table.Fresh) (values : List α) :
    (List.range' table.next values.length).map (table.addAll values).get? = values.map some := by
  refine List.ext_getElem? fun index => ?_
  rw [List.getElem?_map, List.getElem?_map]
  by_cases hlt : index < values.length
  · rw [List.getElem?_range' hlt, List.getElem?_eq_getElem hlt, Nat.one_mul, Option.map_some,
      get?_addAll h, if_neg (by omega), Nat.add_sub_cancel_left, List.getElem?_eq_getElem hlt]
    rfl
  · rw [List.getElem?_eq_none (by simpa using hlt), List.getElem?_eq_none (Nat.not_lt.mp hlt)]
    rfl

theorem Ascending.addAll {table : Table α} (h : table.Ascending) (hfresh : table.Fresh)
    (values : List α) : (table.addAll values).Ascending := by
  induction values generalizing table with
  | nil => exact h
  | cons value rest ih => exact ih (h.add hfresh value) (hfresh.add value)

def eraseAll (table : Table α) (keys : List Nat) : Table α := keys.foldl erase table

theorem eraseAll_cons (table : Table α) (key : Nat) (rest : List Nat) :
    table.eraseAll (key :: rest) = (table.erase key).eraseAll rest := rfl

theorem get?_eraseAll (table : Table α) (keys : List Nat) (key : Nat) :
    (table.eraseAll keys).get? key = if key ∈ keys then none else table.get? key := by
  induction keys generalizing table with
  | nil => simp [eraseAll]
  | cons first rest ih =>
    rw [eraseAll_cons, ih, get?_erase]
    by_cases hrest : key ∈ rest
    · rw [if_pos hrest, if_pos (List.mem_cons_of_mem _ hrest)]
    · simp only [hrest, if_false, List.mem_cons, or_false]

theorem Ascending.eraseAll {table : Table α} (h : table.Ascending) (keys : List Nat) :
    (table.eraseAll keys).Ascending := by
  induction keys generalizing table with
  | nil => exact h
  | cons key rest ih => exact ih (h.erase key)

/-- Tables with keys in order that find the same have the same entries. -/
theorem Ascending.entries_eq {a b : Table α} (ha : a.Ascending) (hb : b.Ascending)
    (h : ∀ key, a.get? key = b.get? key) : a.entries = b.entries := by
  have hmem : ∀ entry, entry ∈ a.entries ↔ entry ∈ b.entries := by
    rintro ⟨key, value⟩
    rw [ha.mem_entries_iff, hb.mem_entries_iff, h]
  have hpairwise : ∀ {table : Table α}, table.Ascending →
      table.entries.Pairwise fun x y => x.1 < y.1 := fun h => List.pairwise_map.mp h
  have hnodup : ∀ {table : Table α}, table.Ascending → table.entries.Nodup := fun h =>
    (hpairwise h).imp fun hlt heq => by simp [heq] at hlt
  have hperm := (List.perm_ext_iff_of_nodup (hnodup ha) (hnodup hb)).mpr hmem
  refine hperm.eq_of_pairwise (fun x y _ _ hxy hyx => ?_) (hpairwise ha) (hpairwise hb)
  omega

end Table

end GpioLines
