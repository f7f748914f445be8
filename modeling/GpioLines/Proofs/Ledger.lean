import GpioLines.Proofs.Lease
import GpioLines.World.State

/-!
# Who holds what

Of all a world contains, four things decide who holds which handle: which chips are closed, the
slots of the lines, the open handles and the streams. They are its ledger. Most of what the library
does leaves the ledger alone, and each of the few steps that change it has one equation here.

The library finds out whether a handle is held by going over the records of all chips. That search
agrees with the ledger as long as the records of each chip are in order and no wait is under way
(`isHeld_iff`).
-/

namespace GpioLines

structure Ledger where
  /-- Whether a chip is closed, if there is one. -/
  closed? : ChipId → Option Bool
  slot : Line → Slot
  handles : Table Handle
  streams : Table HandleId

namespace Ledger

def Holds (ledger : Ledger) (line : Line) (id : HandleId) : Prop :=
  (ledger.slot line).handle? = some id

/-- A line or a stream refers to the handle. -/
def Held (ledger : Ledger) (id : HandleId) : Prop :=
  (∃ line, ledger.Holds line id) ∨ ∃ entry ∈ ledger.streams.entries, entry.2 = id

def leases (ledger : Ledger) : Multiset Lease :=
  (ledger.handles.entries.map fun entry => entry.2.lease : List Lease)

def withSlot (ledger : Ledger) (line : Line) (slot : Slot) : Ledger :=
  { ledger with slot := Function.update ledger.slot line slot }

theorem holds_withSlot {ledger : Ledger} {line other : Line} {slot : Slot} {id : HandleId} :
    (ledger.withSlot line slot).Holds other id ↔
      if other = line then slot.handle? = some id else ledger.Holds other id := by
  by_cases h : other = line <;> simp [Holds, withSlot, h]

theorem lease_mem {ledger : Ledger} (hordered : ledger.handles.Ascending) {id : HandleId}
    {handle : Handle} (hget : ledger.handles.get? id = some handle) :
    handle.lease ∈ ledger.leases :=
  Multiset.mem_coe.mpr (List.mem_map.mpr ⟨_, hordered.mem_entries_iff.mpr hget, rfl⟩)

theorem leases_add (ledger : Ledger) (handle : Handle) :
    { ledger with handles := ledger.handles.add handle }.leases = ledger.leases + {handle.lease} := by
  simp only [leases, Table.add, List.map_append, List.map_cons, List.map_nil,
    ← Multiset.coe_singleton, Multiset.coe_add]

end Ledger

namespace Table

variable {α : Type}

theorem Ascending.map_erase {β : Type} [DecidableEq β] {table : Table α} (h : table.Ascending)
    {key : Nat} {value : α} (hget : table.get? key = some value) (f : α → β) :
    (((table.erase key).entries.map fun entry => f entry.2 : List β) : Multiset β) =
      ((table.entries.map fun entry => f entry.2 : List β) : Multiset β).erase (f value) := by
  obtain ⟨before, after, hsplit⟩ := List.append_of_mem (h.mem_entries_iff.mpr hget)
  have hordered := h
  simp only [Ascending, hsplit, List.map_append, List.map_cons, List.pairwise_append,
    List.pairwise_cons, List.mem_cons] at hordered
  obtain ⟨-, ⟨hafter, -⟩, hbefore⟩ := hordered
  have hkeepBefore : before.filter (·.1 != key) = before := by
    apply List.filter_eq_self.mpr
    intro entry hentry
    have := hbefore entry.1 (List.mem_map.mpr ⟨_, hentry, rfl⟩) key (Or.inl rfl)
    simp only [bne_iff_ne, ne_eq]
    omega
  have hkeepAfter : after.filter (·.1 != key) = after := by
    apply List.filter_eq_self.mpr
    intro entry hentry
    have := hafter entry.1 (List.mem_map.mpr ⟨_, hentry, rfl⟩)
    simp only [bne_iff_ne, ne_eq]
    omega
  simp only [Table.erase, hsplit, List.filter_append, hkeepBefore, List.filter_cons, bne_self_eq_false,
    Bool.false_eq_true, if_false, hkeepAfter, List.map_append, List.map_cons]
  rw [← Multiset.coe_add, ← Multiset.coe_add, ← Multiset.cons_coe, Multiset.add_cons,
    Multiset.erase_cons_head]

end Table

namespace World

variable {σ : Type}

def ledger (world : World σ) : Ledger where
  closed? id := (world.chips[id]?).map (·.closed)
  slot := world.slot
  handles := world.handles
  streams := world.streams

theorem ledger_of_chips_eq {a b : World σ} (h : b.chips = a.chips) :
    b.ledger.closed? = a.ledger.closed? ∧ b.ledger.slot = a.ledger.slot := by
  constructor
  · funext id
    simp only [ledger, h]
  · funext line
    simp only [ledger, slot, record, h]

/-- The records of every chip are in order, and no wait is under way. -/
structure Tidy (world : World σ) : Prop where
  records : ∀ chip ∈ world.chips, chip.records.Ascending
  idle : world.waiting = []

theorem Tidy.congr {world after : World σ} (h : world.Tidy) (hchips : after.chips = world.chips)
    (hwaiting : after.waiting = world.waiting) : after.Tidy :=
  ⟨hchips ▸ h.records, hwaiting.trans h.idle⟩

/-! ### Changes of one line -/

theorem record_modifyLine (world : World σ) (line : Line) (f : LineRecord → LineRecord)
    (other : Line) :
    (world.modifyLine line f).record other =
      if other = line ∧ line.chip < world.chips.length then f (world.record line)
      else world.record other := by
  obtain ⟨chip, offset⟩ := line
  obtain ⟨otherChip, otherOffset⟩ := other
  simp only [record, modifyLine, List.getElem?_modify, Line.mk.injEq]
  by_cases hchip : otherChip = chip
  · subst hchip
    cases hget : world.chips[otherChip]? with
    | none =>
        have := List.getElem?_eq_none_iff.mp hget
        simp only [Option.map_eq_map, Option.map_none, Option.elim_none]
        rw [if_neg fun h => absurd h.2 (Nat.not_lt.mpr this)]
    | some found =>
        have hlt := (List.getElem?_eq_some_iff.mp hget).1
        simp [Chip.modifyLine, LineRecords.get_modify, hlt]
  · simp [hchip, Ne.symm hchip]

theorem closed?_modifyLine (world : World σ) (line : Line) (f : LineRecord → LineRecord) :
    (world.modifyLine line f).ledger.closed? = world.ledger.closed? := by
  funext id
  simp only [ledger, modifyLine, List.getElem?_modify]
  split <;> cases world.chips[id]? <;> rfl

theorem ledger_modifyLine (world : World σ) (line : Line) {f : LineRecord → LineRecord}
    (hf : ∀ record, (f record).slot = record.slot) :
    (world.modifyLine line f).ledger = world.ledger := by
  have hslot : (world.modifyLine line f).slot = world.slot := by
    funext other
    simp only [slot, record_modifyLine]
    split
    · next h => rw [hf, h.1]
    · rfl
  simp only [ledger, Ledger.mk.injEq, hslot]
  exact ⟨closed?_modifyLine world line f, trivial, rfl, rfl⟩

theorem slot_withSlot (world : World σ) (line : Line) (slot : Slot) (other : Line) :
    (world.modifyLine line (·.withSlot slot)).slot other =
      if other = line ∧ line.chip < world.chips.length then slot else world.slot other := by
  simp only [World.slot, record_modifyLine]
  split <;> rfl

theorem lt_length_of_closed? {world : World σ} {id : ChipId} {closed : Bool}
    (h : world.ledger.closed? id = some closed) : id < world.chips.length := by
  obtain ⟨chip, hget, -⟩ := Option.map_eq_some_iff.mp h
  exact (List.getElem?_eq_some_iff.mp hget).1

theorem ledger_attach {world : World σ} {line : Line} {closed : Bool}
    (h : world.ledger.closed? line.chip = some closed) (id : HandleId) (kind : HandleKind) :
    (world.attach line id kind).ledger = world.ledger.withSlot line (.holding id kind) := by
  have hslot : (world.attach line id kind).slot =
      Function.update world.slot line (.holding id kind) := by
    funext other
    simp only [attach, slot_withSlot, Function.update_apply, lt_length_of_closed? h, and_true]
  simp only [ledger, Ledger.withSlot, Ledger.mk.injEq, hslot]
  exact ⟨closed?_modifyLine .., trivial, rfl, rfl⟩

/-- A line whose chip does not exist is free, so freeing it changes nothing either. -/
theorem ledger_detach (world : World σ) (line : Line) :
    (world.detach line).2.ledger = world.ledger.withSlot line .free := by
  have hslot : (world.detach line).2.slot = Function.update world.slot line .free := by
    funext other
    simp only [detach, slot_withSlot, Function.update_apply]
    by_cases hother : other = line
    · subst hother
      by_cases hlt : other.chip < world.chips.length
      · simp [hlt]
      · simp [hlt, slot, record, LineRecord.initial]
    · simp [hother]
  simp only [ledger, Ledger.withSlot, Ledger.mk.injEq, hslot]
  exact ⟨closed?_modifyLine .., trivial, rfl, rfl⟩

theorem ledger_detachStale (world : World σ) (line : Line) :
    ((world.detach line).2.modifyLine line (·.stale)).ledger = world.ledger.withSlot line .free := by
  have hkeeps : ∀ record : LineRecord, record.stale.slot = record.slot := fun _ => rfl
  rw [ledger_modifyLine _ line hkeeps, ledger_detach]

theorem Tidy.modifyLine {world : World σ} (h : world.Tidy) (line : Line)
    (f : LineRecord → LineRecord) : (world.modifyLine line f).Tidy := by
  refine ⟨fun chip hmem => ?_, h.idle⟩
  obtain ⟨i, hget⟩ := List.mem_iff_getElem?.mp hmem
  simp only [World.modifyLine, List.getElem?_modify] at hget
  split at hget
  · obtain ⟨old, hold, rfl⟩ := Option.map_eq_some_iff.mp hget
    exact (h.records old (List.mem_of_getElem? hold)).modify line.offset f
  · simp only [Option.map_eq_map, Option.map_id_fun', id_eq] at hget
    exact h.records chip (List.mem_of_getElem? hget)

/-! ### Is a handle held? -/

theorem isHeld_iff {world : World σ} (h : world.Tidy) (id : HandleId) :
    world.isHeld id = true ↔ world.ledger.Held id := by
  have hinitial : ∀ offset, (LineRecord.initial offset).slot.handle? ≠ some id := by
    intro offset
    simp [LineRecord.initial, Slot.handle?]
  simp only [isHeld, h.idle, List.contains_nil, Bool.or_false, Bool.or_eq_true, List.any_eq_true,
    beq_iff_eq, Ledger.Held]
  refine or_congr ⟨?_, ?_⟩ Iff.rfl
  · rintro ⟨chip, hmem, hany⟩
    rw [(h.records chip hmem).any_iff (by simpa using hinitial)] at hany
    obtain ⟨offset, hoffset⟩ := hany
    obtain ⟨i, hget⟩ := List.mem_iff_getElem?.mp hmem
    refine ⟨⟨i, offset⟩, ?_⟩
    simpa [Ledger.Holds, ledger, slot, record, hget] using hoffset
  · rintro ⟨line, hholds⟩
    simp only [Ledger.Holds, ledger, slot, record] at hholds
    cases hget : world.chips[line.chip]? with
    | none => simp [hget, hinitial] at hholds
    | some chip =>
        have hmem := List.mem_of_getElem? hget
        refine ⟨chip, hmem, ?_⟩
        rw [(h.records chip hmem).any_iff (by simpa using hinitial)]
        exact ⟨line.offset, by simpa [hget] using hholds⟩

theorem dropHandle_of_held {world : World σ} [Machine σ] (h : world.Tidy) {id : HandleId}
    (hheld : world.ledger.Held id) : world.dropHandle id = world := by
  rw [dropHandle, if_pos ((isHeld_iff h id).mpr hheld)]

theorem dropHandle_of_not_held {world : World σ} [Machine σ] (h : world.Tidy) {id : HandleId}
    (hheld : ¬ world.ledger.Held id) : world.dropHandle id = world.closeHandle id := by
  rw [dropHandle, if_neg fun hany => hheld ((isHeld_iff h id).mp hany)]

end World

end GpioLines
