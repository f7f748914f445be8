import Mathlib.Logic.Relation
import GpioLines.Proofs.Soundness

/-!
# What an operation does, move by move

Every operation of the library is a chain of the moves below, whatever its machine answers. A move
says all that its effect depends on, so each invariant of the library is one case analysis of the
moves, and no operation is taken apart twice.

In the midst of an operation a handle may belong to nobody but the operation itself: it was just
granted and is not attached yet, or it was detached and is not dropped yet. Those references are the
`owned` ones, counted with repetition. No operation ends with any of them left.
-/

namespace GpioLines

/-- A world in the midst of an operation, with the handles that the operation owns. -/
structure Desk (σ : Type) where
  world : World σ
  owned : Multiset HandleId

/-- What an operation may take. The handles that it is granted have keys from `first` on. -/
structure Scope where
  first : HandleId
  lines : List Line := []
  grants : Handle → Prop := fun _ => False

variable {σ : Type}

section Moves

variable [Machine σ]

inductive Move (scope : Scope) : Desk σ → Desk σ → Prop
  | remark {world : World σ} {owned : Multiset HandleId} (log : Array Notice)
      (tokens : List Bool) : Move scope ⟨world, owned⟩ ⟨{ world with log, tokens }, owned⟩
  | read {world : World σ} {owned : Multiset HandleId} (file : FileId) (size : Nat) :
      Move scope ⟨world, owned⟩
        ⟨{ world with machine := (Machine.read file size world.machine).2 }, owned⟩
  | watch {world : World σ} {owned : Multiset HandleId} (file : FileId) :
      Move scope ⟨world, owned⟩
        ⟨{ world with machine := (Machine.watch file world.machine).2 }, owned⟩
  | unwatch {world : World σ} {owned : Multiset HandleId} (file : FileId) :
      Move scope ⟨world, owned⟩
        ⟨{ world with machine := Machine.unwatch file world.machine }, owned⟩
  /-- A call that is granted no file. -/
  | call {world : World σ} {owned : Multiset HandleId} {device : Device} {call : Call}
      (permitted : call.Permitted device world.ledger.leases)
      (ungranted : call.granted device (world.perform device call).1 = 0) :
      Move scope ⟨world, owned⟩ ⟨(world.perform device call).2, owned⟩
  /-- A call that is granted a file, which becomes a handle at once. -/
  | grant {world : World σ} {owned : Multiset HandleId} {device : Device} {call : Call}
      {handle : Handle} (permitted : call.Permitted device world.ledger.leases)
      (granted : call.granted device (world.perform device call).1 = {handle.lease})
      (valid : handle.Valid) (sought : scope.grants handle) :
      Move scope ⟨world, owned⟩
        ⟨(world.perform device call).2.openHandle handle, world.handles.next ::ₘ owned⟩
  /-- What is remembered of a handle changes. -/
  | retune {world : World σ} {owned : Multiset HandleId} {id : HandleId} {f : Handle → Handle}
      (valid : ∀ handle, world.handles.get? id = some handle →
        (f handle).SameGrant handle ∧ (f handle).Valid) :
      Move scope ⟨world, owned⟩ ⟨{ world with handles := world.handles.modify id f }, owned⟩
  /-- Something about a line changes, but not what it holds. -/
  | retouch {world : World σ} {owned : Multiset HandleId} (line : Line)
      {f : LineRecord → LineRecord} (keeps : ∀ record, (f record).slot = record.slot) :
      Move scope ⟨world, owned⟩ ⟨world.modifyLine line f, owned⟩
  | attach {world : World σ} {owned : Multiset HandleId} {line : Line} {id : HandleId}
      {handle : Handle} (owns : id ∈ owned) (taken : scope.first ≤ id) (asked : line ∈ scope.lines)
      (isOpen : world.ledger.closed? line.chip = some false)
      (free : world.slot line = .free) (found : world.handles.get? id = some handle)
      (listed : line.offset ∈ handle.offsets)
      (chip : ∀ other, world.ledger.Holds other id → other.chip = line.chip) :
      Move scope ⟨world, owned⟩ ⟨world.attach line id handle.kind, owned⟩
  | detach {world : World σ} {owned : Multiset HandleId} (line : Line) :
      Move scope ⟨world, owned⟩ ⟨(world.detach line).2, (world.detach line).1.toList + owned⟩
  /-- One of several references of the operation goes. -/
  | forget {world : World σ} {owned : Multiset HandleId} {id : HandleId}
      (again : id ∈ owned.erase id) : Move scope ⟨world, owned⟩ ⟨world, owned.erase id⟩
  /-- The last reference of the operation goes. -/
  | drop {world : World σ} {owned : Multiset HandleId} {id : HandleId} (owns : id ∈ owned)
      (last : id ∉ owned.erase id) :
      Move scope ⟨world, owned⟩ ⟨world.dropHandle id, owned.erase id⟩
  | openStream {world : World σ} {owned : Multiset HandleId} {id : HandleId} {handle : Handle}
      (found : world.handles.get? id = some handle) (kind : handle.kind = .events) :
      Move scope ⟨world, owned⟩ ⟨{ world with streams := world.streams.add id }, owned⟩
  | closeStream {world : World σ} {owned : Multiset HandleId} {stream : StreamId} {id : HandleId}
      (found : world.streams.get? stream = some id) :
      Move scope ⟨world, owned⟩
        ⟨{ world with streams := world.streams.erase stream }, id ::ₘ owned⟩
  | openChip {world : World σ} {owned : Multiset HandleId} (device : Device) (info : ChipInfo) :
      Move scope ⟨world, owned⟩
        ⟨{ world with chips := world.chips ++ [Chip.ofInfo device info] }, owned⟩

abbrev Moves (scope : Scope) (before after : Desk σ) : Prop :=
  Relation.ReflTransGen (Move scope) before after

end Moves

/-! ### Nothing dangles and nothing leaks -/

structure Desk.Sound (desk : Desk σ) : Prop where
  tidy : desk.world.Tidy
  ledger : desk.world.ledger.Sound
  owned_open : ∀ id ∈ desk.owned, ∃ handle, desk.world.handles.get? id = some handle
  /-- Every open handle has an owner. -/
  kept : ∀ id handle, desk.world.handles.get? id = some handle →
    desk.world.ledger.Held id ∨ id ∈ desk.owned

namespace World

theorem slot_openChip (world : World σ) (device : Device) (info : ChipInfo) :
    { world with chips := world.chips ++ [Chip.ofInfo device info] }.slot = world.slot := by
  funext line
  simp only [slot, record, List.getElem?_append]
  by_cases hlt : line.chip < world.chips.length
  · simp [hlt]
  · have hnone : world.chips[line.chip]? = none := List.getElem?_eq_none_iff.mpr (Nat.not_lt.mp hlt)
    rw [if_neg hlt, hnone]
    cases hget : [Chip.ofInfo device info][line.chip - world.chips.length]? with
    | none => rfl
    | some chip =>
        have hmem := List.mem_of_getElem? hget
        rw [List.mem_singleton] at hmem
        subst hmem
        rfl

theorem ledger_openChip (world : World σ) (device : Device) (info : ChipInfo) :
    ∃ closed?, { world with chips := world.chips ++ [Chip.ofInfo device info] }.ledger =
      { world.ledger with closed? } := by
  refine ⟨({ world with chips := world.chips ++ [Chip.ofInfo device info] } : World σ).ledger.closed?,
    ?_⟩
  rw [ledger, slot_openChip]
  rfl

end World

namespace Desk.Sound

variable {world : World σ} {owned : Multiset HandleId}

theorem lease_mem (h : Desk.Sound ⟨world, owned⟩) {id : HandleId} {handle : Handle}
    (hfound : world.handles.get? id = some handle) : handle.lease ∈ world.ledger.leases :=
  Ledger.lease_mem h.ledger.handles_ascending hfound

theorem retune (h : Desk.Sound ⟨world, owned⟩) {id : HandleId} {f : Handle → Handle}
    (hf : ∀ handle, world.handles.get? id = some handle →
      (f handle).SameGrant handle ∧ (f handle).Valid) :
    Desk.Sound ⟨{ world with handles := world.handles.modify id f }, owned⟩ := by
  refine
    { tidy := h.tidy.congr rfl rfl
      ledger := h.ledger.modifyHandle hf
      owned_open := ?_
      kept := ?_ }
  · intro key hkey
    obtain ⟨old, hold⟩ := h.owned_open key hkey
    simp only [Table.get?_modify]
    split
    · exact ⟨f old, by rw [hold]; rfl⟩
    · exact ⟨old, hold⟩
  · intro key found hget
    simp only [Table.get?_modify] at hget
    split at hget
    · obtain ⟨old, hold, -⟩ := Option.map_eq_some_iff.mp hget
      exact h.kept key old hold
    · exact h.kept key found hget

theorem attach (h : Desk.Sound ⟨world, owned⟩) {line : Line} {id : HandleId} {handle : Handle}
    (hopen : world.ledger.closed? line.chip = some false) (hfree : world.slot line = .free)
    (hget : world.handles.get? id = some handle) (hmem : line.offset ∈ handle.offsets)
    (hchip : ∀ other, world.ledger.Holds other id → other.chip = line.chip) :
    Desk.Sound ⟨world.attach line id handle.kind, owned⟩ := by
  have hledger := world.ledger_attach hopen id handle.kind
  refine
    { tidy := h.tidy.modifyLine line _
      ledger := by rw [hledger]; exact h.ledger.attach hget hmem hchip
      owned_open := h.owned_open
      kept := ?_ }
  intro key found hkey
  apply (h.kept key found hkey).imp_left
  rintro (⟨other, hholds⟩ | hstream)
  · refine Or.inl ⟨other, ?_⟩
    rw [hledger, Ledger.holds_withSlot, if_neg]
    · exact hholds
    · rintro rfl
      have hslot : world.ledger.slot other = .free := hfree
      rw [Ledger.Holds, hslot] at hholds
      cases hholds
  · exact Or.inr (by rw [hledger]; exact hstream)

theorem detach (h : Desk.Sound ⟨world, owned⟩) (line : Line) :
    Desk.Sound ⟨(world.detach line).2, (world.detach line).1.toList + owned⟩ := by
  have hledger := world.ledger_detach line
  have hheld : ∀ id, id ∈ (world.detach line).1.toList ↔ world.ledger.Holds line id := by
    intro id
    rw [Option.mem_toList]
    rfl
  refine
    { tidy := h.tidy.modifyLine line _
      ledger := by rw [hledger]; exact h.ledger.free line
      owned_open := ?_
      kept := ?_ }
  · intro id hid
    rcases Multiset.mem_add.mp hid with hid | hid
    · exact h.ledger.held_open (Or.inl ⟨line, (hheld id).mp (Multiset.mem_coe.mp hid)⟩)
    · exact h.owned_open id hid
  · intro id found hget
    rcases h.kept id found hget with (⟨other, hholds⟩ | hstream) | howned
    · by_cases hother : other = line
      · subst hother
        exact Or.inr (Multiset.mem_add.mpr (Or.inl (Multiset.mem_coe.mpr ((hheld id).mpr hholds))))
      · refine Or.inl (Or.inl ⟨other, ?_⟩)
        rw [hledger, Ledger.holds_withSlot, if_neg hother]
        exact hholds
    · exact Or.inl (Or.inr (by rw [hledger]; exact hstream))
    · exact Or.inr (Multiset.mem_add.mpr (Or.inr howned))

theorem forget (h : Desk.Sound ⟨world, owned⟩) {id : HandleId} (hagain : id ∈ owned.erase id) :
    Desk.Sound ⟨world, owned.erase id⟩ := by
  refine
    { tidy := h.tidy.congr rfl rfl
      ledger := h.ledger
      owned_open := fun key hkey => h.owned_open key (Multiset.mem_of_mem_erase hkey)
      kept := ?_ }
  intro key found hget
  refine (h.kept key found hget).imp_right fun howned => ?_
  by_cases hkey : key = id
  · exact hkey ▸ hagain
  · exact (Multiset.mem_erase_of_ne hkey).mpr howned

theorem openStream (h : Desk.Sound ⟨world, owned⟩) {id : HandleId} {handle : Handle}
    (hget : world.handles.get? id = some handle) (hkind : handle.kind = .events) :
    Desk.Sound ⟨{ world with streams := world.streams.add id }, owned⟩ := by
  refine
    { tidy := h.tidy.congr rfl rfl
      ledger := h.ledger.addStream hget hkind
      owned_open := h.owned_open
      kept := ?_ }
  intro key found hkey
  apply (h.kept key found hkey).imp_left
  rintro (hline | ⟨entry, hentry, hid⟩)
  · exact Or.inl hline
  · exact Or.inr ⟨entry, List.mem_append_left _ hentry, hid⟩

theorem closeStream (h : Desk.Sound ⟨world, owned⟩) {stream : StreamId} {id : HandleId}
    (hget : world.streams.get? stream = some id) :
    Desk.Sound ⟨{ world with streams := world.streams.erase stream }, id ::ₘ owned⟩ := by
  have hentry : (stream, id) ∈ world.streams.entries :=
    h.ledger.streams_ascending.mem_entries_iff.mpr hget
  refine
    { tidy := h.tidy.congr rfl rfl
      ledger := h.ledger.eraseStream stream
      owned_open := ?_
      kept := ?_ }
  · intro key hkey
    rcases Multiset.mem_cons.mp hkey with rfl | hkey
    · obtain ⟨handle, hhandle, -⟩ := h.ledger.stream_open _ hentry
      exact ⟨handle, hhandle⟩
    · exact h.owned_open key hkey
  · intro key found hfound
    rcases h.kept key found hfound with (hline | ⟨⟨other, held⟩, hother, rfl⟩) | howned
    · exact Or.inl (Or.inl hline)
    · by_cases hstream : other = stream
      · -- keys occur once, so this is the entry that goes
        subst hstream
        have hsame := h.ledger.streams_ascending.mem_entries_iff.mp hother
        obtain rfl := Option.mem_unique hget hsame
        exact Or.inr (Multiset.mem_cons_self _ _)
      · refine Or.inl (Or.inr ⟨(other, held), ?_, rfl⟩)
        exact List.mem_filter.mpr ⟨hother, by simpa using hstream⟩
    · exact Or.inr (Multiset.mem_cons_of_mem howned)

/-- Whether a chip is closed has no part in what is sound. -/
theorem of_ledger_eq {after : World σ} (h : Desk.Sound ⟨world, owned⟩) (htidy : after.Tidy)
    {closed? : ChipId → Option Bool} (hledger : after.ledger = { world.ledger with closed? }) :
    Desk.Sound ⟨after, owned⟩ := by
  have hhandles : after.handles = world.handles := congrArg Ledger.handles hledger
  refine
    { tidy := htidy
      ledger := ?_
      owned_open := by rw [hhandles]; exact h.owned_open
      kept := by rw [hhandles, hledger]; exact h.kept }
  rw [hledger]
  exact { h.ledger with }

end Desk.Sound

/-! ### Moves that a machine takes part in -/

variable [Machine σ]

namespace World

theorem closeHandle_eq {world : World σ} {id : HandleId} {handle : Handle}
    (hget : world.handles.get? id = some handle) :
    world.closeHandle id =
      { world with
        machine := Machine.release handle.device handle.file world.machine
        handles := world.handles.erase id
        log := world.log.push (.closingHandle handle) } := by
  rw [closeHandle, hget]
  rfl

theorem ledger_closeHandle (world : World σ) (id : HandleId) {handle : Handle}
    (hget : world.handles.get? id = some handle) :
    (world.closeHandle id).ledger =
      { world.ledger with handles := world.handles.erase id } := by
  rw [closeHandle_eq hget]
  rfl

theorem chips_closeHandle (world : World σ) (id : HandleId) :
    (world.closeHandle id).chips = world.chips := by
  unfold closeHandle
  split <;> rfl

theorem Tidy.closeHandle {world : World σ} (h : world.Tidy) (id : HandleId) :
    (world.closeHandle id).Tidy := by
  refine h.congr (world.chips_closeHandle id) ?_
  unfold World.closeHandle
  split <;> rfl

theorem chips_dropHandle (world : World σ) (id : HandleId) :
    (world.dropHandle id).chips = world.chips := by
  unfold dropHandle
  split
  · rfl
  · exact world.chips_closeHandle id

end World

namespace Desk.Sound

variable {world : World σ} {owned : Multiset HandleId}

theorem grant (h : Desk.Sound ⟨world, owned⟩) {device : Device} {call : Call} {handle : Handle}
    (hvalid : handle.Valid) :
    Desk.Sound ⟨(world.perform device call).2.openHandle handle, world.handles.next ::ₘ owned⟩ := by
  have hfresh : world.handles.Fresh := h.ledger.handles_fresh
  refine
    { tidy := h.tidy.congr rfl rfl
      ledger := h.ledger.addHandle hvalid
      owned_open := ?_
      kept := ?_ }
  · intro id hid
    rcases Multiset.mem_cons.mp hid with rfl | hid
    · exact ⟨handle, (Table.get?_add hfresh handle _).trans (if_pos rfl)⟩
    · obtain ⟨old, hold⟩ := h.owned_open id hid
      have := Table.get?_lt hfresh hold
      exact ⟨old, (Table.get?_add hfresh handle id).trans ((if_neg (by omega)).trans hold)⟩
  · intro id found hget
    have hget : (world.handles.add handle).get? id = some found := hget
    rw [Table.get?_add hfresh] at hget
    split at hget
    · next heq => exact Or.inr (Multiset.mem_cons.mpr (Or.inl heq))
    · rcases h.kept id found hget with hheld | howned
      · exact Or.inl hheld
      · exact Or.inr (Multiset.mem_cons_of_mem howned)

theorem drop (h : Desk.Sound ⟨world, owned⟩) {id : HandleId} (howns : id ∈ owned)
    (hlast : id ∉ owned.erase id) : Desk.Sound ⟨world.dropHandle id, owned.erase id⟩ := by
  have hkeep : ∀ key ≠ id, key ∈ owned → key ∈ owned.erase id := fun key hkey howned =>
    (Multiset.mem_erase_of_ne hkey).mpr howned
  by_cases hheld : world.ledger.Held id
  · rw [World.dropHandle_of_held h.tidy hheld]
    refine
      { tidy := h.tidy
        ledger := h.ledger
        owned_open := fun key hkey => h.owned_open key (Multiset.mem_of_mem_erase hkey)
        kept := ?_ }
    intro key found hget
    by_cases hkey : key = id
    · exact Or.inl (hkey ▸ hheld)
    · exact (h.kept key found hget).imp_right (hkeep key hkey)
  · rw [World.dropHandle_of_not_held h.tidy hheld]
    obtain ⟨handle, hhandle⟩ := h.owned_open id howns
    have hledger := world.ledger_closeHandle id hhandle
    have hhandles : (world.closeHandle id).handles = world.handles.erase id :=
      congrArg Ledger.handles hledger
    refine
      { tidy := h.tidy.closeHandle id
        ledger := by rw [hledger]; exact h.ledger.eraseHandle hheld
        owned_open := ?_
        kept := ?_ }
    · intro key hkey
      have hne : key ≠ id := by
        rintro rfl
        exact hlast hkey
      obtain ⟨old, hold⟩ := h.owned_open key (Multiset.mem_of_mem_erase hkey)
      exact ⟨old, by simp only [hhandles, Table.get?_erase, if_neg hne, hold]⟩
    · intro key found hget
      simp only [hhandles, Table.get?_erase] at hget
      split at hget
      · cases hget
      · next hkey =>
        refine (h.kept key found hget).imp ?_ (hkeep key hkey)
        intro hkept
        rw [hledger]
        exact hkept

end Desk.Sound

/-- **One move keeps a desk sound.** -/
theorem Move.sound {scope : Scope} {before after : Desk σ} (hmove : Move scope before after)
    (h : before.Sound) : after.Sound := by
  cases hmove with
  | remark | read | watch | unwatch | call =>
      exact ⟨h.tidy.congr rfl rfl, h.ledger, h.owned_open, h.kept⟩
  | grant _ _ hvalid _ => exact h.grant hvalid
  | retune hvalid => exact h.retune hvalid
  | @retouch world _ line _ hkeeps =>
      have hledger := world.ledger_modifyLine line hkeeps
      refine ⟨h.tidy.modifyLine line _, ?_, h.owned_open, ?_⟩
      · rw [hledger]
        exact h.ledger
      · rw [hledger]
        exact h.kept
  | attach _ _ _ hopen hfree hget hmem hchip => exact h.attach hopen hfree hget hmem hchip
  | detach line => exact h.detach line
  | forget hagain => exact h.forget hagain
  | drop howns hlast => exact h.drop howns hlast
  | openStream hget hkind => exact h.openStream hget hkind
  | closeStream hget => exact h.closeStream hget
  | @openChip world _ device info =>
      obtain ⟨_, hledger⟩ := world.ledger_openChip device info
      refine h.of_ledger_eq ⟨fun chip hmem => ?_, h.tidy.idle⟩ hledger
      rcases List.mem_append.mp hmem with hmem | hmem
      · exact h.tidy.records chip hmem
      · rw [List.mem_singleton] at hmem
        exact hmem ▸ LineRecords.ascending_empty

theorem Moves.sound {scope : Scope} {before after : Desk σ} (hmoves : Moves scope before after)
    (h : before.Sound) : after.Sound := by
  induction hmoves with
  | refl => exact h
  | tail _ hmove ih => exact hmove.sound ih

end GpioLines
