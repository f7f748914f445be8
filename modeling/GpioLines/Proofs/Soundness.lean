import GpioLines.Proofs.Ledger

/-!
# Sound ledgers

A ledger is sound if every reference in it makes sense: a line refers to an open handle of the right
kind that lists the line, the lines of one handle are on one chip, a stream refers to an open events
handle, and what is remembered of a handle fits its lines. That a handle of events is held by one
line only needs no clause of its own: it lists one offset, and its holders are on one chip
(`Sound.line_eq`).
-/

namespace GpioLines

/-- What the library remembers of a handle fits the lines of its request. -/
structure Handle.Valid (handle : Handle) : Prop where
  nodup : handle.offsets.Nodup
  pos : 0 < handle.offsets.length
  size_le : handle.offsets.length ≤ maxLines
  known : handle.flags.unknown = 0
  single : handle.kind = .events → handle.offsets.length = 1
  values_length : handle.kind = .values → handle.values.length = handle.offsets.length
  bits : ∀ value ∈ handle.values, IsBit value

theorem Handle.Valid.driven {handle : Handle} {values : List UInt8} (h : handle.Valid)
    (hlength : values.length = handle.offsets.length) (hbits : ∀ value ∈ values, IsBit value) :
    (handle.driven values).Valid :=
  { nodup := h.nodup
    pos := h.pos
    size_le := h.size_le
    known := h.known
    single := h.single
    values_length := fun _ => hlength
    bits := hbits }

theorem Handle.Valid.configured {handle : Handle} {flags : HandleFlags} {values : List UInt8}
    (h : handle.Valid) (hunknown : flags.unknown = 0)
    (hlength : values.length = handle.offsets.length) (hbits : ∀ value ∈ values, IsBit value) :
    (handle.configured flags values).Valid := by
  have hvalues : (handle.configured flags values).values = values ∨
      (handle.configured flags values).values = handle.values := by
    simp only [Handle.configured]
    split
    · exact Or.inl rfl
    · exact Or.inr rfl
  refine
    { nodup := h.nodup
      pos := h.pos
      size_le := h.size_le
      known := hunknown
      single := h.single
      values_length := ?_
      bits := ?_ }
  · intro hkind
    rcases hvalues with heq | heq
    · rw [heq]
      exact hlength
    · rw [heq]
      exact h.values_length hkind
  · rcases hvalues with heq | heq
    · rw [heq]
      exact hbits
    · rw [heq]
      exact h.bits

/-- What a handle never changes: its kind, its file and its lines. -/
def Handle.SameGrant (a b : Handle) : Prop :=
  a.kind = b.kind ∧ a.device = b.device ∧ a.file = b.file ∧ a.offsets = b.offsets

namespace Handle.SameGrant

theorem refl (a : Handle) : a.SameGrant a := ⟨rfl, rfl, rfl, rfl⟩

theorem trans {a b c : Handle} (hab : a.SameGrant b) (hbc : b.SameGrant c) : a.SameGrant c :=
  ⟨hab.1.trans hbc.1, hab.2.1.trans hbc.2.1, hab.2.2.1.trans hbc.2.2.1,
    hab.2.2.2.trans hbc.2.2.2⟩

theorem lease_eq {a b : Handle} (h : a.SameGrant b) : a.lease = b.lease := by
  obtain ⟨-, hdevice, hfile, hoffsets⟩ := h
  simp only [lease, hdevice, hfile, hoffsets]

end Handle.SameGrant

theorem Slot.handle?_holding (id : HandleId) (kind : HandleKind) :
    (Slot.holding id kind).handle? = some id := by
  cases kind <;> rfl

theorem Slot.holding_ne_free (id : HandleId) (kind : HandleKind) : Slot.holding id kind ≠ .free := by
  cases kind <;> nofun

namespace Ledger

structure Sound (ledger : Ledger) : Prop where
  handles_fresh : ledger.handles.Fresh
  handles_ascending : ledger.handles.Ascending
  streams_fresh : ledger.streams.Fresh
  streams_ascending : ledger.streams.Ascending
  slot_open : ∀ line id, ledger.Holds line id → ∃ handle, ledger.handles.get? id = some handle ∧
    ledger.slot line = .holding id handle.kind ∧ line.offset ∈ handle.offsets
  one_chip : ∀ a b id, ledger.Holds a id → ledger.Holds b id → a.chip = b.chip
  stream_open : ∀ entry ∈ ledger.streams.entries, ∃ handle,
    ledger.handles.get? entry.2 = some handle ∧ handle.kind = .events
  valid : ∀ id handle, ledger.handles.get? id = some handle → handle.Valid

variable {ledger : Ledger}

theorem Sound.line_eq (h : ledger.Sound) {a b : Line} {id : HandleId} {handle : Handle}
    (hget : ledger.handles.get? id = some handle) (hkind : handle.kind = .events)
    (ha : ledger.Holds a id) (hb : ledger.Holds b id) : a = b := by
  obtain ⟨other, hother, -, hmema⟩ := h.slot_open a id ha
  obtain rfl := Option.mem_unique hget hother
  obtain ⟨other, hother, -, hmemb⟩ := h.slot_open b id hb
  obtain rfl := Option.mem_unique hget hother
  obtain ⟨offset, hoffsets⟩ := List.length_eq_one_iff.mp ((h.valid id handle hget).single hkind)
  rw [hoffsets, List.mem_singleton] at hmema hmemb
  have hchip := h.one_chip a b id ha hb
  obtain ⟨chipA, offsetA⟩ := a
  obtain ⟨chipB, offsetB⟩ := b
  simp_all

theorem Sound.held_open (h : ledger.Sound) {id : HandleId} (hheld : ledger.Held id) :
    ∃ handle, ledger.handles.get? id = some handle := by
  rcases hheld with ⟨line, hholds⟩ | ⟨entry, hentry, rfl⟩
  · obtain ⟨handle, hget, -⟩ := h.slot_open line id hholds
    exact ⟨handle, hget⟩
  · obtain ⟨handle, hget, -⟩ := h.stream_open entry hentry
    exact ⟨handle, hget⟩

/-! ### Handles come and go -/

theorem Sound.not_held_next (h : ledger.Sound) : ¬ ledger.Held ledger.handles.next := by
  intro hheld
  obtain ⟨handle, hget⟩ := h.held_open hheld
  have := Table.get?_lt h.handles_fresh hget
  omega

theorem Sound.addHandle (h : ledger.Sound) {handle : Handle} (hvalid : handle.Valid) :
    { ledger with handles := ledger.handles.add handle }.Sound := by
  have hkeep : ∀ {id : HandleId} {old : Handle}, ledger.handles.get? id = some old →
      (ledger.handles.add handle).get? id = some old := by
    intro id old hget
    have := Table.get?_lt h.handles_fresh hget
    rw [Table.get?_add h.handles_fresh, if_neg (by omega), hget]
  refine
    { handles_fresh := h.handles_fresh.add handle
      handles_ascending := h.handles_ascending.add h.handles_fresh handle
      streams_fresh := h.streams_fresh
      streams_ascending := h.streams_ascending
      slot_open := ?_
      one_chip := h.one_chip
      stream_open := ?_
      valid := ?_ }
  · intro line id hholds
    obtain ⟨old, hget, hrest⟩ := h.slot_open line id hholds
    exact ⟨old, hkeep hget, hrest⟩
  · intro entry hentry
    obtain ⟨old, hget, hkind⟩ := h.stream_open entry hentry
    exact ⟨old, hkeep hget, hkind⟩
  · intro id found hget
    simp only [Table.get?_add h.handles_fresh] at hget
    split at hget
    · obtain rfl := Option.some.inj hget
      exact hvalid
    · exact h.valid id found hget

theorem Sound.modifyHandle (h : ledger.Sound) {id : HandleId} {f : Handle → Handle}
    (hf : ∀ handle, ledger.handles.get? id = some handle →
      (f handle).SameGrant handle ∧ (f handle).Valid) :
    { ledger with handles := ledger.handles.modify id f }.Sound := by
  have hfind : ∀ {key : HandleId} {old : Handle}, ledger.handles.get? key = some old →
      ∃ handle, (ledger.handles.modify id f).get? key = some handle ∧
        handle.SameGrant old ∧ handle.Valid := by
    intro key old hget
    rw [Table.get?_modify, hget]
    by_cases hkey : key = id
    · subst hkey
      exact ⟨f old, by simp, hf old hget⟩
    · exact ⟨old, by simp [hkey], .refl old, h.valid key old hget⟩
  refine
    { handles_fresh := h.handles_fresh.modify id f
      handles_ascending := h.handles_ascending.modify id f
      streams_fresh := h.streams_fresh
      streams_ascending := h.streams_ascending
      slot_open := ?_
      one_chip := h.one_chip
      stream_open := ?_
      valid := ?_ }
  · intro line key hholds
    obtain ⟨old, hget, hslot, hmem⟩ := h.slot_open line key hholds
    obtain ⟨handle, hhandle, ⟨hkind, -, -, hoffsets⟩, -⟩ := hfind hget
    exact ⟨handle, hhandle, by rw [hkind]; exact hslot, by rw [hoffsets]; exact hmem⟩
  · intro entry hentry
    obtain ⟨old, hget, hkind⟩ := h.stream_open entry hentry
    obtain ⟨handle, hhandle, hsame, -⟩ := hfind hget
    exact ⟨handle, hhandle, hsame.1.trans hkind⟩
  · intro key found hget
    simp only [Table.get?_modify] at hget
    split at hget
    · obtain ⟨old, hold, rfl⟩ := Option.map_eq_some_iff.mp hget
      next hkey => exact (hf old (hkey ▸ hold)).2
    · exact h.valid key found hget

theorem Sound.eraseHandle (h : ledger.Sound) {id : HandleId} (hheld : ¬ ledger.Held id) :
    { ledger with handles := ledger.handles.erase id }.Sound := by
  have hkeep : ∀ {key : HandleId} {old : Handle}, ledger.Held key →
      ledger.handles.get? key = some old → (ledger.handles.erase id).get? key = some old := by
    intro key old hkey hget
    rw [Table.get?_erase, if_neg fun heq : key = id => hheld (heq ▸ hkey), hget]
  refine
    { handles_fresh := h.handles_fresh.erase id
      handles_ascending := h.handles_ascending.erase id
      streams_fresh := h.streams_fresh
      streams_ascending := h.streams_ascending
      slot_open := ?_
      one_chip := h.one_chip
      stream_open := ?_
      valid := ?_ }
  · intro line key hholds
    obtain ⟨old, hget, hrest⟩ := h.slot_open line key hholds
    exact ⟨old, hkeep (Or.inl ⟨line, hholds⟩) hget, hrest⟩
  · intro entry hentry
    obtain ⟨old, hget, hkind⟩ := h.stream_open entry hentry
    exact ⟨old, hkeep (Or.inr ⟨entry, hentry, rfl⟩) hget, hkind⟩
  · intro key found hget
    simp only [Table.get?_erase] at hget
    split at hget
    · cases hget
    · exact h.valid key found hget

/-! ### Lines are attached and freed -/

theorem Sound.attach (h : ledger.Sound) {line : Line} {id : HandleId} {handle : Handle}
    (hget : ledger.handles.get? id = some handle) (hmem : line.offset ∈ handle.offsets)
    (hchip : ∀ other, ledger.Holds other id → other.chip = line.chip) :
    (ledger.withSlot line (.holding id handle.kind)).Sound := by
  refine
    { handles_fresh := h.handles_fresh
      handles_ascending := h.handles_ascending
      streams_fresh := h.streams_fresh
      streams_ascending := h.streams_ascending
      slot_open := ?_
      one_chip := ?_
      stream_open := h.stream_open
      valid := h.valid }
  · intro other key hholds
    rw [holds_withSlot] at hholds
    by_cases hother : other = line
    · subst hother
      rw [if_pos rfl, Slot.handle?_holding] at hholds
      obtain rfl := Option.some.inj hholds
      exact ⟨handle, hget, by simp [withSlot], hmem⟩
    · rw [if_neg hother] at hholds
      obtain ⟨old, hold, hslot, hmemOld⟩ := h.slot_open other key hholds
      exact ⟨old, hold, by simpa [withSlot, hother] using hslot, hmemOld⟩
  · intro a b key ha hb
    rw [holds_withSlot] at ha hb
    by_cases haline : a = line <;> by_cases hbline : b = line
    · rw [haline, hbline]
    · rw [if_pos haline, Slot.handle?_holding] at ha
      rw [if_neg hbline] at hb
      obtain rfl := Option.some.inj ha
      rw [haline, hchip b hb]
    · rw [if_neg haline] at ha
      rw [if_pos hbline, Slot.handle?_holding] at hb
      obtain rfl := Option.some.inj hb
      rw [hbline, hchip a ha]
    · rw [if_neg haline] at ha
      rw [if_neg hbline] at hb
      exact h.one_chip a b key ha hb

theorem holds_of_holds_free {line other : Line} {id : HandleId}
    (h : (ledger.withSlot line .free).Holds other id) : ledger.Holds other id ∧ other ≠ line := by
  rw [holds_withSlot] at h
  by_cases hother : other = line
  · rw [if_pos hother] at h
    cases h
  · rw [if_neg hother] at h
    exact ⟨h, hother⟩

theorem Sound.free (h : ledger.Sound) (line : Line) : (ledger.withSlot line .free).Sound := by
  refine
    { handles_fresh := h.handles_fresh
      handles_ascending := h.handles_ascending
      streams_fresh := h.streams_fresh
      streams_ascending := h.streams_ascending
      slot_open := ?_
      one_chip := ?_
      stream_open := h.stream_open
      valid := h.valid }
  · intro other id hholds
    obtain ⟨hold, hother⟩ := holds_of_holds_free hholds
    obtain ⟨handle, hget, hslot, hmem⟩ := h.slot_open other id hold
    exact ⟨handle, hget, by simpa [withSlot, hother] using hslot, hmem⟩
  · intro a b id ha hb
    exact h.one_chip a b id (holds_of_holds_free ha).1 (holds_of_holds_free hb).1

/-! ### Streams begin and end -/

theorem Sound.addStream (h : ledger.Sound) {id : HandleId} {handle : Handle}
    (hget : ledger.handles.get? id = some handle) (hkind : handle.kind = .events) :
    { ledger with streams := ledger.streams.add id }.Sound := by
  refine
    { handles_fresh := h.handles_fresh
      handles_ascending := h.handles_ascending
      streams_fresh := h.streams_fresh.add id
      streams_ascending := h.streams_ascending.add h.streams_fresh id
      slot_open := h.slot_open
      one_chip := h.one_chip
      stream_open := ?_
      valid := h.valid }
  intro entry hentry
  simp only [Table.add, List.mem_append, List.mem_singleton] at hentry
  rcases hentry with hentry | rfl
  · exact h.stream_open entry hentry
  · exact ⟨handle, hget, hkind⟩

theorem Sound.eraseStream (h : ledger.Sound) (stream : StreamId) :
    { ledger with streams := ledger.streams.erase stream }.Sound :=
  { handles_fresh := h.handles_fresh
    handles_ascending := h.handles_ascending
    streams_fresh := h.streams_fresh.erase stream
    streams_ascending := h.streams_ascending.erase stream
    slot_open := h.slot_open
    one_chip := h.one_chip
    stream_open := fun entry hentry => h.stream_open entry (List.mem_filter.mp hentry).1
    valid := h.valid }

end Ledger

end GpioLines
