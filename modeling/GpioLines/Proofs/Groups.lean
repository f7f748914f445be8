import Mathlib.Data.List.Forall2
import GpioLines.Proofs.Soundness
import GpioLines.World.Events
import GpioLines.World.Reconfigure
import GpioLines.World.Request
import GpioLines.World.Values

/-!
# What the checks on a group establish

An operation on a group first finds out whether it may start. Each check is described here by what
holds once it has passed, so nobody else has to open it.
-/

namespace GpioLines

/-! ### Results in sequence -/

theorem bind_eq_ok {ε α β : Type} {x : Except ε α} {f : α → Except ε β} {b : β} :
    (x >>= f) = .ok b ↔ ∃ a, x = .ok a ∧ f a = .ok b := by
  cases x with
  | error e => simp [bind, Except.bind]
  | ok a => simp [bind, Except.bind]

theorem bind_eq_error {ε α β : Type} {x : Except ε α} {f : α → Except ε β} {e : ε} :
    (x >>= f) = .error e ↔ x = .error e ∨ ∃ a, x = .ok a ∧ f a = .error e := by
  cases x with
  | error e => simp [bind, Except.bind]
  | ok a => simp [bind, Except.bind]

theorem forall₂_of_mapM {ε α β : Type} {f : α → Except ε β} :
    ∀ {items : List α} {results : List β}, items.mapM f = .ok results →
      List.Forall₂ (fun item result => f item = .ok result) items results := by
  intro items
  induction items with
  | nil =>
      intro results h
      obtain rfl : [] = results := by simpa [pure, Except.pure] using h
      exact .nil
  | cons item rest ih =>
      intro results h
      rw [List.mapM_cons, bind_eq_ok] at h
      obtain ⟨result, hitem, h⟩ := h
      rw [bind_eq_ok] at h
      obtain ⟨more, hrest, h⟩ := h
      obtain rfl : result :: more = results := by simpa [pure, Except.pure] using h
      exact .cons hitem (ih hrest)

/-- What every step of a fold keeps, the fold keeps. -/
theorem foldlM_keeps {ε α β : Type} {f : β → α → Except ε β} {keeps : β → Prop} {items : List α}
    (hstep : ∀ item ∈ items, ∀ state next, f state item = .ok next → keeps state → keeps next)
    {start result : β} (h : items.foldlM f start = .ok result) (hstart : keeps start) :
    keeps result := by
  induction items generalizing start with
  | nil =>
      obtain rfl := Except.ok.inj h
      exact hstart
  | cons item rest ih =>
      rw [List.foldlM_cons, bind_eq_ok] at h
      obtain ⟨next, hnext, h⟩ := h
      exact ih (fun other hother => hstep other (List.mem_cons_of_mem _ hother)) h
        (hstep item List.mem_cons_self start next hnext hstart)

theorem exists_of_forall₂ {α β : Type} {R : α → β → Prop} {items : List α} {results : List β}
    (h : List.Forall₂ R items results) :
    (∀ item ∈ items, ∃ result ∈ results, R item result) ∧
      ∀ result ∈ results, ∃ item ∈ items, R item result := by
  induction h with
  | nil => simp
  | cons hfirst _ ih =>
      simp only [List.mem_cons, forall_eq_or_imp, exists_eq_or_imp]
      refine ⟨⟨Or.inl hfirst, fun item hitem => Or.inr (ih.1 item hitem)⟩, Or.inl hfirst, ?_⟩
      exact fun result hresult => Or.inr (ih.2 result hresult)

theorem Line.eq_of_offset {a b : Line} (hchip : a.chip = b.chip) (hoffset : a.offset = b.offset) :
    a = b := by
  cases a
  cases b
  exact congr (congrArg Line.mk hchip) hoffset

namespace World

variable {σ : Type} {world : World σ}

/-! ### Chips -/

theorem openChip_eq_ok {id : ChipId} {chip : Chip} :
    world.openChip id = .ok chip ↔ world.chips[id]? = some chip ∧ chip.closed = false := by
  unfold openChip
  cases hget : world.chips[id]? with
  | none => simp
  | some found => cases hclosed : found.closed <;> grind

theorem openChip_eq_error {id : ChipId} {error : Error} (h : world.openChip id = .error error) :
    error = .invalid .chipClosed := by
  unfold openChip at h
  split at h
  · split at h
    · exact (Except.error.inj h).symm
    · cases h
  · exact (Except.error.inj h).symm

theorem closed?_eq_false {id : ChipId} :
    world.ledger.closed? id = some false ↔ ∃ chip, world.openChip id = .ok chip := by
  simp only [openChip_eq_ok, ledger, Option.map_eq_some_iff]

theorem record_modifyLine_self {line : Line} {chip : Chip}
    (hopen : world.openChip line.chip = .ok chip) (f : LineRecord → LineRecord) :
    (world.modifyLine line f).record line = f (world.record line) := by
  have hexists := (List.getElem?_eq_some_iff.mp (openChip_eq_ok.mp hopen).1).1
  rw [record_modifyLine, if_pos ⟨rfl, hexists⟩]

/-- The members of a group that has an open chip: at least one, and all of that chip. -/
structure OnChip (world : World σ) (group : Group) (chip : Chip) (id : ChipId) : Prop where
  isOpen : world.openChip id = .ok chip
  nonempty : group.lines ≠ []
  members : ∀ line ∈ group.lines, line.chip = id

theorem onChip_of_chipOf {group : Group} {chip : Chip} (h : world.chipOf group = .ok chip) :
    ∃ first, group.first? = some first ∧ world.OnChip group chip first.chip := by
  unfold chipOf at h
  cases hfirst : group.first? with
  | none => simp [hfirst] at h
  | some first =>
      simp only [hfirst, bind_eq_ok] at h
      obtain ⟨found, hopen, h⟩ := h
      split at h
      · cases h
      · next hany =>
        obtain rfl := Except.ok.inj h
        refine ⟨first, rfl, hopen, ?_, ?_⟩
        · intro hnil
          simp [Group.first?, hnil] at hfirst
        · intro line hmem
          by_contra hne
          exact hany (List.any_eq_true.mpr ⟨line, hmem, by simpa using hne⟩)

theorem OnChip.chipOf {group : Group} {chip : Chip} {id : ChipId} (h : world.OnChip group chip id) :
    world.chipOf group = .ok chip := by
  obtain ⟨first, rest, hlines⟩ := List.exists_cons_of_ne_nil h.nonempty
  have hfirst : group.first? = some first := by rw [Group.first?, hlines, List.head?_cons]
  have hchip : first.chip = id := h.members first (hlines ▸ List.mem_cons_self)
  have hsame : ¬ (group.lines.any fun other => other.chip != first.chip) = true := by
    intro hany
    obtain ⟨other, hother, hne⟩ := List.any_eq_true.mp hany
    rw [h.members other hother, hchip] at hne
    simp at hne
  simp only [World.chipOf, hfirst]
  rw [bind_eq_ok]
  exact ⟨chip, hchip ▸ h.isOpen, if_neg hsame⟩

theorem chipOf_of_empty {group : Group} (h : group.lines = []) :
    world.chipOf group = .error (.invalidArgument .emptyGroup) := by
  rw [chipOf, Group.first?, h]
  rfl

theorem chipOf_of_not_isOpen {group : Group} (hgroup : group.WellFormed) (hnonempty : group.lines ≠ [])
    (hclosed : ¬ ∀ line ∈ group.lines, world.isOpen line.chip = true) :
    world.chipOf group = .error (.invalid .chipClosed) := by
  obtain ⟨first, rest, hlines⟩ := List.exists_cons_of_ne_nil hnonempty
  have hfirst : group.first? = some first := by rw [Group.first?, hlines, List.head?_cons]
  have hmem : first ∈ group.lines := hlines ▸ List.mem_cons_self
  simp only [chipOf, hfirst, bind_eq_error]
  cases hopen : world.openChip first.chip with
  | error error => exact Or.inl (congrArg Except.error (openChip_eq_error hopen))
  | ok chip =>
      refine absurd (fun line hline => ?_) hclosed
      rw [isOpen, hgroup.same_chip line hline first hmem, hopen]
      rfl

theorem onChip_of_isOpen {group : Group} (hgroup : group.WellFormed) (hnonempty : group.lines ≠ [])
    (hopen : ∀ line ∈ group.lines, world.isOpen line.chip = true) :
    ∃ chip id, world.OnChip group chip id := by
  obtain ⟨first, hmem⟩ := List.exists_mem_of_ne_nil _ hnonempty
  cases hchip : world.openChip first.chip with
  | error error =>
      have hfirst := hopen first hmem
      rw [isOpen, hchip] at hfirst
      cases hfirst
  | ok chip =>
      exact ⟨chip, first.chip, hchip, hnonempty, fun line hline =>
        hgroup.same_chip line hline first hmem⟩

/-- On the chip of a group a line is known by its offset. -/
theorem OnChip.not_mem_offsets {group : Group} {chip : Chip} {id : ChipId}
    (h : world.OnChip group chip id) {line : Line} (hchip : line.chip = id)
    (hnot : line ∉ group.lines) : line.offset ∉ group.offsets := by
  intro hmem
  obtain ⟨member, hmember, hoffset⟩ := List.mem_map.mp hmem
  have hsame : member = line := Line.eq_of_offset ((h.members member hmember).trans hchip.symm) hoffset
  exact hnot (hsame ▸ hmember)

/-! ### Handles -/

theorem handle?_eq_some {line : Line} {id : HandleId} {handle : Handle} :
    world.handle? line = some (id, handle) ↔
      world.ledger.Holds line id ∧ world.handles.get? id = some handle := by
  simp only [handle?, Option.bind_eq_some_iff, Option.map_eq_some_iff, Prod.mk.injEq]
  constructor
  · rintro ⟨key, hslot, found, hget, rfl, rfl⟩
    exact ⟨hslot, hget⟩
  · rintro ⟨hslot, hget⟩
    exact ⟨id, hslot, handle, hget, rfl, rfl⟩

theorem handleOf_eq_ok {line : Line} {held : HandleId × Handle} :
    world.handleOf line = .ok held ↔ world.handle? line = some held := by
  unfold handleOf
  cases world.handle? line <;> simp

theorem forall₂_of_handlesOf {group : Group} {held : List (HandleId × Handle)}
    (h : world.handlesOf group = .ok held) :
    (∃ chip, world.chipOf group = .ok chip) ∧
      List.Forall₂ (fun line entry => world.handle? line = some entry) group.lines held := by
  rw [handlesOf, bind_eq_ok] at h
  obtain ⟨chip, hchip, h⟩ := h
  exact ⟨⟨chip, hchip⟩, (forall₂_of_mapM h).imp fun _ _ => handleOf_eq_ok.mp⟩

/-- A group covers a values handle: each member is served by it, and no line of it is missing. -/
structure Covers (world : World σ) (group : Group) (id : HandleId) (handle : Handle) : Prop where
  found : world.handles.get? id = some handle
  kind : handle.kind = .values
  serves : ∀ line ∈ group.lines, world.handle? line = some (id, handle)
  complete : ∀ offset ∈ handle.offsets, offset ∈ group.offsets

theorem covers_of_valuesHandle {group : Group} {id : HandleId} {handle : Handle}
    (h : world.valuesHandle group = .ok (id, handle)) :
    (∃ chip, world.chipOf group = .ok chip) ∧ world.Covers group id handle := by
  rw [valuesHandle, bind_eq_ok] at h
  obtain ⟨held, hheld, h⟩ := h
  obtain ⟨hchip, hforall⟩ := forall₂_of_handlesOf hheld
  refine ⟨hchip, ?_⟩
  cases held with
  | nil => cases h
  | cons first rest =>
      simp only at h
      split at h
      · cases h
      next hkinds =>
      split at h
      · cases h
      next hsame =>
      split at h
      · cases h
      next hcover =>
      obtain rfl := Except.ok.inj h
      obtain ⟨hleft, hright⟩ := exists_of_forall₂ hforall
      obtain ⟨firstLine, -, hfirst⟩ := hright _ List.mem_cons_self
      have hget : world.handles.get? id = some handle := (handle?_eq_some.mp hfirst).2
      refine ⟨hget, ?_, ?_, ?_⟩
      · by_contra hne
        exact hkinds (List.any_eq_true.mpr ⟨_, List.mem_cons_self, by simpa using hne⟩)
      · intro line hmem
        obtain ⟨⟨key, other⟩, hentry, hline⟩ := hleft line hmem
        rcases List.mem_cons.mp hentry with hentry | hentry
        · exact hentry ▸ hline
        · have hkey : key = id := by
            by_contra hne
            exact hsame (List.any_eq_true.mpr ⟨_, hentry, by simpa using hne⟩)
          subst hkey
          rw [handle?_eq_some] at hline ⊢
          exact ⟨hline.1, hget⟩
      · intro offset hoffset
        by_contra hnot
        exact hcover (List.any_eq_true.mpr ⟨offset, hoffset, by simpa using hnot⟩)

/-! ### Values in the order of a request -/

theorem foldlM_set_ok {handle : Handle} {entries : List (Offset × UInt8)}
    {start ordered : List UInt8} (hbits : ∀ value ∈ start, IsBit value)
    (h : entries.foldlM
      (fun ordered (offset, value) =>
        match handle.indexOf? offset with
        | some index => (.ok (ordered.set index (normalize value)) : Except Error (List UInt8))
        | none => .error (.invalid .foreignLine)) start = .ok ordered) :
    ordered.length = start.length ∧ ∀ value ∈ ordered, IsBit value := by
  induction entries generalizing start with
  | nil =>
      obtain rfl : start = ordered := by simpa [pure, Except.pure] using h
      exact ⟨rfl, hbits⟩
  | cons entry rest ih =>
      obtain ⟨offset, value⟩ := entry
      rw [List.foldlM_cons, bind_eq_ok] at h
      obtain ⟨next, hnext, h⟩ := h
      cases hindex : handle.indexOf? offset with
      | none => simp [hindex] at hnext
      | some index =>
          simp only [hindex] at hnext
          obtain rfl := Except.ok.inj hnext
          have hset : ∀ v ∈ start.set index (normalize value), IsBit v := by
            intro v hv
            rcases List.mem_or_eq_of_mem_set hv with hv | rfl
            · exact hbits v hv
            · exact isBit_normalize value
          obtain ⟨hlength, hall⟩ := ih hset h
          exact ⟨hlength.trans List.length_set, hall⟩

/-- Whatever the group gives, the request gets one bit a line. -/
theorem inRequestOrder_ok {group : Group} {handle : Handle} {values ordered : List UInt8}
    (h : group.inRequestOrder handle values = .ok ordered) :
    ordered.length = handle.offsets.length ∧ ∀ value ∈ ordered, IsBit value := by
  have hstart : ∀ value ∈ List.replicate handle.offsets.length (0 : UInt8), IsBit value := by
    intro value hvalue
    exact Or.inl (List.eq_of_mem_replicate hvalue)
  obtain ⟨hlength, hbits⟩ := foldlM_set_ok hstart h
  exact ⟨by simpa using hlength, hbits⟩

/-! ### Plans -/

theorem found_of_handlesOf {group : Group} {held : List (HandleId × Handle)}
    (h : world.handlesOf group = .ok held) :
    ∀ entry ∈ held, world.handles.get? entry.1 = some entry.2 := by
  intro entry hentry
  obtain ⟨line, -, hline⟩ := (exists_of_forall₂ (forall₂_of_handlesOf h).2).2 entry hentry
  exact (handle?_eq_some.mp hline).2

theorem mem_distinctHandles {handles : List (HandleId × Handle)} {entry : HandleId × Handle}
    (h : entry ∈ distinctHandles handles) : entry ∈ handles := by
  have hfold : ∀ (rest seen : List (HandleId × Handle)),
      entry ∈ rest.foldl
        (fun seen held => if seen.any (·.1 == held.1) then seen else seen ++ [held]) seen →
      entry ∈ seen ∨ entry ∈ rest := by
    intro rest
    induction rest with
    | nil => exact fun seen hmem => Or.inl hmem
    | cons held rest ih =>
        intro seen hmem
        rw [List.foldl_cons] at hmem
        rcases ih _ hmem with hseen | hrest
        · split at hseen
          · exact Or.inl hseen
          · rcases List.mem_append.mp hseen with hseen | hheld
            · exact Or.inl hseen
            · rw [List.mem_singleton] at hheld
              exact Or.inr (List.mem_cons.mpr (Or.inl hheld))
        · exact Or.inr (List.mem_cons_of_mem _ hrest)
  exact (hfold handles [] h).resolve_left List.not_mem_nil

/-- What a write has settled on: a handle that the group covers, and one bit for each of its lines. -/
theorem planValues_ok {group : Group} {values ordered : List UInt8} {id : HandleId}
    {handle : Handle} (h : world.planValues group values = .ok (id, handle, ordered)) :
    world.Covers group id handle ∧ ordered.length = handle.offsets.length ∧
      ∀ value ∈ ordered, IsBit value := by
  rw [planValues, bind_eq_ok] at h
  obtain ⟨-, -, h⟩ := h
  rw [bind_eq_ok] at h
  obtain ⟨⟨key, found⟩, hhandle, h⟩ := h
  rw [bind_eq_ok] at h
  obtain ⟨laid, hlaid, h⟩ := h
  simp only [pure, Except.pure, Except.ok.injEq, Prod.mk.injEq] at h
  obtain ⟨rfl, rfl, rfl⟩ := h
  exact ⟨(covers_of_valuesHandle hhandle).2, inRequestOrder_ok hlaid⟩

/-- What a reconfiguration has settled on. Output values that were not given are those driven last. -/
theorem planConfig_ok {group : Group} {type : RequestType} {flags : RequestFlags}
    {values : Option (List UInt8)} {plan : ConfigPlan}
    (h : world.planConfig group type flags values = .ok plan) :
    world.Covers group plan.id plan.handle ∧ plan.flags.unknown = 0 ∧
      (plan.handle.Valid → plan.handle.kind = .values →
        plan.values.length = plan.handle.offsets.length ∧ ∀ value ∈ plan.values, IsBit value) := by
  have hunknown : ∀ handle : Handle, (configFlags handle type flags).unknown = 0 := by
    intro handle
    unfold configFlags
    split <;> rfl
  rw [planConfig, bind_eq_ok] at h
  obtain ⟨-, -, h⟩ := h
  rw [bind_eq_ok] at h
  obtain ⟨⟨id, handle⟩, hhandle, h⟩ := h
  have hcovers := (covers_of_valuesHandle hhandle).2
  simp only at h
  split at h
  · split at h
    · rw [bind_eq_ok] at h
      obtain ⟨ordered, hordered, h⟩ := h
      obtain rfl := Except.ok.inj h
      exact ⟨hcovers, hunknown handle, fun _ _ => inRequestOrder_ok hordered⟩
    · obtain rfl := Except.ok.inj h
      exact ⟨hcovers, hunknown handle, fun hvalid hkind => ⟨hvalid.values_length hkind, hvalid.bits⟩⟩
  · obtain rfl := Except.ok.inj h
    exact ⟨hcovers, hunknown handle, fun hvalid hkind => ⟨hvalid.values_length hkind, hvalid.bits⟩⟩

theorem eventHandle_ok {line : Line} {id : HandleId} {handle : Handle}
    (h : world.eventHandle line = .ok (id, handle)) :
    world.handles.get? id = some handle ∧ handle.kind = .events := by
  rw [eventHandle, bind_eq_ok] at h
  obtain ⟨-, -, h⟩ := h
  split at h
  · cases h
  · next held hheld =>
    split at h
    · next hkind =>
      obtain rfl := Except.ok.inj h
      exact ⟨(handle?_eq_some.mp hheld).2, hkind⟩
    · cases h

/-! ### Lines that can be taken -/

theorem isFree_iff {line : Line} : world.isFree line = true ↔ world.slot line = .free := by
  simp [isFree]

theorem exists_holds {line : Line} (h : world.isRequested line = true) :
    ∃ id, world.ledger.Holds line id := by
  have hslot : world.slot line ≠ .free := by simpa [isRequested, isFree] using h
  change ∃ id, (world.slot line).handle? = some id
  cases hcase : world.slot line with
  | free => exact absurd hcase hslot
  | values id | events id => exact ⟨id, rfl⟩

theorem firstTaken?_eq_none {before lines : List Line}
    (h : world.firstTaken? before lines = none) :
    (∀ line ∈ lines, world.slot line = .free ∧ line ∉ before) ∧ lines.Nodup := by
  induction lines generalizing before with
  | nil => simp
  | cons line rest ih =>
      unfold firstTaken? at h
      split at h
      · cases h
      · next hcan =>
        simp only [Bool.or_eq_true, Bool.not_eq_true', List.contains_iff_mem, not_or,
          Bool.not_eq_false, isFree_iff] at hcan
        obtain ⟨hrest, hnodup⟩ := ih h
        refine ⟨?_, List.nodup_cons.mpr ⟨?_, hnodup⟩⟩
        · intro other hother
          rcases List.mem_cons.mp hother with rfl | hother
          · exact hcan
          · exact ⟨(hrest other hother).1, fun hmem =>
              (hrest other hother).2 (List.mem_append_left _ hmem)⟩
        · intro hmem
          exact (hrest line hmem).2 (List.mem_append_right _ (List.mem_singleton_self line))

/-- A group whose lines can all be taken: they are free, and each occurs once. -/
structure Takeable (world : World σ) (group : Group) (chip : Chip) (id : ChipId) : Prop
    extends world.OnChip group chip id where
  free : ∀ line ∈ group.lines, world.slot line = .free
  nodup : group.lines.Nodup

theorem chipOf_of_checkTakeable {group : Group} {chip : Chip}
    (h : world.checkTakeable group = .ok chip) :
    world.chipOf group = .ok chip := by
  rw [checkTakeable, bind_eq_ok] at h
  obtain ⟨found, hchip, h⟩ := h
  split at h
  · cases h
  · rw [hchip, Except.ok.inj h]

theorem takeable_of_checkTakeable {group : Group} {chip : Chip}
    (h : world.checkTakeable group = .ok chip) :
    ∃ first, group.first? = some first ∧ world.Takeable group chip first.chip := by
  rw [checkTakeable, bind_eq_ok] at h
  obtain ⟨found, hchip, h⟩ := h
  split at h
  · cases h
  · next hnone =>
    obtain rfl := Except.ok.inj h
    obtain ⟨first, hfirst, honchip⟩ := onChip_of_chipOf hchip
    obtain ⟨hfree, hnodup⟩ := firstTaken?_eq_none hnone
    exact ⟨first, hfirst, honchip, fun line hmem => (hfree line hmem).1, hnodup⟩

/-- On one chip a line is known by its offset. -/
theorem OnChip.nodup_offsets {group : Group} {chip : Chip} {id : ChipId}
    (h : world.OnChip group chip id) (hnodup : group.lines.Nodup) : group.offsets.Nodup := by
  refine List.Nodup.map_on ?_ hnodup
  intro a ha b hb hoffset
  obtain ⟨chipA, offsetA⟩ := a
  obtain ⟨chipB, offsetB⟩ := b
  have hchip := (h.members _ ha).trans (h.members _ hb).symm
  simp only [Line.mk.injEq]
  exact ⟨hchip, hoffset⟩

end World

end GpioLines
