import GpioLines.Proofs.Reachability

/-!
# What the closing of a chip does

A chip that closes frees its lines one after the other and lets go of their handles. Which handles
close in the course of it depends on who else holds them: other lines of the chip, that come later,
and streams, that do not go away. Going through the lines one need not keep track of this. It is
enough that handles are only ever shed; which of them were shed is read off the end, where an open
handle is one that somebody holds.
-/

namespace GpioLines

variable {σ : Type} [Machine σ]

/-! ### Handles that are shed -/

/-- These handles were closed, each released once and in this order, and nothing else has passed to
or from a device. -/
structure World.Sheds (closing : List (HandleId × Handle)) (before after : World (Traced σ)) :
    Prop where
  keys : (closing.map (·.1)).Nodup
  found : ∀ entry ∈ closing, before.handles.get? entry.1 = some entry.2
  handles : ∀ key, after.handles.get? key =
    if key ∈ closing.map (·.1) then none else before.handles.get? key
  trace : after.machine.trace = before.machine.trace ++
    closing.map fun entry => .release entry.2.device entry.2.file

namespace World

variable {world mid after : World (Traced σ)}

namespace Sheds

omit [Machine σ] in
theorem of_eq (hhandles : after.handles = world.handles)
    (htrace : after.machine.trace = world.machine.trace) : Sheds [] world after where
  keys := .nil
  found := fun _ hentry => absurd hentry List.not_mem_nil
  handles := fun key => by rw [hhandles, List.map_nil, if_neg List.not_mem_nil]
  trace := by rw [htrace, List.map_nil, List.append_nil]

omit [Machine σ] in
theorem trans {earlier later : List (HandleId × Handle)} (h : Sheds earlier world mid)
    (hlater : Sheds later mid after) : Sheds (earlier ++ later) world after := by
  -- a key that was shed is not there to be shed again
  have hfound : ∀ entry ∈ later, entry.1 ∉ earlier.map (·.1) ∧
      world.handles.get? entry.1 = some entry.2 := by
    intro entry hentry
    have hget := hlater.found entry hentry
    rw [h.handles] at hget
    split at hget
    · cases hget
    · next hnot => exact ⟨hnot, hget⟩
  refine ⟨?_, ?_, fun key => ?_, ?_⟩
  · rw [List.map_append]
    refine h.keys.append hlater.keys fun key hearlier hkey => ?_
    obtain ⟨entry, hentry, rfl⟩ := List.mem_map.mp hkey
    exact (hfound entry hentry).1 hearlier
  · intro entry hentry
    rcases List.mem_append.mp hentry with hentry | hentry
    · exact h.found entry hentry
    · exact (hfound entry hentry).2
  · rw [hlater.handles, h.handles, List.map_append]
    by_cases hkey : key ∈ later.map (·.1)
    · rw [if_pos hkey, if_pos (List.mem_append_right _ hkey)]
    · rw [if_neg hkey]
      simp only [List.mem_append, hkey, or_false]
  · rw [hlater.trace, h.trace, List.map_append, List.append_assoc]

theorem dropHandle (world : World (Traced σ)) (id : HandleId) :
    ∃ closing, Sheds closing world (world.dropHandle id) ∧ ∀ entry ∈ closing, entry.1 = id := by
  unfold World.dropHandle
  split
  · exact ⟨[], .of_eq rfl rfl, fun _ hentry => absurd hentry List.not_mem_nil⟩
  · cases hget : world.handles.get? id with
    | none =>
        rw [closeHandle, hget]
        exact ⟨[], .of_eq rfl rfl, fun _ hentry => absurd hentry List.not_mem_nil⟩
    | some handle =>
        rw [closeHandle_eq hget]
        refine ⟨[(id, handle)], ⟨List.nodup_singleton id, ?_, fun key => ?_, rfl⟩, ?_⟩
        · intro entry hentry
          rw [List.mem_singleton.mp hentry]
          exact hget
        · simp only [Table.get?_erase, List.map_cons, List.map_nil, List.mem_singleton]
        · intro entry hentry
          rw [List.mem_singleton.mp hentry]

omit [Machine σ] in
/-- What was shed is what was open and is not open any more. -/
theorem mem_iff {closing : List (HandleId × Handle)} (h : Sheds closing world after)
    {key : HandleId} {handle : Handle} :
    (key, handle) ∈ closing ↔
      world.handles.get? key = some handle ∧ after.handles.get? key = none := by
  constructor
  · intro hmem
    refine ⟨h.found _ hmem, ?_⟩
    rw [h.handles, if_pos (List.mem_map.mpr ⟨_, hmem, rfl⟩)]
  · rintro ⟨hget, hgone⟩
    rw [h.handles] at hgone
    split at hgone
    · next hkey =>
      obtain ⟨entry, hentry, rfl⟩ := List.mem_map.mp hkey
      obtain rfl := Option.some.inj ((h.found entry hentry).symm.trans hget)
      exact hentry
    · rw [hget] at hgone
      cases hgone

end Sheds

/-! ### Line by line -/

theorem sheds_invalidate (world : World (Traced σ)) (line : Line) :
    ∃ closing, Sheds closing world (world.invalidate line) := by
  unfold invalidate
  simp only
  cases (world.detach line).1 with
  | none => exact ⟨[], .of_eq rfl rfl⟩
  | some id =>
      obtain ⟨closing, hsheds, -⟩ :=
        Sheds.dropHandle ((world.detach line).2.modifyLine line (·.stale)) id
      have hfreed : Sheds [] world ((world.detach line).2.modifyLine line (·.stale)) :=
        .of_eq rfl rfl
      exact ⟨closing, hfreed.trans hsheds⟩

theorem sheds_invalidateAll (world : World (Traced σ)) (lines : List Line) :
    ∃ closing, Sheds closing world (lines.foldl invalidate world) := by
  induction lines generalizing world with
  | nil => exact ⟨[], .of_eq rfl rfl⟩
  | cons line rest ih =>
      obtain ⟨first, hfirst⟩ := world.sheds_invalidate line
      obtain ⟨others, hothers⟩ := ih (world.invalidate line)
      exact ⟨first ++ others, hfirst.trans hothers⟩

section Frame

variable (world : World σ)

theorem streams_dropHandle (id : HandleId) : (world.dropHandle id).streams = world.streams := by
  unfold dropHandle closeHandle
  split
  · rfl
  · split <;> rfl

theorem tokens_dropHandle (id : HandleId) : (world.dropHandle id).tokens = world.tokens := by
  unfold dropHandle closeHandle
  split
  · rfl
  · split <;> rfl

theorem streams_invalidate (line : Line) : (world.invalidate line).streams = world.streams := by
  unfold invalidate
  simp only
  cases (world.detach line).1 with
  | none => rfl
  | some id => exact streams_dropHandle _ id

theorem tokens_invalidate (line : Line) : (world.invalidate line).tokens = world.tokens := by
  unfold invalidate
  simp only
  cases (world.detach line).1 with
  | none => rfl
  | some id => exact tokens_dropHandle _ id

theorem chip_invalidate {line : Line} {other : ChipId} (h : other ≠ line.chip) :
    (world.invalidate line).chips[other]? = world.chips[other]? := by
  rw [chips_invalidate]
  simp only [detach, modifyLine, List.getElem?_modify, if_neg (Ne.symm h)]
  cases world.chips[other]? <;> rfl

theorem needsUpdate_invalidate (line other : Line) :
    (world.invalidate line).needsUpdate other = true ↔
      other = line ∨ world.needsUpdate other = true := by
  have hrecord : (world.invalidate line).record other =
      ((world.detach line).2.modifyLine line (·.stale)).record other := by
    rw [record, chips_invalidate]
    rfl
  by_cases heq : other = line
  · subst heq
    simp only [needsUpdate, hrecord, record_modifyLine, true_or, iff_true]
    split
    · rfl
    · next hnot =>
      -- a line of no chip is as it is before its first refresh
      have hnone : world.chips[other.chip]? = none := by
        apply List.getElem?_eq_none
        by_contra hlt
        refine hnot ⟨trivial, ?_⟩
        simpa [detach, modifyLine] using hlt
      rw [detach, record_modifyLine, if_neg, record, hnone]
      · rfl
      · rintro ⟨-, hlt⟩
        exact absurd (List.getElem?_eq_none_iff.mp hnone) (Nat.not_le.mpr hlt)
  · simp only [needsUpdate, hrecord, detach, record_modifyLine, heq, false_and, if_false, false_or]

end Frame

/-- What the freeing of lines of one chip leaves alone, and what it makes of the lines. -/
theorem framed_invalidateAll (world : World σ) (lines : List Line) :
    (lines.foldl invalidate world).streams = world.streams ∧
      (lines.foldl invalidate world).tokens = world.tokens ∧
      (∀ other, (∀ line ∈ lines, line.chip ≠ other) →
        (lines.foldl invalidate world).chips[other]? = world.chips[other]?) ∧
      ∀ line, line ∈ lines ∨ world.needsUpdate line = true →
        (lines.foldl invalidate world).needsUpdate line = true := by
  induction lines generalizing world with
  | nil => exact ⟨rfl, rfl, fun _ _ => rfl, fun line h => h.resolve_left List.not_mem_nil⟩
  | cons first rest ih =>
      obtain ⟨hstreams, htokens, hchips, hupdate⟩ := ih (world.invalidate first)
      refine ⟨hstreams.trans (world.streams_invalidate first),
        htokens.trans (world.tokens_invalidate first), fun other hother => ?_, fun line hline => ?_⟩
      · refine (hchips other fun line hline => hother line (List.mem_cons_of_mem _ hline)).trans ?_
        exact world.chip_invalidate (Ne.symm (hother first List.mem_cons_self))
      · refine hupdate line ?_
        rcases hline with hline | hline
        · rcases List.mem_cons.mp hline with rfl | hline
          · exact Or.inr ((world.needsUpdate_invalidate line line).mpr (Or.inl rfl))
          · exact Or.inl hline
        · exact Or.inr ((world.needsUpdate_invalidate first line).mpr (Or.inr hline))

/-! ### The chip as a whole -/

/-- Lines of other chips, or streams, hold the handle. -/
def HeldBeyond (world : World σ) (id : ChipId) (key : HandleId) : Prop :=
  (∃ line, line.chip ≠ id ∧ (world.slot line).handle? = some key) ∨
    ∃ stream, world.streams.get? stream = some key

/-- What the closing of a chip has done. -/
structure Retired (id : ChipId) (before after : World (Traced σ)) : Prop where
  closed : after.ledger.closed? id = some true
  /-- All of its lines, whatever was done with them before. -/
  lines : ∀ line, line.chip = id →
    after.state line = .free ∧ after.isValid line = false ∧ after.needsUpdate line = true
  /-- The handles that nobody else held were released, each once, and no other call was made. -/
  released : ∃ closing, Sheds closing before after ∧ ∀ key handle, (key, handle) ∈ closing ↔
    before.handles.get? key = some handle ∧ ¬ before.HeldBeyond id key
  /-- Other chips are untouched, with all that is known of their lines. -/
  chips : ∀ other, other ≠ id → after.chips[other]? = before.chips[other]?
  streams : after.streams = before.streams
  tokens : after.tokens = before.tokens

omit [Machine σ] in
theorem isValid_eq_false_of_closed {world : World σ} {line : Line}
    (h : world.ledger.closed? line.chip = some true) : world.isValid line = false := by
  obtain ⟨chip, hchip, hclosed⟩ := Option.map_eq_some_iff.mp h
  simp only [isValid, isOpen, openChip, hchip, hclosed, if_true]
  rfl

omit [Machine σ] in
theorem needsUpdate_of_not_known {world : World σ} {line : Line}
    (h : line ∉ world.knownLines line.chip) : world.needsUpdate line = true := by
  unfold knownLines at h
  unfold needsUpdate record
  cases hget : world.chips[line.chip]? with
  | none => rfl
  | some chip =>
      rw [hget, Option.elim_some] at h
      have hnot : line.offset ∉ chip.records.offsets := fun hmem =>
        h (List.mem_map.mpr ⟨line.offset, hmem, rfl⟩)
      rw [Option.elim_some, LineRecords.get_of_not_mem hnot]
      rfl

omit [Machine σ] in
theorem chip_of_mem_knownLines {world : World σ} {id : ChipId} {line : Line}
    (h : line ∈ world.knownLines id) : line.chip = id := by
  unfold knownLines at h
  cases hget : world.chips[id]? with
  | none =>
      rw [hget] at h
      cases h
  | some chip =>
      rw [hget] at h
      obtain ⟨offset, -, rfl⟩ := List.mem_map.mp h
      rfl

omit [Machine σ] in
/-- In a sound world a handle is open as long as somebody holds it, so one that is gone after its
lines were freed was held by nobody else. -/
theorem get?_eq_none_iff_of_freed {id : ChipId} (hafter : Desk.Sound ⟨after, 0⟩)
    (hstreams : after.streams = world.streams)
    (hslot : ∀ line, after.slot line = if line.chip = id then .free else world.slot line)
    {key : HandleId} : after.handles.get? key = none ↔ ¬ world.HeldBeyond id key := by
  have hheld : after.ledger.Held key ↔ world.HeldBeyond id key := by
    refine or_congr ⟨?_, ?_⟩ ⟨?_, ?_⟩
    · rintro ⟨line, hholds⟩
      have hholds : (after.slot line).handle? = some key := hholds
      rw [hslot] at hholds
      split at hholds
      · cases hholds
      · next hchip => exact ⟨line, hchip, hholds⟩
    · rintro ⟨line, hchip, hholds⟩
      refine ⟨line, ?_⟩
      change (after.slot line).handle? = some key
      rwa [hslot, if_neg hchip]
    · rintro ⟨⟨stream, _⟩, hentry, rfl⟩
      refine ⟨stream, ?_⟩
      rw [← hstreams]
      exact hafter.ledger.streams_ascending.mem_entries_iff.mp hentry
    · rintro ⟨stream, hstream⟩
      refine ⟨(stream, key), ?_, rfl⟩
      rw [← hstreams] at hstream
      exact hafter.ledger.streams_ascending.mem_entries_iff.mpr hstream
  rw [← hheld]
  constructor
  · intro hnone hheld
    obtain ⟨found, hfound⟩ := hafter.ledger.held_open hheld
    exact Option.some_ne_none found (hfound.symm.trans hnone)
  · intro hnot
    by_contra hsome
    obtain ⟨found, hfound⟩ := Option.ne_none_iff_exists'.mp hsome
    exact hnot ((hafter.kept key found hfound).resolve_right (Multiset.notMem_zero key))

theorem retired_closeChip (hsound : Desk.Sound ⟨world, 0⟩) {id : ChipId}
    (hopen : world.ledger.closed? id = some false) : Retired id world (world.closeChip id) := by
  have hmoves : Moves { first := 0 } ⟨world.markClosed id, 0⟩ ⟨world.closeChip id, 0⟩ :=
    moves_closeChip hopen
  have hafter : Desk.Sound ⟨world.closeChip id, 0⟩ := hmoves.sound (sound_markClosed hsound id)
  obtain ⟨notice, heq⟩ := closeChip_of_open hopen
  rw [heq] at hafter ⊢
  obtain ⟨hstreams, htokens, hchips, hupdate⟩ :=
    (world.markClosed id).framed_invalidateAll (world.knownLines id)
  obtain ⟨closing, hsheds⟩ := (world.markClosed id).sheds_invalidateAll (world.knownLines id)
  have hclosed : ((world.knownLines id).foldl invalidate (world.markClosed id)).ledger.closed? id =
      some true := by
    rw [closed?_invalidateAll, closed?_markClosed, if_pos rfl, hopen]
    rfl
  have hslot : ∀ line, ((world.knownLines id).foldl invalidate (world.markClosed id)).slot line =
      if line.chip = id then .free else world.slot line := by
    intro line
    rw [slot_invalidateAll, slot, record_markClosed]
    split
    · next hknown => rw [if_pos (chip_of_mem_knownLines hknown)]
    · next hknown =>
      split
      · next hchip =>
        subst hchip
        exact slot_of_not_known hknown
      · rfl
  have hshed : Sheds closing world
      (((world.knownLines id).foldl invalidate (world.markClosed id)).note notice) :=
    ⟨hsheds.keys, hsheds.found, hsheds.handles, hsheds.trace⟩
  refine ⟨hclosed, fun line hline => ?_, ⟨closing, hshed, fun key handle => ?_⟩,
    fun other hother => ?_, hstreams, htokens⟩
  · subst hline
    refine ⟨?_, isValid_eq_false_of_closed hclosed, hupdate line ?_⟩
    · exact (congrArg Slot.state ((hslot line).trans (if_pos rfl)))
    · by_cases hknown : line ∈ world.knownLines line.chip
      · exact Or.inl hknown
      · refine Or.inr ?_
        rw [needsUpdate, record_markClosed]
        exact needsUpdate_of_not_known hknown
  · rw [hshed.mem_iff]
    exact and_congr_right fun _ =>
      @get?_eq_none_iff_of_freed σ world _ id hafter hstreams hslot key
  · refine (hchips other fun line hline hchip => ?_).trans ?_
    · exact hother (hchip ▸ chip_of_mem_knownLines hline)
    · simp only [markClosed, List.getElem?_modify, if_neg (Ne.symm hother)]
      cases world.chips[other]? <;> rfl

end World

end GpioLines
