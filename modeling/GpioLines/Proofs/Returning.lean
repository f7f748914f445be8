import GpioLines.Proofs.Evolution
import GpioLines.Proofs.Taking

/-!
# Releases and closing as chains of moves

Both detach lines first and let go of the handles afterwards. A chip that closes is marked before its
lines are detached, so from the mark on nothing can be attached to it; the mark itself moves nothing,
and when the last line is detached all of them are free.
-/

namespace GpioLines.World

variable {σ : Type} {scope : Scope} {world : World σ} {owned : Multiset HandleId}

/-! ### Marking a chip closed -/

def markClosed (world : World σ) (id : ChipId) : World σ :=
  { world with chips := world.chips.modify id ({ · with closed := true }) }

theorem closed?_markClosed (id other : ChipId) :
    (world.markClosed id).ledger.closed? other =
      if other = id then (world.ledger.closed? id).map fun _ => true
      else world.ledger.closed? other := by
  simp only [ledger, markClosed, List.getElem?_modify]
  by_cases h : other = id
  · subst h
    cases world.chips[other]? <;> simp
  · simp [h, Ne.symm h]

theorem record_markClosed (id : ChipId) (line : Line) :
    (world.markClosed id).record line = world.record line := by
  simp only [record, markClosed, List.getElem?_modify]
  split
  · next h => cases world.chips[line.chip]? <;> rfl
  · cases world.chips[line.chip]? <;> rfl

theorem ledger_markClosed (id : ChipId) :
    (world.markClosed id).ledger =
      { world.ledger with closed? := (world.markClosed id).ledger.closed? } := by
  have hslot : (world.markClosed id).slot = world.slot := by
    funext line
    rw [slot, record_markClosed]
    rfl
  simp only [ledger, hslot]
  rfl

theorem Tidy.markClosed (h : world.Tidy) (id : ChipId) : (world.markClosed id).Tidy := by
  refine ⟨fun chip hmem => ?_, h.idle⟩
  obtain ⟨i, hget⟩ := List.mem_iff_getElem?.mp hmem
  simp only [World.markClosed, List.getElem?_modify] at hget
  split at hget
  · obtain ⟨old, hold, rfl⟩ := Option.map_eq_some_iff.mp hget
    exact h.records old (List.mem_of_getElem? hold)
  · simp only [Option.map_eq_map, Option.map_id_fun', id_eq] at hget
    exact h.records chip (List.mem_of_getElem? hget)

theorem sound_markClosed (h : Desk.Sound ⟨world, owned⟩) (id : ChipId) :
    Desk.Sound ⟨world.markClosed id, owned⟩ :=
  h.of_ledger_eq (h.tidy.markClosed id) (ledger_markClosed id)

def knownLines (world : World σ) (id : ChipId) : List Line :=
  (world.chips[id]?).elim [] fun chip => chip.records.offsets.map (Line.mk id)

theorem slot_of_not_known {line : Line} (h : line ∉ world.knownLines line.chip) :
    world.slot line = .free := by
  unfold knownLines at h
  unfold slot record
  cases hget : world.chips[line.chip]? with
  | none => rfl
  | some chip =>
      rw [hget, Option.elim_some] at h
      have hnot : line.offset ∉ chip.records.offsets := fun hmem =>
        h (List.mem_map.mpr ⟨line.offset, hmem, rfl⟩)
      rw [Option.elim_some, LineRecords.get_of_not_mem hnot]
      rfl

variable [Machine σ]

/-! ### Releases -/

theorem moves_detachAll (lines : List Line) :
    Moves scope ⟨world, owned⟩
      ⟨(world.detachAll lines).2, ((world.detachAll lines).1 : Multiset HandleId) + owned⟩ := by
  induction lines generalizing world owned with
  | nil =>
      rw [detachAll, Multiset.coe_nil, Multiset.zero_add]
  | cons line rest ih =>
      have howned : ((world.detachAll (line :: rest)).1 : Multiset HandleId) + owned =
          (((world.detach line).2.detachAll rest).1 : Multiset HandleId) +
            ((world.detach line).1.toList + owned) := by
        change (((world.detach line).1.toList ++ ((world.detach line).2.detachAll rest).1 :
          List HandleId) : Multiset HandleId) + owned = _
        rw [← Multiset.coe_add, Multiset.add_comm (((world.detach line).1.toList : List HandleId) :
          Multiset HandleId), Multiset.add_assoc]
      rw [howned]
      exact .head (.detach line) ih

theorem moves_release (group : Group) :
    Moves scope ⟨world, 0⟩ ⟨world.release group, 0⟩ := by
  have hdetach : Moves scope ⟨world, 0⟩
      ⟨(world.detachAll group.lines).2, ((world.detachAll group.lines).1 : Multiset HandleId) + 0⟩ :=
    moves_detachAll group.lines
  rw [Multiset.add_zero] at hdetach
  have hdrop := hdetach.trans (moves_dropHandles _)
  unfold release
  simp only
  split
  · exact hdrop
  · split
    · exact (hdrop.trans (moves_note _)).trans (moves_updateAll group)
    · exact hdrop.trans (moves_note _)

/-! ### Closing -/

theorem moves_invalidate (line : Line) :
    Moves scope ⟨world, 0⟩ ⟨world.invalidate line, 0⟩ := by
  have hdetach : Moves scope ⟨world, 0⟩
      ⟨(world.detach line).2.modifyLine line (·.stale), (world.detach line).1.toList + 0⟩ :=
    .tail (.single (.detach line)) (.retouch line fun _ => rfl)
  unfold invalidate
  simp only
  cases hheld : (world.detach line).1 with
  | none =>
      rw [hheld] at hdetach
      exact hdetach
  | some id =>
      rw [hheld] at hdetach
      exact hdetach.trans (moves_dropHandles [id])

theorem moves_invalidateAll (lines : List Line) :
    Moves scope ⟨world, 0⟩ ⟨lines.foldl invalidate world, 0⟩ := by
  induction lines generalizing world with
  | nil => exact .refl
  | cons line rest ih => exact (moves_invalidate line).trans ih

theorem chips_invalidate (world : World σ) (line : Line) :
    (world.invalidate line).chips = ((world.detach line).2.modifyLine line (·.stale)).chips := by
  unfold invalidate
  simp only
  cases (world.detach line).1 with
  | none => rfl
  | some id => exact chips_dropHandle _ id

theorem slot_invalidate (line other : Line) :
    (world.invalidate line).slot other = if other = line then .free else world.slot other := by
  have hslot := (ledger_of_chips_eq (world.chips_invalidate line)).2
  rw [ledger_detachStale] at hslot
  apply (congrFun hslot other).trans
  simp only [Ledger.withSlot, Function.update_apply]
  rfl

theorem slot_invalidateAll (lines : List Line) (other : Line) :
    (lines.foldl invalidate world).slot other =
      if other ∈ lines then .free else world.slot other := by
  induction lines generalizing world with
  | nil => simp
  | cons line rest ih =>
      rw [List.foldl_cons, ih, slot_invalidate]
      by_cases hrest : other ∈ rest
      · rw [if_pos hrest, if_pos (List.mem_cons_of_mem _ hrest)]
      · simp only [hrest, if_false, List.mem_cons, or_false]

theorem closed?_invalidate (line : Line) :
    (world.invalidate line).ledger.closed? = world.ledger.closed? := by
  have hclosed := (ledger_of_chips_eq (world.chips_invalidate line)).1
  rw [ledger_detachStale] at hclosed
  exact hclosed

theorem closed?_invalidateAll (lines : List Line) :
    (lines.foldl invalidate world).ledger.closed? = world.ledger.closed? := by
  induction lines generalizing world with
  | nil => rfl
  | cons line rest ih => rw [List.foldl_cons, ih, closed?_invalidate]

theorem closeChip_of_closed {id : ChipId} (h : world.ledger.closed? id ≠ some false) :
    world.closeChip id = world := by
  unfold closeChip
  split
  · rfl
  · next chip hget =>
    have hclosed : chip.closed = true := by
      by_contra hopen
      apply h
      simp only [ledger, hget, Option.map_some, Bool.eq_false_of_not_eq_true hopen]
    rw [if_pos hclosed]

theorem closeChip_of_open {id : ChipId} (h : world.ledger.closed? id = some false) :
    ∃ notice, world.closeChip id =
      ((world.knownLines id).foldl invalidate (world.markClosed id)).note notice := by
  obtain ⟨chip, hget, hopen⟩ := Option.map_eq_some_iff.mp h
  refine ⟨.closedChip chip.name, ?_⟩
  unfold closeChip
  simp only [hget, hopen, Bool.false_eq_true, if_false, knownLines, Option.elim_some]
  rfl

theorem moves_closeChip {id : ChipId} (h : world.ledger.closed? id = some false) :
    Moves scope ⟨world.markClosed id, 0⟩ ⟨world.closeChip id, 0⟩ := by
  obtain ⟨notice, heq⟩ := closeChip_of_open h
  rw [heq]
  exact (moves_invalidateAll _).trans (moves_note _)

/-- **A closed chip holds nothing.** -/
theorem idle_closeChip (h : world.ledger.Idle) (id : ChipId) :
    (world.closeChip id).ledger.Idle := by
  by_cases hopen : world.ledger.closed? id = some false
  · obtain ⟨notice, heq⟩ := closeChip_of_open hopen
    rw [heq]
    intro line hline
    change ((world.knownLines id).foldl invalidate (world.markClosed id)).ledger.closed? line.chip =
      some true at hline
    change ((world.knownLines id).foldl invalidate (world.markClosed id)).slot line = .free
    rw [closed?_invalidateAll, closed?_markClosed] at hline
    rw [slot_invalidateAll, slot, record_markClosed]
    split
    · rfl
    · next hknown =>
      by_cases hchip : line.chip = id
      · subst hchip
        exact slot_of_not_known hknown
      · rw [if_neg hchip] at hline
        exact h line hline
  · rw [closeChip_of_closed hopen]
    exact h

end GpioLines.World
