import GpioLines.Proofs.Returning

/-!
# Chips and slots

What the lines of all chips have to do with each other is a matter of three things: the device of each
chip, whether it is closed, and the slot of each line. They are the board of a world. Most of what
the library does leaves the board alone, and each of the few steps that change it has one equation
here.
-/

namespace GpioLines

/-- What operations contend for, and the devices of the chips. -/
structure Board where
  device? : ChipId → Option Device
  closed? : ChipId → Option Bool
  slot : Line → Slot

namespace Board

def withSlot (board : Board) (line : Line) (slot : Slot) : Board :=
  { board with slot := Function.update board.slot line slot }

def shut (board : Board) (chip : ChipId) : Board :=
  { board with closed? := Function.update board.closed? chip (some true) }

theorem slot_withSlot (board : Board) (line : Line) (slot : Slot) (other : Line) :
    (board.withSlot line slot).slot other = if other = line then slot else board.slot other :=
  Function.update_apply ..

theorem closed?_shut (board : Board) (chip other : ChipId) :
    (board.shut chip).closed? other = if other = chip then some true else board.closed? other :=
  Function.update_apply ..

/-- The chip of this group is open, and this is its device. -/
structure Serves (board : Board) (device : Device) (group : Group) : Prop where
  nonempty : group.lines ≠ []
  isOpen : ∀ line ∈ group.lines, board.closed? line.chip = some false
  device : ∀ line ∈ group.lines, board.device? line.chip = some device

structure Offers (board : Board) (device : Device) (group : Group) : Prop
    extends board.Serves device group where
  free : ∀ line ∈ group.lines, board.slot line = .free
  nodup : group.lines.Nodup

/-- The chip is not open, and none of its lines is held. -/
structure Cleared (board : Board) (chip : ChipId) : Prop where
  closed : board.closed? chip ≠ some false
  free : ∀ line : Line, line.chip = chip → board.slot line = .free

end Board

/-! ### Worlds -/

namespace World

variable {σ : Type}

def board (world : World σ) : Board where
  device? id := (world.chips[id]?).map (·.device)
  closed? := world.ledger.closed?
  slot := world.ledger.slot

theorem board_of_chips_eq {before after : World σ} (h : after.chips = before.chips) :
    after.board = before.board := by
  obtain ⟨hclosed, hslot⟩ := ledger_of_chips_eq h
  simp only [board, hclosed, hslot, h]

theorem board_note (world : World σ) (notice : Notice) : (world.note notice).board = world.board :=
  board_of_chips_eq rfl

theorem board_openHandle (world : World σ) (handle : Handle) :
    (world.openHandle handle).board = world.board :=
  board_of_chips_eq rfl

theorem device?_modifyLine (world : World σ) (line : Line) (f : LineRecord → LineRecord) :
    (world.modifyLine line f).board.device? = world.board.device? := by
  funext id
  simp only [board, modifyLine, List.getElem?_modify]
  split <;> cases world.chips[id]? <;> rfl

theorem board_modifyLine (world : World σ) (line : Line) {f : LineRecord → LineRecord}
    (hf : ∀ record, (f record).slot = record.slot) :
    (world.modifyLine line f).board = world.board := by
  have hdevice := device?_modifyLine world line f
  have hledger := ledger_modifyLine world line hf
  simp only [board, Board.mk.injEq] at hdevice ⊢
  exact ⟨hdevice, congrArg Ledger.closed? hledger, congrArg Ledger.slot hledger⟩

theorem board_withSlot {before after : World σ} {line : Line} {slot : Slot}
    (hdevice : after.board.device? = before.board.device?)
    (hledger : after.ledger = before.ledger.withSlot line slot) :
    after.board = before.board.withSlot line slot := by
  have hclosed : after.ledger.closed? = before.ledger.closed? := by
    rw [hledger]
    rfl
  have hslot : after.ledger.slot = Function.update before.ledger.slot line slot := by
    rw [hledger]
    rfl
  simp only [board, Board.withSlot, Board.mk.injEq] at hdevice ⊢
  exact ⟨hdevice, hclosed, hslot⟩

theorem board_attach {world : World σ} {line : Line} {closed : Bool}
    (h : world.board.closed? line.chip = some closed) (id : HandleId) (kind : HandleKind) :
    (world.attach line id kind).board = world.board.withSlot line (.holding id kind) :=
  board_withSlot (device?_modifyLine world line _) (ledger_attach h id kind)

theorem board_detach (world : World σ) (line : Line) :
    (world.detach line).2.board = world.board.withSlot line .free :=
  board_withSlot (device?_modifyLine world line _) (ledger_detach world line)

theorem board_detachStale (world : World σ) (line : Line) :
    ((world.detach line).2.modifyLine line (·.stale)).board = world.board.withSlot line .free := by
  have hkeeps : ∀ record : LineRecord, record.stale.slot = record.slot := fun _ => rfl
  rw [board_modifyLine _ line hkeeps, board_detach]

theorem board_markClosed {world : World σ} {chip : ChipId}
    (h : world.board.closed? chip = some false) :
    (world.markClosed chip).board = world.board.shut chip := by
  have hdevice : (world.markClosed chip).board.device? = world.board.device? := by
    funext id
    simp only [board, markClosed, List.getElem?_modify]
    split <;> cases world.chips[id]? <;> rfl
  have hclosed : (world.markClosed chip).ledger.closed? =
      Function.update world.ledger.closed? chip (some true) := by
    funext other
    have hchip : world.ledger.closed? chip = some false := h
    rw [closed?_markClosed, hchip, Function.update_apply]
    rfl
  have hslot : (world.markClosed chip).ledger.slot = world.ledger.slot := by
    rw [ledger_markClosed]
  simp only [board, Board.shut, Board.mk.injEq] at hdevice ⊢
  exact ⟨hdevice, hclosed, hslot⟩

/-- Nothing is held of a chip that does not exist. -/
theorem cleared_of_none {world : World σ} {chip : ChipId} (h : world.board.closed? chip = none) :
    world.board.Cleared chip := by
  refine ⟨by rw [h]; nofun, ?_⟩
  intro line hline
  have hnone : world.chips[line.chip]? = none := by
    rw [hline]
    exact Option.map_eq_none_iff.mp h
  change world.slot line = .free
  rw [slot, record, hnone]
  rfl

theorem serves_of_chipOf {world : World σ} {group : Group} {chip : Chip}
    (h : world.chipOf group = .ok chip) : world.board.Serves chip.device group := by
  obtain ⟨first, -, honchip⟩ := onChip_of_chipOf h
  obtain ⟨hget, -⟩ := openChip_eq_ok.mp honchip.isOpen
  refine ⟨honchip.nonempty, ?_, ?_⟩
  · intro line hline
    rw [honchip.members line hline]
    exact closed?_eq_false.mpr ⟨chip, honchip.isOpen⟩
  · intro line hline
    rw [honchip.members line hline]
    simp only [board, hget, Option.map_some]

variable [Machine σ]

theorem board_of_perform {world after : World σ} {device : Device} {call : Call}
    {outcome : Outcome call} (h : world.perform device call = (outcome, after)) :
    after.board = world.board := by
  obtain ⟨machine, -, rfl⟩ := perform_eq h
  exact board_of_chips_eq rfl

theorem board_refresh (world : World σ) (line : Line) :
    (world.refresh line).2.board = world.board := by
  unfold refresh
  split
  · exact board_of_chips_eq rfl
  · split
    · next info after hperform =>
      have hkeeps : ∀ record : LineRecord, (record.refreshed info).slot = record.slot := fun _ => rfl
      exact (board_modifyLine after line hkeeps).trans (board_of_perform hperform)
    · next error after hperform =>
      have hkeeps : ∀ record : LineRecord, record.stale.slot = record.slot := fun _ => rfl
      exact (board_modifyLine after line hkeeps).trans (board_of_perform hperform)

theorem board_update (world : World σ) (line : Line) : (world.update line).board = world.board := by
  have hrefresh := board_refresh world line
  unfold update
  split
  · next h => rwa [h] at hrefresh
  · next h =>
    rw [h] at hrefresh
    exact (board_note ..).trans hrefresh

end World

end GpioLines
