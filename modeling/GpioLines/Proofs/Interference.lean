import GpioLines.Proofs.Board
import GpioLines.Proofs.Crew

/-!
# What threads do to each other

Threads contend for the slots of lines and for chips that may be closed. Everything else that a step
changes is of no concern to the other threads, so `Effect` lists all that a step can do to them: it
attaches a line that is free while its thread has the guard, it frees a line, or it marks a chip. Each
thread keeps some knowledge of lines and chips from step to step (`Thread.Sound`), and no effect of
another thread invalidates it.
-/

namespace GpioLines

theorem World.board_letGo {σ : Type} [Machine σ] (world : World σ) (shared : HandleId → Bool)
    (id : HandleId) (rest : List HandleId) : (world.letGo shared id rest).board = world.board := by
  unfold World.letGo
  split
  · rfl
  · exact World.board_of_chips_eq (world.chips_dropHandle id)

/-! ### Effects -/

/-- The thread has marked the chip and is not through with its lines. -/
def Thread.Clears (chip : ChipId) : Thread → Prop
  | .close other (.marked _) | .close other (.invalidating ..) | .close other (.discarding ..) =>
    other = chip
  | _ => False

theorem Thread.Clears.guard? {chip : ChipId} {thread : Thread} (h : thread.Clears chip) :
    thread.guard? = some chip := by
  unfold Clears at h
  split at h
  · exact congrArg some h
  · exact congrArg some h
  · exact congrArg some h
  · exact h.elim

/-- What a step of a thread with this guard does to the board, if `next` is the thread after it. -/
inductive Effect (before : Board) (guard? : Option ChipId) (next : Thread) :
    Option Touch → Board → Prop
  | quiet : Effect before guard? next none before
  | attached {line : Line} {slot : Slot} (guarded : guard? = some line.chip)
      (free : before.slot line = .free) (isOpen : before.closed? line.chip = some false)
      (held : slot ≠ .free) (covered : next.job.Covers line) :
      Effect before guard? next (some (.attached line)) (before.withSlot line slot)
  /-- Without the guard only lines of a chip that is not open are freed. -/
  | freed {line : Line} (allowed : guard? = some line.chip ∨ before.closed? line.chip ≠ some false)
      (covered : next.job.Covers line) :
      Effect before guard? next (some (.freed line)) (before.withSlot line .free)
  | shut {chip : ChipId} (guarded : guard? = some chip) (isOpen : before.closed? chip = some false)
      (clears : next.Clears chip) : Effect before guard? next none (before.shut chip)

namespace Effect

variable {before after : Board} {guard? : Option ChipId} {next : Thread} {touch : Option Touch}
  {line : Line} {chip : ChipId}

theorem device (h : Effect before guard? next touch after) : after.device? = before.device? := by
  cases h <;> rfl

/-- A chip stays open as long as its guard is elsewhere. -/
theorem isOpen (h : Effect before guard? next touch after) (hopen : before.closed? chip = some false)
    (hguard : guard? ≠ some chip) : after.closed? chip = some false := by
  cases h with
  | quiet | attached | freed => exact hopen
  | @shut shutting hguarded =>
      have hne : chip ≠ shutting := fun heq => hguard (heq ▸ hguarded)
      rw [Board.closed?_shut, if_neg hne]
      exact hopen

theorem closed (h : Effect before guard? next touch after)
    (hclosed : before.closed? chip = some true) : after.closed? chip = some true := by
  cases h with
  | quiet | attached | freed => exact hclosed
  | shut =>
      rw [Board.closed?_shut]
      split
      · rfl
      · exact hclosed

theorem not_open (h : Effect before guard? next touch after)
    (hclosed : before.closed? chip ≠ some false) : after.closed? chip ≠ some false := by
  cases h with
  | quiet | attached | freed => exact hclosed
  | shut =>
      rw [Board.closed?_shut]
      split
      · nofun
      · exact hclosed

/-- A free line stays free as long as the guard of its chip is elsewhere, or the chip is closed. -/
theorem free (h : Effect before guard? next touch after) (hfree : before.slot line = .free)
    (hguard : guard? ≠ some line.chip ∨ before.closed? line.chip ≠ some false) :
    after.slot line = .free := by
  cases h with
  | quiet | shut => exact hfree
  | @attached other _ hguarded _ hopen =>
      have hne : line ≠ other := by
        rintro rfl
        exact hguard.elim (fun hnot => hnot hguarded) fun hnot => hnot hopen
      rw [Board.slot_withSlot, if_neg hne]
      exact hfree
  | freed =>
      rw [Board.slot_withSlot]
      split
      · rfl
      · exact hfree

/-- A line of an open chip stays as it is as long as the guard is elsewhere. -/
theorem slot_eq (h : Effect before guard? next touch after)
    (hopen : before.closed? line.chip = some false) (hguard : guard? ≠ some line.chip) :
    after.slot line = before.slot line := by
  cases h with
  | quiet | shut => rfl
  | @attached other _ hguarded =>
      have hne : line ≠ other := fun heq => hguard (heq ▸ hguarded)
      rw [Board.slot_withSlot, if_neg hne]
  | @freed other hallowed =>
      have hne : line ≠ other := by
        rintro rfl
        exact hallowed.elim hguard fun hnot => hnot hopen
      rw [Board.slot_withSlot, if_neg hne]

theorem cleared (h : Effect before guard? next touch after) (hcleared : before.Cleared chip) :
    after.Cleared chip :=
  ⟨h.not_open hcleared.closed, fun line hline =>
    h.free (hcleared.free line hline) (Or.inr (hline ▸ hcleared.closed))⟩

end Effect

/-! ### What threads rely on -/

theorem Group.WellFormed.chip?_eq {group : Group} (h : group.WellFormed) {line : Line}
    (hline : line ∈ group.lines) : group.chip? = some line.chip := by
  unfold Group.chip? Group.first?
  cases hlines : group.lines with
  | nil =>
      rw [hlines] at hline
      cases hline
  | cons first rest =>
      have hfirst : first ∈ group.lines := by
        rw [hlines]
        exact List.mem_cons_self
      exact congrArg some (h.same_chip first hfirst line hline)

/-- What a request knows, if it has attached these lines. -/
def Requesting.Sound (group : Group) (board : Board) (taken : List Line) : Requesting → Prop
  | .start => taken = []
  | .waiting | .entered => taken = [] ∧ group.lines ≠ []
  | .scanning device before rest => taken = [] ∧ board.Serves device group ∧
    before ++ rest = group.lines ∧ before.Nodup ∧ ∀ line ∈ before, board.slot line = .free
  | .asking device => taken = [] ∧ board.Offers device group
  | .acquiring device granted rest => taken = [] ∧ board.Offers device group ∧
    ∃ done, done ++ rest = group.lines ∧ granted.length = done.length
  | .attaching pairs => taken ++ pairs.map (·.1) = group.lines ∧
    (∃ device, board.Serves device group) ∧ (pairs.map (·.1)).Nodup ∧
    ∀ line ∈ pairs.map (·.1), board.slot line = .free
  | .undoing .. => taken = []
  | .refreshing _ | .finished (.ok _) => taken = group.lines
  | .finished (.error _) => taken = []

def Releasing.Sound (group : Group) (board : Board) : Releasing → Prop
  | .detaching guarded _ rest => ∀ line ∈ rest, line ∈ group.lines ∧
    (guarded = false → board.closed? line.chip ≠ some false)
  | _ => True

/-- The lines of a chip that is being closed: those held are still to come. -/
structure Board.Clearing (board : Board) (chip : ChipId) (rest : List Line) : Prop where
  closed : board.closed? chip = some true
  onChip : ∀ line ∈ rest, line.chip = chip
  listed : ∀ line : Line, line.chip = chip → board.slot line = .free ∨ line ∈ rest

def Closing.Sound (chip : ChipId) (board : Board) : Closing → Prop
  | .waiting | .entered => True
  | .marked _ => board.closed? chip = some true
  | .invalidating _ rest | .discarding _ _ rest => board.Clearing chip rest
  | .finished => board.Cleared chip

/-- What a thread knows, if it has attached these lines. -/
def Thread.Sound (board : Board) (taken : List Line) : Thread → Prop
  | .request demand stage => demand.group.WellFormed ∧ stage.Sound demand.group board taken
  | .release group stage => group.WellFormed ∧ stage.Sound group board
  | .close chip stage => stage.Sound chip board

namespace Effect

variable {before after : Board} {guard? : Option ChipId} {next : Thread} {touch : Option Touch}
  {group : Group} {device : Device}

theorem serves (h : Effect before guard? next touch after) (hserves : before.Serves device group)
    (hguard : ∀ line ∈ group.lines, guard? ≠ some line.chip) : after.Serves device group where
  nonempty := hserves.nonempty
  isOpen := fun line hline => h.isOpen (hserves.isOpen line hline) (hguard line hline)
  device := fun line hline => by
    rw [h.device]
    exact hserves.device line hline

theorem offers (h : Effect before guard? next touch after) (hoffers : before.Offers device group)
    (hguard : ∀ line ∈ group.lines, guard? ≠ some line.chip) : after.Offers device group where
  toServes := h.serves hoffers.toServes hguard
  free := fun line hline => h.free (hoffers.free line hline) (Or.inl (hguard line hline))
  nodup := hoffers.nodup

theorem clearing (h : Effect before guard? next touch after) {chip : ChipId} {rest : List Line}
    (hclearing : before.Clearing chip rest) : after.Clearing chip rest where
  closed := h.closed hclearing.closed
  onChip := hclearing.onChip
  listed := fun line hline => by
    refine (hclearing.listed line hline).imp_left fun hfree => h.free hfree (Or.inr ?_)
    rw [hline, hclearing.closed]
    nofun

end Effect

/-- **What a thread knows is out of reach of the others.** -/
theorem Thread.Sound.stable {before after : Board} {guard? : Option ChipId} {next : Thread}
    {touch : Option Touch} {taken : List Line} {thread : Thread} (h : thread.Sound before taken)
    (heffect : Effect before guard? next touch after)
    (hguard : ∀ chip, guard? = some chip → thread.guard? ≠ some chip) :
    thread.Sound after taken := by
  cases thread with
  | request demand stage =>
      obtain ⟨hgroup, hstage⟩ := h
      refine ⟨hgroup, ?_⟩
      -- the guard is the one of the chip of every member
      have helse : stage.isInside = true → ∀ line ∈ demand.group.lines, guard? ≠ some line.chip := by
        intro hinside line hline heq
        apply hguard line.chip heq
        rw [Thread.guard?, if_pos hinside, hgroup.chip?_eq hline]
      cases stage with
      | start | waiting | entered | undoing | refreshing => exact hstage
      | finished outcome => cases outcome <;> exact hstage
      | scanning device earlier rest =>
          obtain ⟨htaken, hserves, hsplit, hnodup, hfree⟩ := hstage
          refine ⟨htaken, heffect.serves hserves (helse rfl), hsplit, hnodup, fun line hline => ?_⟩
          have hmember : line ∈ demand.group.lines := hsplit ▸ List.mem_append_left rest hline
          exact heffect.free (hfree line hline) (Or.inl (helse rfl line hmember))
      | asking device => exact ⟨hstage.1, heffect.offers hstage.2 (helse rfl)⟩
      | acquiring device granted rest =>
          exact ⟨hstage.1, heffect.offers hstage.2.1 (helse rfl), hstage.2.2⟩
      | attaching pairs =>
          obtain ⟨htaken, ⟨device, hserves⟩, hnodup, hfree⟩ := hstage
          refine ⟨htaken, ⟨device, heffect.serves hserves (helse rfl)⟩, hnodup, fun line hline => ?_⟩
          have hmember : line ∈ demand.group.lines := htaken ▸ List.mem_append_right taken hline
          exact heffect.free (hfree line hline) (Or.inl (helse rfl line hmember))
  | release group stage =>
      refine ⟨h.1, ?_⟩
      cases stage with
      | start | waiting | dropping | refreshing | finished => trivial
      | detaching guarded held rest =>
          exact fun line hline => ⟨(h.2 line hline).1, fun hunguarded =>
            heffect.not_open ((h.2 line hline).2 hunguarded)⟩
  | close chip stage =>
      cases stage with
      | waiting | entered => trivial
      | marked => exact heffect.closed h
      | invalidating | discarding => exact heffect.clearing h
      | finished => exact heffect.cleared h

end GpioLines
