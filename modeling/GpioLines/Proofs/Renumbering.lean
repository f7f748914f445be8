import GpioLines.Proofs.Confinement

/-!
# The same under other numbers

Handles and files are numbered in the order in which they are granted, so their numbers tell of
everybody who was granted something before. Apart from these numbers a request, and all that is done
with it, depends on its own lines only. To say so, two states of a simulated chip are compared that
have the same at some of the offsets, and a call that keeps to these offsets is answered alike by
both.
-/

namespace GpioLines

/-! ### Numbers -/

/-- Numbers in use go to numbers in use, no two of them to one, and the numbers that are still to be
given out go to those that are still to be given out, in order. -/
structure Renumbers (f : Nat → Nat) (next later : Nat) : Prop where
  injective : Function.Injective f
  below : ∀ number < next, f number < later
  above : ∀ count, f (next + count) = later + count

namespace Renumbers

variable {f : Nat → Nat} {next later : Nat}

theorem refl (next : Nat) : Renumbers id next next :=
  ⟨Function.injective_id, fun _ hlt => hlt, fun _ => rfl⟩

theorem apply_next (h : Renumbers f next later) : f next = later := h.above 0

theorem succ (h : Renumbers f next later) : Renumbers f (next + 1) (later + 1) where
  injective := h.injective
  below := by
    intro number hlt
    rcases Nat.lt_succ_iff_lt_or_eq.mp hlt with hlt | rfl
    · exact Nat.lt_succ_of_lt (h.below number hlt)
    · exact h.apply_next.trans_lt (Nat.lt_succ_self later)
  above := by
    intro count
    rw [Nat.add_assoc, h.above, Nat.add_assoc]

end Renumbers

/-- As `f` for the numbers in use, and from `later` on for those still to be given out. -/
def renew (f : Nat → Nat) (next later number : Nat) : Nat :=
  if number < next then f number else later + (number - next)

theorem renew_of_lt {f : Nat → Nat} {next later number : Nat} (h : number < next) :
    renew f next later number = f number :=
  if_pos h

/-- Somebody else is given numbers. -/
theorem Renumbers.renew {f : Nat → Nat} {next later last : Nat} (h : Renumbers f next later)
    (hle : later ≤ last) : Renumbers (renew f next last) next last where
  injective := by
    intro a b heq
    unfold GpioLines.renew at heq
    split at heq <;> split at heq
    · exact h.injective heq
    · next hlt _ =>
      have := h.below a hlt
      omega
    · next hlt =>
      have := h.below b hlt
      omega
    · omega
  below := fun number hlt => (renew_of_lt hlt).trans_lt ((h.below number hlt).trans_le hle)
  above := by
    intro count
    rw [GpioLines.renew, if_neg (Nat.not_lt.mpr (Nat.le_add_right next count)),
      Nat.add_sub_cancel_left]

/-- What becomes of the numbers of handles and of files. -/
structure Renumbering where
  handle : HandleId → HandleId
  file : FileId → FileId

namespace Renumbering

def same : Renumbering := ⟨id, id⟩

end Renumbering

def Slot.renumber (f : HandleId → HandleId) : Slot → Slot
  | .free => .free
  | .values id => .values (f id)
  | .events id => .events (f id)

def LineRecord.renumber (record : LineRecord) (numbers : Renumbering) : LineRecord :=
  record.withSlot (record.slot.renumber numbers.handle)

def Handle.renumber (handle : Handle) (numbers : Renumbering) : Handle :=
  { handle with file := numbers.file handle.file }

def Grant.renumber (grant : Grant) (numbers : Renumbering) : Grant :=
  { grant with file := numbers.file grant.file }

/-- A handle together with its number. -/
def Renumbering.held (numbers : Renumbering) (held : HandleId × Handle) : HandleId × Handle :=
  (numbers.handle held.1, held.2.renumber numbers)

@[simp] theorem Slot.handle?_renumber (f : HandleId → HandleId) (slot : Slot) :
    (slot.renumber f).handle? = slot.handle?.map f := by
  cases slot <;> rfl

@[simp] theorem Slot.renumber_holding (f : HandleId → HandleId) (id : HandleId) (kind : HandleKind) :
    (Slot.holding id kind).renumber f = .holding (f id) kind := by
  cases kind <;> rfl

theorem Slot.renumber_eq_free {f : HandleId → HandleId} {slot : Slot} :
    slot.renumber f = .free ↔ slot = .free := by
  cases slot <;> simp [Slot.renumber]

section Congr

variable {numbers other : Renumbering}

theorem LineRecord.renumber_congr {record : LineRecord}
    (h : ∀ id, record.slot.handle? = some id → numbers.handle id = other.handle id) :
    record.renumber numbers = record.renumber other := by
  have hslot : record.slot.renumber numbers.handle = record.slot.renumber other.handle := by
    cases hslot : record.slot with
    | free => rfl
    | values id | events id => exact congrArg _ (h id (by rw [hslot]; rfl))
  rw [LineRecord.renumber, LineRecord.renumber, hslot]

theorem Handle.renumber_congr {handle : Handle}
    (h : numbers.file handle.file = other.file handle.file) :
    handle.renumber numbers = handle.renumber other := by
  rw [Handle.renumber, Handle.renumber, h]

theorem Grant.renumber_congr {grant : Grant} (h : numbers.file grant.file = other.file grant.file) :
    grant.renumber numbers = grant.renumber other := by
  rw [Grant.renumber, Grant.renumber, h]

theorem LineRecord.renumber_of_fixed {record : LineRecord}
    (h : ∀ id, record.slot.handle? = some id → numbers.handle id = id) :
    record.renumber numbers = record := by
  have hslot : record.slot.renumber numbers.handle = record.slot := by
    cases hslot : record.slot with
    | free => rfl
    | values id | events id => exact congrArg _ (h id (by rw [hslot]; rfl))
  rw [LineRecord.renumber, hslot, LineRecord.withSlot]

theorem Handle.renumber_of_fixed {handle : Handle} (h : numbers.file handle.file = handle.file) :
    handle.renumber numbers = handle := by
  rw [Handle.renumber, h]

theorem Grant.renumber_of_fixed {grant : Grant} (h : numbers.file grant.file = grant.file) :
    grant.renumber numbers = grant := by
  rw [Grant.renumber, h]

/-- One renumbering after the other. -/
def Renumbering.after (other numbers : Renumbering) : Renumbering :=
  ⟨other.handle ∘ numbers.handle, other.file ∘ numbers.file⟩

theorem LineRecord.renumber_renumber (record : LineRecord) :
    (record.renumber numbers).renumber other = record.renumber (other.after numbers) := by
  cases hslot : record.slot <;>
    simp [LineRecord.renumber, LineRecord.withSlot, Slot.renumber, Renumbering.after, hslot]

theorem Handle.renumber_renumber (handle : Handle) :
    (handle.renumber numbers).renumber other = handle.renumber (other.after numbers) := rfl

theorem Grant.renumber_renumber (grant : Grant) :
    (grant.renumber numbers).renumber other = grant.renumber (other.after numbers) := rfl

theorem Grant.renumber_injective (h : Function.Injective numbers.file) :
    Function.Injective fun grant : Grant => grant.renumber numbers := by
  intro a b heq
  obtain ⟨hfile, hoffsets, hedges⟩ := Grant.mk.inj heq
  cases a
  cases b
  exact Grant.mk.injEq .. ▸ ⟨h hfile, hoffsets, hedges⟩

end Congr

/-! ### A simulated chip -/

namespace Simulator

/-- Nothing differs that a call about these offsets could tell, and one has ended so many more
grants than the other. -/
structure Mirrors (offsets : Set Offset) (gap : Int) (sim other : Simulator) : Prop where
  make : other.make = sim.make
  line? : ∀ offset ∈ offsets, other.line? offset = sim.line? offset
  released : (other.released : Int) = sim.released + gap

/-- Both refuse with the same error number, or both grant and mirror each other still. -/
inductive AnswerAlike (offsets : Set Offset) (gap : Int) :
    Except Errno Simulator → Except Errno Simulator → Prop
  | refused (errno : Errno) : AnswerAlike offsets gap (.error errno) (.error errno)
  | granted {after later : Simulator} (mirrors : after.Mirrors offsets gap later) :
      AnswerAlike offsets gap (.ok after) (.ok later)

namespace Mirrors

variable {offsets : Set Offset} {gap : Int} {sim other : Simulator}

theorem refl (sim : Simulator) : sim.Mirrors offsets 0 sim :=
  ⟨rfl, fun _ _ => rfl, (Int.add_zero _).symm⟩

theorem modifyAll (h : sim.Mirrors offsets gap other)
    (updates : List (Offset × (SimLine → SimLine))) :
    (sim.modifyAll updates).Mirrors offsets gap (other.modifyAll updates) where
  make := by rw [make_modifyAll, make_modifyAll, h.make]
  line? := by
    induction updates generalizing sim other with
    | nil => exact h.line?
    | cons update rest ih =>
        refine ih ⟨?_, fun offset hmem => ?_, h.released⟩
        · exact (make_modifyAll other [update]).trans (h.make.trans (make_modifyAll sim [update]).symm)
        · rw [line?_modifyLine, line?_modifyLine, h.line? offset hmem]
  released := by rw [released_modifyAll, released_modifyAll, h.released]

/-- Which grants there are makes no difference. -/
theorem withGrants (h : sim.Mirrors offsets gap other) (grants more : List Grant) :
    { sim with grants }.Mirrors offsets gap { other with grants := more } :=
  ⟨h.make, h.line?, h.released⟩

theorem infoFails (h : sim.Mirrors offsets gap other) : other.infoFails = sim.infoFails :=
  congrArg (·.2.2.2) h.make

theorem checkOffsets (h : sim.Mirrors offsets gap other) {asked : List Offset}
    (hasked : ∀ offset ∈ asked, offset ∈ offsets) (before : List Offset) :
    other.checkOffsets before asked = sim.checkOffsets before asked := by
  induction asked generalizing before with
  | nil => rfl
  | cons offset rest ih =>
      unfold Simulator.checkOffsets
      rw [h.line? offset (hasked offset List.mem_cons_self)]
      cases sim.line? offset with
      | none => rfl
      | some line =>
          simp only
          split
          · rfl
          · exact ih (fun other hother => hasked other (List.mem_cons_of_mem _ hother)) _

theorem lineInfo (h : sim.Mirrors offsets gap other) {offset : Offset} (hmem : offset ∈ offsets) :
    other.lineInfo offset = sim.lineInfo offset := by
  rw [Simulator.lineInfo, Simulator.lineInfo, h.infoFails, h.line? offset hmem]

theorem requestLines (h : sim.Mirrors offsets gap other) {request : LinesRequest}
    (hasked : ∀ offset ∈ request.offsets, offset ∈ offsets) (file fresh : FileId) :
    AnswerAlike offsets gap (sim.requestLines file request) (other.requestLines fresh request) := by
  unfold Simulator.requestLines
  rw [h.checkOffsets hasked]
  split
  · exact .refused _
  · split
    · exact .refused _
    · split
      · exact .refused _
      · refine .granted (withGrants ?_ _ _)
        simp only [takeAll_eq, configureAll_eq]
        exact (h.modifyAll _).modifyAll _

theorem requestEvent (h : sim.Mirrors offsets gap other) {request : EventRequest}
    (hasked : request.offset ∈ offsets) (file fresh : FileId) :
    AnswerAlike offsets gap (sim.requestEvent file request) (other.requestEvent fresh request) := by
  unfold Simulator.requestEvent
  rw [h.checkOffsets fun offset hmem => List.mem_singleton.mp hmem ▸ hasked]
  split
  · exact .refused _
  · split
    · exact .refused _
    · refine .granted (withGrants ?_ _ _)
      simp only [takeAll_eq]
      exact (h.modifyAll _).modifyAll [(request.offset, _)]

section Files

variable {file twin : FileId} {grant mate : Grant}

theorem getValues (h : sim.Mirrors offsets gap other) (hgrant : sim.grant? file = some grant)
    (hmate : other.grant? twin = some mate) (hoffsets : mate.offsets = grant.offsets)
    (hwithin : ∀ offset ∈ grant.offsets, offset ∈ offsets) :
    other.getValues twin = sim.getValues file := by
  rw [Simulator.getValues, Simulator.getValues, hgrant, hmate]
  simp only [hoffsets]
  refine congrArg Except.ok (List.map_congr_left fun offset hmem => ?_)
  rw [value, value, h.line? offset (hwithin offset hmem)]

theorem valuesGrant (hgrant : sim.grant? file = some grant) (hmate : other.grant? twin = some mate)
    (hsame : mate = { grant with file := mate.file }) :
    (sim.valuesGrant file = .ok grant ∧ other.valuesGrant twin = .ok mate) ∨
      sim.valuesGrant file = .error .invalid ∧ other.valuesGrant twin = .error .invalid := by
  have hedges : mate.edges = grant.edges := by rw [hsame]
  simp only [Simulator.valuesGrant, hgrant, hmate, hedges]
  cases grant.edges.isSome
  · exact Or.inl ⟨rfl, rfl⟩
  · exact Or.inr ⟨rfl, rfl⟩

theorem setValues (h : sim.Mirrors offsets gap other) (hgrant : sim.grant? file = some grant)
    (hmate : other.grant? twin = some mate) (hsame : mate = { grant with file := mate.file })
    (hwithin : ∀ offset ∈ grant.offsets, offset ∈ offsets) (values : List UInt8) :
    AnswerAlike offsets gap (sim.setValues file values) (other.setValues twin values) := by
  have hoffsets : mate.offsets = grant.offsets := by rw [hsame]
  have houtputs : (grant.offsets.any fun offset => !(other.line? offset).any (·.flags.output)) =
      grant.offsets.any fun offset => !(sim.line? offset).any (·.flags.output) := by
    rw [Bool.eq_iff_iff, List.any_eq_true, List.any_eq_true]
    refine exists_congr fun offset => and_congr_right fun hmem => ?_
    rw [h.line? offset (hwithin offset hmem)]
  have hdrives := h.modifyAll (drives grant.offsets values)
  simp only [Simulator.modifyAll, drives, List.foldl_map] at hdrives
  rcases valuesGrant hgrant hmate hsame with ⟨hfound, hmatch⟩ | ⟨hfound, hmatch⟩
  · simp only [Simulator.setValues, hfound, hmatch, hoffsets, houtputs]
    split
    · exact .refused _
    · exact .granted hdrives
  · simp only [Simulator.setValues, hfound, hmatch]
    exact .refused _

theorem setConfig (h : sim.Mirrors offsets gap other) (hgrant : sim.grant? file = some grant)
    (hmate : other.grant? twin = some mate) (hsame : mate = { grant with file := mate.file })
    (flags : HandleFlags) (values : List UInt8) :
    AnswerAlike offsets gap (sim.setConfig file flags values)
      (other.setConfig twin flags values) := by
  have hoffsets : mate.offsets = grant.offsets := by rw [hsame]
  unfold Simulator.setConfig
  split
  · exact .refused _
  · rcases valuesGrant hgrant hmate hsame with ⟨hfound, hmatch⟩ | ⟨hfound, hmatch⟩
    · simp only [hfound, hmatch, hoffsets, configureAll_eq]
      exact .granted (h.modifyAll _)
    · simp only [hfound, hmatch]
      exact .refused _

theorem release (h : sim.Mirrors offsets gap other) (hgrant : sim.grant? file = some grant)
    (hmate : other.grant? twin = some mate) (hoffsets : mate.offsets = grant.offsets) :
    (sim.release file).Mirrors offsets gap (other.release twin) := by
  rcases sim.release_eq file with ⟨hnone, -⟩ | ⟨ended, -, -, hended, heq⟩
  · rw [hgrant] at hnone
    cases hnone
  rcases other.release_eq twin with ⟨hnone, -⟩ | ⟨last, -, -, hlast, hlater⟩
  · rw [hmate] at hnone
    cases hnone
  obtain rfl := Option.mem_unique hgrant hended
  obtain rfl := Option.mem_unique hmate hlast
  have hfrees := h.modifyAll (frees grant.offsets)
  rw [heq, hlater, hoffsets]
  refine ⟨hfrees.make, hfrees.line?, ?_⟩
  have hreleased := h.released
  push_cast
  omega

end Files

end Mirrors

end Simulator

end GpioLines
