import Mathlib.Data.Set.Basic
import GpioLines.Proofs.Board
import GpioLines.World.Reconfigure

/-!
# What an operation has to do with a device, deal by deal

A move says what happens to who holds what; a deal says what passes between the library and a device
together with what the library remembers of it. What is remembered of a request and what the device
was told are one deal, so an invariant that ties the two is one case analysis of the deals, and it
holds at every moment of an operation.

A request or a reconfiguration changes what the device would report of its lines. The lines that an
operation still owes a look are the ones that are `due`; asking the device settles a line, whatever
it answers, and no operation ends with any line due.
-/

namespace GpioLines

variable {σ : Type}

/-- A world in the midst of an operation, with the lines that the operation still has to ask for. -/
structure Docket (σ : Type) where
  world : World σ
  due : Set Line

/-- A call that nothing is to be remembered of: it changes nothing, or it was refused. -/
def Call.Quiet : (call : Call) → Outcome call → Prop
  | .chipInfo, _ | .lineInfo _, _ | .getValues .., _ => True
  | _, outcome => ∃ error, outcome = .error error

/-- If a call is about a file, then about the file of an open handle of that device. -/
def Call.Addressed (device : Device) (handles : Table Handle) : Call → Prop
  | .getValues file _ | .setValues file _ | .setConfig file .. =>
    ∃ id handle, handles.get? id = some handle ∧ handle.device = device ∧ handle.file = file
  | _ => True

namespace World

/-- How many lines a chip has. -/
def lineCount? (world : World σ) (id : ChipId) : Option UInt32 :=
  (world.chips[id]?).map (·.lineCount)

/-- The metadata of a line, as long as the library vouches for it. -/
def vouched (world : World σ) (line : Line) : Option LineInfo :=
  if (world.record line).upToDate then some (world.record line).info else none

/-- Nothing passes to or from a device, nothing is taken, and nothing is newly vouched for. -/
structure Keeps (before after : World σ) : Prop where
  machine : after.machine = before.machine
  handles : after.handles = before.handles
  device : after.board.device? = before.board.device?
  lineCount : after.lineCount? = before.lineCount?
  slot : ∀ line, after.slot line = before.slot line ∨ after.slot line = .free
  vouched : ∀ line info, after.vouched line = some info → before.vouched line = some info

end World

section Deals

variable [Machine σ]

/-- What an operation does in one go; only one that `adds` a chip does so. -/
inductive Deal (adds : Prop) : Docket σ → Docket σ → Prop
  | pass {before after : World σ} {due : Set Line} (keeps : before.Keeps after) :
      Deal adds ⟨before, due⟩ ⟨after, due⟩
  | openChip (allowed : adds) {world : World σ} {due : Set Line} (device : Device)
      (info : ChipInfo) :
      Deal adds ⟨world, due⟩ ⟨{ world with chips := world.chips ++ [Chip.ofInfo device info] }, due⟩
  | read {world : World σ} {due : Set Line} (file : FileId) (size : Nat) :
      Deal adds ⟨world, due⟩
        ⟨{ world with machine := (Machine.read file size world.machine).2 }, due⟩
  | watch {world : World σ} {due : Set Line} (file : FileId) :
      Deal adds ⟨world, due⟩ ⟨{ world with machine := (Machine.watch file world.machine).2 }, due⟩
  | unwatch {world : World σ} {due : Set Line} (file : FileId) :
      Deal adds ⟨world, due⟩ ⟨{ world with machine := Machine.unwatch file world.machine }, due⟩
  | ask {world after : World σ} {due : Set Line} {device : Device} {call : Call}
      {outcome : Outcome call} (quiet : call.Quiet outcome)
      (addressed : call.Addressed device world.handles)
      (told : world.perform device call = (outcome, after)) : Deal adds ⟨world, due⟩ ⟨after, due⟩
  /-- The device tells of a line, and the line is settled. -/
  | learn {world after : World σ} {due : Set Line} {line : Line} {chip : Chip} {info : LineInfo}
      (isOpen : world.openChip line.chip = .ok chip)
      (told : world.perform chip.device (.lineInfo line.offset) = (.ok info, after)) :
      Deal adds ⟨world, due⟩ ⟨after.modifyLine line (·.refreshed info), due \ {line}⟩
  /-- The device tells nothing of a line, and nothing is vouched for any more. -/
  | doubt {world after : World σ} {due : Set Line} {line : Line} {chip : Chip} {error : Error}
      (isOpen : world.openChip line.chip = .ok chip)
      (told : world.perform chip.device (.lineInfo line.offset) = (.error error, after)) :
      Deal adds ⟨world, due⟩ ⟨after.modifyLine line (·.stale), due \ {line}⟩
  | take {world after : World σ} {due : Set Line} {group : Group} {config : RequestConfig}
      {defaults : Option (List UInt8)} {chip : Chip} {id : ChipId} {file : FileId}
      (onChip : world.OnChip group chip id)
      (valid : (World.linesHandle chip.device file group config defaults).Valid)
      (granted : world.perform chip.device (.requestLines (World.linesRequest group config defaults)) =
        (.ok file, after)) :
      Deal adds ⟨world, due⟩
        ⟨after.openHandle (World.linesHandle chip.device file group config defaults),
          due ∪ {line | line ∈ group.lines}⟩
  | listen {world after : World σ} {due : Set Line} {line : Line} {config : RequestConfig}
      {chip : Chip} {file : FileId} (isOpen : world.openChip line.chip = .ok chip)
      (granted : world.perform chip.device (.requestEvent (World.eventRequest config line)) =
        (.ok file, after)) :
      Deal adds ⟨world, due⟩
        ⟨after.openHandle (World.eventGrant chip.device config line file), insert line due⟩
  | attach {world : World σ} {due : Set Line} {line : Line} {id : HandleId} {handle : Handle}
      (found : world.handles.get? id = some handle)
      (device : world.board.device? line.chip = some handle.device) (kind : HandleKind) :
      Deal adds ⟨world, due⟩ ⟨world.attach line id kind, due⟩
  | drive {world after : World σ} {due : Set Line} {id : HandleId} {handle : Handle}
      {values : List UInt8} (found : world.handles.get? id = some handle)
      (length : values.length = handle.offsets.length) (bits : ∀ value ∈ values, IsBit value)
      (driven : world.perform handle.device (.setValues handle.file values) = (.ok (), after)) :
      Deal adds ⟨world, due⟩
        ⟨{ after with handles := after.handles.modify id (·.driven values) }, due⟩
  | configure {world after : World σ} {due : Set Line} {group : Group} {chip : Chip} {chipId : ChipId}
      {id : HandleId} {handle : Handle} {flags : HandleFlags} {values : List UInt8}
      (onChip : world.OnChip group chip chipId) (covers : world.Covers group id handle)
      (length : values.length = handle.offsets.length) (bits : ∀ value ∈ values, IsBit value)
      (configured : world.perform handle.device (.setConfig handle.file flags values) =
        (.ok (), after)) :
      Deal adds ⟨world, due⟩
        ⟨{ after with handles := after.handles.modify id (·.configured flags values) },
          due ∪ {line | line ∈ group.lines}⟩
  /-- A handle goes, and with it what was known of its lines. -/
  | close {world : World σ} {due : Set Line} {id : HandleId} {handle : Handle}
      (found : world.handles.get? id = some handle) :
      Deal adds ⟨world, due⟩
        ⟨world.closeHandle id, due \ {line | line.offset ∈ handle.offsets}⟩

abbrev Deals (adds : Prop) (before after : Docket σ) : Prop :=
  Relation.ReflTransGen (Deal adds) before after

end Deals

/-! ### What keeps -/

namespace World

variable {world after : World σ}

theorem vouched_of_record_eq {line : Line} (h : after.record line = world.record line) :
    after.vouched line = world.vouched line := by
  rw [vouched, vouched, h]

theorem lineCount?_of_chips_eq (h : after.chips = world.chips) :
    after.lineCount? = world.lineCount? := by
  funext id
  rw [lineCount?, lineCount?, h]

theorem lineCount?_modifyLine (world : World σ) (line : Line) (f : LineRecord → LineRecord) :
    (world.modifyLine line f).lineCount? = world.lineCount? := by
  funext id
  simp only [lineCount?, modifyLine, List.getElem?_modify]
  split <;> cases world.chips[id]? <;> rfl

theorem record_of_chips_eq (h : after.chips = world.chips) : after.record = world.record := by
  funext line
  rw [record, record, h]

/-- The log, the tokens and the streams have no part in a deal. -/
theorem keeps_of_eq (hmachine : after.machine = world.machine) (hhandles : after.handles = world.handles)
    (hchips : after.chips = world.chips) : world.Keeps after := by
  have hboard := board_of_chips_eq hchips
  have hrecord := record_of_chips_eq hchips
  refine ⟨hmachine, hhandles, by rw [hboard], lineCount?_of_chips_eq hchips, ?_, ?_⟩
  · intro line
    exact Or.inl (by rw [slot, slot, hrecord])
  · intro line info hvouched
    rwa [vouched_of_record_eq (congrFun hrecord line)] at hvouched

theorem keeps_modifyLine (world : World σ) (line : Line) {f : LineRecord → LineRecord}
    (hslot : ∀ record, (f record).slot = record.slot ∨ (f record).slot = .free)
    (hvouched : ∀ record, (f record).upToDate = true →
      record.upToDate = true ∧ (f record).info = record.info) :
    world.Keeps (world.modifyLine line f) := by
  refine ⟨rfl, rfl, device?_modifyLine world line f, lineCount?_modifyLine world line f, ?_, ?_⟩
  · intro other
    simp only [slot, record_modifyLine]
    split
    · next h =>
      rw [h.1]
      exact hslot _
    · exact Or.inl rfl
  · intro other info h
    simp only [vouched, record_modifyLine] at h ⊢
    split at h
    · next hsame =>
      rw [hsame.1]
      split at h
      · next hdate =>
        obtain ⟨hold, hinfo⟩ := hvouched _ hdate
        rw [if_pos hold, ← hinfo]
        exact h
      · cases h
    · exact h

theorem keeps_detach (world : World σ) (line : Line) : world.Keeps (world.detach line).2 :=
  keeps_modifyLine world line (fun _ => Or.inr rfl) fun _ h => ⟨h, rfl⟩

theorem keeps_stale (world : World σ) (line : Line) : world.Keeps (world.modifyLine line (·.stale)) :=
  keeps_modifyLine world line (fun _ => Or.inl rfl) fun _ h => absurd h Bool.false_ne_true

theorem keeps_markClosed (world : World σ) (id : ChipId) : world.Keeps (world.markClosed id) := by
  refine ⟨rfl, rfl, ?_, ?_, ?_, ?_⟩
  · funext other
    simp only [board, markClosed, List.getElem?_modify]
    split <;> cases world.chips[other]? <;> rfl
  · funext other
    simp only [lineCount?, markClosed, List.getElem?_modify]
    split <;> cases world.chips[other]? <;> rfl
  · intro line
    exact Or.inl (by rw [slot, slot, record_markClosed])
  · intro line info h
    rwa [vouched_of_record_eq (record_markClosed id line)] at h

end World

end GpioLines
