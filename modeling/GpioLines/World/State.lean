import GpioLines.Group
import GpioLines.LineRecords
import GpioLines.Machine
import GpioLines.Notice
import GpioLines.Table

/-!
# The state of the library

A world is a machine with the chips that were opened on it, the handles that are open, the streams
and cancel tokens that exist, and the log. Operations are functions from worlds to worlds; one that
can fail returns the error next to the world it leaves behind.

A handle is open as long as a line, a stream or a wait refers to it. There is no count of references:
who holds a handle is read off the slots, the streams and the waits, and `dropHandle` closes it once
nobody does.
-/

namespace GpioLines

structure Chip where
  device : Device
  name : String
  label : String
  /-- As the device reported it when the chip was opened. -/
  lineCount : UInt32
  records : LineRecords := .empty
  closed : Bool := false

namespace Chip

/-- A chip as it is when just opened on a device that reports this. -/
def ofInfo (device : Device) (info : ChipInfo) : Chip where
  device
  name := info.name
  label := info.label
  lineCount := info.lineCount

def offsets (chip : Chip) : List Offset := offsetsBelow chip.lineCount

def modifyLine (chip : Chip) (offset : Offset) (f : LineRecord → LineRecord) : Chip :=
  { chip with records := chip.records.modify offset f }

end Chip

abbrev StreamId := Nat

abbrev TokenId := Nat

structure World (σ : Type) where
  machine : σ
  chips : List Chip := []
  handles : Table Handle := .empty
  /-- The handle that each stream reads. -/
  streams : Table HandleId := .empty
  /-- The handles that waits under way refer to, once for each reference. -/
  waiting : List HandleId := []
  /-- For each cancel token, whether it was cancelled. -/
  tokens : List Bool := []
  log : Array Notice := #[]

namespace World

variable {σ : Type}

/-! ### Log and failure -/

def note (world : World σ) (notice : Notice) : World σ :=
  { world with log := world.log.push notice }

def fail {α : Type} (world : World σ) (error : Error) : Except Error α × World σ :=
  (.error error, { world with log := world.log ++ error.notices })

/-! ### Lines -/

def record (world : World σ) (line : Line) : LineRecord :=
  (world.chips[line.chip]?).elim (.initial line.offset) (·.records.get line.offset)

def modifyLine (world : World σ) (line : Line) (f : LineRecord → LineRecord) : World σ :=
  { world with chips := world.chips.modify line.chip (·.modifyLine line.offset f) }

def slot (world : World σ) (line : Line) : Slot := (world.record line).slot

def state (world : World σ) (line : Line) : LineState := (world.slot line).state

def isFree (world : World σ) (line : Line) : Bool := world.slot line == .free

def isRequested (world : World σ) (line : Line) : Bool := !world.isFree line

def needsUpdate (world : World σ) (line : Line) : Bool := (world.record line).needsUpdate

def handle? (world : World σ) (line : Line) : Option (HandleId × Handle) :=
  (world.slot line).handle?.bind fun id => (world.handles.get? id).map (id, ·)

/-! ### Chips -/

/-- A chip, as long as it is open. -/
def openChip (world : World σ) (id : ChipId) : Except Error Chip :=
  match world.chips[id]? with
  | some chip => if chip.closed then .error (.invalid .chipClosed) else .ok chip
  | none => .error (.invalid .chipClosed)

def isOpen (world : World σ) (id : ChipId) : Bool := (world.openChip id).isOk

/-- A line can be used until its chip is closed. -/
def isValid (world : World σ) (line : Line) : Bool := world.isOpen line.chip

/-! ### Calls of a device -/

variable [Machine σ]

def perform (world : World σ) (device : Device) (call : Call) : Outcome call × World σ :=
  let (outcome, machine) := Machine.perform device call world.machine
  (outcome, { world with machine })

/-! ### Opening and closing handles -/

def openHandle (world : World σ) (handle : Handle) : World σ :=
  { world.note (.openedHandle handle) with handles := world.handles.add handle }

def attach (world : World σ) (line : Line) (id : HandleId) (kind : HandleKind) : World σ :=
  world.modifyLine line (·.withSlot (.holding id kind))

/-- A line, a stream or a wait refers to the handle. -/
def isHeld (world : World σ) (id : HandleId) : Bool :=
  world.chips.any (·.records.any (·.slot.handle? == some id)) ||
    world.streams.entries.any (·.2 == id) || world.waiting.contains id

def closeHandle (world : World σ) (id : HandleId) : World σ :=
  match world.handles.get? id with
  | none => world
  | some handle =>
    let world := world.note (.closingHandle handle)
    { world with
      machine := Machine.release handle.device handle.file world.machine
      handles := world.handles.erase id }

/-- Lets go of a handle: it closes unless someone else still holds it. -/
def dropHandle (world : World σ) (id : HandleId) : World σ :=
  if world.isHeld id then world else world.closeHandle id

/-- Lets go of several references one after the other, so a handle that occurs more than once closes
at its last occurrence. -/
def dropHandles (world : World σ) : List HandleId → World σ
  | [] => world
  | id :: rest =>
    if id ∈ rest then world.dropHandles rest else (world.dropHandle id).dropHandles rest

def detach (world : World σ) (line : Line) : Option HandleId × World σ :=
  ((world.slot line).handle?, world.modifyLine line (·.withSlot .free))

def detachAll (world : World σ) : List Line → List HandleId × World σ
  | [] => ([], world)
  | line :: rest =>
    let (held, world) := world.detach line
    let (more, world) := world.detachAll rest
    (held.toList ++ more, world)

/-! ### Metadata -/

/-- Asks the device for a line's metadata. On failure the old metadata stays and is marked stale. -/
def refresh (world : World σ) (line : Line) : Except Error Unit × World σ :=
  match world.openChip line.chip with
  | .error error => world.fail error
  | .ok chip =>
    match world.perform chip.device (.lineInfo line.offset) with
    | (.ok info, world) => (.ok (), world.modifyLine line (·.refreshed info))
    | (.error error, world) => (.error error, world.modifyLine line (·.stale))

/-- Refreshes after a change; a failure is only noted. -/
def update (world : World σ) (line : Line) : World σ :=
  match world.refresh line with
  | (.ok _, world) => world
  | (.error error, world) => world.note (.staleLine line.offset error)

def updateAll (world : World σ) (group : Group) : World σ := group.lines.foldl update world

def info (world : World σ) (line : Line) : Except Error LineInfo :=
  (world.openChip line.chip).map fun _ => (world.record line).info

end World

end GpioLines
