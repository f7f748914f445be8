import GpioLines.World.Groups

/-!
# Reading edge events

An events handle yields records from a stream of bytes. A single read asks for one record, a batch
read for several; either takes what it is given in one go and fails if that is not a whole number of
records. The asynchronous stream of a line reads one record at a time, never waits, and keeps the
handle open by itself.
-/

namespace GpioLines

/-- The outcome of an operation that may have to wait. -/
inductive Polled (α : Type) where
  | ready (value : α)
  /-- It would wait for something that has not happened yet. -/
  | pending
deriving DecidableEq, Repr

namespace World

variable {σ : Type}

def eventHandle (world : World σ) (line : Line) : Except Error (HandleId × Handle) := do
  let _ ← world.openChip line.chip
  match world.handle? line with
  | none => .error (.permissionDenied line.offset)
  | some held =>
    if held.2.kind = .events then .ok held else .error (.invalid .notRequestedForEvents)

/-- The file whose readiness tells of pending events. It stays open until the line is released. -/
def eventFile (world : World σ) (line : Line) : Except Error FileId :=
  (world.eventHandle line).map (·.2.file)

variable [Machine σ]

def readFile (world : World σ) (file : FileId) (size : Nat) : ReadOutcome × World σ :=
  let (outcome, machine) := Machine.read file size world.machine
  (outcome, { world with machine })

/-! ### Reading a line -/

def readEvent (world : World σ) (line : Line) : Except Error (Polled LineEvent) × World σ :=
  match world.eventHandle line with
  | .error error => world.fail error
  | .ok (_, handle) =>
    match world.readFile handle.file LineEvent.recordSize with
    | (.blocked, world) => (.ok .pending, world)
    | (.failed errno, world) => world.fail (.event errno)
    | (.bytes bytes, world) =>
      match LineEvent.ofRecord? bytes with
      | none => world.fail (.event .ioFailure)
      | some event => (.ok (.ready event), world.note (.readEvent event handle.offsets))

/-- Reads up to `limit` events in one go, and never more than `maxEvents`. -/
def readEvents (world : World σ) (line : Line) (limit : Nat) :
    Except Error (Polled (List LineEvent)) × World σ :=
  match world.eventHandle line with
  | .error error => world.fail error
  | .ok (_, handle) =>
    let count := min limit maxEvents
    if count = 0 then (.ok (.ready []), world)
    else match world.readFile handle.file (LineEvent.recordSize * count) with
      | (.blocked, world) => (.ok .pending, world)
      | (.failed errno, world) => world.fail (.event errno)
      | (.bytes bytes, world) =>
        match LineEvent.ofRecords? bytes with
        | none => world.fail (.event .ioFailure)
        | some events => (.ok (.ready events), world)

/-! ### Asynchronous streams -/

/-- Opens a stream of a line's events, under the key `world.streams.next`. The file is non-blocking
from then on, even if it cannot be watched. -/
def openStream (world : World σ) (line : Line) : Except Error Handle × World σ :=
  match world.eventHandle line with
  | .error error => world.fail error
  | .ok (id, handle) =>
    match Machine.watch handle.file world.machine with
    | (.error errno, machine) => { world with machine }.fail (.io (.system errno.code))
    | (.ok _, machine) => (.ok handle, { world with machine, streams := world.streams.add id })

def streamHandle? (world : World σ) (stream : StreamId) : Option (HandleId × Handle) :=
  (world.streams.get? stream).bind fun id => (world.handles.get? id).map (id, ·)

/-- The next event of a stream, if its file has input. -/
def nextEvent (world : World σ) (stream : StreamId) :
    Except Error (Polled LineEvent) × World σ :=
  match world.streamHandle? stream with
  | none => (.ok .pending, world)
  | some (_, handle) =>
    if Machine.readiness handle.file world.machine ≠ .input then (.ok .pending, world)
    else match world.readFile handle.file LineEvent.recordSize with
      | (.blocked, world) => (.ok .pending, world)
      | (.failed errno, world) =>
        if errno = .wouldBlock then (.ok .pending, world) else world.fail (.event errno)
      | (.bytes bytes, world) =>
        match LineEvent.ofRecord? bytes with
        | none => world.fail (.event .ioFailure)
        | some event => (.ok (.ready event), world)

def dropStream (world : World σ) (stream : StreamId) : World σ :=
  match world.streamHandle? stream with
  | none => world
  | some (id, handle) =>
    let machine := Machine.unwatch handle.file world.machine
    { world with machine, streams := world.streams.erase stream }.dropHandle id

end World

end GpioLines
