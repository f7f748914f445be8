import GpioLines.World.Groups

/-!
# Requests

A request takes every line of a group or none. It first checks what needs no lock: an open chip,
sensible flags, one default value a line. The rest happens while no other request, release or close
of the chip can come between: the chip is still open, every member is free and occurs once, the
device grants the request, and the members are attached to their handles.

A request for values is one call of the device and gives one handle. A request for events is one
call a member, and the handles granted so far are closed again if any call fails.
-/

namespace GpioLines.World

variable {σ : Type}

/-! ### Checks -/

def checkRequest (world : World σ) (group : Group) (config : RequestConfig)
    (defaults : Option (List UInt8)) : Except Error Unit := do
  let _ ← world.chipOf group
  config.flags.validate
  group.checkCount? defaults

/-- The first line of the list that is requested already, or that occurs among the lines before. -/
def firstTaken? (world : World σ) : List Line → List Line → Option Line
  | _, [] => none
  | before, line :: rest =>
    if !world.isFree line || before.contains line then some line
    else world.firstTaken? (before ++ [line]) rest

/-- The chip is still open and every member can be taken. -/
def checkTakeable (world : World σ) (group : Group) : Except Error Chip := do
  let chip ← world.chipOf group
  match world.firstTaken? [] group.lines with
  | some line => .error (.busy line.offset)
  | none => .ok chip

/-- What outputs are driven to at first. -/
def initialValues (group : Group) (config : RequestConfig) : Option (List UInt8) → List UInt8
  | some values =>
    if config.type = .output then values.map normalize else List.replicate group.size 0
  | none => List.replicate group.size 0

/-! ### Taking the lines -/

variable [Machine σ]

def requestValues (world : World σ) (device : Device) (group : Group) (config : RequestConfig)
    (defaults : Option (List UInt8)) : Except Error Unit × World σ :=
  let flags := config.flags.handleFlags config.type
  let values := initialValues group config defaults
  let request : LinesRequest :=
    { offsets := group.offsets, flags, values, consumer := config.consumer }
  match world.perform device (.requestLines request) with
  | (.error error, world) => (.error error, world)
  | (.ok file, world) =>
    let id := world.handles.next
    let world := world.openHandle
      { kind := .values, device, file, offsets := group.offsets, flags, values }
    let world := group.lines.foldl (fun world line => world.attach line id .values) world
    (.ok (), world.note (.requestedValues group.offsets config.consumer))

/-- One event handle for each line, or the error of the first line the device refuses. The handles
granted by then come with the error, still open. -/
def acquireEvents (world : World σ) (device : Device) (config : RequestConfig) :
    List HandleId → List Line → (Option (Line × Error) × List HandleId) × World σ
  | granted, [] => ((none, granted), world)
  | granted, line :: rest =>
    let flags := config.flags.handleFlags config.type
    let request : EventRequest :=
      { offset := line.offset, flags, edges := config.type.edges, consumer := config.consumer }
    match world.perform device (.requestEvent request) with
    | (.error error, world) => ((some (line, error), granted), world)
    | (.ok file, world) =>
      let id := world.handles.next
      let world := world.openHandle
        { kind := .events, device, file, offsets := [line.offset], flags, values := [] }
      world.acquireEvents device config (granted ++ [id]) rest

def requestEvents (world : World σ) (device : Device) (group : Group) (config : RequestConfig) :
    Except Error Unit × World σ :=
  match world.acquireEvents device config [] group.lines with
  | ((some (line, error), granted), world) =>
    let world :=
      if granted.isEmpty then world
      else world.note (.refusedEvent line.offset granted.length error)
    (.error error, world.dropHandles granted)
  | ((none, granted), world) =>
    let world := (group.lines.zip granted).foldl
      (fun world (line, id) => world.attach line id .events) world
    (.ok (), world.note (.requestedEvents group.offsets config.type.edges config.consumer))

def requestLocked (world : World σ) (group : Group) (config : RequestConfig)
    (defaults : Option (List UInt8)) : Except Error Unit × World σ :=
  match world.checkTakeable group with
  | .error error => world.fail error
  | .ok chip =>
    let (outcome, world) :=
      if config.type.isEvent then world.requestEvents chip.device group config
      else world.requestValues chip.device group config defaults
    match outcome with
    | .error error => (.error error, world)
    | .ok _ => (.ok (), world.updateAll group)

def request (world : World σ) (group : Group) (config : RequestConfig)
    (defaults : Option (List UInt8)) : Except Error Unit × World σ :=
  match world.checkRequest group config defaults with
  | .error error => world.fail error
  | .ok _ => world.requestLocked group config defaults

/-! ### Giving them back -/

def release (world : World σ) (group : Group) : World σ :=
  let isOpen := group.first?.any fun line => world.isOpen line.chip
  let (held, world) := world.detachAll group.lines
  let world := world.dropHandles held
  if held.isEmpty then world
  else
    let world := world.note (.released held.length group.offsets)
    if isOpen then world.updateAll group else world

end GpioLines.World
