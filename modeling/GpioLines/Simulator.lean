import GpioLines.Bytes
import GpioLines.Event
import GpioLines.Device

/-!
# A simulated chip

A device without hardware that follows the rules of the kernel: which flags go together, that a line
has one consumer at a time, and which error number each refusal has. Its lines have physical levels;
values are logical, that is, inverted on active-low lines.

A grant is what the simulator keeps of an open file. The files themselves belong to the machine,
which chooses their numbers and delivers the records that `setLevel` emits.
-/

namespace GpioLines

structure SimLine where
  name : Option String := none
  consumer : Option String := none
  flags : InfoFlags := {}
  /-- The physical level. -/
  level : Bool := false
  requested : Bool := false
  infoFails : Bool := false
deriving DecidableEq, Repr

namespace SimLine

def activeLow (line : SimLine) : Bool := line.flags.settings.activeLow

/-- The logical level. -/
def active (line : SimLine) : Bool := line.level ^^ line.activeLow

def drive (line : SimLine) (active : Bool) : SimLine :=
  { line with level := active ^^ line.activeLow }

/-- Takes over the settings, and the direction if the flags name one. On words this is a copy of bits
(`toBits_applyFlags`). -/
def applyFlags (line : SimLine) (flags : HandleFlags) : SimLine :=
  { line with
    flags :=
      { used := line.flags.used
        output := flags.output || (line.flags.output && !flags.input)
        settings := flags.settings } }

/-- As `applyFlags`; an output is also driven. -/
def configure (line : SimLine) (flags : HandleFlags) (value : UInt8) : SimLine :=
  let line := line.applyFlags flags
  if flags.output then line.drive (isActive value) else line

/-- Marks the line as held. A consumer without a name is none. -/
def take (line : SimLine) (consumer : String) : SimLine :=
  { line with
    requested := true
    consumer := if consumer = "" then none else some consumer
    flags := { line.flags with used := true } }

def free (line : SimLine) : SimLine :=
  { line with requested := false, consumer := none, flags := { line.flags with used := false } }

def info (line : SimLine) (offset : Offset) : LineInfo :=
  { offset, flags := line.flags, name := line.name, consumer := line.consumer }

end SimLine

/-- An open file of a simulator: its lines, and for events the edges it subscribes to. -/
structure Grant where
  file : FileId
  offsets : List Offset
  edges : Option EdgeFlags := none
deriving DecidableEq, Repr

def EdgeFlags.contains (edges : EdgeFlags) : Edge → Bool
  | .rising => edges.rising
  | .falling => edges.falling

structure Simulator where
  name : String
  lines : Array SimLine
  grants : List Grant := []
  /-- How many grants have ended. -/
  released : Nat := 0
  clock : UInt64 := 0
  infoFails : Bool := false
deriving DecidableEq, Repr

namespace Simulator

def create (name : String) (lineCount : UInt32) : Simulator :=
  { name, lines := Array.replicate lineCount.toNat {} }

def line? (sim : Simulator) (offset : Offset) : Option SimLine := sim.lines[offset.toNat]?

def modifyLine (sim : Simulator) (offset : Offset) (f : SimLine → SimLine) : Simulator :=
  { sim with lines := sim.lines.modify offset.toNat f }

def grant? (sim : Simulator) (file : FileId) : Option Grant :=
  sim.grants.find? (·.file == file)

def value (sim : Simulator) (offset : Offset) : UInt8 :=
  ofActive ((sim.line? offset).elim false SimLine.active)

/-! ### Controls -/

def setName (sim : Simulator) (offset : Offset) (name : String) : Simulator :=
  sim.modifyLine offset ({ · with name := some name })

/-- Marks a line as held by another consumer. -/
def hog (sim : Simulator) (offset : Offset) (consumer : String) : Simulator :=
  sim.modifyLine offset fun line =>
    { line with
      requested := true, consumer := some consumer, flags := { line.flags with used := true } }

/-- Makes every metadata query fail, or no longer. -/
def failInfo (sim : Simulator) (fails : Bool) : Simulator := { sim with infoFails := fails }

def failInfoAt (sim : Simulator) (offset : Offset) (fails : Bool) : Simulator :=
  sim.modifyLine offset ({ · with infoFails := fails })

/-- The physical level of a line; low beyond the last one. -/
def level (sim : Simulator) (offset : Offset) : Bool :=
  (sim.line? offset).elim false (·.level)

/-- Nanoseconds between two changes of level. -/
def eventInterval : UInt64 := 1500000000

/-- Drives a line from outside. A change of level advances the clock and is an event. -/
def setLevel (sim : Simulator) (offset : Offset) (level : Bool) : Option LineEvent × Simulator :=
  match sim.line? offset with
  | none => (none, sim)
  | some line =>
    if line.level = level then (none, sim)
    else
      let line := { line with level }
      let clock := sim.clock + eventInterval
      let sim := { sim.modifyLine offset ({ · with level }) with clock }
      (some ⟨clock, .into line.active⟩, sim)

def eventFiles (sim : Simulator) (offset : Offset) : List FileId :=
  (sim.grants.filter fun grant => grant.edges.isSome && grant.offsets.head? == some offset).map
    (·.file)

def subscribers (sim : Simulator) (offset : Offset) (edge : Edge) : List FileId :=
  (sim.grants.filter fun grant =>
    grant.edges.any (·.contains edge) && grant.offsets.head? == some offset).map (·.file)

/-! ### Calls -/

/-- Flags that no device accepts together. -/
def refuses (flags : HandleFlags) : Bool :=
  (flags.input && flags.output) || flags.settings.bothDrives ||
    (flags.settings.anyDrive && !flags.output) ||
    (decide (0 < flags.settings.biasCount) && !(flags.input || flags.output)) ||
    decide (1 < flags.settings.biasCount)

/-- Every offset is a line of the chip that nobody holds, and none occurs twice. -/
def checkOffsets (sim : Simulator) : List Offset → List Offset → Except Errno Unit
  | _, [] => .ok ()
  | before, offset :: rest =>
    match sim.line? offset with
    | none => .error .invalid
    | some line =>
      if line.requested || before.contains offset then .error .busy
      else sim.checkOffsets (before ++ [offset]) rest

/-- Configures lines one by one; values that are missing are zero. -/
def configureAll (sim : Simulator) (offsets : List Offset) (flags : HandleFlags)
    (values : List UInt8) : Simulator :=
  (offsets.zip (Bytes.fit offsets.length values)).foldl
    (fun sim (offset, value) => sim.modifyLine offset (·.configure flags value)) sim

def takeAll (sim : Simulator) (offsets : List Offset) (consumer : String) : Simulator :=
  offsets.foldl (fun sim offset => sim.modifyLine offset (·.take consumer)) sim

def lineInfo (sim : Simulator) (offset : Offset) : Except Errno LineInfo :=
  if sim.infoFails then .error .ioFailure
  else match sim.line? offset with
    | none => .error .invalid
    | some line => if line.infoFails then .error .ioFailure else .ok (line.info offset)

def requestLines (sim : Simulator) (file : FileId) (request : LinesRequest) :
    Except Errno Simulator :=
  if request.offsets.isEmpty || decide (maxLines < request.offsets.length) then .error .invalid
  else if refuses request.flags then .error .invalid
  else match sim.checkOffsets [] request.offsets with
    | .error errno => .error errno
    | .ok _ =>
      let sim := sim.takeAll request.offsets request.consumer
      let sim := sim.configureAll request.offsets request.flags request.values
      .ok { sim with grants := sim.grants ++ [{ file, offsets := request.offsets }] }

def requestEvent (sim : Simulator) (file : FileId) (request : EventRequest) :
    Except Errno Simulator :=
  if request.flags.output || refuses request.flags then .error .invalid
  else match sim.checkOffsets [] [request.offset] with
    | .error errno => .error errno
    | .ok _ =>
      let flags := { request.flags with input := true }
      let sim := sim.takeAll [request.offset] request.consumer
      let sim := sim.modifyLine request.offset (·.applyFlags flags)
      let grant : Grant := { file, offsets := [request.offset], edges := some request.edges }
      .ok { sim with grants := sim.grants ++ [grant] }

def getValues (sim : Simulator) (file : FileId) : Except Errno (List UInt8) :=
  match sim.grant? file with
  | none => .error .badFile
  | some grant => .ok (grant.offsets.map sim.value)

def valuesGrant (sim : Simulator) (file : FileId) : Except Errno Grant :=
  match sim.grant? file with
  | none => .error .badFile
  | some grant => if grant.edges.isSome then .error .invalid else .ok grant

def setValues (sim : Simulator) (file : FileId) (values : List UInt8) : Except Errno Simulator :=
  match sim.valuesGrant file with
  | .error errno => .error errno
  | .ok grant =>
    if grant.offsets.any fun offset => !(sim.line? offset).any (·.flags.output) then
      .error .notPermitted
    else
      .ok ((grant.offsets.zip values).foldl
        (fun sim (offset, value) => sim.modifyLine offset (·.drive (isActive value))) sim)

def setConfig (sim : Simulator) (file : FileId) (flags : HandleFlags) (values : List UInt8) :
    Except Errno Simulator :=
  if refuses flags then .error .invalid
  else match sim.valuesGrant file with
    | .error errno => .error errno
    | .ok grant => .ok (sim.configureAll grant.offsets flags values)

def release (sim : Simulator) (file : FileId) : Simulator :=
  match sim.grant? file with
  | none => sim
  | some grant =>
    let sim := grant.offsets.foldl (fun sim offset => sim.modifyLine offset (·.free)) sim
    { sim with grants := sim.grants.filter (·.file != file), released := sim.released + 1 }

/-- A refusal as the error of the call, or the new state with the reply. -/
def settle {call : Call} (sim : Simulator) (reply : call.Reply) :
    Except Errno Simulator → Outcome call × Simulator
  | .ok sim => (.ok reply, sim)
  | .error errno => (.error (.call call.kind errno), sim)

/-- Answers a call. A request that is granted opens the file with the number `fresh`. -/
def perform (sim : Simulator) (fresh : FileId) : (call : Call) → Outcome call × Simulator
  | .chipInfo => (.ok ⟨sim.name, sim.name ++ "-sim", UInt32.ofNat sim.lines.size⟩, sim)
  | .lineInfo offset => ((sim.lineInfo offset).mapError (.call .lineInfo ·), sim)
  | .requestLines request => sim.settle fresh (sim.requestLines fresh request)
  | .requestEvent request => sim.settle fresh (sim.requestEvent fresh request)
  | .getValues file buffer =>
    (((sim.getValues file).map (Buffer.fill buffer)).mapError (.call .getValues ·), sim)
  | .setValues file values => sim.settle () (sim.setValues file values)
  | .setConfig file flags values => sim.settle () (sim.setConfig file flags values)

end Simulator

end GpioLines
