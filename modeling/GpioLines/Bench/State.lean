import GpioLines.Bench.File
import GpioLines.Kernel.Script
import GpioLines.Notice
import GpioLines.Probe
import GpioLines.Simulator
import GpioLines.Table

/-!
# A bench of devices

The machine the library is tried out on: simulated chips, probes on them, and character devices over
a scripted kernel, with the open files of all of them in one table.
-/

namespace GpioLines

structure Bench where
  files : Table OpenFile := .empty
  simulators : List Simulator := []
  probes : List Probe := []
  /-- What the probes have seen, the outer one of two before the inner one. -/
  sightings : Array Sighting := #[]
  script : KernelScript := {}

namespace Bench

/-! ### Files -/

def addFile (bench : Bench) (file : OpenFile) : Bench := { bench with files := bench.files.add file }

def modifyFile (bench : Bench) (file : FileId) (f : OpenFile → OpenFile) : Bench :=
  { bench with files := bench.files.modify file f }

/-- Closes a file without telling its device. -/
def closeFile (bench : Bench) (file : FileId) : Bench :=
  { bench with files := bench.files.erase file }

def readiness (bench : Bench) (file : FileId) : Readiness :=
  (bench.files.get? file).elim .failed OpenFile.readiness

def read (bench : Bench) (file : FileId) (limit : Nat) : ReadOutcome × Bench :=
  match bench.files.get? file with
  | none => (.failed .badFile, bench)
  | some opened =>
    let (outcome, opened) := opened.read limit
    (outcome, bench.modifyFile file fun _ => opened)

def watch (bench : Bench) (file : FileId) : Except Errno Unit × Bench :=
  match bench.files.get? file with
  | none => (.error .badFile, bench)
  | some opened =>
    let (outcome, opened) := opened.watch
    (outcome, bench.modifyFile file fun _ => opened)

/-! ### Devices -/

/-- A call that was granted a file puts that file into the table. -/
def openGranted (bench : Bench) : (call : Call) → Outcome call → Bench
  | .requestLines _, .ok _ => bench.addFile .fresh
  | .requestEvent _, .ok _ => bench.addFile .fresh
  | _, _ => bench

def performSimulator (bench : Bench) (index : Nat) (call : Call) : Outcome call × Bench :=
  match bench.simulators[index]? with
  | none => (.error (.call call.kind .badFile), bench)
  | some sim =>
    let (outcome, sim) := sim.perform bench.files.next call
    let bench := { bench with simulators := bench.simulators.set index sim }
    (outcome, bench.openGranted call outcome)

instance : Kernel Bench where
  request target kind buffer bench :=
    let (outcome, script) := bench.script.request bench.files.next target kind buffer
    let bench := { bench with script }
    match outcome with
    | .error errno => (.error errno, bench)
    | .ok (written, none) => (.ok written, bench)
    | .ok (written, some source) => (.ok written, bench.addFile { source })

def modifyProbe (bench : Bench) (index : Nat) (f : Probe → Probe) : Bench :=
  { bench with probes := bench.probes.modify index f }

def see (bench : Bench) (sighting : Sighting) : Bench :=
  { bench with sightings := bench.sightings.push sighting }

def throughProbe (bench : Bench) (index : Nat) (probe : Probe) (call : Call) :
    Outcome call → Outcome call × Bench
  | .error error => (.error error, bench)
  | .ok reply => (.ok (probe.adjust call reply), bench.modifyProbe index (·.learn call reply))

def perform : Device → (call : Call) → Bench → Outcome call × Bench
  | .simulator index, call, bench => bench.performSimulator index call
  | .character _, call, bench => CharacterDevice.perform call bench
  | .probe index beneath, call, bench =>
    match bench.probes[index]? with
    | none => perform beneath call bench
    | some probe =>
      let bench := bench.see (probe.callSeen call)
      let (errno, probe) := probe.intercept call
      let bench := { bench with probes := bench.probes.set index probe }
      match errno with
      | some errno => (.error (.call call.kind errno), bench)
      | none =>
        let (outcome, bench) := perform beneath call bench
        bench.throughProbe index probe call outcome

/-- Tells a device that a file is done with. The file itself stays open, but a simulator hangs up. -/
def releaseAt : Device → FileId → Bench → Bench
  | .simulator index, file, bench =>
    match bench.simulators[index]? with
    | none => bench
    | some sim =>
      let bench := if (sim.grant? file).isSome then bench.modifyFile file OpenFile.disconnect else bench
      { bench with simulators := bench.simulators.set index (sim.release file) }
  | .character _, _, bench => bench
  | .probe index beneath, file, bench =>
    releaseAt beneath file
      ((bench.probes[index]?).elim bench fun probe => bench.see (probe.releaseSeen file))

instance : Machine Bench where
  perform := perform
  release device file bench := (releaseAt device file bench).closeFile file
  read file limit bench := bench.read file limit
  readiness file bench := bench.readiness file
  watch file bench := bench.watch file
  unwatch file bench := bench.modifyFile file OpenFile.unwatch

/-! ### Setting up -/

def addSimulator (bench : Bench) (name : String) (lineCount : UInt32) : Device × Bench :=
  (.simulator bench.simulators.length,
    { bench with simulators := bench.simulators ++ [.create name lineCount] })

def addProbe (bench : Bench) (beneath : Device) (lineCount : Option UInt32) : Device × Bench :=
  (.probe bench.probes.length beneath, { bench with probes := bench.probes ++ [{ lineCount }] })

def addFault (bench : Bench) (device : Device) (fault : Fault) : Bench :=
  match device with
  | .probe index _ =>
    bench.modifyProbe index fun probe => { probe with faults := probe.faults ++ [fault] }
  | _ => bench

/-! ### Simulator controls -/

def modifySimulator (bench : Bench) (index : Nat) (f : Simulator → Simulator) : Bench :=
  { bench with simulators := bench.simulators.modify index f }

/-- Sends bytes to files. For each file that is closed the notice is given instead. -/
def deliver (bench : Bench) (bytes : List UInt8) (lost : Notice) :
    List FileId → List Notice × Bench
  | [] => ([], bench)
  | file :: rest =>
    let (notices, after) := (bench.modifyFile file (·.deliver bytes)).deliver bytes lost rest
    if bench.files.contains file || bytes.isEmpty then (notices, after) else (lost :: notices, after)

def setLevel (bench : Bench) (index : Nat) (offset : Offset) (level : UInt8) :
    List Notice × Bench :=
  match bench.simulators[index]? with
  | none => ([], bench)
  | some sim =>
    let (event, sim) := sim.setLevel offset (isActive level)
    let bench := { bench with simulators := bench.simulators.set index sim }
    match event with
    | none => ([], bench)
    | some event =>
      bench.deliver event.record (.undelivered offset) (sim.subscribers offset event.edge)

def inject (bench : Bench) (index : Nat) (offset : Offset) (bytes : List UInt8) :
    List Notice × Bench :=
  match bench.simulators[index]? with
  | none => ([], bench)
  | some sim => bench.deliver bytes (.uninjected offset) (sim.eventFiles offset)

end Bench

end GpioLines
