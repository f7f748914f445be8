import GpioLines.Proofs.Dealings
import GpioLines.Proofs.Framing

/-!
# A workshop

A client of the library seldom has a bench to itself. Simulated chips and probes are set up on it,
levels are set from outside, and files are requested from the devices past the library. A workshop is
a client together with the files that were lent past it; what is done there is either an operation of
the library or a deed. Everything that passes to or from a device is recorded in one trace.

A deed may use the files that were lent to it and no other. A file is closed after its release, since
a device may give the number of a closed file to somebody else.
-/

namespace GpioLines

/-- A control of one simulated chip of which no file is told. -/
inductive Control where
  | setName (offset : Offset) (name : String)
  | hog (offset : Offset) (consumer : String)
  | failInfo (fails : Bool)
  | failInfoAt (offset : Offset) (fails : Bool)

def Control.apply (sim : Simulator) : Control → Simulator
  | .setName offset name => sim.setName offset name
  | .hog offset consumer => sim.hog offset consumer
  | .failInfo fails => sim.failInfo fails
  | .failInfoAt offset fails => sim.failInfoAt offset fails

/-- The files that a call opens. -/
def Call.opens (device : Device) : (call : Call) → Outcome call → List (Device × FileId)
  | .requestLines _, .ok file => [(device, file)]
  | .requestEvent _, .ok file => [(device, file)]
  | _, _ => []

/-- What is done on a bench beside the library. -/
inductive Deed where
  | addSimulator (name : String) (lineCount : UInt32)
  | addProbe (beneath : Device) (lineCount : Option UInt32)
  | addFault (device : Device) (fault : Fault)
  | setAnswers (answers : List ScriptedAnswer)
  | control (index : Nat) (control : Control)
  | setLevel (index : Nat) (offset : Offset) (level : UInt8)
  | inject (index : Nat) (offset : Offset) (bytes : List UInt8)
  | call (device : Device) (call : Call)
  | read (file : FileId) (limit : Nat)
  | release (device : Device) (file : FileId)
  | close (device : Device) (file : FileId)

inductive Act where
  | operation (operation : Operation)
  | deed (deed : Deed)

structure Workshop where
  client : Client (Traced Bench) := .start { machine := {} }
  /-- The files that were lent past the library and are open. -/
  lent : List (Device × FileId) := []
  /-- Those of them that were released. -/
  returned : List (Device × FileId) := []

namespace Workshop

abbrev world (workshop : Workshop) : World (Traced Bench) := workshop.client.world

/-! ### Deeds -/

/-- The world changes, and the client takes no part in it. -/
def withWorld (workshop : Workshop) (world : World (Traced Bench)) : Workshop :=
  { workshop with client := { workshop.client with world } }

def onBench (workshop : Workshop) (f : Bench → Bench) : Workshop :=
  let world := workshop.world
  workshop.withWorld { world with machine := world.machine.withMachine (f world.bench) }

/-- As `onBench`, for a change that has something to say. -/
def onBenchNoting (workshop : Workshop) (f : Bench → List Notice × Bench) : Workshop :=
  let world := workshop.world
  let (notices, bench) := f world.bench
  workshop.withWorld
    { world with machine := world.machine.withMachine bench, log := world.log ++ notices }

def call (workshop : Workshop) (device : Device) (call : Call) : Workshop :=
  let (outcome, world) := workshop.world.perform device call
  { workshop.withWorld world with lent := workshop.lent ++ call.opens device outcome }

/-- Tells a device that a file is done with. The file stays open. -/
def release (workshop : Workshop) (device : Device) (file : FileId) : Workshop :=
  let world := workshop.world
  let machine : Traced Bench :=
    { machine := Bench.releaseAt device file world.bench
      trace := world.trace ++ [.release device file] }
  { workshop.withWorld { world with machine } with
    returned := workshop.returned ++ [(device, file)] }

def close (workshop : Workshop) (device : Device) (file : FileId) : Workshop :=
  { workshop.onBench (·.closeFile file) with
    lent := workshop.lent.erase (device, file)
    returned := workshop.returned.erase (device, file) }

def work (workshop : Workshop) : Deed → Workshop
  | .addSimulator name lineCount => workshop.onBench fun bench => (bench.addSimulator name lineCount).2
  | .addProbe beneath lineCount => workshop.onBench fun bench => (bench.addProbe beneath lineCount).2
  | .addFault device fault => workshop.onBench (·.addFault device fault)
  | .setAnswers answers =>
    workshop.onBench fun bench => { bench with script := { bench.script with answers } }
  | .control index control => workshop.onBench (·.modifySimulator index control.apply)
  | .setLevel index offset level => workshop.onBenchNoting (·.setLevel index offset level)
  | .inject index offset bytes => workshop.onBenchNoting (·.inject index offset bytes)
  | .call device call => workshop.call device call
  | .read file limit => workshop.onBench fun bench => (bench.read file limit).2
  | .release device file => workshop.release device file
  | .close device file => workshop.close device file

def CanWork (workshop : Workshop) : Deed → Prop
  | .call device call => ∀ file ∈ call.file?, (device, file) ∈ workshop.lent
  | .read file _ => file ∈ workshop.lent.map (·.2)
  | .release device file => (device, file) ∈ workshop.lent
  | .close device file => (device, file) ∈ workshop.returned
  | _ => True

instance (workshop : Workshop) : (deed : Deed) → Decidable (workshop.CanWork deed)
  | .call device call =>
    inferInstanceAs (Decidable (∀ file ∈ call.file?, (device, file) ∈ workshop.lent))
  | .read file _ => inferInstanceAs (Decidable (file ∈ workshop.lent.map (·.2)))
  | .release device file => inferInstanceAs (Decidable ((device, file) ∈ workshop.lent))
  | .close device file => inferInstanceAs (Decidable ((device, file) ∈ workshop.returned))
  | .addSimulator .. | .addProbe .. | .addFault .. | .setAnswers _ | .control .. | .setLevel ..
  | .inject .. => instDecidableTrue

/-! ### Runs -/

def act (workshop : Workshop) : Act → Workshop
  | .operation operation => { workshop with client := workshop.client.call operation }
  | .deed deed => workshop.work deed

def Can (workshop : Workshop) : Act → Prop
  | .operation operation => workshop.client.CanCall operation
  | .deed deed => workshop.CanWork deed

instance (workshop : Workshop) : (act : Act) → Decidable (workshop.Can act)
  | .operation operation => inferInstanceAs (Decidable (workshop.client.CanCall operation))
  | .deed deed => inferInstanceAs (Decidable (workshop.CanWork deed))

/-- The states of a workshop in which only what the `rule` allows was ever done, from an empty bench
on. -/
inductive Reachable (rule : Workshop → Act → Prop) : Workshop → Prop
  | start : Reachable rule {}
  | act {workshop : Workshop} {act : Act} (before : Reachable rule workshop)
      (can : workshop.Can act) (allowed : rule workshop act) : Reachable rule (workshop.act act)

/-- Anything may be done. -/
def Unruled (_ : Workshop) (_ : Act) : Prop := True

instance (workshop : Workshop) (act : Act) : Decidable (Unruled workshop act) := instDecidableTrue

def actAll (workshop : Workshop) (script : List Act) : Workshop := script.foldl act workshop

def CanActAll (rule : Workshop → Act → Prop) (workshop : Workshop) : List Act → Prop
  | [] => True
  | act :: rest =>
    workshop.Can act ∧ rule workshop act ∧ (workshop.act act).CanActAll rule rest

instance decidableCanActAll (rule : Workshop → Act → Prop)
    [∀ workshop act, Decidable (rule workshop act)] (workshop : Workshop) :
    (script : List Act) → Decidable (workshop.CanActAll rule script)
  | [] => instDecidableTrue
  | act :: rest =>
    have := decidableCanActAll rule (workshop.act act) rest
    inferInstanceAs (Decidable (_ ∧ _ ∧ _))

variable {rule : Workshop → Act → Prop} {workshop : Workshop}

theorem Reachable.actAll (h : Reachable rule workshop) {script : List Act}
    (hcan : workshop.CanActAll rule script) : Reachable rule (workshop.actAll script) := by
  induction script generalizing workshop with
  | nil => exact h
  | cons act rest ih => exact ih (.act h hcan.1 hcan.2.1) hcan.2.2

end Workshop

end GpioLines
