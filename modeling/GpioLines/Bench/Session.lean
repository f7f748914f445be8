import GpioLines.Bench.State
import GpioLines.Filesystem
import GpioLines.World.Chips
import GpioLines.World.Reconfigure
import GpioLines.World.Request
import GpioLines.World.Values
import GpioLines.World.Wait

/-!
# The library on a bench

What a user of the library does beyond its operations on chips and lines: opening devices by path,
working the controls of a simulator, calling a device without the library in between, and letting
several users contend for a line.
-/

namespace GpioLines

abbrev Session := World Bench

namespace Session

def start : Session := { machine := {} }

def onBench (session : Session) (f : Bench → Bench) : Session :=
  { session with machine := f session.machine }

/-- As `onBench`, for a change that has something to say. -/
def onBenchNoting (session : Session) (f : Bench → List Notice × Bench) : Session :=
  let (notices, machine) := f session.machine
  { session with machine, log := session.log ++ notices }

/-! ### Character devices -/

/-- Opens the character device at a path. Any character device can be opened, but only a GPIO chip
answers the chip query; the others do not know it. -/
def openDevice (session : Session) (path : String) : Except Error Device × Session :=
  match Path.resolve Node.systemTree path with
  | .error .missing => session.fail (.notFound path)
  | .error (.failed fault) => session.fail (.io fault)
  | .ok node =>
    if node.isCharacterDevice then
      match session.perform (.character path) .chipInfo with
      | (.ok _, session) => (.ok (.character path), session)
      | (.error error, session) =>
        if error.errno? = some .notTypewriter ∨ error.errno? = some .invalid then
          session.fail (.notAGpioChip path)
        else session.fail error
    else session.fail (.notAGpioChip path)

def openPath (session : Session) (path : String) : Except Error ChipInfo × Session :=
  match session.openDevice path with
  | (.error error, session) => (.error error, session)
  | (.ok device, session) => session.openChipOn device

def setAnswers (session : Session) (answers : List ScriptedAnswer) : Session :=
  session.onBench fun bench => { bench with script := { bench.script with answers } }

/-! ### Files outside the library -/

def readRaw (session : Session) (file : FileId) (limit : Nat) : ReadOutcome × Session :=
  let (outcome, machine) := session.machine.read file limit
  (outcome, { session with machine })

/-- Tells the device that a file is done with; what has arrived can still be read. -/
def releaseRaw (session : Session) (device : Device) (file : FileId) : Session :=
  session.onBench (Bench.releaseAt device file)

def closeRaw (session : Session) (file : FileId) : Session := session.onBench (·.closeFile file)

/-! ### Contention -/

/-- One of several users that want the line at an offset. -/
def attempt (session : Session) (chip : ChipId) (offset : Offset) (config : RequestConfig) :
    Except Error Unit × Session :=
  match session.getLine chip offset with
  | (.error error, session) => (.error error, session)
  | (.ok line, session) => session.request (.single line) config (some [0])

/-- So many users try in turn: how many got the line, and what the others were told. Whoever comes
first wins, and the order among equals does not show, so any other order has the same outcome. -/
def contend (chip : ChipId) (offset : Offset) (config : RequestConfig) :
    Nat → Session → (Nat × List Error) × Session
  | 0, session => ((0, []), session)
  | users + 1, session =>
    let (outcome, session) := session.attempt chip offset config
    let ((won, errors), session) := contend chip offset config users session
    match outcome with
    | .ok _ => ((won + 1, errors), session)
    | .error error => ((won, error :: errors), session)

end Session

end GpioLines
