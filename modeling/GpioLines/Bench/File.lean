import GpioLines.Machine

/-!
# Open files

The files that devices hand out differ in what a read finds: an end of a connected pair of sockets,
into which a simulator writes; the null device; a pipe whose writer has gone; and the writing end of
a pipe that nobody reads.
-/

namespace GpioLines

inductive Source where
  | socket (pending : List UInt8) (connected : Bool)
  | null
  | pipe (rest : List UInt8)
  | deadEnd
deriving DecidableEq, Repr

structure OpenFile where
  source : Source
  nonblocking : Bool := false
  watched : Bool := false
deriving DecidableEq, Repr

namespace OpenFile

def fresh : OpenFile := { source := .socket [] true }

def readiness (file : OpenFile) : Readiness :=
  match file.source with
  | .socket pending connected => if pending.isEmpty && connected then .idle else .input
  | .null | .pipe _ => .input
  | .deadEnd => .failed

def read (file : OpenFile) (limit : Nat) : ReadOutcome × OpenFile :=
  match file.source with
  | .socket pending connected =>
    if pending.isEmpty && connected then
      (if file.nonblocking then .failed .wouldBlock else .blocked, file)
    else (.bytes (pending.take limit), { file with source := .socket (pending.drop limit) connected })
  | .null => (.bytes [], file)
  | .pipe rest => (.bytes (rest.take limit), { file with source := .pipe (rest.drop limit) })
  | .deadEnd => (.failed .badFile, file)

def deliver (file : OpenFile) (bytes : List UInt8) : OpenFile :=
  match file.source with
  | .socket pending connected => { file with source := .socket (pending ++ bytes) connected }
  | _ => file

/-- The other end is closed; what has arrived can still be read. -/
def disconnect (file : OpenFile) : OpenFile :=
  match file.source with
  | .socket pending _ => { file with source := .socket pending false }
  | _ => file

/-- A file can be watched by one reader at a time, and the null device not at all. -/
def watchFault (file : OpenFile) : Option Errno :=
  match file.source with
  | .null => some .notPermitted
  | _ => if file.watched then some .alreadyExists else none

def watch (file : OpenFile) : Except Errno Unit × OpenFile :=
  let file := { file with nonblocking := true }
  match file.watchFault with
  | some errno => (.error errno, file)
  | none => (.ok (), { file with watched := true })

def unwatch (file : OpenFile) : OpenFile := { file with watched := false }

end OpenFile

end GpioLines
