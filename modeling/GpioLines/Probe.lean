import GpioLines.Device

/-!
# Probes

A probe sits on a device and passes calls on; what it sees is recorded by whoever runs it. It can be
told to fail a call instead of passing it on, and to report another number of lines than the device
has. In what it sees, files go by the order in which the device granted them through the probe.
-/

namespace GpioLines

/-- Lets some calls of a kind pass and then fails one. -/
structure Fault where
  kind : CallKind
  after : Nat
  errno : Errno
deriving DecidableEq, Repr

inductive Sighting where
  | call (call : Call)
  | release (file : FileId)
deriving DecidableEq, Repr

structure Probe where
  /-- Reported in place of the number the device gives. -/
  lineCount : Option UInt32 := none
  faults : List Fault := []
  granted : List FileId := []
deriving DecidableEq, Repr

def Call.mapFile (rename : FileId → FileId) : Call → Call
  | .getValues file buffer => .getValues (rename file) buffer
  | .setValues file values => .setValues (rename file) values
  | .setConfig file flags values => .setConfig (rename file) flags values
  | call => call

namespace Probe

def fileNumber (probe : Probe) (file : FileId) : Nat := probe.granted.idxOf file

def callSeen (probe : Probe) (call : Call) : Sighting := .call (call.mapFile probe.fileNumber)

def releaseSeen (probe : Probe) (file : FileId) : Sighting := .release (probe.fileNumber file)

/-- Uses up one step of the first fault for this kind of call. -/
def consume (kind : CallKind) : List Fault → Option Errno × List Fault
  | [] => (none, [])
  | fault :: rest =>
    if fault.kind = kind then
      if fault.after = 0 then (some fault.errno, rest)
      else (none, { fault with after := fault.after - 1 } :: rest)
    else
      let (errno, rest) := consume kind rest
      (errno, fault :: rest)

def intercept (probe : Probe) (call : Call) : Option Errno × Probe :=
  let (errno, faults) := consume call.kind probe.faults
  (errno, { probe with faults })

def learn (probe : Probe) : (call : Call) → call.Reply → Probe
  | .requestLines _, file => { probe with granted := probe.granted ++ [file] }
  | .requestEvent _, file => { probe with granted := probe.granted ++ [file] }
  | _, _ => probe

def adjust (probe : Probe) : (call : Call) → call.Reply → call.Reply
  | .chipInfo, info => { info with lineCount := probe.lineCount.getD info.lineCount }
  | .lineInfo _, info => info
  | .requestLines _, file => file
  | .requestEvent _, file => file
  | .getValues .., buffer => buffer
  | .setValues .., _ => ()
  | .setConfig .., _ => ()

end Probe

end GpioLines
