import GpioLines.Error
import GpioLines.Flags.Basic

/-!
# The device boundary

Everything the library asks of a GPIO chip is one of eight calls. Seven of them can fail and are
values of `Call`; the eighth, the release of a file, cannot. A device that grants a request answers
with an open file, and the calls on that file act on every line of the request, in its order.
-/

namespace GpioLines

abbrev FileId := Nat

/-- Names a device. A probe names the device beneath it as well. -/
inductive Device where
  | simulator (index : Nat)
  | character (path : String)
  | probe (index : Nat) (beneath : Device)
deriving DecidableEq, Repr

structure ChipInfo where
  name : String
  label : String
  lineCount : UInt32
deriving DecidableEq, Repr

structure LineInfo where
  offset : Offset
  flags : InfoFlags := {}
  name : Option String := none
  consumer : Option String := none
deriving DecidableEq, Repr

structure LinesRequest where
  offsets : List Offset
  flags : HandleFlags
  /-- One value an offset; they matter for outputs only. -/
  values : List UInt8
  consumer : String
deriving DecidableEq, Repr

structure EventRequest where
  offset : Offset
  flags : HandleFlags
  edges : EdgeFlags
  consumer : String
deriving DecidableEq, Repr

inductive Call where
  | chipInfo
  | lineInfo (offset : Offset)
  | requestLines (request : LinesRequest)
  | requestEvent (request : EventRequest)
  /-- Reads values into a buffer that holds these bytes. -/
  | getValues (file : FileId) (buffer : List UInt8)
  | setValues (file : FileId) (values : List UInt8)
  | setConfig (file : FileId) (flags : HandleFlags) (values : List UInt8)
deriving DecidableEq, Repr

/-- A buffer after a device has read into it: its length never changes. -/
abbrev Buffer (length : Nat) := { bytes : List UInt8 // bytes.length = length }

/-- The buffer with as many values written over its start as it has room for. -/
def Buffer.fill (buffer values : List UInt8) : Buffer buffer.length :=
  ⟨values.take buffer.length ++ buffer.drop values.length, by simp; omega⟩

namespace Call

abbrev Reply : Call → Type
  | .chipInfo => ChipInfo
  | .lineInfo _ => LineInfo
  | .requestLines _ => FileId
  | .requestEvent _ => FileId
  | .getValues _ buffer => Buffer buffer.length
  | .setValues .. => Unit
  | .setConfig .. => Unit

def kind : Call → CallKind
  | .chipInfo => .chipInfo
  | .lineInfo _ => .lineInfo
  | .requestLines _ => .requestLines
  | .requestEvent _ => .requestEvent
  | .getValues .. => .getValues
  | .setValues .. => .setValues
  | .setConfig .. => .setConfig

end Call

abbrev Outcome (call : Call) := Except Error call.Reply

end GpioLines
