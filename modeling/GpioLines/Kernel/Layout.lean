import GpioLines.Device
import GpioLines.Kernel.Label

/-!
# Request buffers

Each call of a GPIO character device passes a buffer of fixed layout to the kernel, which answers by
writing into it. Words have the low byte first. This module has the layouts: how a call is laid out,
and where the answer is found.
-/

namespace GpioLines

/-- The number of a request: two bits of direction, the size of its buffer, then a byte each of type
and ordinal. -/
def requestNumber (writes : Bool) (size ordinal : Nat) : UInt32 :=
  UInt32.ofNat ((if writes then 3 else 2) * 0x40000000 + size * 0x10000 + 0xB400 + ordinal)

namespace CallKind

def bufferSize : CallKind → Nat
  | .chipInfo => 68
  | .lineInfo => 72
  | .requestLines => 364
  | .requestEvent => 48
  | .getValues => 64
  | .setValues => 64
  | .setConfig => 84

def ordinal : CallKind → Nat
  | .chipInfo => 1
  | .lineInfo => 2
  | .requestLines => 3
  | .requestEvent => 4
  | .getValues => 8
  | .setValues => 9
  | .setConfig => 10

/-- Only the chip query passes nothing in. -/
def number (kind : CallKind) : UInt32 :=
  requestNumber (kind != .chipInfo) kind.bufferSize kind.ordinal

end CallKind

namespace Layout

open Bytes

def valuesField (values : List UInt8) : List UInt8 := fit maxLines values

def offsetsField (offsets : List Offset) : List UInt8 :=
  fit (4 * maxLines) (offsets.flatMap ofWord32)

/-! ### Buffers -/

def lineInfo (offset : Offset) : List UInt8 := fit 72 (ofWord32 offset)

def linesRequest (request : LinesRequest) : List UInt8 :=
  offsetsField request.offsets ++ ofWord32 request.flags.toBits ++ valuesField request.values ++
    Label.field request.consumer ++ ofWord32 (UInt32.ofNat request.offsets.length) ++ ofNat 4 0

def eventRequest (request : EventRequest) : List UInt8 :=
  ofWord32 request.offset ++ ofWord32 request.flags.toBits ++ ofWord32 request.edges.toBits ++
    Label.field request.consumer ++ ofNat 4 0

def config (flags : HandleFlags) (values : List UInt8) : List UInt8 :=
  ofWord32 flags.toBits ++ valuesField values ++ List.replicate 16 0

def buffer : Call → List UInt8
  | .chipInfo => List.replicate 68 0
  | .lineInfo offset => lineInfo offset
  | .requestLines request => linesRequest request
  | .requestEvent request => eventRequest request
  | .getValues .. => valuesField []
  | .setValues _ values => valuesField values
  | .setConfig _ flags values => config flags values

/-- Whatever a call carries, its buffer has the size that the number of the request states. -/
theorem length_buffer (call : Call) : (buffer call).length = call.kind.bufferSize := by
  cases call <;>
    simp [buffer, Call.kind, CallKind.bufferSize, lineInfo, linesRequest, eventRequest, config,
      offsetsField, valuesField, Label.width, maxLines]

/-! ### Answers -/

def labelAt (start : Nat) (answer : List UInt8) : Option String :=
  Label.text? (field start Label.width answer)

def fileAt (start : Nat) (answer : List UInt8) : FileId := (word32 start answer).toNat

def linesFileStart : Nat := 360

def eventFileStart : Nat := 44

def reply (answer : List UInt8) : (call : Call) → call.Reply
  | .chipInfo =>
    { name := (labelAt 0 answer).getD ""
      label := (labelAt 32 answer).getD ""
      lineCount := word32 64 answer }
  | .lineInfo offset =>
    { offset
      flags := InfoFlags.ofBits (word32 4 answer)
      name := labelAt 8 answer
      consumer := labelAt 40 answer }
  | .requestLines _ => fileAt linesFileStart answer
  | .requestEvent _ => fileAt eventFileStart answer
  | .getValues _ buffer => Buffer.fill buffer (answer.take maxLines)
  | .setValues .. => ()
  | .setConfig .. => ()

end Layout

end GpioLines
