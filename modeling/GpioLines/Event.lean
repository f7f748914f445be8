import GpioLines.Basic
import GpioLines.Bytes

/-!
# Edge events

An event arrives as a record of sixteen bytes: the time in nanoseconds as a 64-bit word, the edge as
a 32-bit word, and four bytes of padding. Devices number only two edges, so every number but that
of the rising edge is read as the falling one.
-/

namespace GpioLines

inductive Edge where
  | rising
  | falling
deriving DecidableEq, Repr

namespace Edge

def into (active : Bool) : Edge := if active then .rising else .falling

def number : Edge → Nat
  | .rising => 1
  | .falling => 2

def ofNumber (number : Nat) : Edge := if number = 1 then .rising else .falling

def name : Edge → String
  | .rising => "RisingEdge"
  | .falling => "FallingEdge"

@[simp] theorem ofNumber_number (edge : Edge) : ofNumber edge.number = edge := by
  cases edge <;> rfl

end Edge

structure LineEvent where
  /-- Nanoseconds on the clock of the device. -/
  timestamp : UInt64
  edge : Edge
deriving DecidableEq, Repr

namespace LineEvent

def recordSize : Nat := 16

def record (event : LineEvent) : List UInt8 :=
  Bytes.ofNat 8 event.timestamp.toNat ++ Bytes.ofNat 4 event.edge.number ++ Bytes.ofNat 4 0

/-- The event in the first record of these bytes, if they hold one. -/
def ofRecord? (bytes : List UInt8) : Option LineEvent :=
  if bytes.length < recordSize then none
  else some
    { timestamp := UInt64.ofNat (Bytes.toNat (Bytes.field 0 8 bytes))
      edge := Edge.ofNumber (Bytes.toNat (Bytes.field 8 4 bytes)) }

/-- The events of bytes that are a whole number of records, at least one. -/
def ofRecords? (bytes : List UInt8) : Option (List LineEvent) :=
  if bytes.length = 0 ∨ bytes.length % recordSize ≠ 0 then none
  else (List.range (bytes.length / recordSize)).mapM fun i =>
    ofRecord? (Bytes.field (recordSize * i) recordSize bytes)

def seconds (event : LineEvent) : Nat := event.timestamp.toNat / 1000000000

def nanoseconds (event : LineEvent) : Nat := event.timestamp.toNat % 1000000000

def describe (event : LineEvent) : String :=
  "LineEvent \x7b timestamp: " ++ toString event.timestamp.toNat ++ ", event_type: " ++
    event.edge.name ++ " \x7d"

@[simp] theorem length_record (event : LineEvent) : event.record.length = recordSize := by
  simp [record, recordSize]

end LineEvent

end GpioLines
