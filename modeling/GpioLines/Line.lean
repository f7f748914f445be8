import GpioLines.Handle

/-!
# Lines

A line is a chip and an offset, so two look-ups of one offset give the same line. What the chip keeps
for it is a record: the metadata last reported, whether that is still good, and the slot, which
refers to the handle that serves the line while it is requested.
-/

namespace GpioLines

abbrev ChipId := Nat

structure Line where
  chip : ChipId
  offset : Offset
deriving DecidableEq, Repr

/-! ### Ownership -/

inductive Slot where
  | free
  | values (handle : HandleId)
  | events (handle : HandleId)
deriving DecidableEq, Repr

namespace Slot

def holding (id : HandleId) : HandleKind → Slot
  | .values => .values id
  | .events => .events id

def handle? : Slot → Option HandleId
  | .free => none
  | .values id | .events id => some id

end Slot

inductive LineState where
  | free
  | requestedValues
  | requestedEvents
deriving DecidableEq, Repr

def LineState.name : LineState → String
  | .free => "Free"
  | .requestedValues => "RequestedValues"
  | .requestedEvents => "RequestedEvents"

def Slot.state : Slot → LineState
  | .free => .free
  | .values _ => .requestedValues
  | .events _ => .requestedEvents

structure LineRecord where
  info : LineInfo
  upToDate : Bool
  slot : Slot
deriving DecidableEq, Repr

namespace LineRecord

/-- Before the first refresh nothing is known of a line. -/
def initial (offset : Offset) : LineRecord := ⟨{ offset }, false, .free⟩

def needsUpdate (record : LineRecord) : Bool := !record.upToDate

def state (record : LineRecord) : LineState := record.slot.state

def refreshed (record : LineRecord) (info : LineInfo) : LineRecord :=
  { record with info, upToDate := true }

/-- The metadata stays, but is no longer vouched for. -/
def stale (record : LineRecord) : LineRecord := { record with upToDate := false }

def withSlot (record : LineRecord) (slot : Slot) : LineRecord := { record with slot }

end LineRecord

/-! ### Metadata -/

inductive Direction where
  | input
  | output
deriving DecidableEq, Repr

inductive Bias where
  | unknown
  | disabled
  | pullUp
  | pullDown
deriving DecidableEq, Repr

inductive Drive where
  | pushPull
  | openDrain
  | openSource
deriving DecidableEq, Repr

namespace Settings

/-- A disabled bias counts before a pull-up, and that before a pull-down. -/
def bias (settings : Settings) : Bias :=
  if settings.biasDisable then .disabled
  else if settings.biasPullUp then .pullUp
  else if settings.biasPullDown then .pullDown
  else .unknown

def drive (settings : Settings) : Drive :=
  if settings.openDrain then .openDrain
  else if settings.openSource then .openSource
  else .pushPull

end Settings

namespace LineInfo

def direction (info : LineInfo) : Direction := if info.flags.output then .output else .input

def activeLow (info : LineInfo) : Bool := info.flags.settings.activeLow

def bias (info : LineInfo) : Bias := info.flags.settings.bias

def drive (info : LineInfo) : Drive := info.flags.settings.drive

/-- Held by the kernel or by any consumer. -/
def used (info : LineInfo) : Bool := info.flags.used

end LineInfo

def Direction.name : Direction → String
  | .input => "In"
  | .output => "Out"

def Bias.name : Bias → String
  | .unknown => "Unknown"
  | .disabled => "Disabled"
  | .pullUp => "PullUp"
  | .pullDown => "PullDown"

def Drive.name : Drive → String
  | .pushPull => "PushPull"
  | .openDrain => "OpenDrain"
  | .openSource => "OpenSource"

/-! ### Text -/

namespace Line

def describe (line : Line) (state : LineState) : String :=
  "Line \x7b offset: " ++ toString line.offset ++ ", state: " ++ state.name ++ " \x7d"

def describeIndented (line : Line) (state : LineState) : String :=
  "Line \x7b\n    offset: " ++ toString line.offset ++ ",\n    state: " ++ state.name ++ ",\n\x7d"

end Line

end GpioLines
