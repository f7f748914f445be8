import GpioLines.Device

/-!
# Request handles

A granted request is an open file together with what the library remembers of it: the lines it
covers, in the order of the request, and the flags and output values last put in force. Lines and
streams refer to a handle by its key in the table of open handles.
-/

namespace GpioLines

abbrev HandleId := Nat

inductive HandleKind where
  | values
  | events
deriving DecidableEq, Repr

def HandleKind.name : HandleKind → String
  | .values => "Values"
  | .events => "Events"

def showOffsets (offsets : List Offset) : String := Text.bracketed (offsets.map toString)

structure Handle where
  kind : HandleKind
  device : Device
  file : FileId
  offsets : List Offset
  flags : HandleFlags
  /-- The values last driven, one an offset; none for events. -/
  values : List UInt8
deriving DecidableEq, Repr

namespace Handle

def indexOf? (handle : Handle) (offset : Offset) : Option Nat := handle.offsets.idxOf? offset

/-- What a device accepted as the new configuration. Values count for outputs only. -/
def configured (handle : Handle) (flags : HandleFlags) (values : List UInt8) : Handle :=
  { handle with flags, values := if flags.output then values else handle.values }

def driven (handle : Handle) (values : List UInt8) : Handle := { handle with values }

def describe (handle : Handle) : String :=
  "RequestHandle \x7b kind: " ++ handle.kind.name ++ ", fd: " ++ toString handle.file ++
    ", offsets: " ++ showOffsets handle.offsets ++ " \x7d"

def describeStream (handle : Handle) : String :=
  "AsyncLineEventStream \x7b handle: " ++ handle.describe ++ " \x7d"

end Handle

end GpioLines
