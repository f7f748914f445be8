import GpioLines.Config
import GpioLines.Event
import GpioLines.Handle

/-!
# The log

The library reports what it does as notices. A notice says what happened; its severity and its
wording follow from that.
-/

namespace GpioLines

inductive Severity where
  | warn
  | debug
  | trace
deriving DecidableEq, Repr

namespace Severity

def name : Severity → String
  | .warn => "WARN"
  | .debug => "DEBUG"
  | .trace => "TRACE"

def rank : Severity → Nat
  | .warn => 0
  | .debug => 1
  | .trace => 2

end Severity

inductive Notice where
  | openedChip (name label : String) (lineCount : UInt32)
  | closedChip (name : String)
  | skippedLine (offset : Offset) (chip : String) (cause : Error)
  | staleLine (offset : Offset) (cause : Error)
  | openedHandle (handle : Handle)
  | closingHandle (handle : Handle)
  | requestedValues (offsets : List Offset) (consumer : String)
  | requestedEvents (offsets : List Offset) (edges : EdgeFlags) (consumer : String)
  /-- An event request failed after some of its members had been granted. -/
  | refusedEvent (offset : Offset) (granted : Nat) (cause : Error)
  | released (count : Nat) (offsets : List Offset)
  | reconfigured (offsets : List Offset) (flags : HandleFlags)
  | miscounted (values lines : Nat)
  | readEvent (event : LineEvent) (offsets : List Offset)
  | ready (count total : Nat)
  /-- A simulated edge found nobody to read it. -/
  | undelivered (offset : Offset)
  | uninjected (offset : Offset)
deriving DecidableEq, Repr

namespace Notice

def severity : Notice → Severity
  | .staleLine .. | .refusedEvent .. | .undelivered _ | .uninjected _ => .warn
  | .readEvent .. | .ready .. => .trace
  | _ => .debug

def message : Notice → String
  | .openedChip name label lineCount => s!"opened chip {name} [{label}] with {lineCount} lines"
  | .closedChip name => s!"closed chip {name}"
  | .skippedLine offset chip cause => s!"skipping line {offset} of {chip}: {cause.message}"
  | .staleLine offset cause => s!"line {offset}: metadata refresh failed: {cause.message}"
  | .openedHandle handle =>
    s!"opened {handle.kind.name} handle fd {handle.file} for lines {showOffsets handle.offsets}"
  | .closingHandle handle =>
    s!"closing {handle.kind.name} handle fd {handle.file} for lines {showOffsets handle.offsets}"
  | .requestedValues offsets consumer =>
    s!"requested lines {showOffsets offsets} for values as {Text.quoted consumer}"
  | .requestedEvents offsets edges consumer =>
    s!"requested lines {showOffsets offsets} for {edges.describe} as {Text.quoted consumer}"
  | .refusedEvent offset granted cause =>
    s!"event request for line {offset} failed, releasing {granted} lines: {cause.message}"
  | .released count offsets => s!"released {count} of lines {showOffsets offsets}"
  | .reconfigured offsets flags =>
    s!"reconfigured lines {showOffsets offsets} with {flags.describe}"
  | .miscounted values lines => s!"{values} values given for {lines} lines"
  | .readEvent event offsets => s!"read {event.describe} from lines {showOffsets offsets}"
  | .ready count total => s!"{count} of {total} lines ready"
  | .undelivered offset =>
    s!"sim: failed to queue event for line {offset}: {Errno.systemText Errno.brokenPipe.code}"
  | .uninjected offset =>
    s!"sim: failed to inject bytes for line {offset}: {Errno.systemText Errno.brokenPipe.code}"

def render (notice : Notice) : String := notice.severity.name ++ ": " ++ notice.message

end Notice

/-- What a rejected argument adds to the log. -/
def Error.notices : Error → List Notice
  | .invalidArgument (.valueCount lines values) => [.miscounted values lines]
  | _ => []

end GpioLines
