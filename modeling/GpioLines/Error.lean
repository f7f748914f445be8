import GpioLines.Basic
import GpioLines.Errno.Basic
import GpioLines.Text.Quoted

/-!
# Errors

An error is the cause of a failure; its wording is derived here and nowhere else. Errors raised by
the library itself carry what was wrong with the argument or the state; errors from a device or a
descriptor carry the error number they came with.
-/

namespace GpioLines

inductive CallKind where
  | chipInfo
  | lineInfo
  | requestLines
  | requestEvent
  | getValues
  | setValues
  | setConfig
deriving DecidableEq, Repr

def CallKind.phrase : CallKind → String
  | .chipInfo => "get chip info"
  | .lineInfo => "get line info"
  | .requestLines => "get line handle"
  | .requestEvent => "get line event"
  | .getValues => "get line value"
  | .setValues => "set line value"
  | .setConfig => "set line config"

inductive ArgumentFault where
  | valueCount (lines values : Nat)
  | exclusiveDrives
  | severalBiases
  | emptyGroup
  | closedChip
  | eventConfig
  | other (text : String)
deriving DecidableEq, Repr

def ArgumentFault.text : ArgumentFault → String
  | .valueCount .. => "number of values does not match number of lines"
  | .exclusiveDrives => "open-drain and open-source are exclusive"
  | .severalBiases => "only one bias setting may be given"
  | .emptyGroup => "line group is empty"
  | .closedChip => "line belongs to a closed chip"
  | .eventConfig => "lines can't be reconfigured for events"
  | .other text => text

/-- Why the present state cannot serve an operation. -/
inductive StateFault where
  | chipClosed
  | requestedForEvents
  | notRequestedForEvents
  | severalRequests
  | partialRequest
  | foreignLine
  | nothingToWaitOn
  | other (text : String)
deriving DecidableEq, Repr

def StateFault.text : StateFault → String
  | .chipClosed => "chip is closed"
  | .requestedForEvents => "line is requested for events"
  | .notRequestedForEvents => "line is not requested for events"
  | .severalRequests => "lines belong to different requests"
  | .partialRequest => "group does not cover the whole request"
  | .foreignLine => "line is not part of the request"
  | .nothingToWaitOn => "no lines to wait on"
  | .other text => text

/-- A failed file operation: a number of the system, or a refusal in words. -/
inductive IoFault where
  | system (code : Int)
  | refused (text : String)
deriving DecidableEq, Repr

def IoFault.message : IoFault → String
  | .system code => Errno.systemText code
  | .refused text => text

inductive Error where
  | notFound (what : String)
  | notAGpioChip (path : String)
  | outOfRange (offset : Offset)
  | invalidArgument (fault : ArgumentFault)
  | limitExceeded (limit : Nat)
  | crossChip
  | busy (offset : Offset)
  | permissionDenied (offset : Offset)
  | invalid (fault : StateFault)
  | call (kind : CallKind) (errno : Errno)
  | event (errno : Errno)
  | poll (errno : Errno)
  | io (fault : IoFault)
  | cancelled
deriving DecidableEq, Repr

namespace Error

def noSuchLine (name : String) : Error := .notFound ("line " ++ Text.quoted name)

def message : Error → String
  | .notFound what => s!"{what} not found"
  | .notAGpioChip path => s!"{path} is not a GPIO character device"
  | .outOfRange offset => s!"Offset {offset} is out of range"
  | .invalidArgument fault => s!"Invalid argument: {fault.text}"
  | .limitExceeded limit => s!"Line group is full ({limit} lines maximum)"
  | .crossChip => "Line group cannot hold lines from different chips"
  | .busy offset => s!"Line {offset} is already requested"
  | .permissionDenied offset => s!"Line {offset} is not requested"
  | .invalid fault => s!"Invalid operation: {fault.text}"
  | .call kind errno => s!"Ioctl to {kind.phrase} failed: {errno.message}"
  | .event errno => s!"Failed to read event: {errno.message}"
  | .poll errno => s!"Failed to wait for events: {errno.message}"
  | .io fault => fault.message
  | .cancelled => "Wait cancelled"

/-- The number a device or the system reported, if the error came from there. -/
def errno? : Error → Option Errno
  | .call _ errno | .event errno | .poll errno => some errno
  | .io (.system code) => some (Errno.ofCode code)
  | _ => none

def source? : Error → Option String
  | .call _ errno | .event errno | .poll errno => some errno.message
  | .io fault => some fault.message
  | _ => none

/-- The line is taken, by what the library knows or by what the device says. -/
def isBusy (error : Error) : Bool :=
  match error with
  | .busy _ => true
  | _ => error.errno? == some Errno.busy

def isCancelled : Error → Bool
  | .cancelled => true
  | _ => false

end Error

end GpioLines
