import GpioLines.Error
import GpioLines.Flags.Basic

/-!
# What a request asks for

A request is for values, with or without a direction, or for edge events, which are always inputs.
-/

namespace GpioLines

inductive RequestType where
  /-- Values, with the direction left as it is. -/
  | asIs
  | input
  | output
  | eventRising
  | eventFalling
  | eventBoth
deriving DecidableEq, Repr

namespace RequestType

def isEvent : RequestType → Bool
  | .eventRising | .eventFalling | .eventBoth => true
  | _ => false

def edges : RequestType → EdgeFlags
  | .eventRising => { rising := true }
  | .eventFalling => { falling := true }
  | .eventBoth => { rising := true, falling := true }
  | _ => {}

def name : RequestType → String
  | .asIs => "AsIs"
  | .input => "Input"
  | .output => "Output"
  | .eventRising => "EventRising"
  | .eventFalling => "EventFalling"
  | .eventBoth => "EventBoth"

def all : List RequestType := [.asIs, .input, .output, .eventRising, .eventFalling, .eventBoth]

def ofName? (text : String) : Option RequestType := all.find? (·.name == text)

end RequestType

namespace RequestFlags

/-- Refuses settings that every device would refuse. -/
def validate (flags : RequestFlags) : Except Error Unit :=
  if flags.settings.bothDrives then .error (.invalidArgument .exclusiveDrives)
  else if 1 < flags.settings.biasCount then .error (.invalidArgument .severalBiases)
  else .ok ()

def handleFlags (flags : RequestFlags) (type : RequestType) : HandleFlags where
  input := type ≠ .asIs ∧ type ≠ .output
  output := type = .output
  settings := flags.settings

end RequestFlags

/-- The type of request that asks for the direction a handle has. -/
def HandleFlags.direction (flags : HandleFlags) : RequestType :=
  if flags.output then .output else if flags.input then .input else .asIs

structure RequestConfig where
  consumer : String
  type : RequestType
  flags : RequestFlags := {}
deriving DecidableEq, Repr

end GpioLines
