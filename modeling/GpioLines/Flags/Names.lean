/-!
# Words of named bits

Flags cross the device boundary as the bits of a word. Each kind of word names some of its bits;
the others are unknown, and whether they are kept, dropped or refused is up to the reader.
-/

namespace GpioLines

def hasBit (word : UInt32) (position : Nat) : Bool := word.toNat.testBit position

/-- The word with at most this one bit. -/
def bitIf (condition : Bool) (position : Nat) : UInt32 :=
  if condition then 1 <<< UInt32.ofNat position else 0

/-- The names of a kind of word, each with its bit, in order of declaration. -/
structure BitNames where
  title : String
  bits : List (String × Nat)

namespace BitNames

def known (names : BitNames) : UInt32 :=
  names.bits.foldl (fun word named => word ||| bitIf true named.2) 0

def truncate (names : BitNames) (word : UInt32) : UInt32 := word &&& names.known

def named? (names : BitNames) (word : UInt32) : Option UInt32 :=
  if names.truncate word = word then some word else none

def hasAll (names : BitNames) (word : UInt32) : Bool := names.truncate word == names.known

def render (names : BitNames) (word : UInt32) : String :=
  let shown := names.bits.filterMap fun (name, position) =>
    if hasBit word position then some name else none
  let rest := word &&& ~~~names.known
  let number := "0x" ++ String.ofList (Nat.toDigits 16 rest.toNat)
  let parts := if rest ≠ 0 ∨ shown = [] then shown ++ [number] else shown
  names.title ++ "(" ++ " | ".intercalate parts ++ ")"

end BitNames

def requestFlagNames : BitNames where
  title := "LineRequestFlags"
  bits := [("ACTIVE_LOW", 0), ("OPEN_DRAIN", 1), ("OPEN_SOURCE", 2), ("BIAS_DISABLE", 3),
    ("BIAS_PULL_DOWN", 4), ("BIAS_PULL_UP", 5)]

def handleFlagNames : BitNames where
  title := "HandleFlags"
  bits := [("INPUT", 0), ("OUTPUT", 1), ("ACTIVE_LOW", 2), ("OPEN_DRAIN", 3), ("OPEN_SOURCE", 4),
    ("BIAS_PULL_UP", 5), ("BIAS_PULL_DOWN", 6), ("BIAS_DISABLE", 7)]

def infoFlagNames : BitNames where
  title := "LineInfoFlags"
  bits := [("KERNEL", 0), ("IS_OUT", 1), ("ACTIVE_LOW", 2), ("OPEN_DRAIN", 3), ("OPEN_SOURCE", 4),
    ("BIAS_PULL_UP", 5), ("BIAS_PULL_DOWN", 6), ("BIAS_DISABLE", 7)]

def edgeFlagNames : BitNames where
  title := "EventFlags"
  bits := [("RISING_EDGE", 0), ("FALLING_EDGE", 1)]

end GpioLines
