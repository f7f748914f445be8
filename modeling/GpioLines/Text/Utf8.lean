/-!
# Text from bytes that may not be text

Names that a device reports are bytes. Well-formed UTF-8 is read as it stands; each maximal piece
that cannot be continued to a character is read as one replacement character. The reader is a
state machine that looks at one byte at a time, so it never needs to step back.
-/

namespace GpioLines.Text

/-- Stands for bytes that are no character. -/
def replacement : Char := '\uFFFD'

/-- How far the reader is inside a character: the bytes still due, the bounds of the next one, and
the bits read so far. -/
inductive Utf8State where
  | boundary
  | inside (due : Nat) (low high : UInt8) (bits : Nat)
deriving Repr, DecidableEq

/-- A byte where a character may begin. The bounds of the second byte exclude overlong forms,
surrogates and numbers beyond the last code point. -/
def firstByte (byte : UInt8) : List Char × Utf8State :=
  if byte < 0x80 then ([Char.ofNat byte.toNat], .boundary)
  else if byte < 0xC2 then ([replacement], .boundary)
  else if byte < 0xE0 then ([], .inside 1 0x80 0xBF (byte.toNat - 0xC0))
  else if byte = 0xE0 then ([], .inside 2 0xA0 0xBF 0)
  else if byte = 0xED then ([], .inside 2 0x80 0x9F 0xD)
  else if byte < 0xF0 then ([], .inside 2 0x80 0xBF (byte.toNat - 0xE0))
  else if byte = 0xF0 then ([], .inside 3 0x90 0xBF 0)
  else if byte < 0xF4 then ([], .inside 3 0x80 0xBF (byte.toNat - 0xF0))
  else if byte = 0xF4 then ([], .inside 3 0x80 0x8F 4)
  else ([replacement], .boundary)

def nextByte : Utf8State → UInt8 → List Char × Utf8State
  | .boundary, byte => firstByte byte
  | .inside due low high bits, byte =>
    if low ≤ byte ∧ byte ≤ high then
      let bits := bits * 64 + (byte.toNat - 0x80)
      if due ≤ 1 then ([Char.ofNat bits], .boundary)
      else ([], .inside (due - 1) 0x80 0xBF bits)
    else
      let (chars, state) := firstByte byte
      (replacement :: chars, state)

/-- Reads on from a state; what is unfinished at the end counts as one bad piece. -/
def readUtf8 : Utf8State → List UInt8 → List Char
  | .boundary, [] => []
  | .inside .., [] => [replacement]
  | state, byte :: rest =>
    let (chars, state) := nextByte state byte
    chars ++ readUtf8 state rest

def ofBytes (bytes : List UInt8) : String := String.ofList (readUtf8 .boundary bytes)

def toBytes (text : String) : List UInt8 := text.toList.flatMap String.utf8EncodeChar

end GpioLines.Text
