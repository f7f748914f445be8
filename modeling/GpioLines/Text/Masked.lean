/-!
# Text without descriptor numbers

The numbers of descriptors depend on what else is open. To compare texts, a number that follows the
word for a descriptor is replaced by a sign.
-/

namespace GpioLines.Text

/-- How much of the word has just been read. -/
inductive MaskState where
  | outside
  | afterF
  | afterFd
  | afterColon
  /-- A digit here belongs to a descriptor. -/
  | beforeNumber
  | inNumber
deriving Repr, DecidableEq

namespace MaskState

/-- The state after a character that is kept. -/
def next (state : MaskState) (c : Char) : MaskState :=
  match state, c with
  | .afterF, 'd' => .afterFd
  | .afterFd, ':' => .afterColon
  | .afterFd, ' ' => .beforeNumber
  | .afterColon, ' ' => .beforeNumber
  | _, 'f' => .afterF
  | _, _ => .outside

end MaskState

def maskFrom : MaskState → List Char → List Char
  | _, [] => []
  | state, c :: rest =>
    if state = .beforeNumber ∧ c.isDigit then '#' :: maskFrom .inNumber rest
    else if state = .inNumber ∧ c.isDigit then maskFrom .inNumber rest
    else c :: maskFrom (state.next c) rest

def masked (text : String) : String := String.ofList (maskFrom .outside text.toList)

end GpioLines.Text
