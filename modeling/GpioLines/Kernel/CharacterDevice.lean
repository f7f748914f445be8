import GpioLines.Kernel.Layout

/-!
# GPIO character devices

A character device lays each call out in a buffer, passes it to the kernel, and reads the answer. The
chip itself answers queries and requests; the values of a request are read and written through the
file that was granted for it.
-/

namespace GpioLines

inductive Target where
  | chip
  | handle (file : FileId)
deriving DecidableEq, Repr

/-- A kernel answers a request on a file with the buffer it has written into, or with an error. -/
class Kernel (κ : Type) where
  request : Target → CallKind → List UInt8 → κ → Except Errno (List UInt8) × κ

def Call.target : Call → Target
  | .getValues file _ | .setValues file _ | .setConfig file _ _ => .handle file
  | _ => .chip

namespace CharacterDevice

/-- The call can be laid out. A request has room for `maxLines` lines and needs one at least. -/
def canCarry : Call → Bool
  | .requestLines request =>
    !request.offsets.isEmpty && decide (request.offsets.length ≤ maxLines)
  | _ => true

def perform {κ : Type} [Kernel κ] (call : Call) (kernel : κ) : Outcome call × κ :=
  if canCarry call then
    match Kernel.request call.target call.kind (Layout.buffer call) kernel with
    | (.ok answer, kernel) => (.ok (Layout.reply answer call), kernel)
    | (.error errno, kernel) => (.error (.call call.kind errno), kernel)
  else (.error (.call call.kind .invalid), kernel)

end CharacterDevice

end GpioLines
