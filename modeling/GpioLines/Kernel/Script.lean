import GpioLines.Bench.File
import GpioLines.Kernel.CharacterDevice

/-!
# A kernel that follows a script

For tests without a kernel, the answers to the coming requests are written down in advance. Each
request takes the next one; a request without an answer is refused as one that the file does not
know. What was asked is kept, buffer and all.
-/

namespace GpioLines

/-- What a scripted answer writes into the buffer, as far as the request has a place for it. -/
structure ScriptedFields where
  name : Option (List UInt8) := none
  label : Option (List UInt8) := none
  consumer : Option (List UInt8) := none
  values : Option (List UInt8) := none
  lineCount : Option UInt32 := none
  offset : Option UInt32 := none
  flags : Option UInt32 := none
  source : Source := .null
deriving DecidableEq, Repr

inductive ScriptedAnswer where
  | refusal (errno : Errno)
  | answer (fields : ScriptedFields)
deriving DecidableEq, Repr

/-- The file a request was made on: the chip, or one of the granted files by number. -/
inductive IssuedTarget where
  | chip
  | handle (number : Nat)
deriving DecidableEq, Repr

structure IssuedRequest where
  target : IssuedTarget
  kind : CallKind
  buffer : List UInt8
deriving DecidableEq, Repr

structure KernelScript where
  answers : List ScriptedAnswer := []
  issued : List IssuedRequest := []
  granted : List FileId := []
deriving DecidableEq, Repr

namespace ScriptedFields

open Bytes

def put (start width : Nat) (piece : Option (List UInt8)) (buffer : List UInt8) : List UInt8 :=
  piece.elim buffer fun piece => overwrite start (piece.take width) buffer

def putWord (start : Nat) (word : Option UInt32) (buffer : List UInt8) : List UInt8 :=
  put start 4 (word.map ofWord32) buffer

/-- The buffer as the kernel leaves it. `file` is the number of a file just granted. -/
def writeInto (fields : ScriptedFields) (file : FileId) (buffer : List UInt8) :
    CallKind → List UInt8
  | .chipInfo =>
    putWord 64 fields.lineCount (put 32 32 fields.label (put 0 32 fields.name buffer))
  | .lineInfo =>
    put 40 32 fields.consumer (put 8 32 fields.name
      (putWord 4 fields.flags (putWord 0 fields.offset buffer)))
  | .requestLines => put Layout.linesFileStart 4 (some (ofNat 4 file)) buffer
  | .requestEvent => put Layout.eventFileStart 4 (some (ofNat 4 file)) buffer
  | .getValues => put 0 maxLines fields.values buffer
  | .setValues | .setConfig => buffer

end ScriptedFields

namespace KernelScript

def targetOf (script : KernelScript) : Target → IssuedTarget
  | .chip => .chip
  | .handle file => .handle (script.granted.idxOf file)

def issue (script : KernelScript) (request : IssuedRequest) : KernelScript :=
  { script with issued := script.issued ++ [request] }

def grants : CallKind → Bool
  | .requestLines | .requestEvent => true
  | _ => false

/-- Answers a request. The number `fresh` is for a file, in case the request is granted one; what
lies behind that file comes with the answer. -/
def request (script : KernelScript) (fresh : FileId) (target : Target) (kind : CallKind)
    (buffer : List UInt8) : Except Errno (List UInt8 × Option Source) × KernelScript :=
  let script := script.issue ⟨script.targetOf target, kind, buffer⟩
  match script.answers with
  | [] => (.error .notTypewriter, script)
  | .refusal errno :: answers => (.error errno, { script with answers })
  | .answer fields :: answers =>
    let written := fields.writeInto fresh buffer kind
    if grants kind then
      (.ok (written, some fields.source),
        { script with answers, granted := script.granted ++ [fresh] })
    else (.ok (written, none), { script with answers })

end KernelScript

end GpioLines
