import GpioLines.Device

/-!
# Machines

The library is written against any machine that has GPIO devices and the files these hand out. A
machine answers the calls of the device boundary and reads, watches and releases files; nothing is
assumed about its answers, so what is proved of the library holds over every machine.
-/

namespace GpioLines

/-- What a waiting reader learns of a file without reading it. -/
inductive Readiness where
  | idle
  /-- A read finds bytes, or the end of the file, at once. -/
  | input
  /-- The file has failed: a wait ends on it, but no input will ever come. -/
  | failed
deriving DecidableEq, Repr

inductive ReadOutcome where
  | bytes (bytes : List UInt8)
  | failed (errno : Errno)
  /-- Nothing to read yet, and the file is in blocking mode. -/
  | blocked
deriving DecidableEq, Repr

class Machine (σ : Type) where
  perform : Device → (call : Call) → σ → Outcome call × σ
  /-- Tells the device that a file is done with, and closes the file. -/
  release : Device → FileId → σ → σ
  read : FileId → Nat → σ → ReadOutcome × σ
  readiness : FileId → σ → Readiness
  /-- Makes a file non-blocking, for good, and watches it for input. -/
  watch : FileId → σ → Except Errno Unit × σ
  unwatch : FileId → σ → σ

end GpioLines
