/-!
# Byte fields

Records and request buffers are byte strings of fixed layout: words with the low byte first, text
and values filled up with zeros to the width of their field.
-/

namespace GpioLines.Bytes

/-- The `width` low bytes of a number, lowest first. -/
def ofNat : Nat → Nat → List UInt8
  | 0, _ => []
  | width + 1, n => UInt8.ofNat n :: ofNat width (n / 256)

def toNat : List UInt8 → Nat
  | [] => 0
  | byte :: rest => byte.toNat + 256 * toNat rest

/-- Cut or filled up with zeros to `width` bytes. -/
def fit (width : Nat) (bytes : List UInt8) : List UInt8 :=
  bytes.take width ++ List.replicate (width - bytes.length) 0

def field (start width : Nat) (bytes : List UInt8) : List UInt8 := (bytes.drop start).take width

def word32 (start : Nat) (bytes : List UInt8) : UInt32 := UInt32.ofNat (toNat (field start 4 bytes))

/-- Writes `piece` over the bytes from position `start` on. -/
def overwrite (start : Nat) (piece bytes : List UInt8) : List UInt8 :=
  bytes.take start ++ piece ++ bytes.drop (start + piece.length)

def ofWord32 (word : UInt32) : List UInt8 := ofNat 4 word.toNat

def hex (bytes : List UInt8) : String :=
  String.ofList <| bytes.flatMap fun byte =>
    [Nat.digitChar (byte.toNat / 16), Nat.digitChar (byte.toNat % 16)]

@[simp] theorem length_ofNat (width n : Nat) : (ofNat width n).length = width := by
  induction width generalizing n with
  | zero => rfl
  | succ width ih => simp [ofNat, ih]

@[simp] theorem length_ofWord32 (word : UInt32) : (ofWord32 word).length = 4 := length_ofNat ..

theorem word32_ofWord32 (word : UInt32) (rest : List UInt8) :
    word32 0 (ofWord32 word ++ rest) = word := by
  have hlt := word.toNat_lt
  have hfield : field 0 4 (ofWord32 word ++ rest) = ofNat 4 word.toNat := by
    simp [field, ofWord32, ofNat]
  rw [word32, hfield, ← UInt32.toNat_inj]
  simp only [ofNat, toNat, UInt8.toNat_ofNat', UInt32.toNat_ofNat']
  omega

@[simp] theorem length_fit (width : Nat) (bytes : List UInt8) :
    (fit width bytes).length = width := by
  simp only [fit, List.length_append, List.length_take, List.length_replicate]
  omega

end GpioLines.Bytes
