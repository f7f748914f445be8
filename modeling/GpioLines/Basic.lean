/-!
# Offsets, values and limits

A chip numbers its lines from zero; a line is known by that offset. A value travels as a byte of
which only "zero or not" counts, so every value that reaches a device has been normalized first.
-/

namespace GpioLines

abbrev Offset := UInt32

/-- The most lines a group, and so a single request, can hold. -/
def maxLines : Nat := 64

/-- The most events one batch read returns. -/
def maxEvents : Nat := 16

/-- A line is active exactly if its byte is not zero. -/
def isActive (value : UInt8) : Bool := value != 0

def ofActive (active : Bool) : UInt8 := if active then 1 else 0

def normalize (value : UInt8) : UInt8 := ofActive (isActive value)

@[simp] theorem isActive_ofActive (active : Bool) : isActive (ofActive active) = active := by
  cases active <;> rfl

@[simp] theorem isActive_normalize (value : UInt8) : isActive (normalize value) = isActive value :=
  isActive_ofActive _

@[simp] theorem normalize_normalize (value : UInt8) :
    normalize (normalize value) = normalize value := by
  simp [normalize]

def offsetsBelow (count : UInt32) : List Offset := (List.range count.toNat).map UInt32.ofNat

end GpioLines
