import GpioLines.Bytes
import GpioLines.Text.Utf8

/-!
# Labels in fixed fields

Names and consumer labels travel in fields of thirty-two bytes, ended by a zero byte. A label that
is too long is cut to leave room for that byte, even in the middle of a character.
-/

namespace GpioLines.Label

def width : Nat := 32

def field (text : String) : List UInt8 := Bytes.fit width ((Text.toBytes text).take (width - 1))

/-- The bytes of a field before its first zero byte. -/
def content (field : List UInt8) : List UInt8 := (field.take width).takeWhile (· != 0)

/-- The text in a field, if there is any. -/
def text? (field : List UInt8) : Option String :=
  if (content field).isEmpty then none else some (Text.ofBytes (content field))

@[simp] theorem length_field (text : String) : (field text).length = width := by simp [field]

end GpioLines.Label
