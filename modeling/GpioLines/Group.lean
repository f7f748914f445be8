import GpioLines.Line

/-!
# Groups of lines

A group is an ordered list of lines, repetitions allowed. Groups are the unit of requests, value
access and waiting, so one that is well formed has lines of a single chip and no more of them than
a request can hold.
-/

namespace GpioLines

structure Group where
  lines : List Line
deriving DecidableEq, Repr

namespace Group

def empty : Group := ⟨[]⟩

def single (line : Line) : Group := ⟨[line]⟩

def size (group : Group) : Nat := group.lines.length

def offsets (group : Group) : List Offset := group.lines.map (·.offset)

def first? (group : Group) : Option Line := group.lines.head?

def push (group : Group) (line : Line) : Group := ⟨group.lines ++ [line]⟩

structure WellFormed (group : Group) : Prop where
  size_le : group.size ≤ maxLines
  same_chip : ∀ a ∈ group.lines, ∀ b ∈ group.lines, a.chip = b.chip

theorem wellFormed_empty : empty.WellFormed := ⟨by decide, by simp [empty]⟩

theorem wellFormed_single (line : Line) : (single line).WellFormed :=
  ⟨by simp [size, single, maxLines], by simp [single]⟩

/-- One count of values for each line, or the fault that says so. -/
def checkCount (group : Group) (values : List UInt8) : Except Error Unit :=
  if values.length = group.size then .ok ()
  else .error (.invalidArgument (.valueCount group.size values.length))

/-- As `checkCount`; no values at all are always enough. -/
def checkCount? (group : Group) : Option (List UInt8) → Except Error Unit
  | none => .ok ()
  | some values => group.checkCount values

end Group

end GpioLines
