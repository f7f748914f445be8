import GpioLines.World.State

/-!
# Groups in a world

How groups are built, and what an operation on a group needs to know before it may start: the open
chip that its members share, the handles that serve them, and, for writing, the one values handle
that the group covers completely. None of this touches a device or changes the world.
-/

namespace GpioLines.World

variable {σ : Type}

/-! ### Building groups -/

def append (world : World σ) (group : Group) (line : Line) : Except Error Group :=
  if !world.isValid line then .error (.invalidArgument .closedChip)
  else if maxLines ≤ group.size then .error (.limitExceeded maxLines)
  else match group.first? with
    | some first => if first.chip = line.chip then .ok (group.push line) else .error .crossChip
    | none => .ok (group.push line)

def groupOf (world : World σ) (lines : List Line) : Except Error Group :=
  lines.foldlM world.append .empty

def allRequested (world : World σ) (group : Group) : Bool := group.lines.all world.isRequested

def allFree (world : World σ) (group : Group) : Bool := group.lines.all world.isFree

def describe (world : World σ) (group : Group) : String :=
  "Lines \x7b lines: " ++
    Text.bracketed (group.lines.map fun line => line.describe (world.state line)) ++ " \x7d"

/-! ### Chip and handles of a group -/

def chipOf (world : World σ) (group : Group) : Except Error Chip :=
  match group.first? with
  | none => .error (.invalidArgument .emptyGroup)
  | some first => do
    let chip ← world.openChip first.chip
    if group.lines.any (·.chip != first.chip) then .error .crossChip else .ok chip

def handleOf (world : World σ) (line : Line) : Except Error (HandleId × Handle) :=
  match world.handle? line with
  | some held => .ok held
  | none => .error (.permissionDenied line.offset)

def handlesOf (world : World σ) (group : Group) : Except Error (List (HandleId × Handle)) := do
  let _ ← world.chipOf group
  group.lines.mapM world.handleOf

/-- The single values handle that the group covers. Its members may be repeated or in another order
than in the request, but none of the lines of the request may be missing. -/
def valuesHandle (world : World σ) (group : Group) : Except Error (HandleId × Handle) := do
  match ← world.handlesOf group with
  | [] => .error (.invalidArgument .emptyGroup)
  | first :: rest =>
    if (first :: rest).any (·.2.kind != .values) then .error (.invalid .requestedForEvents)
    else if rest.any (·.1 != first.1) then .error (.invalid .severalRequests)
    else if first.2.offsets.any (!group.offsets.contains ·) then .error (.invalid .partialRequest)
    else .ok first

end GpioLines.World

namespace GpioLines.Group

/-- Values given in group order, laid out in the order of the request. The last of several values
for one line counts. -/
def inRequestOrder (group : Group) (handle : Handle) (values : List UInt8) :
    Except Error (List UInt8) :=
  (group.offsets.zip values).foldlM
    (fun ordered (offset, value) =>
      match handle.indexOf? offset with
      | some index => .ok (ordered.set index (normalize value))
      | none => .error (.invalid .foreignLine))
    (List.replicate handle.offsets.length 0)

end GpioLines.Group
