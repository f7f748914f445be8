import GpioLines.World.Groups

/-!
# Reading and driving values

Members of a group may be served by several handles, so a read makes one call a handle and picks
each member's value by its place in that handle's request. A write goes to one values handle that
the group covers, with the values put into the order of the request.
-/

namespace GpioLines.World

variable {σ : Type}

/-! ### Reading -/

/-- Every handle once, in order of first appearance. -/
def distinctHandles (handles : List (HandleId × Handle)) : List (HandleId × Handle) :=
  handles.foldl (fun seen held => if seen.any (·.1 == held.1) then seen else seen ++ [held]) []

def valueOf (fetched : List (HandleId × List UInt8)) (line : Line) (held : HandleId × Handle) :
    Except Error UInt8 :=
  match fetched.lookup held.1, held.2.indexOf? line.offset with
  | some values, some index =>
    match values[index]? with
    | some value => .ok value
    | none => .error (.invalid .foreignLine)
  | _, _ => .error (.invalid .foreignLine)

def planValues (world : World σ) (group : Group) (values : List UInt8) :
    Except Error (HandleId × Handle × List UInt8) := do
  group.checkCount values
  let (id, handle) ← world.valuesHandle group
  let ordered ← group.inRequestOrder handle values
  return (id, handle, ordered)

variable [Machine σ]

def fetchAll (world : World σ) :
    List (HandleId × Handle) → Except Error (List (HandleId × List UInt8)) × World σ
  | [] => (.ok [], world)
  | (id, handle) :: rest =>
    let buffer := List.replicate handle.offsets.length 0
    match world.perform handle.device (.getValues handle.file buffer) with
    | (.error error, world) => (.error error, world)
    | (.ok values, world) =>
      match world.fetchAll rest with
      | (.error error, world) => (.error error, world)
      | (.ok more, world) => (.ok ((id, values.val) :: more), world)

def getValues (world : World σ) (group : Group) : Except Error (List UInt8) × World σ :=
  match world.handlesOf group with
  | .error error => world.fail error
  | .ok handles =>
    match world.fetchAll (distinctHandles handles) with
    | (.error error, world) => (.error error, world)
    | (.ok fetched, world) =>
      ((group.lines.zip handles).mapM fun (line, held) => valueOf fetched line held, world)

/-! ### Driving -/

def commitValues (world : World σ) (id : HandleId) (handle : Handle) (values : List UInt8) :
    Except Error Unit × World σ :=
  match world.perform handle.device (.setValues handle.file values) with
  | (.error error, world) => (.error error, world)
  | (.ok _, world) =>
    (.ok (), { world with handles := world.handles.modify id (·.driven values) })

def setValues (world : World σ) (group : Group) (values : List UInt8) :
    Except Error Unit × World σ :=
  match world.planValues group values with
  | .error error => world.fail error
  | .ok (id, handle, ordered) => world.commitValues id handle ordered

end GpioLines.World
