import GpioLines.World.Groups

/-!
# Reconfiguration

A values handle can change direction, settings and output values while its lines stay requested. The
handle remembers what was last accepted, so flags can be changed without naming the direction and a
direction without naming the settings. Each operation reads what the handle remembers, settles on
the new configuration, and then commits it to the device and to memory in one step.
-/

namespace GpioLines.World

variable {σ : Type}

structure ConfigPlan where
  id : HandleId
  handle : Handle
  flags : HandleFlags
  /-- In the order of the request. -/
  values : List UInt8

/-- Without a direction of its own the new configuration keeps that of the handle. -/
def configFlags (handle : Handle) (type : RequestType) (flags : RequestFlags) : HandleFlags :=
  let asked := flags.handleFlags type
  if type = .asIs then { asked with input := handle.flags.input, output := handle.flags.output }
  else asked

def checkConfig (group : Group) (type : RequestType) (flags : RequestFlags)
    (values : Option (List UInt8)) : Except Error Unit := do
  if type.isEvent then .error (.invalidArgument .eventConfig)
  flags.validate
  group.checkCount? values

/-- Outputs get the values given or else those driven last. -/
def planConfig (world : World σ) (group : Group) (type : RequestType) (flags : RequestFlags)
    (values : Option (List UInt8)) : Except Error ConfigPlan := do
  let _ ← world.chipOf group
  let (id, handle) ← world.valuesHandle group
  let flags := configFlags handle type flags
  match values with
  | some values =>
    if flags.output then
      let values ← group.inRequestOrder handle values
      return { id, handle, flags, values }
    else return { id, handle, flags, values := handle.values }
  | none => return { id, handle, flags, values := handle.values }

variable [Machine σ]

def commitConfig (world : World σ) (plan : ConfigPlan) : Except Error Unit × World σ :=
  match world.perform plan.handle.device (.setConfig plan.handle.file plan.flags plan.values) with
  | (.error error, world) => (.error error, world)
  | (.ok _, world) =>
    let handles := world.handles.modify plan.id (·.configured plan.flags plan.values)
    (.ok (), { world with handles })

def setConfig (world : World σ) (group : Group) (type : RequestType) (flags : RequestFlags)
    (values : Option (List UInt8)) : Except Error Unit × World σ :=
  match checkConfig group type flags values with
  | .error error => world.fail error
  | .ok _ =>
    match world.planConfig group type flags values with
    | .error error => world.fail error
    | .ok plan =>
      match world.commitConfig plan with
      | (.error error, world) => (.error error, world)
      | (.ok _, world) =>
        let world := world.note (.reconfigured plan.handle.offsets plan.flags)
        (.ok (), world.updateAll group)

/-- Changes the settings; direction and output values stay. -/
def setFlags (world : World σ) (group : Group) (flags : RequestFlags) :
    Except Error Unit × World σ :=
  match world.valuesHandle group with
  | .error error => world.fail error
  | .ok (_, handle) => world.setConfig group handle.flags.direction flags none

/-- Makes the lines inputs. Only an output can have a drive setting, so that is dropped. -/
def setDirectionInput (world : World σ) (group : Group) : Except Error Unit × World σ :=
  match world.valuesHandle group with
  | .error error => world.fail error
  | .ok (_, handle) =>
    let settings := handle.flags.settings.withoutDrive
    world.setConfig group .input { settings } none

/-- Makes the lines outputs with these values, in group order. -/
def setDirectionOutput (world : World σ) (group : Group) (values : List UInt8) :
    Except Error Unit × World σ :=
  match (do group.checkCount values; world.valuesHandle group) with
  | .error error => world.fail error
  | .ok (_, handle) => world.setConfig group .output handle.flags.requestFlags (some values)

end GpioLines.World
