import GpioLines.World.Groups

/-!
# Chips and their lines

A chip is opened on a device, hands out its lines, and is closed once. Closing frees every line that
it has a record of, one after the other by offset, and closes the handles that only they held; the
lines stay known, but nothing can be done with them any more.
-/

namespace GpioLines.World

variable {σ : Type} [Machine σ]

/-- Opens a chip on a device, under the identity `world.chips.length`. -/
def openChipOn (world : World σ) (device : Device) : Except Error ChipInfo × World σ :=
  match world.perform device .chipInfo with
  | (.error error, world) => (.error error, world)
  | (.ok info, world) =>
    let world := world.note (.openedChip info.name info.label info.lineCount)
    (.ok info, { world with chips := world.chips ++ [Chip.ofInfo device info] })

/-- The line at an offset, with its metadata just refreshed. -/
def getLine (world : World σ) (id : ChipId) (offset : Offset) : Except Error Line × World σ :=
  match world.openChip id with
  | .error error => world.fail error
  | .ok chip =>
    if offset < chip.lineCount then
      let line : Line := ⟨id, offset⟩
      match world.refresh line with
      | (.error error, world) => (.error error, world)
      | (.ok _, world) => (.ok line, world)
    else world.fail (.outOfRange offset)

def getLinesInto (world : World σ) (id : ChipId) (group : Group) :
    List Offset → Except Error Group × World σ
  | [] => (.ok group, world)
  | offset :: rest =>
    match world.getLine id offset with
    | (.error error, world) => (.error error, world)
    | (.ok line, world) =>
      match world.append group line with
      | .error error => world.fail error
      | .ok group => world.getLinesInto id group rest

def getLines (world : World σ) (id : ChipId) (offsets : List Offset) :
    Except Error Group × World σ :=
  world.getLinesInto id .empty offsets

def getAllLines (world : World σ) (id : ChipId) : Except Error Group × World σ :=
  world.getLines id ((world.chips[id]?).elim [] Chip.offsets)

/-- The first of these offsets whose line has the name. Lines without readable metadata are passed
over. -/
def findAmong (world : World σ) (chip : Chip) (name : String) :
    List Offset → Except Error Offset × World σ
  | [] => world.fail (.noSuchLine name)
  | offset :: rest =>
    match world.perform chip.device (.lineInfo offset) with
    | (.error error, world) =>
      (world.note (.skippedLine offset chip.name error)).findAmong chip name rest
    | (.ok info, world) =>
      if info.name = some name then (.ok offset, world) else world.findAmong chip name rest

def findLine (world : World σ) (id : ChipId) (name : String) : Except Error Offset × World σ :=
  match world.openChip id with
  | .error error => world.fail error
  | .ok chip => world.findAmong chip name chip.offsets

/-- Frees a line whose chip goes away. -/
def invalidate (world : World σ) (line : Line) : World σ :=
  let (held, world) := world.detach line
  let world := world.modifyLine line (·.stale)
  held.elim world world.dropHandle

/-- Closes a chip; a second time changes nothing. -/
def closeChip (world : World σ) (id : ChipId) : World σ :=
  match world.chips[id]? with
  | none => world
  | some chip =>
    if chip.closed then world
    else
      let world := { world with chips := world.chips.modify id ({ · with closed := true }) }
      let world := (chip.records.offsets.map (Line.mk id)).foldl invalidate world
      world.note (.closedChip chip.name)

end GpioLines.World
