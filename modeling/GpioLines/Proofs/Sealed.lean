import GpioLines.Proofs.Dealings

/-!
# Who does not read

Three operations read files, and no other does. So every other operation runs on a machine whose
files cannot be read exactly as it runs on the machine itself, and a chain of deals of it is one in
which no file is read.
-/

namespace GpioLines

/-- The machine with nothing to be read from any file. -/
@[reducible]
def Machine.sealed (σ : Type) [Machine σ] : Machine σ :=
  { (inferInstance : Machine σ) with read := fun _ _ machine => (.blocked, machine) }

variable {σ : Type} [Machine σ]

namespace World

/-! ### Loops -/

theorem dropHandles_sealed : @dropHandles σ (Machine.sealed σ) = dropHandles := by
  delta dropHandles
  rfl

theorem fetchAll_sealed : @fetchAll σ (Machine.sealed σ) = fetchAll := by
  delta fetchAll
  rfl

theorem getLinesInto_sealed : @getLinesInto σ (Machine.sealed σ) = getLinesInto := by
  delta getLinesInto
  rfl

theorem findAmong_sealed : @findAmong σ (Machine.sealed σ) = findAmong := by
  delta findAmong
  rfl

theorem acquireEvents_sealed : @acquireEvents σ (Machine.sealed σ) = acquireEvents := by
  delta acquireEvents
  rfl

theorem await_sealed : @await σ (Machine.sealed σ) = await := by
  delta await
  rfl

/-! ### Operations -/

theorem request_sealed : @request σ (Machine.sealed σ) = request := by
  unfold request requestLocked requestEvents
  rw [acquireEvents_sealed, dropHandles_sealed]
  rfl

theorem release_sealed : @release σ (Machine.sealed σ) = release := by
  unfold release
  rw [dropHandles_sealed]
  rfl

theorem getValues_sealed : @getValues σ (Machine.sealed σ) = getValues := by
  unfold getValues
  rw [fetchAll_sealed]

theorem getLines_sealed : @getLines σ (Machine.sealed σ) = getLines := by
  unfold getLines
  rw [getLinesInto_sealed]

theorem wait_sealed : @wait σ (Machine.sealed σ) = wait := by
  unfold wait relinquish
  rw [dropHandles_sealed, await_sealed]

theorem findLine_sealed : @findLine σ (Machine.sealed σ) = findLine := by
  unfold findLine
  rw [findAmong_sealed]

end World

theorem GroupOperation.run_sealed :
    @GroupOperation.run σ (Machine.sealed σ) = GroupOperation.run := by
  funext group world operation
  cases operation with
  | request =>
      unfold run
      rw [World.request_sealed]
  | getValues =>
      unfold run
      rw [World.getValues_sealed]
  | setValues | setConfig | setFlags | setDirectionInput | setDirectionOutput => rfl

/-- Whether an operation reads a file. -/
def Operation.Reads : Operation → Prop
  | .readEvent _ | .readEvents .. | .nextEvent _ => True
  | _ => False

theorem Operation.run_sealed (world : World σ) {operation : Operation} (h : ¬ operation.Reads) :
    @Operation.run σ (Machine.sealed σ) world operation = operation.run world := by
  cases operation with
  | readEvent | readEvents | nextEvent => exact absurd trivial h
  | getLines chip offsets =>
      unfold run
      rw [World.getLines_sealed]
  | getAllLines chip =>
      unfold run World.getAllLines
      rw [World.getLines_sealed]
  | findLine chip name =>
      unfold run
      rw [World.findLine_sealed]
  | onGroup operation group =>
      unfold run
      rw [GroupOperation.run_sealed]
  | release group =>
      unfold run
      rw [World.release_sealed]
  | wait group token timeout =>
      unfold run
      rw [World.wait_sealed]
  | openChip | closeChip | getLine | gather | append | single | refresh | openStream | dropStream
  | newToken | cancel => rfl

/-! ### Deals -/

section Deals

variable {adds : Prop} {before after : Docket σ}

/-- A chain of deals in which no file is read. -/
abbrev Unread (adds : Prop) (before after : Docket σ) : Prop :=
  @Deals σ (Machine.sealed σ) adds before after

theorem Deal.unseal (h : @Deal σ (Machine.sealed σ) adds before after) : Deal adds before after := by
  cases h with
  | pass keeps => exact .pass keeps
  | openChip allowed device info => exact .openChip allowed device info
  | read => exact .pass (World.keeps_of_eq rfl rfl rfl)
  | watch file => exact .watch file
  | unwatch file => exact .unwatch file
  | ask quiet addressed told => exact .ask quiet addressed told
  | learn isOpen told => exact .learn isOpen told
  | doubt isOpen told => exact .doubt isOpen told
  | take onChip valid granted => exact .take onChip valid granted
  | listen isOpen granted => exact .listen isOpen granted
  | attach found device kind => exact .attach found device kind
  | drive found length bits driven => exact .drive found length bits driven
  | configure onChip covers length bits configured =>
      exact .configure onChip covers length bits configured
  | close found => exact .close found

theorem Unread.deals (h : Unread adds before after) : Deals adds before after := by
  induction h with
  | refl => exact .refl
  | tail _ hdeal ih => exact ih.tail hdeal.unseal

namespace World

theorem unread_note {world : World σ} {due : Set Line} (notice : Notice) :
    Unread adds ⟨world, due⟩ ⟨world.note notice, due⟩ :=
  @deals_note σ world (Machine.sealed σ) adds due notice

theorem unread_attachAll {world : World σ} {kind : HandleKind} {pairs : List (Line × HandleId)}
    {due : Set Line} (h : ∀ pair ∈ pairs, ∃ handle, world.handles.get? pair.2 = some handle ∧
      world.board.device? pair.1.chip = some handle.device) :
    Unread adds ⟨world, due⟩ ⟨world.attachAll kind pairs, due⟩ :=
  @deals_attachAll σ world (Machine.sealed σ) adds due kind pairs h

theorem unread_updateAll {world : World σ} (group : Group) :
    Unread adds ⟨world, ∅⟩ ⟨world.updateAll group, ∅⟩ :=
  @deals_updateAll σ world (Machine.sealed σ) adds ∅ group nofun

theorem unread_acquireEvents {world : World σ} {chip : Chip} {id : ChipId}
    (config : RequestConfig) {lines : List Line} (hlines : ∀ line ∈ lines, line.chip = id)
    (hopen : world.openChip id = .ok chip) (hfresh : world.handles.Fresh)
    (granted : List HandleId) :
    ∃ due, Unread adds ⟨world, ∅⟩
      ⟨(world.acquireEvents chip.device config granted lines).2, due⟩ := by
  obtain ⟨taken, -, hdeals, -⟩ := @deals_acquireEvents σ world (Machine.sealed σ) adds ∅ chip id
    config lines hlines hopen hfresh granted
  rw [acquireEvents_sealed] at hdeals
  exact ⟨_, hdeals⟩

end World

/-- **Every operation but three is a chain of deals in which no file is read.** -/
theorem Operation.unread {world : World σ} (hsound : Desk.Sound ⟨world, 0⟩) {operation : Operation}
    (hgroups : ∀ group ∈ operation.groups, group.WellFormed) (h : ¬ operation.Reads) :
    Unread operation.AddsChip ⟨world, ∅⟩ ⟨(operation.run world).2, ∅⟩ := by
  rw [← Operation.run_sealed world h]
  exact @Operation.deals σ (Machine.sealed σ) world hsound operation hgroups

end Deals

end GpioLines
