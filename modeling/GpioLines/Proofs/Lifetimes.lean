import GpioLines.Proofs.Client

/-!
# How long a chip lasts

A chip that was opened is there for good, though it may be closed, and how many lines it has is
settled when it is opened. A chip that is closed is never opened again. So it is with every operation,
whatever lines and groups it is given and whatever the devices answer; nothing has to be known of the
world for it.
-/

namespace GpioLines

namespace World

variable {σ : Type} {world after later : World σ}

/-- No chip goes away, changes its size or is open again. -/
structure ChipsLast (before after : World σ) : Prop where
  stays : ∀ (id : ChipId) (chip : Chip), before.chips[id]? = some chip →
    ∃ later : Chip, after.chips[id]? = some later ∧ later.lineCount = chip.lineCount ∧
      (chip.closed = true → later.closed = true)

namespace ChipsLast

theorem of_chips_eq (h : after.chips = world.chips) : world.ChipsLast after :=
  ⟨fun _ chip hchip => ⟨chip, by rw [h, hchip], rfl, fun hclosed => hclosed⟩⟩

theorem refl (world : World σ) : world.ChipsLast world := of_chips_eq rfl

theorem trans (h : world.ChipsLast after) (hlater : after.ChipsLast later) :
    world.ChipsLast later := by
  refine ⟨fun id chip hchip => ?_⟩
  obtain ⟨mid, hmid, hcount, hclosed⟩ := h.stays id chip hchip
  obtain ⟨last, hlast, hsame, hstill⟩ := hlater.stays id mid hmid
  exact ⟨last, hlast, hsame.trans hcount, fun hwas => hstill (hclosed hwas)⟩

theorem foldl {α : Type} {f : World σ → α → World σ}
    (h : ∀ (world : World σ) item, world.ChipsLast (f world item)) (items : List α)
    (world : World σ) : world.ChipsLast (items.foldl f world) := by
  induction items generalizing world with
  | nil => exact refl world
  | cons item rest ih => exact (h world item).trans (ih (f world item))

/-- What is done to one chip, which keeps its size and stays closed if it was. -/
theorem modify {f : Chip → Chip} (hcount : ∀ chip, (f chip).lineCount = chip.lineCount)
    (hclosed : ∀ chip : Chip, chip.closed = true → (f chip).closed = true) (id : ChipId)
    (hafter : after.chips = world.chips.modify id f) : world.ChipsLast after := by
  refine ⟨fun other chip hchip => ?_⟩
  rw [hafter, List.getElem?_modify, hchip]
  by_cases heq : id = other
  · exact ⟨f chip, by simp [heq], hcount chip, hclosed chip⟩
  · exact ⟨chip, by simp [heq], rfl, fun hwas => hwas⟩

end ChipsLast

theorem chipsLast_modifyLine (world : World σ) (line : Line) (f : LineRecord → LineRecord) :
    world.ChipsLast (world.modifyLine line f) :=
  .modify (f := (·.modifyLine line.offset f)) (fun _ => rfl) (fun _ => id) line.chip rfl

theorem chipsLast_detachAll (lines : List Line) (world : World σ) :
    world.ChipsLast (world.detachAll lines).2 := by
  induction lines generalizing world with
  | nil => exact .refl world
  | cons line rest ih => exact (chipsLast_modifyLine world line _).trans (ih _)

variable [Machine σ]

theorem chipsLast_of_perform {device : Device} {call : Call} {outcome : Outcome call}
    (h : world.perform device call = (outcome, after)) : world.ChipsLast after := by
  obtain ⟨machine, -, rfl⟩ := perform_eq h
  exact .of_chips_eq rfl

omit [Machine σ] in
theorem chipsLast_openHandle (world : World σ) (handle : Handle) :
    world.ChipsLast (world.openHandle handle) :=
  .of_chips_eq rfl

omit [Machine σ] in
theorem chipsLast_note (world : World σ) (notice : Notice) : world.ChipsLast (world.note notice) :=
  .of_chips_eq rfl

theorem chipsLast_of_readFile {file : FileId} {size : Nat} {outcome : ReadOutcome}
    (h : world.readFile file size = (outcome, after)) : world.ChipsLast after := by
  rw [readFile_eq h]
  exact .of_chips_eq rfl

/-! ### Handles -/

theorem chipsLast_dropHandles (ids : List HandleId) (world : World σ) :
    world.ChipsLast (world.dropHandles ids) := by
  induction ids generalizing world with
  | nil => exact .refl world
  | cons id rest ih =>
      rw [dropHandles]
      split
      · exact ih world
      · exact (ChipsLast.of_chips_eq (chips_dropHandle world id)).trans (ih _)

theorem chipsLast_relinquish (held : List HandleId) (world : World σ) :
    world.ChipsLast (world.relinquish held) := by
  have hleft : world.ChipsLast { world with waiting := held.foldl List.erase world.waiting } :=
    .of_chips_eq rfl
  exact hleft.trans (chipsLast_dropHandles ..)

/-! ### Metadata -/

theorem chipsLast_refresh (world : World σ) (line : Line) :
    world.ChipsLast (world.refresh line).2 := by
  unfold refresh
  split
  · exact .of_chips_eq rfl
  · split
    · next hperform => exact (chipsLast_of_perform hperform).trans (chipsLast_modifyLine ..)
    · next hperform => exact (chipsLast_of_perform hperform).trans (chipsLast_modifyLine ..)

theorem chipsLast_update (world : World σ) (line : Line) : world.ChipsLast (world.update line) := by
  have hrefresh := chipsLast_refresh world line
  unfold update
  split
  · next h => rwa [h] at hrefresh
  · next h =>
    rw [h] at hrefresh
    exact hrefresh.trans (.of_chips_eq rfl)

theorem chipsLast_updateAll (world : World σ) (group : Group) :
    world.ChipsLast (world.updateAll group) :=
  .foldl chipsLast_update group.lines world

/-! ### Chips and their lines -/

theorem chipsLast_openChipOn (world : World σ) (device : Device) :
    world.ChipsLast (world.openChipOn device).2 := by
  unfold openChipOn
  split
  · next h => exact chipsLast_of_perform h
  · next info mid h =>
    refine (chipsLast_of_perform h).trans ⟨fun id chip hchip => ?_⟩
    have hlt := (List.getElem?_eq_some_iff.mp hchip).1
    exact ⟨chip, (List.getElem?_append_left hlt).trans hchip, rfl, fun hclosed => hclosed⟩

theorem chipsLast_getLine (world : World σ) (id : ChipId) (offset : Offset) :
    world.ChipsLast (world.getLine id offset).2 := by
  have hrefresh := chipsLast_refresh world ⟨id, offset⟩
  unfold getLine
  split
  · exact .of_chips_eq rfl
  · split
    · simp only
      split <;> next h => rwa [h] at hrefresh
    · exact .of_chips_eq rfl

theorem chipsLast_getLinesInto (id : ChipId) (offsets : List Offset) (world : World σ)
    (group : Group) : world.ChipsLast (world.getLinesInto id group offsets).2 := by
  induction offsets generalizing world group with
  | nil => exact .refl world
  | cons offset rest ih =>
      have hline := chipsLast_getLine world id offset
      unfold getLinesInto
      split
      · next h => rwa [h] at hline
      · next h =>
        rw [h] at hline
        split
        · exact hline.trans (.of_chips_eq rfl)
        · exact hline.trans (ih ..)

theorem chipsLast_findAmong (chip : Chip) (name : String) (offsets : List Offset)
    (world : World σ) : world.ChipsLast (world.findAmong chip name offsets).2 := by
  induction offsets generalizing world with
  | nil => exact .of_chips_eq rfl
  | cons offset rest ih =>
      unfold findAmong
      split
      · next mid h =>
        exact (chipsLast_of_perform h).trans ((chipsLast_note ..).trans (ih _))
      · next h =>
        split
        · exact chipsLast_of_perform h
        · exact (chipsLast_of_perform h).trans (ih _)

theorem chipsLast_findLine (world : World σ) (id : ChipId) (name : String) :
    world.ChipsLast (world.findLine id name).2 := by
  unfold findLine
  split
  · exact .of_chips_eq rfl
  · exact chipsLast_findAmong ..

theorem chipsLast_invalidate (world : World σ) (line : Line) :
    world.ChipsLast (world.invalidate line) := by
  have hlines : world.ChipsLast ((world.detach line).2.modifyLine line (·.stale)) :=
    (chipsLast_modifyLine world line _).trans (chipsLast_modifyLine ..)
  exact hlines.trans (.of_chips_eq (world.chips_invalidate line))

theorem chipsLast_closeChip (world : World σ) (id : ChipId) :
    world.ChipsLast (world.closeChip id) := by
  unfold closeChip
  split
  · exact .refl world
  · next chip _ =>
    split
    · exact .refl world
    · have hmarked : world.ChipsLast
          { world with chips := world.chips.modify id ({ · with closed := true }) } :=
        .modify (f := ({ · with closed := true })) (fun _ => rfl) (fun _ _ => rfl) id rfl
      exact (hmarked.trans (.foldl chipsLast_invalidate _ _)).trans (.of_chips_eq rfl)

/-! ### Requests -/

theorem chipsLast_requestValues (world : World σ) (device : Device) (group : Group)
    (config : RequestConfig) (defaults : Option (List UInt8)) :
    world.ChipsLast (world.requestValues device group config defaults).2 := by
  unfold requestValues
  simp only
  split
  · next h => exact chipsLast_of_perform h
  · next file mid h =>
    refine (chipsLast_of_perform h).trans ?_
    have hattached : ∀ opened : World σ, opened.ChipsLast
        (group.lines.foldl (fun world line => world.attach line mid.handles.next .values) opened) :=
      .foldl (fun world line => chipsLast_modifyLine world line _) group.lines
    exact (chipsLast_openHandle ..).trans ((hattached _).trans (chipsLast_note ..))

theorem chipsLast_requestEvents (world : World σ) (device : Device) (group : Group)
    (config : RequestConfig) : world.ChipsLast (world.requestEvents device group config).2 := by
  obtain ⟨machine, log, files, hworld, -⟩ := world.acquireEvents_eq device config [] group.lines
  have hacquired : world.ChipsLast (world.acquireEvents device config [] group.lines).2 :=
    .of_chips_eq (by rw [hworld])
  unfold requestEvents
  split
  · next h =>
    rw [h] at hacquired
    refine hacquired.trans (.trans ?_ (chipsLast_dropHandles ..))
    split
    · exact .refl _
    · exact .of_chips_eq rfl
  · next h =>
    rw [h] at hacquired
    have hattached := ChipsLast.foldl (σ := σ)
      (f := fun world (entry : Line × HandleId) => world.attach entry.1 entry.2 .events)
      fun world entry => chipsLast_modifyLine world entry.1 _
    exact hacquired.trans ((hattached _ _).trans (.of_chips_eq rfl))

theorem chipsLast_request (world : World σ) (group : Group) (config : RequestConfig)
    (defaults : Option (List UInt8)) :
    world.ChipsLast (world.request group config defaults).2 := by
  unfold request
  split
  · exact .of_chips_eq rfl
  unfold requestLocked
  split
  · exact .of_chips_eq rfl
  next chip _ =>
  have htaken : world.ChipsLast (if config.type.isEvent then
      world.requestEvents chip.device group config
    else world.requestValues chip.device group config defaults).2 := by
    split
    · exact chipsLast_requestEvents ..
    · exact chipsLast_requestValues ..
  generalize (if config.type.isEvent then _ else _) = taken at htaken
  obtain ⟨outcome, mid⟩ := taken
  cases outcome with
  | error error => exact htaken
  | ok => exact htaken.trans (chipsLast_updateAll ..)

theorem chipsLast_release (world : World σ) (group : Group) :
    world.ChipsLast (world.release group) := by
  have hdropped : world.ChipsLast
      ((world.detachAll group.lines).2.dropHandles (world.detachAll group.lines).1) :=
    (chipsLast_detachAll ..).trans (chipsLast_dropHandles ..)
  unfold release
  simp only
  split
  · exact hdropped
  · split
    · exact hdropped.trans ((chipsLast_note ..).trans (chipsLast_updateAll ..))
    · exact hdropped.trans (.of_chips_eq rfl)

/-! ### Values and configurations -/

theorem chipsLast_fetchAll (held : List (HandleId × Handle)) (world : World σ) :
    world.ChipsLast (world.fetchAll held).2 := by
  induction held generalizing world with
  | nil => exact .refl world
  | cons entry rest ih =>
      unfold fetchAll
      simp only
      split
      · next h => exact chipsLast_of_perform h
      · next values mid h =>
        have hrest := ih mid
        split <;> next hfetch =>
          rw [hfetch] at hrest
          exact (chipsLast_of_perform h).trans hrest

theorem chipsLast_getValues (world : World σ) (group : Group) :
    world.ChipsLast (world.getValues group).2 := by
  unfold getValues
  split
  · exact .of_chips_eq rfl
  · next held _ =>
    have hfetched := chipsLast_fetchAll (distinctHandles held) world
    split <;> next h => rwa [h] at hfetched

theorem chipsLast_setValues (world : World σ) (group : Group) (values : List UInt8) :
    world.ChipsLast (world.setValues group values).2 := by
  unfold setValues
  split
  · exact .of_chips_eq rfl
  · unfold commitValues
    split
    · next h => exact chipsLast_of_perform h
    · next h => exact (chipsLast_of_perform h).trans (.of_chips_eq rfl)

theorem chipsLast_commitConfig (world : World σ) (plan : ConfigPlan) :
    world.ChipsLast (world.commitConfig plan).2 := by
  unfold commitConfig
  split
  · next h => exact chipsLast_of_perform h
  · next h => exact (chipsLast_of_perform h).trans (.of_chips_eq rfl)

theorem chipsLast_setConfig (world : World σ) (group : Group) (type : RequestType)
    (flags : RequestFlags) (values : Option (List UInt8)) :
    world.ChipsLast (world.setConfig group type flags values).2 := by
  unfold setConfig
  split
  · exact .of_chips_eq rfl
  split
  · exact .of_chips_eq rfl
  next plan _ =>
  have hcommitted := chipsLast_commitConfig world plan
  split
  · next h => rwa [h] at hcommitted
  · next h =>
    rw [h] at hcommitted
    exact hcommitted.trans ((chipsLast_note ..).trans (chipsLast_updateAll ..))

/-! ### Events and streams -/

theorem chipsLast_readEvent (world : World σ) (line : Line) :
    world.ChipsLast (world.readEvent line).2 := by
  unfold readEvent
  split
  · exact .of_chips_eq rfl
  · split
    · next h => exact chipsLast_of_readFile h
    · next h => exact (chipsLast_of_readFile h).trans (.of_chips_eq rfl)
    · next h =>
      split <;> exact (chipsLast_of_readFile h).trans (.of_chips_eq rfl)

theorem chipsLast_readEvents (world : World σ) (line : Line) (limit : Nat) :
    world.ChipsLast (world.readEvents line limit).2 := by
  unfold readEvents
  split
  · exact .of_chips_eq rfl
  simp only
  split
  · exact .refl world
  split
  · next h => exact chipsLast_of_readFile h
  · next h => exact (chipsLast_of_readFile h).trans (.of_chips_eq rfl)
  · next h =>
    split <;> exact (chipsLast_of_readFile h).trans (.of_chips_eq rfl)

theorem chipsLast_openStream (world : World σ) (line : Line) :
    world.ChipsLast (world.openStream line).2 := by
  unfold openStream
  split
  · exact .of_chips_eq rfl
  · split <;> exact .of_chips_eq rfl

theorem chipsLast_nextEvent (world : World σ) (stream : StreamId) :
    world.ChipsLast (world.nextEvent stream).2 := by
  unfold nextEvent
  split
  · exact .refl world
  split
  · exact .refl world
  split
  · next h => exact chipsLast_of_readFile h
  · next h =>
    split
    · exact chipsLast_of_readFile h
    · exact (chipsLast_of_readFile h).trans (.of_chips_eq rfl)
  · next h =>
    split <;> exact (chipsLast_of_readFile h).trans (.of_chips_eq rfl)

theorem chipsLast_dropStream (world : World σ) (stream : StreamId) :
    world.ChipsLast (world.dropStream stream) := by
  unfold dropStream
  split
  · exact .refl world
  · exact .of_chips_eq (chips_dropHandle ..)

/-! ### Waits -/

/-- A wait changes as much as the others do who act meanwhile. -/
theorem chipsLast_wait {others : List (Intervention σ)}
    (h : ∀ other ∈ others, ∀ world : World σ, world.ChipsLast (other.act world))
    (world : World σ) (group : Group) (token : Option TokenId)
    (timeout : Option Duration) :
    world.ChipsLast (world.wait group token timeout others).2 := by
  have hacts : ∀ acting : List (Intervention σ), (∀ other ∈ acting, other ∈ others) →
      ∀ world : World σ, world.ChipsLast (world.actAll acting) := by
    intro acting
    induction acting with
    | nil => exact fun _ world => .refl world
    | cons other rest ih =>
        intro hall world
        exact (h other (hall other List.mem_cons_self) world).trans
          (ih (fun later hlater => hall later (List.mem_cons_of_mem _ hlater)) _)
  unfold wait
  split
  · exact hacts others (fun _ => id) world
  · next files _ =>
    generalize group.lines.filterMap (fun line => (world.slot line).handle?) = held
    obtain ⟨outcome, log, before, after, rfl, hawait⟩ :=
      (world.retain held).await_eq files token (timeout.filter Duration.hasEnd) others
    have hretained : world.ChipsLast (world.retain held) := .of_chips_eq rfl
    have hbefore := hretained.trans (hacts before (fun _ => List.mem_append_left after) _)
    simp only [hawait]
    refine (hbefore.trans ?_).trans (hacts after (fun _ => List.mem_append_right before) _)
    have hlogged : ((world.retain held).actAll before).ChipsLast
        { (world.retain held).actAll before with log } := .of_chips_eq rfl
    exact hlogged.trans (chipsLast_relinquish held _)

end World

variable {σ : Type} [Machine σ]

theorem GroupOperation.chipsLast_run (operation : GroupOperation) (world : World σ) (group : Group) :
    world.ChipsLast (operation.run group world).2 := by
  cases operation with
  | request config defaults => exact world.chipsLast_request group config defaults
  | getValues => exact world.chipsLast_getValues group
  | setValues values => exact world.chipsLast_setValues group values
  | setConfig type flags values => exact world.chipsLast_setConfig group type flags values
  | setFlags flags =>
      simp only [run, World.setFlags]
      split
      · exact .of_chips_eq rfl
      · exact world.chipsLast_setConfig ..
  | setDirectionInput =>
      simp only [run, World.setDirectionInput]
      split
      · exact .of_chips_eq rfl
      · exact world.chipsLast_setConfig ..
  | setDirectionOutput values =>
      simp only [run, World.setDirectionOutput]
      split
      · exact .of_chips_eq rfl
      · exact world.chipsLast_setConfig ..

/-- **Chips last through every operation.** -/
theorem Operation.chipsLast_run (operation : Operation) (world : World σ) :
    world.ChipsLast (operation.run world).2 := by
  cases operation with
  | openChip device => exact world.chipsLast_openChipOn device
  | closeChip chip => exact world.chipsLast_closeChip chip
  | getLine chip offset => exact world.chipsLast_getLine chip offset
  | getLines chip offsets => exact World.chipsLast_getLinesInto chip offsets world .empty
  | getAllLines chip => exact World.chipsLast_getLinesInto chip _ world .empty
  | findLine chip name => exact world.chipsLast_findLine chip name
  | gather | append | single => exact .refl world
  | onGroup operation group => exact operation.chipsLast_run world group
  | release group => exact world.chipsLast_release group
  | refresh line => exact world.chipsLast_refresh line
  | readEvent line => exact world.chipsLast_readEvent line
  | readEvents line limit => exact world.chipsLast_readEvents line limit
  | openStream line => exact world.chipsLast_openStream line
  | nextEvent stream => exact world.chipsLast_nextEvent stream
  | dropStream stream => exact world.chipsLast_dropStream stream
  | newToken | cancel => exact .of_chips_eq rfl
  | wait group token timeout =>
      exact World.chipsLast_wait (fun _ hother => absurd hother List.not_mem_nil) world group token
        timeout

end GpioLines
