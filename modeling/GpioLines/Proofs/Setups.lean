import GpioLines.Proofs.Consumers
import GpioLines.Proofs.Refreshing
import GpioLines.Proofs.Switching

/-!
# What lines are set up as

A request sets its lines up, and so does every reconfiguration of them: the direction is the one that
is named, or else stays, the settings are those that are asked for, and the lines are held by the
consumer of the request. In the end the chip is asked for each of them.
-/

namespace GpioLines

/-! ### One line -/

/-- The direction of a line that has this one, after a request of a type. -/
def RequestType.directionFrom (was : Direction) : RequestType → Direction
  | .asIs => was
  | .output => .output
  | .input | .eventRising | .eventFalling | .eventBoth => .input

def SimLine.direction (line : SimLine) : Direction := if line.flags.output then .output else .input

/-- The line was set up by a request of this type, with these settings and for this consumer. -/
structure SimLine.SetUp (was now : SimLine) (type : RequestType) (settings : Settings)
    (consumer : String) : Prop where
  direction : now.direction = type.directionFrom was.direction
  settings : now.flags.settings = settings
  marks : now.Bears consumer

namespace SimLine

variable {line was now : SimLine} {type : RequestType} {flags : RequestFlags} {consumer : String}

theorem direction_applyFlags (line : SimLine) (flags : RequestFlags) (type : RequestType) :
    (line.applyFlags (flags.handleFlags type)).direction = type.directionFrom line.direction := by
  cases type <;> simp [direction, applyFlags, RequestFlags.handleFlags, RequestType.directionFrom]

/-- A configuration without a direction takes that of the handle, which is the line's. -/
theorem direction_configFlags {handle : Handle} (hobeys : line.Obeys handle.flags)
    (flags : RequestFlags) (type : RequestType) :
    (line.applyFlags (World.configFlags handle type flags)).direction =
      type.directionFrom line.direction := by
  by_cases htype : type = .asIs
  · subst htype
    rw [World.configFlags, if_pos rfl]
    cases houtput : handle.flags.output with
    | true => simp [direction, applyFlags, hobeys.output houtput, RequestType.directionFrom]
    | false =>
        cases hinput : handle.flags.input with
        | true => simp [direction, applyFlags, hobeys.input hinput, RequestType.directionFrom]
        | false => simp [direction, applyFlags, RequestType.directionFrom]
  · rw [World.configFlags, if_neg htype]
    exact direction_applyFlags line flags type

/-- The type that names the direction of the handle leaves a line as it is. -/
theorem Obeys.direction {flags : HandleFlags} (h : line.Obeys flags) :
    flags.direction.directionFrom line.direction = line.direction := by
  rw [HandleFlags.direction]
  split
  · next houtput => rw [SimLine.direction, h.output houtput, RequestType.directionFrom, if_pos rfl]
  · split
    · next hinput =>
      rw [SimLine.direction, h.input hinput]
      rfl
    · rfl

theorem direction_configure (line : SimLine) (flags : HandleFlags) (value : UInt8) :
    (line.configure flags value).direction = (line.applyFlags flags).direction := by
  rw [direction, direction, flags_configure]

theorem setUp_taken (line : SimLine) (flags : RequestFlags) (type : RequestType) (consumer : String)
    (value : UInt8) : line.SetUp ((line.take consumer).configure (flags.handleFlags type) value)
      type flags.settings consumer where
  direction := (direction_configure ..).trans (direction_applyFlags (line.take consumer) flags type)
  settings := by
    rw [flags_configure]
    rfl
  marks := (line.bears_take consumer).configure _ _

theorem setUp_configured {handle : Handle} (hobeys : line.Obeys handle.flags)
    (hbears : line.Bears consumer) (flags : RequestFlags) (type : RequestType) (value : UInt8) :
    line.SetUp (line.configure (World.configFlags handle type flags) value) type flags.settings
      consumer where
  direction := (direction_configure ..).trans (direction_configFlags hobeys flags type)
  settings := by
    rw [flags_configure, World.configFlags]
    split <;> rfl
  marks := hbears.configure _ _

end SimLine

/-! ### The lines of a group -/

namespace World

variable {world before after : World (Traced Bench)} {index : Nat} {line : Line} {group : Group}
  {type : RequestType} {settings : Settings} {consumer : String}

/-- The line is held by a request for this consumer. -/
def HeldFor (world : World (Traced Bench)) (line : Line) (consumer : String) : Prop :=
  ∃ id handle, world.handle? line = some (id, handle) ∧
    consumerOf handle.device handle.file world.trace = some consumer

/-- What an operation that sets up lines leaves of one of them. -/
structure SetsUp (before after : World (Traced Bench)) (index : Nat) (line : Line)
    (type : RequestType) (settings : Settings) (consumer : String) : Prop where
  lines : ∃ was now, before.bench.line? index line.offset = some was ∧
    after.bench.line? index line.offset = some now ∧ was.SetUp now type settings consumer
  consistent : settings.Consistent
  held : after.HeldFor line consumer
  refreshed : before.Refreshed after index line

/-! ### Requests -/

section Requests

variable {config : RequestConfig} {defaults : Option (List UInt8)} {chip : Chip} {id : ChipId}

/-- To attach lines changes nothing but who serves them. -/
theorem attachAll_frame (kind : HandleKind) (pairs : List (Line × HandleId))
    (world : World (Traced Bench)) : (world.attachAll kind pairs).machine = world.machine ∧
      (world.attachAll kind pairs).board.device? = world.board.device? ∧
      ∀ line, ((world.attachAll kind pairs).record line).info = (world.record line).info := by
  induction pairs generalizing world with
  | nil => exact ⟨rfl, rfl, fun _ => rfl⟩
  | cons pair rest ih =>
      rw [attachAll_cons]
      obtain ⟨hmachine, hdevice, hinfo⟩ := ih (world.attach pair.1 pair.2 kind)
      refine ⟨hmachine, hdevice.trans (device?_modifyLine ..), fun line => (hinfo line).trans ?_⟩
      rw [attach, record_modifyLine]
      split
      · next hsame =>
        rw [hsame.1]
        rfl
      · rfl

/-- A line that was granted is served by its handle, and was asked for. -/
structure Placed (mid after : World (Traced Bench)) (index : Nat) (line : Line) (handle : Handle) :
    Prop where
  simulators : after.bench.simulators = mid.bench.simulators
  served : ∃ id, after.handle? line = some (id, handle)
  named : ∀ device file, consumerOf device file after.trace = consumerOf device file mid.trace
  refreshed : mid.Refreshed after index line

theorem placed_updateAll {mid : World (Traced Bench)} (kind : HandleKind)
    {pairs : List (Line × HandleId)} {key : HandleId} {handle : Handle} (notice : Notice)
    (hlines : pairs.map (·.1) = group.lines) (hnodup : group.lines.Nodup)
    (hreaches : ∀ line ∈ group.lines, mid.Reaches index line) (hpair : (line, key) ∈ pairs)
    (hget : mid.handles.get? key = some handle) :
    mid.Placed (((mid.attachAll kind pairs).note notice).updateAll group) index line handle := by
  obtain ⟨hmachine, hdevice, hinfo⟩ := attachAll_frame kind pairs mid
  have hattached := @attached_updateAll group mid kind _ notice hlines hnodup fun line hline =>
    (hreaches line hline).isOpen
  have hasked := Asked.updateAll ((mid.attachAll kind pairs).note notice) group
  have hmem : line ∈ group.lines := hlines ▸ List.mem_map_of_mem hpair
  refine ⟨hasked.simulators.trans (congrArg (·.machine.simulators) hmachine), ?_, ?_, ?_⟩
  · refine ⟨key, handle?_eq_some.mpr ⟨?_, by rw [hattached.handles, hget]⟩⟩
    refine (congrArg Slot.handle? (hattached.slot line key hpair)).trans ?_
    cases kind <;> rfl
  · intro device file
    rw [(hasked.silent device file).consumerOf]
    exact congrArg (consumerOf device file ·.trace) hmachine
  · exact refreshed_updateAll (closed?_attachAll kind pairs) hdevice hreaches (hinfo line) hmem

/-- **A request for values sets up its lines.** -/
theorem setsUp_values (hvalues : config.type.isEvent = false)
    (hdevice : ∀ line ∈ group.lines, world.board.device? line.chip = some (.simulator index))
    (hfresh : world.handles.Fresh) (h : world.request group config defaults = (.ok (), after))
    (hmem : line ∈ group.lines) :
    world.SetsUp after index line config.type config.flags.settings config.consumer := by
  obtain ⟨chip, id, file, mid, htakeable, hcount, hperform, rfl⟩ := request_values hvalues h
  have hlength : (linesRequest group config defaults).values.length =
      (linesRequest group config defaults).offsets.length :=
    (initialValues_bits hcount config).1.trans (List.length_map ..).symm
  have hindex : chip.device.simulator? = some index := by
    have hchip := (htakeable.toOnChip.device hmem).symm.trans (hdevice line hmem)
    rw [Option.some.inj hchip]
    rfl
  have hreaches := htakeable.toOnChip.reaches hdevice
  have hlines : (group.lines.map (·, mid.handles.next)).map (·.1) = group.lines := by
    rw [List.map_map]
    exact List.map_id _
  -- the chip sets up the line at its place of the request
  obtain ⟨bench, hbench, hmid⟩ := perform_bench hperform
  have hoffset : line.offset ∈ (linesRequest group config defaults).offsets :=
    List.mem_map_of_mem hmem
  obtain ⟨position, hposition⟩ := List.mem_iff_getElem?.mp hoffset
  have hlt : position < (linesRequest group config defaults).values.length :=
    hlength ▸ (List.getElem?_eq_some_iff.mp hposition).1
  obtain ⟨hrefuses, was, hwas, hnow⟩ := Bench.line?_requestLines hbench hindex hlength hposition
    (List.getElem?_eq_getElem hlt)
  -- the library attaches it to the new handle, and asks for it
  have hfound := openHandle_found (handles_of_perform hperform ▸ hfresh)
    (linesHandle chip.device file group config defaults)
  have hplaced := placed_updateAll .values (.requestedValues group.offsets config.consumer) hlines
    htakeable.nodup (fun line hline => (hreaches line hline).of_board (by rw [hmid]; rfl))
    (List.mem_map_of_mem hmem) hfound
  have hopened : (mid.openHandle (linesHandle chip.device file group config defaults)).bench =
      bench := by
    rw [hmid]
    rfl
  rw [← hopened, ← Bench.line?_eq_of_simulators_eq hplaced.simulators] at hnow
  refine ⟨⟨was, _, hwas, hnow, was.setUp_taken ..⟩, .of_accepted hrefuses, ?_, ?_⟩
  · obtain ⟨key, hserved⟩ := hplaced.served
    refine ⟨key, _, hserved, (hplaced.named _ _).trans ?_⟩
    rw [hmid]
    exact consumerOf_append_of_some (if_pos ⟨rfl, rfl⟩)
  · refine hplaced.refreshed.of_info ?_
    rw [hmid]
    rfl

/-- What a request for events that is granted has asked for, member by member. -/
theorem acquireEvents_calls {device : Device} {granted ids : List HandleId} {lines : List Line}
    (h : world.acquireEvents device config granted lines = ((none, ids), after)) :
    ∃ files : List FileId, files.length = lines.length ∧
      ids = granted ++ List.range' world.handles.next files.length ∧
      after.handles = world.handles.addAll (eventGrants device config lines files) ∧
      after.chips = world.chips ∧
      after.trace = world.trace ++ (lines.zip files).map fun entry =>
        .call device (.requestEvent (eventRequest config entry.1)) (.ok entry.2) := by
  induction lines generalizing world granted with
  | nil =>
      obtain ⟨hids, rfl⟩ := Prod.mk.inj h
      refine ⟨[], rfl, ?_, rfl, rfl, (List.append_nil _).symm⟩
      rw [List.length_nil, List.range'_zero, List.append_nil]
      exact (Prod.mk.inj hids).2.symm
  | cons line rest ih =>
      rcases hperform : world.perform device (.requestEvent (eventRequest config line))
        with ⟨error | file, mid⟩
      · rw [acquireEvents_refused hperform] at h
        cases (Prod.mk.inj (Prod.mk.inj h).1).1
      · rw [acquireEvents_granted hperform] at h
        obtain ⟨files, hlength, hids, hhandles, hchips, htrace⟩ := ih h
        obtain ⟨bench, -, rfl⟩ := perform_bench hperform
        refine ⟨file :: files, congrArg (· + 1) hlength, ?_, hhandles, hchips, ?_⟩
        · rw [hids, List.append_assoc]
          rfl
        · rw [htrace, List.zip_cons_cons, List.map_cons]
          exact List.append_assoc ..

/-- What was granted to a request for events tells of its consumer. -/
theorem consumerOf_granted (device : Device) {file : FileId} {trace : List Exchange}
    {granted : List (Line × FileId)} (hentry : (line, file) ∈ granted) :
    consumerOf device file (trace ++ granted.map fun entry =>
      .call device (.requestEvent (eventRequest config entry.1)) (.ok entry.2)) =
        some config.consumer := by
  generalize hmade : granted.map _ = made
  have hnamed : ∀ consumer ∈ made.filterMap (Exchange.consumer? device file),
      consumer = config.consumer := by
    intro consumer hconsumer
    obtain ⟨exchange, hexchange, hnames⟩ := List.mem_filterMap.mp hconsumer
    rw [← hmade] at hexchange
    obtain ⟨entry, -, rfl⟩ := List.mem_map.mp hexchange
    rw [Exchange.consumer?] at hnames
    split at hnames
    · exact (Option.some.inj hnames).symm
    · cases hnames
  have hthere : config.consumer ∈ made.filterMap (Exchange.consumer? device file) := by
    refine List.mem_filterMap.mpr ⟨_, hmade ▸ List.mem_map_of_mem hentry, ?_⟩
    exact if_pos ⟨rfl, rfl⟩
  obtain ⟨consumer, hlast⟩ := Option.ne_none_iff_exists'.mp
    (mt List.getLast?_eq_none_iff.mp (List.ne_nil_of_mem hthere))
  obtain rfl := hnamed consumer (List.mem_of_getLast? hlast)
  rw [consumerOf_append, consumerOf, hlast]
  rfl

/-- A request for events gives each of its lines a handle of its own. -/
theorem placed_events (hevents : config.type.isEvent = true)
    (hdevice : ∀ line ∈ group.lines, world.board.device? line.chip = some (.simulator index))
    (hfresh : world.handles.Fresh) (h : world.request group config defaults = (.ok (), after))
    (hmem : line ∈ group.lines) : ∃ id file,
      after.handle? line = some (id, eventGrant (.simulator index) config line file) ∧
      consumerOf (.simulator index) file after.trace = some config.consumer ∧
      world.Refreshed after index line := by
  obtain ⟨chip, id, granted, mid, -, htakeable, hacquire, rfl⟩ := request_events hevents h
  have hchip : chip.device = .simulator index :=
    Option.some.inj ((htakeable.toOnChip.device hmem).symm.trans (hdevice line hmem))
  have hreaches := htakeable.toOnChip.reaches hdevice
  rw [hchip] at hacquire
  obtain ⟨files, hlength, hids, hhandles, hchips, htrace⟩ := acquireEvents_calls hacquire
  obtain rfl : granted = List.range' world.handles.next files.length := hids
  -- the member has its handle and its file at one place of the request
  obtain ⟨place, hplace⟩ := List.mem_iff_getElem?.mp hmem
  have hlt : place < files.length := hlength ▸ (List.getElem?_eq_some_iff.mp hplace).1
  have hentry : (group.lines.zip files)[place]? = some (line, files[place]) :=
    List.getElem?_zip_eq_some.mpr ⟨hplace, List.getElem?_eq_getElem hlt⟩
  have hkey : (group.lines.zip (List.range' world.handles.next files.length))[place]? =
      some (line, world.handles.next + place) := by
    refine List.getElem?_zip_eq_some.mpr ⟨hplace, ?_⟩
    rw [List.getElem?_range' hlt, Nat.one_mul]
  have hget : mid.handles.get? (world.handles.next + place) =
      some (eventGrant (.simulator index) config line files[place]) := by
    rw [hhandles, Table.get?_addAll hfresh, if_neg (by omega), Nat.add_sub_cancel_left, eventGrants,
      List.getElem?_map, hentry]
    rfl
  have hplaced := placed_updateAll .events
    (.requestedEvents group.offsets config.type.edges config.consumer)
    (List.map_fst_zip (by rw [List.length_range', hlength])) htakeable.nodup
    (fun line hline => (hreaches line hline).of_board (board_of_chips_eq hchips))
    (List.mem_of_getElem? hkey) hget
  obtain ⟨key, hserved⟩ := hplaced.served
  refine ⟨key, files[place], hserved, (hplaced.named _ _).trans ?_, hplaced.refreshed.of_info ?_⟩
  · rw [htrace]
    exact consumerOf_granted _ (List.mem_of_getElem? hentry)
  · have hopen := (hreaches line hmem).of_board (board_of_chips_eq hchips)
    rw [hopen.info, (hreaches line hmem).info, record_of_chips_eq hchips]

theorem consistent_of_request (h : world.request group config defaults = (.ok (), after)) :
    config.flags.settings.Consistent := by
  unfold request at h
  split at h
  · cases (Prod.mk.inj h).1
  next hcheck =>
  rw [checkRequest, bind_eq_ok] at hcheck
  obtain ⟨_, -, hcheck⟩ := hcheck
  rw [bind_eq_ok] at hcheck
  obtain ⟨_, hvalidate, -⟩ := hcheck
  exact .of_validate hvalidate

end Requests

/-! ### Reconfigurations -/

theorem planConfig_flags {flags : RequestFlags} {values : Option (List UInt8)} {plan : ConfigPlan}
    (h : world.planConfig group type flags values = .ok plan) :
    plan.flags = configFlags plan.handle type flags := by
  rw [planConfig, bind_eq_ok] at h
  obtain ⟨-, -, h⟩ := h
  rw [bind_eq_ok] at h
  obtain ⟨⟨id, handle⟩, -, h⟩ := h
  simp only at h
  split at h
  · split at h
    · rw [bind_eq_ok] at h
      obtain ⟨ordered, -, h⟩ := h
      obtain rfl := Except.ok.inj h
      rfl
    · obtain rfl := Except.ok.inj h
      rfl
  · obtain rfl := Except.ok.inj h
    rfl

end World

/-- What a reconfiguration sets the lines of its group up as: the type of request that names their
direction, and their settings, given those that they have. -/
def GroupOperation.reconfigures? : GroupOperation → Option (RequestType × (Settings → Settings))
  | .setConfig type flags _ => some (type, fun _ => flags.settings)
  | .setFlags flags => some (.asIs, fun _ => flags.settings)
  | .setDirectionInput => some (.input, Settings.withoutDrive)
  | .setDirectionOutput _ => some (.output, id)
  | .request .. | .getValues | .setValues _ => none

namespace Workshop

variable {workshop : Workshop} {after : World (Traced Bench)} {index : Nat} {group : Group}
  {line : Line}

section Setups

variable (h : Reachable Unhogged workshop)
  (hdevice : ∀ line ∈ group.lines, workshop.world.board.device? line.chip = some (.simulator index))
  (hmem : line ∈ group.lines)

include h hdevice hmem

/-- A line that a handle serves is there as the handle says, with the marks of its consumer. -/
theorem Reachable.served {id : HandleId} {handle : Handle}
    (hcovers : workshop.world.Covers group id handle) :
    handle.device = .simulator index ∧ ∃ was consumer,
      workshop.world.bench.line? index line.offset = some was ∧ was.Obeys handle.flags ∧
      consumerOf handle.device handle.file workshop.world.trace = some consumer ∧
      was.Bears consumer := by
  have hsound := h.sound
  have hholds := (World.handle?_eq_some.mp (hcovers.serves line hmem)).1
  have hhome := (hsound.accord.home line id hholds).2 handle hcovers.found
  have hchip : handle.device = .simulator index :=
    Option.some.inj (hhome.symm.trans (hdevice line hmem))
  have hindex : handle.device.simulator? = some index := congrArg Device.simulator? hchip
  have hlisted := hcovers.listed hsound.client.desk.ledger line hmem
  obtain ⟨position, hposition⟩ := List.mem_iff_getElem?.mp hlisted
  have hagrees : workshop.world.Agrees False := h.agrees fun hfalse => hfalse.elim
  obtain ⟨was, hwas, hobeys, -⟩ :=
    hagrees id handle hcovers.found index hindex position line.offset hposition
  obtain ⟨consumer, hconsumer, hlines⟩ := h.labelled id handle hcovers.found index hindex
  obtain ⟨marked, hmarked, hbears⟩ := hlines line.offset hlisted
  obtain rfl := Option.mem_unique hwas hmarked
  exact ⟨hchip, was, consumer, hwas, hobeys, hconsumer, hbears⟩

/-- **A request for events sets up its lines.** -/
theorem Reachable.setsUp_events (hgroup : group.WellFormed) {config : RequestConfig}
    {defaults : Option (List UInt8)} (hevents : config.type.isEvent = true)
    (hrequest : workshop.world.request group config defaults = (.ok (), after)) :
    workshop.world.SetsUp after index line config.type config.flags.settings config.consumer := by
  have hsound := h.sound
  have hconsistent := World.consistent_of_request hrequest
  have hdeals : Deals False ⟨workshop.world, ∅⟩ ⟨after, ∅⟩ := by
    have hrun := @GroupOperation.deals _ _ _ hsound.client.desk (.request config defaults) group
      hgroup.size_le False
    rwa [GroupOperation.run, hrequest] at hrun
  have hlabelled : after.Labelled := hdeals.labelled hsound.accord h.labelled
  have hagrees : after.Agrees False :=
    hdeals.agrees hsound.accord (h.agrees fun hfalse => hfalse.elim)
  obtain ⟨id, file, hserved, hnamed, hrefreshed⟩ :=
    World.placed_events hevents hdevice hsound.accord.fresh hrequest hmem
  have hget := (World.handle?_eq_some.mp hserved).2
  -- the line is as its new handle says
  obtain ⟨now, hnow, hobeys, -⟩ := hagrees id _ hget index rfl 0 line.offset rfl
  obtain ⟨consumer, hconsumer, hlines⟩ := hlabelled id _ hget index rfl
  obtain ⟨line', hline', hbears⟩ := hlines line.offset (List.mem_singleton_self _)
  obtain rfl := Option.mem_unique hnow hline'
  obtain rfl := Option.some.inj (hconsumer.symm.trans hnamed)
  -- and it was there before
  have hlevel : after.bench.level? index line.offset =
      workshop.world.bench.level? index line.offset := by
    have htaken : workshop.world.Taken after index group config defaults :=
      World.taken_events hsound.accord hevents hrequest
    refine htaken.kept index line.offset fun htype => ?_
    rw [htype] at hevents
    cases hevents
  obtain ⟨was, hwas, -⟩ : ∃ was, workshop.world.bench.line? index line.offset = some was ∧
      was.level = now.level := by
    rw [Bench.level?, Bench.level?, hnow] at hlevel
    exact Option.map_eq_some_iff.mp hlevel.symm
  have hinput : (config.flags.handleFlags config.type).input = true := by
    generalize config.type = type at hevents
    cases type <;> first | rfl | cases hevents
  refine ⟨⟨was, now, hwas, hnow, ?_, hobeys.settings, hbears⟩, hconsistent, ⟨id, _, hserved, hnamed⟩,
    hrefreshed⟩
  rw [SimLine.direction, hobeys.input hinput]
  generalize config.type = type at hevents
  cases type <;> first | rfl | cases hevents

/-- **A reconfiguration sets up its lines**, which are still held for the same consumer. -/
theorem Reachable.setsUp_setConfig {type : RequestType} {flags : RequestFlags}
    {values : Option (List UInt8)}
    (hset : workshop.world.setConfig group type flags values = (.ok (), after)) :
    ∃ consumer, workshop.world.HeldFor line consumer ∧
      workshop.world.SetsUp after index line type flags.settings consumer := by
  have hsound := h.sound
  obtain ⟨plan, called, hplan, hperform, rfl⟩ := World.setConfig_eq_ok hset
  obtain ⟨hcovers, -, hvalues⟩ := World.planConfig_ok hplan
  obtain ⟨chip, chipId, honchip⟩ := World.onChip_of_planConfig hplan
  have hvalid := hsound.client.desk.ledger.valid plan.id plan.handle hcovers.found
  have hlength := (hvalues hvalid hcovers.kind).1
  obtain ⟨hchip, was, consumer, hwas, hobeys, hconsumer, hbears⟩ := h.served hdevice hmem hcovers
  have hindex : plan.handle.device.simulator? = some index := congrArg Device.simulator? hchip
  have hserved := hcovers.serves line hmem
  obtain ⟨bench, hbench, hcalled⟩ := World.perform_bench hperform
  have hreconfigured := @World.reconfigured _ _ group _ _ hbench hperform
  obtain ⟨found, position, value, -, -, hfound, -, hnow⟩ :=
    h.reconfigures hcovers hchip hreconfigured hbench hlength line hmem
  obtain rfl := Option.mem_unique hwas hfound
  have hflags := World.planConfig_flags hplan
  have hsetup : was.SetUp (was.configure plan.flags value) type flags.settings consumer := by
    rw [hflags]
    exact SimLine.setUp_configured hobeys hbears flags type value
  have hconsistent : flags.settings.Consistent := by
    obtain ⟨sim, given, changed, -, hanswered, -⟩ := Bench.answered_ok hbench hindex
    have haccepted := Simulator.setConfig_eq_ok (Simulator.settle_eq_ok.mp hanswered).2
    have hsettled := Settings.Consistent.of_accepted haccepted.1
    rw [hflags, World.configFlags] at hsettled
    split at hsettled <;> exact hsettled
  refine ⟨consumer, ⟨plan.id, plan.handle, hserved, hconsumer⟩, ⟨was, _, hwas, hnow, hsetup⟩,
    hconsistent, ?_, ?_⟩
  · have hafter := World.handle?_of_modify hreconfigured.board hreconfigured.handles hserved
    refine ⟨plan.id, _, hafter, ?_⟩
    have htold := (hreconfigured.told plan.handle.device plan.handle.file).consumerOf
    exact (htold.trans (consumerOf_append_call rfl)).trans hconsumer
  · rw [hcalled]
    exact World.refreshed_updateAll rfl rfl (honchip.reaches hdevice) rfl hmem

end Setups

/-! ### Every reconfiguration -/

section Reconfigurations

variable (h : Reachable Unhogged workshop)
  (hdevice : ∀ line ∈ group.lines, workshop.world.board.device? line.chip = some (.simulator index))
  (hmem : line ∈ group.lines)

include h hdevice hmem

/-- **Every reconfiguration sets up its lines.** -/
theorem Reachable.setsUp_reconfigured {operation : GroupOperation} {type : RequestType}
    {select : Settings → Settings} (hoperation : operation.reconfigures? = some (type, select))
    (hrun : operation.run group workshop.world = (.ok (), after)) :
    ∃ was consumer, workshop.world.bench.line? index line.offset = some was ∧
      workshop.world.HeldFor line consumer ∧
      workshop.world.SetsUp after index line type (select was.flags.settings) consumer := by
  cases operation with
  | request | getValues | setValues => cases hoperation
  | setConfig named flags values =>
      obtain ⟨rfl, rfl⟩ := Prod.mk.inj (Option.some.inj hoperation)
      obtain ⟨consumer, hheld, hsetsUp⟩ := h.setsUp_setConfig hdevice hmem hrun
      obtain ⟨was, -, hwas, -⟩ := hsetsUp.lines
      exact ⟨was, consumer, hwas, hheld, hsetsUp⟩
  | setFlags flags =>
      obtain ⟨rfl, rfl⟩ := Prod.mk.inj (Option.some.inj hoperation)
      change workshop.world.setFlags group flags = (.ok (), after) at hrun
      unfold World.setFlags at hrun
      split at hrun
      · cases (Prod.mk.inj hrun).1
      next id handle hvalues =>
      obtain ⟨-, was, -, hwas, hobeys, -⟩ :=
        h.served hdevice hmem (World.covers_of_valuesHandle hvalues).2
      obtain ⟨consumer, hheld, hsetsUp⟩ := h.setsUp_setConfig hdevice hmem hrun
      refine ⟨was, consumer, hwas, hheld, { hsetsUp with lines := ?_ }⟩
      obtain ⟨found, now, hfound, hnow, hsetup⟩ := hsetsUp.lines
      obtain rfl := Option.mem_unique hwas hfound
      have hdirection := hsetup.direction.trans hobeys.direction
      exact ⟨was, now, hwas, hnow, { hsetup with direction := hdirection }⟩
  | setDirectionInput =>
      obtain ⟨rfl, rfl⟩ := Prod.mk.inj (Option.some.inj hoperation)
      change workshop.world.setDirectionInput group = (.ok (), after) at hrun
      unfold World.setDirectionInput at hrun
      split at hrun
      · cases (Prod.mk.inj hrun).1
      next id handle hvalues =>
      obtain ⟨-, was, -, hwas, hobeys, -⟩ :=
        h.served hdevice hmem (World.covers_of_valuesHandle hvalues).2
      obtain ⟨consumer, hheld, hsetsUp⟩ := h.setsUp_setConfig hdevice hmem hrun
      exact ⟨was, consumer, hwas, hheld, hobeys.settings ▸ hsetsUp⟩
  | setDirectionOutput values =>
      obtain ⟨rfl, rfl⟩ := Prod.mk.inj (Option.some.inj hoperation)
      change workshop.world.setDirectionOutput group values = (.ok (), after) at hrun
      unfold World.setDirectionOutput at hrun
      split at hrun
      · cases (Prod.mk.inj hrun).1
      next id handle hchecked =>
      rw [bind_eq_ok] at hchecked
      obtain ⟨_, -, hvalues⟩ := hchecked
      obtain ⟨-, was, -, hwas, hobeys, -⟩ :=
        h.served hdevice hmem (World.covers_of_valuesHandle hvalues).2
      obtain ⟨consumer, hheld, hsetsUp⟩ := h.setsUp_setConfig hdevice hmem hrun
      exact ⟨was, consumer, hwas, hheld, hobeys.settings ▸ hsetsUp⟩

end Reconfigurations

end Workshop

end GpioLines
