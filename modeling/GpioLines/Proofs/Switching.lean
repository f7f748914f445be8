import GpioLines.Proofs.Coherence
import GpioLines.Proofs.Recollection

/-!
# Switching direction

The lines of a request can be turned into inputs and into outputs at any time, however they were
requested and reconfigured before. A handle has settings that its chip has accepted; an output can
have all of them, and an input all but the drive, so neither the library nor the chip refuses the
new direction. What the lines were last driven with is not lost on the way: it is driven again when
they are made outputs without naming any values.
-/

namespace GpioLines

namespace World

/-! ### Groups that cover a handle -/

section Groups

variable {σ : Type} {world : World σ} {group : Group} {id : HandleId} {handle : Handle}

/-- The lines of a handle are on one chip, which is open. -/
theorem Covers.chipOf (hcovers : world.Covers group id handle) (hgroup : group.WellFormed)
    (hsound : world.ledger.Sound) (hidle : world.ledger.Idle)
    (hhome : world.board.Homed world.handles) : ∃ chip, world.chipOf group = .ok chip := by
  have hnonempty : group.lines ≠ [] := by
    obtain ⟨offset, hoffset⟩ :=
      List.exists_mem_of_length_pos (hsound.valid id handle hcovers.found).pos
    have hmem : offset ∈ group.lines.map (·.offset) := hcovers.complete offset hoffset
    intro hnil
    rw [hnil] at hmem
    cases hmem
  have hopen : ∀ line ∈ group.lines, world.isOpen line.chip = true := by
    intro line hline
    have hholds := (handle?_eq_some.mp (hcovers.serves line hline)).1
    obtain ⟨chip, hchip, -⟩ := Option.map_eq_some_iff.mp ((hhome line id hholds).2 handle hcovers.found)
    have hclosed : world.ledger.closed? line.chip = some chip.closed :=
      Option.map_eq_some_iff.mpr ⟨chip, hchip, rfl⟩
    cases hmark : chip.closed with
    | false =>
        rw [hmark] at hclosed
        obtain ⟨found, hfound⟩ := closed?_eq_false.mp hclosed
        rw [isOpen, hfound]
        rfl
    | true =>
        rw [hmark] at hclosed
        rw [Ledger.Holds, hidle line hclosed] at hholds
        cases hholds
  obtain ⟨chip, key, honchip⟩ := onChip_of_isOpen hgroup hnonempty hopen
  exact ⟨chip, honchip.chipOf⟩

theorem Covers.valuesHandle (hcovers : world.Covers group id handle) {chip : Chip}
    (hchip : world.chipOf group = .ok chip) : world.valuesHandle group = .ok (id, handle) := by
  obtain ⟨leader, -, honchip⟩ := onChip_of_chipOf hchip
  obtain ⟨first, rest, hlines⟩ := List.exists_cons_of_ne_nil honchip.nonempty
  have hkinds : ¬ ((id, handle) :: rest.map fun _ => (id, handle)).any
      (fun held => held.2.kind != .values) = true := by
    simp [hcovers.kind]
  have hsame : ¬ (rest.map fun _ => (id, handle)).any (fun held => held.1 != id) = true := by
    simp
  have hpartial : ¬ handle.offsets.any (fun offset => !group.offsets.contains offset) = true := by
    simpa using hcovers.complete
  rw [World.valuesHandle, bind_eq_ok]
  refine ⟨_, handlesOf_of_served hchip hcovers.serves, ?_⟩
  rw [hlines, List.map_cons]
  simp only [if_neg hkinds, if_neg hsame, if_neg hpartial]

end Groups

/-! ### Reconfigurations that go through -/

section Plans

variable {σ : Type} [Machine σ] {world called : World σ} {group : Group} {type : RequestType}
  {flags : RequestFlags} {values : Option (List UInt8)} {plan : ConfigPlan}

theorem setConfig_of_accepted (hcheck : checkConfig group type flags values = .ok ())
    (hplan : world.planConfig group type flags values = .ok plan)
    (hperform : world.perform plan.handle.device
      (.setConfig plan.handle.file plan.flags plan.values) = (.ok (), called)) :
    world.setConfig group type flags values = (.ok (), ({ called with
        handles := called.handles.modify plan.id (·.configured plan.flags plan.values) }.note
      (.reconfigured plan.handle.offsets plan.flags)).updateAll group) := by
  simp only [setConfig, hcheck, hplan, commitConfig, hperform]

end Plans

/-- A chip took over a configuration, and since then was only asked. -/
structure Reconfigured (before after : World (Traced Bench)) (plan : ConfigPlan) (bench : Bench) :
    Prop where
  simulators : after.bench.simulators = bench.simulators
  board : after.board = before.board
  handles : after.handles = before.handles.modify plan.id (·.configured plan.flags plan.values)
  told : ∀ device file, Silent device file (before.trace ++ [.call plan.handle.device
    (.setConfig plan.handle.file plan.flags plan.values) (.ok ())]) after.trace

variable {world called after : World (Traced Bench)} {group : Group} {type : RequestType}
  {flags : RequestFlags} {values : Option (List UInt8)} {plan : ConfigPlan} {bench : Bench}

theorem Asked.silent (h : world.Asked after) (device : Device) (file : FileId) :
    Silent device file world.trace after.trace := by
  obtain ⟨asked, htrace, hasks⟩ := h.trace
  refine ⟨asked, htrace, fun exchange hmem => ?_⟩
  obtain ⟨party, call, outcome, hcall, rfl⟩ := hasks exchange hmem
  cases call with
  | chipInfo | lineInfo | getValues => exact not_false
  | _ => exact hcall.elim

theorem reconfigured (hbench : Bench.perform plan.handle.device
      (.setConfig plan.handle.file plan.flags plan.values) world.bench = (.ok (), bench))
    (hperform : world.perform plan.handle.device
      (.setConfig plan.handle.file plan.flags plan.values) = (.ok (), called)) :
    world.Reconfigured (({ called with
        handles := called.handles.modify plan.id (·.configured plan.flags plan.values) }.note
      (.reconfigured plan.handle.offsets plan.flags)).updateAll group) plan bench := by
  obtain ⟨found, hfound, rfl⟩ := perform_bench hperform
  obtain ⟨-, rfl⟩ := Prod.mk.inj (hbench.symm.trans hfound)
  generalize hsettled : World.note _ _ = settled
  have hasked := Asked.updateAll settled group
  subst hsettled
  exact ⟨hasked.simulators, hasked.board, hasked.handles, hasked.silent⟩

theorem setConfig_accepted (hcheck : checkConfig group type flags values = .ok ())
    (hplan : world.planConfig group type flags values = .ok plan)
    (hbench : Bench.perform plan.handle.device
      (.setConfig plan.handle.file plan.flags plan.values) world.bench = (.ok (), bench)) :
    ∃ after, world.setConfig group type flags values = (.ok (), after) ∧
      world.Reconfigured after plan bench := by
  rcases hperform : world.perform plan.handle.device
    (.setConfig plan.handle.file plan.flags plan.values) with ⟨outcome, called⟩
  obtain ⟨found, hfound, -⟩ := perform_bench hperform
  obtain ⟨rfl, -⟩ := Prod.mk.inj (hfound.symm.trans hbench)
  exact ⟨_, setConfig_of_accepted hcheck hplan hperform, reconfigured hbench hperform⟩

theorem settled_setConfig (h : world.setConfig group type flags values = (.ok (), after)) :
    ∃ plan bench, world.planConfig group type flags values = .ok plan ∧
      Bench.perform plan.handle.device
        (.setConfig plan.handle.file plan.flags plan.values) world.bench = (.ok (), bench) ∧
      world.Reconfigured after plan bench := by
  obtain ⟨plan, called, hplan, hperform, rfl⟩ := setConfig_eq_ok h
  obtain ⟨bench, hbench, -⟩ := perform_bench hperform
  exact ⟨plan, bench, hplan, hbench, reconfigured hbench hperform⟩

end World

/-! ### The chip -/

namespace Bench.Exclusive

variable {bench after : Bench} {index : Nat} {flags : HandleFlags} {values : List UInt8} {grant : Grant}

/-- A simulated chip takes over any flags that go together. -/
theorem exists_setConfig (h : bench.Exclusive) (hgrant : grant ∈ bench.grants index)
    (hedges : grant.edges = none) (haccepted : Simulator.refuses flags = false)
    (values : List UInt8) : ∃ after,
      Bench.perform (.simulator index) (.setConfig grant.file flags values) bench = (.ok (), after) := by
  obtain ⟨sim, hsim, hmem⟩ := mem_grants.mp hgrant
  have hfound : sim.valuesGrant grant.file = .ok grant := by
    simp [Simulator.valuesGrant, (h.simulators index sim hsim).grant?_eq hmem, hedges]
  refine ⟨_, Prod.ext ?_ rfl⟩
  rw [perform_simulator_fst hsim]
  simp only [Simulator.perform, Simulator.setConfig, haccepted, hfound, Bool.false_eq_true, if_false]
  rfl

/-- Lines that are not outputs keep their levels. -/
theorem level?_setConfig (h : bench.Exclusive) {device : Device}
    (hperform : Bench.perform device (.setConfig grant.file flags values) bench = (.ok (), after))
    (hindex : device.simulator? = some index) (hgrant : grant ∈ bench.grants index)
    (hlength : values.length = grant.offsets.length) (houtput : flags.output = false) :
    after.level? = bench.level? := by
  funext other offset
  by_cases hreached : other = index ∧ offset ∈ grant.offsets
  · obtain ⟨rfl, hmem⟩ := hreached
    obtain ⟨position, hoffset⟩ := List.mem_iff_getElem?.mp hmem
    have hlt : position < values.length := hlength ▸ (List.getElem?_eq_some_iff.mp hoffset).1
    obtain ⟨-, line, hline, hafter⟩ := h.line?_setConfig hperform hindex hgrant hlength hoffset
      (List.getElem?_eq_getElem hlt)
    rw [level?, level?, hline, hafter, Option.map_some, SimLine.level_configure, houtput]
    rfl
  · have hkept : after.line? other offset = bench.line? other offset := by
      refine h.line?_perform hperform fun hsame sim hsim _ _ _ hmem => hreached ?_
      obtain rfl := Option.some.inj (hsame.symm.trans hindex)
      rw [grants_of_eq hsim] at hgrant
      rw [Simulator.reach, (h.simulators other sim hsim).grant?_eq hgrant] at hmem
      exact ⟨rfl, hmem⟩
    rw [level?, level?, hkept]

end Bench.Exclusive

/-! ### The lines of a group -/

namespace World

variable {world after : World (Traced Bench)} {lent : List (Device × FileId)} {group : Group}
  {id : HandleId} {handle : Handle} {index : Nat} {plan : ConfigPlan} {bench : Bench}

/-- The chip accepts for a values handle whatever goes together. -/
theorem Accord.exists_setConfig (h : world.Accord lent) (hget : world.handles.get? id = some handle)
    (hkind : handle.kind = .values) (hdevice : handle.device = .simulator index)
    {flags : HandleFlags} (haccepted : Simulator.refuses flags = false) (values : List UInt8) :
    ∃ bench, Bench.perform handle.device (.setConfig handle.file flags values) world.bench =
      (.ok (), bench) := by
  have hindex : handle.device.simulator? = some index := by rw [hdevice]; rfl
  obtain ⟨grant, hgrant, hfile, -, hevents⟩ := h.lending.backed id handle hget index hindex
  have hedges : grant.edges = none := by
    rw [← Option.not_isSome_iff_eq_none, hevents, hkind]
    exact nofun
  rw [hdevice, ← hfile]
  exact h.bench.exists_setConfig hgrant hedges haccepted values

/-- What a reconfiguration does to a line of the handle. -/
theorem Reconfigured.line? (h : world.Reconfigured after plan bench) (haccord : world.Accord lent)
    (hget : world.handles.get? plan.id = some plan.handle)
    (hindex : plan.handle.device.simulator? = some index)
    (hperform : Bench.perform plan.handle.device
      (.setConfig plan.handle.file plan.flags plan.values) world.bench = (.ok (), bench))
    (hlength : plan.values.length = plan.handle.offsets.length) {position : Nat} {offset : Offset}
    (hoffset : plan.handle.offsets[position]? = some offset) :
    ∃ was value, world.bench.line? index offset = some was ∧ plan.values[position]? = some value ∧
      after.bench.line? index offset = some (was.configure plan.flags value) := by
  obtain ⟨grant, hgrant, hfile, hoffsets, -⟩ := haccord.lending.backed _ _ hget index hindex
  have hlt : position < plan.values.length := hlength ▸ (List.getElem?_eq_some_iff.mp hoffset).1
  have hvalue := List.getElem?_eq_getElem hlt
  obtain ⟨-, was, hwas, hafter⟩ := haccord.bench.line?_setConfig (hfile ▸ hperform) hindex hgrant
    (hoffsets ▸ hlength) (hoffsets ▸ hoffset) hvalue
  rw [Bench.line?_eq_of_simulators_eq h.simulators]
  exact ⟨was, _, hwas, hvalue, hafter⟩

/-- The lines of a group that a handle covers were turned into inputs. -/
structure TurnsInput (before after : World (Traced Bench)) (index : Nat) (group : Group)
    (handle : Handle) : Prop where
  /-- They have no drive, and are otherwise set up as before. -/
  lines : ∀ line ∈ group.lines, ∃ was now, before.bench.line? index line.offset = some was ∧
    after.bench.line? index line.offset = some now ∧ now.flags.output = false ∧
    now.flags.settings = was.flags.settings.withoutDrive
  levels : after.bench.level? = before.bench.level?
  recalled : lastDriven handle.device handle.file after.trace =
    lastDriven handle.device handle.file before.trace

/-- The lines of a group were turned into outputs with these values, in group order. -/
structure TurnsOutput (before after : World (Traced Bench)) (index : Nat) (group : Group)
    (handle : Handle) (values : List UInt8) : Prop where
  lines : ∀ line ∈ group.lines, ∃ was now value, before.bench.line? index line.offset = some was ∧
    after.bench.line? index line.offset = some now ∧ now.flags.output = true ∧
    now.flags.settings = was.flags.settings ∧ group.Gives values line.offset value ∧
    now.active = isActive value
  recalled : ∃ ordered, group.inRequestOrder handle values = .ok ordered ∧
    lastDriven handle.device handle.file after.trace = some ordered

end World

namespace Workshop

variable {rule : Workshop → Act → Prop} {workshop : Workshop} {group : Group} {id : HandleId}
  {handle : Handle} {index : Nat}

section Covered

variable (h : Reachable rule workshop) (hcovers : workshop.world.Covers group id handle)

include h hcovers

theorem Reachable.valuesHandle (hgroup : group.WellFormed) :
    ∃ chip, workshop.world.chipOf group = .ok chip ∧
      workshop.world.valuesHandle group = .ok (id, handle) := by
  have hsound := h.sound
  obtain ⟨chip, hchip⟩ := hcovers.chipOf hgroup hsound.client.desk.ledger hsound.client.idle
    hsound.accord.home
  exact ⟨chip, hchip, hcovers.valuesHandle hchip⟩

variable (hdevice : handle.device = .simulator index)

include hdevice

/-- What a reconfiguration does to the lines of a group that the handle covers. -/
theorem Reachable.reconfigures {after : World (Traced Bench)} {bench : Bench} {flags : HandleFlags}
    {values : List UInt8}
    (hset : workshop.world.Reconfigured after ⟨id, handle, flags, values⟩ bench)
    (hbench : Bench.perform handle.device (.setConfig handle.file flags values) workshop.world.bench =
      (.ok (), bench)) (hlength : values.length = handle.offsets.length) :
    ∀ line ∈ group.lines, ∃ (was : SimLine) (position : Nat) (value : UInt8),
      handle.offsets[position]? = some line.offset ∧ values[position]? = some value ∧
      workshop.world.bench.line? index line.offset = some was ∧
      was.flags.settings = handle.flags.settings ∧
      after.bench.line? index line.offset = some (was.configure flags value) := by
  intro line hline
  have hsound := h.sound
  have hindex : handle.device.simulator? = some index := by rw [hdevice]; rfl
  have hagrees : workshop.world.Agrees False := h.agrees fun hfalse => hfalse.elim
  have hmem : line.offset ∈ handle.offsets := hcovers.listed hsound.client.desk.ledger line hline
  obtain ⟨position, hposition⟩ := List.mem_iff_getElem?.mp hmem
  obtain ⟨was, value, hwas, hvalue, hafter⟩ := hset.line? hsound.accord hcovers.found hindex hbench
    hlength hposition
  obtain ⟨found, hfound, hobeys, -⟩ :=
    hagrees id handle hcovers.found index hindex position line.offset hposition
  obtain rfl := Option.mem_unique hwas hfound
  exact ⟨was, position, value, hposition, hvalue, hwas, hobeys.settings, hafter⟩

/-- The chip has accepted the settings of the handle. -/
theorem Reachable.consistent : handle.flags.settings.Consistent := by
  apply h.told Handle.tale_settled id handle hcovers.found
  · rw [hdevice]
    exact Option.some_ne_none index
  · exact hcovers.kind

variable (hgroup : group.WellFormed)

include hgroup

/-- **The lines can be turned into inputs.** -/
theorem Reachable.turnsInput : ∃ after,
    workshop.world.setDirectionInput group = (.ok (), after) ∧
      workshop.world.TurnsInput after index group handle := by
  have hsound := h.sound
  have hindex : handle.device.simulator? = some index := by rw [hdevice]; rfl
  have hlength : handle.values.length = handle.offsets.length :=
    (hsound.client.desk.ledger.valid id handle hcovers.found).values_length hcovers.kind
  obtain ⟨chip, hchip, hvalues⟩ := h.valuesHandle hcovers hgroup
  have hsettled := h.consistent hcovers hdevice
  let flags : RequestFlags := { settings := handle.flags.settings.withoutDrive }
  have hcheck : World.checkConfig group .input flags none = .ok () := by
    rw [World.checkConfig, hsettled.withoutDrive.validate]
    rfl
  have hplan : workshop.world.planConfig group .input flags none =
      .ok ⟨id, handle, flags.handleFlags .input, handle.values⟩ := by
    rw [World.planConfig, hchip, hvalues]
    rfl
  obtain ⟨bench, hbench⟩ := hsound.accord.exists_setConfig hcovers.found hcovers.kind hdevice
    hsettled.accepted_input handle.values
  obtain ⟨after, hset, hreconfigured⟩ := World.setConfig_accepted hcheck hplan hbench
  refine ⟨after, by rw [World.setDirectionInput, hvalues]; exact hset, fun line hline => ?_, ?_, ?_⟩
  · obtain ⟨was, position, value, -, -, hwas, hsame, hnow⟩ :=
      h.reconfigures hcovers hdevice hreconfigured hbench hlength line hline
    refine ⟨was, _, hwas, hnow, ?_, ?_⟩ <;> rw [SimLine.flags_configure]
    · exact Bool.and_false _
    · rw [hsame]
      rfl
  · obtain ⟨grant, hgrant, hfile, hoffsets, -⟩ :=
      hsound.accord.lending.backed id handle hcovers.found index hindex
    rw [Bench.level?_of_simulators_eq hreconfigured.simulators]
    exact hsound.accord.bench.level?_setConfig (hfile ▸ hbench) hindex hgrant (hoffsets ▸ hlength) rfl
  · rw [(hreconfigured.told _ _).lastDriven, lastDriven_append, Exchange.drive]
    exact if_neg fun hdriven => Bool.false_ne_true hdriven.2.2

/-- **The lines can be turned into outputs**, with any values. -/
theorem Reachable.turnsOutput {values : List UInt8} (hvalues : values.length = group.size) :
    ∃ after, workshop.world.setDirectionOutput group values = (.ok (), after) ∧
      workshop.world.TurnsOutput after index group handle values := by
  have hsound := h.sound
  have hindex : handle.device.simulator? = some index := by rw [hdevice]; rfl
  obtain ⟨chip, hchip, hserved⟩ := h.valuesHandle hcovers hgroup
  obtain ⟨ordered, hordered⟩ :=
    World.inRequestOrder_of_covers hsound.client.desk.ledger hcovers values
  have hlength : ordered.length = handle.offsets.length := (World.inRequestOrder_ok hordered).1
  have hsettled := h.consistent hcovers hdevice
  have hcount : group.checkCount values = .ok () := if_pos hvalues
  have hcheck : World.checkConfig group .output handle.flags.requestFlags (some values) = .ok () := by
    rw [World.checkConfig, HandleFlags.requestFlags, hsettled.validate]
    exact hcount
  have hplan : workshop.world.planConfig group .output handle.flags.requestFlags (some values) =
      .ok ⟨id, handle, handle.flags.requestFlags.handleFlags .output, ordered⟩ := by
    rw [World.planConfig, hchip, hserved]
    change (group.inRequestOrder handle values >>= fun laid => .ok _) = _
    rw [hordered]
    rfl
  obtain ⟨bench, hbench⟩ := hsound.accord.exists_setConfig hcovers.found hcovers.kind hdevice
    hsettled.accepted_output ordered
  obtain ⟨after, hset, hreconfigured⟩ := World.setConfig_accepted hcheck hplan hbench
  refine ⟨after, ?_, fun line hline => ?_, ordered, hordered, ?_⟩
  · rw [World.setDirectionOutput, hcount, hserved]
    exact hset
  · obtain ⟨was, position, value, hposition, hvalue, hwas, hsame, hnow⟩ :=
      h.reconfigures hcovers hdevice hreconfigured hbench hlength line hline
    obtain ⟨given, hgives⟩ := Group.exists_gives hvalues (List.mem_map_of_mem hline)
    have hnodup := (hsound.client.desk.ledger.valid id handle hcovers.found).nodup
    have hlaid := hgives.inRequestOrder hnodup hordered hposition
    obtain rfl := Option.some.inj (hvalue.symm.trans hlaid)
    refine ⟨was, _, given, hwas, hnow, ?_, ?_, hgives, ?_⟩
    · rw [SimLine.flags_configure]
      rfl
    · rw [SimLine.flags_configure, hsame]
      rfl
    · rw [SimLine.active_configure _ rfl, isActive_normalize]
  · rw [(hreconfigured.told _ _).lastDriven, lastDriven_append, Exchange.drive]
    exact if_pos ⟨rfl, rfl, rfl⟩

end Covered

/-! ### Driven again -/

/-- Whoever makes the lines of a handle outputs without naming any values drives these, in the order of
the request. -/
def DrivesAgain (workshop : Workshop) (id : HandleId) (handle : Handle) (index : Nat)
    (values : List UInt8) : Prop :=
  ∀ group held flags after, workshop.world.Covers group id held →
    workshop.world.setConfig group .output flags none = (.ok (), after) →
    ∀ (position : Nat) (offset : Offset) (value : UInt8), handle.offsets[position]? = some offset →
      values[position]? = some value → ∃ now, after.bench.line? index offset = some now ∧
        now.flags.output = true ∧ now.active = isActive value

theorem Reachable.drivesAgain (h : Reachable rule workshop)
    (hindex : handle.device.simulator? = some index)
    (hsame : ∀ held, workshop.world.handles.get? id = some held → held.SameGrant handle)
    {values : List UInt8} (hlast : lastDriven handle.device handle.file workshop.world.trace = some values) :
    workshop.DrivesAgain id handle index values := by
  intro group held flags after hcovers hset position offset value hoffset hvalue
  have hsound := h.sound
  obtain ⟨-, hdevice, hfile, hoffsets⟩ := hsame held hcovers.found
  have hheld : held.device.simulator? = some index := hdevice ▸ hindex
  -- the handle has the values that were last driven
  have hrecalls : held.values = values := by
    apply h.told Handle.tale_recalls id held hcovers.found (by rw [hheld]; nofun) hcovers.kind
    rwa [hdevice, hfile]
  obtain ⟨plan, bench, hplan, hbench, hreconfigured⟩ := World.settled_setConfig hset
  obtain rfl : plan = ⟨id, held, flags.handleFlags .output, held.values⟩ := by
    rw [World.planConfig, bind_eq_ok] at hplan
    obtain ⟨chip, hchip, hplan⟩ := hplan
    rw [hcovers.valuesHandle hchip] at hplan
    exact (Except.ok.inj hplan).symm
  have hlength : held.values.length = held.offsets.length :=
    (hsound.client.desk.ledger.valid id held hcovers.found).values_length hcovers.kind
  obtain ⟨was, found, -, hfound, hafter⟩ := hreconfigured.line? hsound.accord hcovers.found hheld
    hbench hlength (hoffsets ▸ hoffset)
  obtain rfl : found = value := by
    rw [hrecalls, hvalue] at hfound
    exact (Option.some.inj hfound).symm
  refine ⟨_, hafter, ?_, SimLine.active_configure _ rfl _⟩
  rw [SimLine.flags_configure]
  rfl

/-- The lines of a group are made inputs. -/
def toInput (group : Group) : Act := .operation (.onGroup .setDirectionInput group)

/-- What can be done with the direction of a group that a values handle covers. -/
structure Switches (workshop : Workshop) (group : Group) (id : HandleId) (handle : Handle)
    (index : Nat) : Prop where
  input : ∃ after, workshop.world.setDirectionInput group = (.ok (), after) ∧
    workshop.world.TurnsInput after index group handle
  output : ∀ values, values.length = group.size → ∃ after,
    workshop.world.setDirectionOutput group values = (.ok (), after) ∧
      workshop.world.TurnsOutput after index group handle values
  /-- What was last driven before the lines became inputs is not forgotten, whatever is done then but
  to drive them. -/
  again : ∀ script values, workshop.Can (toInput group) →
    (workshop.act (toInput group)).CanActAll Unruled script →
    lastDriven handle.device handle.file workshop.world.trace = some values →
    lastDriven handle.device handle.file ((workshop.act (toInput group)).actAll script).world.trace =
      lastDriven handle.device handle.file (workshop.act (toInput group)).world.trace →
    ((workshop.act (toInput group)).actAll script).DrivesAgain id handle index values

/-- **A change of direction always works and keeps the other settings**, in every state that a
workshop can come to. -/
theorem direction_switches (h : Reachable Unruled workshop)
    (hcovers : workshop.world.Covers group id handle) (hgroup : group.WellFormed)
    (hdevice : handle.device = .simulator index) : workshop.Switches group id handle index where
  input := h.turnsInput hcovers hdevice hgroup
  output := fun _ => h.turnsOutput hcovers hdevice hgroup
  again := by
    intro script values hcan hscript hlast hkept
    have hindex : handle.device.simulator? = some index := by rw [hdevice]; rfl
    have hturned := h.act hcan trivial
    have hlt := Table.get?_lt h.sound.accord.fresh hcovers.found
    obtain ⟨after, hset, hturns⟩ := h.turnsInput hcovers hdevice hgroup
    have hworld : (workshop.act (toInput group)).world = after := by
      change (workshop.world.setDirectionInput group).2 = after
      rw [hset]
    refine (hturned.actAll hscript).drivesAgain hindex (fun held hget => ?_) ?_
    · obtain ⟨hstill, hold⟩ := sameGrant_act h.sound hcan hlt
      obtain ⟨mid, hmid, hheld⟩ := sameGrant_actAll hturned.sound hscript hstill hget
      obtain ⟨old, hfound, hsame⟩ := hold mid hmid
      obtain rfl := Option.mem_unique hcovers.found hfound
      exact hheld.trans hsame
    · rw [hkept, hworld, hturns.recalled, hlast]

/-- Two active-low outputs that can only pull their lines down, driven twice. -/
def openDrained : List Act :=
  let settings : Settings := { activeLow := true, openDrain := true, biasPullUp := true }
  let outputs : RequestConfig := { consumer := "outputs", type := .output, flags := { settings } }
  let both : Group := ⟨[⟨0, 2⟩, ⟨0, 0⟩]⟩
  [.deed (.addSimulator "gpiochip0" 3), .operation (.openChip (.simulator 0)),
    .operation (.getLines 0 [2, 0]), .operation (.onGroup (.request outputs (some [1, 1])) both),
    .operation (.gather [⟨0, 0⟩, ⟨0, 2⟩]), .operation (.onGroup (.setValues [7, 0]) ⟨[⟨0, 0⟩, ⟨0, 2⟩]⟩)]

/-- The values of the second write outlast a level from outside and other settings of the inputs. -/
theorem switches_openDrained : ∃ (workshop : Workshop) (handle : Handle),
    Reachable Unruled workshop ∧ workshop.world.Covers ⟨[⟨0, 2⟩, ⟨0, 0⟩]⟩ 0 handle ∧
    workshop.Switches ⟨[⟨0, 2⟩, ⟨0, 0⟩]⟩ 0 handle 0 ∧
    ((workshop.act (toInput ⟨[⟨0, 2⟩, ⟨0, 0⟩]⟩)).actAll [.deed (.setLevel 0 2 1),
      .operation (.onGroup (.setFlags {}) ⟨[⟨0, 2⟩, ⟨0, 0⟩]⟩)]).DrivesAgain 0 handle 0 [0, 1] := by
  let group : Group := ⟨[⟨0, 2⟩, ⟨0, 0⟩]⟩
  let workshop := ({} : Workshop).actAll openDrained
  have hreachable : Reachable Unruled workshop := Reachable.start.actAll (by decide)
  let handle : Handle :=
    { kind := .values, device := .simulator 0, file := 0, offsets := [2, 0], values := [0, 1]
      flags := { output := true,
                 settings := { activeLow := true, openDrain := true, biasPullUp := true } } }
  have hserved : (workshop.world.valuesHandle group).toOption = some (0, handle) := by decide
  have hcovers : workshop.world.Covers group 0 handle :=
    (World.covers_of_valuesHandle (eq_ok_of_mem_toOption (Option.mem_toList.mpr hserved))).2
  have hswitches := direction_switches hreachable hcovers ⟨by decide, by decide⟩ rfl
  exact ⟨workshop, handle, hreachable, hcovers, hswitches,
    hswitches.again _ _ (by decide) (by decide) (by decide) (by decide)⟩

end Workshop

end GpioLines
