import GpioLines.Proofs.Agreement
import GpioLines.Proofs.ReadBack

/-!
# Driven values under new flags

After a write through a handle its lines are outputs with the values written, and they stay so until
somebody writes to them, reconfigures them or sets their levels. New flags can turn their polarity.
An output is then driven once more, so that what counts is the value and the level follows the
polarity. Where the handle was requested without a direction, the device is not told that the lines
are outputs: it drives nothing, the level stays and the value that is read follows the polarity.
-/

namespace GpioLines

/-! ### A line under new flags -/

theorem ofActive_xor (active turned : Bool) :
    ofActive (active ^^ turned) = ofActive active ↔ turned = false := by
  cases active <;> cases turned <;> decide

namespace SimLine

/-- The line takes over the settings. If it is driven once more it keeps its value, else its level. -/
structure Resets (driven : Bool) (settings : Settings) (line changed : SimLine) : Prop where
  takesOver : changed.flags.settings = settings
  direction : changed.flags.output = line.flags.output
  level : changed.level = (line.level ^^ (driven && (line.activeLow ^^ settings.activeLow)))
  active : changed.active = (line.active ^^ (!driven && (line.activeLow ^^ settings.activeLow)))

theorem level_configure (line : SimLine) (flags : HandleFlags) (value : UInt8) :
    (line.configure flags value).level =
      if flags.output then isActive value ^^ flags.settings.activeLow else line.level := by
  simp only [configure]
  split <;> rfl

/-- An output is configured with the value that it has, and not as an input. -/
theorem resets_configure {line : SimLine} (houtput : line.flags.output = true) (flags : HandleFlags)
    (hinput : flags.input = false) :
    line.Resets flags.output flags.settings (line.configure flags (ofActive line.active)) := by
  have hflags := flags_configure line flags (ofActive line.active)
  have hlevel := level_configure line flags (ofActive line.active)
  generalize line.configure flags (ofActive line.active) = changed at hflags hlevel
  have hsettings : changed.flags.settings = flags.settings := congrArg InfoFlags.settings hflags
  rw [isActive_ofActive, active] at hlevel
  refine ⟨hsettings, by simp [hflags, applyFlags, houtput, hinput], ?_, ?_⟩
  · rw [hlevel]
    cases flags.output <;> simp
  · rw [active, active, activeLow, hlevel, hsettings]
    cases flags.output <;> cases line.level <;> cases line.activeLow <;> simp

end SimLine

/-! ### The lines of a handle -/

namespace Bench

variable {bench after : Bench} {handle : Handle}

/-- The lines of a handle are outputs, with the values that it remembers. -/
def Shows (bench : Bench) (handle : Handle) : Prop :=
  ∀ index, handle.device.simulator? = some index →
    ∀ (position : Nat) (offset : Offset), handle.offsets[position]? = some offset →
      ∃ line, bench.line? index offset = some line ∧ line.flags.output = true ∧
        handle.values[position]? = some (ofActive line.active)

namespace Shows

theorem of_line? (h : bench.Shows handle)
    (hline : ∀ index, handle.device.simulator? = some index → ∀ offset ∈ handle.offsets,
      after.line? index offset = bench.line? index offset) : after.Shows handle := by
  intro index hindex position offset hoffset
  rw [hline index hindex offset (List.mem_of_getElem? hoffset)]
  exact h index hindex position offset hoffset

theorem driven (hbench : bench.Exclusive) (hbacked : bench.Backs handle) {values : List UInt8}
    (hlength : values.length = handle.offsets.length) (hbits : ∀ value ∈ values, IsBit value)
    (hperform : perform handle.device (.setValues handle.file values) bench = (.ok (), after)) :
    after.Shows (handle.driven values) := by
  intro index hindex position offset hoffset
  obtain ⟨value, hvalue, hbit⟩ := exists_bit hlength hbits hoffset
  obtain ⟨grant, hgrant, hfile, hoffsets, -⟩ := hbacked index hindex
  obtain ⟨line, -, houtput, hafter⟩ := hbench.line?_setValues (hfile ▸ hperform) hindex hgrant
    (hoffsets ▸ hoffset) hvalue
  refine ⟨_, hafter, houtput, ?_⟩
  rw [SimLine.active_drive, hbit]
  exact hvalue

theorem perform (h : bench.Shows handle) (hbench : bench.Exclusive) (hbacked : bench.Backs handle)
    {device : Device} {call : Call} {outcome : Outcome call}
    (hperform : Bench.perform device call bench = (outcome, after))
    (hother : ∀ index, handle.device.simulator? = some index → device.simulator? = some index →
      call.file? ≠ some handle.file) : after.Shows handle := by
  refine h.of_line? fun index hindex offset hmem => ?_
  obtain ⟨grant, hgrant, hfile, hoffsets, -⟩ := hbacked index hindex
  refine hbench.line?_perform_of_grant hperform hgrant (fun hsame => ?_) (hoffsets ▸ hmem)
  rw [hfile]
  exact hother index hindex hsame

theorem releaseAt (h : bench.Shows handle) (hbench : bench.Exclusive) (hbacked : bench.Backs handle)
    {device : Device} {file : FileId}
    (hother : ∀ index, handle.device.simulator? = some index → device.simulator? = some index →
      handle.file ≠ file) : (Bench.releaseAt device file bench).Shows handle := by
  refine h.of_line? fun index hindex offset hmem => ?_
  obtain ⟨grant, hgrant, hfile, hoffsets, -⟩ := hbacked index hindex
  refine hbench.line?_releaseAt_of_grant hgrant (fun hsame => ?_) (hoffsets ▸ hmem)
  rw [hfile]
  exact hother index hindex hsame

theorem beside (h : bench.Shows handle) {driven : Nat → Offset → Prop}
    (hbeside : bench.Beside driven after)
    (hdriven : ∀ index, handle.device.simulator? = some index → ∀ offset ∈ handle.offsets,
      ¬ driven index offset) : after.Shows handle := by
  intro index hindex position offset hoffset
  obtain ⟨line, hline, houtput, hvalue⟩ := h index hindex position offset hoffset
  obtain ⟨changed, hchanged, halike, hsame⟩ := hbeside.line? hline
  have hlevel := hsame.resolve_left (hdriven index hindex offset (List.mem_of_getElem? hoffset))
  refine ⟨changed, hchanged, halike.output.trans houtput, ?_⟩
  rwa [SimLine.active_eq halike hlevel]

end Shows

end Bench

/-! ### Nothing written -/

/-- The exchange writes to the lines of a handle, or reconfigures them. -/
def Exchange.Writes (handle : Handle) : Exchange → Prop
  | .call device (.setValues file _) (.ok _) => device = handle.device ∧ file = handle.file
  | .call device (.setConfig file _ _) (.ok _) => device = handle.device ∧ file = handle.file
  | _ => False

instance (handle : Handle) : (exchange : Exchange) → Decidable (exchange.Writes handle)
  | .call device (.setValues file _) (.ok _) =>
    inferInstanceAs (Decidable (device = handle.device ∧ file = handle.file))
  | .call device (.setConfig file _ _) (.ok _) =>
    inferInstanceAs (Decidable (device = handle.device ∧ file = handle.file))
  | .call _ (.setValues ..) (.error _) | .call _ (.setConfig ..) (.error _)
  | .call _ .chipInfo _ | .call _ (.lineInfo _) _ | .call _ (.requestLines _) _
  | .call _ (.requestEvent _) _ | .call _ (.getValues ..) _ | .release .. => instDecidableFalse

/-- Nothing that was added to a trace writes to the lines of the handle. -/
def Unwritten (handle : Handle) (trace later : List Exchange) : Prop :=
  ∀ exchange ∈ later.drop trace.length, ¬ exchange.Writes handle

instance (handle : Handle) (trace later : List Exchange) :
    Decidable (Unwritten handle trace later) :=
  inferInstanceAs (Decidable (∀ exchange ∈ _, _))

namespace Unwritten

variable {handle : Handle} {trace between later : List Exchange}

theorem left (h : Unwritten handle trace later) (hlater : between <+: later) :
    Unwritten handle trace between := by
  intro exchange hmem
  obtain ⟨rest, rfl⟩ := hlater
  refine h exchange ?_
  rw [List.drop_append]
  exact List.mem_append_left _ hmem

theorem right (h : Unwritten handle trace later) (hfirst : trace <+: between) :
    Unwritten handle between later := by
  intro exchange hmem
  refine h exchange ?_
  rw [← Nat.add_sub_cancel' hfirst.length_le, ← List.drop_drop] at hmem
  exact List.mem_of_mem_drop hmem

theorem not_writes {exchange : Exchange} (h : Unwritten handle trace (trace ++ [exchange])) :
    ¬ exchange.Writes handle :=
  h exchange (by simp)

end Unwritten

variable {adds : Prop} {before after : Docket (Traced Bench)} {lent : List (Device × FileId)}

theorem World.grows_of_perform {world after : World (Traced Bench)} {device : Device} {call : Call}
    {outcome : Outcome call} (h : world.perform device call = (outcome, after)) :
    world.handles.next ≤ after.handles.next ∧ world.trace <+: after.trace := by
  obtain ⟨bench, -, rfl⟩ := perform_bench h
  exact ⟨le_rfl, List.prefix_append _ _⟩

/-- Handles are numbered in ascending order, and no exchange is forgotten. -/
theorem Deal.grows (h : Deal adds before after) :
    before.world.handles.next ≤ after.world.handles.next ∧
      before.world.trace <+: after.world.trace := by
  cases h with
  | pass hkeeps =>
      rw [hkeeps.handles, World.trace, World.trace, hkeeps.machine]
      exact ⟨le_rfl, List.prefix_rfl⟩
  | openChip | read | watch | unwatch | attach => exact ⟨le_rfl, List.prefix_rfl⟩
  | ask _ _ told | learn _ told | doubt _ told | drive _ _ _ told | configure _ _ _ _ told =>
      have hgrows := World.grows_of_perform told
      exact ⟨hgrows.1, hgrows.2⟩
  | take _ _ granted | listen _ granted =>
      have hgrows := World.grows_of_perform granted
      exact ⟨hgrows.1.trans (Nat.le_succ _), hgrows.2⟩
  | close hfound =>
      rw [World.closeHandle_eq hfound]
      exact ⟨le_rfl, List.prefix_append _ _⟩

theorem Deals.grows (h : Deals adds before after) :
    before.world.handles.next ≤ after.world.handles.next ∧
      before.world.trace <+: after.world.trace := by
  induction h with
  | refl => exact ⟨le_rfl, List.prefix_rfl⟩
  | tail _ hdeal ih => exact ⟨ih.1.trans hdeal.grows.1, ih.2.trans hdeal.grows.2⟩

/-! ### Deal by deal -/

namespace World

/-- As long as the handle is open, it is as given, and its lines show the values. -/
structure Shows (world : World (Traced Bench)) (id : HandleId) (handle : Handle) : Prop where
  lt : id < world.handles.next
  found : ∀ found, world.handles.get? id = some found → found = handle
  lines : world.handles.get? id = some handle → world.bench.Shows handle

namespace Shows

variable {world after : World (Traced Bench)} {id : HandleId} {handle : Handle}

theorem of_simulators (h : world.Shows id handle)
    (hsimulators : after.bench.simulators = world.bench.simulators)
    (hhandles : after.handles = world.handles) : after.Shows id handle := by
  refine ⟨hhandles ▸ h.lt, hhandles ▸ h.found, fun hget => ?_⟩
  rw [hhandles] at hget
  exact (h.lines hget).of_line? fun index _ offset _ =>
    congrFun (congrFun (Bench.line?_eq_of_simulators_eq hsimulators) index) offset

/-- A call through the file of another handle, or through none. -/
theorem others (h : world.Shows id handle) (haccord : world.Accord lent) {device : Device}
    {call : Call} {outcome : Outcome call}
    (hperform : world.perform device call = (outcome, after))
    (hother : ∀ index, handle.device.simulator? = some index → device.simulator? = some index →
      world.handles.get? id = some handle → call.file? ≠ some handle.file) :
    after.Shows id handle := by
  have hhandles := handles_of_perform hperform
  obtain ⟨bench, hbench, rfl⟩ := perform_bench hperform
  refine ⟨h.lt, h.found, fun hget => ?_⟩
  exact (h.lines hget).perform haccord.bench (haccord.lending.backed id handle hget) hbench
    fun index hindex hsame => hother index hindex hsame hget

theorem ask (h : world.Shows id handle) {device : Device} {call : Call} {outcome : Outcome call}
    (hperform : world.perform device call = (outcome, after))
    (hasks : call.Asks ∨ ∃ error, outcome = .error error) : after.Shows id handle := by
  obtain ⟨bench, hbench, rfl⟩ := perform_bench hperform
  exact h.of_simulators (Bench.simulators_asked hbench hasks) rfl

theorem add (h : world.Shows id handle) (haccord : world.Accord lent) {device : Device}
    {call : Call} (hfile : call.file? = none) {outcome : Outcome call}
    (hperform : world.perform device call = (outcome, after)) (opened : Handle) :
    (after.openHandle opened).Shows id handle := by
  have hshows : after.Shows id handle := h.others haccord hperform fun _ _ _ _ hsome => by
    rw [hfile] at hsome
    cases hsome
  have hhandles := handles_of_perform hperform
  have hget : (after.handles.add opened).get? id = after.handles.get? id := by
    rw [hhandles, Table.get?_add haccord.fresh, if_neg h.lt.ne]
  refine ⟨hshows.lt.trans (Nat.lt_succ_self _), fun found hfound => ?_, fun hfound => ?_⟩
  · exact hshows.found found (hget ▸ hfound)
  · exact hshows.lines (hget ▸ hfound)

/-- A write or a reconfiguration through a handle is one of another handle, or one of this. -/
theorem modify (h : world.Shows id handle) (haccord : world.Accord lent) {key : HandleId}
    {found : Handle} (hfound : world.handles.get? key = some found) {call : Call}
    (hfile : call.file? = some found.file) {outcome : Outcome call}
    (hperform : world.perform found.device call = (outcome, after))
    (hwrites : ∀ handle : Handle, found.device = handle.device → found.file = handle.file →
      (Exchange.call found.device call outcome).Writes handle)
    (hunwritten : Unwritten handle world.trace after.trace) (f : Handle → Handle) :
    { after with handles := after.handles.modify key f }.Shows id handle := by
  have hother : key = id → world.handles.get? id = none := by
    rintro rfl
    obtain rfl := h.found found hfound
    obtain ⟨bench, -, rfl⟩ := perform_bench hperform
    exact absurd (hwrites found rfl rfl) hunwritten.not_writes
  have hshows : after.Shows id handle := by
    refine h.others haccord hperform fun index hindex hsame hget hfiles => ?_
    have hkey : key = id := haccord.lending.distinct key id found handle index hfound hget hsame
      hindex (Option.some.inj (hfile.symm.trans hfiles))
    rw [hother hkey] at hget
    cases hget
  have hget : (after.handles.modify key f).get? id = after.handles.get? id := by
    rw [handles_of_perform hperform, Table.get?_modify]
    split
    · next heq => rw [hother heq.symm, Option.map_none]
    · rfl
  exact ⟨hshows.lt, fun other hother => hshows.found other (hget ▸ hother), fun hsome =>
    hshows.lines (hget ▸ hsome)⟩

theorem close (h : world.Shows id handle) (haccord : world.Accord lent) {key : HandleId}
    {found : Handle} (hfound : world.handles.get? key = some found) :
    (world.closeHandle key).Shows id handle := by
  rw [closeHandle_eq hfound]
  have hget : ∀ other, (world.handles.erase key).get? id = some other →
      key ≠ id ∧ world.handles.get? id = some other := by
    intro other hother
    rw [Table.get?_erase] at hother
    split at hother
    · cases hother
    · next hne => exact ⟨Ne.symm hne, hother⟩
  refine ⟨h.lt, fun other hother => h.found other (hget other hother).2, fun hsome => ?_⟩
  obtain ⟨hne, hold⟩ := hget handle hsome
  refine (h.lines hold).releaseAt haccord.bench (haccord.lending.backed id handle hold)
    fun index hindex hsame hfile => hne ?_
  exact haccord.lending.distinct key id found handle index hfound hold hsame hindex hfile.symm

end Shows

end World

variable {id : HandleId} {handle : Handle}

theorem Deal.shows (hdeal : Deal adds before after) (haccord : before.world.Accord lent)
    (h : before.world.Shows id handle)
    (hunwritten : Unwritten handle before.world.trace after.world.trace) :
    after.world.Shows id handle := by
  cases hdeal with
  | pass hkeeps =>
      refine h.of_simulators ?_ hkeeps.handles
      rw [World.bench, hkeeps.machine]
  | openChip | unwatch | attach => exact h.of_simulators rfl rfl
  | @read world _ file size =>
      exact h.of_simulators (world.bench.filesOnly_read file size).simulators rfl
  | @watch world _ file => exact h.of_simulators (world.bench.filesOnly_watch file).simulators rfl
  | ask hquiet _ htold => exact h.ask htold hquiet.asks
  | learn _ htold | doubt _ htold => exact (h.ask htold (Or.inl trivial)).of_simulators rfl rfl
  | take _ _ hgranted | listen _ hgranted => exact h.add haccord rfl hgranted _
  | drive hfound _ _ hdriven =>
      exact h.modify haccord hfound rfl hdriven (fun _ hdevice hfile => ⟨hdevice, hfile⟩)
        hunwritten _
  | configure _ hcovers _ _ hconfigured =>
      exact h.modify haccord hcovers.found rfl hconfigured
        (fun _ hdevice hfile => ⟨hdevice, hfile⟩) hunwritten _
  | close hfound => exact h.close haccord hfound

theorem Deals.shows (hdeals : Deals adds before after) (haccord : before.world.Accord lent)
    (h : before.world.Shows id handle)
    (hunwritten : Unwritten handle before.world.trace after.world.trace) :
    after.world.Shows id handle := by
  induction hdeals with
  | refl => exact h
  | tail hdeals hdeal ih =>
      have hearlier := ih (hunwritten.left hdeal.grows.2)
      exact hdeal.shows (Deals.accord hdeals haccord) hearlier
        (hunwritten.right (Deals.grows hdeals).2)

theorem World.shows_of_write {world after : World (Traced Bench)} (haccord : world.Accord lent)
    {group : Group} {values ordered : List UInt8}
    (hplan : world.planValues group values = .ok (id, handle, ordered))
    (hset : world.setValues group values = (.ok (), after)) :
    after.Shows id (handle.driven ordered) := by
  obtain ⟨found, settled, laid, called, hsettled, hperform, rfl⟩ := setValues_eq_ok hset
  obtain ⟨rfl, rfl, rfl⟩ : id = found ∧ handle = settled ∧ ordered = laid := by
    simpa [hplan] using hsettled
  obtain ⟨hcovers, hlength, hbits⟩ := planValues_ok hplan
  obtain ⟨bench, hbench, rfl⟩ := perform_bench hperform
  refine ⟨Table.get?_lt haccord.fresh hcovers.found, fun other hother => ?_, fun _ => ?_⟩
  · change (world.handles.modify id _).get? id = some other at hother
    rw [Table.get?_modify, if_pos rfl, hcovers.found] at hother
    exact (Option.some.inj hother).symm
  · exact .driven haccord.bench (haccord.lending.backed _ _ hcovers.found) hlength hbits hbench

/-! ### Act by act -/

namespace Workshop

variable {workshop after : Workshop}

theorem Worked.shows {driven : Nat → Offset → Prop} (hworked : Worked driven workshop after)
    (hsound : workshop.Sound) (h : workshop.world.Shows id handle)
    (hdriven : ∀ index, handle.device.simulator? = some index → ∀ offset ∈ handle.offsets,
      ¬ driven index offset) : after.world.Shows id handle := by
  have hlending := hsound.accord.lending
  cases hworked with
  | beside client lent hbeside =>
      rw [world, client]
      exact ⟨h.lt, h.found, fun hget => (h.lines hget).beside hbeside hdriven⟩
  | @call device call own done =>
      rcases hperform : workshop.world.perform device call with ⟨outcome, last⟩
      have hafter : after.world = last := by rw [done, Workshop.call, hperform]; rfl
      rw [hafter]
      refine h.others hsound.accord hperform fun index hindex hsame hget hfile => ?_
      exact hlending.apart id handle hget _ (own handle.file hfile) index hindex hsame rfl
  | @release device file own done =>
      rw [done]
      refine ⟨h.lt, h.found, fun hget => ?_⟩
      refine (h.lines hget).releaseAt hsound.accord.bench (hlending.backed id handle hget)
        fun index hindex hsame hfile => ?_
      exact hlending.apart id handle hget _ own index hindex hsame hfile.symm

/-- The lines whose levels an act sets. -/
def Drives : Act → Nat → Offset → Prop
  | .operation _ => fun _ _ => False
  | .deed deed => deed.Drives

/-- The act sets no level of the lines of a handle, and neither writes to them nor reconfigures
them. -/
structure Leaves (workshop : Workshop) (handle : Handle) (act : Act) : Prop where
  levels : ∀ index, handle.device.simulator? = some index → ∀ offset ∈ handle.offsets,
    ¬ Drives act index offset
  unwritten : Unwritten handle workshop.world.trace (workshop.act act).world.trace

theorem shows_act (hsound : workshop.Sound) {act : Act} (hcan : workshop.Can act)
    (h : workshop.world.Shows id handle) (hleaves : workshop.Leaves handle act) :
    (workshop.act act).world.Shows id handle := by
  cases act with
  | operation operation =>
      have hgroups : ∀ group ∈ operation.groups, group.WellFormed := fun group hgroup =>
        hsound.client.groups group (hcan.1 group hgroup)
      exact (operation.deals hsound.client.desk hgroups).shows hsound.accord h hleaves.unwritten
  | deed deed => exact (worked_work hcan).shows hsound h hleaves.levels

/-- Values were written through a handle, which then remembers them, and since then nothing was
written through it and nothing else was done to its lines. -/
inductive Driven (id : HandleId) : Handle → Workshop → Prop
  | write {workshop : Workshop} {group : Group} {values ordered : List UInt8} {handle : Handle}
      (before : Reachable Unruled workshop)
      (can : workshop.Can (.operation (.onGroup (.setValues values) group)))
      (plan : workshop.world.planValues group values = .ok (id, handle, ordered))
      (done : (workshop.world.setValues group values).1 = .ok ()) :
      Driven id (handle.driven ordered)
        (workshop.act (.operation (.onGroup (.setValues values) group)))
  | act {workshop : Workshop} {handle : Handle} {act : Act} (before : Driven id handle workshop)
      (can : workshop.Can act) (leaves : workshop.Leaves handle act) :
      Driven id handle (workshop.act act)

namespace Driven

theorem reachable (h : Driven id handle workshop) : Reachable Unruled workshop := by
  induction h with
  | write before can => exact .act before can trivial
  | act _ can _ ih => exact .act ih can trivial

theorem shows (h : Driven id handle workshop) : workshop.world.Shows id handle := by
  induction h with
  | write before can plan done =>
      exact World.shows_of_write before.sound.accord plan (Prod.ext done rfl)
  | act before can leaves ih => exact shows_act before.reachable.sound can ih leaves

end Driven

end Workshop

/-! ### A change of flags -/

namespace World

section Plans

variable {σ : Type} [Machine σ] {world after : World σ} {group : Group}

/-- The new flags keep the direction that the handle was asked for, if any. -/
theorem configFlags_direction (handle : Handle) (flags : RequestFlags) :
    configFlags handle handle.flags.direction flags =
      { input := handle.flags.input && !handle.flags.output
        output := handle.flags.output
        settings := flags.settings } := by
  cases houtput : handle.flags.output <;> cases hinput : handle.flags.input <;>
    simp [configFlags, HandleFlags.direction, RequestFlags.handleFlags, houtput, hinput]

/-- A reconfiguration that goes through is one call, after which the handle is as it was told and the
members are looked at. -/
theorem setConfig_eq_ok {type : RequestType} {flags : RequestFlags} {values : Option (List UInt8)}
    (h : world.setConfig group type flags values = (.ok (), after)) :
    ∃ plan called, world.planConfig group type flags values = .ok plan ∧
      world.perform plan.handle.device (.setConfig plan.handle.file plan.flags plan.values) =
        (.ok (), called) ∧
      after = ({ called with
          handles := called.handles.modify plan.id (·.configured plan.flags plan.values) }.note
        (.reconfigured plan.handle.offsets plan.flags)).updateAll group := by
  unfold setConfig at h
  split at h
  · cases (Prod.mk.inj h).1
  split at h
  · cases (Prod.mk.inj h).1
  next plan hplan =>
  unfold commitConfig at h
  split at h
  · cases (Prod.mk.inj h).1
  next hcommit =>
  split at hcommit
  · cases (Prod.mk.inj hcommit).1
  next called hperform =>
  obtain ⟨-, rfl⟩ := Prod.mk.inj hcommit
  exact ⟨plan, called, hplan, hperform, (Prod.mk.inj h).2.symm⟩

theorem setFlags_eq_ok {flags : RequestFlags} (h : world.setFlags group flags = (.ok (), after)) :
    ∃ id handle called, world.valuesHandle group = .ok (id, handle) ∧
      world.perform handle.device (.setConfig handle.file
        (configFlags handle handle.flags.direction flags) handle.values) = (.ok (), called) ∧
      after = ({ called with
          handles := called.handles.modify id
            (·.configured (configFlags handle handle.flags.direction flags) handle.values) }.note
        (.reconfigured handle.offsets
          (configFlags handle handle.flags.direction flags))).updateAll group := by
  unfold setFlags at h
  split at h
  · cases (Prod.mk.inj h).1
  next id handle hhandle =>
  obtain ⟨plan, called, hplan, hperform, rfl⟩ := setConfig_eq_ok h
  obtain ⟨chip, hchip⟩ := (covers_of_valuesHandle hhandle).1
  obtain rfl : plan = ⟨id, handle, configFlags handle handle.flags.direction flags, handle.values⟩ := by
    rw [planConfig, hchip, hhandle] at hplan
    exact (Except.ok.inj hplan).symm
  exact ⟨id, handle, called, hhandle, hperform, rfl⟩

end Plans

variable {world after : World (Traced Bench)} {group : Group}

/-- Nothing was done but ask devices. -/
structure Asked (before after : World (Traced Bench)) : Prop where
  simulators : after.bench.simulators = before.bench.simulators
  handles : after.handles = before.handles
  streams : after.streams = before.streams
  board : after.board = before.board
  trace : ∃ asked, after.trace = before.trace ++ asked ∧ ∀ exchange ∈ asked,
    ∃ device call outcome, Call.Asks call ∧ exchange = .call device call outcome

namespace Asked

variable {mid : World (Traced Bench)}

theorem of_eq (hmachine : after.machine = world.machine) (hhandles : after.handles = world.handles)
    (hstreams : after.streams = world.streams) (hboard : after.board = world.board) :
    world.Asked after where
  simulators := by rw [World.bench, hmachine]
  handles := hhandles
  streams := hstreams
  board := hboard
  trace := ⟨[], by rw [World.trace, hmachine, List.append_nil], fun _ h => absurd h List.not_mem_nil⟩

theorem trans (h : world.Asked mid) (hlater : mid.Asked after) : world.Asked after where
  simulators := hlater.simulators.trans h.simulators
  handles := hlater.handles.trans h.handles
  streams := hlater.streams.trans h.streams
  board := hlater.board.trans h.board
  trace := by
    obtain ⟨first, hfirst, hasks⟩ := h.trace
    obtain ⟨second, hsecond, hmore⟩ := hlater.trace
    refine ⟨first ++ second, by rw [hsecond, hfirst, List.append_assoc], fun exchange hmem => ?_⟩
    exact (List.mem_append.mp hmem).elim (hasks exchange) (hmore exchange)

theorem perform {device : Device} {call : Call} {outcome : Outcome call}
    (h : world.perform device call = (outcome, after)) (hasks : call.Asks) : world.Asked after := by
  obtain ⟨bench, hbench, rfl⟩ := perform_bench h
  refine ⟨Bench.simulators_asked hbench (Or.inl hasks), rfl, rfl, rfl, _, rfl, fun exchange hmem => ?_⟩
  exact ⟨device, call, outcome, hasks, List.mem_singleton.mp hmem⟩

theorem note (world : World (Traced Bench)) (notice : Notice) : world.Asked (world.note notice) :=
  .of_eq rfl rfl rfl (board_note ..)

theorem modifyLine (world : World (Traced Bench)) (line : Line) {f : LineRecord → LineRecord}
    (hf : ∀ record, (f record).slot = record.slot) : world.Asked (world.modifyLine line f) :=
  .of_eq rfl rfl rfl (board_modifyLine world line hf)

theorem refresh (world : World (Traced Bench)) (line : Line) :
    world.Asked (world.refresh line).2 := by
  unfold World.refresh
  split
  · exact .of_eq rfl rfl rfl (board_of_chips_eq rfl)
  · split <;> next hperform =>
      exact (perform hperform trivial).trans (modifyLine _ line fun _ => rfl)

theorem update (world : World (Traced Bench)) (line : Line) : world.Asked (world.update line) := by
  have hrefresh := refresh world line
  unfold World.update
  split
  · next h => rwa [h] at hrefresh
  · next h =>
    rw [h] at hrefresh
    exact hrefresh.trans (note ..)

theorem updateAll (world : World (Traced Bench)) (group : Group) :
    world.Asked (world.updateAll group) := by
  unfold World.updateAll
  generalize group.lines = lines
  induction lines generalizing world with
  | nil => exact .of_eq rfl rfl rfl rfl
  | cons line rest ih => exact (update world line).trans (ih (world.update line))

end Asked

/-- Of a change of flags the chips see one call, and the library keeps it in mind. -/
theorem settled_setFlags {flags : RequestFlags}
    (h : world.setFlags group flags = (.ok (), after)) : ∃ id handle bench,
      world.valuesHandle group = .ok (id, handle) ∧
      Bench.perform handle.device (.setConfig handle.file
        (configFlags handle handle.flags.direction flags) handle.values) world.bench =
          (.ok (), bench) ∧
      after.bench.simulators = bench.simulators ∧ after.board = world.board ∧
      after.handles = world.handles.modify id
        (·.configured (configFlags handle handle.flags.direction flags) handle.values) := by
  obtain ⟨id, handle, called, hhandle, hperform, rfl⟩ := setFlags_eq_ok h
  obtain ⟨bench, hbench, rfl⟩ := perform_bench hperform
  exact ⟨id, handle, bench, hhandle, hbench, (Asked.updateAll _ group).simulators,
    (Asked.updateAll _ group).board, (Asked.updateAll _ group).handles⟩

theorem handle?_of_modify {id : HandleId} {f : Handle → Handle} (hboard : after.board = world.board)
    (hhandles : after.handles = world.handles.modify id f) {line : Line} {handle : Handle}
    (h : world.handle? line = some (id, handle)) : after.handle? line = some (id, f handle) := by
  have hslot : after.slot = world.slot := congrArg Board.slot hboard
  obtain ⟨hholds, hget⟩ := handle?_eq_some.mp h
  refine handle?_eq_some.mpr ⟨?_, ?_⟩
  · change (after.slot line).handle? = some id
    rw [hslot]
    exact hholds
  · rw [hhandles, Table.get?_modify, if_pos rfl, hget, Option.map_some]

theorem chipOf_of_board (hboard : after.board = world.board) {chip : Chip}
    (h : world.chipOf group = .ok chip) : ∃ reopened, after.chipOf group = .ok reopened := by
  obtain ⟨first, -, honchip⟩ := onChip_of_chipOf h
  have hclosed : world.board.closed? first.chip = some false :=
    closed?_eq_false.mpr ⟨chip, honchip.isOpen⟩
  rw [← hboard] at hclosed
  obtain ⟨reopened, hopen⟩ := closed?_eq_false.mp hclosed
  exact ⟨reopened, OnChip.chipOf ⟨hopen, honchip.nonempty, honchip.members⟩⟩

theorem accord_setFlags (hsound : Desk.Sound ⟨world, 0⟩) (haccord : world.Accord lent)
    {flags : RequestFlags} (h : world.setFlags group flags = (.ok (), after)) : after.Accord lent := by
  have hdeals : Deals False ⟨world, ∅⟩ ⟨(world.setFlags group flags).2, ∅⟩ :=
    deals_setFlags hsound group flags
  rw [h] at hdeals
  exact Deals.accord hdeals haccord

theorem Covers.listed {id : HandleId} {handle : Handle} (h : world.Covers group id handle)
    (hsound : world.ledger.Sound) : ∀ line ∈ group.lines, line.offset ∈ handle.offsets := by
  intro line hline
  have hholds := (handle?_eq_some.mp (h.serves line hline)).1
  obtain ⟨found, hfound, -, hoffset⟩ := hsound.slot_open line id hholds
  obtain rfl := Option.mem_unique h.found hfound
  exact hoffset

/-- What the lines of a group are read as, if one request to a simulated chip serves them all. -/
theorem getValues_of_lines {chip : Chip} {id : HandleId} {handle : Handle}
    (hchip : world.chipOf group = .ok chip)
    (hserved : ∀ line ∈ group.lines, world.handle? line = some (id, handle))
    (hlisted : ∀ line ∈ group.lines, line.offset ∈ handle.offsets)
    (hbench : world.bench.Exclusive) (hbacked : world.bench.Backs handle) {index : Nat}
    (hdevice : handle.device = .simulator index) :
    (world.getValues group).1 = .ok (group.lines.map fun line =>
      ofActive ((world.bench.line? index line.offset).elim false SimLine.active)) := by
  obtain ⟨first, -, honchip⟩ := onChip_of_chipOf hchip
  obtain ⟨grant, hgrant, hfile, hoffsets, -⟩ := hbacked index (by rw [hdevice]; rfl)
  obtain ⟨sim, hsim, hlent⟩ := Bench.mem_grants.mp hgrant
  have hfound : sim.grant? handle.file = some grant :=
    hfile ▸ (hbench.simulators index sim hsim).grant?_eq hlent
  obtain ⟨last, hread⟩ := getValues_of_served hchip honchip.nonempty hserved hlisted hdevice hsim
    hfound hoffsets
  rw [hread]
  simp only [Simulator.value, Bench.line?_of_eq hsim]

/-- So it is after the handle was configured anew. -/
theorem getValues_of_modify {lent : List (Device × FileId)} (haccord : after.Accord lent)
    {chip : Chip} {id : HandleId} {handle : Handle} (hchip : world.chipOf group = .ok chip)
    (hserved : ∀ line ∈ group.lines, world.handle? line = some (id, handle))
    (hlisted : ∀ line ∈ group.lines, line.offset ∈ handle.offsets)
    (hboard : after.board = world.board) {flags : HandleFlags} {values : List UInt8}
    (hhandles : after.handles = world.handles.modify id (·.configured flags values)) {index : Nat}
    (hdevice : handle.device = .simulator index) :
    (after.getValues group).1 = .ok (group.lines.map fun line =>
      ofActive ((after.bench.line? index line.offset).elim false SimLine.active)) := by
  obtain ⟨reopened, hreopened⟩ := chipOf_of_board hboard hchip
  have hserves := fun line hmem => handle?_of_modify hboard hhandles (hserved line hmem)
  obtain ⟨leader, -, honchip⟩ := onChip_of_chipOf hchip
  obtain ⟨first, hfirst⟩ := List.exists_mem_of_ne_nil _ honchip.nonempty
  exact getValues_of_lines hreopened hserves hlisted haccord.bench
    (haccord.lending.backed id _ (handle?_eq_some.mp (hserves first hfirst)).2) hdevice

/-- What new settings do to the lines of a handle and to what is read of a group. The values that are
read stay exactly if the lines are driven once more or their polarity is not turned. -/
structure Reflags (before after : World (Traced Bench)) (index : Nat) (group : Group)
    (handle : Handle) (settings : Settings) : Prop where
  lines : ∀ offset ∈ handle.offsets, ∃ line changed,
    before.bench.line? index offset = some line ∧ after.bench.line? index offset = some changed ∧
      line.Resets handle.flags.output settings changed
  read : ∃ values, (before.getValues group).1 = .ok values ∧
    (after.getValues group).1 = .ok (values.map fun value => ofActive (isActive value ^^
      (!handle.flags.output && (handle.flags.settings.activeLow ^^ settings.activeLow))))
  kept : (after.getValues group).1 = (before.getValues group).1 ↔
    handle.flags.output = true ∨ settings.activeLow = handle.flags.settings.activeLow

end World

namespace Workshop.Driven

variable {id : HandleId} {handle : Handle} {workshop : Workshop} {group : Group}
  {flags : RequestFlags} {index : Nat}

/-- New flags configure every line of the handle with the value that it shows. -/
theorem resets (h : Driven id handle workshop) (hcovers : workshop.world.Covers group id handle)
    (hindex : handle.device.simulator? = some index) {bench : Bench}
    (hperform : Bench.perform handle.device (.setConfig handle.file
      (World.configFlags handle handle.flags.direction flags) handle.values) workshop.world.bench =
        (.ok (), bench)) {offset : Offset} (hmem : offset ∈ handle.offsets) :
    ∃ line changed, workshop.world.bench.line? index offset = some line ∧
      bench.line? index offset = some changed ∧
      line.Resets handle.flags.output flags.settings changed ∧
      line.activeLow = handle.flags.settings.activeLow := by
  have hsound := h.reachable.sound
  have hvalid := hsound.client.desk.ledger.valid id handle hcovers.found
  have hagrees : workshop.world.Agrees False := h.reachable.agrees fun hfalse => hfalse.elim
  obtain ⟨grant, hgrant, hfile, hoffsets, -⟩ :=
    hsound.accord.lending.backed id handle hcovers.found index hindex
  obtain ⟨position, hoffset⟩ := List.mem_iff_getElem?.mp hmem
  obtain ⟨line, hline, houtput, hvalue⟩ :=
    h.shows.lines hcovers.found index hindex position offset hoffset
  obtain ⟨found, hfound, hobeys, -⟩ :=
    hagrees id handle hcovers.found index hindex position offset hoffset
  obtain rfl := Option.mem_unique hline hfound
  obtain ⟨-, asked, hasked, hafter⟩ := hsound.accord.bench.line?_setConfig (hfile ▸ hperform) hindex
    hgrant (hoffsets ▸ hvalid.values_length hcovers.kind) (hoffsets ▸ hoffset) hvalue
  obtain rfl := Option.mem_unique hline hasked
  -- an input would contradict the write
  have hinput : handle.flags.input = false := by
    by_contra hinput
    rw [hobeys.input (Bool.eq_true_of_not_eq_false hinput)] at houtput
    cases houtput
  rw [World.configFlags_direction, hinput, Bool.false_and] at hafter
  refine ⟨line, _, hline, hafter, ?_, by rw [SimLine.activeLow, hobeys.settings]⟩
  exact SimLine.resets_configure houtput
    { output := handle.flags.output, settings := flags.settings } rfl

/-- **New flags keep the direction of driven lines**, and of value and level the one that the
polarity leaves alone: the value of lines that are driven once more, the level of the others. -/
theorem reflags (h : Driven id handle workshop) {settled : Handle}
    (hgroup : workshop.world.valuesHandle group = .ok (id, settled)) {after : World (Traced Bench)}
    (hset : workshop.world.setFlags group flags = (.ok (), after))
    (hdevice : handle.device = .simulator index) :
    workshop.world.Reflags after index group handle flags.settings := by
  have hsound := h.reachable.sound
  have hindex : handle.device.simulator? = some index := by rw [hdevice]; rfl
  obtain ⟨⟨chip, hchip⟩, hcovers⟩ := World.covers_of_valuesHandle hgroup
  obtain rfl := h.shows.found settled hcovers.found
  obtain ⟨found, used, bench, hused, hbench, hsimulators, hboard, hhandles⟩ :=
    World.settled_setFlags hset
  obtain ⟨rfl, rfl⟩ : id = found ∧ settled = used := by simpa [hgroup] using hused
  have hresets : ∀ offset ∈ settled.offsets, ∃ line changed,
      workshop.world.bench.line? index offset = some line ∧
      after.bench.line? index offset = some changed ∧
      line.Resets settled.flags.output flags.settings changed ∧
      line.activeLow = settled.flags.settings.activeLow := by
    rw [Bench.line?_eq_of_simulators_eq hsimulators]
    exact fun offset hmem => h.resets hcovers hindex hbench hmem
  have hlisted := hcovers.listed hsound.client.desk.ledger
  have haccord := World.accord_setFlags hsound.client.desk hsound.accord hset
  -- the group is read before and after
  have hread := World.getValues_of_lines hchip hcovers.serves hlisted hsound.accord.bench
    (hsound.accord.lending.backed id settled hcovers.found) hdevice
  have hreread := World.getValues_of_modify haccord hchip hcovers.serves hlisted hboard hhandles
    hdevice
  obtain ⟨leader, -, honchip⟩ := World.onChip_of_chipOf hchip
  obtain ⟨first, hfirst⟩ := List.exists_mem_of_ne_nil _ honchip.nonempty
  have hturned : ∀ line ∈ group.lines,
      ofActive ((after.bench.line? index line.offset).elim false SimLine.active) =
        ofActive (((workshop.world.bench.line? index line.offset).elim false SimLine.active) ^^
          (!settled.flags.output &&
            (settled.flags.settings.activeLow ^^ flags.settings.activeLow))) := by
    intro line hmem
    obtain ⟨old, changed, hold, hchanged, hresets, hlow⟩ := hresets line.offset (hlisted line hmem)
    rw [hold, hchanged, Option.elim_some, Option.elim_some, hresets.active, hlow]
  refine ⟨fun offset hmem => ?_, ⟨_, hread, ?_⟩, ?_⟩
  · obtain ⟨line, changed, hline, hchanged, hresets, -⟩ := hresets offset hmem
    exact ⟨line, changed, hline, hchanged, hresets⟩
  · rw [hreread, List.map_map]
    refine congrArg Except.ok (List.map_congr_left fun line hmem => ?_)
    rw [hturned line hmem, Function.comp, isActive_ofActive]
  · have hsame : ∀ line ∈ group.lines,
        ofActive ((after.bench.line? index line.offset).elim false SimLine.active) =
          ofActive ((workshop.world.bench.line? index line.offset).elim false SimLine.active) ↔
        settled.flags.output = true ∨
          flags.settings.activeLow = settled.flags.settings.activeLow := by
      intro line hmem
      rw [hturned line hmem, ofActive_xor]
      cases settled.flags.output <;> cases settled.flags.settings.activeLow <;> simp
    rw [hread, hreread, Except.ok.injEq, List.map_inj_left]
    exact ⟨fun hall => (hsame first hfirst).mp (hall first hfirst),
      fun hkept line hmem => (hsame line hmem).mpr hkept⟩

/-- Two outputs of three lines. -/
def twoOutputs : List Act :=
  let outputs : RequestConfig := { consumer := "outputs", type := .output }
  [.deed (.addSimulator "gpiochip0" 3), .operation (.openChip (.simulator 0)),
    .operation (.getLines 0 [1, 0]), .operation (.getLine 0 2),
    .operation (.onGroup (.request outputs none) ⟨[⟨0, 1⟩, ⟨0, 0⟩]⟩)]

/-- One of them is driven high, then the third line is set from outside and requested. -/
theorem reflags_twoOutputs : ∃ (workshop : Workshop) (handle : Handle) (after : World (Traced Bench)),
    Driven 0 handle workshop ∧ handle.flags.output = true ∧
    (workshop.world.getValues ⟨[⟨0, 1⟩, ⟨0, 0⟩]⟩).1.toOption = some [1, 0] ∧
    workshop.world.setFlags ⟨[⟨0, 1⟩, ⟨0, 0⟩]⟩ { settings := { activeLow := true } } =
      (.ok (), after) ∧
    workshop.world.Reflags after 0 ⟨[⟨0, 1⟩, ⟨0, 0⟩]⟩ handle { activeLow := true } := by
  let handle : Handle :=
    { kind := .values, device := .simulator 0, file := 0, offsets := [1, 0]
      flags := { output := true }, values := [0, 0] }
  let events : RequestConfig := { consumer := "events", type := .eventBoth }
  have hstart : Reachable Unruled (({} : Workshop).actAll twoOutputs) :=
    Reachable.start.actAll (by decide)
  let written := (({} : Workshop).actAll twoOutputs).act
    (.operation (.onGroup (.setValues [1, 0]) ⟨[⟨0, 1⟩, ⟨0, 0⟩]⟩))
  have hwritten : Driven 0 (handle.driven [1, 0]) written := .write hstart (by decide) rfl rfl
  let raised := written.act (.deed (.setLevel 0 2 1))
  have hraised : Driven 0 (handle.driven [1, 0]) raised :=
    hwritten.act trivial ⟨by rintro index - offset hmem ⟨-, rfl⟩; revert hmem; decide, by decide⟩
  let workshop := raised.act (.operation (.onGroup (.request events none) ⟨[⟨0, 2⟩]⟩))
  have hdriven : Driven 0 (handle.driven [1, 0]) workshop :=
    hraised.act (by decide) ⟨fun _ _ _ _ => id, by decide⟩
  have hok : (workshop.world.setFlags ⟨[⟨0, 1⟩, ⟨0, 0⟩]⟩
      { settings := { activeLow := true } }).1.toOption = some () := by decide
  obtain ⟨⟨outcome, after⟩, hset⟩ : ∃ settled, workshop.world.setFlags ⟨[⟨0, 1⟩, ⟨0, 0⟩]⟩
      { settings := { activeLow := true } } = settled := ⟨_, rfl⟩
  rw [hset] at hok
  obtain rfl : outcome = .ok () := eq_ok_of_mem_toOption (Option.mem_toList.mpr hok)
  have hgroup : (workshop.world.valuesHandle ⟨[⟨0, 1⟩, ⟨0, 0⟩]⟩).toOption =
      some (0, handle.driven [1, 0]) := by decide
  exact ⟨workshop, _, after, hdriven, rfl, by decide, hset,
    hdriven.reflags (eq_ok_of_mem_toOption (Option.mem_toList.mpr hgroup)) hset rfl⟩

/-- A line that was an output, requested without a direction. -/
def formerOutput : List Act :=
  let output : RequestConfig := { consumer := "first", type := .output }
  let asIs : RequestConfig := { consumer := "second", type := .asIs }
  let line : Group := ⟨[⟨0, 0⟩]⟩
  [.deed (.addSimulator "gpiochip0" 1), .operation (.openChip (.simulator 0)),
    .operation (.getLines 0 [0]), .operation (.onGroup (.request output none) line),
    .operation (.release line), .operation (.onGroup (.request asIs none) line)]

/-- The line is written to, and is read as the opposite once the new flags turn its polarity. -/
theorem turned_formerOutput : ∃ (workshop : Workshop) (handle : Handle)
    (after : World (Traced Bench)), Driven 1 handle workshop ∧
    workshop.world.valuesHandle ⟨[⟨0, 0⟩]⟩ = .ok (1, handle) ∧
    workshop.world.setFlags ⟨[⟨0, 0⟩]⟩ { settings := { activeLow := true } } = (.ok (), after) ∧
    (workshop.world.getValues ⟨[⟨0, 0⟩]⟩).1.toOption = some [1] ∧
    (after.getValues ⟨[⟨0, 0⟩]⟩).1.toOption = some [0] := by
  let handle : Handle :=
    { kind := .values, device := .simulator 0, file := 1, offsets := [0], flags := {}, values := [0] }
  have hstart : Reachable Unruled (({} : Workshop).actAll formerOutput) :=
    Reachable.start.actAll (by decide)
  have hwritten : Driven 1 (handle.driven [1]) ((({} : Workshop).actAll formerOutput).act
      (.operation (.onGroup (.setValues [1]) ⟨[⟨0, 0⟩]⟩))) :=
    .write hstart (by decide) rfl rfl
  exact ⟨_, _, _, hwritten, rfl, rfl, by decide, by decide⟩

end Workshop.Driven

end GpioLines
