import GpioLines.Proofs.Deeds

/-!
# What a handle remembers

A handle remembers the flags and the output values that were last put in force, and later operations
go by them. On a simulated chip the lines themselves can be looked at, so it can be said what the
memory is worth: every line of an open handle is set up as the flags say, and an output is driven to
the value remembered. Nothing but an operation on the handle itself reaches its lines, as far as
settings go; a level can be set from outside, so it is vouched for in a `steady` workshop only.
-/

namespace GpioLines

/-! ### A line -/

namespace SimLine

/-- The line is set up as these flags say. -/
structure Obeys (line : SimLine) (flags : HandleFlags) : Prop where
  settings : line.flags.settings = flags.settings
  output : flags.output = true → line.flags.output = true
  input : flags.input = true → line.flags.output = false

theorem Obeys.of_alike {line changed : SimLine} {flags : HandleFlags} (h : line.Obeys flags)
    (halike : line.Alike changed) : changed.Obeys flags where
  settings := halike.settings.trans h.settings
  output := fun houtput => halike.output.trans (h.output houtput)
  input := fun hinput => halike.output.trans (h.input hinput)

theorem active_eq {line changed : SimLine} (h : line.Alike changed)
    (hlevel : changed.level = line.level) : changed.active = line.active := by
  rw [active, active, activeLow, activeLow, hlevel, h.settings]

theorem active_drive (line : SimLine) (active : Bool) : (line.drive active).active = active := by
  simp [SimLine.active, drive, activeLow]

theorem flags_configure (line : SimLine) (flags : HandleFlags) (value : UInt8) :
    (line.configure flags value).flags = (line.applyFlags flags).flags := by
  simp only [configure]
  split <;> rfl

theorem obeys_configure (line : SimLine) {flags : HandleFlags}
    (hrefuses : Simulator.refuses flags = false) (value : UInt8) :
    (line.configure flags value).Obeys flags := by
  refine ⟨?_, fun houtput => ?_, fun hinput => ?_⟩ <;> rw [flags_configure]
  · rfl
  · simp [applyFlags, houtput]
  · have houtput : flags.output = false := by
      simp only [Simulator.refuses, hinput, Bool.true_and, Bool.or_eq_false_iff] at hrefuses
      exact hrefuses.1.1.1.1
    simp [applyFlags, hinput, houtput]

theorem active_configure (line : SimLine) {flags : HandleFlags} (houtput : flags.output = true)
    (value : UInt8) : (line.configure flags value).active = isActive value := by
  simp only [configure, houtput, if_true, active_drive]

/-- A line that is requested for events becomes an input. -/
theorem obeys_listen (line : SimLine) {flags : HandleFlags} (houtput : flags.output = false) :
    (line.applyFlags { flags with input := true }).Obeys flags where
  settings := rfl
  output := by simp [houtput]
  input := by simp [applyFlags, houtput]

end SimLine

/-! ### A handle -/

namespace Bench

variable {bench after : Bench} {steady : Prop} {handle : Handle}

/-- The lines of a handle are as the handle remembers them. -/
def Agrees (bench : Bench) (steady : Prop) (handle : Handle) : Prop :=
  ∀ index, handle.device.simulator? = some index →
    ∀ (position : Nat) (offset : Offset), handle.offsets[position]? = some offset →
      ∃ line, bench.line? index offset = some line ∧ line.Obeys handle.flags ∧
        (steady → handle.flags.output = true →
          handle.values[position]? = some (ofActive line.active))

/-- What does not reach the lines of a handle changes nothing for it. -/
theorem Agrees.of_line? (h : bench.Agrees steady handle)
    (hline : ∀ index, handle.device.simulator? = some index → ∀ offset ∈ handle.offsets,
      after.line? index offset = bench.line? index offset) : after.Agrees steady handle := by
  intro index hindex position offset hoffset
  rw [hline index hindex offset (List.mem_of_getElem? hoffset)]
  exact h index hindex position offset hoffset

/-- A value that was put in force as a bit reads back. -/
theorem exists_bit {values : List UInt8} {offsets : List Offset}
    (hlength : values.length = offsets.length) (hbits : ∀ value ∈ values, IsBit value)
    {position : Nat} {offset : Offset} (hoffset : offsets[position]? = some offset) :
    ∃ value, values[position]? = some value ∧ ofActive (isActive value) = value := by
  have hlt : position < values.length := by
    rw [hlength]
    exact (List.getElem?_eq_some_iff.mp hoffset).1
  exact ⟨_, List.getElem?_eq_getElem hlt, (hbits _ (List.getElem_mem hlt)).normalize_eq⟩

theorem agrees_requestLines {request : LinesRequest} {file : FileId}
    (h : perform handle.device (.requestLines request) bench = (.ok file, after))
    (hoffsets : handle.offsets = request.offsets) (hflags : handle.flags = request.flags)
    (hvalues : handle.values = request.values) (hlength : handle.values.length = handle.offsets.length)
    (hbits : ∀ value ∈ handle.values, IsBit value) : after.Agrees steady handle := by
  intro index hindex position offset hoffset
  obtain ⟨value, hvalue, hbit⟩ := exists_bit hlength hbits hoffset
  rw [hoffsets, hvalues] at hlength
  rw [hoffsets] at hoffset
  rw [hvalues] at hvalue
  rw [hvalues, hflags]
  obtain ⟨hrefuses, line, -, hafter⟩ := line?_requestLines h hindex hlength hoffset hvalue
  refine ⟨_, hafter, SimLine.obeys_configure _ hrefuses value, fun _ houtput => ?_⟩
  rw [SimLine.active_configure _ houtput, hbit, hvalue]

theorem agrees_requestEvent {request : EventRequest} {file : FileId}
    (h : perform handle.device (.requestEvent request) bench = (.ok file, after))
    (hoffsets : handle.offsets = [request.offset]) (hflags : handle.flags = request.flags) :
    after.Agrees steady handle := by
  intro index hindex position offset hoffset
  rw [hoffsets] at hoffset
  obtain rfl := List.mem_singleton.mp (List.mem_of_getElem? hoffset)
  obtain ⟨houtput, line, -, hafter⟩ := line?_requestEvent h hindex
  rw [hflags]
  refine ⟨_, hafter, SimLine.obeys_listen _ houtput, fun _ hnot => ?_⟩
  rw [houtput] at hnot
  cases hnot

/-- The grant of a handle is with the chip. -/
abbrev Backs (bench : Bench) (handle : Handle) : Prop :=
  ∀ index, handle.device.simulator? = some index → ∃ grant ∈ bench.grants index, handle.Backed grant

namespace Agrees

theorem driven (h : bench.Agrees steady handle) (hbench : bench.Exclusive)
    (hbacked : bench.Backs handle) {values : List UInt8}
    (hlength : values.length = handle.offsets.length) (hbits : ∀ value ∈ values, IsBit value)
    (hperform : perform handle.device (.setValues handle.file values) bench = (.ok (), after)) :
    after.Agrees steady (handle.driven values) := by
  intro index hindex position offset hoffset
  obtain ⟨value, hvalue, hbit⟩ := exists_bit hlength hbits hoffset
  obtain ⟨grant, hgrant, hfile, hoffsets, -⟩ := hbacked index hindex
  obtain ⟨line, hline, -, hafter⟩ := hbench.line?_setValues (hfile ▸ hperform) hindex hgrant
    (hoffsets ▸ hoffset) hvalue
  obtain ⟨old, hold, hobeys, -⟩ := h index hindex position offset hoffset
  obtain rfl := Option.mem_unique hline hold
  refine ⟨_, hafter, hobeys.of_alike ⟨rfl, rfl⟩, fun _ _ => ?_⟩
  rw [SimLine.active_drive, hbit]
  exact hvalue

theorem configured (hbench : bench.Exclusive) (hbacked : bench.Backs handle) {flags : HandleFlags}
    {values : List UInt8} (hlength : values.length = handle.offsets.length)
    (hbits : ∀ value ∈ values, IsBit value)
    (hperform : perform handle.device (.setConfig handle.file flags values) bench =
      (.ok (), after)) : after.Agrees steady (handle.configured flags values) := by
  intro index hindex position offset hoffset
  obtain ⟨value, hvalue, hbit⟩ := exists_bit hlength hbits hoffset
  obtain ⟨grant, hgrant, hfile, hoffsets, -⟩ := hbacked index hindex
  obtain ⟨hrefuses, line, hline, hafter⟩ := hbench.line?_setConfig (hfile ▸ hperform) hindex hgrant
    (hoffsets ▸ hlength) (hoffsets ▸ hoffset) hvalue
  refine ⟨_, hafter, SimLine.obeys_configure _ hrefuses value, fun _ houtput => ?_⟩
  have hflags : flags.output = true := houtput
  rw [SimLine.active_configure _ hflags, hbit, Handle.configured]
  simp only [hflags, if_true]
  exact hvalue

/-- A call for somebody else. -/
theorem perform (h : bench.Agrees steady handle) (hbench : bench.Exclusive)
    (hbacked : bench.Backs handle) {device : Device} {call : Call} {outcome : Outcome call}
    (hperform : Bench.perform device call bench = (outcome, after))
    (hother : ∀ index, handle.device.simulator? = some index → device.simulator? = some index →
      call.file? ≠ some handle.file) : after.Agrees steady handle := by
  refine h.of_line? fun index hindex offset hmem => ?_
  obtain ⟨grant, hgrant, hfile, hoffsets, -⟩ := hbacked index hindex
  refine hbench.line?_perform_of_grant hperform hgrant (fun hsame => ?_) (hoffsets ▸ hmem)
  rw [hfile]
  exact hother index hindex hsame

/-- The release of somebody else's file. -/
theorem releaseAt (h : bench.Agrees steady handle) (hbench : bench.Exclusive)
    (hbacked : bench.Backs handle) {device : Device} {file : FileId}
    (hother : ∀ index, handle.device.simulator? = some index → device.simulator? = some index →
      handle.file ≠ file) : (Bench.releaseAt device file bench).Agrees steady handle := by
  refine h.of_line? fun index hindex offset hmem => ?_
  obtain ⟨grant, hgrant, hfile, hoffsets, -⟩ := hbacked index hindex
  refine hbench.line?_releaseAt_of_grant hgrant (fun hsame => ?_) (hoffsets ▸ hmem)
  rw [hfile]
  exact hother index hindex hsame

/-- What is done beside all requests leaves the settings as they are, and the levels of outputs that
nobody drives. -/
theorem beside (h : bench.Agrees steady handle) {driven : Nat → Offset → Prop}
    (hbeside : bench.Beside driven after)
    (hdriven : steady → handle.flags.output = true → ∀ index,
      handle.device.simulator? = some index → ∀ offset ∈ handle.offsets, ¬ driven index offset) :
    after.Agrees steady handle := by
  intro index hindex position offset hoffset
  obtain ⟨line, hline, hobeys, hlevel⟩ := h index hindex position offset hoffset
  obtain ⟨changed, hchanged, halike, hsame⟩ := hbeside.line? hline
  refine ⟨changed, hchanged, hobeys.of_alike halike, fun hsteady houtput => ?_⟩
  rw [hlevel hsteady houtput]
  have hnot := hdriven hsteady houtput index hindex offset (List.mem_of_getElem? hoffset)
  rw [SimLine.active_eq halike (hsame.resolve_left hnot)]

end Agrees

end Bench

/-! ### Deal by deal -/

/-- Every open handle is as the library remembers it. -/
def World.Agrees (world : World (Traced Bench)) (steady : Prop) : Prop :=
  ∀ id handle, world.handles.get? id = some handle → world.bench.Agrees steady handle

namespace World.Agrees

variable {world after : World (Traced Bench)} {steady : Prop} {lent : List (Device × FileId)}

theorem of_simulators (h : world.Agrees steady)
    (hsimulators : after.bench.simulators = world.bench.simulators)
    (hhandles : after.handles = world.handles) : after.Agrees steady := by
  intro id handle hget
  rw [hhandles] at hget
  exact (h id handle hget).of_line? fun index _ offset _ =>
    congrFun (congrFun (Bench.line?_eq_of_simulators_eq hsimulators) index) offset

/-- A call that only asks, or that was refused. -/
theorem ask (h : world.Agrees steady) {device : Device} {call : Call} {outcome : Outcome call}
    (hperform : world.perform device call = (outcome, after))
    (hasks : call.Asks ∨ ∃ error, outcome = .error error) : after.Agrees steady := by
  obtain ⟨bench, hbench, rfl⟩ := perform_bench hperform
  exact h.of_simulators (Bench.simulators_asked hbench hasks) rfl

/-- A call through the file of one handle, or through none, is nothing to the others. -/
theorem others (h : world.Agrees steady) (haccord : world.Accord lent) {device : Device}
    {call : Call} {outcome : Outcome call}
    (hperform : world.perform device call = (outcome, after)) {id : HandleId} {handle : Handle}
    (hget : world.handles.get? id = some handle)
    (hother : ∀ index, handle.device.simulator? = some index → device.simulator? = some index →
      call.file? ≠ some handle.file) : after.bench.Agrees steady handle := by
  obtain ⟨bench, hbench, rfl⟩ := perform_bench hperform
  exact (h id handle hget).perform haccord.bench (haccord.lending.backed id handle hget) hbench hother

/-- A call through the file of a handle, and what the library then remembers of that handle. -/
theorem own (h : world.Agrees steady) (haccord : world.Accord lent) {id : HandleId}
    {handle : Handle} (hget : world.handles.get? id = some handle) {call : Call}
    (hfile : call.file? = some handle.file) {outcome : Outcome call}
    (hperform : world.perform handle.device call = (outcome, after)) {f : Handle → Handle}
    (hf : after.bench.Agrees steady (f handle)) :
    { after with handles := after.handles.modify id f }.Agrees steady := by
  intro key found hfound
  have hhandles := handles_of_perform hperform
  rw [hhandles, Table.get?_modify] at hfound
  split at hfound
  · next heq =>
    rw [heq, hget] at hfound
    obtain rfl := Option.some.inj hfound
    exact hf
  · next hne =>
    refine h.others haccord hperform hfound fun index hindex hsame hsamefile => hne ?_
    rw [hfile] at hsamefile
    exact haccord.lending.distinct key id found handle index hfound hget hindex hsame
      (Option.some.inj hsamefile).symm

theorem add (h : world.Agrees steady) (haccord : world.Accord lent) {device : Device} {call : Call}
    (hfile : call.file? = none) {outcome : Outcome call}
    (hperform : world.perform device call = (outcome, after)) {handle : Handle}
    (hnew : after.bench.Agrees steady handle) : (after.openHandle handle).Agrees steady := by
  intro id found hfound
  have hhandles := handles_of_perform hperform
  change (after.handles.add handle).get? id = some found at hfound
  rw [hhandles, Table.get?_add haccord.fresh] at hfound
  split at hfound
  · obtain rfl := Option.some.inj hfound
    exact hnew
  · refine h.others haccord hperform hfound fun _ _ _ hsome => ?_
    rw [hfile] at hsome
    cases hsome

theorem close (h : world.Agrees steady) (haccord : world.Accord lent) {id : HandleId}
    {handle : Handle} (hget : world.handles.get? id = some handle) :
    (world.closeHandle id).Agrees steady := by
  rw [closeHandle_eq hget]
  intro key found hfound
  change (world.handles.erase id).get? key = some found at hfound
  rw [Table.get?_erase] at hfound
  split at hfound
  · cases hfound
  · next hne =>
    refine (h key found hfound).releaseAt haccord.bench (haccord.lending.backed key found hfound)
      fun index hindex hsame hfile => hne ?_
    exact haccord.lending.distinct key id found handle index hfound hget hindex hsame hfile

end World.Agrees

variable {adds steady : Prop} {before after : Docket (Traced Bench)} {lent : List (Device × FileId)}

theorem Deal.agrees (hdeal : Deal adds before after) (haccord : before.world.Accord lent)
    (h : before.world.Agrees steady) : after.world.Agrees steady := by
  cases hdeal with
  | pass hkeeps =>
      refine h.of_simulators ?_ hkeeps.handles
      rw [World.bench, hkeeps.machine]
  | openChip | unwatch => exact h.of_simulators rfl rfl
  | @read world _ file size =>
      exact h.of_simulators (world.bench.filesOnly_read file size).simulators rfl
  | @watch world _ file => exact h.of_simulators (world.bench.filesOnly_watch file).simulators rfl
  | ask hquiet _ htold => exact h.ask htold hquiet.asks
  | learn _ htold => exact (h.ask htold (Or.inl trivial)).of_simulators rfl rfl
  | doubt _ htold => exact (h.ask htold (Or.inl trivial)).of_simulators rfl rfl
  | take _ hvalid hgranted =>
      obtain ⟨bench, hbench, rfl⟩ := World.perform_bench hgranted
      exact h.add haccord rfl hgranted
        (Bench.agrees_requestLines hbench rfl rfl rfl (hvalid.values_length rfl) hvalid.bits)
  | listen _ hgranted =>
      obtain ⟨bench, hbench, rfl⟩ := World.perform_bench hgranted
      exact h.add haccord rfl hgranted (Bench.agrees_requestEvent hbench rfl rfl)
  | attach => exact h.of_simulators rfl rfl
  | drive hfound hlength hbits hdriven =>
      obtain ⟨bench, hbench, rfl⟩ := World.perform_bench hdriven
      exact h.own haccord hfound rfl hdriven ((h _ _ hfound).driven haccord.bench
        (haccord.lending.backed _ _ hfound) hlength hbits hbench)
  | configure _ hcovers hlength hbits hconfigured =>
      obtain ⟨bench, hbench, rfl⟩ := World.perform_bench hconfigured
      exact h.own haccord hcovers.found rfl hconfigured (.configured haccord.bench
        (haccord.lending.backed _ _ hcovers.found) hlength hbits hbench)
  | close hfound => exact h.close haccord hfound

theorem Deals.agrees (hdeals : Deals adds before after) (haccord : before.world.Accord lent)
    (h : before.world.Agrees steady) : after.world.Agrees steady := by
  induction hdeals with
  | refl => exact h
  | tail hdeals hdeal ih => exact hdeal.agrees (Deals.accord hdeals haccord) ih

/-! ### Deed by deed -/

namespace Workshop

variable {workshop after : Workshop}

/-- No level is set from outside of a line that an open handle has as an output. -/
def Steady (workshop : Workshop) : Act → Prop
  | .deed (.setLevel index offset _) => ∀ entry ∈ workshop.world.handles.entries,
    entry.2.flags.output = true → entry.2.device.simulator? = some index →
    offset ∉ entry.2.offsets
  | _ => True

instance (workshop : Workshop) : (act : Act) → Decidable (workshop.Steady act)
  | .deed (.setLevel index offset _) =>
    inferInstanceAs (Decidable (∀ entry ∈ workshop.world.handles.entries,
      entry.2.flags.output = true → entry.2.device.simulator? = some index →
      offset ∉ entry.2.offsets))
  | .operation _ | .deed (.addSimulator ..) | .deed (.addProbe ..) | .deed (.addFault ..)
  | .deed (.setAnswers _) | .deed (.control ..) | .deed (.inject ..) | .deed (.call ..)
  | .deed (.read ..) | .deed (.release ..) | .deed (.close ..) => instDecidableTrue

theorem Steady.not_drives {deed : Deed} (h : workshop.Steady (.deed deed))
    (hsound : workshop.client.Sound) {id : HandleId} {handle : Handle}
    (hget : workshop.world.handles.get? id = some handle) (houtput : handle.flags.output = true)
    {index : Nat} (hindex : handle.device.simulator? = some index) {offset : Offset}
    (hmem : offset ∈ handle.offsets) : ¬ deed.Drives index offset := by
  cases deed with
  | setLevel other line level =>
      rintro ⟨rfl, rfl⟩
      have hentry := hsound.desk.ledger.handles_ascending.mem_entries_iff.mpr hget
      exact h (id, handle) hentry houtput hindex hmem
  | _ => exact not_false

theorem Worked.agrees {driven : Nat → Offset → Prop} (hworked : Worked driven workshop after)
    (hsound : workshop.Sound) (h : workshop.world.Agrees steady)
    (hdriven : steady → ∀ id handle, workshop.world.handles.get? id = some handle →
      handle.flags.output = true → ∀ index, handle.device.simulator? = some index →
      ∀ offset ∈ handle.offsets, ¬ driven index offset) : after.world.Agrees steady := by
  have hlending := hsound.accord.lending
  cases hworked with
  | beside client lent hbeside =>
      rw [world, client]
      intro id handle hget
      exact (h id handle hget).beside hbeside fun hsteady => hdriven hsteady id handle hget
  | @call device call own done =>
      rcases hperform : workshop.world.perform device call with ⟨outcome, last⟩
      have hafter : after.world = last := by rw [done, Workshop.call, hperform]; rfl
      have hhandles := World.handles_of_perform hperform
      rw [hafter]
      intro id handle hget
      rw [hhandles] at hget
      refine h.others hsound.accord hperform hget fun index hindex hsame hfile => ?_
      exact hlending.apart id handle hget _ (own handle.file hfile) index hindex hsame rfl
  | @release device file own done =>
      rw [done]
      intro id handle hget
      refine (h id handle hget).releaseAt hsound.accord.bench (hlending.backed id handle hget)
        fun index hindex hsame hfile => ?_
      exact hlending.apart id handle hget _ own index hindex hsame hfile.symm

/-- Handles agree with their lines under any rule; with levels, where the rule keeps them steady. -/
theorem Reachable.agrees {rule : Workshop → Act → Prop} (h : Reachable rule workshop)
    (hrule : steady → ∀ workshop act, rule workshop act → Steady workshop act) :
    workshop.world.Agrees steady := by
  induction h with
  | start => exact fun id handle hget => by cases (hget : none = some handle)
  | @act workshop act before hcan hallowed ih =>
      have hsound := before.sound
      cases act with
      | operation operation =>
          have hgroups : ∀ group ∈ operation.groups, group.WellFormed := fun group hgroup =>
            hsound.client.groups group (hcan.1 group hgroup)
          exact (operation.deals hsound.client.desk hgroups).agrees hsound.accord ih
      | deed deed =>
          refine (worked_work hcan).agrees hsound ih fun hsteady id handle hget houtput index hindex
            offset hmem => ?_
          exact (hrule hsteady workshop _ hallowed).not_drives hsound.client hget houtput hindex hmem

end Workshop

/-! ### What the memory is worth -/

/-- The line is what a handle remembers of the line at this position of its request. -/
structure Handle.Remembers (handle : Handle) (position : Nat) (line : SimLine) : Prop where
  settings : line.flags.settings = handle.flags.settings
  output : handle.flags.output = true → line.flags.output = true
  input : handle.flags.input = true → line.flags.output = false
  level : handle.flags.output = true → handle.values[position]? = some (ofActive line.active)

namespace Workshop

variable {workshop : Workshop}

/-- **Every open handle remembers its lines as they are**, whatever the client does with it and with
others, as long as nobody else sets the level of an output. -/
theorem remembers_of_steady (h : Reachable Steady workshop) :
    ∀ id handle, workshop.world.handles.get? id = some handle →
      ∀ index, handle.device.simulator? = some index →
      ∀ (position : Nat) (offset : Offset), handle.offsets[position]? = some offset →
        ∃ line, workshop.world.bench.line? index offset = some line ∧
          handle.Remembers position line := by
  intro id handle hget index hindex position offset hoffset
  have hagrees : workshop.world.Agrees True := h.agrees fun _ _ _ hallowed => hallowed
  obtain ⟨line, hline, hobeys, hlevel⟩ := hagrees id handle hget index hindex position offset hoffset
  exact ⟨line, hline, hobeys.settings, hobeys.output, hobeys.input, hlevel trivial⟩

/-- Outputs that are turned active-low, driven, reconfigured and in part released, beside a line that
is requested for events. -/
def rewiring : List Act :=
  let outputs : RequestConfig := { consumer := "rewiring", type := .output }
  let events : RequestConfig := { consumer := "rewiring", type := .eventBoth }
  let both : Group := ⟨[⟨0, 2⟩, ⟨0, 0⟩]⟩
  [.deed (.addSimulator "gpiochip0" 4), .operation (.openChip (.simulator 0)),
    .operation (.getLines 0 [2, 0]), .operation (.onGroup (.request outputs (some [1, 0])) both),
    .operation (.getLine 0 1), .operation (.onGroup (.request events none) ⟨[⟨0, 1⟩]⟩),
    .operation (.onGroup (.setFlags { settings := { activeLow := true } }) both),
    .operation (.onGroup (.setValues [0, 5]) both), .deed (.setLevel 0 1 1),
    .operation (.onGroup (.setConfig .asIs { settings := { openDrain := true, openSource := true } }
      none) both),
    .operation (.single ⟨0, 2⟩), .operation (.release ⟨[⟨0, 2⟩]⟩)]

theorem remembers_rewiring : ∃ workshop : Workshop, ∃ handle line, Reachable Steady workshop ∧
    workshop.world.handles.get? 0 = some handle ∧ handle.flags.settings.activeLow = true ∧
    handle.values = [0, 1] ∧ workshop.world.bench.line? 0 0 = some line ∧ line.level = false ∧
    handle.Remembers 1 line := by
  let workshop := ({} : Workshop).actAll rewiring
  have hreachable : Reachable Steady workshop := Reachable.start.actAll (by decide)
  have hopen : (workshop.world.handles.get? 0).isSome := by decide
  obtain ⟨handle, hget⟩ := Option.isSome_iff_exists.mp hopen
  have hhandle : ∀ found ∈ workshop.world.handles.get? 0,
      found.device = .simulator 0 ∧ found.offsets = [2, 0] ∧ found.values = [0, 1] ∧
        found.flags.settings.activeLow = true := by decide
  obtain ⟨hdevice, hoffsets, hvalues, hlow⟩ := hhandle handle hget
  obtain ⟨line, hline, hremembers⟩ := remembers_of_steady hreachable 0 handle hget 0
    (by rw [hdevice]; rfl) 1 0 (by rw [hoffsets]; rfl)
  have hlevel : ∀ found ∈ workshop.world.bench.line? 0 0, found.level = false := by decide
  exact ⟨workshop, handle, line, hreachable, hget, hlow, hvalues, hline, hlevel line hline, hremembers⟩

end Workshop

end GpioLines
