import GpioLines.Proofs.Polarity

/-!
# How a handle came to be as it is

A handle that is open after a deal was open before it, or was granted by it, and what it remembers
was put in force by the last call that settled something for its file. All other exchanges are
silent about that file, and whoever makes them leaves its lines as they were. So what the library
remembers of a handle can be told from the trace, by cases that are the same for whatever is told.
-/

namespace GpioLines

/-! ### Exchanges about a file -/

/-- The exchange grants the file, or puts values or flags in force through it. -/
def Exchange.Settles (device : Device) (file : FileId) : Exchange → Prop
  | .call party (.requestLines _) (.ok granted) => party = device ∧ granted = file
  | .call party (.requestEvent _) (.ok granted) => party = device ∧ granted = file
  | .call party (.setValues written _) (.ok _) => party = device ∧ written = file
  | .call party (.setConfig written _ _) (.ok _) => party = device ∧ written = file
  | _ => False

/-- What is added to a trace settles nothing for the file. -/
def Silent (device : Device) (file : FileId) (trace later : List Exchange) : Prop :=
  ∃ made, later = trace ++ made ∧ ∀ exchange ∈ made, ¬ exchange.Settles device file

variable {device : Device} {file : FileId}

theorem Silent.refl (trace : List Exchange) : Silent device file trace trace :=
  ⟨[], (List.append_nil trace).symm, fun _ hmem => absurd hmem List.not_mem_nil⟩

theorem Silent.single {trace : List Exchange} {exchange : Exchange}
    (h : ¬ exchange.Settles device file) : Silent device file trace (trace ++ [exchange]) := by
  refine ⟨[exchange], rfl, fun other hmem => ?_⟩
  rwa [List.mem_singleton.mp hmem]

/-- A tale that only exchanges about the file go on with stays as it is. -/
theorem Silent.foldl {α : Type} {tell : α → Exchange → α}
    (htell : ∀ exchange, ¬ exchange.Settles device file → ∀ told, tell told exchange = told)
    {trace later : List Exchange} (h : Silent device file trace later) (start : α) :
    later.foldl tell start = trace.foldl tell start := by
  obtain ⟨made, rfl, hsilent⟩ := h
  rw [List.foldl_append]
  generalize trace.foldl tell start = told
  induction made with
  | nil => rfl
  | cons exchange rest ih =>
      rw [List.forall_mem_cons] at hsilent
      rw [List.foldl_cons, htell exchange hsilent.1, ih hsilent.2]

/-- Who only asks, or is refused, settles nothing. -/
theorem Exchange.not_settles_of_quiet {party : Device} {call : Call} {outcome : Outcome call}
    (h : call.Quiet outcome) : ¬ (Exchange.call party call outcome).Settles device file := by
  cases call with
  | chipInfo | lineInfo | getValues => exact not_false
  | requestLines | requestEvent | setValues | setConfig =>
      obtain ⟨error, rfl⟩ := h
      exact not_false

/-- Who settles something for a file names it, or is granted it. -/
theorem Exchange.Settles.about {party : Device} {call : Call} {outcome : Outcome call}
    (h : (Exchange.call party call outcome).Settles device file) :
    party = device ∧ (call.file? = some file ∨ (party, file) ∈ call.opens party outcome) := by
  cases call with
  | chipInfo | lineInfo | getValues => exact h.elim
  | requestLines | requestEvent =>
      cases outcome with
      | error error => exact h.elim
      | ok granted => exact ⟨h.1, Or.inr (List.mem_singleton.mpr (h.2 ▸ rfl))⟩
  | setValues | setConfig =>
      cases outcome with
      | error error => exact h.elim
      | ok reply => exact ⟨h.1, Or.inl (congrArg some h.2)⟩

/-! ### Handles -/

/-- How a handle that is open after a deal came to be as it is. -/
inductive Fate (before after : World (Traced Bench)) (id : HandleId) : Handle → Prop
  | kept {handle : Handle} (found : before.handles.get? id = some handle)
      (silent : Silent handle.device handle.file before.trace after.trace)
      (lines : ∀ index, handle.device.simulator? = some index → ∀ offset ∈ handle.offsets,
        after.bench.line? index offset = before.bench.line? index offset) :
      Fate before after id handle
  | taken {handle : Handle} {request : LinesRequest} (fresh : id = before.handles.next)
      (kind : handle.kind = .values) (valid : handle.Valid) (offsets : handle.offsets = request.offsets)
      (flags : handle.flags = request.flags) (values : handle.values = request.values)
      (told : Bench.perform handle.device (.requestLines request) before.bench =
        (.ok handle.file, after.bench))
      (trace : after.trace = before.trace ++
        [.call handle.device (.requestLines request) (.ok handle.file)]) :
      Fate before after id handle
  | listened {handle : Handle} {request : EventRequest} (fresh : id = before.handles.next)
      (kind : handle.kind = .events) (offsets : handle.offsets = [request.offset])
      (flags : handle.flags = request.flags)
      (told : Bench.perform handle.device (.requestEvent request) before.bench =
        (.ok handle.file, after.bench))
      (trace : after.trace = before.trace ++
        [.call handle.device (.requestEvent request) (.ok handle.file)]) :
      Fate before after id handle
  | driven {old : Handle} {values : List UInt8} (found : before.handles.get? id = some old)
      (length : values.length = old.offsets.length) (bits : ∀ value ∈ values, IsBit value)
      (told : Bench.perform old.device (.setValues old.file values) before.bench =
        (.ok (), after.bench))
      (trace : after.trace = before.trace ++
        [.call old.device (.setValues old.file values) (.ok ())]) :
      Fate before after id (old.driven values)
  | configured {old : Handle} {flags : HandleFlags} {values : List UInt8}
      (found : before.handles.get? id = some old) (length : values.length = old.offsets.length)
      (bits : ∀ value ∈ values, IsBit value)
      (told : Bench.perform old.device (.setConfig old.file flags values) before.bench =
        (.ok (), after.bench))
      (trace : after.trace = before.trace ++
        [.call old.device (.setConfig old.file flags values) (.ok ())]) :
      Fate before after id (old.configured flags values)

/-- A file that is granted is not the file of a handle that was open before. -/
theorem World.Accord.not_opens {world after : World (Traced Bench)} {lent : List (Device × FileId)}
    (haccord : world.Accord lent) {id : HandleId} {handle : Handle}
    (hget : world.handles.get? id = some handle) (hsim : handle.device.simulator? ≠ none)
    {call : Call} {outcome : Outcome call}
    (hperform : world.perform handle.device call = (outcome, after)) :
    (handle.device, handle.file) ∉ call.opens handle.device outcome := by
  obtain ⟨index, hindex⟩ := Option.ne_none_iff_exists'.mp hsim
  obtain ⟨bench, hbench, -⟩ := perform_bench hperform
  rcases Workshop.opens_perform hbench with hnone | ⟨granted, hopened, hnew⟩
  · rw [hnone]
    exact List.not_mem_nil
  · rw [hopened, List.mem_singleton]
    intro heq
    have hlt := haccord.lending.file_lt haccord.bench hget hindex
    rw [(Prod.mk.inj heq).2, (hnew index hindex).1] at hlt
    exact Nat.lt_irrefl _ hlt

namespace Fate

variable {before after mid : World (Traced Bench)} {lent : List (Device × FileId)} {id : HandleId}
  {handle : Handle}

theorem of_machine_eq (hget : before.handles.get? id = some handle)
    (hmachine : after.machine = before.machine) : Fate before after id handle := by
  have htrace : after.trace = before.trace := congrArg Traced.trace hmachine
  refine .kept hget (htrace ▸ .refl _) fun index _ offset _ => ?_
  rw [World.bench, hmachine]

theorem of_filesOnly (hget : before.handles.get? id = some handle)
    (hfiles : Bench.FilesOnly before.bench after.bench) (htrace : after.trace = before.trace) :
    Fate before after id handle := by
  refine .kept hget (htrace ▸ .refl _) fun index _ offset _ => ?_
  rw [Bench.line?_eq_of_simulators_eq hfiles.simulators]

/-- A call that is not about the file of the handle. -/
theorem others (haccord : before.Accord lent) (hget : before.handles.get? id = some handle)
    {party : Device} {call : Call} {outcome : Outcome call}
    (hperform : before.perform party call = (outcome, mid)) (hmachine : after.machine = mid.machine)
    (hsilent : ¬ (Exchange.call party call outcome).Settles handle.device handle.file)
    (hother : ∀ index, handle.device.simulator? = some index → party.simulator? = some index →
      call.file? ≠ some handle.file) : Fate before after id handle := by
  obtain ⟨bench, hbench, rfl⟩ := World.perform_bench hperform
  have htrace : after.trace = before.trace ++ [.call party call outcome] :=
    congrArg Traced.trace hmachine
  refine .kept hget (htrace ▸ .single hsilent) fun index hindex offset hmem => ?_
  obtain ⟨grant, hgrant, hfile, hoffsets, -⟩ := haccord.lending.backed id handle hget index hindex
  rw [World.bench, hmachine]
  refine haccord.bench.line?_perform_of_grant hbench hgrant (fun hsame => ?_) (hoffsets ▸ hmem)
  rw [hfile]
  exact hother index hindex hsame

theorem asked (hget : before.handles.get? id = some handle) {party : Device} {call : Call}
    {outcome : Outcome call} (hperform : before.perform party call = (outcome, mid))
    (hmachine : after.machine = mid.machine) (hquiet : call.Quiet outcome) :
    Fate before after id handle := by
  obtain ⟨bench, hbench, rfl⟩ := World.perform_bench hperform
  have htrace : after.trace = before.trace ++ [.call party call outcome] :=
    congrArg Traced.trace hmachine
  refine .kept hget (htrace ▸ .single (Exchange.not_settles_of_quiet hquiet)) fun index _ offset _ => ?_
  rw [World.bench, hmachine]
  exact congrFun (congrFun (Bench.line?_eq_of_simulators_eq
    (Bench.simulators_asked hbench hquiet.asks)) index) offset

/-- A write or a reconfiguration through another handle. -/
theorem elsewhere (haccord : before.Accord lent) (hget : before.handles.get? id = some handle)
    (hsim : handle.device.simulator? ≠ none) {key : HandleId} {found : Handle}
    (hfound : before.handles.get? key = some found) (hne : id ≠ key) {call : Call}
    (hfile : call.file? = some found.file) {outcome : Outcome call}
    (hopens : call.opens found.device outcome = [])
    (hperform : before.perform found.device call = (outcome, mid))
    (hmachine : after.machine = mid.machine) : Fate before after id handle := by
  obtain ⟨index, hindex⟩ := Option.ne_none_iff_exists'.mp hsim
  have hfiles : found.device.simulator? = some index → found.file ≠ handle.file := by
    intro hsame heq
    exact hne (haccord.lending.distinct id key handle found index hget hfound hindex hsame heq.symm)
  refine others haccord hget hperform hmachine (fun hsettles => ?_) fun other hother hsame heq => ?_
  · obtain ⟨hdevice, hnamed | hgranted⟩ := hsettles.about
    · rw [hfile] at hnamed
      exact hfiles (hdevice ▸ hindex) (Option.some.inj hnamed)
    · rw [hopens] at hgranted
      exact List.not_mem_nil hgranted
  · obtain rfl := Option.some.inj (hindex.symm.trans hother)
    rw [hfile] at heq
    exact hfiles hsame (Option.some.inj heq)

/-- A request that is granted another file. -/
theorem granted (haccord : before.Accord lent) (hget : before.handles.get? id = some handle)
    (hsim : handle.device.simulator? ≠ none) {party : Device} {call : Call}
    {outcome : Outcome call} (hfile : call.file? = none)
    (hperform : before.perform party call = (outcome, mid)) (hmachine : after.machine = mid.machine) :
    Fate before after id handle := by
  refine others haccord hget hperform hmachine (fun hsettles => ?_) fun _ _ _ heq => ?_
  · obtain ⟨rfl, hnamed | hgranted⟩ := hsettles.about
    · rw [hfile] at hnamed
      cases hnamed
    · exact haccord.not_opens hget hsim hperform hgranted
  · rw [hfile] at heq
    cases heq

/-- The release of the file of another handle. -/
theorem released (haccord : before.Accord lent) (hget : before.handles.get? id = some handle)
    {key : HandleId} {found : Handle} (hfound : before.handles.get? key = some found) (hne : id ≠ key)
    (hbench : after.bench.simulators =
      (Bench.releaseAt found.device found.file before.bench).simulators)
    (htrace : after.trace = before.trace ++ [.release found.device found.file]) :
    Fate before after id handle := by
  refine .kept hget (htrace ▸ .single not_false) fun index hindex offset hmem => ?_
  obtain ⟨grant, hgrant, hfile, hoffsets, -⟩ := haccord.lending.backed id handle hget index hindex
  rw [Bench.line?_eq_of_simulators_eq hbench]
  refine haccord.bench.line?_releaseAt_of_grant hgrant (fun hsame heq => hne ?_) (hoffsets ▸ hmem)
  exact haccord.lending.distinct id key handle found index hget hfound hindex hsame
    (hfile.symm.trans heq)

end Fate

variable {adds : Prop} {before after : Docket (Traced Bench)} {lent : List (Device × FileId)}
  {id : HandleId} {handle : Handle}

/-- **Every open handle over a simulated chip has its fate**, deal by deal. -/
theorem Deal.fate (hdeal : Deal adds before after) (haccord : before.world.Accord lent)
    (hget : after.world.handles.get? id = some handle) (hsim : handle.device.simulator? ≠ none) :
    Fate before.world after.world id handle := by
  cases hdeal with
  | pass hkeeps => exact .of_machine_eq (hkeeps.handles ▸ hget) hkeeps.machine
  | openChip => exact .of_machine_eq hget rfl
  | attach => exact .of_machine_eq hget rfl
  | @read world _ file size => exact .of_filesOnly hget (world.bench.filesOnly_read file size) rfl
  | @watch world _ file => exact .of_filesOnly hget (world.bench.filesOnly_watch file) rfl
  | unwatch file => exact .of_filesOnly hget ⟨rfl, rfl⟩ rfl
  | ask hquiet _ told => exact .asked (World.handles_of_perform told ▸ hget) told rfl hquiet
  | learn _ told | doubt _ told =>
      exact .asked (World.handles_of_perform told ▸ hget) told rfl trivial
  | take _ hvalid granted =>
      have hhandles := World.handles_of_perform granted
      replace hget := (Table.get?_add (hhandles ▸ haccord.fresh) _ id).symm.trans hget
      split at hget
      · next hid =>
        obtain rfl := Option.some.inj hget
        obtain ⟨bench, hbench, rfl⟩ := World.perform_bench granted
        exact .taken hid rfl hvalid rfl rfl rfl hbench rfl
      · exact .granted haccord (hhandles ▸ hget) hsim rfl granted rfl
  | listen _ granted =>
      have hhandles := World.handles_of_perform granted
      replace hget := (Table.get?_add (hhandles ▸ haccord.fresh) _ id).symm.trans hget
      split at hget
      · next hid =>
        obtain rfl := Option.some.inj hget
        obtain ⟨bench, hbench, rfl⟩ := World.perform_bench granted
        exact .listened hid rfl rfl rfl hbench rfl
      · exact .granted haccord (hhandles ▸ hget) hsim rfl granted rfl
  | drive hfound hlength hbits told =>
      have hhandles := World.handles_of_perform told
      replace hget := (Table.get?_modify ..).symm.trans hget
      rw [hhandles] at hget
      split at hget
      · next hid =>
        obtain ⟨old, hold, rfl⟩ := Option.map_eq_some_iff.mp hget
        obtain rfl := Option.mem_unique hfound (hid ▸ hold)
        obtain ⟨bench, hbench, rfl⟩ := World.perform_bench told
        exact .driven hold hlength hbits hbench rfl
      · next hne => exact .elsewhere haccord hget hsim hfound hne rfl rfl told rfl
  | configure _ hcovers hlength hbits told =>
      have hhandles := World.handles_of_perform told
      replace hget := (Table.get?_modify ..).symm.trans hget
      rw [hhandles] at hget
      split at hget
      · next hid =>
        obtain ⟨old, hold, rfl⟩ := Option.map_eq_some_iff.mp hget
        obtain rfl := Option.mem_unique hcovers.found (hid ▸ hold)
        obtain ⟨bench, hbench, rfl⟩ := World.perform_bench told
        exact .configured hold hlength hbits hbench rfl
      · next hne => exact .elsewhere haccord hget hsim hcovers.found hne rfl rfl told rfl
  | close hfound =>
      rw [World.closeHandle_eq hfound] at hget ⊢
      replace hget := (Table.get?_erase ..).symm.trans hget
      split at hget
      · cases hget
      · next hne => exact .released haccord hget hfound hne rfl rfl

/-! ### Deeds -/

theorem Workshop.Worked.handles {workshop after : Workshop} {driven : Nat → Offset → Prop}
    (hworked : Worked driven workshop after) : after.world.handles = workshop.world.handles := by
  obtain ⟨bench, more, log, hclient⟩ := hworked.client_eq
  rw [world, hclient]

/-- A deed settles nothing for the files of the library. -/
theorem Workshop.Worked.silent {workshop after : Workshop} {driven : Nat → Offset → Prop}
    (hworked : Worked driven workshop after) (haccord : workshop.world.Accord workshop.lent)
    (hget : workshop.world.handles.get? id = some handle)
    (hsim : handle.device.simulator? ≠ none) :
    Silent handle.device handle.file workshop.world.trace after.world.trace := by
  cases hworked with
  | beside client =>
      rw [show after.world.trace = workshop.world.trace by rw [world, client]; rfl]
      exact .refl _
  | @call device call own done =>
      rcases hperform : workshop.world.perform device call with ⟨outcome, last⟩
      have hafter : after.world = last := by rw [done, Workshop.call, hperform]; rfl
      have hsilent : ¬ (Exchange.call device call outcome).Settles handle.device handle.file := by
        intro hsettles
        obtain ⟨rfl, hnamed | hgranted⟩ := hsettles.about
        · obtain ⟨index, hindex⟩ := Option.ne_none_iff_exists'.mp hsim
          exact haccord.lending.apart id handle hget _ (own handle.file hnamed) index hindex hindex rfl
        · exact haccord.not_opens hget hsim hperform hgranted
      obtain ⟨bench, -, rfl⟩ := World.perform_bench hperform
      rw [hafter]
      exact .single hsilent
  | release _ done =>
      rw [done]
      exact .single not_false

/-! ### Whole runs -/

/-- What is told of a handle by the exchanges so far: it stays true while they are silent about its
file, and each of the calls that settle something for it makes it true. -/
structure Tale (tell : List Exchange → Handle → Prop) : Prop where
  silent : ∀ {trace later handle}, Silent handle.device handle.file trace later → tell trace handle →
    tell later handle
  fate : ∀ {before after : World (Traced Bench)} {id handle}, Fate before after id handle →
    handle.device.simulator? ≠ none →
    (∀ old, before.handles.get? id = some old → handle.SameGrant old → tell before.trace old) →
      tell after.trace handle

/-- The tale is true of every open handle over a simulated chip. -/
def World.Told (world : World (Traced Bench)) (tell : List Exchange → Handle → Prop) : Prop :=
  ∀ id handle, world.handles.get? id = some handle → handle.device.simulator? ≠ none →
    tell world.trace handle

section Tales

variable {tell : List Exchange → Handle → Prop} (htale : Tale tell)

include htale

theorem Deal.told (hdeal : Deal adds before after) (haccord : before.world.Accord lent)
    (h : before.world.Told tell) : after.world.Told tell := by
  intro id handle hget hsim
  refine htale.fate (hdeal.fate haccord hget hsim) hsim fun old hold hsame => ?_
  exact h id old hold (hsame.2.1 ▸ hsim)

theorem Deals.told (hdeals : Deals adds before after) (haccord : before.world.Accord lent)
    (h : before.world.Told tell) : after.world.Told tell := by
  induction hdeals with
  | refl => exact h
  | tail hdeals hdeal ih => exact hdeal.told htale (Deals.accord hdeals haccord) ih

/-- A tale is true of every open handle, under any rule. -/
theorem Workshop.Reachable.told {rule : Workshop → Act → Prop} {workshop : Workshop}
    (h : Reachable rule workshop) : workshop.world.Told tell := by
  induction h with
  | start => exact fun id handle hget => by cases (hget : none = some handle)
  | @act workshop act before hcan _ ih =>
      have hsound := before.sound
      cases act with
      | operation operation =>
          have hgroups : ∀ group ∈ operation.groups, group.WellFormed := fun group hgroup =>
            hsound.client.groups group (hcan.1 group hgroup)
          exact (operation.deals hsound.client.desk hgroups).told htale hsound.accord ih
      | deed deed =>
          have hworked := worked_work hcan
          intro id handle hget hsim
          have hsame : workshop.world.handles.get? id = some handle := hworked.handles ▸ hget
          exact htale.silent (hworked.silent hsound.accord hsame hsim) (ih id handle hsame hsim)

end Tales

/-! ### Numbers -/

namespace Workshop

variable {workshop : Workshop}

/-- The number of a handle is not given to another one. -/
theorem sameGrant_act (h : workshop.Sound) {act : Act} (hcan : workshop.Can act)
    (hlt : id < workshop.world.handles.next) :
    id < (workshop.act act).world.handles.next ∧
      ∀ handle, (workshop.act act).world.handles.get? id = some handle →
        ∃ old, workshop.world.handles.get? id = some old ∧ handle.SameGrant old := by
  cases act with
  | operation operation =>
      have hevolves := h.client.evolves hcan
      refine ⟨hlt.trans_le hevolves.next_le, fun handle hget => ?_⟩
      exact (hevolves.handles id handle hget).resolve_right fun hnew => hlt.not_ge hnew.1
  | deed deed =>
      have hsame : (workshop.work deed).world.handles = workshop.world.handles :=
        (worked_work hcan).handles
      change id < (workshop.work deed).world.handles.next ∧
        ∀ handle, (workshop.work deed).world.handles.get? id = some handle → _
      rw [hsame]
      exact ⟨hlt, fun handle hget => ⟨handle, hget, .refl handle⟩⟩

theorem sameGrant_actAll {rule : Workshop → Act → Prop} (h : workshop.Sound) {script : List Act}
    (hcan : workshop.CanActAll rule script) (hlt : id < workshop.world.handles.next)
    (hget : (workshop.actAll script).world.handles.get? id = some handle) :
    ∃ old, workshop.world.handles.get? id = some old ∧ handle.SameGrant old := by
  induction script generalizing workshop with
  | nil => exact ⟨handle, hget, .refl handle⟩
  | cons act rest ih =>
      obtain ⟨hstill, hact⟩ := sameGrant_act h hcan.1 hlt
      obtain ⟨mid, hmid, hsame⟩ := ih (h.act hcan.1) hcan.2.2 hstill hget
      obtain ⟨old, hold, holds⟩ := hact mid hmid
      exact ⟨old, hold, hsame.trans holds⟩

end Workshop

end GpioLines
