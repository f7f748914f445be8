import GpioLines.Proofs.Deal
import GpioLines.Proofs.Lending

/-!
# The library and the simulated chips in accord

Deal by deal the handles of the library stay in step with the grants of the simulated chips: a grant
and its handle come and go in one deal, and no deal in between touches either. With them goes an
account of the requests that each chip has granted, and the fact that a line is served by a handle of
the device that its own chip is on.
-/

namespace GpioLines

/-- How many requests this simulated chip granted in an exchange. -/
def Exchange.servedBy (index : Nat) : Exchange → Nat
  | .call granter asked outcome =>
    if granter.simulator? = some index then (asked.granted granter outcome).card else 0
  | .release .. => 0

/-- A line is served by a handle of the device that its chip is on. -/
def Board.Homed (board : Board) (handles : Table Handle) : Prop :=
  ∀ line id, (board.slot line).handle? = some id → id < handles.next ∧
    ∀ handle, handles.get? id = some handle → board.device? line.chip = some handle.device

namespace Board.Homed

variable {board after : Board} {handles : Table Handle}

theorem of_slot (h : board.Homed handles)
    (hdevice : ∀ id device, board.device? id = some device → after.device? id = some device)
    (hslot : ∀ line, after.slot line = board.slot line ∨ after.slot line = .free) :
    after.Homed handles := by
  intro line id hholds
  rcases hslot line with hsame | hfree
  · rw [hsame] at hholds
    obtain ⟨hlt, hhome⟩ := h line id hholds
    exact ⟨hlt, fun handle hget => hdevice line.chip _ (hhome handle hget)⟩
  · rw [hfree] at hholds
    cases hholds

theorem addHandle (h : board.Homed handles) (hfresh : handles.Fresh) (handle : Handle) :
    board.Homed (handles.add handle) := by
  intro line id hholds
  obtain ⟨hlt, hhome⟩ := h line id hholds
  refine ⟨Nat.lt_succ_of_lt hlt, fun found hget => hhome found ?_⟩
  rwa [Table.get?_add hfresh, if_neg (Nat.ne_of_lt hlt)] at hget

theorem modifyHandle (h : board.Homed handles) {id : HandleId} {f : Handle → Handle}
    (hf : ∀ handle, (f handle).device = handle.device) : board.Homed (handles.modify id f) := by
  intro line key hholds
  obtain ⟨hlt, hhome⟩ := h line key hholds
  refine ⟨hlt, fun found hget => ?_⟩
  rw [Table.get?_modify] at hget
  split at hget
  · obtain ⟨old, hold, rfl⟩ := Option.map_eq_some_iff.mp hget
    rw [hf]
    exact hhome old hold
  · exact hhome found hget

theorem eraseHandle (h : board.Homed handles) (id : HandleId) :
    board.Homed (handles.erase id) := by
  intro line key hholds
  obtain ⟨hlt, hhome⟩ := h line key hholds
  refine ⟨hlt, fun found hget => ?_⟩
  rw [Table.get?_erase] at hget
  split at hget
  · cases hget
  · exact hhome found hget

theorem attach (h : board.Homed handles) {line : Line} {id : HandleId} {handle : Handle}
    (hlt : id < handles.next) (hget : handles.get? id = some handle)
    (hdevice : board.device? line.chip = some handle.device)
    (hsame : after.device? = board.device?) {slot : Slot}
    (hslot : ∀ other, after.slot other = if other = line then slot else board.slot other)
    (hholds : slot.handle? = some id) : after.Homed handles := by
  intro other key hother
  rw [hslot] at hother
  rw [hsame]
  split at hother
  · next heq =>
    rw [hholds] at hother
    obtain rfl := Option.some.inj hother
    subst heq
    refine ⟨hlt, fun found hfound => ?_⟩
    obtain rfl := Option.mem_unique hget hfound
    exact hdevice
  · exact h other key hother

end Board.Homed

namespace World

abbrev bench (world : World (Traced Bench)) : Bench := world.machine.machine

abbrev trace (world : World (Traced Bench)) : List Exchange := world.machine.trace

/-- The library agrees with the simulated chips on what was lent, beside what others were `lent`. -/
structure Accord (world : World (Traced Bench)) (lent : List (Device × FileId)) : Prop where
  fresh : world.handles.Fresh
  home : world.board.Homed world.handles
  bench : world.bench.Exclusive
  lending : Lending world.bench world.handles lent
  /-- What the chips count as granted is what passed as granted. -/
  counted : ∀ index, world.bench.served index =
    (world.trace.map (Exchange.servedBy index)).sum

variable {world after : World (Traced Bench)}

theorem perform_bench {device : Device} {call : Call} {outcome : Outcome call}
    (h : world.perform device call = (outcome, after)) :
    ∃ bench, Bench.perform device call world.bench = (outcome, bench) ∧
      after = { world with
        machine :=
          { machine := bench, trace := world.trace ++ [.call device call outcome] } } := by
  obtain ⟨machine, hmachine, rfl⟩ := perform_eq h
  obtain ⟨houtcome, rfl⟩ := Prod.mk.inj hmachine
  refine ⟨(Bench.perform device call world.bench).2, Prod.ext houtcome rfl, ?_⟩
  rw [← houtcome]

end World

namespace Bench

variable {bench after : Bench}

theorem mem_grants_perform {device : Device} {call : Call} {outcome : Outcome call}
    (h : perform device call bench = (outcome, after)) {index : Nat} {grant : Grant}
    (hmem : grant ∈ bench.grants index) : grant ∈ after.grants index := by
  rcases perform_cases h with hpassed | ⟨reply, found, -, hgranted⟩
  · rwa [hpassed.grants]
  · rw [hgranted.grants]
    exact List.mem_append_left _ hmem

theorem next_le_perform {device : Device} {call : Call} {outcome : Outcome call}
    (h : perform device call bench = (outcome, after)) :
    bench.files.next ≤ after.files.next := by
  rcases perform_cases h with hpassed | ⟨reply, found, -, hgranted⟩
  · exact hpassed.next_le
  · rw [hgranted.next]
    exact Nat.le_add_right _ _

theorem served_perform {device : Device} {call : Call} {outcome : Outcome call}
    (h : perform device call bench = (outcome, after)) (index : Nat) :
    after.served index =
      bench.served index + (Exchange.call device call outcome).servedBy index := by
  rcases perform_cases h with hpassed | ⟨reply, found, rfl, hgranted⟩
  · have hnone : (Exchange.call device call outcome).servedBy index = 0 := by
      rcases hpassed.reason with hnowhere | ⟨error, rfl⟩
      · simp [Exchange.servedBy, hnowhere]
      · simp [Exchange.servedBy]
    rw [hnone, served, served, hpassed.simulators]
    rfl
  · obtain ⟨sim, given, changed, hsim, hcall, -, hafter⟩ := hgranted.answered
    obtain ⟨hgrants, hreleased⟩ := Simulator.grants_perform hcall
    rw [served, served, hafter]
    simp only [Exchange.servedBy, hgranted.beneath, Option.some.injEq]
    by_cases heq : index = found
    · subst heq
      rw [if_pos rfl, if_pos rfl, hsim, Option.elim_some, Option.elim_some, Simulator.served,
        Simulator.served, hgrants, hreleased, List.length_append,
        Call.length_grants device bench.files.next reply]
      omega
    · rw [if_neg heq, if_neg (Ne.symm heq)]
      rfl

theorem Exclusive.served_releaseAt (h : bench.Exclusive) (device : Device) (file : FileId)
    (index : Nat) : (Bench.releaseAt device file bench).served index = bench.served index := by
  rw [Bench.served, Bench.served, simulators_releaseAt]
  split
  · cases hsim : bench.simulators[index]? with
    | none => rfl
    | some sim => exact Simulator.served_release (h.simulators index sim hsim) file
  · rfl

end Bench

namespace World.Accord

variable {world after : World (Traced Bench)} {lent : List (Device × FileId)}

/-! ### Calls -/

/-- Of the bench only files have changed, and no line is newly held. -/
theorem of_filesOnly (h : world.Accord lent) (hfiles : Bench.FilesOnly world.bench after.bench)
    (htrace : after.trace = world.trace) (hhandles : after.handles = world.handles)
    (hdevice : ∀ id device, world.board.device? id = some device →
      after.board.device? id = some device)
    (hslot : ∀ line, after.slot line = world.slot line ∨ after.slot line = .free) :
    after.Accord lent := by
  have hhome : after.board.Homed world.handles := h.home.of_slot hdevice hslot
  refine ⟨?_, ?_, h.bench.filesOnly hfiles, ?_, fun index => ?_⟩
  · rw [hhandles]
    exact h.fresh
  · rw [hhandles]
    exact hhome
  · rw [hhandles]
    refine h.lending.of_le hfiles.next.ge fun index grant hgrant => ?_
    rwa [hfiles.grants]
  · rw [hfiles.served, htrace]
    exact h.counted index

/-- A call that is granted no file. -/
theorem call (h : world.Accord lent) {device : Device} {call : Call} {outcome : Outcome call}
    (hperform : world.perform device call = (outcome, after)) : after.Accord lent := by
  obtain ⟨bench, hbench, rfl⟩ := perform_bench hperform
  refine ⟨h.fresh, h.home, h.bench.perform hbench, ?_, fun index => ?_⟩
  · exact h.lending.of_le (Bench.next_le_perform hbench) fun _ _ => Bench.mem_grants_perform hbench
  · refine (Bench.served_perform hbench index).trans ?_
    rw [h.counted index, List.map_append, List.sum_append, List.map_singleton, List.sum_singleton]

/-- A call that is granted a file, which becomes a handle at once. -/
theorem grant (h : world.Accord lent) {device : Device} {call : Call}
    {handle : Handle} {reply : call.Reply}
    (hperform : world.perform device call = (.ok reply, after)) (hdevice : handle.device = device)
    (hfile : ∀ sim changed : Simulator, ∀ fresh,
      sim.perform fresh call = (.ok reply, changed) → handle.file = fresh)
    (hcall : call ≠ .chipInfo) (grant : Grant)
    (hgrant : ∀ fresh, call.grants fresh = [{ grant with file := fresh }])
    (hbacked : handle.Backed { grant with file := handle.file }) :
    (after.openHandle handle).Accord lent := by
  have hcalled := h.call hperform
  obtain ⟨bench, hbench, rfl⟩ := perform_bench hperform
  refine ⟨h.fresh.add handle, ?_, hcalled.bench, ?_, hcalled.counted⟩
  · exact h.home.addHandle h.fresh handle
  · refine h.lending.addHandle h.bench h.fresh (fun index hindex => ?_)
      (Bench.next_le_perform hbench) fun _ _ => Bench.mem_grants_perform hbench
    rw [hdevice] at hindex
    rcases Bench.perform_cases hbench with hpassed | ⟨given, found, hgiven, hgranted⟩
    · rcases hpassed.reason with hnowhere | ⟨error, herror⟩
      · rw [hindex] at hnowhere
        cases hnowhere
      · cases herror
    · obtain rfl := Except.ok.inj hgiven
      obtain rfl : index = found := by
        rw [hgranted.beneath] at hindex
        exact (Option.some.inj hindex).symm
      obtain ⟨sim, own, changed, -, hsim, hreply, -⟩ := hgranted.answered
      obtain rfl := hreply hcall
      have hfresh := hfile sim changed _ hsim
      refine ⟨hfresh, { grant with file := handle.file }, ?_, hbacked⟩
      have hgrants : bench.grants index =
          world.bench.grants index ++ [{ grant with file := handle.file }] := by
        rw [hgranted.grants, if_pos rfl, hgrant, hfresh]
      refine hgrants ▸ List.mem_append_right _ (List.mem_singleton_self _)

theorem close (h : world.Accord lent) {id : HandleId} {handle : Handle}
    (hget : world.handles.get? id = some handle) : (world.closeHandle id).Accord lent := by
  have hbench : (Bench.releaseAt handle.device handle.file world.machine.machine).Exclusive :=
    h.bench.releaseAt handle.device handle.file
  rw [closeHandle_eq hget]
  refine ⟨h.fresh.erase id, h.home.eraseHandle id, ?_, ?_, fun index => ?_⟩
  · exact hbench.filesOnly ⟨rfl, rfl⟩
  · exact h.lending.eraseHandle hget (Bench.next_releaseAt ..).ge fun index grant hgrant hother =>
      Bench.mem_grants_releaseAt hgrant hother
  · refine (h.bench.served_releaseAt handle.device handle.file index).trans ?_
    rw [h.counted index]
    change _ = ((world.machine.trace ++ [_]).map _).sum
    rw [List.map_append, List.sum_append]
    rfl

end World.Accord

/-! ### Deal by deal -/

variable {adds : Prop} {before after : Docket (Traced Bench)} {lent : List (Device × FileId)}

theorem Deal.accord (hdeal : Deal adds before after) (h : before.world.Accord lent) :
    after.world.Accord lent := by
  cases hdeal with
  | pass hkeeps =>
      refine h.of_filesOnly ⟨?_, ?_⟩ ?_ hkeeps.handles (fun id device hid => ?_) hkeeps.slot
      · rw [World.bench, hkeeps.machine]
      · rw [World.bench, hkeeps.machine]
      · rw [World.trace, hkeeps.machine]
      · rwa [hkeeps.device]
  | openChip _ device info =>
      refine h.of_filesOnly ⟨rfl, rfl⟩ rfl rfl (fun id found hid => ?_) fun line => Or.inl ?_
      · obtain ⟨chip, hchip, rfl⟩ := Option.map_eq_some_iff.mp hid
        have hlt := (List.getElem?_eq_some_iff.mp hchip).1
        exact Option.map_eq_some_iff.mpr ⟨chip, by rwa [List.getElem?_append_left hlt], rfl⟩
      · exact congrFun (World.slot_openChip _ device info) line
  | @read world _ file size =>
      exact h.of_filesOnly (world.bench.filesOnly_read file size) rfl rfl (fun _ _ hid => hid)
        fun line => Or.inl rfl
  | @watch world _ file =>
      exact h.of_filesOnly (world.bench.filesOnly_watch file) rfl rfl (fun _ _ hid => hid)
        fun line => Or.inl rfl
  | unwatch file =>
      exact h.of_filesOnly ⟨rfl, rfl⟩ rfl rfl (fun _ _ hid => hid) fun line => Or.inl rfl
  | ask _ _ htold => exact h.call htold
  | @learn _ after _ line _ info _ htold =>
      have hboard := after.board_modifyLine line
        fun record : LineRecord => (rfl : (record.refreshed info).slot = record.slot)
      exact (h.call htold).of_filesOnly ⟨rfl, rfl⟩ rfl rfl (fun id device hid => by rwa [hboard])
        fun other => Or.inl (congrFun (congrArg Board.slot hboard) other)
  | @doubt _ after _ line _ error _ htold =>
      have hkeeps := after.keeps_stale line
      exact (h.call htold).of_filesOnly ⟨rfl, rfl⟩ rfl rfl
        (fun id device hid => by rwa [hkeeps.device]) hkeeps.slot
  | @take _ _ _ group config defaults chip _ file _ _ hgranted =>
      refine h.grant hgranted rfl (fun sim changed fresh hcall => ?_)
        (fun heq => by cases heq) ⟨file, group.offsets, none⟩ (fun fresh => rfl)
        ⟨rfl, rfl, by simp [World.linesHandle]⟩
      exact (Simulator.settle_eq_ok.mp hcall).1
  | @listen _ _ _ line config chip file _ hgranted =>
      refine h.grant hgranted rfl (fun sim changed fresh hcall => ?_)
        (fun heq => by cases heq) ⟨file, [line.offset], some config.type.edges⟩ (fun fresh => rfl)
        ⟨rfl, rfl, by simp [World.eventGrant]⟩
      exact (Simulator.settle_eq_ok.mp hcall).1
  | @attach world _ line id handle hfound hdevice kind =>
      have hlt := Table.get?_lt h.fresh hfound
      refine ⟨h.fresh, ?_, h.bench, h.lending, h.counted⟩
      obtain ⟨chip, hchip, -⟩ := Option.map_eq_some_iff.mp hdevice
      have hclosed : world.board.closed? line.chip = some chip.closed :=
        Option.map_eq_some_iff.mpr ⟨chip, hchip, rfl⟩
      rw [show (world.attach line id kind).board = _ from world.board_attach hclosed id kind]
      exact h.home.attach hlt hfound hdevice rfl (fun other => Board.slot_withSlot ..)
        (Slot.handle?_holding id kind)
  | @drive world after _ id handle values hfound _ _ hdriven =>
      have hcalled := h.call hdriven
      have hlending : Lending after.bench (after.handles.modify id (·.driven values)) lent := by
        apply hcalled.lending.modifyHandle
        exact fun _ _ => ⟨rfl, rfl, rfl, rfl⟩
      exact ⟨hcalled.fresh.modify id _, hcalled.home.modifyHandle fun _ => rfl, hcalled.bench,
        hlending, hcalled.counted⟩
  | @configure world after _ _ _ _ id handle flags values _ hcovers _ _ hconfigured =>
      have hcalled := h.call hconfigured
      have hlending :
          Lending after.bench (after.handles.modify id (·.configured flags values)) lent := by
        apply hcalled.lending.modifyHandle
        exact fun _ _ => ⟨rfl, rfl, rfl, rfl⟩
      exact ⟨hcalled.fresh.modify id _, hcalled.home.modifyHandle fun _ => rfl, hcalled.bench,
        hlending, hcalled.counted⟩
  | close hfound => exact h.close hfound

theorem Deals.accord (hdeals : Deals adds before after) (h : before.world.Accord lent) :
    after.world.Accord lent := by
  induction hdeals with
  | refl => exact h
  | tail _ hdeal ih => exact hdeal.accord ih

end GpioLines
