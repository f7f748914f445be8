import Mathlib.Data.Set.Lattice
import GpioLines.Proofs.OpenFiles
import GpioLines.Proofs.Sharing

/-!
# What an operation can touch

A device applies a write to all lines of a request at once, and a release as well. That an operation
on a group touches no other line is therefore up to the library: it only writes through a handle that
the group covers. Here an operation is confined to an area, which is what it was given and what it is
granted on the way, and whatever is outside the area is afterwards as it was before: lines of
simulated chips, records, handles, grants and files.

One step of an operation is confined because of what the handles in the area are known to serve. That
knowledge has to be carried from step to step, so what stays in an area ends with what fits it again.
-/

namespace GpioLines

theorem Table.get?_add_of_ne {α : Type} (table : Table α) (value : α) {key : Nat}
    (h : key ≠ table.next) : (table.add value).get? key = table.get? key := by
  have hother : (table.next == key) = false := by simpa using Ne.symm h
  simp [get?, add, List.find?_append, hother]

/-! ### Simulated chips -/

/-- What no call and no release changes of a simulated chip. -/
def Simulator.make (sim : Simulator) : String × Nat × UInt64 × Bool :=
  (sim.name, sim.lines.size, sim.clock, sim.infoFails)

namespace Simulator

variable {sim after : Simulator}

theorem make_of_lines {lines : Array SimLine} (hsize : lines.size = sim.lines.size)
    (grants : List Grant) (released : Nat) :
    { sim with lines, grants, released }.make = sim.make := by
  simp only [make, hsize]

theorem make_modifyAll (sim : Simulator) (updates : List (Offset × (SimLine → SimLine))) :
    (sim.modifyAll updates).make = sim.make := by
  obtain ⟨lines, heq, hsize⟩ := sim.modifyAll_eq updates
  rw [heq]
  exact make_of_lines hsize _ _

theorem make_perform (sim : Simulator) (fresh : FileId) (call : Call) :
    (sim.perform fresh call).2.make = sim.make := by
  rcases hperform : sim.perform fresh call with ⟨error | reply, after⟩
  · rw [perform_refused hperform]
  cases call with
  | chipInfo | lineInfo | getValues => rw [← (Prod.mk.inj hperform).2]
  | requestLines request =>
      obtain ⟨-, hgranted⟩ := settle_eq_ok.mp hperform
      obtain ⟨-, -, rfl⟩ := requestLines_eq_ok hgranted
      exact (make_modifyAll _ _).trans (make_modifyAll sim _)
  | requestEvent request =>
      obtain ⟨-, hgranted⟩ := settle_eq_ok.mp hperform
      obtain ⟨-, -, rfl⟩ := requestEvent_eq_ok hgranted
      exact (make_modifyAll _ _).trans (make_modifyAll sim _)
  | setValues file values =>
      obtain ⟨-, hset⟩ := settle_eq_ok.mp hperform
      obtain ⟨grant, -, -, -, -, rfl⟩ := setValues_eq_ok hset
      exact make_modifyAll sim _
  | setConfig file flags values =>
      obtain ⟨-, hset⟩ := settle_eq_ok.mp hperform
      obtain ⟨-, grant, -, -, -, rfl⟩ := setConfig_eq_ok hset
      exact make_modifyAll sim _

theorem make_release (sim : Simulator) (file : FileId) : (sim.release file).make = sim.make := by
  rcases sim.release_eq file with ⟨-, heq⟩ | ⟨grant, -, -, -, heq⟩
  · rw [heq]
  · rw [heq]
    exact make_modifyAll sim _

theorem mem_grants_release {file : FileId} {grant : Grant} (hother : grant.file ≠ file) :
    grant ∈ (sim.release file).grants ↔ grant ∈ sim.grants := by
  rcases sim.release_eq file with ⟨-, heq⟩ | ⟨_, -, -, -, heq⟩
  · rw [heq]
  · rw [heq]
    simp [hother]

end Simulator

/-! ### Benches -/

namespace Bench

/-- Nothing was touched but these lines of simulated chips and these files. -/
structure Confined (reach : Set (Nat × Offset)) (files : Set FileId) (before after : Bench) :
    Prop where
  next_le : before.files.next ≤ after.files.next
  line? : ∀ index offset, (index, offset) ∉ reach →
    after.line? index offset = before.line? index offset
  grants : ∀ index, ∀ grant : Grant, grant.file ∉ files →
    (grant ∈ after.grants index ↔ grant ∈ before.grants index)
  opened : ∀ file ∉ files, after.files.get? file = before.files.get? file
  make : ∀ index : Nat, (after.simulators[index]?).map Simulator.make =
    (before.simulators[index]?).map Simulator.make

variable {bench mid after : Bench} {reach : Set (Nat × Offset)} {files : Set FileId}

theorem Confined.refl (bench : Bench) : Confined reach files bench bench :=
  ⟨le_rfl, fun _ _ _ => rfl, fun _ _ _ => Iff.rfl, fun _ _ => rfl, fun _ => rfl⟩

theorem Confined.trans (h : Confined reach files bench mid) (hlater : Confined reach files mid after) :
    Confined reach files bench after where
  next_le := h.next_le.trans hlater.next_le
  line? := fun index offset hout => (hlater.line? index offset hout).trans (h.line? index offset hout)
  grants := fun index grant hout => (hlater.grants index grant hout).trans (h.grants index grant hout)
  opened := fun file hout => (hlater.opened file hout).trans (h.opened file hout)
  make := fun index => (hlater.make index).trans (h.make index)

theorem confined_perform (h : bench.Exclusive) {device : Device} {call : Call}
    {outcome : Outcome call} (hperform : Bench.perform device call bench = (outcome, after))
    (hnew : bench.files.next ∈ files)
    (hreach : ∀ index, device.simulator? = some index → ∀ sim : Simulator,
      bench.simulators[index]? = some sim → ∀ offset ∈ sim.reach call, (index, offset) ∈ reach) :
    Confined reach files bench after where
  next_le := next_le_perform hperform
  line? := fun index offset hout => h.line?_perform hperform fun hindex sim hsim _ _ _ hmem =>
    hout (hreach index hindex sim hsim offset hmem)
  grants := by
    intro index grant hout
    refine ⟨fun hmem => ?_, mem_grants_perform hperform⟩
    rcases perform_cases hperform with hpassed | ⟨reply, found, -, hgranted⟩
    · rwa [hpassed.grants] at hmem
    · rw [hgranted.grants] at hmem
      refine (List.mem_append.mp hmem).resolve_right fun hadded => hout ?_
      split at hadded
      · rw [Call.file_of_mem_grants hadded]
        exact hnew
      · cases hadded
  opened := by
    intro file hout
    rcases files_perform hperform with hsame | ⟨opened, hadded, -⟩
    · rw [hsame]
    · rw [hadded]
      refine Table.get?_add_of_ne _ _ ?_
      rintro rfl
      exact hout hnew
  make := by
    intro index
    rcases perform_cases hperform with hpassed | ⟨reply, found, -, hgranted⟩
    · rw [hpassed.simulators]
    · obtain ⟨sim, given, changed, hsim, hcall, -, hafter⟩ := hgranted.answered
      rw [hafter]
      split
      · next heq =>
        have hmake := sim.make_perform bench.files.next call
        rw [hcall] at hmake
        rw [heq, hsim, Option.map_some, Option.map_some, hmake]
      · rfl

theorem confined_releaseAt (h : bench.Exclusive) {device : Device} {file : FileId}
    (hfile : file ∈ files)
    (hreach : ∀ index, device.simulator? = some index → ∀ grant ∈ bench.grants index,
      grant.file = file → ∀ offset ∈ grant.offsets, (index, offset) ∈ reach) :
    Confined reach files bench (releaseAt device file bench) where
  next_le := (next_releaseAt device file bench).ge
  line? := fun index offset hout => h.line?_releaseAt device file fun hindex grant hgrant heq hmem =>
    hout (hreach index hindex grant hgrant heq offset hmem)
  grants := by
    intro index grant hout
    have hother : grant.file ≠ file := by
      rintro rfl
      exact hout hfile
    rw [Bench.grants, Bench.grants, simulators_releaseAt]
    split
    · cases bench.simulators[index]? with
      | none => rfl
      | some sim => exact Simulator.mem_grants_release hother
    · rfl
  opened := by
    intro other hout
    have hother : other ≠ file := by
      rintro rfl
      exact hout hfile
    rcases files_releaseAt device file bench with hsame | hhungUp
    · rw [hsame]
    · rw [hhungUp, Table.get?_modify, if_neg hother]
  make := by
    intro index
    rw [simulators_releaseAt]
    split
    · cases bench.simulators[index]? with
      | none => rfl
      | some sim => exact congrArg some (sim.make_release file)
    · rfl

theorem confined_closeFile (bench : Bench) {file : FileId} (hfile : file ∈ files) :
    Confined reach files bench (bench.closeFile file) where
  next_le := le_rfl
  line? := fun _ _ _ => rfl
  grants := fun _ _ _ => Iff.rfl
  opened := by
    intro other hout
    refine (Table.get?_erase ..).trans (if_neg ?_)
    rintro rfl
    exact hout hfile
  make := fun _ => rfl

end Bench

/-! ### Worlds -/

/-- The file that a call writes to, with its device. -/
def Exchange.target? : Exchange → Option (Device × FileId)
  | .call device (.setValues file _) _ | .call device (.setConfig file ..) _ => some (device, file)
  | _ => none

/-- What an operation may touch. -/
structure Area where
  lines : Set Line
  /-- Lines of simulated chips, by the chip and the offset. -/
  reach : Set (Nat × Offset)
  handles : Set HandleId
  files : Set FileId
  /-- The files that may be written to. -/
  targets : Set (Device × FileId)

/-- The file of the handle is in the area, and so are all lines that it serves. -/
structure Area.Spans (area : Area) (handle : Handle) : Prop where
  file : handle.file ∈ area.files
  reach : ∀ index, handle.device.simulator? = some index → ∀ offset ∈ handle.offsets,
    (index, offset) ∈ area.reach

theorem Area.Spans.of_sameGrant {area : Area} {a b : Handle} (h : area.Spans b)
    (hsame : a.SameGrant b) : area.Spans a := by
  obtain ⟨-, hdevice, hfile, hoffsets⟩ := hsame
  refine ⟨hfile ▸ h.file, fun index hindex offset hmem => ?_⟩
  rw [hdevice] at hindex
  rw [hoffsets] at hmem
  exact h.reach index hindex offset hmem

/-- A chip without what is known of its lines. -/
def Chip.face (chip : Chip) : Chip := { chip with records := .empty }

namespace World

variable {world mid after : World (Traced Bench)} {area : Area} {lent : List (Device × FileId)}

/-- Nothing outside the area was touched. -/
structure Confined (area : Area) (before after : World (Traced Bench)) : Prop where
  faces : after.chips.map Chip.face = before.chips.map Chip.face
  record : ∀ line ∉ area.lines, after.record line = before.record line
  next_le : before.handles.next ≤ after.handles.next
  handles : ∀ id ∉ area.handles, after.handles.get? id = before.handles.get? id
  streams : after.streams = before.streams
  tokens : after.tokens = before.tokens
  bench : Bench.Confined area.reach area.files before.bench after.bench
  trace : ∃ made, after.trace = before.trace ++ made ∧
    ∀ exchange ∈ made, ∀ target ∈ exchange.target?, target ∈ area.targets

namespace Confined

theorem trans (h : Confined area world mid) (hlater : Confined area mid after) :
    Confined area world after where
  faces := hlater.faces.trans h.faces
  record := fun line hout => (hlater.record line hout).trans (h.record line hout)
  next_le := h.next_le.trans hlater.next_le
  handles := fun id hout => (hlater.handles id hout).trans (h.handles id hout)
  streams := hlater.streams.trans h.streams
  tokens := hlater.tokens.trans h.tokens
  bench := h.bench.trans hlater.bench
  trace := by
    obtain ⟨earlier, hearlier, htargets⟩ := h.trace
    obtain ⟨later, hlater, hmore⟩ := hlater.trace
    refine ⟨earlier ++ later, by rw [hlater, hearlier, List.append_assoc], fun exchange hmem => ?_⟩
    exact (List.mem_append.mp hmem).elim (htargets exchange) (hmore exchange)

end Confined

/-- The trace has not grown. -/
theorem silent (htrace : after.trace = world.trace) : ∃ made, after.trace = world.trace ++ made ∧
    ∀ exchange ∈ made, ∀ target ∈ exchange.target?, target ∈ area.targets :=
  ⟨[], by rw [htrace, List.append_nil], fun _ hmem => absurd hmem List.not_mem_nil⟩

/-- The log has no part in an area. -/
theorem confined_of_eq (hmachine : after.machine = world.machine) (hchips : after.chips = world.chips)
    (hhandles : after.handles = world.handles) (hstreams : after.streams = world.streams)
    (htokens : after.tokens = world.tokens) : Confined area world after where
  faces := by rw [hchips]
  record := fun line _ => congrFun (record_of_chips_eq hchips) line
  next_le := by rw [hhandles]
  handles := fun id _ => by rw [hhandles]
  streams := hstreams
  tokens := htokens
  bench := by
    have hbench : after.bench = world.bench := congrArg Traced.machine hmachine
    rw [hbench]
    exact .refl _
  trace := silent (congrArg Traced.trace hmachine)

theorem faces_modifyLine {σ : Type} (world : World σ) (line : Line)
    (f : LineRecord → LineRecord) :
    (world.modifyLine line f).chips.map Chip.face = world.chips.map Chip.face := by
  refine List.ext_getElem? fun id => ?_
  simp only [modifyLine, List.getElem?_map, List.getElem?_modify]
  split <;> cases world.chips[id]? <;> rfl

theorem confined_modifyLine {line : Line} (hline : line ∈ area.lines)
    (f : LineRecord → LineRecord) : Confined area world (world.modifyLine line f) where
  faces := world.faces_modifyLine line f
  record := by
    intro other hout
    rw [record_modifyLine, if_neg]
    rintro ⟨rfl, -⟩
    exact hout hline
  next_le := le_rfl
  handles := fun _ _ => rfl
  streams := rfl
  tokens := rfl
  bench := .refl _
  trace := silent rfl

theorem confined_modifyHandle {id : HandleId} (hid : id ∈ area.handles) (f : Handle → Handle) :
    Confined area world { world with handles := world.handles.modify id f } where
  faces := rfl
  record := fun _ _ => rfl
  next_le := le_rfl
  handles := by
    intro other hout
    refine (Table.get?_modify ..).trans (if_neg ?_)
    rintro rfl
    exact hout hid
  streams := rfl
  tokens := rfl
  bench := .refl _
  trace := silent rfl

theorem confined_openHandle (handle : Handle) (hnext : world.handles.next ∈ area.handles) :
    Confined area world (world.openHandle handle) where
  faces := rfl
  record := fun _ _ => rfl
  next_le := Nat.le_succ _
  handles := by
    intro other hout
    refine Table.get?_add_of_ne _ _ ?_
    rintro rfl
    exact hout hnext
  streams := rfl
  tokens := rfl
  bench := .refl _
  trace := silent rfl

/-! ### What fits an area -/

/-- What is in the area is known to stay in it, and so is whatever is new. -/
structure Fits (world : World (Traced Bench)) (area : Area) (lent : List (Device × FileId)) :
    Prop where
  accord : world.Accord lent
  newHandles : ∀ id, world.handles.next ≤ id → id ∈ area.handles
  newFiles : ∀ file, world.bench.files.next ≤ file → file ∈ area.files
  spans : ∀ id ∈ area.handles, ∀ handle, world.handles.get? id = some handle → area.Spans handle

/-- Nothing outside the area was touched, and the area fits still. -/
structure StaysIn (area : Area) (lent : List (Device × FileId)) (before after : World (Traced Bench)) :
    Prop where
  confined : before.Confined area after
  fits : after.Fits area lent

namespace StaysIn

theorem refl (h : world.Fits area lent) : StaysIn area lent world world :=
  ⟨confined_of_eq rfl rfl rfl rfl rfl, h⟩

theorem trans (h : StaysIn area lent world mid) (hlater : StaysIn area lent mid after) :
    StaysIn area lent world after :=
  ⟨h.confined.trans hlater.confined, hlater.fits⟩

end StaysIn

namespace Fits

/-- One deal that is confined to the area and gives no handle but in the area. -/
theorem deal (h : world.Fits area lent) {due : Set Line}
    (hdeal : Deal False ⟨world, ∅⟩ ⟨after, due⟩) (hconfined : world.Confined area after)
    (hspans : ∀ id handle, after.handles.get? id = some handle → area.Spans handle ∨
      ∃ old, world.handles.get? id = some old ∧ handle.SameGrant old) :
    world.StaysIn area lent after := by
  refine ⟨hconfined, hdeal.accord h.accord, fun id hid => ?_, fun file hfile => ?_, ?_⟩
  · exact h.newHandles id (hconfined.next_le.trans hid)
  · exact h.newFiles file (hconfined.bench.next_le.trans hfile)
  · intro id hid handle hget
    rcases hspans id handle hget with hspan | ⟨old, hold, hsame⟩
    · exact hspan
    · exact (h.spans id hid old hold).of_sameGrant hsame

/-- As `deal`, if the handles stay what they are. -/
theorem dealSame (h : world.Fits area lent) {due : Set Line}
    (hdeal : Deal False ⟨world, ∅⟩ ⟨after, due⟩) (hconfined : world.Confined area after)
    (hhandles : after.handles = world.handles) : world.StaysIn area lent after :=
  h.deal hdeal hconfined fun _ handle hget =>
    Or.inr ⟨handle, hhandles ▸ hget, .refl handle⟩

theorem note (h : world.Fits area lent) (notice : Notice) :
    world.StaysIn area lent (world.note notice) :=
  h.dealSame (.pass (keeps_of_eq rfl rfl rfl)) (confined_of_eq rfl rfl rfl rfl rfl) rfl

theorem fail (h : world.Fits area lent) {α : Type} (error : Error) :
    world.StaysIn area lent (@World.fail _ α world error).2 :=
  h.dealSame (.pass (keeps_of_eq rfl rfl rfl)) (confined_of_eq rfl rfl rfl rfl rfl) rfl

end Fits

theorem StaysIn.note (h : world.StaysIn area lent mid) (notice : Notice) :
    world.StaysIn area lent (mid.note notice) :=
  h.trans (h.fits.note notice)

/-! ### Calls -/

namespace Fits

theorem confined_perform (h : world.Fits area lent) {device : Device} {call : Call}
    {outcome : Outcome call} (hperform : world.perform device call = (outcome, after))
    (hreach : ∀ index, device.simulator? = some index → ∀ sim : Simulator,
      world.bench.simulators[index]? = some sim → ∀ offset ∈ sim.reach call,
      (index, offset) ∈ area.reach)
    (htarget : ∀ target ∈ (Exchange.call device call outcome).target?, target ∈ area.targets) :
    world.Confined area after := by
  obtain ⟨bench, hbench, rfl⟩ := perform_bench hperform
  have hnew := h.newFiles world.bench.files.next le_rfl
  refine
    { faces := rfl
      record := fun _ _ => rfl
      next_le := le_rfl
      handles := fun _ _ => rfl
      streams := rfl
      tokens := rfl
      bench := Bench.confined_perform h.accord.bench hbench hnew hreach
      trace := ⟨_, rfl, fun exchange hmem => ?_⟩ }
  rw [List.mem_singleton.mp hmem]
  exact htarget

/-- A call about a file writes at most to the lines that its handle serves. -/
theorem reach_of_spans (h : world.Fits area lent) {id : HandleId} {handle : Handle}
    (hid : id ∈ area.handles) (hget : world.handles.get? id = some handle) (call : Call)
    (hcall : ∀ sim : Simulator, sim.reach call = (sim.grant? handle.file).elim [] (·.offsets)) :
    ∀ index, handle.device.simulator? = some index → ∀ sim : Simulator,
      world.bench.simulators[index]? = some sim → ∀ offset ∈ sim.reach call,
      (index, offset) ∈ area.reach := by
  intro index hindex sim hsim offset hmem
  obtain ⟨grant, hgrant, hbacked⟩ := h.accord.lending.backed id handle hget index hindex
  rw [Bench.grants_of_eq hsim] at hgrant
  have hfound := (h.accord.bench.simulators index sim hsim).grant?_eq hgrant
  rw [hcall, ← hbacked.file, hfound, Option.elim_some, hbacked.offsets] at hmem
  exact (h.spans id hid handle hget).reach index hindex offset hmem

theorem ask (h : world.Fits area lent) {device : Device} {call : Call} {outcome : Outcome call}
    (hperform : world.perform device call = (outcome, after)) (hquiet : call.Quiet outcome)
    (haddressed : call.Addressed device world.handles)
    (hreach : ∀ index, device.simulator? = some index → ∀ sim : Simulator,
      world.bench.simulators[index]? = some sim → ∀ offset ∈ sim.reach call,
      (index, offset) ∈ area.reach)
    (htarget : ∀ target ∈ (Exchange.call device call outcome).target?, target ∈ area.targets) :
    world.StaysIn area lent after :=
  h.dealSame (.ask hquiet haddressed hperform) (h.confined_perform hperform hreach htarget)
    (handles_of_perform hperform)

end Fits

end World

end GpioLines
