import GpioLines.Proofs.Reception
import GpioLines.Proofs.Timekeeping

/-!
# A handle goes on listening

Of all that is done in a workshop only three things concern a handle that listens: a level of its chip
is set, it is read, or it is closed. The files that were lent past the library have other numbers, so
nothing that is done with them does. One act adds to the file what it reports and takes from it what
it returns.
-/

namespace GpioLines

namespace World

variable {world : World (Traced Bench)} {feed : Feed} {id : HandleId} {others more : List FileId}
  {bytes rest : List UInt8} {bench : Bench} {log : Array Notice}

/-! ### Changes past the library -/

theorem Spares.withBench (h : world.Spares others) {touched : FileId → Prop}
    (hfiles : world.bench.Touches touched bench) :
    Spares others { world with machine := world.machine.withMachine bench, log } :=
  h.touches hfiles (List.Subset.refl _) rfl

theorem Spares.withOthers (h : world.Spares others) (hgone : ∀ file ∈ more, file ∈ others ∨
    (Unclaimed file world.trace → file < world.bench.files.next)) : world.Spares more where
  fresh := h.fresh
  unused := h.unused
  gone := fun file hfile => (hgone file hfile).elim (h.gone file) id

theorem Hears.withBench (h : world.Hears feed id others bytes)
    (hserves : Unclaimed feed.file world.trace → feed.file ∉ others →
      world.bench.Serves feed bytes → bench.Serves feed rest) :
    Hears feed id others rest { world with machine := world.machine.withMachine bench, log } where
  born := h.born
  file := h.file
  serves := fun hunclaimed hopen =>
    hserves hunclaimed (h.apart hunclaimed hopen) (h.serves hunclaimed hopen)
  sole := h.sole
  apart := h.apart

theorem Hears.withOthers (h : world.Hears feed id others bytes)
    (hapart : feed.file ∈ more → feed.file ∈ others ∨
      ¬ (Unclaimed feed.file world.trace ∧ (world.handles.get? id).isSome)) :
    world.Hears feed id more bytes where
  born := h.born
  file := h.file
  serves := h.serves
  sole := h.sole
  apart := fun hunclaimed hopen hmem =>
    (hapart hmem).elim (h.apart hunclaimed hopen) (absurd ⟨hunclaimed, hopen⟩)

end World

namespace Workshop

variable {workshop : Workshop} {feed : Feed} {id : HandleId} {pending : List LineEvent}

/-- The numbers of the files that were lent past the library and may still be open. -/
def outside (workshop : Workshop) : List FileId := (workshop.lent ++ workshop.returned).map (·.2)

/-- What a feed is told of by an act. -/
def reports (feed : Feed) (workshop : Workshop) (act : Act) : List LineEvent :=
  ((workshop.change? feed.index act).bind
    (feed.report? (workshop.world.bench.clock feed.index + Simulator.eventInterval))).toList

theorem reports_setLevel (index : Nat) (offset : Offset) (level : UInt8) :
    workshop.reports feed (.deed (.setLevel index offset level)) =
      workshop.world.bench.reports feed index offset level := by
  rw [reports, change?, Bench.reports]
  by_cases heq : index = feed.index
  · rw [if_pos heq, if_pos heq, heq]
  · rw [if_neg heq, if_neg heq, Option.bind_none]

/-- The events that an act returns, if it reads them through this handle. -/
def receives (id : HandleId) (workshop : Workshop) : Act → List LineEvent
  | .operation operation => operation.received id workshop.world
  | .deed _ => []

/-- Nothing is injected into the file of the line at this offset. -/
def Untampered (index : Nat) (offset : Offset) (_ : Workshop) : Act → Prop
  | .deed (.inject chip other _) => ¬ (chip = index ∧ other = offset)
  | _ => True

instance (index : Nat) (offset : Offset) (workshop : Workshop) :
    (act : Act) → Decidable (Untampered index offset workshop act)
  | .operation _ => instDecidableTrue
  | .deed (.inject chip other _) => inferInstanceAs (Decidable (¬ (chip = index ∧ other = offset)))
  | .deed (.addSimulator ..) | .deed (.addProbe ..) | .deed (.addFault ..) | .deed (.setAnswers _)
  | .deed (.control ..) | .deed (.setLevel ..) | .deed (.call ..) | .deed (.read ..)
  | .deed (.release ..) | .deed (.close ..) => instDecidableTrue

/-! ### One act -/

theorem trace_act (h : workshop.Sound) {act : Act} (hcan : workshop.Can act) :
    workshop.world.trace ⊆ (workshop.act act).world.trace := by
  cases act with
  | operation operation =>
      obtain ⟨-, made, htrace, -⟩ := h.follows hcan
      rw [htrace]
      exact List.subset_append_left _ _
  | deed deed =>
      obtain ⟨bench, more, log, hclient⟩ := (worked_work hcan).client_eq
      change _ ⊆ (workshop.work deed).client.world.trace
      rw [hclient]
      exact List.subset_append_left _ _

theorem mem_outside_release {device : Device} {file : FileId}
    (hown : (device, file) ∈ workshop.lent) {entry : Device × FileId}
    (h : entry ∈ (workshop.release device file).lent ++ (workshop.release device file).returned) :
    entry ∈ workshop.lent ++ workshop.returned := by
  rcases List.mem_append.mp h with hlent | hreturned
  · exact List.mem_append_left _ hlent
  · rcases List.mem_append.mp hreturned with hreturned | hnew
    · exact List.mem_append_right _ hreturned
    · rw [List.mem_singleton.mp hnew]
      exact List.mem_append_left _ hown

theorem mem_outside_close {device : Device} {file : FileId} {entry : Device × FileId}
    (h : entry ∈ (workshop.close device file).lent ++ (workshop.close device file).returned) :
    entry ∈ workshop.lent ++ workshop.returned := by
  rcases List.mem_append.mp h with hlent | hreturned
  · exact List.mem_append_left _ (List.mem_of_mem_erase hlent)
  · exact List.mem_append_right _ (List.mem_of_mem_erase hreturned)

theorem hears_call (h : workshop.Sound) {bytes : List UInt8} (device : Device) (call : Call)
    (hears : workshop.world.Hears feed id workshop.outside bytes) :
    (workshop.call device call).world.Hears feed id (workshop.call device call).outside bytes := by
  rcases hperform : workshop.world.perform device call with ⟨outcome, world⟩
  have hafter : workshop.call device call = { workshop.withWorld world with
      lent := workshop.lent ++ call.opens device outcome } := by
    rw [Workshop.call, hperform]
  have hhandles : world.handles = workshop.world.handles := by
    obtain ⟨bench, -, rfl⟩ := World.perform_bench hperform
    rfl
  rw [hafter]
  refine (hears.perform h.accord.bench hperform).withOthers fun hmem => ?_
  obtain ⟨entry, hentry, hfile⟩ := List.mem_map.mp hmem
  rcases List.mem_append.mp hentry with hlent | hreturned
  · rcases List.mem_append.mp hlent with hlent | hopened
    · exact Or.inl (hfile ▸ List.mem_map_of_mem (List.mem_append_left _ hlent))
    · -- a file that is opened now is not the one that is listened to
      refine Or.inr fun hwaiting => ?_
      obtain ⟨hunclaimed, hopen⟩ := hwaiting
      have hserves := hears.serves (hunclaimed.mono (World.trace_perform hperform)) (hhandles ▸ hopen)
      rcases World.opened_perform hperform hopened with hclaimed | ⟨hnext, -⟩
      · exact hclaimed (hfile ▸ hunclaimed)
      · exact Nat.ne_of_lt hserves.file_lt (hfile.symm.trans hnext)
  · exact Or.inl (hfile ▸ List.mem_map_of_mem (List.mem_append_right _ hreturned))

theorem hears_release (h : workshop.Sound) {bytes : List UInt8} {device : Device} {file : FileId}
    (hown : (device, file) ∈ workshop.lent)
    (hears : workshop.world.Hears feed id workshop.outside bytes) :
    (workshop.release device file).world.Hears feed id (workshop.release device file).outside
      bytes := by
  have hmem : file ∈ workshop.outside := List.mem_map_of_mem (List.mem_append_left _ hown)
  have hreleased : (workshop.release device file).world.Hears feed id workshop.outside bytes := by
    refine hears.step (List.subset_append_left _ _) le_rfl
      (fun _ handle hget => Or.inl ⟨handle, hget, rfl⟩) fun hunclaimed hopen _ hserves => ?_
    have hapart := hears.apart (hunclaimed.mono (List.subset_append_left _ _)) hopen
    exact hserves.releaseAt h.accord.bench (fun heq => hapart (heq ▸ hmem)) device
  refine hreleased.withOthers fun hfile => Or.inl ?_
  obtain ⟨entry, hentry, hsame⟩ := List.mem_map.mp hfile
  exact hsame ▸ List.mem_map_of_mem (mem_outside_release hown hentry)

theorem hears_close {bytes : List UInt8} {device : Device} {file : FileId}
    (hown : (device, file) ∈ workshop.returned)
    (hears : workshop.world.Hears feed id workshop.outside bytes) :
    (workshop.close device file).world.Hears feed id (workshop.close device file).outside bytes := by
  have hmem : file ∈ workshop.outside := List.mem_map_of_mem (List.mem_append_right _ hown)
  have hclosed : (workshop.close device file).world.Hears feed id workshop.outside bytes :=
    hears.withBench fun _ hapart hserves => hserves.closeFile fun heq => hapart (heq ▸ hmem)
  refine hclosed.withOthers fun hfile => Or.inl ?_
  obtain ⟨entry, hentry, hsame⟩ := List.mem_map.mp hfile
  exact hsame ▸ List.mem_map_of_mem (mem_outside_close hentry)

/-- A deed adds to the file what it reports, and takes nothing. -/
theorem hears_work (h : workshop.Sound) {bytes : List UInt8} {deed : Deed}
    (hcan : workshop.CanWork deed)
    (hrule : Untampered feed.index feed.offset workshop (.deed deed))
    (hears : workshop.world.Hears feed id workshop.outside bytes) :
    (workshop.work deed).world.Hears feed id (workshop.work deed).outside
      (bytes ++ (workshop.reports feed (.deed deed)).flatMap LineEvent.record) := by
  have hquiet : ∀ {deed : Deed}, workshop.change? feed.index (.deed deed) = none →
      (workshop.work deed).world.Hears feed id (workshop.work deed).outside bytes →
      (workshop.work deed).world.Hears feed id (workshop.work deed).outside
        (bytes ++ (workshop.reports feed (.deed deed)).flatMap LineEvent.record) := by
    intro deed hnone hafter
    rwa [reports, hnone, Option.bind_none, Option.toList_none, List.flatMap_nil, List.append_nil]
  cases deed with
  | addSimulator name lineCount =>
      exact hquiet rfl (hears.withBench fun _ _ hserves =>
        hserves.of_files_eq (Bench.beside_addSimulator ..) rfl)
  | addProbe =>
      exact hquiet rfl (hears.withBench fun _ _ hserves =>
        hserves.of_files_eq (.of_filesOnly ⟨rfl, rfl⟩) rfl)
  | addFault device fault =>
      refine hquiet rfl (hears.withBench fun _ _ hserves =>
        hserves.of_files_eq (.of_filesOnly (Bench.filesOnly_addFault ..)) ?_)
      cases device <;> rfl
  | setAnswers =>
      exact hquiet rfl (hears.withBench fun _ _ hserves =>
        hserves.of_files_eq (.of_filesOnly ⟨rfl, rfl⟩) rfl)
  | control =>
      exact hquiet rfl (hears.withBench fun _ _ hserves =>
        hserves.of_files_eq (Bench.beside_control ..) rfl)
  | setLevel index offset level =>
      rw [reports_setLevel]
      exact hears.withBench fun _ _ hserves => hserves.setLevel h.accord.bench index offset level
  | inject index offset injected =>
      exact hquiet rfl (hears.withBench fun _ _ hserves =>
        hserves.inject h.accord.bench hrule injected)
  | call device call => exact hquiet rfl (hears_call h device call hears)
  | read file limit =>
      have hmem : file ∈ workshop.outside := by
        obtain ⟨entry, hentry, hfile⟩ := List.mem_map.mp hcan
        exact hfile ▸ List.mem_map_of_mem (List.mem_append_left _ hentry)
      exact hquiet rfl (hears.withBench fun _ hapart hserves =>
        hserves.readOther (fun heq => hapart (heq ▸ hmem)) limit)
  | release => exact hquiet rfl (hears_release h hcan hears)
  | close => exact hquiet rfl (hears_close hcan hears)

/-- What is pending and what an act reports are what it returns and what is pending then. -/
theorem hears_act (h : workshop.Sound) {act : Act} (hcan : workshop.Can act)
    (hrule : Untampered feed.index feed.offset workshop act)
    (hunclaimed : Unclaimed feed.file workshop.world.trace)
    (hears : workshop.world.Hears feed id workshop.outside (pending.flatMap LineEvent.record)) :
    ∃ rest, pending ++ workshop.reports feed act = workshop.receives id act ++ rest ∧
      (workshop.act act).world.Hears feed id (workshop.act act).outside
        (rest.flatMap LineEvent.record) := by
  cases act with
  | operation operation =>
      obtain ⟨rest, hpending, hafter⟩ := hears.operation h.accord h.client.desk hunclaimed
        fun group hgroup => h.client.groups group (hcan.1 group hgroup)
      exact ⟨rest, (List.append_nil pending).trans hpending, hafter⟩
  | deed deed =>
      refine ⟨pending ++ workshop.reports feed (.deed deed), rfl, ?_⟩
      rw [List.flatMap_append]
      exact hears_work h hcan hrule hears

/-! ### Numbers that are not in use yet -/

theorem spares_call {device : Device} {call : Call}
    (hspares : workshop.world.Spares workshop.outside) :
    (workshop.call device call).world.Spares (workshop.call device call).outside := by
  rcases hperform : workshop.world.perform device call with ⟨outcome, world⟩
  have hafter : workshop.call device call = { workshop.withWorld world with
      lent := workshop.lent ++ call.opens device outcome } := by
    rw [Workshop.call, hperform]
  rw [hafter]
  refine (hspares.perform hperform).withOthers fun file hmem => ?_
  obtain ⟨entry, hentry, rfl⟩ := List.mem_map.mp hmem
  rcases List.mem_append.mp hentry with hlent | hreturned
  · rcases List.mem_append.mp hlent with hlent | hopened
    · exact Or.inl (List.mem_map_of_mem (List.mem_append_left _ hlent))
    · refine Or.inr fun hunclaimed => ?_
      rcases World.opened_perform hperform hopened with hclaimed | ⟨hnext, hlt⟩
      · exact absurd hunclaimed hclaimed
      · exact hnext.trans_lt hlt
  · exact Or.inl (List.mem_map_of_mem (List.mem_append_right _ hreturned))

theorem spares_work {deed : Deed} (hcan : workshop.CanWork deed)
    (hspares : workshop.world.Spares workshop.outside) :
    (workshop.work deed).world.Spares (workshop.work deed).outside := by
  have hfiles : ∀ {bench : Bench} {log : Array Notice}, bench.files = workshop.world.bench.files →
      World.Spares workshop.outside
        { workshop.world with machine := workshop.world.machine.withMachine bench, log } := by
    intro bench log hsame
    have htouches : workshop.world.bench.Touches (fun _ => False) bench := .of_files_eq hsame
    exact hspares.withBench htouches
  cases deed with
  | addSimulator | addProbe | setAnswers | control => exact hfiles rfl
  | addFault device fault => exact hfiles (by cases device <;> rfl)
  | setLevel index offset level =>
      obtain ⟨_, htouches⟩ := workshop.world.bench.touches_setLevel index offset level
      exact hspares.withBench htouches
  | inject index offset injected =>
      obtain ⟨_, htouches⟩ := workshop.world.bench.touches_inject index offset injected
      exact hspares.withBench htouches
  | call device call => exact spares_call hspares
  | read file limit => exact hspares.withBench (workshop.world.bench.touches_read file limit)
  | release device file =>
      have hreleased : (workshop.release device file).world.Spares workshop.outside :=
        hspares.touches (Bench.touches_releaseAt device file workshop.world.bench)
          (List.subset_append_left _ _) rfl
      refine hreleased.withOthers fun other hmem => Or.inl ?_
      obtain ⟨entry, hentry, rfl⟩ := List.mem_map.mp hmem
      exact List.mem_map_of_mem (mem_outside_release hcan hentry)
  | close device file =>
      have hclosed : (workshop.close device file).world.Spares workshop.outside :=
        hspares.withBench (workshop.world.bench.touches_closeFile file)
      refine hclosed.withOthers fun other hmem => Or.inl ?_
      obtain ⟨entry, hentry, rfl⟩ := List.mem_map.mp hmem
      exact List.mem_map_of_mem (mem_outside_close hentry)

theorem Reachable.spares {rule : Workshop → Act → Prop} (h : Reachable rule workshop) :
    workshop.world.Spares workshop.outside := by
  induction h with
  | start =>
      refine ⟨Table.fresh_empty, fun id handle hget => ?_, fun file hfile => ?_⟩
      · cases (hget : none = some handle)
      · cases hfile
  | @act workshop act before hcan _ ih =>
      cases act with
      | operation operation =>
          have hsound := before.sound
          have hdeals := operation.deals hsound.client.desk fun group hgroup =>
            hsound.client.groups group (hcan.1 group hgroup)
          exact hdeals.spares hsound.accord ih
      | deed deed => exact spares_work hcan ih

end Workshop

end GpioLines
