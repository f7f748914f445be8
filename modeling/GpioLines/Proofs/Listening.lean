import GpioLines.Proofs.Feed
import GpioLines.Proofs.Sealed

/-!
# A handle that listens

The library keeps the number of a file in a handle and leaves the file to the machine. What is in the
file of an events handle is up to nobody but the chip and the readers of that handle, because nobody
else has the number: a simulated chip numbers each file anew. A scripted kernel gives whatever number
its script says, so it is assumed of the others only that they do not give the number that the chip
gave.
-/

namespace GpioLines

def Exchange.opens : Exchange → List (Device × FileId)
  | .call device asked outcome => asked.opens device outcome
  | .release .. => []

/-- No device but a simulated chip has given a file this number. -/
def Unclaimed (file : FileId) (trace : List Exchange) : Prop :=
  ∀ exchange ∈ trace, ∀ entry ∈ exchange.opens, entry.2 = file → entry.1.simulator? ≠ none

instance (file : FileId) (trace : List Exchange) : Decidable (Unclaimed file trace) :=
  inferInstanceAs (Decidable (∀ exchange ∈ trace, ∀ entry ∈ exchange.opens, _ → _))

theorem Unclaimed.mono {file : FileId} {earlier trace : List Exchange} (h : Unclaimed file trace)
    (hsubset : earlier ⊆ trace) : Unclaimed file earlier :=
  fun exchange hexchange => h exchange (hsubset hexchange)

namespace World

variable {world after : World (Traced Bench)} {lent : List (Device × FileId)} {others : List FileId}
  {feed : Feed} {id : HandleId} {bytes more : List UInt8}

/-- A file that is opened has a new number, unless a device without a simulated chip gave it. -/
theorem opened_perform {device : Device} {call : Call} {outcome : Outcome call}
    (h : world.perform device call = (outcome, after)) {entry : Device × FileId}
    (hentry : entry ∈ call.opens device outcome) : ¬ Unclaimed entry.2 after.trace ∨
      entry.2 = world.bench.files.next ∧ world.bench.files.next < after.bench.files.next := by
  obtain ⟨bench, hbench, rfl⟩ := perform_bench h
  rcases Workshop.opens_perform hbench with hnone | ⟨file, hopened, hnew⟩
  · rw [hnone] at hentry
    cases hentry
  · rw [hopened] at hentry
    obtain rfl := List.mem_singleton.mp hentry
    cases hdevice : device.simulator? with
    | none =>
        refine Or.inl fun hunclaimed => ?_
        refine hunclaimed (.call device call outcome) ?_ (device, file) ?_ rfl hdevice
        · exact List.mem_append_right _ (List.mem_singleton_self _)
        · rw [Exchange.opens, hopened]
          exact List.mem_singleton_self _
    | some index => exact Or.inr (hnew index hdevice)

theorem trace_perform {device : Device} {call : Call} {outcome : Outcome call}
    (h : world.perform device call = (outcome, after)) : world.trace ⊆ after.trace := by
  obtain ⟨bench, -, rfl⟩ := perform_bench h
  exact List.subset_append_left _ _

/-! ### Numbers that are not in use yet -/

/-- Neither a handle nor anybody else has a number that is still to be given. -/
structure Spares (others : List FileId) (world : World (Traced Bench)) : Prop where
  fresh : world.bench.files.Fresh
  unused : ∀ id handle, world.handles.get? id = some handle →
    Unclaimed handle.file world.trace → handle.file < world.bench.files.next
  gone : ∀ file ∈ others, Unclaimed file world.trace → file < world.bench.files.next

namespace Spares

/-- Every handle was there, or is of a file that is new or was claimed. -/
theorem step (h : world.Spares others) (hfresh : after.bench.files.Fresh)
    (hnext : world.bench.files.next ≤ after.bench.files.next) (htrace : world.trace ⊆ after.trace)
    (hhandles : ∀ id handle, after.handles.get? id = some handle →
      (∃ key old, world.handles.get? key = some old ∧ old.file = handle.file) ∨
        (Unclaimed handle.file after.trace → handle.file < after.bench.files.next)) :
    after.Spares others where
  fresh := hfresh
  unused := by
    intro id handle hget hunclaimed
    rcases hhandles id handle hget with ⟨key, old, hold, hfile⟩ | hnew
    · rw [← hfile] at hunclaimed ⊢
      exact (h.unused key old hold (Unclaimed.mono hunclaimed htrace)).trans_le hnext
    · exact hnew hunclaimed
  gone := fun file hfile hunclaimed =>
    (h.gone file hfile (Unclaimed.mono hunclaimed htrace)).trans_le hnext

theorem of_machine (h : world.Spares others) (hfresh : after.bench.files.Fresh)
    (hnext : world.bench.files.next ≤ after.bench.files.next) (htrace : world.trace ⊆ after.trace)
    (hhandles : after.handles = world.handles) : after.Spares others :=
  h.step hfresh hnext htrace fun id handle hget => Or.inl ⟨id, handle, hhandles ▸ hget, rfl⟩

theorem touches (h : world.Spares others) {touched : FileId → Prop}
    (hfiles : world.bench.Touches touched after.bench) (htrace : world.trace ⊆ after.trace)
    (hhandles : after.handles = world.handles) : after.Spares others :=
  h.of_machine (hfiles.fresh h.fresh) hfiles.next htrace hhandles

theorem perform (h : world.Spares others) {device : Device} {call : Call} {outcome : Outcome call}
    (hperform : world.perform device call = (outcome, after)) : after.Spares others := by
  obtain ⟨bench, hbench, hafter⟩ := perform_bench hperform
  refine h.touches (?_ : world.bench.Touches (fun _ => False) after.bench) (trace_perform hperform) ?_
  · rw [hafter]
    exact Bench.touches_perform hbench
  · rw [hafter]

theorem openHandle (h : world.Spares others) (hfresh : world.handles.Fresh) {device : Device}
    {call : Call} {outcome : Outcome call} (hperform : world.perform device call = (outcome, after))
    {handle : Handle} (hopened : (device, handle.file) ∈ call.opens device outcome) :
    (after.openHandle handle).Spares others := by
  have hafter := h.perform hperform
  have hhandles : after.handles = world.handles := by
    obtain ⟨bench, -, rfl⟩ := perform_bench hperform
    rfl
  refine hafter.step hafter.fresh le_rfl (List.Subset.refl _) ?_
  intro id found hget
  change (after.handles.add handle).get? id = some found at hget
  rw [Table.get?_add (hhandles ▸ hfresh)] at hget
  split at hget
  · obtain rfl := Option.some.inj hget
    refine Or.inr fun hunclaimed => ?_
    rcases opened_perform hperform hopened with hclaimed | ⟨hfile, hlt⟩
    · exact absurd hunclaimed hclaimed
    · exact hfile.trans_lt hlt
  · exact Or.inl ⟨id, found, hget, rfl⟩

theorem modifyHandle (h : world.Spares others) (id : HandleId) {f : Handle → Handle}
    (hf : ∀ handle, (f handle).file = handle.file) :
    Spares others { world with handles := world.handles.modify id f } := by
  refine h.step h.fresh le_rfl
    (List.Subset.refl _) fun key handle hget => Or.inl ⟨key, ?_⟩
  change (world.handles.modify id f).get? key = some handle at hget
  rw [Table.get?_modify] at hget
  split at hget
  · obtain ⟨old, hold, rfl⟩ := Option.map_eq_some_iff.mp hget
    exact ⟨old, hold, (hf old).symm⟩
  · exact ⟨handle, hget, rfl⟩

theorem close (h : world.Spares others) {id : HandleId} {handle : Handle}
    (hget : world.handles.get? id = some handle) : (world.closeHandle id).Spares others := by
  have hreleased := Bench.touches_releaseAt handle.device handle.file world.bench
  have hclosed := (Bench.releaseAt handle.device handle.file world.bench).touches_closeFile handle.file
  rw [closeHandle_eq hget]
  refine h.step (hclosed.fresh (hreleased.fresh h.fresh)) (hreleased.next.trans hclosed.next)
    (List.subset_append_left _ _) fun key found hfound => Or.inl ⟨key, found, ?_, rfl⟩
  change (world.handles.erase id).get? key = some found at hfound
  rw [Table.get?_erase] at hfound
  split at hfound
  · cases hfound
  · exact hfound

end Spares

end World

theorem Deal.spares {adds : Prop} {before after : Docket (Traced Bench)}
    {lent : List (Device × FileId)} {others : List FileId} (hdeal : Deal adds before after)
    (haccord : before.world.Accord lent) (h : before.world.Spares others) :
    after.world.Spares others := by
  cases hdeal with
  | @pass before after _ hkeeps =>
      have hbench : after.bench = before.bench := congrArg Traced.machine hkeeps.machine
      have htrace : after.trace = before.trace := congrArg Traced.trace hkeeps.machine
      exact h.of_machine (hbench ▸ h.fresh) (hbench ▸ le_rfl) (htrace ▸ List.Subset.refl _)
        hkeeps.handles
  | openChip | attach => exact h.of_machine h.fresh le_rfl (List.Subset.refl _) rfl
  | @read world _ file size =>
      exact h.touches (world.bench.touches_read file size) (List.Subset.refl _) rfl
  | @watch world _ file => exact h.touches (world.bench.touches_watch file) (List.Subset.refl _) rfl
  | @unwatch world _ file =>
      exact h.touches (world.bench.touches_modifyFile file _) (List.Subset.refl _) rfl
  | ask _ _ htold => exact h.perform htold
  | @learn _ after _ line _ info _ htold | @doubt _ after _ line _ error _ htold =>
      have hafter := h.perform htold
      exact hafter.of_machine hafter.fresh le_rfl (List.Subset.refl _) rfl
  | take _ _ hgranted => exact h.openHandle haccord.fresh hgranted (List.mem_singleton_self _)
  | listen _ hgranted => exact h.openHandle haccord.fresh hgranted (List.mem_singleton_self _)
  | drive _ _ _ hdriven => exact (h.perform hdriven).modifyHandle _ fun _ => rfl
  | configure _ _ _ _ hconfigured => exact (h.perform hconfigured).modifyHandle _ fun _ => rfl
  | close hfound => exact h.close hfound

theorem Deals.spares {adds : Prop} {before after : Docket (Traced Bench)}
    {lent : List (Device × FileId)} {others : List FileId} (hdeals : Deals adds before after)
    (haccord : before.world.Accord lent) (h : before.world.Spares others) :
    after.world.Spares others := by
  induction hdeals with
  | refl => exact h
  | tail hdeals hdeal ih => exact hdeal.spares (Deals.accord hdeals haccord) ih

/-! ### A file that is listened to -/

namespace World

variable {world after : World (Traced Bench)} {lent : List (Device × FileId)} {others : List FileId}
  {feed : Feed} {id : HandleId} {bytes more : List UInt8}

/-- As long as the handle is open its file holds these bytes, and nobody else has the number. -/
structure Hears (feed : Feed) (id : HandleId) (others : List FileId) (bytes : List UInt8)
    (world : World (Traced Bench)) : Prop where
  born : id < world.handles.next
  file : ∀ handle, world.handles.get? id = some handle → handle.file = feed.file
  serves : Unclaimed feed.file world.trace → (world.handles.get? id).isSome →
    world.bench.Serves feed bytes
  sole : Unclaimed feed.file world.trace → (world.handles.get? id).isSome →
    ∀ key handle, world.handles.get? key = some handle → handle.file = feed.file → key = id
  apart : Unclaimed feed.file world.trace → (world.handles.get? id).isSome → feed.file ∉ others

namespace Hears

theorem step (h : world.Hears feed id others bytes) (htrace : world.trace ⊆ after.trace)
    (hnext : world.handles.next ≤ after.handles.next)
    (hhandles : ∀ key handle, after.handles.get? key = some handle →
      (∃ old, world.handles.get? key = some old ∧ old.file = handle.file) ∨
        key = world.handles.next ∧ (Unclaimed feed.file after.trace →
          feed.file < world.bench.files.next → handle.file ≠ feed.file))
    (hserves : Unclaimed feed.file after.trace → (after.handles.get? id).isSome →
      (∀ key handle, world.handles.get? key = some handle → handle.file = feed.file → key = id) →
      world.bench.Serves feed bytes → after.bench.Serves feed more) : after.Hears feed id others more := by
  -- a handle that is open was open before, since its number was given before
  have hold : ∀ handle, after.handles.get? id = some handle →
      ∃ old, world.handles.get? id = some old ∧ old.file = handle.file := by
    intro handle hget
    refine (hhandles id handle hget).resolve_right fun hnew => ?_
    exact absurd h.born (Nat.not_lt.mpr hnew.1.ge)
  have hopen : (after.handles.get? id).isSome → (world.handles.get? id).isSome := by
    intro hsome
    obtain ⟨handle, hget⟩ := Option.isSome_iff_exists.mp hsome
    obtain ⟨old, hget, -⟩ := hold handle hget
    exact Option.isSome_of_eq_some hget
  refine ⟨h.born.trans_le hnext, ?_, ?_, ?_, ?_⟩
  · intro handle hget
    obtain ⟨old, hget, hfile⟩ := hold handle hget
    exact hfile.symm.trans (h.file old hget)
  · intro hunclaimed hsome
    have hearlier := hunclaimed.mono htrace
    exact hserves hunclaimed hsome (h.sole hearlier (hopen hsome)) (h.serves hearlier (hopen hsome))
  · intro hunclaimed hsome key handle hget hfile
    have hearlier := hunclaimed.mono htrace
    rcases hhandles key handle hget with ⟨old, hold, hsame⟩ | ⟨-, hnew⟩
    · exact h.sole hearlier (hopen hsome) key old hold (hsame.trans hfile)
    · exact absurd hfile (hnew hunclaimed (h.serves hearlier (hopen hsome)).file_lt)
  · exact fun hunclaimed hsome => h.apart (hunclaimed.mono htrace) (hopen hsome)

/-- The handles are as they were. -/
theorem of_handles (h : world.Hears feed id others bytes) (htrace : world.trace ⊆ after.trace)
    (hhandles : after.handles = world.handles)
    (hserves : world.bench.Serves feed bytes → after.bench.Serves feed more) :
    after.Hears feed id others more :=
  h.step htrace (hhandles ▸ le_rfl) (fun _ handle hget => Or.inl ⟨handle, hhandles ▸ hget, rfl⟩)
    fun _ _ _ => hserves

theorem of_machine_eq (h : world.Hears feed id others bytes) (hmachine : after.machine = world.machine)
    (hhandles : after.handles = world.handles) : after.Hears feed id others bytes := by
  have hbench : after.bench = world.bench := congrArg Traced.machine hmachine
  have htrace : after.trace = world.trace := congrArg Traced.trace hmachine
  exact h.of_handles (htrace ▸ List.Subset.refl _) hhandles fun hserves => hbench ▸ hserves

theorem perform (h : world.Hears feed id others bytes) (hexclusive : world.bench.Exclusive)
    {device : Device} {call : Call} {outcome : Outcome call}
    (hperform : world.perform device call = (outcome, after)) : after.Hears feed id others bytes := by
  obtain ⟨bench, hbench, hafter⟩ := perform_bench hperform
  refine h.of_handles (trace_perform hperform) (by rw [hafter]) fun hserves => ?_
  rw [hafter]
  exact hserves.perform hexclusive hbench

theorem openHandle (h : world.Hears feed id others bytes) (hexclusive : world.bench.Exclusive)
    (hfresh : world.handles.Fresh) {device : Device} {call : Call} {outcome : Outcome call}
    (hperform : world.perform device call = (outcome, after)) {handle : Handle}
    (hopened : (device, handle.file) ∈ call.opens device outcome) :
    (after.openHandle handle).Hears feed id others bytes := by
  have htrace := trace_perform hperform
  obtain ⟨bench, hbench, hafter⟩ := perform_bench hperform
  have hhandles : after.handles = world.handles := by rw [hafter]
  refine h.step htrace ?_ (fun key found hget => ?_)
    fun _ _ _ hserves => ?_
  · exact hhandles ▸ Nat.le_succ _
  · change (after.handles.add handle).get? key = some found at hget
    rw [hhandles, Table.get?_add hfresh] at hget
    split at hget
    · next hkey =>
      obtain rfl := Option.some.inj hget
      refine Or.inr ⟨hkey, fun hunclaimed hlt heq => ?_⟩
      rcases opened_perform hperform hopened with hclaimed | ⟨hfile, -⟩
      · exact hclaimed (heq ▸ hunclaimed)
      · exact Nat.ne_of_lt hlt (heq.symm.trans hfile)
    · exact Or.inl ⟨found, hget, rfl⟩
  · change after.bench.Serves feed bytes
    rw [hafter]
    exact hserves.perform hexclusive hbench

theorem modifyHandle (h : world.Hears feed id others bytes) (key : HandleId) {f : Handle → Handle}
    (hf : ∀ handle, (f handle).file = handle.file) :
    Hears feed id others bytes { world with handles := world.handles.modify key f } := by
  refine h.step
    (List.Subset.refl _) le_rfl (fun other handle hget => Or.inl ?_) fun _ _ _ hserves => hserves
  change (world.handles.modify key f).get? other = some handle at hget
  rw [Table.get?_modify] at hget
  split at hget
  · obtain ⟨old, hold, rfl⟩ := Option.map_eq_some_iff.mp hget
    exact ⟨old, hold, (hf old).symm⟩
  · exact ⟨handle, hget, rfl⟩

theorem close (h : world.Hears feed id others bytes) (hexclusive : world.bench.Exclusive) {key : HandleId}
    {handle : Handle} (hget : world.handles.get? key = some handle) :
    (world.closeHandle key).Hears feed id others bytes := by
  have hhandles : (world.closeHandle key).handles = world.handles.erase key := by
    rw [closeHandle_eq hget]
  have hmachine : (world.closeHandle key).machine =
      Machine.release handle.device handle.file world.machine := by
    rw [closeHandle_eq hget]
  refine h.step ?_ (hhandles ▸ le_rfl) (fun other found hfound => Or.inl ?_)
    fun _ hopen hsole hserves => ?_
  · change world.trace ⊆ (world.closeHandle key).machine.trace
    rw [hmachine]
    exact List.subset_append_left _ _
  · rw [hhandles, Table.get?_erase] at hfound
    split at hfound
    · cases hfound
    · exact ⟨found, hfound, rfl⟩
  · have hother : handle.file ≠ feed.file := by
      intro hfile
      obtain rfl := hsole key handle hget hfile
      rw [hhandles, Table.get?_erase, if_pos rfl] at hopen
      cases hopen
    rw [bench, hmachine]
    exact (hserves.releaseAt hexclusive hother handle.device).closeFile hother

end Hears

end World

theorem Unread.hears {adds : Prop} {before after : Docket (Traced Bench)}
    {lent : List (Device × FileId)} {others : List FileId} {feed : Feed} {id : HandleId}
    {bytes : List UInt8} (hunread : Unread adds before after) (haccord : before.world.Accord lent)
    (h : before.world.Hears feed id others bytes) : after.world.Hears feed id others bytes := by
  induction hunread with
  | refl => exact h
  | @tail mid after hunread hdeal ih =>
      have haccord := Deals.accord (Unread.deals hunread) haccord
      have hexclusive := haccord.bench
      cases hdeal with
      | pass hkeeps => exact ih.of_machine_eq hkeeps.machine hkeeps.handles
      | openChip | read | attach => exact ih.of_machine_eq rfl rfl
      | watch file => exact ih.of_handles (List.Subset.refl _) rfl (·.watch file)
      | unwatch file => exact ih.of_handles (List.Subset.refl _) rfl (·.unwatch file)
      | ask _ _ htold => exact ih.perform hexclusive htold
      | learn _ htold | doubt _ htold => exact (ih.perform hexclusive htold).of_machine_eq rfl rfl
      | take _ _ hgranted =>
          exact ih.openHandle hexclusive haccord.fresh hgranted (List.mem_singleton_self _)
      | listen _ hgranted =>
          exact ih.openHandle hexclusive haccord.fresh hgranted (List.mem_singleton_self _)
      | drive _ _ _ hdriven => exact (ih.perform hexclusive hdriven).modifyHandle _ fun _ => rfl
      | configure _ _ _ _ hconfigured =>
          exact (ih.perform hexclusive hconfigured).modifyHandle _ fun _ => rfl
      | close hfound => exact ih.close hexclusive hfound

end GpioLines
