import GpioLines.Proofs.Attention
import GpioLines.Proofs.Polarity
import GpioLines.Proofs.Subscribing

/-!
# Every listener has its socket

A handle of events over a simulated chip has a file that is open and connected for as long as the
handle is open, whoever reads it, watches it or injects bytes into it, and whatever is done with
other files. So a reader of such a handle finds bytes or waits for them; it never meets the end of
the file or a file that has gone.

This is kept deal by deal and deed by deed: what is known of one listener, whatever bytes it has to
read (`World.Hears`), is known of all of them at once.
-/

namespace GpioLines

/-! ### Any bytes at all -/

theorem Bench.Serves.inject_some {bench : Bench} {feed : Feed} {bytes : List UInt8}
    (h : bench.Serves feed bytes) (hexclusive : bench.Exclusive) (index : Nat) (offset : Offset)
    (injected : List UInt8) :
    ∃ more, (bench.inject index offset injected).2.Serves feed more := by
  have hbeside : bench.Beside (fun _ _ => False) (bench.inject index offset injected).2 :=
    .of_filesOnly (bench.filesOnly_inject index offset injected)
  unfold Bench.inject at hbeside ⊢
  split at hbeside
  · exact ⟨bytes, h⟩
  next sim hsim =>
  have htouches := bench.touches_deliver injected (.uninjected offset) (sim.eventFiles offset)
  by_cases hmem : feed.file ∈ sim.eventFiles offset
  · have hnodup : (sim.eventFiles offset).Nodup :=
      (hexclusive.simulators _ sim hsim).files.sublist (List.filter_sublist.map _)
    obtain ⟨opened, hopened, hsource⟩ := h.pending
    have hdelivered := Bench.get?_deliver h.fresh hnodup hmem hopened injected (.uninjected offset)
    refine ⟨bytes ++ injected, h.of_beside hbeside htouches ⟨_, hdelivered, ?_⟩⟩
    rw [OpenFile.deliver, hsource]
  · exact ⟨bytes, h.of_others hbeside htouches hmem⟩

namespace World.Hears

variable {world : World (Traced Bench)} {feed : Feed} {id : HandleId} {others : List FileId}
  {bytes : List UInt8}

theorem read_some (h : world.Hears feed id others bytes) (file : FileId) (size : Nat) :
    ∃ more, Hears feed id others more
      { world with machine := (Machine.read file size world.machine).2 } := by
  by_cases heq : file = feed.file
  · subst heq
    exact ⟨_, h.of_handles (List.Subset.refl _) rfl fun hserves => hserves.read size⟩
  · exact ⟨bytes, h.of_handles (List.Subset.refl _) rfl fun hserves => hserves.readOther heq size⟩

end World.Hears

/-- A deal reads a file or is one in which no file is read. -/
theorem Deal.seal {σ : Type} [Machine σ] {adds : Prop} {before after : Docket σ}
    (h : Deal adds before after) : @Deal σ (Machine.sealed σ) adds before after ∨
      ∃ file size, after.world =
        { before.world with machine := (Machine.read file size before.world.machine).2 } := by
  cases h with
  | read file size => exact Or.inr ⟨file, size, rfl⟩
  | pass keeps => exact Or.inl (@pass σ (.sealed σ) _ _ _ _ keeps)
  | openChip allowed device info =>
      exact Or.inl (@openChip σ (.sealed σ) _ allowed _ _ device info)
  | watch file => exact Or.inl (@watch σ (.sealed σ) _ _ _ file)
  | unwatch file => exact Or.inl (@unwatch σ (.sealed σ) _ _ _ file)
  | ask quiet addressed told => exact Or.inl (@ask σ (.sealed σ) _ _ _ _ _ _ _ quiet addressed told)
  | learn isOpen told => exact Or.inl (@learn σ (.sealed σ) _ _ _ _ _ _ _ isOpen told)
  | doubt isOpen told => exact Or.inl (@doubt σ (.sealed σ) _ _ _ _ _ _ _ isOpen told)
  | take onChip valid granted =>
      exact Or.inl (@take σ (.sealed σ) _ _ _ _ _ _ _ _ _ _ onChip valid granted)
  | listen isOpen granted => exact Or.inl (@listen σ (.sealed σ) _ _ _ _ _ _ _ _ isOpen granted)
  | attach found device kind => exact Or.inl (@attach σ (.sealed σ) _ _ _ _ _ _ found device kind)
  | drive found length bits driven =>
      exact Or.inl (@drive σ (.sealed σ) _ _ _ _ _ _ _ found length bits driven)
  | configure onChip covers length bits configured =>
      exact Or.inl (@configure σ (.sealed σ) _ _ _ _ _ _ _ _ _ _ _ onChip covers length bits
        configured)
  | close found => exact Or.inl (@close σ (.sealed σ) _ _ _ _ _ found)

theorem Deal.hears_some {adds : Prop} {before after : Docket (Traced Bench)}
    {lent : List (Device × FileId)} {others : List FileId} {feed : Feed} {id : HandleId}
    {bytes : List UInt8} (hdeal : Deal adds before after) (haccord : before.world.Accord lent)
    (h : before.world.Hears feed id others bytes) :
    ∃ more, after.world.Hears feed id others more := by
  rcases hdeal.seal with hsealed | ⟨file, size, hread⟩
  · have hunread : Unread adds before after := .single hsealed
    exact ⟨bytes, hunread.hears haccord h⟩
  · rw [hread]
    exact h.read_some file size

/-! ### All listeners -/

/-- Every events handle over a simulated chip is listened to. -/
def World.Wired (others : List FileId) (world : World (Traced Bench)) : Prop :=
  ∀ id handle, world.handles.get? id = some handle → handle.kind = .events →
    handle.device.simulator? ≠ none → Unclaimed handle.file world.trace →
    ∃ feed bytes, feed.file = handle.file ∧ world.Hears feed id others bytes

theorem Deal.wired {adds : Prop} {before after : Docket (Traced Bench)}
    {lent : List (Device × FileId)} {others : List FileId} (hdeal : Deal adds before after)
    (haccord : before.world.Accord lent) (hspares : before.world.Spares others)
    (h : before.world.Wired others) : after.world.Wired others := by
  intro id handle hget hkind hsim hunclaimed
  have hearlier := hunclaimed.mono hdeal.grows.2.subset
  -- a handle that was there is still listened to
  have hkept : ∀ old, before.world.handles.get? id = some old → handle.SameGrant old →
      ∃ feed bytes, feed.file = handle.file ∧ after.world.Hears feed id others bytes := by
    rintro old hold ⟨hsame, hdevice, hfile, -⟩
    obtain ⟨feed, bytes, hfeed, hears⟩ :=
      h id old hold (hsame ▸ hkind) (hdevice ▸ hsim) (hfile ▸ hearlier)
    obtain ⟨more, hmore⟩ := hdeal.hears_some haccord hears
    exact ⟨feed, more, hfeed.trans hfile.symm, hmore⟩
  cases hdeal with
  | pass hkeeps => exact hkept handle (hkeeps.handles ▸ hget) (.refl _)
  | openChip | read | watch | unwatch | attach => exact hkept handle hget (.refl _)
  | ask _ _ told | learn _ told | doubt _ told =>
      rw [← World.handles_of_perform told] at hkept
      exact hkept handle hget (.refl _)
  | take _ _ granted =>
      have hfresh := haccord.fresh
      rw [← World.handles_of_perform granted] at hfresh hkept
      replace hget := (Table.get?_add hfresh _ id).symm.trans hget
      split at hget
      · obtain rfl := Option.some.inj hget
        cases hkind
      · exact hkept handle hget (.refl _)
  | listen _ granted =>
      have hfresh := haccord.fresh
      have hhandles := World.handles_of_perform granted
      rw [← hhandles] at hfresh hkept
      replace hget := (Table.get?_add hfresh _ id).symm.trans hget
      split at hget
      · next hid =>
        obtain rfl := Option.some.inj hget
        obtain ⟨index, hindex⟩ := Option.ne_none_iff_exists'.mp hsim
        have hears := World.hears_listen haccord hspares hindex granted
        rw [← hhandles, ← hid] at hears
        exact ⟨_, [], rfl, hears⟩
      · exact hkept handle hget (.refl _)
  | drive _ _ _ told | configure _ _ _ _ told =>
      rw [← World.handles_of_perform told] at hkept
      replace hget := (Table.get?_modify ..).symm.trans hget
      split at hget
      · obtain ⟨old, hold, rfl⟩ := Option.map_eq_some_iff.mp hget
        exact hkept old hold ⟨rfl, rfl, rfl, rfl⟩
      · exact hkept handle hget (.refl _)
  | close hfound =>
      rw [World.closeHandle_eq hfound] at hget
      replace hget := (Table.get?_erase ..).symm.trans hget
      split at hget
      · cases hget
      · exact hkept handle hget (.refl _)

theorem Deals.wired {adds : Prop} {before after : Docket (Traced Bench)}
    {lent : List (Device × FileId)} {others : List FileId} (hdeals : Deals adds before after)
    (haccord : before.world.Accord lent) (hspares : before.world.Spares others)
    (h : before.world.Wired others) : after.world.Wired others := by
  induction hdeals with
  | refl => exact h
  | tail hdeals hdeal ih =>
      exact hdeal.wired (Deals.accord hdeals haccord) (Deals.spares hdeals haccord hspares) ih

namespace Workshop

variable {workshop : Workshop}

theorem hears_work_some (h : workshop.Sound) {feed : Feed} {id : HandleId} {bytes : List UInt8}
    {deed : Deed} (hcan : workshop.CanWork deed)
    (hears : workshop.world.Hears feed id workshop.outside bytes) :
    ∃ more, (workshop.work deed).world.Hears feed id (workshop.work deed).outside more := by
  by_cases hrule : Untampered feed.index feed.offset workshop (.deed deed)
  · exact ⟨_, hears_work h hcan hrule hears⟩
  · cases deed with
    | inject index offset injected =>
        by_cases hserves : workshop.world.bench.Serves feed bytes
        · obtain ⟨more, hmore⟩ := hserves.inject_some h.accord.bench index offset injected
          exact ⟨more, hears.withBench fun _ _ _ => hmore⟩
        · exact ⟨bytes, hears.withBench fun _ _ hserved => absurd hserved hserves⟩
    | addSimulator | addProbe | addFault | setAnswers | control | setLevel | call | read | release
    | close => exact absurd trivial hrule

theorem wired_work (h : workshop.Sound) {deed : Deed} (hcan : workshop.CanWork deed)
    (hwired : workshop.world.Wired workshop.outside) :
    (workshop.work deed).world.Wired (workshop.work deed).outside := by
  intro id handle hget hkind hsim hunclaimed
  have hact : workshop.Can (.deed deed) := hcan
  have hearlier := hunclaimed.mono (trace_act h hact)
  have hsame : workshop.world.handles.get? id = some handle := by
    obtain ⟨bench, more, log, hclient⟩ := (worked_work hcan).client_eq
    rw [world, hclient] at hget
    exact hget
  obtain ⟨feed, bytes, hfile, hears⟩ := hwired id handle hsame hkind hsim hearlier
  obtain ⟨more, hmore⟩ := hears_work_some h hcan hears
  exact ⟨feed, more, hfile, hmore⟩

theorem Reachable.wired {rule : Workshop → Act → Prop} (h : Reachable rule workshop) :
    workshop.world.Wired workshop.outside := by
  induction h with
  | start => exact fun id handle hget => by cases (hget : none = some handle)
  | @act workshop act before hcan _ ih =>
      cases act with
      | operation operation =>
          have hsound := before.sound
          have hdeals := operation.deals hsound.client.desk fun group hgroup =>
            hsound.client.groups group (hcan.1 group hgroup)
          exact hdeals.wired hsound.accord before.spares ih
      | deed deed => exact wired_work before.sound hcan ih

/-- **A listener over a simulated chip has an open socket**, with some bytes to read or none. -/
theorem Reachable.socket {rule : Workshop → Act → Prop} (h : Reachable rule workshop)
    {id : HandleId} {handle : Handle} (hget : workshop.world.handles.get? id = some handle)
    (hkind : handle.kind = .events) (hsim : handle.device.simulator? ≠ none)
    (hunclaimed : Unclaimed handle.file workshop.world.trace) :
    ∃ opened bytes, workshop.world.bench.files.get? handle.file = some opened ∧
      opened.source = .socket bytes true := by
  obtain ⟨feed, bytes, hfile, hears⟩ := h.wired id handle hget hkind hsim hunclaimed
  rw [← hfile] at hunclaimed ⊢
  obtain ⟨opened, hopened, hsource⟩ :=
    (hears.serves hunclaimed (Option.isSome_of_eq_some hget)).pending
  exact ⟨opened, bytes, hopened, hsource⟩

end Workshop

end GpioLines
