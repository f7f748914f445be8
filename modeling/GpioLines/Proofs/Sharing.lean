import GpioLines.Proofs.Deeds

/-!
# Sharing a simulated chip

Any number of chips can be opened on one simulated chip, and files can be requested from it past the
library. However they are mixed, a line of it is lent to one request at a time. What the chip keeps
of a request and what the library keeps of it agree, so the lines that two chips see at one offset
are never both requested.
-/

namespace GpioLines

/-- The line is a line of this simulated chip, directly or through probes. -/
def World.IsOver {σ : Type} (world : World σ) (line : Line) (index : Nat) : Prop :=
  ∃ device, world.board.device? line.chip = some device ∧ device.simulator? = some index

namespace Workshop

variable {workshop : Workshop}

theorem Sound.lent_once (h : workshop.Sound) {index : Nat} {sim : Simulator}
    (hsim : workshop.world.bench.simulators[index]? = some sim) {line : Line}
    (hover : workshop.world.IsOver line index) (hrequested : workshop.world.isRequested line = true) :
    ∃ id handle, workshop.world.ledger.Holds line id ∧
      workshop.world.handles.get? id = some handle ∧ handle.device.simulator? = some index ∧
      ∃ grant ∈ sim.grants, grant.file = handle.file ∧ line.offset ∈ grant.offsets := by
  obtain ⟨device, hdevice, hindex⟩ := hover
  obtain ⟨id, hholds⟩ := World.exists_holds hrequested
  obtain ⟨handle, hget, -, hlisted⟩ := h.client.desk.ledger.slot_open line id hholds
  have hhome := (h.accord.home line id hholds).2 handle hget
  obtain rfl := Option.mem_unique hdevice hhome
  obtain ⟨grant, hgrant, hbacked⟩ := h.accord.lending.backed id handle hget index hindex
  rw [Bench.grants_of_eq hsim] at hgrant
  exact ⟨id, handle, hholds, hget, hindex, grant, hgrant, hbacked.file, hbacked.offsets ▸ hlisted⟩

/-- What holds of a simulated chip of a workshop, and of the lines that chips have over it. -/
structure Shared (workshop : Workshop) (index : Nat) (sim : Simulator) : Prop where
  nodup : ∀ grant ∈ sim.grants, grant.offsets.Nodup
  in_range : ∀ grant ∈ sim.grants, ∀ offset ∈ grant.offsets, offset.toNat < sim.lines.size
  disjoint : sim.grants.Pairwise fun a b => a.offsets.Disjoint b.offsets
  held : ∀ grant ∈ sim.grants, ∀ offset ∈ grant.offsets,
    ∃ line, sim.line? offset = some line ∧ line.requested = true
  used : ∀ offset line, sim.line? offset = some line →
    (line.requested = true ↔ line.flags.used = true)
  unowned : ∀ offset line, sim.line? offset = some line → line.requested = false →
    line.consumer = none
  one_chip : ∀ a b : Line, a.chip ≠ b.chip → a.offset = b.offset → workshop.world.IsOver a index →
    workshop.world.IsOver b index →
    ¬ (workshop.world.isRequested a = true ∧ workshop.world.isRequested b = true)
  one_reader : ∀ offset edge, (sim.subscribers offset edge).length ≤ 1
  served : sim.grants.length + sim.released =
    (workshop.world.trace.map (Exchange.servedBy index)).sum

/-- **A simulated chip lends each line once**, whatever was done in the workshop. -/
theorem shared_of_reachable {rule : Workshop → Act → Prop} (h : Reachable rule workshop)
    {index : Nat} {sim : Simulator}
    (hsim : workshop.world.bench.simulators[index]? = some sim) : workshop.Shared index sim := by
  have hsound := h.sound
  have hexclusive := hsound.accord.bench.simulators index sim hsim
  refine
    { nodup := fun grant hgrant => hexclusive.nodup hgrant
      in_range := ?_
      disjoint := (List.nodup_flatMap.mp hexclusive.once).2
      held := hexclusive.held
      used := ?_
      unowned := fun offset line hline => (hexclusive.marked offset line hline).unowned
      one_chip := ?_
      one_reader := hexclusive.length_subscribers_le
      served := ?_ }
  · intro grant hgrant offset hoffset
    obtain ⟨line, hline, -⟩ := hexclusive.held grant hgrant offset hoffset
    exact (Array.getElem?_eq_some_iff.mp hline).1
  · intro offset line hline
    rw [(hexclusive.marked offset line hline).used]
  · rintro a b hchips hoffset hovera hoverb ⟨ha, hb⟩
    obtain ⟨ida, first, hholdsa, hgeta, hindexa, granta, hgranta, hfilea, hmema⟩ :=
      hsound.lent_once hsim hovera ha
    obtain ⟨idb, second, hholdsb, hgetb, hindexb, grantb, hgrantb, hfileb, hmemb⟩ :=
      hsound.lent_once hsim hoverb hb
    -- one grant covers the offset, and one handle has its file
    obtain rfl := hexclusive.grant_eq hgranta hgrantb hmema (hoffset ▸ hmemb)
    obtain rfl := hsound.accord.lending.distinct ida idb first second index hgeta hgetb hindexa
      hindexb (hfilea.symm.trans hfileb)
    exact hchips (hsound.client.desk.ledger.one_chip a b ida hholdsa hholdsb)
  · have hserved := hsound.accord.counted index
    rw [Bench.served, hsim] at hserved
    exact hserved

/-- Two chips over one simulated chip, one of them through a probe, a request of each, one that is
refused, and a file that is lent past the library and given back. -/
def neighbours : List Act :=
  let config : RequestConfig := { consumer := "neighbours", type := .output }
  let events : EventRequest :=
    { offset := 2, flags := { input := true }, edges := { rising := true }, consumer := "raw" }
  [.deed (.addSimulator "gpiochip0" 5), .deed (.addProbe (.simulator 0) none),
    .deed (.control 0 (.hog 4 "other")), .operation (.openChip (.simulator 0)),
    .operation (.openChip (.probe 0 (.simulator 0))), .operation (.getLines 0 [0, 1]),
    .operation (.getLines 1 [0]), .operation (.getLines 1 [3]),
    .operation (.onGroup (.request config none) ⟨[⟨0, 0⟩, ⟨0, 1⟩]⟩),
    .operation (.onGroup (.request config none) ⟨[⟨1, 0⟩]⟩),
    .operation (.onGroup (.request config none) ⟨[⟨1, 3⟩]⟩),
    .deed (.call (.simulator 0) (.requestEvent events)), .deed (.setLevel 0 2 1),
    .deed (.release (.simulator 0) 2), .deed (.close (.simulator 0) 2)]

theorem shared_neighbours : ∃ workshop : Workshop, ∃ sim : Simulator, Reachable Unruled workshop ∧
    workshop.world.bench.simulators[0]? = some sim ∧
    workshop.world.isRequested ⟨0, 0⟩ = true ∧ workshop.world.isRequested ⟨1, 3⟩ = true ∧
    workshop.world.isRequested ⟨1, 0⟩ = false ∧ (workshop.world.bench.grants 0).length = 2 ∧
    workshop.world.bench.served 0 = 3 ∧ workshop.Shared 0 sim := by
  have hreachable : Reachable Unruled (({} : Workshop).actAll neighbours) :=
    Reachable.start.actAll (by decide)
  have hpresent : ((({} : Workshop).actAll neighbours).world.bench.simulators[0]?).isSome := by decide
  obtain ⟨sim, hsim⟩ := Option.isSome_iff_exists.mp hpresent
  exact ⟨_, sim, hreachable, hsim, by decide, by decide, by decide, by decide, by decide,
    shared_of_reachable hreachable hsim⟩

end Workshop

end GpioLines
