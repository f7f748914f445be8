import GpioLines.Proofs.Descriptors
import GpioLines.Proofs.Indexing

/-!
# Whatever is looked up is there

What has been said of simulated chips, of groups and of the tables of chips holds in every state that
a workshop can come to, whatever probes there are in between and whichever calls they fail. The tables
are kept beside the world from the start. An operation that looked for a line where the table of its
chip has none would leave no tables behind, and there are some after every run.
-/

namespace GpioLines

/-- A read does not find more than it has room for. -/
theorem Bench.length_le_of_read {bench : Bench} {file : FileId} {limit : Nat} {bytes : List UInt8}
    (h : (bench.read file limit).1 = .bytes bytes) : bytes.length ≤ limit := by
  unfold read at h
  split at h
  · cases h
  · next opened _ =>
    change (opened.read limit).1 = .bytes bytes at h
    unfold OpenFile.read at h
    split at h
    · split at h
      · split at h <;> cases h
      · obtain rfl := ReadOutcome.bytes.inj h
        exact List.length_take_le ..
    · obtain rfl := ReadOutcome.bytes.inj h
      exact Nat.zero_le limit
    · obtain rfl := ReadOutcome.bytes.inj h
      exact List.length_take_le ..
    · cases h

namespace Workshop

variable {rule : Workshop → Act → Prop} {workshop : Workshop}

/-! ### The tables of the chips -/

/-- The tables after all that was done in a workshop. -/
inductive Tabled : Workshop → Registry (Traced Bench) → Prop
  | start : Tabled {} (.start { machine := {} })
  | operation {workshop : Workshop} {registry after : Registry (Traced Bench)}
      {operation : Operation} (before : Tabled workshop registry)
      (served : registry.serve operation = some after) :
      Tabled (workshop.act (.operation operation)) after
  | deed {workshop : Workshop} {registry : Registry (Traced Bench)} {deed : Deed}
      (before : Tabled workshop registry) :
      Tabled (workshop.act (.deed deed)) (registry.follow (workshop.act (.deed deed)).world)

/-- What is done beside the library leaves its chips alone. -/
theorem chips_work (workshop : Workshop) (deed : Deed) :
    (workshop.work deed).world.chips = workshop.world.chips := by
  cases deed <;> rfl

theorem Reachable.tabled (h : Reachable rule workshop) :
    ∃ registry, Tabled workshop registry ∧ registry.Sound ∧ registry.world = workshop.world := by
  induction h with
  | start => exact ⟨_, .start, Registry.sound_start _, rfl⟩
  | @act workshop act hbefore _ _ ih =>
      obtain ⟨registry, htabled, hsound, hworld⟩ := ih
      cases act with
      | operation operation =>
          obtain ⟨after, hserve, hleads⟩ := hsound.serve operation
          rw [hworld] at hleads
          exact ⟨after, .operation htabled hserve, hleads.sound, hleads.world_eq⟩
      | deed deed =>
          have hlast : registry.world.ChipsLast (workshop.work deed).world := by
            rw [hworld]
            exact .of_chips_eq (workshop.chips_work deed)
          exact ⟨_, .deed htabled, (hsound.follow hlast).sound, rfl⟩

/-- No operation looks for a line where its chip has none, and it is found as in the world. -/
structure TablesServe (workshop : Workshop) (registry : Registry (Traced Bench)) : Prop where
  tabled : Tabled workshop registry
  operations : ∀ operation, ∃ after, registry.serve operation = some after ∧
    after.world = (operation.run workshop.world).2
  lines : ∀ id offset, ∃ outcome after, registry.getLine id offset = some (outcome, after) ∧
    outcome.map (·.line) = (workshop.world.getLine id offset).1
  known : ∀ line, workshop.client.Knows line → workshop.world.isValid line = true →
    ∃ cell, registry.cell? line = some cell

theorem tablesServe (h : Reachable rule workshop) :
    ∃ registry, workshop.TablesServe registry := by
  obtain ⟨registry, htabled, hsound, hworld⟩ := h.tabled
  refine ⟨registry, htabled, fun operation => ?_, fun id offset => ?_, fun line hknows hvalid => ?_⟩
  · obtain ⟨after, hserve, hleads⟩ := hsound.serve operation
    exact ⟨after, hserve, hworld ▸ hleads.world_eq⟩
  · obtain ⟨outcome, after, hget, hline, -⟩ := hsound.getLine id offset
    exact ⟨outcome, after, hget, hworld ▸ hline⟩
  · obtain ⟨count, hcount, hlt⟩ := h.sited.known line hknows
    obtain ⟨chip, hopen⟩ := World.isValid_iff.mp hvalid
    obtain rfl := Option.some.inj ((World.lineCount?_of_openChip hopen).symm.trans hcount)
    rw [← hworld] at hopen
    obtain ⟨cell, hcell⟩ := hsound.exists_cell? hopen hlt
    exact ⟨cell, hcell⟩

/-! ### Every state of a workshop -/

/-- Nothing is looked up in vain, by the library or by a simulated chip. -/
structure Whole (workshop : Workshop) : Prop where
  tables : ∃ registry, workshop.TablesServe registry
  library : workshop.world.Indexed
  /-- The lines of a group are of one chip, and each is part of its request. -/
  groups : ∀ group ∈ workshop.client.groups, ∀ (operation : GroupOperation) error,
    (operation.run group workshop.world).1 = .error error → error.Coherent
  singles : ∀ line, ∀ (operation : GroupOperation) error,
    (operation.run (.single line) workshop.world).1 = .error error → error.Coherent
  simulators : ∀ (index : Nat) (sim : Simulator),
    workshop.world.bench.simulators[index]? = some sim → sim.Whole
  /-- The chip has a grant of every file that the library has a handle of, -/
  handles : ∀ id handle index, workshop.world.handles.get? id = some handle →
    handle.device.simulator? = some index → ∃ sim grant,
      workshop.world.bench.simulators[index]? = some sim ∧ sim.grant? handle.file = some grant
  /-- and at each step of an operation the chips find what they look up and know every file. -/
  operations : ∀ operation, workshop.Can (.operation operation) →
    workshop.world.Serves (workshop.act (.operation operation)).world

/-- **Whatever is looked up is there**, in every state and at every step of an operation. -/
theorem whole_of_reachable (h : Reachable rule workshop) : workshop.Whole where
  tables := tablesServe h
  library := World.indexed h.sound.client.desk.ledger fun _ _ _ => Bench.length_le_of_read
  groups := fun group hgroup =>
    World.coheres_run (h.sound.client.groups group hgroup) h.sound.client.desk.ledger
  singles := fun line => World.coheres_run (Group.wellFormed_single line) h.sound.client.desk.ledger
  simulators := fun index sim hsim =>
    (h.sound.accord.bench.simulators index sim hsim).whole (h.filled index sim hsim)
  handles := fun _ _ _ hget hindex => h.sound.accord.grant? hget hindex
  operations := fun operation hcan => by
    have hdeals := operation.deals h.sound.client.desk fun group hgroup =>
      h.sound.client.groups group (hcan.1 group hgroup)
    exact hdeals.serves h.sound.accord h.filled

/-- Four lines beneath a probe that reports six and fails the second read. Two lines are requested for
values, one for events and one past the library. -/
def probing : List Act :=
  let device : Device := .probe 0 (.simulator 0)
  let config (type : RequestType) : RequestConfig := { consumer := "probing", type }
  [.deed (.addSimulator "gpiochip0" 4), .deed (.addProbe (.simulator 0) (some 6)),
    .deed (.addFault device ⟨.getValues, 1, .ioFailure⟩),
    .deed (.call (.simulator 0) (.requestLines ⟨[3], { input := true }, [0], "other"⟩))] ++
  ([.openChip device, .getLines 0 [0, 2], .getLines 0 [1], .getLine 0 5,
    .onGroup (.request (config .output) (some [1, 0])) ⟨[⟨0, 0⟩, ⟨0, 2⟩]⟩,
    .onGroup (.request (config .eventBoth) none) ⟨[⟨0, 1⟩]⟩,
    .onGroup .getValues ⟨[⟨0, 0⟩, ⟨0, 2⟩]⟩, .onGroup .getValues ⟨[⟨0, 0⟩, ⟨0, 2⟩]⟩].map Act.operation) ++
  [.deed (.setLevel 0 1 1)]

/-- What the probe makes up does no harm: the table has two lines more than the chip, and a read has
failed. The lines are as many as their grants say, and one event is waiting. -/
theorem whole_probing :
    ∃ workshop : Workshop, ∃ sim, Reachable Unruled workshop ∧ workshop.Whole ∧
      workshop.world.chips.map (·.lineCount) = [6] ∧
      workshop.world.bench.simulators[0]? = some sim ∧
      sim.lines.size = 4 ∧ sim.grants.map (·.offsets) = [[3], [0, 2], [1]] ∧
      workshop.Can (.operation (.readEvents ⟨0, 1⟩ (2 ^ 64 - 1))) := by
  have hreachable : Reachable Unruled (({} : Workshop).actAll probing) :=
    Reachable.start.actAll (by decide)
  exact ⟨_, _, hreachable, whole_of_reachable hreachable, by decide, rfl, by decide, by decide,
    by decide⟩

end Workshop

end GpioLines
