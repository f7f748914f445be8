import GpioLines.Proofs.Locality
import GpioLines.Proofs.Timekeeping

/-!
# Where the lines are

A client is given lines by their chips only, and a chip hands out no line that it does not have. How
many it has is settled when it is opened: the library keeps the number, and a simulated chip keeps its
lines. So as long as no probe has told another number, whatever line a client knows is a line of the
simulated chip beneath.
-/

namespace GpioLines

/-! ### Lines of their chips -/

namespace World

variable {σ : Type} {world after : World σ}

/-- The line is one that its chip has. -/
def Places (world : World σ) (line : Line) : Prop :=
  ∃ count, world.lineCount? line.chip = some count ∧ line.offset < count

/-- Every chip keeps the number of its lines. -/
def KeepsCounts (before after : World σ) : Prop :=
  ∀ id count, before.lineCount? id = some count → after.lineCount? id = some count

theorem Places.mono {line : Line} (h : world.Places line) (hkeeps : world.KeepsCounts after) :
    after.Places line :=
  h.imp fun count hcount => ⟨hkeeps _ count hcount.1, hcount.2⟩

theorem lineCount?_of_openChip {id : ChipId} {chip : Chip} (h : world.openChip id = .ok chip) :
    world.lineCount? id = some chip.lineCount := by
  rw [lineCount?, (openChip_eq_ok.mp h).1, Option.map_some]

theorem mem_append {group grown : Group} {line : Line} (h : world.append group line = .ok grown)
    {member : Line} (hmem : member ∈ grown.lines) : member ∈ group.lines ∨ member = line := by
  have hpush : ∀ other : Group, .ok (group.push line) = (.ok other : Except Error Group) →
      other = grown → member ∈ group.lines ∨ member = line := by
    rintro other hother rfl
    rw [← Except.ok.inj hother] at hmem
    exact (List.mem_append.mp hmem).imp_right List.mem_singleton.mp
  unfold append at h
  split at h
  · cases h
  · split at h
    · cases h
    · split at h
      · split at h
        · exact hpush grown h rfl
        · cases h
      · exact hpush grown h rfl

theorem subset_of_groupOf {lines : List Line} {group : Group}
    (h : world.groupOf lines = .ok group) : group.lines ⊆ lines := by
  refine @foldlM_keeps _ _ _ world.append (·.lines ⊆ lines) lines ?_ _ _ h (List.nil_subset lines)
  intro line hline old grown hgrown hold member hmember
  rcases mem_append hgrown hmember with hmember | rfl
  · exact hold hmember
  · exact hline

end World

section Deals

variable {σ : Type} [Machine σ] {adds : Prop}

/-- A chip that is opened comes after those there are. -/
theorem Deal.keepsCounts {before after : Docket σ} (hdeal : Deal adds before after) :
    before.world.KeepsCounts after.world := by
  have hsame : ∀ {world after : World σ}, after.lineCount? = world.lineCount? →
      world.KeepsCounts after := fun heq id count hcount => by rwa [heq]
  have hperform : ∀ {world after : World σ} {device : Device} {call : Call} {outcome : Outcome call},
      world.perform device call = (outcome, after) → after.lineCount? = world.lineCount? := by
    intro world after device call outcome htold
    obtain ⟨machine, -, rfl⟩ := World.perform_eq htold
    rfl
  cases hdeal with
  | pass hkeeps => exact hsame hkeeps.lineCount
  | openChip _ device info =>
      intro id count hcount
      obtain ⟨chip, hchip, rfl⟩ := Option.map_eq_some_iff.mp hcount
      have hlt := (List.getElem?_eq_some_iff.mp hchip).1
      exact Option.map_eq_some_iff.mpr ⟨chip, by rwa [List.getElem?_append_left hlt], rfl⟩
  | read | watch | unwatch => exact hsame rfl
  | ask _ _ htold => exact hsame (hperform htold)
  | learn _ htold | doubt _ htold =>
      exact hsame ((World.lineCount?_modifyLine ..).trans (hperform htold))
  | take _ _ htold | listen _ htold | drive _ _ _ htold | configure _ _ _ _ htold =>
      have hcounts := hperform htold
      exact hsame hcounts
  | attach => exact hsame (World.lineCount?_modifyLine ..)
  | close => exact hsame (World.lineCount?_of_chips_eq (World.chips_closeHandle ..))

theorem Deals.keepsCounts {before after : Docket σ} (hdeals : Deals adds before after) :
    before.world.KeepsCounts after.world := by
  induction hdeals with
  | refl => exact fun _ _ => id
  | tail _ hdeal ih => exact fun id count hcount => hdeal.keepsCounts id count (ih id count hcount)

/-! ### What a client is given -/

namespace World

variable {world after : World σ}

/-- A chip hands out lines that it has. -/
theorem places_getLine {id : ChipId} {offset : Offset} {line : Line}
    (h : world.getLine id offset = (.ok line, after)) : after.Places line := by
  have hdeals : Deals False ⟨world, ∅⟩ ⟨(world.getLine id offset).2, ∅⟩ := deals_getLine id offset
  have hkeeps := hdeals.keepsCounts
  rw [h] at hkeeps
  unfold getLine at h
  split at h
  · cases (Prod.mk.inj h).1
  · next chip hopen =>
    split at h
    · next hlt =>
      simp only at h
      split at h
      · cases (Prod.mk.inj h).1
      · obtain rfl := Except.ok.inj (Prod.mk.inj h).1
        exact ⟨chip.lineCount, hkeeps id _ (lineCount?_of_openChip hopen), hlt⟩
    · cases (Prod.mk.inj h).1

theorem places_getLinesInto {id : ChipId} {offsets : List Offset} {group grown : Group}
    (h : world.getLinesInto id group offsets = (.ok grown, after))
    (hgroup : ∀ line ∈ group.lines, world.Places line) :
    ∀ line ∈ grown.lines, after.Places line := by
  induction offsets generalizing world group with
  | nil =>
      obtain ⟨hgrown, rfl⟩ := Prod.mk.inj h
      obtain rfl := Except.ok.inj hgrown
      exact hgroup
  | cons offset rest ih =>
      have hdeals : Deals False ⟨world, ∅⟩ ⟨(world.getLine id offset).2, ∅⟩ :=
        deals_getLine id offset
      unfold getLinesInto at h
      split at h
      · cases (Prod.mk.inj h).1
      · next line mid hline =>
        rw [hline] at hdeals
        split at h
        · cases (Prod.mk.inj h).1
        · next happend =>
          refine ih h fun member hmember => ?_
          rcases mem_append happend hmember with hold | rfl
          · exact (hgroup member hold).mono hdeals.keepsCounts
          · exact places_getLine hline

end World

/-- An operation gives lines it was given itself, or lines of a chip. -/
theorem Operation.places_given {world : World σ} {operation : Operation}
    (hkeeps : world.KeepsCounts (operation.run world).2)
    (hgroups : ∀ group ∈ operation.groups, ∀ line ∈ group.lines, world.Places line)
    (hlines : ∀ line ∈ operation.lines, world.Places line) :
    ∀ group ∈ (operation.run world).1, ∀ line ∈ group.lines, (operation.run world).2.Places line := by
  intro group hmem
  cases operation with
  | openChip | closeChip | findLine | onGroup | release | refresh | readEvent | readEvents
  | openStream | nextEvent | dropStream | newToken | cancel => cases hmem
  | single line =>
      intro member hmember
      rw [List.mem_singleton.mp hmem] at hmember
      exact List.mem_singleton.mp hmember ▸ hlines line List.mem_cons_self
  | getLine chip offset =>
      obtain ⟨line, hline, rfl⟩ := List.mem_map.mp hmem
      intro member hmember
      rw [List.mem_singleton.mp hmember]
      exact World.places_getLine (Prod.ext (eq_ok_of_mem_toOption hline) rfl)
  | getLines chip offsets =>
      exact World.places_getLinesInto (Prod.ext (eq_ok_of_mem_toOption hmem) rfl) nofun
  | getAllLines chip =>
      exact World.places_getLinesInto (Prod.ext (eq_ok_of_mem_toOption hmem) rfl) nofun
  | gather lines =>
      exact fun member hmember =>
        hlines member (World.subset_of_groupOf (eq_ok_of_mem_toOption hmem) hmember)
  | append old line =>
      intro member hmember
      rcases World.mem_append (eq_ok_of_mem_toOption hmem) hmember with hold | rfl
      · exact hgroups old List.mem_cons_self member hold
      · exact hlines member List.mem_cons_self
  | wait old token timeout =>
      simp only [Operation.run] at hmem
      split at hmem
      · next ready hready =>
        rw [List.mem_singleton.mp hmem]
        exact fun member hmember => (hgroups old List.mem_cons_self member
          ((World.sublist_wait hready).subset hmember)).mono hkeeps
      · cases hmem

end Deals

/-! ### Simulated chips keep their lines -/

theorem Simulator.Replays.size {index : Nat} {exchanges : List Exchange} {sim after : Simulator}
    (h : Replays index exchanges sim after) : after.lines.size = sim.lines.size := by
  refine h.keeps (P := (·.lines.size = sim.lines.size)) (fun other _ fresh call _ hcall hsame => ?_)
    (fun other file hsame => (congrArg (·.2.1) (other.make_release file)).trans hsame) rfl
  have hmake := other.make_perform fresh call
  rw [hcall] at hmake
  exact (congrArg (·.2.1) hmake).trans hsame

namespace Bench

variable {bench after : Bench}

/-- How many lines a simulated chip has. -/
def size? (bench : Bench) (index : Nat) : Option Nat :=
  (bench.simulators[index]?).map (·.lines.size)

theorem Replayed.size? {exchanges : List Exchange} (h : Replayed exchanges bench after) :
    after.size? = bench.size? := by
  funext index
  cases hsim : bench.simulators[index]? with
  | none => rw [Bench.size?, Bench.size?, h.absent index hsim, hsim]
  | some sim =>
      obtain ⟨changed, hchanged, hreplays⟩ := h.present index sim hsim
      rw [Bench.size?, Bench.size?, hchanged, hsim, Option.map_some, Option.map_some, hreplays.size]

/-- A simulated chip reports how many lines it has. -/
theorem size?_of_chipInfo {index : Nat} {info : ChipInfo}
    (h : perform (.simulator index) .chipInfo bench = (.ok info, after))
    (hsized : ∀ size, bench.size? index = some size → size < UInt32.size) :
    bench.size? index = some info.lineCount.toNat := by
  simp only [perform, performSimulator] at h
  split at h
  · cases (Prod.mk.inj h).1
  · next sim hsim =>
    have hsize : bench.size? index = some sim.lines.size := by rw [size?, hsim, Option.map_some]
    obtain rfl := Except.ok.inj (Prod.mk.inj h).1
    rw [hsize, UInt32.toNat_ofNat_of_lt' (hsized _ hsize)]

theorem size?_congr (h : after.simulators = bench.simulators) : after.size? = bench.size? := by
  funext index
  rw [size?, size?, h]

theorem size?_control (bench : Bench) (index : Nat) (control : Control) :
    (bench.modifySimulator index control.apply).size? = bench.size? := by
  have hsize : ∀ sim : Simulator, (control.apply sim).lines.size = sim.lines.size := by
    intro sim
    cases control with
    | failInfo => rfl
    | setName | hog | failInfoAt => exact Array.size_modify
  funext other
  exact map_simulators_of_modify (bench.simulators_modifySimulator index control.apply) fun _ => hsize

theorem size?_setLevel (bench : Bench) (index : Nat) (offset : Offset) (level : UInt8) :
    (bench.setLevel index offset level).2.size? = bench.size? := by
  have hsize : ∀ sim : Simulator,
      (sim.setLevel offset (isActive level)).2.lines.size = sim.lines.size := by
    intro sim
    obtain ⟨clock, heq | heq⟩ := sim.setLevel_eq offset (isActive level)
    · rw [heq]
      exact Array.size_modify
    · rw [heq]
  funext other
  exact map_simulators_of_modify (bench.simulators_setLevel index offset level) fun _ => hsize

theorem size?_addSimulator (name : String) (lineCount : UInt32) {index size : Nat}
    (h : (bench.addSimulator name lineCount).2.size? index = some size) :
    bench.size? index = some size ∨ index = bench.simulators.length ∧ size = lineCount.toNat := by
  simp only [size?, addSimulator, List.getElem?_append] at h
  split at h
  · exact Or.inl h
  · next hge =>
    obtain ⟨sim, hsim, rfl⟩ := Option.map_eq_some_iff.mp h
    obtain ⟨hlt, rfl⟩ := List.getElem?_eq_some_iff.mp hsim
    rw [List.length_singleton] at hlt
    refine Or.inr ⟨by omega, ?_⟩
    simp [Simulator.create]

end Bench

/-! ### Every state of a workshop -/

namespace Workshop

variable {workshop : Workshop}

/-- The lines that a client knows are lines of their chips, and a chip that is opened on a simulated
chip has as many lines as that. -/
structure Sited (workshop : Workshop) : Prop where
  known : ∀ line, workshop.client.Knows line → workshop.world.Places line
  measured : ∀ id index count, workshop.world.board.device? id = some (.simulator index) →
    workshop.world.lineCount? id = some count →
    workshop.world.bench.size? index = some count.toNat
  sized : ∀ index size, workshop.world.bench.size? index = some size → size < UInt32.size

/-- A chip that is opened on a simulated chip has the number of lines that this one reports. -/
theorem Sited.measured_openChipOn (h : workshop.Sited) {device : Device} {id : ChipId} {index : Nat}
    {count : UInt32}
    (hdevice : (workshop.world.openChipOn device).2.board.device? id = some (.simulator index))
    (hcount : (workshop.world.openChipOn device).2.lineCount? id = some count) :
    workshop.world.bench.size? index = some count.toNat := by
  obtain ⟨chip, hchip, hchipDevice⟩ := Option.map_eq_some_iff.mp hdevice
  have hchipCount : chip.lineCount = count := by
    rw [World.lineCount?, hchip, Option.map_some] at hcount
    exact Option.some.inj hcount
  have hold : workshop.world.chips[id]? = some chip →
      workshop.world.bench.size? index = some count.toNat := by
    intro hget
    exact h.measured id index count (Option.map_eq_some_iff.mpr ⟨chip, hget, hchipDevice⟩)
      (Option.map_eq_some_iff.mpr ⟨chip, hget, hchipCount⟩)
  rcases hperform : workshop.world.perform device .chipInfo with ⟨error | info, mid⟩
  · obtain ⟨machine, -, rfl⟩ := World.perform_eq hperform
    simp only [World.openChipOn, hperform] at hchip
    exact hold hchip
  · obtain ⟨bench, hbench, rfl⟩ := World.perform_bench hperform
    simp only [World.openChipOn, hperform, World.note, List.getElem?_append] at hchip
    split at hchip
    · exact hold hchip
    · obtain rfl := List.mem_singleton.mp (List.mem_of_getElem? hchip)
      obtain rfl : device = .simulator index := hchipDevice
      rw [← hchipCount]
      exact Bench.size?_of_chipInfo hbench (h.sized index)

theorem Sited.operation (h : workshop.Sited) (hsound : workshop.Sound) {operation : Operation}
    (hcan : workshop.Can (.operation operation)) :
    (workshop.act (.operation operation)).Sited := by
  have hgroups : ∀ group ∈ operation.groups, group.WellFormed := fun group hgroup =>
    hsound.client.groups group (hcan.1 group hgroup)
  have hdeals := operation.deals hsound.client.desk hgroups
  have hkeeps := hdeals.keepsCounts
  obtain ⟨-, made, -, hreplayed⟩ := hsound.follows hcan
  have hsize := hreplayed.size?
  refine ⟨fun line hknows => ?_, fun id index count hdevice hcount => ?_, fun index size => ?_⟩
  · obtain ⟨group, hgroup, hline⟩ := hknows
    rcases List.mem_append.mp hgroup with hold | hnew
    · exact (h.known line ⟨group, hold, hline⟩).mono hkeeps
    · refine Operation.places_given hkeeps (fun old hold member hmember => ?_) (fun member hmember =>
        ?_) group hnew line hline
      · exact h.known member ⟨old, hcan.1 old hold, hmember⟩
      · exact h.known member (hcan.2 member hmember)
  · rw [hsize]
    by_cases hadds : operation.AddsChip
    · cases operation with
      | openChip device => exact h.measured_openChipOn hdevice hcount
      | _ => cases hadds
    · -- no chip is added, so this one was there before
      have hnone : Deals False ⟨workshop.world, ∅⟩ ⟨(operation.run workshop.world).2, ∅⟩ := by
        rwa [eq_false hadds] at hdeals
      have hbefore : workshop.world.board.device? id = some (.simulator index) :=
        (congrFun hnone.device? id).symm.trans hdevice
      obtain ⟨chip, hchip, -⟩ := Option.map_eq_some_iff.mp hbefore
      have hold : workshop.world.lineCount? id = some chip.lineCount := by
        rw [World.lineCount?, hchip, Option.map_some]
      obtain rfl := Option.some.inj ((hkeeps id _ hold).symm.trans hcount)
      exact h.measured id index _ hbefore hold
  · rw [hsize]
    exact h.sized index size

theorem Sited.deed (h : workshop.Sited) (hsound : workshop.Sound) {deed : Deed}
    (hcan : workshop.Can (.deed deed)) : (workshop.act (.deed deed)).Sited := by
  obtain ⟨bench, more, log, hclient⟩ := (worked_work hcan).client_eq
  have hsite : ∀ {after : Workshop}, after.client.groups = workshop.client.groups →
      after.world.chips = workshop.world.chips →
      (∀ index size, workshop.world.bench.size? index = some size →
        after.world.bench.size? index = some size) →
      (∀ index size, after.world.bench.size? index = some size → size < UInt32.size) →
      after.Sited := by
    intro after hgroups hchips hgrows hsized
    have hcounts := World.lineCount?_of_chips_eq hchips
    have hboard := World.board_of_chips_eq hchips
    refine ⟨fun line hknows => ?_, fun id index count hdevice hcount => ?_, hsized⟩
    · rw [Client.Knows, hgroups] at hknows
      exact (h.known line hknows).mono fun id count hcount => by rwa [hcounts]
    · rw [hboard] at hdevice
      rw [hcounts] at hcount
      exact hgrows index _ (h.measured id index count hdevice hcount)
  have hchips : (workshop.act (.deed deed)).world.chips = workshop.world.chips :=
    congrArg (·.world.chips) hclient
  have hgroups : (workshop.act (.deed deed)).client.groups = workshop.client.groups :=
    congrArg (·.groups) hclient
  have hkept : (workshop.act (.deed deed)).world.bench.size? = workshop.world.bench.size? →
      (workshop.act (.deed deed)).Sited := fun hsize =>
    hsite hgroups hchips (fun index size hold => by rwa [hsize]) fun index size hnew =>
      h.sized index size (by rwa [hsize] at hnew)
  cases deed with
  | addSimulator name lineCount =>
      refine hsite hgroups hchips (fun index size hold => ?_) fun index size hnew => ?_
      · obtain ⟨sim, hsim, rfl⟩ := Option.map_eq_some_iff.mp hold
        have hlt := (List.getElem?_eq_some_iff.mp hsim).1
        exact Option.map_eq_some_iff.mpr ⟨sim, (List.getElem?_append_left hlt).trans hsim, rfl⟩
      · rcases Bench.size?_addSimulator name lineCount hnew with hold | ⟨-, rfl⟩
        · exact h.sized index size hold
        · exact lineCount.toNat_lt
  | control index control => exact hkept (Bench.size?_control ..)
  | addProbe | setAnswers | close => exact hkept rfl
  | addFault device fault =>
      exact hkept (Bench.size?_congr (Bench.filesOnly_addFault ..).simulators)
  | inject index offset bytes =>
      exact hkept (Bench.size?_congr (Bench.filesOnly_inject ..).simulators)
  | read file limit => exact hkept (Bench.size?_congr (Bench.filesOnly_read ..).simulators)
  | call device call =>
      obtain ⟨-, made, -, hreplayed⟩ := World.follows_perform hsound.accord.bench device call
      exact hkept hreplayed.size?
  | release device file => exact hkept (Bench.replayed_releaseAt ..).size?
  | setLevel index offset level => exact hkept (Bench.size?_setLevel ..)

theorem Reachable.sited {rule : Workshop → Act → Prop} (h : Reachable rule workshop) :
    workshop.Sited := by
  induction h with
  | start =>
      refine ⟨fun line hknows => ?_, fun id index count hdevice => ?_, fun index size hsize => ?_⟩
      · obtain ⟨group, hgroup, -⟩ := hknows
        cases hgroup
      · cases hdevice
      · cases hsize
  | @act workshop act hbefore hcan _ ih =>
      cases act with
      | operation operation => exact ih.operation hbefore.sound hcan
      | deed deed => exact ih.deed hbefore.sound hcan

end Workshop

end GpioLines
