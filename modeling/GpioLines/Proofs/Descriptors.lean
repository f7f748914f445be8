import GpioLines.Proofs.Gathering
import GpioLines.Proofs.Lifetimes

/-!
# Descriptors

What a chip hands out for an offset is a descriptor, and two descriptors are equal if they are at one
place in memory, whatever they say. The chip keeps a table with a cell for each of its lines. The
first look-up of an offset makes a descriptor and leaves it in the cell, and every later one finds it
there. Closing a chip takes its table away.

A world knows nothing of this: a line is a chip and an offset there. That comes to the same, because
a line has one descriptor as long as the program runs. So descriptors are told apart by their places
exactly as lines are by chip and offset, and whatever is done with descriptors can be followed in the
world. A cell that the table does not have cannot be looked at; no look-up ever needs one.
-/

namespace GpioLines

/-- A line as it is handed out: where it is, and what it says. -/
structure Descriptor where
  address : Nat
  line : Line
deriving Repr

/-- The equality of descriptors. -/
def Descriptor.same (a b : Descriptor) : Bool := a.address == b.address

/-- A group as a client has it. -/
structure Bundle where
  descriptors : List Descriptor := []
deriving Repr

namespace Bundle

def single (descriptor : Descriptor) : Bundle := ⟨[descriptor]⟩

def push (bundle : Bundle) (descriptor : Descriptor) : Bundle := ⟨bundle.descriptors ++ [descriptor]⟩

/-- The lines of a bundle, by chip and offset. -/
def group (bundle : Bundle) : Group := ⟨bundle.descriptors.map (·.line)⟩

/-- Those members whose lines are in a group. -/
def among (bundle : Bundle) (group : Group) : Bundle :=
  ⟨bundle.descriptors.filter fun descriptor => decide (descriptor.line ∈ group.lines)⟩

/-- What a wait reports of the lines, as a report of the members. -/
def reported (bundle : Bundle) : Polled Group → Polled Bundle
  | .ready group => .ready (bundle.among group)
  | .pending => .pending

theorem group_push (bundle : Bundle) (descriptor : Descriptor) :
    (bundle.push descriptor).group = bundle.group.push descriptor.line := by
  rw [group, push, List.map_append, List.map_singleton, Group.push, group]

end Bundle

/-- A world with its descriptors: what each of them says, by its place, and the tables of the chips. -/
structure Registry (σ : Type) where
  world : World σ
  heap : List Line := []
  tables : List (List (Option Descriptor)) := []

namespace Registry

variable {σ : Type}

def start (machine : σ) : Registry σ := { world := { machine } }

/-- The cell of a line, if the table of its chip has one. -/
def cell? (registry : Registry σ) (line : Line) : Option (Option Descriptor) :=
  (registry.tables[line.chip]?).bind (·[line.offset.toNat]?)

def make (registry : Registry σ) (line : Line) : Descriptor × Registry σ :=
  let made : Descriptor := ⟨registry.heap.length, line⟩
  (made,
    { registry with
      heap := registry.heap ++ [line]
      tables := registry.tables.modify line.chip (·.set line.offset.toNat (some made)) })

/-- The descriptor of a line, made if this is the first time. -/
def lookUp (registry : Registry σ) (line : Line) : Option (Descriptor × Registry σ) :=
  (registry.cell? line).map fun cell =>
    cell.elim (registry.make line) fun descriptor => (descriptor, registry)

/-- The tables in a later world: none is left of a chip that was closed, and one that was opened has
an empty one. -/
def follow (registry : Registry σ) (world : World σ) : Registry σ where
  world
  heap := registry.heap
  tables := world.chips.mapIdx fun id chip =>
    if chip.closed then []
    else (registry.tables[id]?).getD (List.replicate chip.lineCount.toNat none)

def fail {α : Type} (registry : Registry σ) (error : Error) : Except Error α × Registry σ :=
  let (outcome, world) := registry.world.fail error
  (outcome, registry.follow world)

/-! ### One descriptor a line -/

/-- The descriptor is there, and says what it was made for. -/
def Lives (registry : Registry σ) (descriptor : Descriptor) : Prop :=
  registry.heap[descriptor.address]? = some descriptor.line

structure Sound (registry : Registry σ) : Prop where
  /-- No line has two descriptors. -/
  distinct : registry.heap.Nodup
  known : ∀ line ∈ registry.heap, line.chip < registry.world.chips.length
  fewTables : registry.tables.length ≤ registry.world.chips.length
  /-- The table of an open chip is as long as the chip has lines. -/
  sized : ∀ (id : ChipId) (chip : Chip), registry.world.chips[id]? = some chip →
    chip.closed = false →
    ∃ table, registry.tables[id]? = some table ∧ table.length = chip.lineCount.toNat
  kept : ∀ line descriptor, registry.cell? line = some (some descriptor) →
    descriptor.line = line ∧ registry.Lives descriptor
  /-- A line that has a descriptor has it in its cell, as long as there is one. -/
  found : ∀ line ∈ registry.heap, registry.cell? line ≠ some none

variable {registry before after later : Registry σ} {world : World σ}

theorem sound_start (machine : σ) : (start machine).Sound where
  distinct := List.nodup_nil
  known := nofun
  fewTables := Nat.le_refl 0
  sized := nofun
  kept := nofun
  found := nofun

/-- **Descriptors are told apart as lines are.** -/
theorem Sound.same_iff (h : registry.Sound) {a b : Descriptor} (ha : registry.Lives a)
    (hb : registry.Lives b) : a.same b = true ↔ a.line = b.line := by
  rw [Descriptor.same, beq_iff_eq]
  constructor
  · intro haddress
    rw [Lives, haddress, hb] at ha
    exact (Option.some.inj ha).symm
  · intro hline
    obtain ⟨hlt, ha⟩ := List.getElem?_eq_some_iff.mp ha
    obtain ⟨hblt, hb⟩ := List.getElem?_eq_some_iff.mp hb
    exact (List.Nodup.getElem_inj_iff h.distinct).mp (by rw [ha, hb, hline])

/-- The registry was brought into this world, and no descriptor went away. -/
structure Leads (before : Registry σ) (world : World σ) (after : Registry σ) : Prop where
  world_eq : after.world = world
  sound : after.Sound
  grows : before.heap <+: after.heap

theorem Leads.trans (h : before.Leads world after) {last : World σ}
    (hlater : after.Leads last later) : before.Leads last later :=
  ⟨hlater.world_eq, hlater.sound, h.grows.trans hlater.grows⟩

theorem Leads.lives (h : before.Leads world after) {descriptor : Descriptor}
    (hlives : before.Lives descriptor) : after.Lives descriptor := by
  obtain ⟨more, hmore⟩ := h.grows
  obtain ⟨hlt, -⟩ := List.getElem?_eq_some_iff.mp hlives
  rw [Lives, ← hmore, List.getElem?_append_left hlt]
  exact hlives

theorem cell?_follow (registry : Registry σ) (world : World σ) (line : Line) :
    (registry.follow world).cell? line =
      (world.chips[line.chip]?).bind fun chip =>
        if chip.closed then none
        else ((registry.tables[line.chip]?).getD
          (List.replicate chip.lineCount.toNat none))[line.offset.toNat]? := by
  rw [cell?, follow, List.getElem?_mapIdx]
  cases world.chips[line.chip]? with
  | none => rfl
  | some chip =>
      rw [Option.map_some, Option.bind_some, Option.bind_some]
      cases chip.closed <;> rfl

/-- What is done in the world alone. -/
theorem Sound.follow (h : registry.Sound) (hlast : registry.world.ChipsLast world) :
    registry.Leads world (registry.follow world) := by
  have hthere : ∀ (id : ChipId) (later : Chip), id < registry.world.chips.length →
      world.chips[id]? = some later → later.closed = false →
      ∃ table, registry.tables[id]? = some table ∧ table.length = later.lineCount.toNat := by
    intro id later hlt hlater hopen
    obtain ⟨same, hsame, hcount, hclosed⟩ := hlast.stays id _ (List.getElem?_eq_getElem hlt)
    obtain rfl := Option.mem_unique hlater hsame
    have hwas : registry.world.chips[id].closed = false := by
      rw [← Bool.not_eq_true]
      exact fun hwas => Bool.false_ne_true (hopen.symm.trans (hclosed hwas))
    rw [hcount]
    exact h.sized id _ (List.getElem?_eq_getElem hlt) hwas
  refine ⟨rfl, ⟨h.distinct, fun line hline => ?_, ?_, fun id later hlater hopen => ?_,
    fun line descriptor hcell => ?_, fun line hline hcell => ?_⟩, List.prefix_refl _⟩
  · obtain ⟨later, hlater, -⟩ :=
      hlast.stays line.chip _ (List.getElem?_eq_getElem (h.known line hline))
    exact (List.getElem?_eq_some_iff.mp hlater).1
  · rw [Registry.follow, List.length_mapIdx]
  · change world.chips[id]? = some later at hlater
    have htable : (registry.follow world).tables[id]? = some ((registry.tables[id]?).getD
        (List.replicate later.lineCount.toNat none)) := by
      rw [Registry.follow, List.getElem?_mapIdx, hlater, Option.map_some, hopen,
        if_neg Bool.false_ne_true]
    refine ⟨_, htable, ?_⟩
    cases hold : registry.tables[id]? with
    | none => exact List.length_replicate
    | some table =>
        have hlt : id < registry.world.chips.length :=
          (List.getElem?_eq_some_iff.mp hold).1.trans_le h.fewTables
        obtain ⟨found, hfound, hlength⟩ := hthere id later hlt hlater hopen
        rw [Option.getD_some, Option.mem_unique hold hfound]
        exact hlength
  · refine h.kept line descriptor ?_
    rw [cell?_follow] at hcell
    obtain ⟨later, -, hcell⟩ := Option.bind_eq_some_iff.mp hcell
    split at hcell
    · cases hcell
    · rw [cell?]
      cases hold : registry.tables[line.chip]? with
      | some table =>
          rw [hold, Option.getD_some] at hcell
          exact hcell
      | none =>
          rw [hold, Option.getD_none, List.getElem?_replicate] at hcell
          split at hcell <;> cases hcell
  · refine h.found line hline ?_
    rw [cell?_follow] at hcell
    obtain ⟨later, hlater, hcell⟩ := Option.bind_eq_some_iff.mp hcell
    split at hcell
    · cases hcell
    · next hopen =>
      obtain ⟨table, htable, -⟩ :=
        hthere line.chip later (h.known line hline) hlater (Bool.eq_false_of_not_eq_true hopen)
      rw [htable, Option.getD_some] at hcell
      rw [cell?, htable]
      exact hcell

/-! ### Looking a line up -/

theorem cell?_make {line : Line} (h : registry.cell? line = some none) (other : Line) :
    (registry.make line).2.cell? other =
      if other = line then some (some (registry.make line).1) else registry.cell? other := by
  obtain ⟨table, htable, hcell⟩ := Option.bind_eq_some_iff.mp h
  have hlt := (List.getElem?_eq_some_iff.mp hcell).1
  simp only [cell?, make, List.getElem?_modify, Option.map_eq_map]
  by_cases heq : other = line
  · rw [if_pos heq, heq, htable, Option.map_some, if_pos rfl, Option.bind_some,
      List.getElem?_set_self hlt]
  · rw [if_neg heq]
    by_cases hchip : line.chip = other.chip
    · have hplace : line.offset.toNat ≠ other.offset.toNat := fun hsame =>
        heq (Line.eq_of_offset hchip.symm (UInt32.toNat_inj.mp hsame.symm))
      rw [← hchip, htable, Option.map_some, if_pos rfl, Option.bind_some, Option.bind_some,
        List.getElem?_set_ne hplace]
    · simp only [if_neg hchip, Option.map_id']

theorem Sound.make (h : registry.Sound) {line : Line} (hcell : registry.cell? line = some none) :
    registry.Leads registry.world (registry.make line).2 ∧
      (registry.make line).2.Lives (registry.make line).1 := by
  have hnew : line ∉ registry.heap := fun hline => h.found line hline hcell
  have hlives : (registry.make line).2.Lives (registry.make line).1 := List.getElem?_concat_length
  have hold : ∀ descriptor, registry.Lives descriptor → (registry.make line).2.Lives descriptor := by
    intro descriptor hdescriptor
    obtain ⟨hlt, -⟩ := List.getElem?_eq_some_iff.mp hdescriptor
    exact (List.getElem?_append_left hlt).trans hdescriptor
  obtain ⟨table, htable, -⟩ := Option.bind_eq_some_iff.mp hcell
  refine ⟨⟨rfl, ⟨?_, fun other hother => ?_, ?_, fun id chip hchip hopen => ?_,
    fun other descriptor hother => ?_, fun other hother hnone => ?_⟩, List.prefix_append ..⟩, hlives⟩
  · refine List.nodup_append.mpr ⟨h.distinct, List.nodup_singleton line, ?_⟩
    rintro _ hmem _ hlast rfl
    exact hnew (List.mem_singleton.mp hlast ▸ hmem)
  · rcases List.mem_append.mp hother with hknown | hlast
    · exact h.known other hknown
    · rw [List.mem_singleton.mp hlast]
      exact (List.getElem?_eq_some_iff.mp htable).1.trans_le h.fewTables
  · exact (List.length_modify ..).trans_le h.fewTables
  · obtain ⟨found, hfound, hlength⟩ := h.sized id chip hchip hopen
    simp only [Registry.make, List.getElem?_modify, hfound]
    refine ⟨_, rfl, ?_⟩
    split
    · rw [List.length_set, hlength]
    · exact hlength
  · rw [cell?_make hcell] at hother
    split at hother
    · next heq =>
      obtain rfl := Option.some.inj (Option.some.inj hother)
      exact ⟨heq.symm, hlives⟩
    · obtain ⟨hline, hdescriptor⟩ := h.kept other descriptor hother
      exact ⟨hline, hold descriptor hdescriptor⟩
  · rw [cell?_make hcell] at hnone
    split at hnone
    · cases hnone
    · next hne =>
      rcases List.mem_append.mp hother with hknown | hlast
      · exact h.found other hknown hnone
      · exact hne (List.mem_singleton.mp hlast)

/-- The table of an open chip has a cell for each of its lines. -/
theorem Sound.exists_cell? (h : registry.Sound) {line : Line} {chip : Chip}
    (hopen : registry.world.openChip line.chip = .ok chip) (hoffset : line.offset < chip.lineCount) :
    ∃ cell, registry.cell? line = some cell := by
  obtain ⟨hchip, hclosed⟩ := World.openChip_eq_ok.mp hopen
  obtain ⟨table, htable, hlength⟩ := h.sized line.chip chip hchip hclosed
  have hlt : line.offset.toNat < table.length := hlength ▸ UInt32.lt_iff_toNat_lt.mp hoffset
  refine ⟨table[line.offset.toNat], ?_⟩
  rw [cell?, htable, Option.bind_some, List.getElem?_eq_getElem hlt]

/-- A line of an open chip is found. -/
theorem Sound.lookUp (h : registry.Sound) {line : Line} {chip : Chip}
    (hopen : registry.world.openChip line.chip = .ok chip) (hoffset : line.offset < chip.lineCount) :
    ∃ descriptor after, registry.lookUp line = some (descriptor, after) ∧ descriptor.line = line ∧
      registry.Leads registry.world after ∧ after.Lives descriptor := by
  obtain ⟨cell, hcell⟩ := h.exists_cell? hopen hoffset
  rw [Registry.lookUp, hcell, Option.map_some]
  cases cell with
  | none =>
      obtain ⟨hleads, hlives⟩ := h.make hcell
      exact ⟨_, _, rfl, rfl, hleads, hlives⟩
  | some descriptor =>
      obtain ⟨hline, hlives⟩ := h.kept line descriptor hcell
      exact ⟨_, _, rfl, hline, ⟨rfl, h, List.prefix_refl _⟩, hlives⟩

/-! ### Fetching lines -/

section Fetching

variable [Machine σ]

def getLine (registry : Registry σ) (id : ChipId) (offset : Offset) :
    Option (Except Error Descriptor × Registry σ) :=
  match registry.world.openChip id with
  | .error error => some (registry.fail error)
  | .ok chip =>
    if offset < chip.lineCount then
      (registry.lookUp ⟨id, offset⟩).map fun (descriptor, registry) =>
        let (outcome, world) := registry.world.refresh descriptor.line
        (outcome.map fun _ => descriptor, registry.follow world)
    else some (registry.fail (.outOfRange offset))

def append (registry : Registry σ) (bundle : Bundle) (descriptor : Descriptor) :
    Except Error Bundle :=
  if !registry.world.isValid descriptor.line then .error (.invalidArgument .closedChip)
  else if maxLines ≤ bundle.descriptors.length then .error (.limitExceeded maxLines)
  else match bundle.descriptors.head? with
    | some first =>
      if first.line.chip = descriptor.line.chip then .ok (bundle.push descriptor)
      else .error .crossChip
    | none => .ok (bundle.push descriptor)

def gather (registry : Registry σ) (descriptors : List Descriptor) : Except Error Bundle :=
  descriptors.foldlM registry.append {}

def getLinesInto (registry : Registry σ) (id : ChipId) (bundle : Bundle) :
    List Offset → Option (Except Error Bundle × Registry σ)
  | [] => some (.ok bundle, registry)
  | offset :: rest =>
    match registry.getLine id offset with
    | none => none
    | some (.error error, registry) => some (.error error, registry)
    | some (.ok descriptor, registry) =>
      match registry.append bundle descriptor with
      | .error error => some (registry.fail error)
      | .ok bundle => registry.getLinesInto id bundle rest

def getLines (registry : Registry σ) (id : ChipId) (offsets : List Offset) :
    Option (Except Error Bundle × Registry σ) :=
  registry.getLinesInto id {} offsets

def getAllLines (registry : Registry σ) (id : ChipId) : Option (Except Error Bundle × Registry σ) :=
  registry.getLines id ((registry.world.chips[id]?).elim [] Chip.offsets)

/-- It is looked up as in the world, and the descriptor that is handed out is that of the line. -/
theorem Sound.getLine (h : registry.Sound) (id : ChipId) (offset : Offset) :
    ∃ outcome after, registry.getLine id offset = some (outcome, after) ∧
      outcome.map (·.line) = (registry.world.getLine id offset).1 ∧
      registry.Leads (registry.world.getLine id offset).2 after ∧
      ∀ descriptor, outcome = .ok descriptor → after.Lives descriptor := by
  have hlast := registry.world.chipsLast_refresh ⟨id, offset⟩
  unfold Registry.getLine World.getLine
  cases hopen : registry.world.openChip id with
  | error error => exact ⟨_, _, rfl, rfl, h.follow (.of_chips_eq rfl), nofun⟩
  | ok chip =>
      simp only
      split
      · next hlt =>
        have hopenLine : registry.world.openChip (Line.mk id offset).chip = .ok chip := hopen
        obtain ⟨descriptor, looked, hlookUp, hline, hleads, hlives⟩ := h.lookUp hopenLine hlt
        rw [hlookUp, Option.map_some, hleads.world_eq, hline]
        generalize registry.world.refresh ⟨id, offset⟩ = refreshed at hlast ⊢
        rw [← hleads.world_eq] at hlast
        have hfollows := hleads.sound.follow hlast
        obtain ⟨error | _, world⟩ := refreshed
        · exact ⟨_, _, rfl, rfl, hleads.trans hfollows, nofun⟩
        · refine ⟨_, _, rfl, congrArg Except.ok hline, hleads.trans hfollows, fun found hfound => ?_⟩
          obtain rfl := Except.ok.inj hfound
          exact hfollows.lives hlives
      · exact ⟨_, _, rfl, rfl, h.follow (.of_chips_eq rfl), nofun⟩

omit [Machine σ] in
theorem append_group (registry : Registry σ) (bundle : Bundle) (descriptor : Descriptor) :
    (registry.append bundle descriptor).map Bundle.group =
      registry.world.append bundle.group descriptor.line := by
  have hsize : bundle.group.size = bundle.descriptors.length := List.length_map _
  have hfirst : bundle.group.first? = bundle.descriptors.head?.map (·.line) := List.head?_map
  unfold append World.append
  rw [hsize, hfirst]
  split
  · rfl
  split
  · rfl
  cases bundle.descriptors.head? with
  | none => exact congrArg Except.ok (bundle.group_push descriptor)
  | some first =>
      simp only [Option.map_some]
      split
      · exact congrArg Except.ok (bundle.group_push descriptor)
      · rfl

omit [Machine σ] in
theorem append_of_error {bundle : Bundle} {descriptor : Descriptor} {error : Error}
    (h : registry.world.append bundle.group descriptor.line = .error error) :
    registry.append bundle descriptor = .error error := by
  rw [← append_group] at h
  cases happend : registry.append bundle descriptor with
  | error found =>
      rw [happend] at h
      exact congrArg Except.error (Except.error.inj h)
  | ok grown =>
      rw [happend] at h
      cases h

omit [Machine σ] in
theorem append_eq_ok {bundle grown : Bundle} {descriptor : Descriptor}
    (h : registry.append bundle descriptor = .ok grown) : grown = bundle.push descriptor := by
  unfold append at h
  split at h
  · cases h
  split at h
  · cases h
  split at h
  · split at h
    · exact (Except.ok.inj h).symm
    · cases h
  · exact (Except.ok.inj h).symm

omit [Machine σ] in
theorem append_of_ok {bundle : Bundle} {descriptor : Descriptor} {group : Group}
    (h : registry.world.append bundle.group descriptor.line = .ok group) :
    registry.append bundle descriptor = .ok (bundle.push descriptor) := by
  rw [← append_group] at h
  cases happend : registry.append bundle descriptor with
  | error error =>
      rw [happend] at h
      cases h
  | ok grown => rw [append_eq_ok happend]

theorem Sound.getLinesInto (h : registry.Sound) (id : ChipId) {bundle : Bundle}
    (hbundle : ∀ descriptor ∈ bundle.descriptors, registry.Lives descriptor)
    (offsets : List Offset) :
    ∃ outcome after, registry.getLinesInto id bundle offsets = some (outcome, after) ∧
      outcome.map Bundle.group = (registry.world.getLinesInto id bundle.group offsets).1 ∧
      registry.Leads (registry.world.getLinesInto id bundle.group offsets).2 after ∧
      ∀ made, outcome = .ok made → ∀ descriptor ∈ made.descriptors, after.Lives descriptor := by
  induction offsets generalizing registry bundle with
  | nil =>
      refine ⟨_, _, rfl, rfl, ⟨rfl, h, List.prefix_refl _⟩, fun made hmade => ?_⟩
      obtain rfl := Except.ok.inj hmade
      exact hbundle
  | cons offset rest ih =>
      obtain ⟨outcome, fetched, hget, hline, hleads, hlives⟩ := h.getLine id offset
      rw [Registry.getLinesInto, World.getLinesInto, hget]
      generalize registry.world.getLine id offset = looked at hline hleads
      obtain ⟨found, world⟩ := looked
      subst hline
      cases outcome with
      | error error => exact ⟨_, _, rfl, rfl, hleads, fun _ hmade => by cases hmade⟩
      | ok descriptor =>
          simp only [Except.map]
          obtain rfl := hleads.world_eq
          rw [← append_group]
          cases happend : fetched.append bundle descriptor with
          | error error =>
              refine ⟨_, _, rfl, rfl, ?_, fun _ hmade => by cases hmade⟩
              exact hleads.trans (hleads.sound.follow (.of_chips_eq rfl))
          | ok grown =>
              have hgrown : ∀ member ∈ grown.descriptors, fetched.Lives member := by
                intro member hmember
                rw [append_eq_ok happend] at hmember
                rcases List.mem_append.mp hmember with hold | hnew
                · exact hleads.lives (hbundle member hold)
                · exact List.mem_singleton.mp hnew ▸ hlives descriptor rfl
              obtain ⟨outcome, after, hrest, hgroup, hlater, hall⟩ := ih hleads.sound hgrown
              exact ⟨outcome, after, hrest, hgroup, hleads.trans hlater, hall⟩

theorem Sound.getLines (h : registry.Sound) (id : ChipId) (offsets : List Offset) :
    ∃ outcome after, registry.getLines id offsets = some (outcome, after) ∧
      outcome.map Bundle.group = (registry.world.getLines id offsets).1 ∧
      registry.Leads (registry.world.getLines id offsets).2 after ∧
      ∀ made, outcome = .ok made → ∀ descriptor ∈ made.descriptors, after.Lives descriptor :=
  h.getLinesInto id (fun _ hmem => absurd hmem List.not_mem_nil) offsets

omit [Machine σ] in
theorem gather_group (registry : Registry σ) (descriptors : List Descriptor) :
    (registry.gather descriptors).map Bundle.group =
      registry.world.groupOf (descriptors.map (·.line)) := by
  have hfrom : ∀ bundle : Bundle, (descriptors.foldlM registry.append bundle).map Bundle.group =
      (descriptors.map (·.line)).foldlM registry.world.append bundle.group := by
    induction descriptors with
    | nil => exact fun _ => rfl
    | cons descriptor rest ih =>
        intro bundle
        rw [List.map_cons, List.foldlM_cons, List.foldlM_cons, ← append_group]
        cases registry.append bundle descriptor with
        | error error => rfl
        | ok grown => exact ih grown
  exact hfrom {}

end Fetching

/-! ### What else happens -/

end Registry

/-- Something beside a client: an operation of somebody else, or what the machine does by itself. -/
inductive Happening (σ : Type) where
  | call (operation : Operation)
  | outside (change : σ → σ)

section Happenings

variable {σ : Type} [Machine σ]

def Happening.act (world : World σ) : Happening σ → World σ
  | .call operation => (operation.run world).2
  | .outside change => { world with machine := change world.machine }

/-- As it breaks into a wait at a moment. -/
def Happening.intervention (other : Duration × Happening σ) : Intervention σ where
  moment := other.1
  act world := other.2.act world

namespace World

/-- Members of one file are ready together, so a line tells whether it is. -/
theorem filter_mem_readyAmong (world : World σ) {files : List (Line × FileId)}
    (hfiles : ∀ a ∈ files, ∀ b ∈ files, a.1 = b.1 → a.2 = b.2) :
    (files.map (·.1)).filter (fun line => decide (line ∈ (world.readyAmong files).lines)) =
      (world.readyAmong files).lines := by
  rw [List.filter_map]
  refine congrArg (List.map _) (List.filter_congr fun entry hentry => ?_)
  rw [Function.comp_apply, Bool.eq_iff_iff, decide_eq_true_iff]
  constructor
  · intro hmem
    obtain ⟨other, hother, hline⟩ := List.mem_map.mp hmem
    obtain ⟨hin, hready⟩ := List.mem_filter.mp hother
    rwa [hfiles entry hentry other hin hline.symm]
  · exact fun hready => List.mem_map_of_mem (List.mem_filter.mpr ⟨hentry, hready⟩)

theorem filter_mem_wait {world : World σ} {group ready : Group} {token : Option TokenId}
    {timeout : Option Duration} {others : List (Intervention σ)}
    (h : (world.wait group token timeout others).1 = .ok (.ready ready)) :
    group.lines.filter (fun line => decide (line ∈ ready.lines)) = ready.lines := by
  unfold wait at h
  split at h
  · cases h
  next files hfiles =>
  obtain ⟨hlines, hentries⟩ := waitFiles_eq_ok hfiles
  rw [← hlines]
  rcases ready_of_await h with rfl | ⟨later, rfl⟩
  · exact List.filter_eq_nil_iff.mpr fun line _ => by simp [Group.empty]
  · refine later.filter_mem_readyAmong fun a ha b hb hline => ?_
    obtain ⟨-, id, handle, hheld, -, hfile⟩ := hentries a ha
    obtain ⟨-, other, otherHandle, hother, -, hotherFile⟩ := hentries b hb
    rw [hline, hother] at hheld
    obtain ⟨-, rfl⟩ := Prod.mk.inj (Option.some.inj hheld)
    rw [← hfile, hotherFile]

end World

/-- What a wait reports of a bundle are the members of the lines that it finds ready. -/
theorem Bundle.group_among {world : World σ} {bundle : Bundle} {ready : Group}
    {token : Option TokenId} {timeout : Option Duration} {others : List (Intervention σ)}
    (h : (world.wait bundle.group token timeout others).1 = .ok (.ready ready)) :
    (bundle.among ready).group = ready := by
  have hfilter : (bundle.among ready).group.lines =
      bundle.group.lines.filter fun line => decide (line ∈ ready.lines) := by
    rw [group, group, among, List.filter_map]
    rfl
  exact congrArg Group.mk (hfilter.trans (World.filter_mem_wait h))

namespace Registry

/-- Only to fetch lines the tables are looked into. -/
def serve (registry : Registry σ) : Operation → Option (Registry σ)
  | .getLine id offset => (registry.getLine id offset).map (·.2)
  | .getLines id offsets => (registry.getLines id offsets).map (·.2)
  | .getAllLines id => (registry.getAllLines id).map (·.2)
  | operation => some (registry.follow (operation.run registry.world).2)

def undergo (registry : Registry σ) : Happening σ → Option (Registry σ)
  | .call operation => registry.serve operation
  | .outside change => some (registry.follow ((Happening.outside change).act registry.world))

def undergoAll (registry : Registry σ) (others : List (Duration × Happening σ)) :
    Option (Registry σ) :=
  others.foldlM (fun registry other => registry.undergo other.2) registry

/-- Waits for the lines of a bundle. Some of the others act while it refers to their handles, and the
rest when it no longer does. -/
def wait (registry : Registry σ) (bundle : Bundle) (token : Option TokenId)
    (timeout : Option Duration) (others : List (Duration × Happening σ)) :
    Option (Except Error (Polled Bundle) × Registry σ) :=
  match registry.world.waitFiles bundle.group with
  | .error error => (registry.undergoAll others).map (.error error, ·)
  | .ok files => do
    let held := bundle.group.lines.filterMap fun line => (registry.world.slot line).handle?
    let retained := registry.world.retain held
    let (outcome, world, rest) := retained.await files token (timeout.filter Duration.hasEnd)
      (others.map Happening.intervention)
    let count := others.length - rest.length
    let acted ← (registry.follow retained).undergoAll (others.take count)
    let after ← (acted.follow (world.relinquish held)).undergoAll (others.drop count)
    return (outcome.map bundle.reported, after)

variable {registry : Registry σ}

theorem Sound.serve (h : registry.Sound) (operation : Operation) :
    ∃ after, registry.serve operation = some after ∧
      registry.Leads (operation.run registry.world).2 after := by
  have hfollows := h.follow (operation.chipsLast_run registry.world)
  cases operation with
  | getLine id offset =>
      obtain ⟨outcome, after, hget, -, hleads, -⟩ := h.getLine id offset
      exact ⟨after, by rw [Registry.serve, hget, Option.map_some], hleads⟩
  | getLines id offsets =>
      obtain ⟨outcome, after, hget, -, hleads, -⟩ := h.getLines id offsets
      exact ⟨after, by rw [Registry.serve, hget, Option.map_some], hleads⟩
  | getAllLines id =>
      obtain ⟨outcome, after, hget, -, hleads, -⟩ := h.getLines id _
      exact ⟨after, by rw [Registry.serve, getAllLines, hget, Option.map_some], hleads⟩
  | _ => exact ⟨_, rfl, hfollows⟩

theorem Sound.undergo (h : registry.Sound) (happening : Happening σ) :
    ∃ after, registry.undergo happening = some after ∧
      registry.Leads (happening.act registry.world) after := by
  cases happening with
  | call operation => exact h.serve operation
  | outside change => exact ⟨_, rfl, h.follow (.of_chips_eq rfl)⟩

theorem Sound.undergoAll (h : registry.Sound) (others : List (Duration × Happening σ)) :
    ∃ after, registry.undergoAll others = some after ∧
      registry.Leads (registry.world.actAll (others.map Happening.intervention)) after := by
  induction others generalizing registry with
  | nil => exact ⟨registry, rfl, rfl, h, List.prefix_refl _⟩
  | cons other rest ih =>
      obtain ⟨next, hnext, hleads⟩ := h.undergo other.2
      obtain ⟨after, hafter, hrest⟩ := ih hleads.sound
      rw [hleads.world_eq] at hrest
      refine ⟨after, ?_, hleads.trans hrest⟩
      rw [Registry.undergoAll, List.foldlM_cons, hnext]
      exact hafter

theorem Sound.wait (h : registry.Sound) (bundle : Bundle) (token : Option TokenId)
    (timeout : Option Duration) (others : List (Duration × Happening σ)) :
    ∃ after, registry.wait bundle token timeout others =
        some ((registry.world.wait bundle.group token timeout
          (others.map Happening.intervention)).1.map bundle.reported, after) ∧
      registry.Leads (registry.world.wait bundle.group token timeout
        (others.map Happening.intervention)).2 after := by
  unfold Registry.wait World.wait
  cases registry.world.waitFiles bundle.group with
  | error error =>
      obtain ⟨after, hafter, hleads⟩ := h.undergoAll others
      exact ⟨after, by rw [hafter]; rfl, hleads⟩
  | ok files =>
      simp only
      generalize (bundle.group.lines.filterMap fun line => (registry.world.slot line).handle?) = held
      have hretained : registry.Leads (registry.world.retain held)
          (registry.follow (registry.world.retain held)) := h.follow (.of_chips_eq rfl)
      obtain ⟨outcome, log, before, after, hsplit, hawait⟩ :=
        (registry.world.retain held).await_eq files token (timeout.filter Duration.hasEnd)
          (others.map Happening.intervention)
      obtain ⟨front, back, rfl, rfl, rfl⟩ := List.map_eq_append_iff.mp hsplit
      obtain ⟨acted, hacted, hduring⟩ := hretained.sound.undergoAll front
      have hlogged : acted.world.ChipsLast { acted.world with log } := .of_chips_eq rfl
      have hrelinquished :=
        hduring.sound.follow (hlogged.trans (World.chipsLast_relinquish held _))
      obtain ⟨after, hafter, hrest⟩ := hrelinquished.sound.undergoAll back
      have hleads := ((hretained.trans hduring).trans hrelinquished).trans hrest
      have hmeanwhile : (registry.world.retain held).actAll (front.map Happening.intervention) =
          acted.world := hduring.world_eq.symm
      rw [hmeanwhile] at hawait
      refine ⟨after, ?_, ?_⟩
      · simp only [hawait, List.length_append, List.length_map, Nat.add_sub_cancel, List.take_left,
          List.drop_left, hacted, Option.bind_eq_bind, Option.bind_some, hafter]
        rfl
      · rw [hawait]
        exact hleads

end Registry

end Happenings

end GpioLines
