import GpioLines.Proofs.Descriptors

/-!
# Groups on a shelf

A client keeps groups in places of its own. It makes them in any order and out of each other: new,
from lines, by appending, by fetching from chips, by copying and emptying, around a single line, and
out of what a wait reports. Meanwhile anything may happen to the world, chips being closed and others
opened in particular. Every group on the shelf is well formed all the same. The ways to make one that
check nothing give no cause for it: a single line is a group by itself, and a wait reports a part of a
group that was well formed before.

The members are descriptors, and a client tells them apart by asking whether they are equal. For those
it was given by one chip that is to ask for their offsets.
-/

namespace GpioLines

abbrev Place := Nat

/-- The registry of the descriptors, the groups that a client keeps, and the descriptors it was given,
each with the chip that it was asked of. -/
structure Shelf (σ : Type) where
  registry : Registry σ
  bundle : Place → Bundle := fun _ => {}
  given : List (ChipId × Descriptor) := []

namespace Shelf

inductive Action (σ : Type) where
  | new (place : Place)
  | fromLines (place : Place) (descriptors : List Descriptor)
  | append (place : Place) (descriptor : Descriptor)
  | getLine (chip : ChipId) (offset : Offset)
  | getLines (place : Place) (chip : ChipId) (offsets : List Offset)
  | getAllLines (place : Place) (chip : ChipId)
  | clone (source place : Place)
  | clear (place : Place)
  | single (place : Place) (descriptor : Descriptor)
  | wait (source place : Place) (token : Option TokenId) (timeout : Option Duration)
      (others : List (Duration × Happening σ))
  | meanwhile (happening : Happening σ)

variable {σ : Type}

def start (machine : σ) : Shelf σ := { registry := .start machine }

abbrev world (shelf : Shelf σ) : World σ := shelf.registry.world

/-- The lines of a group, by chip and offset. -/
abbrev group (shelf : Shelf σ) (place : Place) : Group := (shelf.bundle place).group

def put (shelf : Shelf σ) (place : Place) (bundle : Bundle) : Shelf σ :=
  { shelf with bundle := Function.update shelf.bundle place bundle }

/-- A group that was made takes the place; where that failed, the place keeps the group it has. -/
def settle (shelf : Shelf σ) (place : Place) : Except Error Bundle → Shelf σ
  | .ok bundle => shelf.put place bundle
  | .error _ => shelf

def give (shelf : Shelf σ) (chip : ChipId) (descriptors : List Descriptor) : Shelf σ :=
  { shelf with given := shelf.given ++ descriptors.map (chip, ·) }

/-- What a chip gave for a place, and the registry after that. -/
def fetched (shelf : Shelf σ) (place : Place) (chip : ChipId) :
    Except Error Bundle × Registry σ → Shelf σ
  | (outcome, registry) =>
    ({ shelf with registry }.settle place outcome).give chip
      (outcome.toOption.elim [] Bundle.descriptors)

/-- What a wait reported for a place, and the registry after that. -/
def waited (shelf : Shelf σ) (place : Place) :
    Except Error (Polled Bundle) × Registry σ → Shelf σ
  | (.ok (.ready ready), registry) => { shelf with registry }.put place ready
  | (_, registry) => { shelf with registry }

/-! ### What groups and descriptors have to keep -/

structure Sound (shelf : Shelf σ) : Prop where
  registry : shelf.registry.Sound
  wellFormed : ∀ place, (shelf.group place).WellFormed
  /-- A chip gives nothing but its own lines. -/
  own : ∀ entry ∈ shelf.given, entry.2.line.chip = entry.1
  lives : ∀ entry ∈ shelf.given, shelf.registry.Lives entry.2

theorem sound_start (machine : σ) : (start machine).Sound :=
  ⟨Registry.sound_start machine, fun _ => Group.wellFormed_empty, nofun, nofun⟩

variable {shelf : Shelf σ}

theorem Sound.advance (h : shelf.Sound) {world : World σ} {registry : Registry σ}
    (hleads : shelf.registry.Leads world registry) : { shelf with registry }.Sound :=
  ⟨hleads.sound, h.wellFormed, h.own, fun entry hentry => hleads.lives (h.lives entry hentry)⟩

theorem bundle_put (place : Place) (bundle : Bundle) (other : Place) :
    (shelf.put place bundle).bundle other = if other = place then bundle else shelf.bundle other :=
  Function.update_apply ..

theorem Sound.put (h : shelf.Sound) (place : Place) {bundle : Bundle}
    (hbundle : bundle.group.WellFormed) : (shelf.put place bundle).Sound := by
  refine ⟨h.registry, fun other => ?_, h.own, h.lives⟩
  rw [group, bundle_put]
  split
  · exact hbundle
  · exact h.wellFormed other

theorem Sound.settle (h : shelf.Sound) (place : Place) {outcome : Except Error Bundle}
    (houtcome : ∀ group, outcome.map Bundle.group = .ok group → group.WellFormed) :
    (shelf.settle place outcome).Sound := by
  cases outcome with
  | error error => exact h
  | ok bundle => exact h.put place (houtcome bundle.group rfl)

theorem Sound.give (h : shelf.Sound) {chip : ChipId} {descriptors : List Descriptor}
    (hown : ∀ descriptor ∈ descriptors, descriptor.line.chip = chip)
    (hlives : ∀ descriptor ∈ descriptors, shelf.registry.Lives descriptor) :
    (shelf.give chip descriptors).Sound := by
  refine ⟨h.registry, h.wellFormed, fun entry hentry => ?_, fun entry hentry => ?_⟩
  all_goals rcases List.mem_append.mp hentry with hold | hnew
  · exact h.own entry hold
  · obtain ⟨descriptor, hdescriptor, rfl⟩ := List.mem_map.mp hnew
    exact hown descriptor hdescriptor
  · exact h.lives entry hold
  · obtain ⟨descriptor, hdescriptor, rfl⟩ := List.mem_map.mp hnew
    exact hlives descriptor hdescriptor

/-! ### Actions -/

variable [Machine σ]

def act (shelf : Shelf σ) : Action σ → Option (Shelf σ)
  | .new place | .clear place => some (shelf.put place {})
  | .fromLines place descriptors =>
    some (shelf.settle place (shelf.registry.gather descriptors))
  | .append place descriptor =>
    some (shelf.settle place (shelf.registry.append (shelf.bundle place) descriptor))
  | .getLine chip offset =>
    (shelf.registry.getLine chip offset).map fun (outcome, registry) =>
      { shelf with registry }.give chip outcome.toOption.toList
  | .getLines place chip offsets =>
    (shelf.registry.getLines chip offsets).map (shelf.fetched place chip)
  | .getAllLines place chip =>
    (shelf.registry.getAllLines chip).map (shelf.fetched place chip)
  | .clone source place => some (shelf.put place (shelf.bundle source))
  | .single place descriptor => some (shelf.put place (.single descriptor))
  | .wait source place token timeout others =>
    (shelf.registry.wait (shelf.bundle source) token timeout others).map (shelf.waited place)
  | .meanwhile happening =>
    (shelf.registry.undergo happening).map fun registry => { shelf with registry }

def run (shelf : Shelf σ) (actions : List (Action σ)) : Option (Shelf σ) := actions.foldlM act shelf

/-- Both ways to fetch a group from a chip. -/
theorem Sound.fetched (h : shelf.Sound) (place : Place) (chip : ChipId) (offsets : List Offset) :
    ∃ after, (shelf.registry.getLines chip offsets).map (shelf.fetched place chip) = some after ∧
      after.Sound := by
  obtain ⟨outcome, registry, hget, hgroup, hleads, hlives⟩ := h.registry.getLines chip offsets
  refine ⟨_, by rw [hget, Option.map_some], ?_⟩
  have hmade : ∀ group, outcome.map Bundle.group = .ok group → group.WellFormed :=
    fun group hgrown => World.wellFormed_getLinesInto (hgroup ▸ hgrown) Group.wellFormed_empty
  refine ((h.advance hleads).settle place hmade).give ?_ ?_
  all_goals cases outcome with
  | error error => exact nofun
  | ok bundle => ?_
  · intro descriptor hdescriptor
    exact World.chip_of_mem_getLines hgroup.symm _ (List.mem_map_of_mem hdescriptor)
  · exact hlives bundle rfl

theorem Sound.act (h : shelf.Sound) (action : Action σ) :
    ∃ after, shelf.act action = some after ∧ after.Sound := by
  cases action with
  | new place | clear place => exact ⟨_, rfl, h.put place Group.wellFormed_empty⟩
  | fromLines place descriptors =>
      refine ⟨_, rfl, h.settle place fun group hmade => ?_⟩
      rw [Registry.gather_group] at hmade
      exact World.wellFormed_groupOf hmade
  | append place descriptor =>
      refine ⟨_, rfl, h.settle place fun group hmade => ?_⟩
      rw [Registry.append_group] at hmade
      exact World.wellFormed_append hmade (h.wellFormed place)
  | getLine chip offset =>
      obtain ⟨outcome, registry, hget, hline, hleads, hlives⟩ := h.registry.getLine chip offset
      refine ⟨_, by rw [Shelf.act, hget, Option.map_some], (h.advance hleads).give ?_ ?_⟩
      · intro descriptor hdescriptor
        rw [eq_ok_of_mem_toOption hdescriptor] at hline
        exact congrArg Line.chip (World.eq_of_getLine hline.symm)
      · exact fun descriptor hdescriptor => hlives descriptor (eq_ok_of_mem_toOption hdescriptor)
  | getLines place chip offsets => exact h.fetched place chip offsets
  | getAllLines place chip => exact h.fetched place chip _
  | clone source place => exact ⟨_, rfl, h.put place (h.wellFormed source)⟩
  | single place descriptor =>
      exact ⟨_, rfl, h.put place (Group.wellFormed_single descriptor.line)⟩
  | wait source place token timeout others =>
      obtain ⟨registry, hwait, hleads⟩ :=
        h.registry.wait (shelf.bundle source) token timeout others
      refine ⟨_, by rw [Shelf.act, hwait, Option.map_some], ?_⟩
      cases houtcome : (shelf.world.wait (shelf.group source) token timeout
          (others.map Happening.intervention)).1 with
      | error error => exact h.advance hleads
      | ok polled =>
          cases polled with
          | pending => exact h.advance hleads
          | ready ready =>
              refine (h.advance hleads).put place ?_
              rw [Bundle.group_among houtcome]
              exact (h.wellFormed source).sublist (World.sublist_wait houtcome)
  | meanwhile happening =>
      obtain ⟨registry, hundergo, hleads⟩ := h.registry.undergo happening
      exact ⟨_, by rw [Shelf.act, hundergo, Option.map_some], h.advance hleads⟩

theorem Sound.run (h : shelf.Sound) (actions : List (Action σ)) :
    ∃ after, shelf.run actions = some after ∧ after.Sound := by
  induction actions generalizing shelf with
  | nil => exact ⟨shelf, rfl, h⟩
  | cons action rest ih =>
      obtain ⟨next, hnext, hsound⟩ := h.act action
      obtain ⟨after, hafter, hlast⟩ := ih hsound
      refine ⟨after, ?_, hlast⟩
      rw [Shelf.run, List.foldlM_cons, hnext]
      exact hafter

/-! ### Whatever was done -/

/-- What becomes of a group that a line is to be taken into. -/
structure Appends (shelf : Shelf σ) (place : Place) (descriptor : Descriptor) : Prop where
  closed : shelf.world.isValid descriptor.line = false →
    shelf.registry.append (shelf.bundle place) descriptor = .error (.invalidArgument .closedChip)
  full : shelf.world.isValid descriptor.line = true → maxLines ≤ (shelf.group place).size →
    shelf.registry.append (shelf.bundle place) descriptor = .error (.limitExceeded maxLines)
  /-- Whether the chip of the members is still open does not matter. -/
  foreign : shelf.world.isValid descriptor.line = true → (shelf.group place).size < maxLines →
    (∃ member ∈ (shelf.group place).lines, member.chip ≠ descriptor.line.chip) →
    shelf.registry.append (shelf.bundle place) descriptor = .error .crossChip
  joins : shelf.world.isValid descriptor.line = true → (shelf.group place).size < maxLines →
    (∀ member ∈ (shelf.group place).lines, member.chip = descriptor.line.chip) →
    shelf.act (.append place descriptor) =
      some (shelf.put place ((shelf.bundle place).push descriptor))
  untouched : ∀ error, shelf.registry.append (shelf.bundle place) descriptor = .error error →
    shelf.act (.append place descriptor) = some shelf

theorem Sound.appends (h : shelf.Sound) (place : Place) (descriptor : Descriptor) :
    shelf.Appends place descriptor where
  closed := fun hclosed => Registry.append_of_error (World.append_of_closed _ hclosed)
  full := fun hvalid hfull => Registry.append_of_error (World.append_of_full hvalid hfull)
  foreign := by
    rintro hvalid hroom ⟨member, hmember, hforeign⟩
    exact Registry.append_of_error
      (World.append_of_foreign (h.wellFormed place) hvalid hroom hmember hforeign)
  joins := by
    intro hvalid hroom hsame
    rw [Shelf.act, Registry.append_of_ok (World.append_eq_push hvalid hroom hsame), Shelf.settle]
  untouched := by
    intro error herror
    rw [Shelf.act, herror, Shelf.settle]

structure Behaves (shelf : Shelf σ) : Prop where
  few : ∀ place, (shelf.group place).size ≤ maxLines
  oneChip : ∀ place, ∀ a ∈ (shelf.group place).lines, ∀ b ∈ (shelf.group place).lines,
    a.chip = b.chip
  appends : ∀ place descriptor, shelf.Appends place descriptor
  gathers : ∀ descriptors : List Descriptor, shelf.world.Gathers (descriptors.map (·.line))
    ((shelf.registry.gather descriptors).map Bundle.group)
  fetches : ∀ id count, shelf.world.HasOpen id count → ∀ offsets, ∃ outcome after,
    shelf.registry.getLines id offsets = some (outcome, after) ∧
      shelf.world.Fetches id count offsets (outcome.map Bundle.group)
  fetchesAll : ∀ id count, shelf.world.HasOpen id count → ∃ outcome after,
    shelf.registry.getAllLines id = some (outcome, after) ∧
      shelf.world.Fetches id count (offsetsBelow count) (outcome.map Bundle.group)
  told_apart : ∀ chip a b, (chip, a) ∈ shelf.given → (chip, b) ∈ shelf.given →
    (a.same b = true ↔ a.line.offset = b.line.offset)

/-- **Groups are well formed however they are made**, and lines of one chip are told apart by their
offsets. -/
theorem behaves_of_run (machine : σ) (actions : List (Action σ)) :
    ∃ shelf, (start machine).run actions = some shelf ∧ shelf.Behaves := by
  obtain ⟨shelf, hrun, hsound⟩ := (sound_start machine).run actions
  refine ⟨shelf, hrun, fun place => (hsound.wellFormed place).size_le,
    fun place => (hsound.wellFormed place).same_chip, hsound.appends, fun descriptors => ?_,
    fun id count hopen offsets => ?_, fun id count hopen => ?_, fun chip a b ha hb => ?_⟩
  · rw [Registry.gather_group]
    exact World.gathers ..
  · obtain ⟨outcome, after, hget, hgroup, -⟩ := hsound.registry.getLines id offsets
    exact ⟨outcome, after, hget, hgroup ▸ hopen.fetches offsets⟩
  · obtain ⟨outcome, after, hget, hgroup, -⟩ :=
      hsound.registry.getLines id ((shelf.world.chips[id]?).elim [] Chip.offsets)
    refine ⟨outcome, after, hget, ?_⟩
    rw [hgroup, hopen.offsets]
    exact hopen.fetches (offsetsBelow count)
  · rw [hsound.registry.same_iff (hsound.lives _ ha) (hsound.lives _ hb)]
    constructor
    · exact congrArg Line.offset
    · exact Line.eq_of_offset ((hsound.own _ ha).trans (hsound.own _ hb).symm)

def twoChips : Bench := { simulators := [.create "gpiochip0" 2, .create "gpiochip1" 70] }

/-- All lines of a chip, one of them looked up again, and a group of both in the other order. Then the
chip is closed, and a line of another chip does not go into that group. -/
def replaced : List (Action Bench) :=
  [.meanwhile (.call (.openChip (.simulator 0))), .getAllLines 0 0, .getLine 0 1,
    .fromLines 1 [⟨1, ⟨0, 1⟩⟩, ⟨0, ⟨0, 0⟩⟩], .meanwhile (.call (.closeChip 0)),
    .meanwhile (.call (.openChip (.simulator 1))), .getLine 1 3, .append 1 ⟨2, ⟨1, 3⟩⟩]

/-- The second look-up of the line has found its descriptor, and none of the first chip was used for
the second. -/
theorem behaves_replaced : ∃ shelf : Shelf Bench, (start twoChips).run replaced = some shelf ∧
    shelf.Behaves ∧ shelf.given.map (·.2.address) = [0, 1, 1, 2] ∧
      (shelf.bundle 1).descriptors.map (·.address) = [1, 0] ∧
      shelf.world.isValid ⟨0, 1⟩ = false ∧ ∃ outcome after,
        shelf.registry.getAllLines 1 = some (outcome, after) ∧
          shelf.world.Fetches 1 70 (offsetsBelow 70) (outcome.map Bundle.group) := by
  obtain ⟨shelf, hrun, hbehaves⟩ := behaves_of_run twoChips replaced
  have hends : ((start twoChips).run replaced).map (fun shelf =>
      (shelf.given.map (·.2.address), (shelf.bundle 1).descriptors.map (·.address),
        shelf.world.isValid ⟨0, 1⟩)) = some ([0, 1, 1, 2], [1, 0], false) := by decide
  have hopens : (((start twoChips).run replaced).bind fun shelf =>
      (shelf.world.openChip 1).toOption.map Chip.lineCount) = some 70 := by decide
  rw [hrun] at hends hopens
  obtain ⟨hgiven, hends⟩ := Prod.mk.inj (Option.some.inj hends)
  obtain ⟨hbundle, hclosed⟩ := Prod.mk.inj hends
  refine ⟨shelf, hrun, hbehaves, hgiven, hbundle, hclosed, hbehaves.fetchesAll 1 70 ?_⟩
  obtain ⟨chip, hchip, hcount⟩ := Option.map_eq_some_iff.mp hopens
  exact ⟨chip, eq_ok_of_mem_toOption (Option.mem_toList.mpr hchip), hcount⟩

end Shelf

end GpioLines
