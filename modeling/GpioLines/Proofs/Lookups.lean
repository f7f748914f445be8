import GpioLines.Proofs.Mirroring

/-!
# What is looked up in a region

Before it calls a device an operation looks up the chip of its group and the handles that serve it,
and settles on a plan. In worlds that mirror each other in a region it finds the same for a group of
the region, under other numbers, and where it fails it fails alike.
-/

namespace GpioLines

/-! ### Lists under other numbers -/

theorem mapM_map {ε α β γ : Type} {f : α → Except ε β} {f' : α → Except ε γ} {g : β → γ}
    {items : List α} (h : ∀ item ∈ items, f' item = (f item).map g) :
    items.mapM f' = (items.mapM f).map (List.map g) := by
  induction items with
  | nil => rfl
  | cons item rest ih =>
      rw [List.mapM_cons, List.mapM_cons, h item List.mem_cons_self,
        ih fun other hother => h other (List.mem_cons_of_mem _ hother)]
      cases f item with
      | error error => rfl
      | ok result => cases rest.mapM f <;> rfl

theorem lookup_map {α : Type} {f : Nat → Nat} (hf : Function.Injective f) (entries : List (Nat × α))
    (key : Nat) :
    (entries.map fun entry => (f entry.1, entry.2)).lookup (f key) = entries.lookup key := by
  induction entries with
  | nil => rfl
  | cons entry rest ih =>
      rw [List.map_cons, List.lookup_cons, List.lookup_cons, ih]
      by_cases hkey : key = entry.1
      · rw [hkey, beq_self_eq_true, beq_self_eq_true]
      · rw [beq_false_of_ne hkey, beq_false_of_ne fun heq => hkey (hf heq)]

namespace World

theorem distinctHandles_map {numbers : Renumbering}
    (hnumbers : Function.Injective numbers.handle) (handles : List (HandleId × Handle)) :
    distinctHandles (handles.map numbers.held) = (distinctHandles handles).map numbers.held := by
  have hfold : ∀ rest seen : List (HandleId × Handle),
      (rest.map numbers.held).foldl
          (fun seen held => if seen.any (·.1 == held.1) then seen else seen ++ [held])
          (seen.map numbers.held) =
        (rest.foldl (fun seen held => if seen.any (·.1 == held.1) then seen else seen ++ [held])
          seen).map numbers.held := by
    intro rest
    induction rest with
    | nil => exact fun _ => rfl
    | cons held rest ih =>
        intro seen
        have hany : (seen.map numbers.held).any (·.1 == (numbers.held held).1) =
            seen.any (·.1 == held.1) := by
          rw [List.any_map]
          refine List.any_congr rfl fun entry => ?_
          rw [Function.comp, Bool.eq_iff_iff, beq_iff_eq, beq_iff_eq]
          exact hnumbers.eq_iff
        rw [List.map_cons, List.foldl_cons, List.foldl_cons, hany]
        split
        · exact ih seen
        · rw [← ih, List.map_append, List.map_singleton]
  exact hfold handles []

theorem valueOf_map {numbers : Renumbering} (hnumbers : Function.Injective numbers.handle)
    (fetched : List (HandleId × List UInt8)) (line : Line) (held : HandleId × Handle) :
    valueOf (fetched.map fun entry => (numbers.handle entry.1, entry.2)) line (numbers.held held) =
      valueOf fetched line held := by
  rw [valueOf, valueOf, Renumbering.held, lookup_map hnumbers]
  rfl

/-! ### The border of a region -/

/-- No handle reaches over the border of the region. -/
structure Fenced (world : World (Traced Bench)) (region : Region) (lent : List (Device × FileId)) :
    Prop where
  desk : Desk.Sound ⟨world, 0⟩
  accord : world.Accord lent
  closed : ∀ id handle, world.handles.get? id = some handle →
    handle.device.simulator? = some region.index →
    (∃ offset ∈ handle.offsets, offset ∈ region.offsets) →
    ∀ offset ∈ handle.offsets, offset ∈ region.offsets

/-- What serves a line of the region is a handle of the region. -/
theorem Fenced.has {world : World (Traced Bench)} {region : Region} {lent : List (Device × FileId)}
    (h : world.Fenced region lent) {line : Line} (hline : region.Lists world line) {id : HandleId}
    (hholds : world.ledger.Holds line id) :
    ∃ handle, world.handles.get? id = some handle ∧ region.Has handle := by
  obtain ⟨handle, hget, -, hlisted⟩ := h.desk.ledger.slot_open line id hholds
  have hdevice : handle.device = .simulator region.index :=
    Option.some.inj (((h.accord.home line id hholds).2 handle hget).symm.trans hline.1)
  refine ⟨handle, hget, hdevice, h.closed id handle hget ?_ ⟨_, hlisted, hline.2⟩⟩
  rw [hdevice]
  rfl

namespace Mirrors

variable {region : Region} {numbers : Renumbering} {gap : Int} {a b : World (Traced Bench)}
  {lent : List (Device × FileId)} {group : Group}

/-! ### Chips -/

theorem openChip (h : Mirrors region numbers gap a b) (id : ChipId) :
    (∃ error, a.openChip id = .error error ∧ b.openChip id = .error error) ∨
      ∃ chip other, a.openChip id = .ok chip ∧ b.openChip id = .ok other ∧
        other.face = chip.face := by
  have hchip : (b.chips[id]?).map Chip.face = (a.chips[id]?).map Chip.face := by
    rw [← List.getElem?_map, ← List.getElem?_map, h.faces]
  unfold World.openChip
  cases hfirst : a.chips[id]? with
  | none =>
      rw [hfirst, Option.map_none, Option.map_eq_none_iff] at hchip
      rw [hchip]
      exact Or.inl ⟨_, rfl, rfl⟩
  | some chip =>
      rw [hfirst, Option.map_some] at hchip
      obtain ⟨other, hother, hface⟩ := Option.map_eq_some_iff.mp hchip
      have hclosed : other.face.closed = chip.face.closed := congrArg Chip.closed hface
      change other.closed = chip.closed at hclosed
      rw [hother]
      simp only [hclosed]
      cases chip.closed
      · exact Or.inr ⟨chip, other, rfl, rfl, hface⟩
      · exact Or.inl ⟨_, rfl, rfl⟩

theorem chipOf (h : Mirrors region numbers gap a b) (group : Group) :
    (∃ error, a.chipOf group = .error error ∧ b.chipOf group = .error error) ∨
      ∃ chip other, a.chipOf group = .ok chip ∧ b.chipOf group = .ok other ∧
        other.face = chip.face := by
  unfold World.chipOf
  cases group.first? with
  | none => exact Or.inl ⟨_, rfl, rfl⟩
  | some first =>
      rcases h.openChip first.chip with ⟨error, hone, htwo⟩ | ⟨chip, other, hone, htwo, hface⟩
      · simp only [hone, htwo]
        exact Or.inl ⟨_, rfl, rfl⟩
      · simp only [hone, htwo, bind, Except.bind]
        split
        · exact Or.inl ⟨_, rfl, rfl⟩
        · exact Or.inr ⟨chip, other, rfl, rfl, hface⟩

theorem isOpen (h : Mirrors region numbers gap a b) (id : ChipId) : b.isOpen id = a.isOpen id := by
  unfold World.isOpen
  rcases h.openChip id with ⟨error, hone, htwo⟩ | ⟨chip, other, hone, htwo, -⟩
  · rw [hone, htwo]
  · rw [hone, htwo]
    rfl

/-! ### Lines that can be taken -/

theorem firstTaken? (h : Mirrors region numbers gap a b) {lines : List Line}
    (hlines : ∀ line ∈ lines, region.Lists a line) (before : List Line) :
    b.firstTaken? before lines = a.firstTaken? before lines := by
  induction lines generalizing before with
  | nil => rfl
  | cons line rest ih =>
      have hfree : b.isFree line = a.isFree line := by
        rw [Bool.eq_iff_iff, isFree_iff, isFree_iff, h.slot (hlines line List.mem_cons_self)]
        exact Slot.renumber_eq_free
      unfold World.firstTaken?
      rw [hfree, ih fun other hother => hlines other (List.mem_cons_of_mem _ hother)]

theorem checkRequest (h : Mirrors region numbers gap a b) (group : Group) (config : RequestConfig)
    (defaults : Option (List UInt8)) :
    b.checkRequest group config defaults = a.checkRequest group config defaults := by
  unfold World.checkRequest
  rcases h.chipOf group with ⟨error, hone, htwo⟩ | ⟨chip, other, hone, htwo, -⟩
  · rw [hone, htwo]
  · rw [hone, htwo]
    rfl

theorem checkTakeable (h : Mirrors region numbers gap a b)
    (hlines : ∀ line ∈ group.lines, region.Lists a line) :
    (∃ error, a.checkTakeable group = .error error ∧ b.checkTakeable group = .error error) ∨
      ∃ chip other, a.checkTakeable group = .ok chip ∧ b.checkTakeable group = .ok other ∧
        other.face = chip.face := by
  unfold World.checkTakeable
  rw [h.firstTaken? hlines]
  rcases h.chipOf group with ⟨error, hone, htwo⟩ | ⟨chip, other, hone, htwo, hface⟩
  · rw [hone, htwo]
    exact Or.inl ⟨_, rfl, rfl⟩
  · rw [hone, htwo]
    simp only [bind, Except.bind]
    split
    · exact Or.inl ⟨_, rfl, rfl⟩
    · exact Or.inr ⟨chip, other, rfl, rfl, hface⟩

/-! ### Handles -/

theorem handle? (h : Mirrors region numbers gap a b) (ha : a.Fenced region lent) {line : Line}
    (hline : region.Lists a line) : b.handle? line = (a.handle? line).map numbers.held := by
  have hslot : (b.slot line).handle? = (a.slot line).handle?.map numbers.handle := by
    rw [h.slot hline, Slot.handle?_renumber]
  unfold World.handle?
  rw [hslot]
  cases hheld : (a.slot line).handle? with
  | none => rfl
  | some id =>
      obtain ⟨handle, hget, hhas⟩ := ha.has hline hheld
      simp only [Option.map_some, Option.bind_some, hget, h.handle id handle hget hhas]
      rfl

theorem handlesOf (h : Mirrors region numbers gap a b) (ha : a.Fenced region lent)
    (hlines : ∀ line ∈ group.lines, region.Lists a line) :
    b.handlesOf group = (a.handlesOf group).map (List.map numbers.held) := by
  have hmembers : group.lines.mapM b.handleOf =
      (group.lines.mapM a.handleOf).map (List.map numbers.held) := by
    refine mapM_map fun line hmem => ?_
    unfold World.handleOf
    rw [h.handle? ha (hlines line hmem)]
    cases a.handle? line <;> rfl
  unfold World.handlesOf
  rcases h.chipOf group with ⟨error, hone, htwo⟩ | ⟨chip, other, hone, htwo, -⟩
  · rw [hone, htwo]
    rfl
  · rw [hone, htwo]
    exact hmembers

theorem valuesHandle (h : Mirrors region numbers gap a b) (ha : a.Fenced region lent)
    (hlines : ∀ line ∈ group.lines, region.Lists a line) :
    b.valuesHandle group = (a.valuesHandle group).map numbers.held := by
  unfold World.valuesHandle
  rw [h.handlesOf ha hlines]
  rcases a.handlesOf group with error | held
  · rfl
  rcases held with - | ⟨first, rest⟩
  · rfl
  have hkinds : ((first :: rest).map numbers.held).any (·.2.kind != .values) =
      (first :: rest).any (·.2.kind != .values) := List.any_map ..
  have hothers : (rest.map numbers.held).any (·.1 != (numbers.held first).1) =
      rest.any (·.1 != first.1) := by
    rw [List.any_map]
    refine List.any_congr rfl fun entry => ?_
    rw [Function.comp, Bool.eq_iff_iff, bne_iff_ne, bne_iff_ne]
    exact h.handles.injective.ne_iff
  simp only [Except.map, bind, Except.bind, List.map_cons]
  rw [List.map_cons] at hkinds
  rw [hkinds, hothers]
  split
  · rfl
  · split
    · rfl
    · change (if first.2.offsets.any _ then _ else _) = _
      split <;> rfl

/-! ### Plans -/

theorem planValues (h : Mirrors region numbers gap a b) (ha : a.Fenced region lent)
    (hlines : ∀ line ∈ group.lines, region.Lists a line) (values : List UInt8) :
    b.planValues group values = (a.planValues group values).map fun plan =>
      (numbers.handle plan.1, plan.2.1.renumber numbers, plan.2.2) := by
  unfold World.planValues
  rw [h.valuesHandle ha hlines]
  cases group.checkCount values with
  | error error => rfl
  | ok _ =>
      rcases a.valuesHandle group with error | ⟨id, handle⟩
      · rfl
      · change (group.inRequestOrder handle values >>= _) = _
        cases hordered : group.inRequestOrder handle values with
        | error error =>
            simp only [bind, Except.bind, hordered]
            rfl
        | ok ordered =>
            simp only [bind, Except.bind, hordered]
            rfl

end Mirrors

def ConfigPlan.renumber (plan : ConfigPlan) (numbers : Renumbering) : ConfigPlan :=
  { plan with id := numbers.handle plan.id, handle := plan.handle.renumber numbers }

theorem Mirrors.planConfig {region : Region} {numbers : Renumbering} {gap : Int}
    {a b : World (Traced Bench)} {lent : List (Device × FileId)} {group : Group}
    (h : Mirrors region numbers gap a b) (ha : a.Fenced region lent)
    (hlines : ∀ line ∈ group.lines, region.Lists a line) (type : RequestType) (flags : RequestFlags)
    (values : Option (List UInt8)) :
    b.planConfig group type flags values =
      (a.planConfig group type flags values).map (·.renumber numbers) := by
  unfold World.planConfig
  rw [h.valuesHandle ha hlines]
  rcases h.chipOf group with ⟨error, hone, htwo⟩ | ⟨chip, other, hone, htwo, -⟩
  · rw [hone, htwo]
    rfl
  rw [hone, htwo]
  rcases a.valuesHandle group with error | ⟨id, handle⟩
  · rfl
  cases values with
  | none => rfl
  | some values =>
      have hflags : configFlags (handle.renumber numbers) type flags = configFlags handle type flags :=
        rfl
      have hordered : group.inRequestOrder (handle.renumber numbers) values =
          group.inRequestOrder handle values := rfl
      simp only [Except.map, bind, Except.bind, Renumbering.held, hflags, hordered]
      split
      · cases group.inRequestOrder handle values <;> rfl
      · rfl

end World

end GpioLines
