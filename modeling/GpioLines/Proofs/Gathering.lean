import GpioLines.Proofs.Waiting
import GpioLines.Proofs.Whereabouts

/-!
# How groups grow

A line is taken into a group unless its chip is closed, the group is full, or the members are of
another chip, and the first of these that holds is what the refusal tells. So lines are gathered into
a group one by one, up to the first that cannot be taken in.

A list of offsets is fetched one by one as well, so whether an offset is in the way is decided in the
world that the refreshes before it have left: its range first, then its own refresh, and the room in
the group last. The lines are fetched exactly if no offset is in the way, and otherwise the first one
that is decides.
-/

namespace GpioLines

namespace World

variable {σ : Type} {world : World σ}

/-! ### Taking a line in -/

theorem append_of_full {group : Group} {line : Line} (hvalid : world.isValid line = true)
    (hfull : maxLines ≤ group.size) :
    world.append group line = .error (.limitExceeded maxLines) := by
  rw [append, hvalid, if_pos hfull]
  rfl

/-- One member of another chip is enough, because the first one is of the same chip. -/
theorem append_of_foreign {group : Group} {line member : Line} (hgroup : group.WellFormed)
    (hvalid : world.isValid line = true) (hroom : group.size < maxLines)
    (hmember : member ∈ group.lines) (hforeign : member.chip ≠ line.chip) :
    world.append group line = .error .crossChip := by
  obtain ⟨first, rest, hlines⟩ := List.exists_cons_of_ne_nil (List.ne_nil_of_mem hmember)
  have hfirst : first ∈ group.lines := hlines ▸ List.mem_cons_self
  have hchip : first.chip ≠ line.chip := by
    rwa [hgroup.same_chip first hfirst member hmember]
  rw [append, hvalid, if_neg (Nat.not_le.mpr hroom), Group.first?, hlines, List.head?_cons]
  simp only [Bool.not_true, Bool.false_eq_true, if_false, hchip]

theorem append_eq_push {group : Group} {line : Line} (hvalid : world.isValid line = true)
    (hroom : group.size < maxLines) (hsame : ∀ member ∈ group.lines, member.chip = line.chip) :
    world.append group line = .ok (group.push line) := by
  rw [append, hvalid, if_neg (Nat.not_le.mpr hroom)]
  simp only [Bool.not_true, Bool.false_eq_true, if_false]
  split
  · next first hfirst => rw [if_pos (hsame first (List.mem_of_head? hfirst))]
  · rfl

/-! ### Taking lines in one after the other -/

/-- Lines that can be one group: not too many, of one chip, and that chip is open. -/
structure Gatherable (world : World σ) (lines : List Line) : Prop where
  few : lines.length ≤ maxLines
  valid : ∀ line ∈ lines, world.isValid line = true
  oneChip : ∀ a ∈ lines, ∀ b ∈ lines, a.chip = b.chip

theorem gatherable_nil : world.Gatherable [] := ⟨Nat.zero_le _, nofun, nofun⟩

theorem Gatherable.of_append {front rest : List Line} (h : world.Gatherable (front ++ rest)) :
    world.Gatherable front where
  few := (List.length_append ▸ Nat.le_add_right ..).trans h.few
  valid := fun line hline => h.valid line (List.mem_append_left rest hline)
  oneChip := fun a ha b hb =>
    h.oneChip a (List.mem_append_left rest ha) b (List.mem_append_left rest hb)

theorem Gatherable.append_eq_ok {front : List Line} (h : world.Gatherable front) {line : Line}
    {grown : Group} : world.append ⟨front⟩ line = .ok grown ↔
      world.Gatherable (front ++ [line]) ∧ grown = ⟨front ++ [line]⟩ := by
  constructor
  · intro hgrown
    cases hvalid : world.isValid line with
    | false =>
        rw [append_of_closed _ hvalid] at hgrown
        cases hgrown
    | true =>
        by_cases hfull : maxLines ≤ front.length
        · rw [append_of_full hvalid hfull] at hgrown
          cases hgrown
        have hroom : front.length < maxLines := Nat.not_le.mp hfull
        by_cases hsame : ∀ member ∈ front, member.chip = line.chip
        · rw [append_eq_push hvalid hroom hsame] at hgrown
          refine ⟨⟨?_, ?_, ?_⟩, (Except.ok.inj hgrown).symm⟩
          · rw [List.length_append]
            exact hroom
          · intro member hmember
            rcases List.mem_append.mp hmember with hold | hnew
            · exact h.valid member hold
            · rwa [List.mem_singleton.mp hnew]
          · have hchip : ∀ member ∈ front ++ [line], member.chip = line.chip := by
              intro member hmember
              rcases List.mem_append.mp hmember with hold | hnew
              · exact hsame member hold
              · rw [List.mem_singleton.mp hnew]
            exact fun a ha b hb => (hchip a ha).trans (hchip b hb).symm
        · push Not at hsame
          obtain ⟨member, hmember, hforeign⟩ := hsame
          have hgroup : Group.WellFormed ⟨front⟩ := ⟨h.few, h.oneChip⟩
          rw [append_of_foreign hgroup hvalid hroom hmember hforeign] at hgrown
          cases hgrown
  · rintro ⟨hall, rfl⟩
    have hline : line ∈ front ++ [line] := List.mem_append_right front (List.mem_singleton_self line)
    have hroom : front.length < maxLines := by
      have hfew := hall.few
      rwa [List.length_append] at hfew
    exact append_eq_push (hall.valid line hline) hroom fun member hmember =>
      hall.oneChip member (List.mem_append_left _ hmember) line hline

/-- Lines are gathered exactly if they can be one group, and the first that cannot be taken in decides
how it fails otherwise. -/
structure Gathers (world : World σ) (given : List Line) (outcome : Except Error Group) : Prop where
  succeeds_iff : (∃ group, outcome = .ok group) ↔ world.Gatherable given
  lines : ∀ group, outcome = .ok group → group.lines = given
  fails_iff : ∀ error, outcome = .error error ↔
    ∃ before line after, given = before ++ line :: after ∧ world.Gatherable before ∧
      world.append ⟨before⟩ line = .error error

theorem groupFrom_eq_ok {front rest : List Line} (h : world.Gatherable front) {group : Group} :
    rest.foldlM world.append ⟨front⟩ = .ok group ↔
      world.Gatherable (front ++ rest) ∧ group = ⟨front ++ rest⟩ := by
  induction rest generalizing front with
  | nil =>
      rw [List.append_nil]
      exact ⟨fun hgroup => ⟨h, (Except.ok.inj hgroup).symm⟩, fun hgroup => congrArg _ hgroup.2.symm⟩
  | cons line rest ih =>
      rw [List.foldlM_cons, bind_eq_ok]
      constructor
      · rintro ⟨grown, hgrown, hgroup⟩
        obtain ⟨hall, rfl⟩ := h.append_eq_ok.mp hgrown
        rw [ih hall, ← List.append_cons] at hgroup
        exact hgroup
      · intro hgroup
        rw [List.append_cons] at hgroup
        have hall := hgroup.1.of_append
        exact ⟨_, h.append_eq_ok.mpr ⟨hall, rfl⟩, (ih hall).mpr hgroup⟩

theorem groupFrom_eq_error {front rest : List Line} (h : world.Gatherable front) {error : Error} :
    rest.foldlM world.append ⟨front⟩ = .error error ↔
      ∃ before line after, rest = before ++ line :: after ∧
        world.Gatherable (front ++ before) ∧ world.append ⟨front ++ before⟩ line = .error error := by
  induction rest generalizing front with
  | nil =>
      refine iff_of_false nofun ?_
      rintro ⟨before, line, after, hsplit, -⟩
      exact absurd hsplit.symm (List.append_ne_nil_of_right_ne_nil before (List.cons_ne_nil line after))
  | cons line rest ih =>
      rw [List.foldlM_cons, bind_eq_error]
      constructor
      · rintro (hfirst | ⟨grown, hgrown, hrest⟩)
        · exact ⟨[], line, rest, rfl, by rwa [List.append_nil], by rwa [List.append_nil]⟩
        · obtain ⟨hall, rfl⟩ := h.append_eq_ok.mp hgrown
          obtain ⟨before, other, after, rfl, hbefore, herror⟩ := (ih hall).mp hrest
          rw [← List.append_cons] at hbefore herror
          exact ⟨line :: before, other, after, rfl, hbefore, herror⟩
      · rintro ⟨before, other, after, hsplit, hbefore, herror⟩
        rcases List.append_eq_cons_iff.mp hsplit.symm with ⟨rfl, hhead⟩ | ⟨more, rfl, hmore⟩
        · obtain ⟨rfl, -⟩ := List.cons_eq_cons.mp hhead
          rw [List.append_nil] at herror
          exact Or.inl herror
        · rw [List.append_cons] at hbefore herror
          have hall := hbefore.of_append
          exact Or.inr ⟨_, h.append_eq_ok.mpr ⟨hall, rfl⟩,
            (ih hall).mpr ⟨more, other, after, hmore, hbefore, herror⟩⟩

theorem gathers (world : World σ) (lines : List Line) :
    world.Gathers lines (world.groupOf lines) where
  succeeds_iff := by
    refine ⟨fun ⟨group, hgroup⟩ => ((groupFrom_eq_ok gatherable_nil).mp hgroup).1, fun h => ?_⟩
    exact ⟨_, (groupFrom_eq_ok gatherable_nil).mpr ⟨h, rfl⟩⟩
  lines := fun group hgroup => congrArg Group.lines ((groupFrom_eq_ok gatherable_nil).mp hgroup).2
  fails_iff := fun _ => groupFrom_eq_error gatherable_nil

/-! ### Fetching one offset after the other -/

/-- The chip is open and has so many lines. -/
def HasOpen (world : World σ) (id : ChipId) (count : UInt32) : Prop :=
  ∃ chip, world.openChip id = .ok chip ∧ chip.lineCount = count

theorem HasOpen.isValid {id : ChipId} {count : UInt32} (h : world.HasOpen id count)
    (offset : Offset) : world.isValid ⟨id, offset⟩ = true := by
  obtain ⟨chip, hopen, -⟩ := h
  exact isValid_iff.mpr ⟨chip, hopen⟩

variable [Machine σ] {id : ChipId} {count : UInt32}

theorem HasOpen.refresh (h : world.HasOpen id count) (line : Line) :
    (world.refresh line).2.HasOpen id count := by
  obtain ⟨chip, hopen, rfl⟩ := h
  have hclosed : (world.refresh line).2.ledger.closed? id = some false :=
    calc (world.refresh line).2.ledger.closed? id
        = world.ledger.closed? id := congrArg (·.closed? id) (board_refresh world line)
      _ = some false := closed?_eq_false.mpr ⟨chip, hopen⟩
  obtain ⟨after, hafter⟩ := closed?_eq_false.mp hclosed
  have hdeals : Deals False ⟨world, ∅⟩ ⟨(world.refresh line).2, ∅⟩ := deals_refresh_idle line
  have hcount := hdeals.keepsCounts id _ (lineCount?_of_openChip hopen)
  rw [lineCount?_of_openChip hafter] at hcount
  exact ⟨after, hafter, Option.some.inj hcount⟩

/-- The world after the lines of a chip at these offsets were refreshed, one after the other. -/
def refreshAll (world : World σ) (id : ChipId) (offsets : List Offset) : World σ :=
  offsets.foldl (fun world offset => (world.refresh ⟨id, offset⟩).2) world

theorem refreshAll_append (front : List Offset) (offset : Offset) :
    world.refreshAll id (front ++ [offset]) =
      ((world.refreshAll id front).refresh ⟨id, offset⟩).2 := by
  rw [refreshAll, List.foldl_append, List.foldl_cons, List.foldl_nil, refreshAll]

theorem HasOpen.refreshAll (h : world.HasOpen id count) (offsets : List Offset) :
    (world.refreshAll id offsets).HasOpen id count := by
  induction offsets generalizing world with
  | nil => exact h
  | cons offset rest ih => exact ih (h.refresh ⟨id, offset⟩)

/-- What is in the way of an offset that comes after these others. -/
def obstacle? (world : World σ) (id : ChipId) (count : UInt32) (front : List Offset)
    (offset : Offset) : Option Error :=
  if count ≤ offset then some (.outOfRange offset)
  else match ((world.refreshAll id front).refresh ⟨id, offset⟩).1 with
    | .error error => some error
    | .ok _ => if maxLines ≤ front.length then some (.limitExceeded maxLines) else none

/-- What is in the way of the first offset that something is in the way of. -/
def obstacleAmong? (world : World σ) (id : ChipId) (count : UInt32) (front : List Offset) :
    List Offset → Option Error
  | [] => none
  | offset :: rest =>
    (world.obstacle? id count front offset).or
      (world.obstacleAmong? id count (front ++ [offset]) rest)

theorem obstacle?_eq_none {front : List Offset} {offset : Offset} :
    world.obstacle? id count front offset = none ↔
      offset < count ∧ ((world.refreshAll id front).refresh ⟨id, offset⟩).1 = .ok () ∧
        front.length < maxLines := by
  unfold obstacle?
  split
  · next hrange => exact iff_of_false nofun fun h => UInt32.not_lt.mpr hrange h.1
  · next hrange =>
    have hlt : offset < count := UInt32.not_le.mp hrange
    split
    · next herror =>
      rw [herror]
      exact iff_of_false nofun fun h => nomatch h.2.1
    · next hok =>
      rw [hok]
      split
      · next hfull => exact iff_of_false nofun fun h => Nat.not_lt.mpr hfull h.2.2
      · next hroom => exact iff_of_true rfl ⟨hlt, rfl, Nat.not_le.mp hroom⟩

/-- Nothing is in the way of these offsets, each after the others before it. -/
def Clear (world : World σ) (id : ChipId) (count : UInt32) (front offsets : List Offset) : Prop :=
  ∀ before offset after, offsets = before ++ offset :: after →
    world.obstacle? id count (front ++ before) offset = none

theorem clear_nil {front : List Offset} : world.Clear id count front [] := by
  intro before offset after h
  exact absurd h.symm (List.append_ne_nil_of_right_ne_nil before (List.cons_ne_nil offset after))

theorem clear_cons {front rest : List Offset} {offset : Offset} :
    world.Clear id count front (offset :: rest) ↔
      world.obstacle? id count front offset = none ∧
        world.Clear id count (front ++ [offset]) rest := by
  constructor
  · intro hclear
    refine ⟨?_, ?_⟩
    · simpa using hclear [] offset rest rfl
    · intro before other after hrest
      have hother := hclear (offset :: before) other after (by rw [hrest, List.cons_append])
      rwa [List.append_cons] at hother
  · rintro ⟨hfirst, hrest⟩ before other after hsplit
    rcases List.append_eq_cons_iff.mp hsplit.symm with ⟨rfl, hhead⟩ | ⟨more, rfl, hmore⟩
    · obtain ⟨rfl, -⟩ := List.cons_eq_cons.mp hhead
      rwa [List.append_nil]
    · have hother := hrest more other after hmore
      rwa [← List.append_cons] at hother

theorem obstacleAmong?_eq_none {front offsets : List Offset} :
    world.obstacleAmong? id count front offsets = none ↔ world.Clear id count front offsets := by
  induction offsets generalizing front with
  | nil => exact iff_of_true rfl clear_nil
  | cons offset rest ih => rw [obstacleAmong?, Option.or_eq_none_iff, ih, clear_cons]

theorem obstacleAmong?_eq_some {front offsets : List Offset} {error : Error} :
    world.obstacleAmong? id count front offsets = some error ↔
      ∃ before offset after, offsets = before ++ offset :: after ∧
        world.Clear id count front before ∧
        world.obstacle? id count (front ++ before) offset = some error := by
  induction offsets generalizing front with
  | nil =>
      refine iff_of_false nofun ?_
      rintro ⟨before, offset, after, hsplit, -⟩
      exact absurd hsplit.symm
        (List.append_ne_nil_of_right_ne_nil before (List.cons_ne_nil offset after))
  | cons offset rest ih =>
      rw [obstacleAmong?, Option.or_eq_some_iff, ih]
      constructor
      · rintro (hfirst | ⟨hnone, before, other, after, rfl, hclear, hother⟩)
        · exact ⟨[], offset, rest, rfl, clear_nil, by rwa [List.append_nil]⟩
        · refine ⟨offset :: before, other, after, rfl, clear_cons.mpr ⟨hnone, hclear⟩, ?_⟩
          rwa [List.append_cons]
      · rintro ⟨before, other, after, hsplit, hclear, hother⟩
        rcases List.append_eq_cons_iff.mp hsplit.symm with ⟨rfl, hhead⟩ | ⟨more, rfl, hmore⟩
        · obtain ⟨rfl, -⟩ := List.cons_eq_cons.mp hhead
          rw [List.append_nil] at hother
          exact Or.inl hother
        · obtain ⟨hnone, hclear⟩ := clear_cons.mp hclear
          rw [List.append_cons] at hother
          exact Or.inr ⟨hnone, more, other, after, hmore, hclear, hother⟩

theorem HasOpen.getLine (h : world.HasOpen id count) (offset : Offset) :
    world.getLine id offset =
      if offset < count then
        ((world.refresh ⟨id, offset⟩).1.map fun _ => ⟨id, offset⟩, (world.refresh ⟨id, offset⟩).2)
      else world.fail (.outOfRange offset) := by
  obtain ⟨chip, hopen, rfl⟩ := h
  unfold World.getLine
  simp only [hopen]
  split
  · rcases world.refresh ⟨id, offset⟩ with ⟨error | _, after⟩ <;> rfl
  · rfl

omit [Machine σ] in
theorem append_mapped (hopen : world.HasOpen id count) (front : List Offset) (offset : Offset) :
    world.append ⟨front.map (Line.mk id)⟩ ⟨id, offset⟩ =
      if maxLines ≤ front.length then .error (.limitExceeded maxLines)
      else .ok ⟨(front ++ [offset]).map (Line.mk id)⟩ := by
  have hsize : Group.size ⟨front.map (Line.mk id)⟩ = front.length := List.length_map _
  split
  · next hfull => exact append_of_full (hopen.isValid offset) (hsize ▸ hfull)
  · next hroom =>
    have hsame : ∀ member ∈ front.map (Line.mk id), member.chip = id := by
      intro member hmember
      obtain ⟨other, -, rfl⟩ := List.mem_map.mp hmember
      rfl
    rw [append_eq_push (hopen.isValid offset) (by omega) hsame, Group.push, List.map_append,
      List.map_singleton]

/-- One offset after these others, which are fetched already. -/
theorem getLinesInto_cons (h : world.HasOpen id count) (front rest : List Offset) (offset : Offset) :
    ((world.refreshAll id front).getLinesInto id ⟨front.map (Line.mk id)⟩ (offset :: rest)).1 =
      match world.obstacle? id count front offset with
      | some error => .error error
      | none => ((world.refreshAll id (front ++ [offset])).getLinesInto id
          ⟨(front ++ [offset]).map (Line.mk id)⟩ rest).1 := by
  have hthere : (world.refreshAll id (front ++ [offset])).HasOpen id count := h.refreshAll _
  rw [refreshAll_append] at hthere ⊢
  rw [getLinesInto, (h.refreshAll front).getLine offset, obstacle?]
  by_cases hlt : offset < count
  · rw [if_pos hlt, if_neg (UInt32.not_le.mpr hlt)]
    generalize (world.refreshAll id front).refresh ⟨id, offset⟩ = refreshed at hthere
    obtain ⟨error | _, after⟩ := refreshed
    · rfl
    · simp only [Except.map, append_mapped hthere]
      by_cases hfull : maxLines ≤ front.length
      · simp only [hfull, if_true]
        rfl
      · simp only [hfull, if_false]
  · rw [if_neg hlt, if_pos (UInt32.not_lt.mp hlt)]
    rfl

theorem getLinesInto_eq (h : world.HasOpen id count) (front offsets : List Offset) :
    ((world.refreshAll id front).getLinesInto id ⟨front.map (Line.mk id)⟩ offsets).1 =
      match world.obstacleAmong? id count front offsets with
      | some error => .error error
      | none => .ok ⟨(front ++ offsets).map (Line.mk id)⟩ := by
  induction offsets generalizing front with
  | nil => rw [obstacleAmong?, List.append_nil, getLinesInto]
  | cons offset rest ih =>
      rw [getLinesInto_cons h, obstacleAmong?]
      cases world.obstacle? id count front offset with
      | some error => rfl
      | none =>
          rw [Option.none_or]
          simp only
          rw [ih, List.append_assoc, List.singleton_append]

/-! ### What a fetch gives -/

/-- Each offset is one of the chip, its refresh succeeds, and they are not too many. -/
structure Fetchable (world : World σ) (id : ChipId) (count : UInt32) (offsets : List Offset) :
    Prop where
  few : offsets.length ≤ maxLines
  inRange : ∀ offset ∈ offsets, offset < count
  refreshed : ∀ before offset after, offsets = before ++ offset :: after →
    ((world.refreshAll id before).refresh ⟨id, offset⟩).1 = .ok ()

theorem clear_iff_fetchable {offsets : List Offset} :
    world.Clear id count [] offsets ↔ world.Fetchable id count offsets := by
  constructor
  · intro hclear
    have hoffset : ∀ before offset after, offsets = before ++ offset :: after →
        offset < count ∧ ((world.refreshAll id before).refresh ⟨id, offset⟩).1 = .ok () ∧
          before.length < maxLines := by
      intro before offset after hsplit
      exact obstacle?_eq_none.mp (hclear before offset after hsplit)
    refine ⟨?_, ?_, fun before offset after hsplit => (hoffset before offset after hsplit).2.1⟩
    · rcases List.eq_nil_or_concat offsets with hnil | ⟨before, last, hlast⟩
      · rw [hnil]
        exact Nat.zero_le maxLines
      · have hlength := (hoffset before last [] (by rw [hlast, List.concat_eq_append])).2.2
        rw [hlast, List.length_concat]
        exact hlength
    · intro offset hmem
      obtain ⟨before, after, hsplit⟩ := List.append_of_mem hmem
      exact (hoffset before offset after hsplit).1
  · intro hfetchable before offset after hsplit
    have hlength : before.length < maxLines := by
      have hfew := hfetchable.few
      rw [hsplit, List.length_append, List.length_cons] at hfew
      omega
    have hmem : offset ∈ offsets := hsplit ▸ List.mem_append_right before List.mem_cons_self
    exact obstacle?_eq_none.mpr
      ⟨hfetchable.inRange offset hmem, hfetchable.refreshed before offset after hsplit, hlength⟩

/-- Lines are fetched exactly if all of them can be, and the first offset in the way decides how the
fetch fails otherwise. -/
structure Fetches (world : World σ) (id : ChipId) (count : UInt32) (offsets : List Offset)
    (outcome : Except Error Group) : Prop where
  succeeds_iff : (∃ group, outcome = .ok group) ↔ world.Fetchable id count offsets
  lines : ∀ group, outcome = .ok group → group.lines = offsets.map (Line.mk id)
  fails_iff : ∀ error, outcome = .error error ↔
    ∃ before offset after, offsets = before ++ offset :: after ∧
      world.Fetchable id count before ∧ world.obstacle? id count before offset = some error

theorem HasOpen.fetches (h : world.HasOpen id count) (offsets : List Offset) :
    world.Fetches id count offsets (world.getLines id offsets).1 := by
  have heq : (world.getLines id offsets).1 =
      match world.obstacleAmong? id count [] offsets with
      | some error => .error error
      | none => .ok ⟨offsets.map (Line.mk id)⟩ := getLinesInto_eq h [] offsets
  have hnone : world.obstacleAmong? id count [] offsets = none ↔ world.Fetchable id count offsets :=
    obstacleAmong?_eq_none.trans clear_iff_fetchable
  cases hobstacle : world.obstacleAmong? id count [] offsets with
  | none =>
      rw [hobstacle] at heq
      have hfetchable := hnone.mp hobstacle
      refine ⟨iff_of_true ⟨_, heq⟩ hfetchable, ?_, fun error => iff_of_false ?_ ?_⟩
      · intro group hgroup
        rw [heq] at hgroup
        rw [← Except.ok.inj hgroup]
      · rw [heq]
        exact nofun
      · rintro ⟨before, offset, after, hsplit, -, herror⟩
        have hclear := clear_iff_fetchable.mpr hfetchable before offset after hsplit
        rw [List.nil_append, herror] at hclear
        cases hclear
  | some error =>
      rw [hobstacle] at heq
      refine ⟨iff_of_false ?_ ?_, ?_, fun other => ?_⟩
      · rw [heq]
        exact nofun
      · intro hfetchable
        rw [hnone.mpr hfetchable] at hobstacle
        cases hobstacle
      · rw [heq]
        exact nofun
      · have hsome : world.obstacleAmong? id count [] offsets = some other ↔ _ :=
          obstacleAmong?_eq_some
        simp only [clear_iff_fetchable, List.nil_append, hobstacle] at hsome
        rw [heq, ← hsome, Option.some.injEq, Except.error.injEq]

omit [Machine σ] in
/-- All lines of a chip are those at the offsets from zero on. -/
theorem HasOpen.offsets (h : world.HasOpen id count) :
    (world.chips[id]?).elim [] Chip.offsets = offsetsBelow count := by
  obtain ⟨chip, hopen, rfl⟩ := h
  rw [(openChip_eq_ok.mp hopen).1, Option.elim_some, Chip.offsets]

/-- A chip gives nothing but its own lines. -/
theorem chip_of_mem_getLines {offsets : List Offset} {group : Group}
    (h : (world.getLines id offsets).1 = .ok group) : ∀ line ∈ group.lines, line.chip = id := by
  cases hopen : world.openChip id with
  | ok chip =>
      have hthere : world.HasOpen id chip.lineCount := ⟨chip, hopen, rfl⟩
      rw [(hthere.fetches offsets).lines group h]
      intro line hline
      obtain ⟨offset, -, rfl⟩ := List.mem_map.mp hline
      rfl
  | error error =>
      cases offsets with
      | nil =>
          obtain rfl := Except.ok.inj h
          exact nofun
      | cons offset rest =>
          simp only [getLines, getLinesInto, World.getLine, hopen, fail] at h
          cases h

theorem eq_of_getLine {offset : Offset} {line : Line} (h : (world.getLine id offset).1 = .ok line) :
    line = ⟨id, offset⟩ := by
  unfold World.getLine at h
  split at h
  · cases h
  · split at h
    · simp only at h
      split at h
      · cases h
      · exact (Except.ok.inj h).symm
    · cases h

end World

end GpioLines
