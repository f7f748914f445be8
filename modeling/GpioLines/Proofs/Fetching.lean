import GpioLines.Proofs.ReadBack

/-!
# A read across several requests

The members of a group may come from several requests, in any order and more than once. A read calls
each handle among them once, in the order in which they first appear, and then picks the value of
each member out of the report of its own handle, by the place that the line has there. On a simulated
chip the reports are the levels of the lines, so whatever the mixture, each member gets the value of
its line (`read_reports_every_line`), and reading leaves nothing behind but the calls themselves.
-/

namespace GpioLines

theorem mapM_eq_error {ε α β : Type} {f : α → Except ε β} {before after : List α} {item : α}
    {error : ε} (hbefore : ∀ other ∈ before, ∃ result, f other = .ok result)
    (hitem : f item = .error error) : (before ++ item :: after).mapM f = .error error := by
  induction before with
  | nil =>
      rw [List.nil_append, List.mapM_cons, hitem]
      rfl
  | cons first rest ih =>
      obtain ⟨result, hfirst⟩ := hbefore first List.mem_cons_self
      rw [List.cons_append, List.mapM_cons, hfirst,
        ih fun other hother => hbefore other (List.mem_cons_of_mem _ hother)]
      rfl

namespace World

/-! ### Every handle once -/

/-- **Handles are listed once each, in the order of their first appearance.** -/
theorem map_fst_distinctHandles (handles : List (HandleId × Handle)) :
    (distinctHandles handles).map (·.1) = (handles.map (·.1)).eraseDups := by
  -- what the fold adds to the handles seen so far
  have hfold : ∀ (rest seen : List (HandleId × Handle)),
      (rest.foldl
        (fun seen held => if seen.any (·.1 == held.1) then seen else seen ++ [held]) seen).map (·.1) =
      seen.map (·.1) ++
        ((rest.map (·.1)).filter fun id => !(seen.map (·.1)).contains id).eraseDups := by
    intro rest
    induction rest with
    | nil => intro seen; simp
    | cons held rest ih =>
        intro seen
        have hseen : seen.any (·.1 == held.1) = (seen.map (·.1)).contains held.1 := by
          rw [Bool.eq_iff_iff]
          simp only [List.any_eq_true, List.contains_iff_mem, List.mem_map, beq_iff_eq]
        rw [List.foldl_cons, ih, List.map_cons, List.filter_cons, hseen]
        cases hcontains : (seen.map (·.1)).contains held.1 with
        | true => simp
        | false =>
            simp only [Bool.false_eq_true, if_false, Bool.not_false, if_true, List.eraseDups_cons,
              List.filter_filter, List.map_append, List.map_cons, List.map_nil, List.append_assoc,
              List.cons_append, List.nil_append]
            congr 3
            apply List.filter_congr
            intro id _
            simp only [List.contains_eq_mem, List.mem_append, List.mem_singleton, Bool.decide_or,
              Bool.not_or, Bool.and_comm]
            rfl
  have hall := hfold handles []
  simpa [distinctHandles] using hall

end World

namespace Bench

variable {bench : Bench} {index : Nat} {sim : Simulator} {grant : Grant}

/-- What a simulated chip reports of a grant, into a buffer of that size. Nothing changes. -/
theorem perform_getValues_eq (hsim : bench.simulators[index]? = some sim) {file : FileId}
    (hgrant : sim.grant? file = some grant) {offsets : List Offset}
    (hoffsets : grant.offsets = offsets) :
    ∃ answer, perform (.simulator index) (.getValues file (List.replicate offsets.length 0)) bench =
      (.ok answer, bench) ∧ answer.val = offsets.map sim.value := by
  obtain ⟨answer, after, hperform, hanswer⟩ := perform_getValues hsim hgrant hoffsets
  refine ⟨answer, ?_, hanswer⟩
  have hafter : (perform (.simulator index)
      (.getValues file (List.replicate offsets.length 0)) bench).2 = bench := by
    obtain ⟨hlt, hget⟩ := List.getElem?_eq_some_iff.mp hsim
    simp only [perform, performSimulator, hsim, Simulator.perform, openGranted]
    rw [← hget, List.set_getElem_self]
  rw [hperform] at hafter ⊢
  rw [← show after = bench from hafter]

end Bench

namespace World

variable {world : World (Traced Bench)} {group : Group} {index : Nat} {sim : Simulator}

/-- The world with more calls in its trace. -/
def tracing (world : World (Traced Bench)) (asked : List Exchange) : World (Traced Bench) :=
  { world with machine := { world.machine with trace := world.trace ++ asked } }

theorem tracing_tracing (world : World (Traced Bench)) (asked more : List Exchange) :
    (world.tracing asked).tracing more = world.tracing (asked ++ more) := by
  simp only [tracing, trace, List.append_assoc]

/-- The simulated chip has a grant of each of the handles. -/
def Granted (index : Nat) (sim : Simulator) (held : List (HandleId × Handle)) : Prop :=
  ∀ entry ∈ held, entry.2.device = .simulator index ∧
    ∃ grant, sim.grant? entry.2.file = some grant ∧ grant.offsets = entry.2.offsets

/-- One read of a handle each, in this order, and each tells the values of the handle's lines. -/
def Readings (sim : Simulator) (held : List (HandleId × Handle)) (asked : List Exchange) : Prop :=
  List.Forall₂ (fun entry exchange => ∃ answer, exchange = entry.2.reading (.ok answer) ∧
    answer.val = entry.2.offsets.map sim.value) held asked

theorem fetchAll_granted {held : List (HandleId × Handle)}
    (hsim : world.bench.simulators[index]? = some sim) (hgranted : Granted index sim held) :
    ∃ asked, Readings sim held asked ∧ world.fetchAll held =
      (.ok (held.map fun entry => (entry.1, entry.2.offsets.map sim.value)), world.tracing asked) := by
  induction held generalizing world with
  | nil =>
      refine ⟨[], .nil, ?_⟩
      rw [fetchAll, tracing, List.append_nil, List.map_nil]
  | cons entry rest ih =>
      obtain ⟨id, handle⟩ := entry
      obtain ⟨hdevice, grant, hgrant, hoffsets⟩ := hgranted (id, handle) List.mem_cons_self
      obtain ⟨answer, hbench, hanswer⟩ := Bench.perform_getValues_eq hsim hgrant hoffsets
      have hperform : world.perform handle.device
          (.getValues handle.file (List.replicate handle.offsets.length 0)) =
          (.ok answer, world.tracing [handle.reading (.ok answer)]) := by
        rw [← hdevice] at hbench
        change Bench.perform handle.device _ world.machine.machine = _ at hbench
        simp only [perform, Machine.perform, hbench]
        rfl
      obtain ⟨asked, hasked, hfetch⟩ := @ih (world.tracing [handle.reading (.ok answer)]) hsim
        fun other hother => hgranted other (List.mem_cons_of_mem _ hother)
      refine ⟨handle.reading (.ok answer) :: asked, .cons ⟨answer, rfl, hanswer⟩ hasked, ?_⟩
      unfold fetchAll
      simp only [hperform, hfetch, hanswer, List.map_cons, tracing_tracing]
      rfl

/-- What was fetched has a value for each member, and it is that of its line. -/
theorem valueOf_granted (hsound : world.ledger.Sound) {held : List (HandleId × Handle)}
    (hheld : world.handlesOf group = .ok held) {line : Line} {entry : HandleId × Handle}
    (hmem : (line, entry) ∈ group.lines.zip held) :
    valueOf ((distinctHandles held).map fun entry => (entry.1, entry.2.offsets.map sim.value)) line
      entry = .ok (sim.value line.offset) := by
  obtain ⟨id, handle⟩ := entry
  have hserves := (List.forall₂_iff_zip.mp (forall₂_of_handlesOf hheld).2).2 hmem
  obtain ⟨hholds, hget⟩ := handle?_eq_some.mp hserves
  have hlisted : line.offset ∈ handle.offsets := by
    obtain ⟨found, hfound, -, hoffset⟩ := hsound.slot_open line id hholds
    obtain rfl := Option.mem_unique hget hfound
    exact hoffset
  obtain ⟨place, hplace⟩ := Option.isSome_iff_exists.mp (List.isSome_idxOf?.mpr hlisted)
  obtain ⟨hlt, hoffset, -⟩ := List.idxOf?_eq_some_iff.mp hplace
  -- whichever entry of the list is found, it is of this handle
  have hlookup : ((distinctHandles held).map fun entry =>
      (entry.1, entry.2.offsets.map sim.value)).lookup id = some (handle.offsets.map sim.value) := by
    obtain ⟨entry, hentry, hid⟩ := exists_mem_distinctHandles (List.of_mem_zip hmem).2
    obtain ⟨values, hvalues⟩ := Option.isSome_iff_exists.mp (List.lookup_isSome_iff.mpr
      ⟨_, List.mem_map_of_mem (f := fun entry : HandleId × Handle =>
        (entry.1, entry.2.offsets.map sim.value)) hentry, by simpa using hid.symm⟩)
    obtain ⟨before, after, hsplit, -⟩ := List.lookup_eq_some_iff.mp hvalues
    have hresult : (id, values) ∈ (distinctHandles held).map fun entry =>
        (entry.1, entry.2.offsets.map sim.value) :=
      hsplit ▸ List.mem_append_right _ List.mem_cons_self
    obtain ⟨⟨key, found⟩, hfound, heq⟩ := List.mem_map.mp hresult
    obtain ⟨rfl, rfl⟩ := Prod.mk.inj heq
    obtain rfl := Option.mem_unique hget (found_of_handlesOf hheld _ (mem_distinctHandles hfound))
    exact hvalues
  have hvalue : (handle.offsets.map sim.value)[place]? = some (sim.value line.offset) := by
    rw [List.getElem?_map, List.getElem?_eq_getElem hlt, hoffset, Option.map_some]
  have hindex : handle.indexOf? line.offset = some place := hplace
  simp only [valueOf, hlookup, hindex, hvalue]

/-- How a group over one simulated chip is read. -/
structure ReadsThrough (world : World (Traced Bench)) (group : Group) (index : Nat) : Prop where
  /-- One call a handle, and each member has the value of its line. -/
  requested : world.allRequested group = true → ∃ sim held asked values,
    world.bench.simulators[index]? = some sim ∧
    held.map (·.1) = (group.lines.filterMap fun line => (world.slot line).handle?).eraseDups ∧
    (∀ entry ∈ held, world.handles.get? entry.1 = some entry.2) ∧ Readings sim held asked ∧
    world.getValues group = (.ok values, world.tracing asked) ∧
    List.Forall₂ (fun line value => ∃ simLine, sim.line? line.offset = some simLine ∧
      value = ofActive simLine.active) group.lines values
  /-- No call at all if a member is free, and the first of these is named. -/
  free : ∀ line, group.lines.find? world.isFree = some line →
    world.getValues group = (.error (.permissionDenied line.offset), world)

/-- The handles that serve lines are those that the lines refer to. -/
theorem map_fst_of_serves {lines : List Line} {held : List (HandleId × Handle)}
    (h : List.Forall₂ (fun line entry => world.handle? line = some entry) lines held) :
    held.map (·.1) = lines.filterMap fun line => (world.slot line).handle? := by
  induction h with
  | nil => rfl
  | @cons line entry _ _ hfirst _ ih =>
      have hslot : (world.slot line).handle? = some entry.1 := (handle?_eq_some.mp hfirst).1
      simp only [List.map_cons, ih, List.filterMap_cons, hslot]

theorem handle?_of_isRequested (hsound : world.ledger.Sound) {line : Line}
    (h : world.isRequested line = true) : ∃ entry, world.handleOf line = .ok entry := by
  obtain ⟨id, hholds⟩ := exists_holds h
  obtain ⟨handle, hget, -⟩ := hsound.slot_open line id hholds
  exact ⟨(id, handle), handleOf_eq_ok.mpr (handle?_eq_some.mpr ⟨hholds, hget⟩)⟩

theorem getValues_of_free (hsound : world.ledger.Sound) {chip : Chip}
    (hchip : world.chipOf group = .ok chip) {line : Line}
    (hfirst : group.lines.find? world.isFree = some line) :
    world.getValues group = (.error (.permissionDenied line.offset), world) := by
  obtain ⟨hfree, before, after, hlines, hbefore⟩ := List.find?_eq_some_iff_append.mp hfirst
  have hserved : ∀ other ∈ before, ∃ entry, world.handleOf other = .ok entry := fun other hother =>
    handle?_of_isRequested hsound (hbefore other hother)
  have hnone : world.handleOf line = .error (.permissionDenied line.offset) := by
    have hslot := isFree_iff.mp hfree
    rw [handleOf, handle?, hslot]
    rfl
  have hhandles : world.handlesOf group = .error (.permissionDenied line.offset) := by
    rw [handlesOf, hchip, hlines]
    exact mapM_eq_error hserved hnone
  unfold getValues
  rw [hhandles]
  simp [fail, Error.notices]

end World

namespace Workshop

variable {rule : Workshop → Act → Prop} {workshop : Workshop}

/-- The handle of a member is one to the simulated chip, which has a grant of it. -/
theorem Sound.grant_of_handle? (h : workshop.Sound) {group : Group} {chip : Chip} {id : ChipId}
    {index : Nat} (honchip : workshop.world.OnChip group chip id)
    (hdevice : chip.device = .simulator index) {line : Line} (hline : line ∈ group.lines)
    {entry : HandleId × Handle} (hentry : workshop.world.handle? line = some entry) :
    entry.2.device = .simulator index ∧ ∃ sim grant,
      workshop.world.bench.simulators[index]? = some sim ∧ grant ∈ sim.grants ∧
      grant.file = entry.2.file ∧ grant.offsets = entry.2.offsets ∧ line.offset ∈ grant.offsets := by
  obtain ⟨key, handle⟩ := entry
  obtain ⟨hholds, hget⟩ := World.handle?_eq_some.mp hentry
  have hhome := (h.accord.home line key hholds).2 handle hget
  rw [honchip.device hline] at hhome
  have hhandle : handle.device = .simulator index := (Option.some.inj hhome).symm.trans hdevice
  obtain ⟨grant, hgrant, hfile, hoffsets, -⟩ :=
    h.accord.lending.backed key handle hget index (by rw [hhandle]; rfl)
  obtain ⟨sim, hsim, hmem⟩ := Bench.mem_grants.mp hgrant
  obtain ⟨found, hfound, -, hlisted⟩ := h.client.desk.ledger.slot_open line key hholds
  obtain rfl := Option.mem_unique hget hfound
  exact ⟨hhandle, sim, grant, hsim, hmem, hfile, hoffsets, hoffsets ▸ hlisted⟩

/-- **A read reports every line, with one call a handle.** -/
theorem read_reports_every_line (h : Reachable rule workshop) {group : Group} {chip : Chip}
    {id : ChipId} (honchip : workshop.world.OnChip group chip id) {index : Nat}
    (hdevice : chip.device = .simulator index) : workshop.world.ReadsThrough group index where
  requested := by
    intro hrequested
    have hsound := h.sound
    have hledger := hsound.client.desk.ledger
    obtain ⟨handles, hheld⟩ :=
      World.handlesOf_of_allRequested hledger honchip.chipOf hrequested
    have hserves := (World.forall₂_of_handlesOf hheld).2
    obtain ⟨hleft, hright⟩ := exists_of_forall₂ hserves
    -- the first member shows that the simulated chip is there
    obtain ⟨sim, hsim⟩ : ∃ sim, workshop.world.bench.simulators[index]? = some sim := by
      obtain ⟨first, rest, hlines⟩ := List.exists_cons_of_ne_nil honchip.nonempty
      have hfirst : first ∈ group.lines := hlines ▸ List.mem_cons_self
      obtain ⟨entry, -, hentry⟩ := hleft first hfirst
      obtain ⟨-, sim, -, hsim, -⟩ := hsound.grant_of_handle? honchip hdevice hfirst hentry
      exact ⟨sim, hsim⟩
    have hexclusive := hsound.accord.bench.simulators index sim hsim
    have hgranted : World.Granted index sim (World.distinctHandles handles) := by
      intro entry hentry
      obtain ⟨line, hline, hserved⟩ := hright entry (World.mem_distinctHandles hentry)
      obtain ⟨hhandle, found, grant, hfound, hmem, hfile, hoffsets, -⟩ :=
        hsound.grant_of_handle? honchip hdevice hline hserved
      obtain rfl := Option.mem_unique hsim hfound
      exact ⟨hhandle, grant, hfile ▸ hexclusive.grant?_eq hmem, hoffsets⟩
    obtain ⟨asked, hasked, hfetch⟩ := World.fetchAll_granted hsim hgranted
    refine ⟨sim, World.distinctHandles handles, asked,
      group.lines.map fun line => sim.value line.offset, hsim, ?_, ?_, hasked, ?_, ?_⟩
    · rw [World.map_fst_distinctHandles]
      exact congrArg List.eraseDups (World.map_fst_of_serves hserves)
    · exact fun entry hentry => World.found_of_handlesOf hheld entry (World.mem_distinctHandles hentry)
    · have hpicked := mapM_eq_map fun (item : Line × HandleId × Handle)
        (hitem : item ∈ group.lines.zip handles) =>
          @World.valueOf_granted _ _ sim hledger _ hheld item.1 item.2 hitem
      have hlines : (group.lines.zip handles).map (fun item => sim.value item.1.offset) =
          group.lines.map fun line => sim.value line.offset := by
        conv_rhs => rw [← List.map_fst_zip (Nat.le_of_eq hserves.length_eq), List.map_map]
        rfl
      unfold World.getValues
      simp only [hheld, hfetch]
      rw [← hlines, ← hpicked]
    · rw [List.forall₂_map_right_iff, List.forall₂_same]
      intro line hline
      obtain ⟨entry, -, hserved⟩ := hleft line hline
      obtain ⟨-, found, grant, hfound, hmem, -, -, hlisted⟩ :=
        hsound.grant_of_handle? honchip hdevice hline hserved
      obtain rfl := Option.mem_unique hsim hfound
      obtain ⟨simLine, hsimLine, -⟩ := hexclusive.held grant hmem line.offset hlisted
      refine ⟨simLine, hsimLine, ?_⟩
      rw [Simulator.value, hsimLine, Option.elim_some]
  free := fun _ hfirst => World.getValues_of_free h.sound.client.desk.ledger honchip.chipOf hfirst

/-- One request that was released in part, one for events and one more for values. -/
def scattered : List Act :=
  let config (type : RequestType) : RequestConfig := { consumer := "scattered", type }
  [.deed (.addSimulator "gpiochip0" 5)] ++ ([.openChip (.simulator 0), .getLines 0 [0, 1, 2, 3, 4],
    .getLines 0 [2, 0, 4], .getLines 0 [1], .getLines 0 [3], .getLines 0 [4],
    .onGroup (.request (config .output) (some [1, 0, 1])) ⟨[⟨0, 2⟩, ⟨0, 0⟩, ⟨0, 4⟩]⟩,
    .release ⟨[⟨0, 4⟩]⟩, .onGroup (.request (config .eventBoth) none) ⟨[⟨0, 1⟩]⟩,
    .onGroup (.request (config .input) none) ⟨[⟨0, 3⟩]⟩].map Act.operation) ++
    [.deed (.setLevel 0 3 1)]

/-- A read of members of all three requests, one of them twice: three calls. -/
theorem reports_scattered :
    ∃ workshop : Workshop, ∃ chip, Reachable Unruled workshop ∧
      workshop.world.OnChip ⟨[⟨0, 3⟩, ⟨0, 0⟩, ⟨0, 1⟩, ⟨0, 2⟩, ⟨0, 0⟩]⟩ chip 0 ∧
      chip.device = .simulator 0 ∧
      workshop.world.allRequested ⟨[⟨0, 3⟩, ⟨0, 0⟩, ⟨0, 1⟩, ⟨0, 2⟩, ⟨0, 0⟩]⟩ = true ∧
      workshop.world.ReadsThrough ⟨[⟨0, 3⟩, ⟨0, 0⟩, ⟨0, 1⟩, ⟨0, 2⟩, ⟨0, 0⟩]⟩ 0 ∧
      (workshop.world.getValues ⟨[⟨0, 3⟩, ⟨0, 0⟩, ⟨0, 1⟩, ⟨0, 2⟩, ⟨0, 0⟩]⟩).1.toOption =
        some [1, 0, 0, 1, 0] ∧
      ([⟨0, 3⟩, ⟨0, 0⟩, ⟨0, 1⟩, ⟨0, 2⟩, ⟨0, 0⟩].filterMap fun line =>
        (workshop.world.slot line).handle?).eraseDups = [2, 0, 1] := by
  have hreachable : Reachable Unruled (({} : Workshop).actAll scattered) :=
    Reachable.start.actAll (by decide)
  obtain ⟨chip, hopen, hdevice⟩ : ∃ chip,
      (({} : Workshop).actAll scattered).world.openChip 0 = .ok chip ∧ chip.device = .simulator 0 :=
    ⟨_, rfl, rfl⟩
  have honchip : (({} : Workshop).actAll scattered).world.OnChip
      ⟨[⟨0, 3⟩, ⟨0, 0⟩, ⟨0, 1⟩, ⟨0, 2⟩, ⟨0, 0⟩]⟩ chip 0 := ⟨hopen, by decide, by decide⟩
  exact ⟨_, chip, hreachable, honchip, hdevice, by decide,
    read_reports_every_line hreachable honchip hdevice, by decide, by decide⟩

end Workshop

end GpioLines
