import GpioLines.Proofs.Agreement
import GpioLines.Proofs.GroupOrder

/-!
# What was written is read back

On a simulated chip a write can be followed to the lines: each takes the level of the value that it
was given, and a read of any of the lines, in any order, finds that value again. The flags that the
handle remembers say how values and levels relate, so this rests on the agreement of handles and
lines; what else was done on the bench before does not matter.
-/

namespace GpioLines

theorem mapM_eq_map {ε α β : Type} {f : α → Except ε β} {g : α → β} {items : List α}
    (h : ∀ item ∈ items, f item = .ok (g item)) : items.mapM f = .ok (items.map g) := by
  induction items with
  | nil => rfl
  | cons item rest ih =>
      rw [List.mapM_cons, h item List.mem_cons_self,
        ih fun other hother => h other (List.mem_cons_of_mem _ hother)]
      rfl

namespace World

variable {σ : Type} {world : World σ} {part : Group}

/-- Every member is served by one handle. -/
theorem handlesOf_of_served {chip : Chip} {entry : HandleId × Handle}
    (hchip : world.chipOf part = .ok chip)
    (hserved : ∀ line ∈ part.lines, world.handle? line = some entry) :
    world.handlesOf part = .ok (part.lines.map fun _ => entry) := by
  rw [handlesOf, hchip]
  exact mapM_eq_map fun line hline => handleOf_eq_ok.mpr (hserved line hline)

theorem distinctHandles_const {lines : List Line} (hlines : lines ≠ []) (entry : HandleId × Handle) :
    distinctHandles (lines.map fun _ => entry) = [entry] := by
  obtain ⟨first, rest, rfl⟩ := List.exists_cons_of_ne_nil hlines
  have hrest : ∀ rest : List Line, (rest.map fun _ => entry).foldl
      (fun seen held => if seen.any (·.1 == held.1) then seen else seen ++ [held]) [entry] =
      [entry] := by
    intro rest
    induction rest with
    | nil => rfl
    | cons line rest ih => simpa using ih
  exact hrest rest

theorem getValues_of_empty [Machine σ] (h : part.lines = []) :
    (world.getValues part).1 = .error (.invalidArgument .emptyGroup) := by
  have hfirst : part.first? = none := by rw [Group.first?, h, List.head?_nil]
  have hchip : world.chipOf part = .error (.invalidArgument .emptyGroup) := by
    simp only [chipOf, hfirst]
  have hhandles : world.handlesOf part = .error (.invalidArgument .emptyGroup) := by
    rw [handlesOf, hchip]
    rfl
  unfold getValues
  rw [hhandles]
  rfl

end World

namespace Bench

variable {bench : Bench} {index : Nat} {sim : Simulator} {grant : Grant}

/-- A simulated chip reports the value of every line of a grant. -/
theorem perform_getValues (hsim : bench.simulators[index]? = some sim) {file : FileId}
    (hgrant : sim.grant? file = some grant) {offsets : List Offset}
    (hoffsets : grant.offsets = offsets) :
    ∃ buffer after, perform (.simulator index)
        (.getValues file (List.replicate offsets.length 0)) bench = (.ok buffer, after) ∧
      buffer.val = offsets.map sim.value := by
  subst hoffsets
  have hget : sim.getValues file = .ok (grant.offsets.map sim.value) := by
    rw [Simulator.getValues, hgrant]
  refine ⟨Buffer.fill _ (grant.offsets.map sim.value),
    { bench with simulators := bench.simulators.set index sim }, ?_, ?_⟩
  · simp only [perform, performSimulator, hsim, Simulator.perform, hget]
    rfl
  · have hlength : (grant.offsets.map sim.value).length =
        (List.replicate grant.offsets.length (0 : UInt8)).length := by simp
    simp only [Buffer.fill, ← hlength, List.take_length]
    simp

end Bench

/-! ### A write and what is read after it -/

namespace World

variable {world after : World (Traced Bench)} {group part : Group} {index : Nat}

/-- The lines of the request that a group was written to, after the write. -/
structure ReadsBack (after : World (Traced Bench)) (index : Nat) (group : Group)
    (values : List UInt8) (id : HandleId) (handle : Handle) : Prop where
  members : ∀ line, after.ledger.Holds line id ↔ line ∈ group.lines
  levels : ∀ line ∈ group.lines, ∃ value simLine, group.Gives values line.offset value ∧
    after.bench.line? index line.offset = some simLine ∧
    simLine.level = (isActive value ^^ handle.flags.settings.activeLow)
  read : ∀ part : Group, part.lines ≠ [] → (∀ line ∈ part.lines, line ∈ group.lines) →
    ∃ read last, after.getValues part = (.ok read, last) ∧
      List.Forall₂ (fun line byte => ∃ value, group.Gives values line.offset value ∧
        byte = normalize value) part.lines read
  empty : ∀ part : Group, part.lines = [] →
    (after.getValues part).1 = .error (.invalidArgument .emptyGroup)

theorem perform_of_bench {device : Device} {call : Call} {outcome : Outcome call} {bench : Bench}
    (h : Bench.perform device call world.bench = (outcome, bench)) :
    ∃ last, world.perform device call = (outcome, last) := by
  have houtcome : (Machine.perform device call world.machine).1 = outcome := congrArg Prod.fst h
  exact ⟨(world.perform device call).2, Prod.ext houtcome rfl⟩

/-- A read of lines of one request gives the value that the chip has for each. -/
theorem getValues_of_served {chip : Chip} {id : HandleId} {handle : Handle}
    (hchip : world.chipOf part = .ok chip) (hlines : part.lines ≠ [])
    (hserved : ∀ line ∈ part.lines, world.handle? line = some (id, handle))
    (hlisted : ∀ line ∈ part.lines, line.offset ∈ handle.offsets)
    (hdevice : handle.device = .simulator index) {sim : Simulator}
    (hsim : world.bench.simulators[index]? = some sim) {grant : Grant}
    (hgrant : sim.grant? handle.file = some grant) (hoffsets : grant.offsets = handle.offsets) :
    ∃ last, world.getValues part = (.ok (part.lines.map fun line => sim.value line.offset), last) := by
  obtain ⟨buffer, bench, hbench, hbuffer⟩ := Bench.perform_getValues hsim hgrant hoffsets
  rw [← hdevice] at hbench
  obtain ⟨last, hperform⟩ := perform_of_bench hbench
  have hfetch : world.fetchAll [(id, handle)] = (.ok [(id, handle.offsets.map sim.value)], last) := by
    simp only [fetchAll, hperform, hbuffer]
  have hvalue : ∀ item ∈ part.lines.zip (part.lines.map fun _ => (id, handle)),
      valueOf [(id, handle.offsets.map sim.value)] item.1 item.2 = .ok (sim.value item.1.offset) := by
    rintro ⟨line, entry⟩ hitem
    obtain ⟨hline, hentry⟩ := List.of_mem_zip hitem
    obtain ⟨_, -, rfl⟩ := List.mem_map.mp hentry
    obtain ⟨place, hplace⟩ :=
      Option.isSome_iff_exists.mp (List.isSome_idxOf?.mpr (hlisted line hline))
    obtain ⟨hlt, hoffset, -⟩ := List.idxOf?_eq_some_iff.mp hplace
    have hget : (handle.offsets.map sim.value)[place]? = some (sim.value line.offset) := by
      rw [List.getElem?_map, List.getElem?_eq_getElem hlt, hoffset, Option.map_some]
    have hindex : handle.indexOf? line.offset = some place := hplace
    simp only [valueOf, List.lookup_cons_self, hindex, hget]
  have hpicked := mapM_eq_map hvalue
  have hmap : (part.lines.zip (part.lines.map fun _ => (id, handle))).map
      (fun item => sim.value item.1.offset) = part.lines.map fun line => sim.value line.offset := by
    have hfst : (part.lines.zip (part.lines.map fun _ => (id, handle))).map (·.1) = part.lines :=
      List.map_fst_zip (Nat.le_of_eq (List.length_map _).symm)
    conv_rhs => rw [← hfst, List.map_map]
    rfl
  refine ⟨last, ?_⟩
  unfold getValues
  rw [handlesOf_of_served hchip hserved]
  simp only [distinctHandles_const hlines, hfetch]
  rw [← hmap, ← hpicked]

end World

namespace Workshop

variable {rule : Workshop → Act → Prop} {workshop : Workshop}

/-- The members of a group that covers a handle are the lines that hold it. -/
theorem Sound.holds_iff (h : workshop.Sound) {group : Group} {id : HandleId} {handle : Handle}
    (hcovers : workshop.world.Covers group id handle) (line : Line) :
    workshop.world.ledger.Holds line id ↔ line ∈ group.lines := by
  have hledger := h.client.desk.ledger
  have hholds : ∀ member ∈ group.lines, workshop.world.ledger.Holds member id := fun member hmember =>
    (World.handle?_eq_some.mp (hcovers.serves member hmember)).1
  refine ⟨fun hline => ?_, hholds line⟩
  obtain ⟨found, hfound, -, hlisted⟩ := hledger.slot_open line id hline
  obtain rfl := Option.mem_unique hcovers.found hfound
  obtain ⟨member, hmember, hoffset⟩ := List.mem_map.mp (hcovers.complete line.offset hlisted)
  have hchip := hledger.one_chip member line id (hholds member hmember) hline
  exact Line.eq_of_offset hchip hoffset ▸ hmember

/-- A write puts every line of the request to the value that the group gives for it. -/
theorem Reachable.line_of_write (h : Reachable rule workshop) {id : HandleId} {handle : Handle}
    (hget : workshop.world.handles.get? id = some handle) {index : Nat}
    (hindex : handle.device.simulator? = some index) {ordered : List UInt8} {bench : Bench}
    (hperform : Bench.perform handle.device (.setValues handle.file ordered) workshop.world.bench =
      (.ok (), bench))
    {position : Nat} {offset : Offset} (hoffset : handle.offsets[position]? = some offset)
    {value : UInt8} (hvalue : ordered[position]? = some (normalize value)) :
    ∃ line, bench.line? index offset = some line ∧ line.active = isActive value ∧
      line.level = (isActive value ^^ handle.flags.settings.activeLow) := by
  have haccord := h.sound.accord
  obtain ⟨grant, hgrant, hfile, hoffsets, -⟩ := haccord.lending.backed id handle hget index hindex
  obtain ⟨line, hline, -, hafter⟩ := haccord.bench.line?_setValues (hfile ▸ hperform) hindex hgrant
    (hoffsets ▸ hoffset) hvalue
  have hagrees : workshop.world.Agrees False := h.agrees fun hfalse => hfalse.elim
  obtain ⟨found, hfound, hobeys, -⟩ := hagrees id handle hget index hindex position offset hoffset
  obtain rfl := Option.mem_unique hline hfound
  rw [isActive_normalize] at hafter
  refine ⟨_, hafter, SimLine.active_drive .., ?_⟩
  rw [SimLine.drive, SimLine.activeLow, hobeys.settings]

theorem Reachable.readsBack (h : Reachable rule workshop) {group : Group} {values : List UInt8}
    {after : World (Traced Bench)} (hset : workshop.world.setValues group values = (.ok (), after))
    {index : Nat} (hover : ∀ line ∈ group.lines,
      workshop.world.board.device? line.chip = some (.simulator index)) :
    ∃ id handle, workshop.world.Covers group id handle ∧
      after.ReadsBack index group values id handle := by
  have hsound := h.sound
  have hledger := hsound.client.desk.ledger
  obtain ⟨id, handle, ordered, called, hplan, hperform, hafter⟩ := World.setValues_eq_ok hset
  obtain ⟨hcount, hhandle, hordered⟩ := World.planValues_eq_ok hplan
  obtain ⟨⟨chip, hchip⟩, hcovers⟩ := World.covers_of_valuesHandle hhandle
  obtain ⟨first, hfirst, honchip⟩ := World.onChip_of_chipOf hchip
  have hvalid := hledger.valid id handle hcovers.found
  have hmembers := hsound.holds_iff hcovers
  obtain ⟨bench, hbench, hcalled⟩ := World.perform_bench hperform
  -- the request is one to this simulated chip
  have hdevice : handle.device = .simulator index := by
    have hmem : first ∈ group.lines := List.mem_of_mem_head? hfirst
    have hhome := (hsound.accord.home first id ((hmembers first).mpr hmem)).2 handle hcovers.found
    exact Option.some.inj (hhome.symm.trans (hover first hmem))
  have hindex : handle.device.simulator? = some index := by rw [hdevice]; rfl
  have hlisted : ∀ line ∈ group.lines, line.offset ∈ handle.offsets := by
    intro line hline
    obtain ⟨found, hfound, -, hoffset⟩ := hledger.slot_open line id ((hmembers line).mpr hline)
    obtain rfl := Option.mem_unique hcovers.found hfound
    exact hoffset
  have hlines : ∀ line ∈ group.lines, ∃ value simLine, group.Gives values line.offset value ∧
      bench.line? index line.offset = some simLine ∧ simLine.active = isActive value ∧
      simLine.level = (isActive value ^^ handle.flags.settings.activeLow) := by
    intro line hline
    obtain ⟨position, hposition⟩ := List.mem_iff_getElem?.mp (hlisted line hline)
    have hmem : line.offset ∈ group.offsets := List.mem_map.mpr ⟨line, hline, rfl⟩
    obtain ⟨value, hgives⟩ := Group.exists_gives hcount hmem
    obtain ⟨simLine, hsimLine, hfacts⟩ := h.line_of_write hcovers.found hindex hbench hposition
      (hgives.inRequestOrder hvalid.nodup hordered hposition)
    exact ⟨value, simLine, hgives, hsimLine, hfacts⟩
  have hafterBench : after.bench = bench := by rw [hafter, hcalled]
  have hslots : after.ledger.Holds = workshop.world.ledger.Holds := by rw [hafter, hcalled]; rfl
  have hopen : after.openChip = workshop.world.openChip := by rw [hafter, hcalled]; rfl
  have hfound : after.handles.get? id = some (handle.driven ordered) := by
    have hhandles : after.handles = workshop.world.handles.modify id (·.driven ordered) := by
      rw [hafter, hcalled]
    rw [hhandles, Table.get?_modify, if_pos rfl, hcovers.found, Option.map_some]
  refine ⟨id, handle, hcovers, ?_, ?_, ?_, fun part hempty => World.getValues_of_empty hempty⟩
  · intro line
    rw [hslots]
    exact hmembers line
  · intro line hline
    obtain ⟨value, simLine, hgives, hsimLine, -, hlevel⟩ := hlines line hline
    exact ⟨value, simLine, hgives, hafterBench ▸ hsimLine, hlevel⟩
  · intro part hpart hsubset
    obtain ⟨grant, hgrant, hfile, hoffsets, -⟩ :=
      hsound.accord.lending.backed id handle hcovers.found index hindex
    obtain ⟨sim, hsim, hlent⟩ := Bench.mem_grants.mp (Bench.mem_grants_perform hbench hgrant)
    have hexclusive : bench.Exclusive := hsound.accord.bench.perform hbench
    have hfoundGrant : sim.grant? handle.file = some grant :=
      hfile ▸ (hexclusive.simulators index sim hsim).grant?_eq hlent
    have honpart : after.OnChip part chip first.chip :=
      ⟨by rw [hopen]; exact honchip.isOpen, hpart, fun line hline =>
        honchip.members line (hsubset line hline)⟩
    have hserved : ∀ line ∈ part.lines, after.handle? line = some (id, handle.driven ordered) := by
      intro line hline
      rw [World.handle?_eq_some, hslots]
      exact ⟨(hmembers line).mpr (hsubset line hline), hfound⟩
    obtain ⟨last, hread⟩ := World.getValues_of_served honpart.chipOf hpart hserved
      (fun line hline => hlisted line (hsubset line hline)) hdevice (hafterBench ▸ hsim)
      hfoundGrant hoffsets
    refine ⟨_, last, hread, ?_⟩
    rw [List.forall₂_map_right_iff, List.forall₂_same]
    intro line hline
    obtain ⟨value, simLine, hgives, hsimLine, hactive, -⟩ := hlines line (hsubset line hline)
    rw [Bench.line?_of_eq hsim] at hsimLine
    refine ⟨value, hgives, ?_⟩
    rw [Simulator.value, hsimLine, Option.elim_some, hactive]
    rfl

/-- **What is written is read back, by line.** Whatever the devices of a client are, writes and reads
go by the place of a line in its request. On a simulated chip the lines then have the values, and
reading them gives these values again. -/
theorem values_read_back {σ : Type} [Machine σ] {env : Traced σ → Traced σ → Prop}
    {client : Client (Traced σ)} (hclient : client.Reachable env)
    (hworkshop : Reachable rule workshop) :
    client.PassesValues env ∧
      ∀ group values after, workshop.world.setValues group values = (.ok (), after) →
        ∀ index, (∀ line ∈ group.lines,
          workshop.world.board.device? line.chip = some (.simulator index)) →
        ∃ id handle, workshop.world.Covers group id handle ∧
          after.ReadsBack index group values id handle :=
  ⟨hclient.passesValues, fun _ _ _ hset _ hover => hworkshop.readsBack hset hover⟩

/-- A request for three active-low outputs. -/
def lowering : List Operation :=
  let config : RequestConfig :=
    { consumer := "lowering", type := .output, flags := { settings := { activeLow := true } } }
  [.openChip (.simulator 0), .getLines 0 [2, 0, 1],
    .onGroup (.request config none) ⟨[⟨0, 2⟩, ⟨0, 0⟩, ⟨0, 1⟩]⟩, .gather [⟨0, 0⟩, ⟨0, 2⟩, ⟨0, 1⟩, ⟨0, 0⟩]]

/-- A write in another order than that of the request, with one line given twice. -/
theorem values_read_back_lowering :
    ∃ client : Client (Traced Bench), ∃ workshop : Workshop, ∃ after id handle,
      client.Reachable Traced.Unseen ∧ client.PassesValues Traced.Unseen ∧
      Reachable Unruled workshop ∧
      workshop.world.setValues ⟨[⟨0, 0⟩, ⟨0, 2⟩, ⟨0, 1⟩, ⟨0, 0⟩]⟩ [9, 0, 1, 0] = (.ok (), after) ∧
      (after.getValues ⟨[⟨0, 1⟩, ⟨0, 0⟩, ⟨0, 1⟩]⟩).1.toOption = some [1, 0, 1] ∧
      handle.flags.settings.activeLow = true ∧
      after.ReadsBack 0 ⟨[⟨0, 0⟩, ⟨0, 2⟩, ⟨0, 1⟩, ⟨0, 0⟩]⟩ [9, 0, 1, 0] id handle := by
  let bench : Bench := { simulators := [.create "gpiochip0" 3] }
  have hclient : Client.Reachable Traced.Unseen ((Client.start ⟨bench, []⟩).callAll lowering) :=
    ⟨_, Client.run_callAll (by decide)⟩
  have hcan : ({} : Workshop).CanActAll Unruled
      (.deed (.addSimulator "gpiochip0" 3) :: lowering.map .operation) := by decide
  obtain ⟨workshop, ⟨outcome, after⟩, hworkshop, hset, hok, hread, hover, hlow⟩ :
      ∃ workshop : Workshop, ∃ written, Reachable Unruled workshop ∧
        workshop.world.setValues ⟨[⟨0, 0⟩, ⟨0, 2⟩, ⟨0, 1⟩, ⟨0, 0⟩]⟩ [9, 0, 1, 0] = written ∧
        written.1.toOption = some () ∧
        (written.2.getValues ⟨[⟨0, 1⟩, ⟨0, 0⟩, ⟨0, 1⟩]⟩).1.toOption = some [1, 0, 1] ∧
        workshop.world.board.device? 0 = some (.simulator 0) ∧
        ∀ entry ∈ workshop.world.handles.entries, entry.2.flags.settings.activeLow = true :=
    ⟨_, _, Reachable.start.actAll hcan, rfl, by decide, by decide, by decide, by decide⟩
  obtain rfl : outcome = .ok () := eq_ok_of_mem_toOption (Option.mem_toList.mpr hok)
  obtain ⟨hpasses, hback⟩ := values_read_back hclient hworkshop
  obtain ⟨id, handle, hcovers, hreads⟩ := hback _ _ _ hset 0 (by simpa using hover)
  have hentry := hworkshop.sound.client.desk.ledger.handles_ascending.mem_entries_iff.mpr hcovers.found
  exact ⟨_, workshop, after, id, handle, hclient, hpasses, hworkshop, hset, hread,
    hlow (id, handle) hentry, hreads⟩

end Workshop

end GpioLines
