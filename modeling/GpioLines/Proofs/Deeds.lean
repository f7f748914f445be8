import GpioLines.Proofs.Workshop

/-!
# What deeds come to

The library does not see what is done beside it. Most of it touches no request at all: at most a
level, a name or a mark of a line changes. A call past the library gets a file of its own, and a
release gives one back that the library never had. So a client stays sound, and the library stays in
accord with the simulated chips, whatever is done on the bench.
-/

namespace GpioLines

/-! ### Beside all requests -/

/-- The line is configured as before. -/
structure SimLine.Alike (line changed : SimLine) : Prop where
  settings : changed.flags.settings = line.flags.settings
  output : changed.flags.output = line.flags.output

/-- Nothing was granted or given back, and no level has changed but of the lines that were
`driven`. -/
structure Simulator.Beside (driven : Offset → Prop) (sim after : Simulator) : Prop where
  exclusive : sim.Exclusive → after.Exclusive
  grants : after.grants = sim.grants
  released : after.released = sim.released
  lines : ∀ offset line, sim.line? offset = some line → ∃ changed, after.line? offset = some changed ∧
    line.Alike changed ∧ (driven offset ∨ changed.level = line.level)

namespace Simulator

variable {driven : Offset → Prop} {sim after : Simulator}

theorem Beside.refl (driven : Offset → Prop) (sim : Simulator) : sim.Beside driven sim where
  exclusive := id
  grants := rfl
  released := rfl
  lines := fun _ line hline => ⟨line, hline, ⟨rfl, rfl⟩, Or.inr rfl⟩

theorem beside_modifyLine (sim : Simulator) (offset : Offset) {f : SimLine → SimLine}
    (hexclusive : sim.Exclusive → (sim.modifyLine offset f).Exclusive)
    (hf : ∀ line : SimLine, line.Alike (f line))
    (hlevel : driven offset ∨ ∀ line : SimLine, (f line).level = line.level) :
    sim.Beside driven (sim.modifyLine offset f) := by
  refine ⟨hexclusive, rfl, rfl, fun other line hline => ?_⟩
  rw [line?_modifyLine, hline]
  split
  · next heq =>
    exact ⟨f line, rfl, hf line, hlevel.imp (heq ▸ ·) (· line)⟩
  · exact ⟨line, rfl, ⟨rfl, rfl⟩, Or.inr rfl⟩

theorem beside_control (sim : Simulator) (control : Control) :
    sim.Beside driven (control.apply sim) := by
  cases control with
  | setName offset name =>
      exact sim.beside_modifyLine offset (·.setName offset name) (fun _ => ⟨rfl, rfl⟩)
        (Or.inr fun _ => rfl)
  | hog offset consumer =>
      exact sim.beside_modifyLine offset (·.hog offset consumer) (fun _ => ⟨rfl, rfl⟩)
        (Or.inr fun _ => rfl)
  | failInfo fails =>
      have hsame := Beside.refl driven sim
      exact ⟨(·.congr rfl rfl), hsame.grants, hsame.released, hsame.lines⟩
  | failInfoAt offset fails =>
      exact sim.beside_modifyLine offset (·.failInfoAt offset fails) (fun _ => ⟨rfl, rfl⟩)
        (Or.inr fun _ => rfl)

theorem beside_setLevel (sim : Simulator) {offset : Offset} (level : Bool) (hdriven : driven offset) :
    sim.Beside driven (sim.setLevel offset level).2 := by
  have hexclusive : sim.Exclusive → (sim.setLevel offset level).2.Exclusive := (·.setLevel offset level)
  obtain ⟨clock, heq | heq⟩ := sim.setLevel_eq offset level
  · rw [heq] at hexclusive ⊢
    have hset : sim.Beside driven (sim.modifyLine offset ({ · with level })) := by
      apply sim.beside_modifyLine offset
      · exact fun h => (hexclusive h).congr rfl rfl
      · exact fun _ => ⟨rfl, rfl⟩
      · exact Or.inl hdriven
    exact ⟨hexclusive, hset.grants, hset.released, hset.lines⟩
  · rw [heq]
    exact .refl driven sim

end Simulator

namespace Bench

/-- As for one simulated chip; a chip that is new has granted nothing. -/
structure Beside (driven : Nat → Offset → Prop) (bench after : Bench) : Prop where
  present : ∀ (index : Nat) (sim : Simulator), bench.simulators[index]? = some sim →
    ∃ changed, after.simulators[index]? = some changed ∧ sim.Beside (driven index) changed
  absent : ∀ (index : Nat) (sim : Simulator), bench.simulators[index]? = none →
    after.simulators[index]? = some sim → sim.Exclusive ∧ sim.grants = [] ∧ sim.released = 0
  next : after.files.next = bench.files.next

variable {driven : Nat → Offset → Prop} {bench after : Bench}

namespace Beside

theorem of_filesOnly (h : FilesOnly bench after) : bench.Beside driven after where
  present := fun index sim hsim => ⟨sim, by rwa [h.simulators], .refl _ sim⟩
  absent := by
    intro index sim hnone hsim
    rw [h.simulators, hnone] at hsim
    cases hsim
  next := h.next

/-- One chip changes. -/
theorem of_modify (index : Nat) (f : Simulator → Simulator)
    (hafter : ∀ other : Nat, after.simulators[other]? = if other = index
      then (bench.simulators[other]?).map f else bench.simulators[other]?)
    (hf : ∀ sim : Simulator, sim.Beside (driven index) (f sim))
    (hnext : after.files.next = bench.files.next) : bench.Beside driven after where
  present := by
    intro other sim hsim
    rw [hafter, hsim]
    split
    · next heq => exact ⟨f sim, rfl, heq ▸ hf sim⟩
    · exact ⟨sim, rfl, .refl _ sim⟩
  absent := by
    intro other sim hnone hsim
    rw [hafter, hnone] at hsim
    split at hsim <;> cases hsim
  next := hnext

theorem grants (h : bench.Beside driven after) : after.grants = bench.grants := by
  funext index
  rw [Bench.grants, Bench.grants]
  cases hsim : bench.simulators[index]? with
  | some sim =>
      obtain ⟨changed, hchanged, hbeside⟩ := h.present index sim hsim
      rw [hchanged]
      exact hbeside.grants
  | none =>
      cases hnew : after.simulators[index]? with
      | none => rfl
      | some sim => exact (h.absent index sim hsim hnew).2.1

theorem served (h : bench.Beside driven after) : after.served = bench.served := by
  funext index
  rw [Bench.served, Bench.served]
  cases hsim : bench.simulators[index]? with
  | some sim =>
      obtain ⟨changed, hchanged, hbeside⟩ := h.present index sim hsim
      rw [hchanged]
      simp only [Option.elim_some, Simulator.served, hbeside.grants, hbeside.released]
  | none =>
      cases hnew : after.simulators[index]? with
      | none => rfl
      | some sim =>
          obtain ⟨-, hgrants, hreleased⟩ := h.absent index sim hsim hnew
          simp only [Option.elim_some, Option.elim_none, Simulator.served, hgrants, hreleased,
            List.length_nil]

theorem exclusive (h : bench.Beside driven after) (hbench : bench.Exclusive) : after.Exclusive := by
  refine hbench.of_simulators h.next.ge fun index changed hchanged => Or.inr ?_
  have hfresh : ∀ grant ∈ changed.grants, grant.file < after.files.next := by
    intro grant hgrant
    have hmem : grant ∈ after.grants index := mem_grants.mpr ⟨changed, hchanged, hgrant⟩
    rw [h.grants] at hmem
    rw [h.next]
    exact hbench.fresh index grant hmem
  cases hsim : bench.simulators[index]? with
  | none => exact ⟨(h.absent index changed hsim hchanged).1, hfresh⟩
  | some sim =>
      obtain ⟨found, hfound, hbeside⟩ := h.present index sim hsim
      obtain rfl := Option.mem_unique hchanged hfound
      exact ⟨hbeside.exclusive (hbench.simulators index sim hsim), hfresh⟩

theorem line? (h : bench.Beside driven after) {index : Nat} {offset : Offset} {line : SimLine}
    (hline : bench.line? index offset = some line) : ∃ changed,
      after.line? index offset = some changed ∧ line.Alike changed ∧
        (driven index offset ∨ changed.level = line.level) := by
  obtain ⟨sim, hsim, hline⟩ := Option.bind_eq_some_iff.mp hline
  obtain ⟨found, hfound, hbeside⟩ := h.present index sim hsim
  obtain ⟨changed, hchanged, hsame⟩ := hbeside.lines offset line hline
  exact ⟨changed, Option.bind_eq_some_iff.mpr ⟨found, hfound, hchanged⟩, hsame⟩

end Beside

theorem beside_addSimulator (bench : Bench) (name : String) (lineCount : UInt32) :
    bench.Beside driven (bench.addSimulator name lineCount).2 where
  present := by
    intro index sim hsim
    have hlt := (List.getElem?_eq_some_iff.mp hsim).1
    exact ⟨sim, (List.getElem?_append_left hlt).trans hsim, .refl _ sim⟩
  absent := by
    intro index sim hnone hsim
    have hle := List.getElem?_eq_none_iff.mp hnone
    change (bench.simulators ++ [_])[index]? = some sim at hsim
    rw [List.getElem?_append_right hle] at hsim
    obtain rfl := List.mem_singleton.mp (List.mem_of_getElem? hsim)
    exact ⟨Simulator.exclusive_create name lineCount, rfl, rfl⟩
  next := rfl

theorem beside_control (bench : Bench) (index : Nat) (control : Control) :
    bench.Beside driven (bench.modifySimulator index control.apply) :=
  .of_modify index control.apply (bench.simulators_modifySimulator index control.apply)
    (fun sim => sim.beside_control control) rfl

theorem beside_setLevel (bench : Bench) {index : Nat} {offset : Offset} (level : UInt8)
    (hdriven : driven index offset) : bench.Beside driven (bench.setLevel index offset level).2 :=
  .of_modify index _ (bench.simulators_setLevel index offset level)
    (fun sim => sim.beside_setLevel (isActive level) hdriven) (bench.next_setLevel index offset level)

theorem filesOnly_inject (bench : Bench) (index : Nat) (offset : Offset) (bytes : List UInt8) :
    FilesOnly bench (bench.inject index offset bytes).2 := by
  unfold inject
  split
  · exact ⟨rfl, rfl⟩
  · obtain ⟨hsims, hnext⟩ := bench.simulators_deliver bytes (.uninjected offset) _
    exact ⟨hsims, hnext⟩

theorem filesOnly_addFault (bench : Bench) (device : Device) (fault : Fault) :
    FilesOnly bench (bench.addFault device fault) := by
  cases device <;> exact ⟨rfl, rfl⟩

end Bench

/-! ### Deed by deed -/

/-- The lines whose levels a deed sets. -/
def Deed.Drives : Deed → Nat → Offset → Prop
  | .setLevel index offset _, other, line => other = index ∧ line = offset
  | _, _, _ => False

namespace Workshop

variable {workshop : Workshop}

/-- What a deed comes to: a change beside all requests, a call past the library, or a release. -/
inductive Worked (driven : Nat → Offset → Prop) (before after : Workshop) : Prop
  | beside {bench : Bench} {log : Array Notice}
      (client : after.client = { before.client with
        world := { before.world with machine := before.world.machine.withMachine bench, log } })
      (lent : ∀ entry ∈ after.lent, entry ∈ before.lent)
      (beside : before.world.bench.Beside driven bench)
  | call {device : Device} {call : Call} (own : ∀ file ∈ call.file?, (device, file) ∈ before.lent)
      (done : after = before.call device call)
  | release {device : Device} {file : FileId} (own : (device, file) ∈ before.lent)
      (done : after = before.release device file)

theorem worked_work {deed : Deed} (hcan : workshop.CanWork deed) :
    Worked deed.Drives workshop (workshop.work deed) := by
  cases deed with
  | addSimulator name lineCount =>
      exact .beside rfl (fun _ => id) (Bench.beside_addSimulator ..)
  | addProbe beneath lineCount => exact .beside rfl (fun _ => id) (.of_filesOnly ⟨rfl, rfl⟩)
  | addFault device fault =>
      exact .beside rfl (fun _ => id) (.of_filesOnly (Bench.filesOnly_addFault ..))
  | setAnswers answers => exact .beside rfl (fun _ => id) (.of_filesOnly ⟨rfl, rfl⟩)
  | control index control => exact .beside rfl (fun _ => id) (Bench.beside_control ..)
  | setLevel index offset level =>
      exact .beside rfl (fun _ => id) (Bench.beside_setLevel _ level ⟨rfl, rfl⟩)
  | inject index offset bytes =>
      exact .beside rfl (fun _ => id) (.of_filesOnly (Bench.filesOnly_inject ..))
  | call device call => exact .call hcan rfl
  | read file limit => exact .beside rfl (fun _ => id) (.of_filesOnly (Bench.filesOnly_read ..))
  | release device file => exact .release hcan rfl
  | close device file =>
      exact .beside rfl (fun _ => List.mem_of_mem_erase) (.of_filesOnly ⟨rfl, rfl⟩)

/-! ### What holds of every workshop -/

/-- A client takes no part in a deed, which at most adds to the trace and to the log. -/
theorem Worked.client_eq {driven : Nat → Offset → Prop} {after : Workshop}
    (h : Worked driven workshop after) : ∃ bench more log, after.client =
      { workshop.client with world := { workshop.world with
          machine := { machine := bench, trace := workshop.world.trace ++ more }
          log } } := by
  cases h with
  | @beside bench log client =>
      refine ⟨bench, [], log, ?_⟩
      rw [client, List.append_nil]
      rfl
  | call _ done =>
      rw [done]
      exact ⟨_, _, workshop.world.log, rfl⟩
  | release _ done =>
      rw [done]
      exact ⟨_, _, workshop.world.log, rfl⟩

theorem Worked.sound {driven : Nat → Offset → Prop} {after : Workshop}
    (h : Worked driven workshop after) (hsound : workshop.client.Sound) : after.client.Sound := by
  obtain ⟨bench, more, log, hclient⟩ := h.client_eq
  rw [hclient]
  have hdesk := hsound.desk
  exact ⟨⟨hdesk.tidy.congr rfl rfl, hdesk.ledger, hdesk.owned_open, hdesk.kept⟩, hsound.idle, hsound.groups⟩

/-- The number of a file that is lent past the library was not in use. -/
theorem opens_perform {bench after : Bench} {device : Device} {call : Call} {outcome : Outcome call}
    (h : Bench.perform device call bench = (outcome, after)) :
    call.opens device outcome = [] ∨ ∃ file, call.opens device outcome = [(device, file)] ∧
      ∀ index, device.simulator? = some index →
        file = bench.files.next ∧ bench.files.next < after.files.next := by
  rcases Bench.perform_cases h with hpassed | ⟨reply, index, rfl, hgranted⟩
  · rcases hpassed.reason with hnowhere | ⟨error, rfl⟩
    · have hnot : ∀ index, device.simulator? ≠ some index := by
        rw [hnowhere]
        nofun
      cases call <;> cases outcome
      case requestLines.ok request file | requestEvent.ok request file =>
        exact Or.inr ⟨file, rfl, fun index hindex => absurd hindex (hnot index)⟩
      all_goals exact Or.inl rfl
    · exact Or.inl (by cases call <;> rfl)
  · obtain ⟨sim, given, changed, -, hsim, hreply, -⟩ := hgranted.answered
    have hnext := hgranted.next
    cases call with
    | requestLines request =>
        obtain rfl := hreply nofun
        refine Or.inr ⟨reply, rfl, fun _ _ => ⟨(Simulator.settle_eq_ok.mp hsim).1, ?_⟩⟩
        rw [hnext]
        exact Nat.lt_succ_self _
    | requestEvent request =>
        obtain rfl := hreply nofun
        refine Or.inr ⟨reply, rfl, fun _ _ => ⟨(Simulator.settle_eq_ok.mp hsim).1, ?_⟩⟩
        rw [hnext]
        exact Nat.lt_succ_self _
    | _ => exact Or.inl rfl

theorem Worked.accord {driven : Nat → Offset → Prop} {after : Workshop}
    (h : Worked driven workshop after) (haccord : workshop.world.Accord workshop.lent) :
    after.world.Accord after.lent := by
  cases h with
  | @beside bench log client lent beside =>
      have hlending : Lending bench workshop.world.handles workshop.lent := by
        refine haccord.lending.of_le beside.next.ge fun index grant hgrant => ?_
        rwa [beside.grants]
      rw [world, client]
      refine ⟨haccord.fresh, haccord.home, beside.exclusive haccord.bench, hlending.of_subset lent, ?_⟩
      intro index
      exact (congrFun beside.served index).trans (haccord.counted index)
  | @call device call own done =>
      rcases hperform : workshop.world.perform device call with ⟨outcome, world⟩
      have hcalled := haccord.call hperform
      have hafter : after = { workshop.withWorld world with
          lent := workshop.lent ++ call.opens device outcome } := by
        rw [done, Workshop.call, hperform]
      obtain ⟨bench, hbench, hworld⟩ := World.perform_bench hperform
      rw [hafter]
      refine ⟨hcalled.fresh, hcalled.home, hcalled.bench, ?_, hcalled.counted⟩
      change Lending world.bench world.handles (workshop.lent ++ call.opens device outcome)
      rcases opens_perform hbench with hnone | ⟨file, hopened, hnew⟩
      · rw [hnone, List.append_nil]
        exact hcalled.lending
      · rw [hopened, hworld]
        exact haccord.lending.addLent haccord.bench hnew (Bench.next_le_perform hbench)
          fun _ _ => Bench.mem_grants_perform hbench
  | @release device file own done =>
      have hnext := (Bench.next_releaseAt device file workshop.world.bench).ge
      rw [done]
      refine ⟨haccord.fresh, haccord.home, haccord.bench.releaseAt device file, ?_, fun index => ?_⟩
      · exact haccord.lending.giveBack own hnext fun _ _ => Bench.mem_grants_releaseAt
      · refine (haccord.bench.served_releaseAt device file index).trans ?_
        rw [haccord.counted index]
        change _ = ((workshop.world.trace ++ [_]).map _).sum
        rw [List.map_append, List.sum_append]
        rfl

theorem accord_start : ({} : Workshop).world.Accord [] := by
  have hnone : ∀ id, ({} : Workshop).world.handles.get? id = none := fun _ => rfl
  have hempty : ∀ index : Nat, ({} : Workshop).world.bench.simulators[index]? = none := fun _ => rfl
  have hgrants : ∀ index, ({} : Workshop).world.bench.grants index = [] := fun _ => rfl
  refine ⟨Table.fresh_empty, ?_, ⟨?_, ?_⟩, ⟨?_, ?_, ?_, ?_⟩, fun _ => rfl⟩
  · intro line id hholds
    cases (hholds : none = some id)
  · intro index sim hsim
    rw [hempty] at hsim
    cases hsim
  · intro index grant hgrant
    rw [hgrants] at hgrant
    cases hgrant
  · intro id handle hget
    rw [hnone] at hget
    cases hget
  · intro a b first second index hget
    rw [hnone] at hget
    cases hget
  · intro id handle hget
    rw [hnone] at hget
    cases hget
  · intro entry hentry
    cases hentry

structure Sound (workshop : Workshop) : Prop where
  client : workshop.client.Sound
  accord : workshop.world.Accord workshop.lent

theorem Sound.act (h : workshop.Sound) {act : Act} (hcan : workshop.Can act) :
    (workshop.act act).Sound := by
  cases act with
  | operation operation =>
      have hgroups : ∀ group ∈ operation.groups, group.WellFormed := fun group hgroup =>
        h.client.groups group (hcan.1 group hgroup)
      exact ⟨h.client.call hcan, (operation.deals h.client.desk hgroups).accord h.accord⟩
  | deed deed =>
      have hworked := worked_work hcan
      exact ⟨hworked.sound h.client, hworked.accord h.accord⟩

/-- **Every workshop is sound**, under any rule. -/
theorem Reachable.sound {rule : Workshop → Act → Prop} (h : Reachable rule workshop) :
    workshop.Sound := by
  induction h with
  | start => exact ⟨Client.sound_start _, accord_start⟩
  | act _ hcan _ ih => exact ih.act hcan

end Workshop

end GpioLines
