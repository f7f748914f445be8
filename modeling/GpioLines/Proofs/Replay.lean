import GpioLines.Proofs.Accord
import GpioLines.Proofs.Reachability

/-!
# What passed is what happened

The library reaches a simulated chip through the device boundary only, and the trace writes down all
that passes there. So a chip is after an operation what it becomes if the new part of the trace is
replayed on it, exchange by exchange. Whoever knows what passed knows what has become of the chip and
need not look at the operation again.
-/

namespace GpioLines

/-- What an exchange makes of one simulated chip: an answer is the chip's own, a refusal leaves it as
it was, and a number that it gives to a new file is above all numbers in use. -/
def Exchange.Makes (index : Nat) (sim after : Simulator) : Exchange → Prop
  | .call device asked (.ok reply) =>
    if device.simulator? = some index then
      ∃ fresh given, (∀ grant ∈ sim.grants, grant.file < fresh) ∧
        sim.perform fresh asked = (.ok given, after) ∧ (asked ≠ .chipInfo → reply = given)
    else after = sim
  | .call _ _ (.error _) => after = sim
  | .release device file =>
    after = if device.simulator? = some index then sim.release file else sim

def Exchange.device : Exchange → Device
  | .call device _ _ => device
  | .release device _ => device

namespace Simulator

inductive Replays (index : Nat) : List Exchange → Simulator → Simulator → Prop
  | nil (sim : Simulator) : Replays index [] sim sim
  | cons {exchange : Exchange} {rest : List Exchange} {sim mid after : Simulator}
      (first : exchange.Makes index sim mid) (others : Replays index rest mid after) :
      Replays index (exchange :: rest) sim after

namespace Replays

variable {index : Nat} {sim mid after : Simulator} {earlier later : List Exchange}

theorem single {exchange : Exchange} (h : exchange.Makes index sim after) :
    Replays index [exchange] sim after :=
  .cons h (.nil after)

theorem trans (h : Replays index earlier sim mid) (hlater : Replays index later mid after) :
    Replays index (earlier ++ later) sim after := by
  induction h with
  | nil => exact hlater
  | cons hfirst _ ih => exact .cons hfirst (ih hlater)

theorem of_append (h : Replays index (earlier ++ later) sim after) :
    ∃ mid, Replays index earlier sim mid ∧ Replays index later mid after := by
  induction earlier generalizing sim with
  | nil => exact ⟨sim, .nil sim, h⟩
  | cons exchange rest ih =>
      cases h with
      | cons hfirst hothers =>
          obtain ⟨mid, hrest, hlater⟩ := ih hothers
          exact ⟨mid, .cons hfirst hrest, hlater⟩

/-- What passes elsewhere leaves the chip alone. -/
theorem elsewhere {exchanges : List Exchange} (h : Replays index exchanges sim after)
    (hdevice : ∀ exchange ∈ exchanges, exchange.device.simulator? ≠ some index) : after = sim := by
  induction h with
  | nil => rfl
  | @cons exchange rest sim mid after hfirst _ ih =>
      have hmid : mid = sim := by
        cases exchange with
        | call device asked outcome =>
            have hnot : device.simulator? ≠ some index := hdevice _ List.mem_cons_self
            cases outcome with
            | error => exact hfirst
            | ok reply =>
                rwa [Exchange.Makes, if_neg hnot] at hfirst
        | release device file =>
            have hnot : device.simulator? ≠ some index := hdevice _ List.mem_cons_self
            rwa [Exchange.Makes, if_neg hnot] at hfirst
      rw [← hmid]
      exact ih fun other hother => hdevice other (List.mem_cons_of_mem _ hother)

/-- What a chip keeps in every call that it grants and in every release, it keeps in a replay. -/
theorem keeps {P : Simulator → Prop} {exchanges : List Exchange} (h : Replays index exchanges sim after)
    (hperform : ∀ (sim after : Simulator) (fresh : FileId) (call : Call) (reply : call.Reply),
      sim.perform fresh call = (.ok reply, after) → P sim → P after)
    (hrelease : ∀ (sim : Simulator) (file : FileId), P sim → P (sim.release file)) (hsim : P sim) :
    P after := by
  induction h with
  | nil => exact hsim
  | @cons exchange _ sim mid _ hfirst _ ih =>
      refine ih ?_
      cases exchange with
      | call device asked outcome =>
          cases outcome with
          | error => rwa [show mid = sim from hfirst]
          | ok reply =>
              rw [Exchange.Makes] at hfirst
              split at hfirst
              · obtain ⟨fresh, given, -, hcall, -⟩ := hfirst
                exact hperform sim mid fresh asked given hcall hsim
              · rwa [hfirst]
      | release device file =>
          rw [Exchange.Makes] at hfirst
          rw [hfirst]
          split
          · exact hrelease sim file hsim
          · exact hsim

end Replays

end Simulator

namespace Bench

variable {bench mid after : Bench}

/-- Every simulated chip is after these exchanges what their replay makes of it. -/
structure Replayed (exchanges : List Exchange) (bench after : Bench) : Prop where
  present : ∀ (index : Nat) (sim : Simulator), bench.simulators[index]? = some sim →
    ∃ changed, after.simulators[index]? = some changed ∧
      Simulator.Replays index exchanges sim changed
  absent : ∀ index : Nat, bench.simulators[index]? = none → after.simulators[index]? = none

theorem replayed_nil (h : after.simulators = bench.simulators) : Replayed [] bench after where
  present := fun _ sim hsim => ⟨sim, by rwa [h], .nil sim⟩
  absent := fun _ hnone => by rwa [h]

theorem Replayed.trans {earlier later : List Exchange} (h : Replayed earlier bench mid)
    (hlater : Replayed later mid after) : Replayed (earlier ++ later) bench after where
  present := by
    intro index sim hsim
    obtain ⟨between, hbetween, hfirst⟩ := h.present index sim hsim
    obtain ⟨changed, hchanged, hsecond⟩ := hlater.present index between hbetween
    exact ⟨changed, hchanged, hfirst.trans hsecond⟩
  absent := fun index hnone => hlater.absent index (h.absent index hnone)

theorem Exclusive.replayed_perform (h : bench.Exclusive) {device : Device} {call : Call}
    {outcome : Outcome call} (hperform : Bench.perform device call bench = (outcome, after)) :
    Replayed [.call device call outcome] bench after := by
  have hsame : ∀ index sim, bench.simulators[index]? = some sim →
      after.simulators = bench.simulators →
      (Exchange.call device call outcome).Makes index sim sim →
      ∃ changed, after.simulators[index]? = some changed ∧
        Simulator.Replays index [.call device call outcome] sim changed :=
    fun index sim hsim hafter hmakes => ⟨sim, by rwa [hafter], .single hmakes⟩
  rcases perform_cases hperform with hpassed | ⟨reply, found, rfl, hgranted⟩
  · refine ⟨fun index sim hsim => hsame index sim hsim hpassed.simulators ?_,
      fun index hnone => by rwa [hpassed.simulators]⟩
    rcases hpassed.reason with hnowhere | ⟨error, rfl⟩
    · cases outcome with
      | error => rfl
      | ok => simp [Exchange.Makes, hnowhere]
    · rfl
  · obtain ⟨asked, given, changed, hasked, hcall, hreply, hafter⟩ := hgranted.answered
    refine ⟨fun index sim hsim => ?_, fun index hnone => ?_⟩
    · by_cases heq : index = found
      · subst heq
        obtain rfl := Option.some.inj (hsim.symm.trans hasked)
        refine ⟨changed, (hafter index).trans (if_pos rfl), .single ?_⟩
        rw [Exchange.Makes, if_pos hgranted.beneath]
        refine ⟨bench.files.next, given, fun grant hgrant => ?_, hcall, hreply⟩
        exact h.fresh index grant (mem_grants.mpr ⟨sim, hsim, hgrant⟩)
      · refine ⟨sim, ((hafter index).trans (if_neg heq)).trans hsim, .single ?_⟩
        rw [Exchange.Makes, hgranted.beneath, if_neg fun hsome => heq (Option.some.inj hsome).symm]
    · have hne : index ≠ found := by
        rintro rfl
        rw [hnone] at hasked
        cases hasked
      rw [hafter, if_neg hne, hnone]

theorem replayed_releaseAt (device : Device) (file : FileId) (bench : Bench) :
    Replayed [.release device file] bench (releaseAt device file bench) where
  present := by
    intro index sim hsim
    refine ⟨_, ?_, .single rfl⟩
    rw [simulators_releaseAt, hsim]
    split <;> rfl
  absent := by
    intro index hnone
    rw [simulators_releaseAt, hnone]
    split <;> rfl

end Bench

/-! ### Move by move -/

/-- The trace has grown, the simulated chips have followed it, and they are still exclusive. -/
def World.Follows (before after : World (Traced Bench)) : Prop :=
  after.bench.Exclusive ∧ ∃ made, after.trace = before.trace ++ made ∧
    Bench.Replayed made before.bench after.bench

namespace World

variable {world after : World (Traced Bench)}

theorem follows_of_filesOnly (h : world.bench.Exclusive)
    (hfiles : Bench.FilesOnly world.bench after.bench) (htrace : after.trace = world.trace) :
    world.Follows after :=
  ⟨h.filesOnly hfiles, [], by rw [htrace, List.append_nil], Bench.replayed_nil hfiles.simulators⟩

theorem follows_of_machine_eq (h : world.bench.Exclusive) (hmachine : after.machine = world.machine) :
    world.Follows after := by
  have hbench : after.bench = world.bench := congrArg Traced.machine hmachine
  apply follows_of_filesOnly h
  · rw [hbench]
    exact ⟨rfl, rfl⟩
  · exact congrArg Traced.trace hmachine

theorem follows_perform (h : world.bench.Exclusive) (device : Device) (call : Call) :
    world.Follows (world.perform device call).2 := by
  obtain ⟨bench, hbench, hafter⟩ := perform_bench (Prod.eta (world.perform device call)).symm
  rw [hafter]
  exact ⟨h.perform hbench, _, rfl, h.replayed_perform hbench⟩

theorem follows_dropHandle (h : world.bench.Exclusive) (id : HandleId) :
    world.Follows (world.dropHandle id) := by
  have hsame : world.Follows world := follows_of_machine_eq h rfl
  unfold dropHandle
  split
  · exact hsame
  · cases hget : world.handles.get? id with
    | none =>
        rw [closeHandle, hget]
        exact hsame
    | some handle =>
        have hreleased : (Bench.releaseAt handle.device handle.file world.bench).Exclusive :=
          h.releaseAt handle.device handle.file
        rw [closeHandle_eq hget]
        refine ⟨hreleased.filesOnly ⟨rfl, rfl⟩, [.release handle.device handle.file], rfl, ?_⟩
        obtain ⟨hpresent, habsent⟩ :=
          Bench.replayed_releaseAt handle.device handle.file world.bench
        exact ⟨hpresent, habsent⟩

end World

theorem Move.follows {scope : Scope} {before after : Desk (Traced Bench)}
    (hmove : Move scope before after) (h : before.world.bench.Exclusive) :
    before.world.Follows after.world := by
  cases hmove with
  | remark | retune | retouch | attach | detach | forget | openStream | closeStream | openChip =>
      exact World.follows_of_machine_eq h rfl
  | @read world _ file size =>
      exact World.follows_of_filesOnly h (world.bench.filesOnly_read file size) rfl
  | @watch world _ file =>
      exact World.follows_of_filesOnly h (world.bench.filesOnly_watch file) rfl
  | unwatch => exact World.follows_of_filesOnly h ⟨rfl, rfl⟩ rfl
  | call => exact World.follows_perform h ..
  | grant => exact World.follows_perform h ..
  | drop => exact World.follows_dropHandle h _

/-- **What passed is what happened**, in any chain of moves. -/
theorem Moves.follows {scope : Scope} {before after : Desk (Traced Bench)}
    (hmoves : Moves scope before after) (h : before.world.bench.Exclusive) :
    before.world.Follows after.world := by
  induction hmoves with
  | refl => exact World.follows_of_machine_eq h rfl
  | tail _ hmove ih =>
      obtain ⟨hmid, earlier, hearlier, hreplayed⟩ := ih
      obtain ⟨hafter, later, hlater, hmore⟩ := hmove.follows hmid
      refine ⟨hafter, earlier ++ later, ?_, hreplayed.trans hmore⟩
      rw [hlater, hearlier, List.append_assoc]

end GpioLines
