import GpioLines.Proofs.Feed
import GpioLines.Proofs.Replay

/-!
# The clock counts changes

A simulated chip has no other clock than its listeners see: it stands still until a level is set from
outside and is thereby changed, and then goes on by a fixed interval. Nothing that is asked of the
chip moves it. So the clock is the number of changes so far, in nanoseconds.
-/

namespace GpioLines

namespace Simulator

variable {sim after : Simulator}

@[simp] theorem clock_modifyAll (sim : Simulator)
    (updates : List (Offset × (SimLine → SimLine))) : (sim.modifyAll updates).clock = sim.clock := by
  obtain ⟨lines, heq, -⟩ := sim.modifyAll_eq updates
  rw [heq]

theorem clock_perform {fresh : FileId} {call : Call} {reply : call.Reply}
    (h : sim.perform fresh call = (.ok reply, after)) : after.clock = sim.clock := by
  cases call with
  | chipInfo | lineInfo | getValues =>
      obtain rfl := (Prod.mk.inj h).2
      rfl
  | requestLines request =>
      obtain ⟨-, hgranted⟩ := settle_eq_ok.mp h
      obtain ⟨-, -, rfl⟩ := requestLines_eq_ok hgranted
      simp
  | requestEvent request =>
      obtain ⟨-, hgranted⟩ := settle_eq_ok.mp h
      obtain ⟨-, -, rfl⟩ := requestEvent_eq_ok hgranted
      simp
  | setValues file values =>
      obtain ⟨-, hset⟩ := settle_eq_ok.mp h
      obtain ⟨grant, -, -, -, -, rfl⟩ := setValues_eq_ok hset
      simp
  | setConfig file flags values =>
      obtain ⟨-, hset⟩ := settle_eq_ok.mp h
      obtain ⟨-, grant, -, -, -, rfl⟩ := setConfig_eq_ok hset
      simp

theorem clock_release (sim : Simulator) (file : FileId) : (sim.release file).clock = sim.clock := by
  rcases sim.release_eq file with ⟨-, heq⟩ | ⟨_, -, -, -, heq⟩
  · rw [heq]
  · rw [heq]
    exact clock_modifyAll ..

theorem clock_control (sim : Simulator) (control : Control) :
    (control.apply sim).clock = sim.clock := by
  cases control <;> rfl

/-- What passes to and from a chip does not move its clock. -/
theorem Replays.clock {index : Nat} {exchanges : List Exchange}
    (h : Replays index exchanges sim after) : after.clock = sim.clock :=
  h.keeps (P := (·.clock = sim.clock))
    (fun _ _ _ _ _ hcall hsame => (clock_perform hcall).trans hsame)
    (fun other file hsame => (other.clock_release file).trans hsame) rfl

end Simulator

namespace Bench

variable {bench after : Bench}

theorem clock_of_eq {index : Nat} {sim : Simulator} (h : bench.simulators[index]? = some sim) :
    bench.clock index = sim.clock := by
  rw [clock, h, Option.elim_some]

theorem clock_congr (h : after.simulators = bench.simulators) : after.clock = bench.clock := by
  funext index
  rw [clock, clock, h]

theorem Replayed.clock {exchanges : List Exchange} (h : Replayed exchanges bench after) :
    after.clock = bench.clock := by
  funext index
  cases hsim : bench.simulators[index]? with
  | none => rw [Bench.clock, Bench.clock, h.absent index hsim, hsim]
  | some sim =>
      obtain ⟨changed, hchanged, hreplays⟩ := h.present index sim hsim
      rw [clock_of_eq hsim, clock_of_eq hchanged, hreplays.clock]

/-- A chip that is added starts its clock at zero. -/
theorem clock_addSimulator (bench : Bench) (name : String) (lineCount : UInt32) :
    (bench.addSimulator name lineCount).2.clock = bench.clock := by
  funext index
  simp only [clock, addSimulator, List.getElem?_append]
  split
  · rfl
  · next hge =>
    have hnone : bench.simulators[index]? = none := List.getElem?_eq_none (Nat.not_lt.mp hge)
    rw [hnone]
    cases hnew : [Simulator.create name lineCount][index - bench.simulators.length]? with
    | none => rfl
    | some sim =>
        obtain rfl := List.mem_singleton.mp (List.mem_of_getElem? hnew)
        rfl

theorem clock_control (bench : Bench) (index : Nat) (control : Control) :
    (bench.modifySimulator index control.apply).clock = bench.clock := by
  funext other
  simp only [clock, modifySimulator, List.getElem?_modify]
  cases bench.simulators[other]? with
  | none => rfl
  | some sim =>
      simp only [Option.elim_some]
      split
      · exact sim.clock_control control
      · rfl

/-- The clock goes on by one interval for a change, and for nothing else. -/
theorem clock_setLevel (bench : Bench) (index : Nat) (offset : Offset) (level : UInt8)
    (other : Nat) : (bench.setLevel index offset level).2.clock other = bench.clock other +
      if index = other ∧ (bench.change? index offset level).isSome then Simulator.eventInterval
      else 0 := by
  cases hchange : bench.change? index offset level with
  | none =>
      rw [setLevel_unchanged hchange, if_neg (by simp), UInt64.add_zero]
  | some change =>
      obtain ⟨-, sim, line, mid, hsim, -, -, hmid, hset⟩ := setLevel_changed hchange
      have hlt : index < bench.simulators.length := (List.getElem?_eq_some_iff.mp hsim).1
      have hafter : (bench.setLevel index offset level).2.simulators = mid.simulators := by
        rw [hset]
        exact (mid.simulators_deliver ..).1
      rw [clock_congr hafter, clock, hmid, List.getElem?_set]
      by_cases heq : index = other
      · subst heq
        rw [if_pos rfl, if_pos hlt, if_pos ⟨rfl, rfl⟩, clock_of_eq hsim]
        rfl
      · rw [if_neg heq, if_neg fun hboth => heq hboth.1, UInt64.add_zero]
        rfl

end Bench

/-! ### Changes along a script -/

namespace Workshop

variable {workshop : Workshop}

/-- The change of level that an act makes on a simulated chip, if it makes one. -/
def change? (index : Nat) (workshop : Workshop) : Act → Option Change
  | .deed (.setLevel chip offset level) =>
    if chip = index then workshop.world.bench.change? index offset level else none
  | _ => none

/-- The changes of level on a simulated chip along a script, in order. -/
def changes (index : Nat) (workshop : Workshop) : List Act → List Change
  | [] => []
  | act :: rest => (workshop.change? index act).toList ++ (workshop.act act).changes index rest

/-- The simulated chips follow the trace of an operation. -/
theorem Sound.follows (h : workshop.Sound) {operation : Operation}
    (hcan : workshop.Can (.operation operation)) :
    workshop.world.Follows (workshop.act (.operation operation)).world := by
  have hmoves := Operation.moves h.client.desk fun group hgroup =>
    h.client.groups group (hcan.1 group hgroup)
  have hbegin := operation.machine_begin workshop.world
  have hbench : (operation.begin workshop.world).bench = workshop.world.bench :=
    congrArg Traced.machine hbegin
  have hexclusive : (operation.begin workshop.world).bench.Exclusive := by
    rw [hbench]
    exact h.accord.bench
  obtain ⟨hafter, made, htrace, hreplayed⟩ := hmoves.follows hexclusive
  refine ⟨hafter, made, htrace.trans (congrArg (Traced.trace · ++ made) hbegin), ?_⟩
  rw [← hbench]
  exact hreplayed

theorem clock_act (h : workshop.Sound) {act : Act} (hcan : workshop.Can act) (index : Nat) :
    (workshop.act act).world.bench.clock index = workshop.world.bench.clock index +
      if (workshop.change? index act).isSome then Simulator.eventInterval else 0 := by
  have hkept : ∀ {act : Act}, workshop.change? index act = none →
      (workshop.act act).world.bench.clock = workshop.world.bench.clock →
      (workshop.act act).world.bench.clock index = workshop.world.bench.clock index +
        if (workshop.change? index act).isSome then Simulator.eventInterval else 0 := by
    intro act hnone hclock
    rw [hnone, hclock, if_neg (by simp), UInt64.add_zero]
  cases act with
  | operation operation =>
      obtain ⟨-, made, -, hreplayed⟩ := h.follows hcan
      exact hkept rfl hreplayed.clock
  | deed deed =>
      cases deed with
      | addSimulator name lineCount => exact hkept rfl (Bench.clock_addSimulator ..)
      | control index control => exact hkept rfl (Bench.clock_control ..)
      | addProbe | setAnswers | close => exact hkept rfl rfl
      | addFault device fault =>
          exact hkept rfl (Bench.clock_congr (Bench.filesOnly_addFault ..).simulators)
      | inject index offset bytes =>
          exact hkept rfl (Bench.clock_congr (Bench.filesOnly_inject ..).simulators)
      | read file limit => exact hkept rfl (Bench.clock_congr (Bench.filesOnly_read ..).simulators)
      | call device call =>
          obtain ⟨-, made, -, hreplayed⟩ := World.follows_perform h.accord.bench device call
          exact hkept rfl hreplayed.clock
      | release device file => exact hkept rfl (Bench.replayed_releaseAt ..).clock
      | setLevel chip offset level =>
          refine (Bench.clock_setLevel _ chip offset level index).trans ?_
          rw [change?]
          by_cases heq : chip = index
          · subst heq
            simp only [true_and, if_true]
          · simp [heq]

/-- **The clock counts changes.** -/
theorem clock_actAll {rule : Workshop → Act → Prop} (h : workshop.Sound) {script : List Act}
    (hcan : workshop.CanActAll rule script) (index : Nat) :
    (workshop.actAll script).world.bench.clock index = workshop.world.bench.clock index +
      Simulator.eventInterval * UInt64.ofNat (workshop.changes index script).length := by
  induction script generalizing workshop with
  | nil => exact (UInt64.add_zero _).symm
  | cons act rest ih =>
      have hrest := ih (h.act hcan.1) hcan.2.2
      rw [clock_act h hcan.1] at hrest
      refine hrest.trans ?_
      rw [changes, List.length_append, UInt64.ofNat_add, UInt64.mul_add, ← UInt64.add_assoc]
      congr 2
      cases workshop.change? index act with
      | none => rfl
      | some => exact (UInt64.mul_one _).symm

end Workshop

end GpioLines
