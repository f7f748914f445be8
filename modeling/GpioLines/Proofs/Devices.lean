import GpioLines.Bench.State
import GpioLines.Proofs.Lease
import GpioLines.Proofs.SimulatedLines

/-!
# What reaches a simulated chip

A probe passes calls on or fails them, but it never makes one up, and it changes no answer but a
number of lines. So beneath any number of probes a call either leaves all simulated chips alone, and
then it was refused or was about another device, or the chip beneath has granted it and the answer is
the chip's own (`perform_cases`). A grant takes the next number of the bench, which was never in use.
-/

namespace GpioLines

/-- The simulated chip beneath all probes. -/
def Device.simulator? : Device → Option Nat
  | .simulator index => some index
  | .character _ => none
  | .probe _ beneath => beneath.simulator?

theorem Probe.adjust_eq (probe : Probe) {call : Call} (hcall : call ≠ .chipInfo)
    (reply : call.Reply) : probe.adjust call reply = reply := by
  cases call with
  | chipInfo => exact absurd rfl hcall
  | _ => rfl

namespace Bench

variable {bench after : Bench}

/-! ### Calls -/

/-- The chip beneath the device has granted the call. -/
structure Granted (bench after : Bench) (device : Device) (call : Call) (reply : call.Reply)
    (index : Nat) : Prop where
  beneath : device.simulator? = some index
  answered : ∃ sim given changed, bench.simulators[index]? = some sim ∧
    sim.perform bench.files.next call = (.ok given, changed) ∧
    (call ≠ .chipInfo → reply = given) ∧
    ∀ other, after.simulators[other]? = if other = index then some changed
      else bench.simulators[other]?
  next : after.files.next = bench.files.next + (call.granted device (.ok reply)).card

/-- The call has reached no simulated chip, or the chip has refused it. -/
structure Passed (bench after : Bench) (device : Device) {call : Call} (outcome : Outcome call) :
    Prop where
  simulators : after.simulators = bench.simulators
  next_le : bench.files.next ≤ after.files.next
  reason : device.simulator? = none ∨ ∃ error, outcome = .error error

theorem next_openGranted (bench : Bench) (device : Device) (call : Call) (reply : call.Reply) :
    (bench.openGranted call (.ok reply)).files.next =
      bench.files.next + (call.granted device (.ok reply)).card := by
  cases call with
  | requestLines | requestEvent => rfl
  | _ => rfl

theorem simulators_openGranted (bench : Bench) (call : Call) (outcome : Outcome call) :
    (bench.openGranted call outcome).simulators = bench.simulators := by
  cases call <;> cases outcome <;> rfl

theorem passed_character (path : String) {call : Call} {outcome : Outcome call}
    (h : perform (.character path) call bench = (outcome, after)) :
    Passed bench after (.character path) outcome := by
  have hrequest : ∀ (target : Target) (kind : CallKind) (buffer : List UInt8) (bench : Bench),
      (Kernel.request target kind buffer bench).2.simulators = bench.simulators ∧
        bench.files.next ≤ (Kernel.request target kind buffer bench).2.files.next := by
    intro target kind buffer bench
    simp only [Kernel.request]
    split
    · exact ⟨rfl, le_rfl⟩
    · exact ⟨rfl, le_rfl⟩
    · exact ⟨rfl, Nat.le_succ _⟩
  have hsame := hrequest call.target call.kind (Layout.buffer call) bench
  have hframe : after.simulators = bench.simulators ∧ bench.files.next ≤ after.files.next := by
    simp only [perform, CharacterDevice.perform] at h
    split at h
    · split at h
      all_goals
        next hanswer =>
        rw [hanswer] at hsame
        obtain rfl := (Prod.mk.inj h).2
        exact hsame
    · obtain rfl := (Prod.mk.inj h).2
      exact ⟨rfl, le_rfl⟩
  exact ⟨hframe.1, hframe.2, Or.inl rfl⟩

theorem simulator_cases (index : Nat) {call : Call} {outcome : Outcome call}
    (h : perform (.simulator index) call bench = (outcome, after)) :
    Passed bench after (.simulator index) outcome ∨
      ∃ reply, outcome = .ok reply ∧ Granted bench after (.simulator index) call reply index := by
  simp only [perform, performSimulator] at h
  split at h
  · obtain ⟨rfl, rfl⟩ := Prod.mk.inj h
    exact Or.inl ⟨rfl, le_rfl, Or.inr ⟨_, rfl⟩⟩
  · next sim hsim =>
    rcases hperform : sim.perform bench.files.next call with ⟨error | reply, changed⟩
    · rw [hperform] at h
      obtain ⟨rfl, rfl⟩ := Prod.mk.inj h
      obtain rfl := Simulator.perform_refused hperform
      refine Or.inl ⟨?_, ?_, Or.inr ⟨error, rfl⟩⟩
      · rw [simulators_openGranted]
        obtain ⟨hlt, hget⟩ := List.getElem?_eq_some_iff.mp hsim
        rw [← hget, List.set_getElem_self]
      · cases call <;> exact le_rfl
    · rw [hperform] at h
      obtain ⟨rfl, rfl⟩ := Prod.mk.inj h
      refine Or.inr ⟨reply, rfl, rfl, ⟨sim, reply, changed, hsim, hperform, fun _ => rfl, ?_⟩, ?_⟩
      · intro other
        have hlt := (List.getElem?_eq_some_iff.mp hsim).1
        rw [simulators_openGranted, List.getElem?_set]
        simp only [hlt, if_true, eq_comm (a := index)]
      · exact next_openGranted _ _ call reply

/-- **What a call does to the simulated chips.** -/
theorem perform_cases {device : Device} {call : Call} {outcome : Outcome call}
    (h : perform device call bench = (outcome, after)) :
    Passed bench after device outcome ∨
      ∃ reply index, outcome = .ok reply ∧ Granted bench after device call reply index := by
  induction device generalizing bench after outcome with
  | simulator index =>
      exact (simulator_cases index h).imp_right fun ⟨reply, hreply, hgranted⟩ =>
        ⟨reply, index, hreply, hgranted⟩
  | character path => exact Or.inl (passed_character path h)
  | probe index beneath ih =>
      unfold perform at h
      split at h
      · rcases ih h with hpassed | ⟨reply, found, hreply, hgranted⟩
        · exact Or.inl ⟨hpassed.simulators, hpassed.next_le, hpassed.reason⟩
        · refine Or.inr ⟨reply, found, hreply, hgranted.beneath, hgranted.answered, ?_⟩
          rw [hgranted.next]
          cases call <;> rfl
      · next probe _ =>
        simp only at h
        split at h
        · obtain ⟨rfl, rfl⟩ := Prod.mk.inj h
          exact Or.inl ⟨rfl, le_rfl, Or.inr ⟨_, rfl⟩⟩
        · rcases hbeneath : perform beneath call _ with ⟨inner, mid⟩
          rw [hbeneath] at h
          cases inner with
          | error error =>
              obtain ⟨rfl, rfl⟩ := Prod.mk.inj h
              rcases ih hbeneath with hpassed | ⟨reply, found, hreply, -⟩
              · exact Or.inl ⟨hpassed.simulators, hpassed.next_le, Or.inr ⟨error, rfl⟩⟩
              · cases hreply
          | ok inner =>
              obtain ⟨rfl, rfl⟩ := Prod.mk.inj h
              rcases ih hbeneath with hpassed | ⟨reply, found, hreply, hgranted⟩
              · exact Or.inl ⟨hpassed.simulators, hpassed.next_le,
                  Or.inl (hpassed.reason.resolve_right nofun)⟩
              · obtain rfl := Except.ok.inj hreply
                obtain ⟨sim, given, changed, hsim, hperform, hgiven, hset⟩ := hgranted.answered
                refine Or.inr ⟨_, found, rfl, hgranted.beneath,
                  ⟨sim, given, changed, hsim, hperform, fun hcall => ?_, hset⟩, ?_⟩
                · rw [Probe.adjust_eq _ hcall]
                  exact hgiven hcall
                · refine hgranted.next.trans (congrArg (bench.files.next + ·) ?_)
                  exact (by cases call <;> rfl)

/-! ### Releases -/

theorem simulators_releaseAt (device : Device) (file : FileId) (bench : Bench) (other : Nat) :
    (releaseAt device file bench).simulators[other]? =
      if device.simulator? = some other then (bench.simulators[other]?).map (·.release file)
      else bench.simulators[other]? := by
  induction device generalizing bench with
  | simulator index =>
      simp only [Device.simulator?, Option.some.injEq]
      unfold releaseAt
      split
      · next hsim =>
        by_cases h : index = other
        · rw [if_pos h, ← h, hsim, Option.map_none]
        · rw [if_neg h]
      · next sim hsim =>
        have hset : ∀ opened : Bench, opened.simulators = bench.simulators →
            (opened.simulators.set index (sim.release file))[other]? =
              if index = other then (bench.simulators[other]?).map (·.release file)
              else bench.simulators[other]? := by
          intro opened hopened
          rw [hopened, List.getElem?_set]
          split
          · next h => rw [if_pos (List.getElem?_eq_some_iff.mp hsim).1, ← h, hsim, Option.map_some]
          · rfl
        simp only
        split <;> exact hset _ rfl
  | character path => rfl
  | probe index beneath ih =>
      unfold releaseAt
      rw [ih]
      cases bench.probes[index]? <;> rfl

theorem next_releaseAt (device : Device) (file : FileId) (bench : Bench) :
    (releaseAt device file bench).files.next = bench.files.next := by
  induction device generalizing bench with
  | simulator index =>
      unfold releaseAt
      split
      · rfl
      · simp only
        split <;> rfl
  | character path => rfl
  | probe index beneath ih =>
      unfold releaseAt
      rw [ih]
      cases bench.probes[index]? <;> rfl

/-! ### Files -/

theorem simulators_deliver (bench : Bench) (bytes : List UInt8) (lost : Notice)
    (files : List FileId) :
    (bench.deliver bytes lost files).2.simulators = bench.simulators ∧
      (bench.deliver bytes lost files).2.files.next = bench.files.next := by
  induction files generalizing bench with
  | nil => exact ⟨rfl, rfl⟩
  | cons file rest ih =>
      unfold deliver
      simp only
      split <;> exact ih (bench.modifyFile file (·.deliver bytes))

/-- Nothing but the files has changed, and no file was added. -/
structure FilesOnly (bench after : Bench) : Prop where
  simulators : after.simulators = bench.simulators
  next : after.files.next = bench.files.next

theorem filesOnly_read (bench : Bench) (file : FileId) (limit : Nat) :
    FilesOnly bench (bench.read file limit).2 := by
  unfold read
  split <;> exact ⟨rfl, rfl⟩

theorem filesOnly_watch (bench : Bench) (file : FileId) :
    FilesOnly bench (bench.watch file).2 := by
  unfold watch
  split <;> exact ⟨rfl, rfl⟩

/-! ### Controls -/

theorem simulators_modifySimulator (bench : Bench) (index : Nat) (f : Simulator → Simulator)
    (other : Nat) : (bench.modifySimulator index f).simulators[other]? =
      if other = index then (bench.simulators[other]?).map f else bench.simulators[other]? := by
  simp only [modifySimulator, List.getElem?_modify, eq_comm (a := index)]
  split
  · rfl
  · exact id_map _

theorem simulators_setLevel (bench : Bench) (index : Nat) (offset : Offset) (level : UInt8)
    (other : Nat) : (bench.setLevel index offset level).2.simulators[other]? =
      if other = index then
        (bench.simulators[other]?).map fun sim => (sim.setLevel offset (isActive level)).2
      else bench.simulators[other]? := by
  unfold setLevel
  split
  · next hnone =>
    split
    · next heq => rw [heq, hnone, Option.map_none]
    · rfl
  · next sim hsim =>
    have hset : (bench.simulators.set index (sim.setLevel offset (isActive level)).2)[other]? =
        if other = index then
          (bench.simulators[other]?).map fun sim => (sim.setLevel offset (isActive level)).2
        else bench.simulators[other]? := by
      rw [List.getElem?_set]
      split
      · next heq =>
        rw [if_pos heq.symm, if_pos (List.getElem?_eq_some_iff.mp hsim).1, ← heq, hsim,
          Option.map_some]
      · next hne => rw [if_neg (Ne.symm hne)]
    simp only
    split
    · exact hset
    · rw [(simulators_deliver ..).1]
      exact hset

/-- What the change of one chip leaves of that chip, it leaves of every chip. -/
theorem map_simulators_of_modify {β : Type} {part : Simulator → β} {bench after : Bench}
    {chip index : Nat} {f : Simulator → Simulator}
    (hafter : ∀ other : Nat, after.simulators[other]? =
      if other = chip then (bench.simulators[other]?).map f else bench.simulators[other]?)
    (hf : chip = index → ∀ sim : Simulator, part (f sim) = part sim) :
    (after.simulators[index]?).map part = (bench.simulators[index]?).map part := by
  rw [hafter]
  split
  · next hindex =>
    rw [Option.map_map]
    exact Option.map_congr fun sim _ => hf hindex.symm sim
  · rfl

theorem next_setLevel (bench : Bench) (index : Nat) (offset : Offset) (level : UInt8) :
    (bench.setLevel index offset level).2.files.next = bench.files.next := by
  unfold setLevel
  split
  · rfl
  · simp only
    split
    · rfl
    · exact (simulators_deliver ..).2

end Bench

end GpioLines
