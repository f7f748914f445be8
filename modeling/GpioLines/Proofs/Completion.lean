import GpioLines.Proofs.Crew

/-!
# Crews get done

No thread waits for a guard that it has, and whoever has a guard can go on. So as long as a crew is not
done some thread can go on, and each step brings its thread nearer to its end. How many lines a closing
has to go over is known only once the chip is marked, so the distance is a pair, compared in
lexicographic order.
-/

namespace GpioLines

def Requesting.rank (size : Nat) : Requesting → Nat
  | .start => 5 * size + 8
  | .waiting => 5 * size + 7
  | .entered => 5 * size + 6
  | .scanning _ _ rest => rest.length + 4 * size + 5
  | .asking _ => 2 * size + 3
  | .acquiring _ granted rest => 2 * rest.length + granted.length + 2 * size + 4
  | .attaching pairs => pairs.length + size + 2
  | .undoing granted _ => granted.length + 1
  | .refreshing rest => rest.length + 1
  | .finished _ => 0

def Releasing.rank (size : Nat) : Releasing → Nat
  | .start => 3 * size + 5
  | .waiting => 3 * size + 4
  | .detaching _ held rest => 2 * rest.length + held.length + size + 3
  | .dropping _ _ held => held.length + size + 2
  | .refreshing rest => rest.length + 1
  | .finished => 0

/-- How many stages are left before the lines are looked up, and how many steps after that. -/
def Closing.rank : Closing → Nat × Nat
  | .waiting => (3, 0)
  | .entered => (2, 0)
  | .marked _ => (1, 0)
  | .invalidating _ rest => (0, 2 * rest.length + 1)
  | .discarding _ _ rest => (0, 2 * rest.length + 2)
  | .finished => (0, 0)

def Thread.rank : Thread → Nat × Nat
  | .request demand stage => (0, stage.rank demand.group.size)
  | .release group stage => (0, stage.rank group.size)
  | .close _ stage => stage.rank

def Nearer (a b : Nat × Nat) : Prop := a.1 < b.1 ∨ a.1 = b.1 ∧ a.2 < b.2

theorem wellFounded_nearer : WellFounded Nearer := by
  have hlex : WellFounded (Prod.Lex (· < ·) (· < ·) : Nat × Nat → Nat × Nat → Prop) :=
    (Prod.lex Nat.lt_wfRel Nat.lt_wfRel).wf
  refine Subrelation.wf ?_ hlex
  intro a b h
  exact Prod.lex_def.mpr h

variable {σ : Type} [Machine σ] {world : World σ} {shared : HandleId → Bool}

theorem Demand.rank_step {demand : Demand} {stage : Requesting}
    (h : (Thread.request demand stage).isFinished = false) :
    (demand.step shared world stage).1.rank demand.group.size < stage.rank demand.group.size := by
  cases stage with
  | start =>
      simp only [step]
      split <;> simp only [fail, Requesting.rank] <;> omega
  | waiting => simp only [step, Requesting.rank]; omega
  | entered =>
      simp only [step]
      split <;> simp only [fail, Requesting.rank, Group.size] <;> omega
  | scanning device before rest =>
      cases rest with
      | nil =>
          simp only [step]
          split <;> simp only [Requesting.rank, Group.size, List.length_nil] <;> omega
      | cons line rest =>
          simp only [step]
          split <;> simp only [fail, Requesting.rank, List.length_cons] <;> omega
  | asking device =>
      simp only [step]
      split <;> simp only [Requesting.rank, List.length_map, Group.size] <;> omega
  | acquiring device granted rest =>
      cases rest with
      | nil =>
          simp only [step, Requesting.rank, List.length_zip, List.length_nil, Group.size]
          omega
      | cons line rest =>
          simp only [step]
          split <;> simp only [Requesting.rank, List.length_append, List.length_cons,
            List.length_nil] <;> omega
  | attaching pairs =>
      cases pairs <;> simp only [step, Requesting.rank, List.length_cons, List.length_nil,
        Group.size] <;> omega
  | undoing granted error =>
      cases granted <;> simp only [step, Requesting.rank, List.length_cons, List.length_nil] <;> omega
  | refreshing rest =>
      cases rest <;> simp only [step, Requesting.rank, List.length_cons, List.length_nil] <;> omega
  | finished outcome => cases h

theorem Group.rank_releaseStep {group : Group} {stage : Releasing}
    (h : (Thread.release group stage).isFinished = false) :
    (group.releaseStep shared world stage).1.rank group.size < stage.rank group.size := by
  cases stage with
  | start =>
      simp only [releaseStep]
      split <;> simp only [Releasing.rank, size, List.length_nil] <;> omega
  | waiting =>
      simp only [releaseStep, Releasing.rank, size, List.length_nil]
      omega
  | detaching guarded held rest =>
      cases rest with
      | nil => simp only [releaseStep, Releasing.rank, List.length_nil]; omega
      | cons line rest =>
          have hone : ((world.detach line).1.toList).length ≤ 1 := by
            cases (world.detach line).1 <;> simp
          simp only [releaseStep, Releasing.rank, List.length_append, List.length_cons]
          omega
  | dropping guarded count held =>
      cases held with
      | nil =>
          simp only [releaseStep]
          split
          · simp only [Releasing.rank]
            omega
          · split <;> simp only [Releasing.rank, size, List.length_nil] <;> omega
      | cons id rest => simp only [releaseStep, Releasing.rank, List.length_cons]; omega
  | refreshing rest =>
      cases rest <;> simp only [releaseStep, Releasing.rank, List.length_cons, List.length_nil] <;>
        omega
  | finished => cases h

theorem World.rank_closeStep {chip : ChipId} {stage : Closing}
    (h : (Thread.close chip stage).isFinished = false) :
    Nearer (world.closeStep chip shared stage).1.rank stage.rank := by
  cases stage with
  | waiting => exact Or.inl (Nat.lt_succ_self 2)
  | entered =>
      simp only [closeStep]
      split
      · exact Or.inl Nat.two_pos
      · split
        · exact Or.inl Nat.two_pos
        · exact Or.inl Nat.one_lt_two
  | marked name => exact Or.inl Nat.one_pos
  | invalidating name rest =>
      cases rest with
      | nil => exact Or.inr ⟨rfl, Nat.one_pos⟩
      | cons line rest =>
          simp only [closeStep]
          cases (world.detach line).1 with
          | none =>
              refine Or.inr ⟨rfl, ?_⟩
              simp only [Option.elim_none, Closing.rank, List.length_cons]
              omega
          | some id =>
              refine Or.inr ⟨rfl, ?_⟩
              simp only [Option.elim_some, Closing.rank, List.length_cons]
              omega
  | discarding name id rest => exact Or.inr ⟨rfl, Nat.lt_succ_self _⟩
  | finished => cases h

theorem Thread.rank_step {thread : Thread} (h : thread.isFinished = false) :
    Nearer (thread.step shared world).1.rank thread.rank := by
  cases thread with
  | request demand stage => exact Or.inr ⟨rfl, Demand.rank_step h⟩
  | release group stage => exact Or.inr ⟨rfl, Group.rank_releaseStep h⟩
  | close chip stage => exact World.rank_closeStep h

/-! ### Crews -/

theorem Thread.isFinished_of_guard? {thread : Thread} {chip : ChipId}
    (h : thread.guard? = some chip) : thread.isFinished = false := by
  cases thread with
  | request demand stage => cases stage <;> first | rfl | cases h
  | release group stage => cases stage <;> first | rfl | cases h
  | close other stage => cases stage <;> first | rfl | cases h

namespace Crew

omit [Machine σ] in
/-- **There is no deadlock.** Some thread can go on until all are finished. -/
theorem exists_ready {crew : Crew σ} (h : crew.isDone = false) :
    ∃ (i : Nat) (thread : Thread), crew.threads[i]? = some thread ∧ thread.isFinished = false ∧
      crew.blocks thread = false := by
  by_cases hguard : ∃ thread ∈ crew.threads, ∃ chip, thread.guard? = some chip
  · obtain ⟨thread, hmem, chip, hchip⟩ := hguard
    obtain ⟨i, hget⟩ := List.mem_iff_getElem?.mp hmem
    refine ⟨i, thread, hget, Thread.isFinished_of_guard? hchip, ?_⟩
    rw [blocks, Thread.awaits?_of_guard? hchip, Option.any_none]
  · rw [isDone, List.all_eq_false] at h
    obtain ⟨thread, hmem, hunfinished⟩ := h
    obtain ⟨i, hget⟩ := List.mem_iff_getElem?.mp hmem
    refine ⟨i, thread, hget, Bool.eq_false_of_not_eq_true hunfinished, ?_⟩
    rw [blocks]
    cases thread.awaits? with
    | none => rfl
    | some chip =>
        rw [Option.any_some, List.any_eq_false]
        intro other hother heq
        exact hguard ⟨other, hother, chip, beq_iff_eq.mp heq⟩

def rank (crew : Crew σ) : Nat × Nat :=
  ((crew.threads.map (·.rank.1)).sum, (crew.threads.map (·.rank.2)).sum)

theorem sum_map_set {threads : List Thread} {i : Nat} {old : Thread} (h : threads[i]? = some old)
    (next : Thread) (f : Thread → Nat) :
    ((threads.set i next).map f).sum + f old = (threads.map f).sum + f next := by
  induction threads generalizing i with
  | nil => cases h
  | cons first rest ih =>
      cases i with
      | zero =>
          obtain rfl := Option.some.inj h
          simp only [List.set_cons_zero, List.map_cons, List.sum_cons]
          omega
      | succ i =>
          have hrest := ih h
          simp only [List.set_cons_succ, List.map_cons, List.sum_cons]
          omega

theorem rank_advance {crew : Crew σ} {i : Nat} {thread : Thread}
    (hthread : crew.threads[i]? = some thread) (hunfinished : thread.isFinished = false)
    (hready : crew.blocks thread = false) : Nearer (crew.advance i).rank crew.rank := by
  have hnearer : Nearer (thread.step (crew.shares i) crew.world).1.rank thread.rank :=
    Thread.rank_step hunfinished
  have hthreads : (crew.advance i).threads =
      crew.threads.set i (thread.step (crew.shares i) crew.world).1 := by
    simp only [advance, hthread, hready]
    rfl
  have hfirst := sum_map_set hthread (thread.step (crew.shares i) crew.world).1 (·.rank.1)
  have hsecond := sum_map_set hthread (thread.step (crew.shares i) crew.world).1 (·.rank.2)
  rw [← hthreads] at hfirst hsecond
  unfold Nearer rank
  rcases hnearer with hlt | ⟨heq, hlt⟩ <;> omega

/-- **Every crew can get done.** -/
theorem exists_done (crew : Crew σ) : ∃ schedule : List Nat, (crew.follow schedule).isDone = true := by
  induction hrank : crew.rank using wellFounded_nearer.induction generalizing crew with
  | _ _ ih =>
      cases hdone : crew.isDone with
      | true => exact ⟨[], hdone⟩
      | false =>
          obtain ⟨i, thread, hthread, hunfinished, hready⟩ := exists_ready hdone
          have hnearer := rank_advance hthread hunfinished hready
          obtain ⟨schedule, hschedule⟩ := ih _ (hrank ▸ hnearer) (crew.advance i) rfl
          exact ⟨i :: schedule, hschedule⟩

end Crew

end GpioLines
