import GpioLines.Proofs.Conduct
import GpioLines.Proofs.Reachability

/-!
# What holds of every crew

The guard of a chip has one holder, threads know what belongs to their stages, and a chip that is
closed has no line held any more or a thread that sees to it. The history agrees with the slots: a
line that a thread has attached and nobody has freed is held, and it was attached by one thread only.
-/

namespace GpioLines

/-! ### Histories -/

namespace History

theorem takenBy_record (history : History) (i j : Nat) (touch : Option Touch) :
    (history.record j touch).takenBy i =
      history.takenBy i ++ if j = i then Touch.takes touch else [] := by
  cases touch with
  | none =>
      rw [Touch.takes, ite_self, List.append_nil]
      rfl
  | some touch => rfl

theorem Keeps.of_attached {history : History} {i j : Nat} {line other : Line}
    (h : (history.record j (some (.attached other))).Keeps i line) :
    j = i ∧ other = line ∨ history.Keeps i line := h

theorem Keeps.of_freed {history : History} {i j : Nat} {line other : Line}
    (h : (history.record j (some (.freed other))).Keeps i line) :
    other ≠ line ∧ history.Keeps i line := h

end History

namespace Effect

variable {before after : Board} {guard? : Option ChipId} {next : Thread} {touch : Option Touch}
  {history : History}

theorem clears (h : Effect before guard? next touch after) {chip : ChipId}
    (hbefore : before.closed? chip ≠ some true) (hafter : after.closed? chip = some true) :
    next.Clears chip := by
  cases h with
  | quiet | attached | freed => exact absurd hafter hbefore
  | @shut shutting _ _ hnext =>
      rw [Board.closed?_shut] at hafter
      by_cases hchip : chip = shutting
      · rw [hchip]
        exact hnext
      · rw [if_neg hchip] at hafter
        exact absurd hafter hbefore

theorem held (h : Effect before guard? next touch after) (i : Nat)
    (hheld : ∀ j line, history.Keeps j line → before.slot line ≠ .free) :
    ∀ j line, (history.record i touch).Keeps j line → after.slot line ≠ .free := by
  intro j line hkeeps
  cases h with
  | quiet | shut => exact hheld j line hkeeps
  | @attached other _ _ _ _ hslot _ =>
      rw [Board.slot_withSlot]
      split
      · exact hslot
      · next hne =>
        rcases History.Keeps.of_attached hkeeps with ⟨-, heq⟩ | hkeeps
        · exact absurd heq.symm hne
        · exact hheld j line hkeeps
  | @freed other =>
      obtain ⟨hne, hkeeps⟩ := History.Keeps.of_freed hkeeps
      rw [Board.slot_withSlot, if_neg hne.symm]
      exact hheld j line hkeeps

/-- A line that is attached was free, so nobody kept it. -/
theorem keeper (h : Effect before guard? next touch after) (i : Nat)
    (hheld : ∀ j line, history.Keeps j line → before.slot line ≠ .free)
    (hkeeper : ∀ a b line, history.Keeps a line → history.Keeps b line → a = b) :
    ∀ a b line, (history.record i touch).Keeps a line → (history.record i touch).Keeps b line →
      a = b := by
  intro a b line ha hb
  cases h with
  | quiet | shut => exact hkeeper a b line ha hb
  | @attached other _ _ hfree _ _ _ =>
      rcases History.Keeps.of_attached ha with ⟨rfl, rfl⟩ | ha <;>
        rcases History.Keeps.of_attached hb with ⟨rfl, heq⟩ | hb
      · rfl
      · exact absurd hfree (hheld b _ hb)
      · exact absurd hfree (heq ▸ hheld a line ha)
      · exact hkeeper a b line ha hb
  | freed =>
      exact hkeeper a b line (History.Keeps.of_freed ha).2 (History.Keeps.of_freed hb).2

end Effect

variable {σ : Type}

/-! ### Crews -/

namespace Crew

structure Sound (crew : Crew σ) : Prop where
  exclusive : ∀ (i j : Nat) (a b : Thread) (chip : ChipId), crew.threads[i]? = some a →
    crew.threads[j]? = some b → a.guard? = some chip → b.guard? = some chip → i = j
  threads : ∀ (i : Nat) (thread : Thread), crew.threads[i]? = some thread →
    thread.Sound crew.world.board (crew.history.takenBy i)
  cleared : ∀ chip, crew.world.board.closed? chip = some true → crew.world.board.Cleared chip ∨
    ∃ (i : Nat) (thread : Thread), crew.threads[i]? = some thread ∧ thread.Clears chip
  held : ∀ i line, crew.history.Keeps i line → crew.world.board.slot line ≠ .free
  keeper : ∀ i j line, crew.history.Keeps i line → crew.history.Keeps j line → i = j

theorem getElem?_start {world : World σ} {jobs : List Job} {i : Nat} {thread : Thread}
    (h : (start world jobs).threads[i]? = some thread) : ∃ job ∈ jobs, job.thread = thread := by
  rw [start, List.getElem?_map] at h
  obtain ⟨job, hjob, heq⟩ := Option.map_eq_some_iff.mp h
  exact ⟨job, List.mem_of_getElem? hjob, heq⟩

theorem guard?_thread (job : Job) : job.thread.guard? = none := by
  cases job <;> rfl

theorem sound_start {world : World σ} {jobs : List Job} (hidle : world.ledger.Idle)
    (hgroups : ∀ job ∈ jobs, ∀ group ∈ job.groups, group.WellFormed) :
    (start world jobs).Sound where
  exclusive := by
    intro i j a b chip ha _ hguard
    obtain ⟨job, -, rfl⟩ := getElem?_start ha
    rw [guard?_thread] at hguard
    cases hguard
  threads := by
    intro i thread hthread
    obtain ⟨job, hjob, rfl⟩ := getElem?_start hthread
    cases job with
    | request demand => exact ⟨hgroups _ hjob demand.group (List.mem_singleton_self _), rfl⟩
    | release group => exact ⟨hgroups _ hjob group (List.mem_singleton_self _), trivial⟩
    | close chip => trivial
  cleared := by
    intro chip hclosed
    refine Or.inl ⟨?_, fun line hline => hidle line (hline ▸ hclosed)⟩
    rw [show (start world jobs).world.board.closed? chip = some true from hclosed]
    nofun
  held := nofun
  keeper := nofun

/-- The chip of a guard that is taken is open as long as one of its lines is held, unless it is the
holder of the guard who is closing it. -/
theorem Sound.isOpen {crew : Crew σ} (h : crew.Sound) {i : Nat} {thread : Thread} {line : Line}
    (hthread : crew.threads[i]? = some thread) (hguard : thread.guard? = some line.chip)
    (hclears : ¬ thread.Clears line.chip) (hheld : crew.world.board.slot line ≠ .free) :
    crew.world.board.closed? line.chip = some false := by
  cases hclosed : crew.world.board.closed? line.chip with
  | none => exact absurd ((World.cleared_of_none hclosed).free line rfl) hheld
  | some closed =>
      cases closed with
      | false => rfl
      | true =>
          rcases h.cleared line.chip hclosed with hcleared | ⟨j, other, hother, hclearing⟩
          · exact absurd (hcleared.free line rfl) hheld
          · obtain rfl := h.exclusive i j thread other line.chip hthread hother hguard
              hclearing.guard?
            obtain rfl := Option.mem_unique hthread hother
            exact absurd hclearing hclears

theorem guard?_of_not_blocks {crew : Crew σ} {thread other : Thread} {chip : ChipId} {i : Nat}
    (h : crew.blocks thread = false) (hawaits : thread.awaits? = some chip)
    (hother : crew.threads[i]? = some other) : other.guard? ≠ some chip := by
  intro hguard
  rw [blocks, hawaits, Option.any_some, List.any_eq_false] at h
  exact h other (List.mem_of_getElem? hother) (beq_iff_eq.mpr hguard)

end Crew

theorem Thread.job_thread (job : Job) : job.thread.job = job := by
  cases job <;> rfl

/-! ### Guards -/

variable [Machine σ] {world : World σ}

/-- A request takes the guard when it has waited, and keeps it until it is finished. -/
theorem Demand.isInside_step {demand : Demand} {shared : HandleId → Bool} {stage : Requesting}
    (h : (demand.step shared world stage).1.isInside = true) :
    stage.isInside = true ∨ stage = .waiting := by
  cases stage with
  | start =>
      simp only [step] at h
      split at h <;> cases h
  | waiting => exact Or.inr rfl
  | finished outcome => cases h
  | entered | scanning | asking | acquiring | attaching | undoing | refreshing => exact Or.inl rfl

theorem Group.isInside_releaseStep {group : Group} {shared : HandleId → Bool} {stage : Releasing}
    (h : (group.releaseStep shared world stage).1.isInside = true) :
    stage.isInside = true ∨ stage = .waiting := by
  cases stage with
  | start =>
      simp only [releaseStep] at h
      split at h <;> cases h
  | waiting => exact Or.inr rfl
  | detaching guarded held rest => cases rest <;> exact Or.inl h
  | dropping guarded count held =>
      cases held with
      | nil =>
          simp only [releaseStep] at h
          split at h
          · cases h
          · cases guarded with
            | false => cases h
            | true => exact Or.inl rfl
      | cons id rest => exact Or.inl h
  | refreshing rest => exact Or.inl rfl
  | finished => cases h

theorem World.isInside_closeStep {chip : ChipId} {shared : HandleId → Bool} {stage : Closing}
    (h : (world.closeStep chip shared stage).1.isInside = true) :
    stage.isInside = true ∨ stage = .waiting := by
  cases stage with
  | waiting => exact Or.inr rfl
  | finished => cases h
  | entered | marked | invalidating | discarding => exact Or.inl rfl

theorem Thread.guard?_step {thread : Thread} {shared : HandleId → Bool} {chip : ChipId}
    (h : (thread.step shared world).1.guard? = some chip) :
    thread.guard? = some chip ∨ thread.awaits? = some chip := by
  cases thread with
  | request demand stage =>
      simp only [step, guard?] at h
      split at h
      · next hinside =>
        rcases Demand.isInside_step hinside with hbefore | rfl
        · exact Or.inl ((if_pos hbefore).trans h)
        · exact Or.inr h
      · cases h
  | release group stage =>
      simp only [step, guard?] at h
      split at h
      · next hinside =>
        rcases Group.isInside_releaseStep hinside with hbefore | rfl
        · exact Or.inl ((if_pos hbefore).trans h)
        · exact Or.inr h
      · cases h
  | close other stage =>
      simp only [step, guard?] at h
      split at h
      · next hinside =>
        rcases World.isInside_closeStep hinside with hbefore | rfl
        · exact Or.inl ((if_pos hbefore).trans h)
        · exact Or.inr h
      · cases h

theorem Thread.job_step (thread : Thread) (shared : HandleId → Bool) (world : World σ) :
    (thread.step shared world).1.job = thread.job := by
  cases thread <;> rfl

theorem Thread.Clears.step {thread : Thread} {shared : HandleId → Bool} {chip : ChipId}
    (h : thread.Clears chip) :
    (thread.step shared world).1.Clears chip ∨
      (thread.step shared world).1 = .close chip .finished := by
  unfold Clears at h
  split at h
  · exact Or.inl h
  · next other name rest =>
    subst h
    cases rest with
    | nil => exact Or.inr rfl
    | cons line rest =>
        apply Or.inl
        simp only [Thread.step, World.closeStep]
        cases (world.detach line).1 <;> rfl
  · exact Or.inl h
  · exact h.elim

/-! ### Steps -/

namespace Crew

/-- What a scheduled thread does: nothing, or its next step. -/
theorem advance_cases (crew : Crew σ) (i : Nat) :
    crew.advance i = crew ∨ ∃ thread, crew.threads[i]? = some thread ∧ crew.blocks thread = false ∧
      crew.advance i = crew.moved i (thread.step (crew.shares i) crew.world).1
        (thread.step (crew.shares i) crew.world).2.1
        (thread.step (crew.shares i) crew.world).2.2 := by
  unfold advance
  split
  · exact Or.inl rfl
  · next thread hthread =>
    split
    · exact Or.inl rfl
    · next hblocks =>
      exact Or.inr ⟨thread, hthread, Bool.eq_false_of_not_eq_true hblocks, rfl⟩

theorem Sound.conduct {crew : Crew σ} (h : crew.Sound) {i : Nat} {thread : Thread}
    (hthread : crew.threads[i]? = some thread) (shared : HandleId → Bool) :
    Effect crew.world.board thread.guard? (thread.step shared crew.world).1
        (thread.step shared crew.world).2.2 (thread.step shared crew.world).2.1.board ∧
      (thread.step shared crew.world).1.Sound (thread.step shared crew.world).2.1.board
        (crew.history.takenBy i ++ Touch.takes (thread.step shared crew.world).2.2) := by
  refine Thread.conduct (h.threads i thread hthread) ?_ shared
  rintro chip rfl hclosed
  -- nobody else can be clearing the chip, for the guard is here
  rcases h.cleared chip hclosed with hcleared | ⟨j, other, hother, hclears⟩
  · exact hcleared
  · obtain rfl := h.exclusive i j _ other chip hthread hother rfl hclears.guard?
    obtain rfl := Option.mem_unique hthread hother
    exact hclears.elim

theorem Sound.advance {crew : Crew σ} (h : crew.Sound) (i : Nat) : (crew.advance i).Sound := by
  rcases crew.advance_cases i with heq | ⟨thread, hthread, hblocks, heq⟩
  · rw [heq]
    exact h
  rw [heq]
  obtain ⟨heffect, hsound⟩ := h.conduct hthread (crew.shares i)
  have hguards := fun chip => @Thread.guard?_step σ _ crew.world thread (crew.shares i) chip
  have hclears := fun chip => @Thread.Clears.step σ _ crew.world thread (crew.shares i) chip
  generalize thread.step (crew.shares i) crew.world = result at heffect hsound hguards hclears ⊢
  obtain ⟨next, after, touch⟩ := result
  -- nobody else has the guard of the thread, neither before the step nor after it
  have helse : ∀ (j : Nat) (other : Thread) (chip : ChipId), i ≠ j →
      crew.threads[j]? = some other → next.guard? = some chip ∨ thread.guard? = some chip →
        other.guard? ≠ some chip := by
    intro j other chip hne hother hguard hsame
    have hbefore : thread.guard? = some chip → False := fun hold =>
      hne (h.exclusive i j thread other chip hthread hother hold hsame)
    rcases hguard with hguard | hguard
    · rcases hguards chip hguard with hold | hawaits
      · exact hbefore hold
      · exact guard?_of_not_blocks hblocks hawaits hother hsame
    · exact hbefore hguard
  refine ⟨?_, ?_, ?_, ?_, ?_⟩
  · intro j k a b chip ha hb hguardA hguardB
    rcases moved_cases hthread ha with ⟨rfl, rfl⟩ | ⟨hj, ha⟩ <;>
      rcases moved_cases hthread hb with ⟨rfl, rfl⟩ | ⟨hk, hb⟩
    · rfl
    · exact absurd hguardB (helse k b chip hk hb (Or.inl hguardA))
    · exact absurd hguardA (helse j a chip hj ha (Or.inl hguardB))
    · exact h.exclusive j k a b chip ha hb hguardA hguardB
  · intro j other hother
    rw [moved, History.takenBy_record]
    rcases moved_cases hthread hother with ⟨rfl, rfl⟩ | ⟨hj, hother⟩
    · rw [if_pos rfl]
      exact hsound
    · rw [if_neg hj, List.append_nil]
      exact (h.threads j other hother).stable heffect fun chip hguard =>
        helse j other chip hj hother (Or.inr hguard)
  · intro chip hclosed
    by_cases hbefore : crew.world.board.closed? chip = some true
    · rcases h.cleared chip hbefore with hcleared | ⟨j, other, hother, hclearing⟩
      · exact Or.inl (heffect.cleared hcleared)
      · by_cases hij : i = j
        · subst hij
          obtain rfl := Option.mem_unique hthread hother
          rcases hclears chip hclearing with hstill | hfinished
          · exact Or.inr ⟨i, next, moved_self hthread, hstill⟩
          · rw [hfinished] at hsound
            exact Or.inl hsound
        · exact Or.inr ⟨j, other, (moved_ne hij).trans hother, hclearing⟩
    · exact Or.inr ⟨i, next, moved_self hthread, heffect.clears hbefore hclosed⟩
  · exact heffect.held i h.held
  · exact heffect.keeper i h.held h.keeper

/-! ### Runs -/

/-- Some thread goes on, or something happens elsewhere that touches neither lines nor chips, and the
machine changes as far as `env` lets it. -/
inductive Step (env : σ → σ → Prop) (crew : Crew σ) : Crew σ → Prop
  | advance (i : Nat) : Step env crew (crew.advance i)
  | elsewhere {world : World σ} (same : world.board = crew.world.board)
      (change : env crew.world.machine world.machine) : Step env crew { crew with world }

abbrev Run (env : σ → σ → Prop) (before after : Crew σ) : Prop :=
  Relation.ReflTransGen (Step env) before after

theorem Step.sound {env : σ → σ → Prop} {before after : Crew σ} (hstep : Step env before after)
    (h : before.Sound) : after.Sound := by
  cases hstep with
  | advance i => exact h.advance i
  | elsewhere same =>
      refine ⟨h.exclusive, ?_, ?_, ?_, h.keeper⟩
      · rw [same]
        exact h.threads
      · rw [same]
        exact h.cleared
      · rw [same]
        exact h.held

/-- **Every run of a crew is sound.** -/
theorem Run.sound {env : σ → σ → Prop} {before after : Crew σ} (hrun : Run env before after)
    (h : before.Sound) : after.Sound := by
  induction hrun with
  | refl => exact h
  | tail _ hstep ih => exact hstep.sound ih

theorem jobs_advance (crew : Crew σ) (i : Nat) :
    (crew.advance i).threads.map Thread.job = crew.threads.map Thread.job := by
  rcases crew.advance_cases i with heq | ⟨thread, hthread, -, heq⟩
  · rw [heq]
  rw [heq]
  apply List.ext_getElem?
  intro j
  rw [List.getElem?_map, List.getElem?_map]
  by_cases hij : i = j
  · subst hij
    rw [moved_self hthread, hthread, Option.map_some, Option.map_some, thread.job_step]
  · rw [moved_ne hij]

theorem jobs_of_run {env : σ → σ → Prop} {world : World σ} {jobs : List Job} {crew : Crew σ}
    (hrun : Run env (start world jobs) crew) : crew.threads.map Thread.job = jobs := by
  induction hrun with
  | refl =>
      have hjob : Thread.job ∘ Job.thread = id := by
        funext job
        exact Thread.job_thread job
      rw [start, List.map_map, hjob, List.map_id]
  | tail _ hstep ih =>
      cases hstep with
      | advance i => exact (jobs_advance _ i).trans ih
      | elsewhere => exact ih

end Crew

end GpioLines
