import GpioLines.Proofs.Bystanders
import GpioLines.Proofs.Completion

/-!
# Ownership among threads

However threads are scheduled, requests, releases and closings leave the lines in order: nothing is
attached to a line that is held, what one request has is not another's, a request that comes too late
is told so, and a chip that is closed stays without held lines. If several threads request one free
line, one of them gets it.
-/

namespace GpioLines

variable {σ : Type}

/-! ### Requests that come too late -/

/-- The request has found a member held, or will find one. -/
def Requesting.Beaten (group : Group) (board : Board) : Requesting → Prop
  | .entered => ∃ line ∈ group.lines, board.slot line ≠ .free
  | .scanning _ _ rest => ∃ line ∈ rest, board.slot line ≠ .free
  | .finished outcome => ∃ line ∈ group.lines, outcome = .error (.busy line.offset)
  | _ => False

/-- What holds of the lines that beat the request goes on to hold if their slots stay. -/
theorem Requesting.Beaten.of_slot_eq {group : Group} {before after : Board} {taken : List Line}
    {stage : Requesting} (h : stage.Beaten group before) (hsound : stage.Sound group before taken)
    (hslot : stage.isInside = true → ∀ line ∈ group.lines, before.slot line ≠ .free →
      after.slot line = before.slot line) : stage.Beaten group after := by
  cases stage with
  | entered =>
      obtain ⟨line, hline, hheld⟩ := h
      refine ⟨line, hline, ?_⟩
      rw [hslot rfl line hline hheld]
      exact hheld
  | scanning device earlier rest =>
      obtain ⟨line, hline, hheld⟩ := h
      obtain ⟨-, -, hsplit, -, -⟩ := hsound
      refine ⟨line, hline, ?_⟩
      rw [hslot rfl line (hsplit ▸ List.mem_append_right earlier hline) hheld]
      exact hheld
  | finished outcome => exact h
  | start | waiting | asking | acquiring | attaching | undoing | refreshing => exact h.elim

variable [Machine σ]

theorem Demand.beaten_step {world : World σ} {demand : Demand} {stage : Requesting}
    {taken : List Line} {shared : HandleId → Bool} (hgroup : demand.group.WellFormed)
    (hsound : stage.Sound demand.group world.board taken)
    (h : stage.Beaten demand.group world.board)
    (hopen : ∀ line ∈ demand.group.lines, stage.isInside = true → world.board.slot line ≠ .free →
      world.board.closed? line.chip = some false) :
    (demand.step shared world stage).1.Beaten demand.group
      (demand.step shared world stage).2.1.board := by
  cases stage with
  | entered =>
      obtain ⟨line, hline, hheld⟩ := h
      obtain ⟨chip, hchip⟩ := World.exists_chipOf hgroup hline (hopen line hline rfl hheld)
      simp only [step, hchip]
      exact ⟨line, hline, hheld⟩
  | scanning device before rest =>
      obtain ⟨-, -, hsplit, -, -⟩ := hsound
      obtain ⟨line, hline, hheld⟩ := h
      cases rest with
      | nil => cases hline
      | cons first rest =>
          simp only [step]
          split
          · exact ⟨first, hsplit ▸ List.mem_append_right before List.mem_cons_self, rfl⟩
          · next hcan =>
            simp only [Bool.or_eq_true, Bool.not_eq_true', not_or, Bool.not_eq_false,
              World.isFree_iff] at hcan
            rcases List.mem_cons.mp hline with rfl | hline
            · exact absurd hcan.1 hheld
            · exact ⟨line, hline, hheld⟩
  | finished outcome => exact h
  | start | waiting | asking | acquiring | attaching | undoing | refreshing => exact h.elim

namespace Crew

variable {env : σ → σ → Prop}

def Beats (crew : Crew σ) (i : Nat) (demand : Demand) : Prop :=
  ∃ stage, crew.threads[i]? = some (.request demand stage) ∧
    stage.Beaten demand.group crew.world.board

theorem Beats.advance {crew : Crew σ} {i : Nat} {demand : Demand} (h : crew.Beats i demand)
    (hsound : crew.Sound) (j : Nat) : (crew.advance j).Beats i demand := by
  obtain ⟨stage, hget, hbeaten⟩ := h
  obtain ⟨hgroup, hstage⟩ := hsound.threads i _ hget
  have hguard : ∀ line ∈ demand.group.lines, stage.isInside = true →
      (Thread.request demand stage).guard? = some line.chip := by
    intro line hline hinside
    rw [Thread.guard?, if_pos hinside, hgroup.chip?_eq hline]
  have hopen : ∀ line ∈ demand.group.lines, stage.isInside = true →
      crew.world.board.slot line ≠ .free → crew.world.board.closed? line.chip = some false :=
    fun line hline hinside hheld => hsound.isOpen hget (hguard line hline hinside) id hheld
  rcases crew.advance_cases j with heq | ⟨thread, hthread, -, heq⟩
  · rw [heq]
    exact ⟨stage, hget, hbeaten⟩
  rw [heq]
  by_cases hij : j = i
  · subst hij
    obtain rfl := Option.mem_unique hthread hget
    exact ⟨_, moved_self hthread, demand.beaten_step hgroup hstage hbeaten hopen⟩
  · refine ⟨stage, (moved_ne hij).trans hget, hbeaten.of_slot_eq hstage ?_⟩
    -- the guard is here, so no other thread can touch a line that is held
    intro hinside line hline hheld
    obtain ⟨heffect, -⟩ := hsound.conduct hthread (crew.shares j)
    refine heffect.slot_eq (hopen line hline hinside hheld) fun hother => hij ?_
    exact hsound.exclusive j i thread _ line.chip hthread hget hother (hguard line hline hinside)

theorem Beats.run {crew later : Crew σ} {i : Nat} {demand : Demand} (h : crew.Beats i demand)
    (hsound : crew.Sound) (hrun : Run env crew later) : later.Beats i demand := by
  induction hrun with
  | refl => exact h
  | tail hrun hstep ih =>
      cases hstep with
      | advance j => exact ih.advance (Run.sound hrun hsound) j
      | elsewhere hsame =>
          obtain ⟨stage, hget, hbeaten⟩ := ih
          exact ⟨stage, hget, hsame ▸ hbeaten⟩

/-! ### Schedules -/

theorem run_follow (crew : Crew σ) (schedule : List Nat) : Run env crew (crew.follow schedule) := by
  induction schedule generalizing crew with
  | nil => exact .refl
  | cons i rest ih => exact .head (.advance i) (ih (crew.advance i))

/-! ### Order -/

/-- The request has succeeded, and no line of its group was freed since. -/
def Owns (crew : Crew σ) (i : Nat) (group : Group) : Prop :=
  (∃ demand, crew.threads[i]? = some (.request demand (.finished (.ok ()))) ∧
    demand.group = group) ∧ ∀ line ∈ group.lines, crew.history.Keeps i line

/-- What holds at any moment of a run, whatever comes before it and after it. -/
structure Orderly (env : σ → σ → Prop) (crew : Crew σ) : Prop where
  attaches_free : ∀ (i : Nat) (demand : Demand) (line : Line) (id : HandleId)
    (pairs : List (Line × HandleId)),
    crew.threads[i]? = some (.request demand (.attaching ((line, id) :: pairs))) →
      crew.world.slot line = .free
  /-- A request that is finished has attached the lines of its group, or none. -/
  all_or_none : ∀ (i : Nat) (demand : Demand) (outcome : Except Error Unit),
    crew.threads[i]? = some (.request demand (.finished outcome)) →
      crew.history.takenBy i = if outcome.isOk then demand.group.lines else []
  kept : ∀ i line, crew.history.Keeps i line →
    crew.world.slot line ≠ .free ∧ ∀ j, crew.history.Keeps j line → j = i
  disjoint : ∀ i j a b, i ≠ j → crew.Owns i a → crew.Owns j b → a.lines.Disjoint b.lines
  /-- A request that gets the guard while a member is held fails as busy and attaches nothing. -/
  beaten : ∀ (i : Nat) (demand : Demand), crew.threads[i]? = some (.request demand .entered) →
    (∃ line ∈ demand.group.lines, crew.world.slot line ≠ .free) →
    ∀ (later : Crew σ) (outcome : Except Error Unit), Run env crew later →
      later.threads[i]? = some (.request demand (.finished outcome)) →
      (∃ line ∈ demand.group.lines, outcome = .error (.busy line.offset)) ∧
        later.history.takenBy i = []
  /-- Once a chip was closed its lines are free for good. -/
  closed : ∀ (i : Nat) (chip : ChipId), crew.threads[i]? = some (.close chip .finished) →
    ∀ later : Crew σ, Run env crew later → ∀ line : Line, line.chip = chip →
      later.world.slot line = .free
  completes : ∃ later : Crew σ, Run env crew later ∧ later.isDone = true

theorem finished_of_run {crew later : Crew σ} {i : Nat} {chip : ChipId}
    (h : crew.threads[i]? = some (.close chip .finished)) (hrun : Run env crew later) :
    later.threads[i]? = some (.close chip .finished) := by
  induction hrun with
  | refl => exact h
  | @tail before _ _ hstep ih =>
      cases hstep with
      | elsewhere => exact ih
      | advance j =>
          rcases before.advance_cases j with heq | ⟨thread, hthread, -, heq⟩
          · rw [heq]
            exact ih
          rw [heq]
          by_cases hij : j = i
          · subst hij
            obtain rfl := Option.mem_unique hthread ih
            exact moved_self hthread
          · exact (moved_ne hij).trans ih

theorem Sound.orderly {crew : Crew σ} (h : crew.Sound) : crew.Orderly env where
  attaches_free := by
    intro i demand line id pairs hget
    obtain ⟨-, -, -, -, hfree⟩ := h.threads i _ hget
    exact hfree line List.mem_cons_self
  all_or_none := by
    intro i demand outcome hget
    obtain ⟨-, htaken⟩ := h.threads i _ hget
    cases outcome <;> exact htaken
  kept := fun i line hkeeps => ⟨h.held i line hkeeps, fun j hother => h.keeper j i line hother hkeeps⟩
  disjoint := by
    intro i j a b hne ha hb line hlineA hlineB
    exact hne (h.keeper i j line (ha.2 line hlineA) (hb.2 line hlineB))
  beaten := by
    intro i demand hget hheld later outcome hrun hfinished
    have hbeats : crew.Beats i demand := ⟨.entered, hget, hheld⟩
    obtain ⟨stage, hlater, hbeaten⟩ := hbeats.run h hrun
    obtain ⟨-, rfl⟩ := Thread.request.inj (Option.mem_unique hlater hfinished)
    obtain ⟨line, hline, rfl⟩ := hbeaten
    obtain ⟨-, htaken⟩ := (Run.sound hrun h).threads i _ hlater
    exact ⟨⟨line, hline, rfl⟩, htaken⟩
  closed := by
    intro i chip hget later hrun
    have hcleared : later.world.board.Cleared chip :=
      (Run.sound hrun h).threads i _ (finished_of_run hget hrun)
    exact hcleared.free
  completes := by
    obtain ⟨schedule, hdone⟩ := crew.exists_done
    exact ⟨crew.follow schedule, run_follow crew schedule, hdone⟩

/-- **Threads do not get into each other's way.** A client has threads that request and release its
groups and close chips. At every moment of every interleaving the lines are in order, and if several
of the threads request one free line, exactly one of them gets it in the end. -/
theorem orderly_of_run {machineEnv : σ → σ → Prop} {client : Client σ}
    (hreachable : client.Reachable machineEnv) {jobs : List Job}
    (hgroups : ∀ job ∈ jobs, ∀ group ∈ job.groups, group ∈ client.groups) {crew : Crew σ}
    (hrun : Run env (start client.world jobs) crew) :
    crew.Orderly env ∧ ∀ (willing : σ → Prop) (line : Line),
      Contest env willing line client.world jobs → crew.isDone = true → crew.Decided line := by
  have hsound := hreachable.sound
  have hstart : (start client.world jobs).Sound :=
    sound_start hsound.idle fun job hjob group hgroup =>
      hsound.groups group (hgroups job hjob group hgroup)
  exact ⟨(Run.sound hrun hstart).orderly, fun willing line hcontest hdone =>
    decided_of_run hcontest hstart hrun hdone⟩

/-- A client with two lines of a simulated chip. -/
def racing : Client Bench :=
  (Client.start { simulators := [.create "gpiochip0" 4] }).callAll
    [.openChip (.simulator 0), .getLine 0 1, .getLine 0 2]

/-- Two threads request a line, one for its value and one for its events. A third requests the other
line as an output. -/
def race : List Job :=
  [.request ⟨⟨[⟨0, 1⟩]⟩, { consumer := "value", type := .input }, some [0]⟩,
    .request ⟨⟨[⟨0, 1⟩]⟩, { consumer := "events", type := .eventBoth }, none⟩,
    .request ⟨⟨[⟨0, 2⟩]⟩, { consumer := "other", type := .output }, some [1]⟩]

/-- Somebody sets a level of a simulated chip. -/
def Relevelled (before after : Bench) : Prop :=
  ∃ index offset level, after = (before.setLevel index offset level).2

theorem spare_racing : racing.world.machine.Spare 0 1 where
  exclusive := by
    have hbeside : Bench.Beside (fun _ _ => False) {} racing.world.machine :=
      Bench.beside_addSimulator {} "gpiochip0" 4
    exact hbeside.exclusive Workshop.accord_start.bench
  vacant := ⟨{}, rfl, rfl⟩

theorem contest_race (hsound : (start racing.world race).Sound) :
    Contest Relevelled (Bench.Spare 0 1) ⟨0, 1⟩ racing.world race := by
  refine contest_of_spare hsound rfl rfl (by decide) spare_racing
    ⟨_, List.mem_cons_self, rfl⟩ ?_ ?_ ?_
  · intro demand hjob hlines
    simp only [race, List.mem_cons, List.not_mem_nil, or_false, Job.request.injEq] at hjob
    rcases hjob with rfl | rfl | rfl
    · exact ⟨rfl, rfl⟩
    · exact ⟨rfl, rfl⟩
    · cases hlines
  · intro job hjob hnot
    simp only [race, List.mem_cons, List.not_mem_nil, or_false] at hjob
    rcases hjob with rfl | rfl | rfl
    · exact absurd rfl hnot
    · exact absurd rfl hnot
    · exact ⟨by simp [Job.Covers], by decide⟩
  · rintro before after ⟨index, offset, level, rfl⟩ hspare
    exact hspare.setLevel index offset level

/-- The crew of the race when the third thread has its line granted, and somebody sets the level of
the contested line. -/
def midway : Crew Bench :=
  let crew := (start racing.world race).follow [2, 0, 2, 1, 2, 2, 2, 2]
  { crew with world := { crew.world with machine := (crew.world.machine.setLevel 0 1 1).2 } }

/-- The same crew when all are done. The first thread finds the line held. -/
def settled : Crew Bench :=
  midway.follow [2, 2, 2, 2, 1, 0, 1, 1, 1, 1, 1, 1, 1, 1, 1, 0, 0, 0]

theorem decided_race :
    ∃ crew : Crew Bench, Run Relevelled (start racing.world race) crew ∧
      crew.isDone = true ∧ crew.Orderly Relevelled ∧ crew.Decided ⟨0, 1⟩ := by
  have hreachable : racing.Reachable fun _ _ => False := ⟨_, Client.run_callAll (by decide)⟩
  have hgroups : ∀ job ∈ race, ∀ group ∈ job.groups, group ∈ racing.groups := by decide
  have hsound : (start racing.world race).Sound :=
    sound_start hreachable.sound.idle fun job hjob group hgroup =>
      hreachable.sound.groups group (hgroups job hjob group hgroup)
  have hmidway : Run Relevelled (start racing.world race) midway :=
    (run_follow _ _).tail (.elsewhere rfl ⟨0, 1, 1, rfl⟩)
  have hrun : Run Relevelled (start racing.world race) settled := hmidway.trans (run_follow midway _)
  have hdone : settled.isDone = true := by decide
  obtain ⟨horderly, hdecided⟩ := orderly_of_run hreachable hgroups hrun
  exact ⟨settled, hrun, hdone, horderly, hdecided _ _ (contest_race hsound) hdone⟩

end Crew

end GpioLines
