import GpioLines.Proofs.Contention

/-!
# Contests for one line

Several threads request the same line, and nobody else touches it. As long as the line is free, no
request has got as far as attaching it, so its device still grants whatever is asked first. The thread
that asks first has the guard until it has attached the line, and whoever looks at the line after that
finds it held.
-/

namespace GpioLines

variable {σ : Type}

/-! ### What is settled -/

def Requesting.isLanded : Requesting → Bool
  | .attaching [] | .refreshing _ | .finished (.ok _) => true
  | _ => false

/-- The device has granted the line, and it is not attached yet. -/
def Requesting.isGranted : Requesting → Bool
  | .attaching (_ :: _) | .acquiring _ (_ :: _) _ => true
  | _ => false

theorem Requesting.isInside_of_isGranted {stage : Requesting} (h : stage.isGranted = true) :
    stage.isInside = true := by
  cases stage with
  | acquiring | attaching => rfl
  | start | waiting | entered | scanning | asking | undoing | refreshing | finished => cases h

/-- The request was not refused by a device, and if it failed the line was taken. -/
def Requesting.InContest (demand : Demand) (line : Line) (taken : Prop) : Requesting → Prop
  | .asking _ => demand.config.type.isEvent = false
  | .acquiring .. => demand.config.type.isEvent = true
  | .undoing .. => False
  | .finished (.error error) => error = .busy line.offset ∧ taken
  | _ => True

theorem Requesting.InContest.mono {demand : Demand} {line : Line} {before after : Prop}
    {stage : Requesting} (h : stage.InContest demand line before) (hmono : before → after) :
    stage.InContest demand line after := by
  cases stage with
  | finished outcome =>
      cases outcome with
      | error error => exact h.imp_right hmono
      | ok => trivial
  | asking | acquiring | undoing => exact h
  | start | waiting | entered | scanning | attaching | refreshing => trivial

theorem Thread.Clears.job_eq {chip : ChipId} {thread : Thread} (h : thread.Clears chip) :
    thread.job = .close chip := by
  unfold Clears at h
  split at h
  · exact congrArg Job.close h
  · exact congrArg Job.close h
  · exact congrArg Job.close h
  · exact h.elim

namespace Effect

variable {before after : Board} {guard? : Option ChipId} {next : Thread} {touch : Option Touch}

theorem isOpen_of_job (h : Effect before guard? next touch after) {chip : ChipId}
    (hopen : before.closed? chip = some false) (hjob : next.job ≠ .close chip) :
    after.closed? chip = some false := by
  cases h with
  | quiet | attached | freed => exact hopen
  | @shut shutting _ _ hclears =>
      have hne : chip ≠ shutting := by
        rintro rfl
        exact hjob hclears.job_eq
      rw [Board.closed?_shut, if_neg hne]
      exact hopen

theorem slot_of_not_covers (h : Effect before guard? next touch after) {line : Line}
    (hcovers : ¬ next.job.Covers line) : after.slot line = before.slot line := by
  cases h with
  | quiet | shut => rfl
  | @attached other _ _ _ _ _ hother =>
      have hne : line ≠ other := fun heq => hcovers (heq ▸ hother)
      rw [Board.slot_withSlot, if_neg hne]
  | @freed other _ hother =>
      have hne : line ≠ other := fun heq => hcovers (heq ▸ hother)
      rw [Board.slot_withSlot, if_neg hne]

end Effect

/-! ### Requests that are in order -/

theorem World.exists_chipOf {world : World σ} {group : Group} (hgroup : group.WellFormed)
    {line : Line} (hline : line ∈ group.lines) (hopen : world.board.closed? line.chip = some false) :
    ∃ chip, world.chipOf group = .ok chip := by
  obtain ⟨chip, hchip⟩ := closed?_eq_false.mp hopen
  have honchip : world.OnChip group chip line.chip :=
    ⟨hchip, List.ne_nil_of_mem hline, fun other hother => hgroup.same_chip other hother line hline⟩
  exact ⟨chip, honchip.chipOf⟩

/-- What was in order once is in order as long as the chip is open. -/
theorem World.checkRequest_of_isOpen {before world : World σ} {group : Group} {config : RequestConfig}
    {defaults : Option (List UInt8)} (h : before.checkRequest group config defaults = .ok ())
    (hgroup : group.WellFormed) {line : Line} (hline : line ∈ group.lines)
    (hopen : world.board.closed? line.chip = some false) :
    world.checkRequest group config defaults = .ok () := by
  obtain ⟨chip, hchip⟩ := exists_chipOf hgroup hline hopen
  rw [checkRequest, bind_eq_ok] at h ⊢
  obtain ⟨-, -, h⟩ := h
  exact ⟨chip, hchip, h⟩

/-! ### Steps of a contender -/

variable {world : World σ}

/-- What a step of a contender comes to: it goes on while the line stays as it is, or it takes it. -/
structure Requesting.Contends (demand : Demand) (line : Line) (before : World σ)
    (stage next : Requesting) (after : World σ) : Prop where
  inContest : next.InContest demand line (after.board.slot line ≠ .free)
  outcome : after.board.slot line = before.board.slot line ∧ next.isLanded = stage.isLanded ∧
      (next.isLanded = false → next.isGranted = false →
        stage.isGranted = false ∧ after.machine = before.machine) ∨
    stage.isLanded = false ∧ next.isLanded = true ∧ before.board.slot line = .free ∧
      after.board.slot line ≠ .free

namespace Requesting.Contends

variable {demand : Demand} {line : Line} {stage next : Requesting} {after : World σ}

/-- A step to a stage where nothing is granted yet. -/
theorem wait (hinContest : next.InContest demand line (world.board.slot line ≠ .free))
    (hlanded : next.isLanded = stage.isLanded) (hgranted : stage.isGranted = false) :
    Requesting.Contends demand line world stage next world :=
  ⟨hinContest, Or.inl ⟨rfl, hlanded, fun _ _ => ⟨hgranted, rfl⟩⟩⟩

/-- A step that gets or keeps a grant, or that follows the attaching of the line. -/
theorem progress (hboard : after.board = world.board)
    (hinContest : ∀ taken, next.InContest demand line taken)
    (hlanded : next.isLanded = stage.isLanded)
    (hpast : next.isLanded = true ∨ next.isGranted = true) :
    Requesting.Contends demand line world stage next after := by
  refine ⟨hinContest _, Or.inl ⟨by rw [hboard], hlanded, fun hnot hnone => ?_⟩⟩
  rw [hnot, hnone] at hpast
  exact hpast.elim nofun nofun

end Requesting.Contends

section

variable [Machine σ]

def Demand.Granted (demand : Demand) (device : Device) (line : Line) (machine : σ) : Prop :=
  if demand.config.type.isEvent then
    ∃ file, (Machine.perform device (.requestEvent (World.eventRequest demand.config line))
      machine).1 = .ok file
  else
    ∃ file, (Machine.perform device (.requestLines
      (World.linesRequest demand.group demand.config demand.defaults)) machine).1 = .ok file

theorem World.perform_granted {device : Device} {call : Call}
    {reply : call.Reply} (h : (Machine.perform device call world.machine).1 = .ok reply) :
    ∃ after, world.perform device call = (.ok reply, after) :=
  ⟨_, Prod.ext h rfl⟩

theorem Demand.contends {demand : Demand} {line : Line} {stage : Requesting} {taken : List Line}
    {shared : HandleId → Bool} (hlines : demand.group.lines = [line])
    (hgroup : demand.group.WellFormed) (hsound : stage.Sound demand.group world.board taken)
    (hinContest : stage.InContest demand line (world.board.slot line ≠ .free))
    (hopen : world.board.closed? line.chip = some false)
    (haccepted : world.checkRequest demand.group demand.config demand.defaults = .ok ())
    (hgranted : ∀ device, world.board.device? line.chip = some device → stage.isGranted = false →
      stage.isInside = true → world.board.slot line = .free →
      demand.Granted device line world.machine) :
    stage.Contends demand line world (demand.step shared world stage).1
      (demand.step shared world stage).2.1 := by
  have hline : line ∈ demand.group.lines := hlines ▸ List.mem_singleton_self line
  cases stage with
  | start =>
      simp only [step, haccepted]
      exact .wait trivial rfl rfl
  | waiting => exact .wait trivial rfl rfl
  | entered =>
      obtain ⟨chip, hchip⟩ := World.exists_chipOf hgroup hline hopen
      simp only [step, hchip]
      exact .wait trivial rfl rfl
  | scanning device before rest =>
      obtain ⟨-, -, hsplit, -, -⟩ := hsound
      cases rest with
      | nil =>
          refine .wait ?_ ?_ rfl
          · change Requesting.InContest _ _ _ (if demand.config.type.isEvent then _ else _)
            split
            · next hevent => exact hevent
            · next hvalues => exact Bool.eq_false_of_not_eq_true hvalues
          · change Requesting.isLanded (if demand.config.type.isEvent then _ else _) = false
            split <;> rfl
      | cons other rest =>
          rw [hlines] at hsplit
          obtain ⟨rfl, rfl, rfl⟩ : before = [] ∧ other = line ∧ rest = [] := by
            simpa [List.append_eq_singleton_iff] using hsplit
          simp only [step, List.contains_nil, Bool.or_false, Bool.not_eq_true',
            Bool.eq_false_iff, ne_eq, World.isFree_iff]
          split
          · next hheld =>
            exact ⟨⟨rfl, hheld⟩, Or.inl ⟨rfl, rfl, fun _ _ => ⟨rfl, rfl⟩⟩⟩
          · exact .wait trivial rfl rfl
  | asking device =>
      obtain ⟨-, hoffers⟩ := hsound
      have hgrant := hgranted device (hoffers.device line hline) rfl rfl (hoffers.free line hline)
      have hvalues : demand.config.type.isEvent = false := hinContest
      rw [Demand.Granted, if_neg (by rw [hvalues]; exact Bool.false_ne_true)] at hgrant
      obtain ⟨file, hfile⟩ := hgrant
      obtain ⟨after, hperform⟩ := World.perform_granted hfile
      simp only [step, hperform, hlines]
      exact .progress ((World.board_openHandle ..).trans (World.board_of_perform hperform))
        (fun _ => trivial) rfl (Or.inr rfl)
  | acquiring device granted rest =>
      obtain ⟨-, hoffers, done, hsplit, hlength⟩ := hsound
      have hevents : demand.config.type.isEvent = true := hinContest
      rw [hlines] at hsplit
      cases rest with
      | nil =>
          -- the line is granted, so its one handle is there
          rw [List.append_nil] at hsplit
          rw [hsplit, List.length_singleton] at hlength
          obtain ⟨id, rfl⟩ := List.length_eq_one_iff.mp hlength
          simp only [step, hlines]
          exact .progress rfl (fun _ => trivial) rfl (Or.inr rfl)
      | cons other rest =>
          obtain ⟨rfl, rfl, rfl⟩ : done = [] ∧ other = line ∧ rest = [] := by
            simpa [List.append_eq_singleton_iff] using hsplit
          obtain rfl := List.length_eq_zero_iff.mp hlength
          have hgrant :=
            hgranted device (hoffers.device other hline) rfl rfl (hoffers.free other hline)
          rw [Demand.Granted, if_pos hevents] at hgrant
          obtain ⟨file, hfile⟩ := hgrant
          obtain ⟨after, hperform⟩ := World.perform_granted hfile
          simp only [step, hperform]
          exact .progress ((World.board_openHandle ..).trans (World.board_of_perform hperform))
            (fun _ => hevents) rfl (Or.inr rfl)
  | attaching pairs =>
      obtain ⟨hsplit, -, -, hfree⟩ := hsound
      cases pairs with
      | nil => exact .progress (World.board_note ..) (fun _ => trivial) rfl (Or.inl rfl)
      | cons pair rest =>
          obtain ⟨other, id⟩ := pair
          rw [hlines, List.map_cons] at hsplit
          obtain ⟨rfl, rfl, hrest⟩ : taken = [] ∧ other = line ∧ rest.map (·.1) = [] := by
            simpa [List.append_eq_singleton_iff] using hsplit
          obtain rfl := List.map_eq_nil_iff.mp hrest
          have hheld : (world.attach other id demand.kind).board.slot other ≠ .free := by
            rw [World.board_attach hopen, Board.slot_withSlot, if_pos rfl]
            exact Slot.holding_ne_free id demand.kind
          exact ⟨trivial, Or.inr ⟨rfl, rfl, hfree other List.mem_cons_self, hheld⟩⟩
  | undoing granted error => exact hinContest.elim
  | refreshing rest =>
      cases rest with
      | nil => exact .progress rfl (fun _ => trivial) rfl (Or.inl rfl)
      | cons other rest => exact .progress (World.board_update ..) (fun _ => trivial) rfl (Or.inl rfl)
  | finished outcome =>
      cases outcome with
      | error error => exact .wait hinContest rfl rfl
      | ok => exact .progress rfl (fun _ => trivial) rfl (Or.inl rfl)

/-! ### Contests -/

def Job.Contends (line : Line) : Job → Prop
  | .request demand => demand.group.lines = [line]
  | _ => False

/-- Some jobs ask for one line, which is free. While `willing` holds it is free at its device as
well, so that the device grants what any of them asks, and nothing else that goes on takes that away. -/
structure Contest (env : σ → σ → Prop) (willing : σ → Prop) (line : Line) (world : World σ)
    (jobs : List Job) : Prop where
  entrant : ∃ job ∈ jobs, job.Contends line
  free : world.slot line = .free
  ready : willing world.machine
  accepted : ∀ demand, .request demand ∈ jobs → demand.group.lines = [line] →
    world.checkRequest demand.group demand.config demand.defaults = .ok ()
  granted : ∀ demand chip machine, .request demand ∈ jobs → demand.group.lines = [line] →
    world.openChip line.chip = .ok chip → willing machine → demand.Granted chip.device line machine
  bystander : ∀ job ∈ jobs, ¬ job.Contends line → ¬ job.Covers line
  undisturbed : ∀ (crew : Crew σ) (i : Nat) (thread : Thread),
    Crew.Run env (Crew.start world jobs) crew → crew.threads[i]? = some thread →
      ¬ thread.job.Contends line → willing crew.world.machine →
        willing (thread.step (crew.shares i) crew.world).2.1.machine
  elsewhere : ∀ before after, env before after → willing before → willing after

/-- The chip of the line is open, for the requests are in order. -/
theorem Contest.exists_openChip {env : σ → σ → Prop} {willing : σ → Prop} {line : Line}
    {jobs : List Job} (h : Contest env willing line world jobs) :
    ∃ chip, world.openChip line.chip = .ok chip := by
  obtain ⟨job, hjob, hcontends⟩ := h.entrant
  cases job with
  | release | close => exact hcontends.elim
  | request demand =>
      have haccepted := h.accepted demand hjob hcontends
      rw [World.checkRequest, bind_eq_ok] at haccepted
      obtain ⟨chip, hchip, -⟩ := haccepted
      have hline : line ∈ demand.group.lines := by
        rw [show demand.group.lines = [line] from hcontends]
        exact List.mem_singleton_self line
      exact World.closed?_eq_false.mp ((World.serves_of_chipOf hchip).isOpen line hline)

end

namespace Crew

/-- A thread asks for this line, and this is how far it has come. -/
def Enters (crew : Crew σ) (line : Line) (i : Nat) (demand : Demand) (stage : Requesting) : Prop :=
  crew.threads[i]? = some (.request demand stage) ∧ demand.group.lines = [line]

structure Contested (willing : σ → Prop) (line : Line) (device : Device) (crew : Crew σ) : Prop where
  isOpen : crew.world.board.closed? line.chip = some false
  device : crew.world.board.device? line.chip = some device
  inContest : ∀ i demand stage, crew.Enters line i demand stage →
    stage.InContest demand line (crew.world.board.slot line ≠ .free)
  taken : crew.world.board.slot line ≠ .free →
    ∃ i demand stage, crew.Enters line i demand stage ∧ stage.isLanded = true
  held : ∀ i demand stage, crew.Enters line i demand stage → stage.isLanded = true →
    crew.world.board.slot line ≠ .free
  unique : ∀ i j a b s t, crew.Enters line i a s → crew.Enters line j b t → s.isLanded = true →
    t.isLanded = true → i = j
  ready : crew.world.board.slot line = .free →
    (∀ i demand stage, crew.Enters line i demand stage → stage.isGranted = false) →
    willing crew.world.machine

variable {env : σ → σ → Prop} {willing : σ → Prop} {line : Line} {device : Device} {jobs : List Job}

/-- Whoever has a grant, and whoever is about to ask for one, has the guard. -/
theorem Enters.guard? {crew : Crew σ} (h : crew.Sound) {i : Nat} {demand : Demand}
    {stage : Requesting} (henters : crew.Enters line i demand stage) (hinside : stage.isInside = true) :
    (Thread.request demand stage).guard? = some line.chip := by
  have hgroup : demand.group.WellFormed := (h.threads i _ henters.1).1
  rw [Thread.guard?, if_pos hinside]
  exact hgroup.chip?_eq (henters.2 ▸ List.mem_singleton_self line)

/-- After a step of a contender it is the contender that enters, or a thread that entered before. -/
theorem Enters.moved_cases {crew : Crew σ} {i j : Nat} {demand other : Demand}
    {stage next later : Requesting} {after : World σ} {touch : Option Touch}
    (henters : crew.Enters line i demand stage)
    (h : (crew.moved i (.request demand next) after touch).Enters line j other later) :
    i = j ∧ demand = other ∧ next = later ∨ i ≠ j ∧ crew.Enters line j other later := by
  rcases Crew.moved_cases henters.1 h.1 with ⟨rfl, heq⟩ | ⟨hne, hget⟩
  · obtain ⟨rfl, rfl⟩ := Thread.request.inj heq
    exact Or.inl ⟨rfl, rfl, rfl⟩
  · exact Or.inr ⟨hne, hget, h.2⟩

theorem enters_moved {crew : Crew σ} {i : Nat} {thread next : Thread} {after : World σ}
    {touch : Option Touch} (hthread : crew.threads[i]? = some thread)
    (hjob : next.job = thread.job) (hcontends : ¬ thread.job.Contends line) {j : Nat}
    {demand : Demand} {stage : Requesting} :
    (crew.moved i next after touch).Enters line j demand stage ↔
      crew.Enters line j demand stage := by
  constructor
  · rintro ⟨hget, hlines⟩
    rcases Crew.moved_cases hthread hget with ⟨-, rfl⟩ | ⟨-, hget⟩
    · rw [← hjob] at hcontends
      exact absurd hlines hcontends
    · exact ⟨hget, hlines⟩
  · rintro ⟨hget, hlines⟩
    have hne : i ≠ j := by
      rintro rfl
      obtain rfl := Option.mem_unique hthread hget
      exact hcontends hlines
    exact ⟨(moved_ne hne).trans hget, hlines⟩

/-! ### The step of a contender -/

/-- The contender finds its device ready, for nobody else can have asked it. -/
theorem Contested.granted {crew : Crew σ} (h : Contested willing line device crew)
    (hsound : crew.Sound) {i : Nat} {demand : Demand} {stage : Requesting}
    (henters : crew.Enters line i demand stage) (hinside : stage.isInside = true)
    (hnone : stage.isGranted = false) (hfree : crew.world.board.slot line = .free) :
    willing crew.world.machine := by
  apply h.ready hfree
  intro j other next hother
  by_contra hgranted
  have hsame : i = j := by
    have hthere := Requesting.isInside_of_isGranted (Bool.eq_true_of_not_eq_false hgranted)
    exact hsound.exclusive i j _ _ line.chip henters.1 hother.1 (henters.guard? hsound hinside)
      (hother.guard? hsound hthere)
  subst hsame
  obtain ⟨-, rfl⟩ := Thread.request.inj (Option.mem_unique henters.1 hother.1)
  exact hgranted hnone

theorem Contested.contender {crew : Crew σ} (h : Contested willing line device crew) {i : Nat}
    {demand : Demand} {stage next : Requesting} {after : World σ} {touch : Option Touch}
    (henters : crew.Enters line i demand stage)
    (heffect : Effect crew.world.board (Thread.request demand stage).guard? (.request demand next)
      touch after.board)
    (hcontends : stage.Contends demand line crew.world next after) :
    Contested willing line device (crew.moved i (.request demand next) after touch) := by
  have hnext : (crew.moved i (.request demand next) after touch).Enters line i demand next :=
    ⟨moved_self henters.1, henters.2⟩
  have hmono : crew.world.board.slot line ≠ .free → after.board.slot line ≠ .free := by
    rcases hcontends.outcome with ⟨hslot, -, -⟩ | ⟨-, -, -, hheld⟩
    · rw [hslot]
      exact id
    · exact fun _ => hheld
  refine
    { isOpen := heffect.isOpen_of_job h.isOpen nofun
      device := ?_
      inContest := ?_
      taken := ?_
      held := ?_
      unique := ?_
      ready := ?_ }
  · exact (congrFun heffect.device line.chip).trans h.device
  · intro j other later hother
    rcases henters.moved_cases hother with ⟨rfl, rfl, rfl⟩ | ⟨-, hother⟩
    · exact hcontends.inContest
    · exact (h.inContest j other later hother).mono hmono
  · intro hheld
    rcases hcontends.outcome with ⟨hslot, hlanded, -⟩ | ⟨-, hlanded, -, -⟩
    · change after.board.slot line ≠ .free at hheld
      rw [hslot] at hheld
      obtain ⟨j, other, later, hother, hthere⟩ := h.taken hheld
      by_cases hij : i = j
      · subst hij
        obtain ⟨rfl, rfl⟩ := Thread.request.inj (Option.mem_unique henters.1 hother.1)
        exact ⟨i, demand, next, hnext, hlanded.trans hthere⟩
      · exact ⟨j, other, later, ⟨(moved_ne hij).trans hother.1, hother.2⟩, hthere⟩
    · exact ⟨i, demand, next, hnext, hlanded⟩
  · intro j other later hother hthere
    rcases henters.moved_cases hother with ⟨rfl, rfl, rfl⟩ | ⟨-, hother⟩
    · rcases hcontends.outcome with ⟨-, hlanded, -⟩ | ⟨-, -, -, hheld⟩
      · exact hmono (h.held i demand stage henters (hlanded.symm.trans hthere))
      · exact hheld
    · exact hmono (h.held j other later hother hthere)
  · intro j k a b s t ha hb hs ht
    -- a thread that had landed before rules out that the line was free
    have hclash : ∀ m other later, crew.Enters line m other later → later.isLanded = true →
        next.isLanded = true → i = m := by
      intro m other later hother hlater hnow
      rcases hcontends.outcome with ⟨-, hlanded, -⟩ | ⟨-, -, hfree, -⟩
      · exact h.unique i m _ _ _ _ henters hother (hlanded.symm.trans hnow) hlater
      · exact absurd hfree (h.held m other later hother hlater)
    rcases henters.moved_cases ha with ⟨rfl, rfl, rfl⟩ | ⟨hj, ha⟩ <;>
      rcases henters.moved_cases hb with ⟨rfl, rfl, rfl⟩ | ⟨hk, hb⟩
    · rfl
    · exact hclash k b t hb ht hs
    · exact (hclash j a s ha hs ht).symm
    · exact h.unique j k a b s t ha hb hs ht
  · intro hfree hnone
    rcases hcontends.outcome with ⟨hslot, hlanded, hwaits⟩ | ⟨-, -, -, hheld⟩
    · change after.board.slot line = .free at hfree
      rw [hslot] at hfree
      have hnot : next.isLanded = false := by
        by_contra hthere
        exact h.held i demand stage henters
          (hlanded.symm.trans (Bool.eq_true_of_not_eq_false hthere)) hfree
      obtain ⟨hstage, hmachine⟩ := hwaits hnot (hnone i demand next hnext)
      change willing after.machine
      rw [hmachine]
      apply h.ready hfree
      intro j other later hother
      by_cases hij : i = j
      · subst hij
        obtain ⟨-, rfl⟩ := Thread.request.inj (Option.mem_unique henters.1 hother.1)
        exact hstage
      · exact hnone j other later ⟨(moved_ne hij).trans hother.1, hother.2⟩
    · exact absurd hfree hheld

/-! ### The steps of the others -/

theorem Contested.bystander {crew : Crew σ} (h : Contested willing line device crew) {i : Nat}
    {thread next : Thread} {after : World σ} {touch : Option Touch}
    (hthread : crew.threads[i]? = some thread)
    (heffect : Effect crew.world.board thread.guard? next touch after.board)
    (hjob : next.job = thread.job) (hcontends : ¬ thread.job.Contends line)
    (hcovers : ¬ thread.job.Covers line)
    (hwilling : willing crew.world.machine → willing after.machine) :
    Contested willing line device (crew.moved i next after touch) := by
  have hslot : after.board.slot line = crew.world.board.slot line :=
    heffect.slot_of_not_covers (hjob ▸ hcovers)
  have hafter : ∀ {j demand stage}, (crew.moved i next after touch).Enters line j demand stage ↔
      crew.Enters line j demand stage := enters_moved hthread hjob hcontends
  refine
    { isOpen := heffect.isOpen_of_job h.isOpen ?_
      device := (congrFun heffect.device line.chip).trans h.device
      inContest := ?_
      taken := ?_
      held := ?_
      unique := ?_
      ready := ?_ }
  · rw [hjob]
    intro hclose
    rw [hclose] at hcovers
    exact hcovers rfl
  · intro j demand stage henters
    refine (h.inContest j demand stage (hafter.mp henters)).mono fun hheld => ?_
    change after.board.slot line ≠ .free
    rw [hslot]
    exact hheld
  · intro hheld
    change after.board.slot line ≠ .free at hheld
    rw [hslot] at hheld
    obtain ⟨j, demand, stage, henters, hlanded⟩ := h.taken hheld
    exact ⟨j, demand, stage, hafter.mpr henters, hlanded⟩
  · intro j demand stage henters hlanded
    change after.board.slot line ≠ .free
    rw [hslot]
    exact h.held j demand stage (hafter.mp henters) hlanded
  · intro j k a b s t ha hb
    exact h.unique j k a b s t (hafter.mp ha) (hafter.mp hb)
  · intro hfree hnone
    change after.board.slot line = .free at hfree
    rw [hslot] at hfree
    exact hwilling (h.ready hfree fun j demand stage henters =>
      hnone j demand stage (hafter.mpr henters))

/-! ### The end of a contest -/

/-- One of the threads that ask for the line has it, and all others were told that it is busy. -/
def Decided (crew : Crew σ) (line : Line) : Prop :=
  ∃ i demand, crew.Enters line i demand (.finished (.ok ())) ∧
    ∀ j other stage, j ≠ i → crew.Enters line j other stage →
      stage = .finished (.error (.busy line.offset))

theorem Contested.finished {crew : Crew σ} (h : Contested willing line device crew)
    (hdone : crew.isDone = true) {i : Nat} {demand : Demand} {stage : Requesting}
    (henters : crew.Enters line i demand stage) :
    stage = .finished (.ok ()) ∨ stage = .finished (.error (.busy line.offset)) ∧
      crew.world.board.slot line ≠ .free := by
  have hfinished : (Thread.request demand stage).isFinished = true :=
    List.all_eq_true.mp hdone _ (List.mem_of_getElem? henters.1)
  have hinContest := h.inContest i demand stage henters
  cases stage with
  | finished outcome =>
      cases outcome with
      | ok => exact Or.inl rfl
      | error error =>
          obtain ⟨rfl, hheld⟩ := hinContest
          exact Or.inr ⟨rfl, hheld⟩
  | start | waiting | entered | scanning | asking | acquiring | attaching | undoing | refreshing =>
      cases hfinished

/-- **A contest has one winner.** -/
theorem Contested.decided {crew : Crew σ} (h : Contested willing line device crew)
    (hdone : crew.isDone = true) {i : Nat} {demand : Demand} {stage : Requesting}
    (henters : crew.Enters line i demand stage) : crew.Decided line := by
  have hwinner : ∃ j other, crew.Enters line j other (.finished (.ok ())) := by
    rcases h.finished hdone henters with rfl | ⟨-, hheld⟩
    · exact ⟨i, demand, henters⟩
    · obtain ⟨j, other, later, hother, hlanded⟩ := h.taken hheld
      rcases h.finished hdone hother with rfl | ⟨rfl, -⟩
      · exact ⟨j, other, hother⟩
      · cases hlanded
  obtain ⟨j, winner, hwins⟩ := hwinner
  refine ⟨j, winner, hwins, fun k other later hne hother => ?_⟩
  rcases h.finished hdone hother with rfl | ⟨hbusy, -⟩
  · exact absurd (h.unique k j _ _ _ _ hother hwins rfl rfl) hne
  · exact hbusy

/-! ### Runs -/

variable [Machine σ]

theorem Contested.advance {world : World σ} {crew : Crew σ} {chip : Chip}
    (hcontest : Contest env willing line world jobs) (hchip : world.openChip line.chip = .ok chip)
    (h : Contested willing line chip.device crew) (hstart : (start world jobs).Sound)
    (hrun : Run env (start world jobs) crew) (i : Nat) :
    Contested willing line chip.device (crew.advance i) := by
  have hsound : crew.Sound := Run.sound hrun hstart
  rcases crew.advance_cases i with heq | ⟨thread, hthread, -, heq⟩
  · rw [heq]
    exact h
  rw [heq]
  have hmem : thread.job ∈ jobs :=
    jobs_of_run hrun ▸ List.mem_map_of_mem (List.mem_of_getElem? hthread)
  obtain ⟨heffect, -⟩ := hsound.conduct hthread (crew.shares i)
  by_cases hcontends : thread.job.Contends line
  · cases thread with
    | release | close => exact hcontends.elim
    | request demand stage =>
        have henters : crew.Enters line i demand stage := ⟨hthread, hcontends⟩
        obtain ⟨hgroup, hstage⟩ := hsound.threads i _ hthread
        have hline : line ∈ demand.group.lines := henters.2 ▸ List.mem_singleton_self line
        have haccepted := hcontest.accepted demand hmem hcontends
        refine h.contender henters heffect (demand.contends hcontends hgroup hstage
          (h.inContest i demand stage henters) h.isOpen
          (World.checkRequest_of_isOpen haccepted hgroup hline h.isOpen) ?_)
        intro granter hgranter hnone hinside hfree
        obtain rfl := Option.mem_unique h.device hgranter
        exact hcontest.granted demand chip _ hmem hcontends hchip
          (h.granted hsound henters hinside hnone hfree)
  · exact h.bystander hthread heffect (thread.job_step _ _) hcontends
      (hcontest.bystander _ hmem hcontends) (hcontest.undisturbed crew i thread hrun hthread hcontends)

theorem contested_start {world : World σ} {chip : Chip}
    (hcontest : Contest env willing line world jobs) (hchip : world.openChip line.chip = .ok chip) :
    Contested willing line chip.device (start world jobs) := by
  -- all threads are at their start, where nothing is landed
  have hlanded : ∀ i demand stage, (start world jobs).Enters line i demand stage →
      stage = .start := by
    intro i demand stage henters
    obtain ⟨job, -, hjob⟩ := getElem?_start henters.1
    cases job with
    | request other => exact (Thread.request.inj hjob).2.symm
    | release | close => cases hjob
  refine
    { isOpen := World.closed?_eq_false.mpr ⟨chip, hchip⟩
      device := ?_
      inContest := ?_
      taken := fun hheld => absurd hcontest.free hheld
      held := ?_
      unique := ?_
      ready := fun _ _ => hcontest.ready }
  · obtain ⟨hget, -⟩ := World.openChip_eq_ok.mp hchip
    simp only [start, World.board, hget, Option.map_some]
  · intro i demand stage henters
    rw [hlanded i demand stage henters]
    trivial
  · intro i demand stage henters hthere
    rw [hlanded i demand stage henters] at hthere
    cases hthere
  · intro i j a b s t ha _ hs
    rw [hlanded i a s ha] at hs
    cases hs

theorem Run.contested {world : World σ} {crew : Crew σ} {chip : Chip}
    (hcontest : Contest env willing line world jobs) (hchip : world.openChip line.chip = .ok chip)
    (hstart : (start world jobs).Sound) (hrun : Run env (start world jobs) crew) :
    Contested willing line chip.device crew := by
  induction hrun with
  | refl => exact contested_start hcontest hchip
  | tail hrun hstep ih =>
      cases hstep with
      | advance i => exact ih.advance hcontest hchip hstart hrun i
      | @elsewhere other hsame hchange =>
          refine ⟨?_, ?_, ?_, ?_, ?_, ih.unique, ?_⟩
          · rw [hsame]
            exact ih.isOpen
          · rw [hsame]
            exact ih.device
          · rw [hsame]
            exact ih.inContest
          · rw [hsame]
            exact ih.taken
          · rw [hsame]
            exact ih.held
          · rw [hsame]
            exact fun hfree hnone => hcontest.elsewhere _ _ hchange (ih.ready hfree hnone)

/-- **Of the threads that request a free line, exactly one gets it.** -/
theorem decided_of_run {world : World σ} {crew : Crew σ}
    (hcontest : Contest env willing line world jobs) (hsound : (start world jobs).Sound)
    (hrun : Run env (start world jobs) crew) (hdone : crew.isDone = true) : crew.Decided line := by
  obtain ⟨chip, hchip⟩ := hcontest.exists_openChip
  have hcontested := Run.contested hcontest hchip hsound hrun
  obtain ⟨job, hjob, hcontends⟩ := hcontest.entrant
  rw [← jobs_of_run hrun] at hjob
  obtain ⟨thread, hmem, rfl⟩ := List.mem_map.mp hjob
  obtain ⟨i, hget⟩ := List.mem_iff_getElem?.mp hmem
  cases thread with
  | release | close => exact hcontends.elim
  | request demand stage => exact hcontested.decided hdone ⟨hget, hcontends⟩

end Crew

end GpioLines
