import Mathlib.Algebra.BigOperators.Group.Finset.Basic
import Mathlib.Algebra.Group.Int.Defs
import GpioLines.Proofs.Attention
import GpioLines.Proofs.Exchange

/-!
# Independent groups

Two groups of lines of a simulated chip are independent if they have no line in common and no open
handle serves lines of both. Around each of them there is a region of its own that no handle leaves,
so tasks on them commute, and everybody who works on one of several independent groups gets the
answers that he would get alone.
-/

namespace GpioLines

/-! ### The region of a group -/

namespace World

/-- No line in common, and no handle in common. -/
structure Independent (world : World (Traced Bench)) (index : Nat) (group other : Group) : Prop where
  lines : ∀ offset ∈ group.offsets, offset ∉ other.offsets
  handles : ∀ id handle, world.handles.get? id = some handle →
    handle.device.simulator? = some index → (∃ offset ∈ handle.offsets, offset ∈ group.offsets) →
    ∀ offset ∈ handle.offsets, offset ∉ other.offsets

/-- The lines of a group, and what else is served by their handles. -/
def territory (world : World (Traced Bench)) (index : Nat) (group : Group) : Region where
  index
  offsets := {offset | offset ∈ group.offsets ∨ ∃ id handle, world.handles.get? id = some handle ∧
    handle.device.simulator? = some index ∧ offset ∈ handle.offsets ∧
    ∃ member ∈ handle.offsets, member ∈ group.offsets}

variable {world : World (Traced Bench)} {index : Nat} {lent : List (Device × FileId)}
  {group other : Group}

/-- A line of a simulated chip is served by one handle. -/
theorem Accord.handle_eq (h : world.Accord lent) {a b : HandleId} {first second : Handle}
    (ha : world.handles.get? a = some first) (hb : world.handles.get? b = some second)
    (hfirst : first.device.simulator? = some index) (hsecond : second.device.simulator? = some index)
    {offset : Offset} (hmema : offset ∈ first.offsets) (hmemb : offset ∈ second.offsets) :
    first = second := by
  obtain ⟨grant, hgrant, hbacked⟩ := h.lending.backed a first ha index hfirst
  obtain ⟨own, hown, hmate⟩ := h.lending.backed b second hb index hsecond
  obtain ⟨sim, hsim, hgrant⟩ := Bench.mem_grants.mp hgrant
  rw [Bench.grants_of_eq hsim] at hown
  obtain rfl := (h.bench.simulators index sim hsim).grant_eq hgrant hown
    (hbacked.offsets ▸ hmema) (hmate.offsets ▸ hmemb)
  obtain rfl := h.lending.distinct a b first second index ha hb hfirst hsecond
    (hbacked.file.symm.trans hmate.file)
  exact Option.mem_unique ha hb

theorem fenced_territory (haccord : world.Accord lent) (hdesk : Desk.Sound ⟨world, 0⟩) :
    world.Fenced (world.territory index group) lent where
  desk := hdesk
  accord := haccord
  closed := by
    rintro id handle hget hindex ⟨offset, hoffset, hmem⟩ place hplace
    rcases hmem with hmem | ⟨key, found, hfound, hdevice, hlisted, hmeets⟩
    · exact Or.inr ⟨id, handle, hget, hindex, hplace, offset, hoffset, hmem⟩
    · obtain rfl := haccord.handle_eq hget hfound hindex hdevice hoffset hlisted
      exact Or.inr ⟨id, handle, hget, hindex, hplace, hmeets⟩

theorem Independent.apart (h : world.Independent index group other) (haccord : world.Accord lent) :
    (world.territory index group).Apart (world.territory index other) where
  index := rfl
  disjoint := by
    intro offset hmem hother
    rcases hmem with hmem | ⟨id, handle, hget, hindex, hlisted, hmeets⟩
    · rcases hother with hother | ⟨key, found, hfound, hdevice, hlisted, member, hmember, hother⟩
      · exact h.lines offset hmem hother
      · exact h.handles key found hfound hdevice ⟨offset, hlisted, hmem⟩ member hmember hother
    · rcases hother with hother | ⟨key, found, hfound, hdevice, hserved, member, hmember, hother⟩
      · exact h.handles id handle hget hindex hmeets offset hlisted hother
      · obtain rfl := haccord.handle_eq hget hfound hindex hdevice hlisted hserved
        exact h.handles id handle hget hindex hmeets member hmember hother

theorem lists_territory
    (h : ∀ line ∈ group.lines, world.board.device? line.chip = some (.simulator index)) :
    ∀ line ∈ group.lines, (world.territory index group).Lists world line :=
  fun line hline => ⟨h line hline, Or.inl (List.mem_map_of_mem hline)⟩

/-! ### Two tasks in either order -/

theorem Mirrors.refl (region : Region) {world : World (Traced Bench)}
    (hfresh : world.bench.files.Fresh) : Mirrors region .same 0 world world where
  faces := rfl
  record := fun line _ => (LineRecord.renumber_of_fixed fun _ _ => rfl).symm
  streams := rfl
  tokens := rfl
  fixed := fun _ _ => rfl
  handles := .refl _
  files := .refl _
  handle := fun _ _ hget _ => hget
  onto := fun id handle hget hhas => ⟨id, handle, hget, hhas, rfl⟩
  grant := fun _ _ _ _ _ hgrant _ => hgrant
  fresh := ⟨hfresh, hfresh⟩
  opened := fun _ _ _ _ => rfl
  simulator := by
    cases world.bench.simulators[region.index]? with
    | none => exact .none
    | some sim => exact .some (.refl sim)

/-- The world as it is seen from a region after work elsewhere. -/
theorem Mirrors.shifted {region elsewhere : Region} {world later : World (Traced Bench)}
    (hfenced : world.Fenced region lent) (hfresh : world.bench.files.Fresh)
    (hapart : region.Apart elsewhere) (hworks : world.WorksIn elsewhere lent later) :
    Mirrors region (world.shift later)
      (later.bench.released region.index - world.bench.released region.index) world later := by
  have hmirrors := (Mirrors.refl region hfresh).elsewhere hapart hfenced.accord hfenced.desk
    hfenced.accord hfenced.desk hworks
  rwa [zero_add] at hmirrors

/-- Tasks in two regions are answered alike in either order. -/
theorem twoOrders {region elsewhere : Region} (hapart : region.Apart elsewhere)
    (hfenced : world.Fenced region lent) (helsewhere : world.Fenced elsewhere lent)
    (hfresh : world.bench.files.Fresh) (hgroup : group.WellFormed)
    (hlines : ∀ line ∈ group.lines, region.Lists world line) (hother : other.WellFormed)
    (hlinesOther : ∀ line ∈ other.lines, elsewhere.Lists world line) (first second : GroupTask) :
    let left := first.perform group world
    let right := second.perform other world
    let both := second.perform other left.2
    let turned := first.perform group right.2
    turned.1 = left.1 ∧ both.1 = right.1 ∧
      TwoOrders region elsewhere lent world left.2 both.2 right.2 turned.2 := by
  intro left right both turned
  have hleft : world.WorksIn region lent left.2 := first.worksIn hfenced hgroup hlines
  have hright : world.WorksIn elsewhere lent right.2 :=
    second.worksIn helsewhere hother hlinesOther
  have hfirst := helsewhere.elsewhere hapart.symm hleft
  have hsecond := hfenced.elsewhere hapart hright
  have hturned : ∀ line ∈ group.lines, region.Lists right.2 line := fun line hline =>
    (lists_of_faces hright.stays.confined.faces).mpr (hlines line hline)
  have hboth : ∀ line ∈ other.lines, elsewhere.Lists left.2 line := fun line hline =>
    (lists_of_faces hleft.stays.confined.faces).mpr (hlinesOther line hline)
  have halike : Alike region _ _ left turned := GroupTask.alike
    (Mirrors.shifted hfenced hfresh hapart hright) hfenced hsecond.accord hsecond.desk hlines
    hgroup.size_le first
  have hmate : Alike elsewhere _ _ right both := GroupTask.alike
    (Mirrors.shifted helsewhere hfresh hapart.symm hleft) helsewhere hfirst.accord hfirst.desk
    hlinesOther hother.size_le second
  exact ⟨halike.answer, hmate.answer,
    { apart := hapart
      fenced := hfenced
      fencedOther := helsewhere
      first := hleft
      second := second.worksIn hfirst hother hboth
      firstTurned := hright
      secondTurned := first.worksIn hsecond hgroup hturned
      mirrors := halike.mirrors
      mirrorsOther := hapart.index ▸ hmate.mirrors }⟩

end World

/-! ### Schedules -/

namespace GroupTask

/-- Tasks of several workers, each on a group of his own, and the answer that each of them gets. -/
def performAll {σ ι : Type} [Machine σ] (groups : ι → Group) (world : World σ) :
    List (ι × GroupTask) → List (ι × Except Error (List UInt8)) × World σ
  | [] => ([], world)
  | (worker, task) :: rest =>
    let (answer, world) := task.perform (groups worker) world
    let (answers, world) := performAll groups world rest
    ((worker, answer) :: answers, world)

theorem performAll_cons {σ ι : Type} [Machine σ] (groups : ι → Group) (world : World σ) (worker : ι)
    (task : GroupTask) (rest : List (ι × GroupTask)) :
    performAll groups world ((worker, task) :: rest) =
      ((worker, (task.perform (groups worker) world).1) ::
          (performAll groups (task.perform (groups worker) world).2 rest).1,
        (performAll groups (task.perform (groups worker) world).2 rest).2) := rfl

end GroupTask

namespace World

variable {ι : Type} {regions : ι → Region} {groups : ι → Group} {lent : List (Device × FileId)}
  {alone : ι → World (Traced Bench)} {joint : World (Traced Bench)} {index : Nat}

/-- How many grants of a simulated chip have ended in the meantime. -/
def ended (index : Nat) (before after : World (Traced Bench)) : Int :=
  after.bench.released index - before.bench.released index

@[simp] theorem ended_self (before : World (Traced Bench)) : ended index before before = 0 :=
  sub_self _

theorem ended_add (before mid after : World (Traced Bench)) :
    ended index before mid + ended index mid after = ended index before after :=
  sub_add_sub_cancel' ..

/-- What became of each worker alone, and what became of all of them together. -/
structure Abreast (regions : ι → Region) (lent : List (Device × FileId))
    (alone : ι → World (Traced Bench)) (joint : World (Traced Bench)) : Prop where
  fenced : ∀ worker, (alone worker).Fenced (regions worker) lent
  fencedJoint : ∀ worker, joint.Fenced (regions worker) lent
  mirrors : ∀ worker, ∃ numbers gap, Mirrors (regions worker) numbers gap (alone worker) joint

/-- As many grants end in both worlds. -/
theorem ended_alike {region : Region} {numbers : Renumbering} {gap : Int}
    {a b after later : World (Traced Bench)} (h : Mirrors region numbers gap a b)
    (hafter : Mirrors region numbers gap after later)
    (hmake : (after.bench.simulators[region.index]?).map Simulator.make =
      (a.bench.simulators[region.index]?).map Simulator.make) :
    ended region.index b later = ended region.index a after := by
  rcases h.simulator_cases with ⟨hnone, hnowhere⟩ | ⟨sim, twin, hsim, -, -⟩
  · rw [hnone, Option.map_none, Option.map_eq_none_iff] at hmake
    rcases hafter.simulator_cases with ⟨-, hlater⟩ | ⟨sim, -, hsim, -⟩
    · simp only [ended, Bench.released, hnone, hnowhere, hmake, hlater]
    · rw [hmake] at hsim
      cases hsim
  · rw [hsim, Option.map_some] at hmake
    obtain ⟨changed, hchanged, -⟩ := Option.map_eq_some_iff.mp hmake
    have hbefore := h.released hsim
    have hends := hafter.released hchanged
    rw [ended, ended]
    omega

variable [DecidableEq ι]

/-- One worker does something. -/
theorem Abreast.step (h : Abreast regions lent alone joint)
    (hindex : ∀ worker, (regions worker).index = index)
    (hapart : Pairwise fun i j => (regions i).Apart (regions j)) {worker : ι}
    (hgroup : (groups worker).WellFormed)
    (hlines : ∀ line ∈ (groups worker).lines, (regions worker).Lists joint line) (task : GroupTask) :
    let one := task.perform (groups worker) (alone worker)
    let two := task.perform (groups worker) joint
    two.1 = one.1 ∧ Abreast regions lent (Function.update alone worker one.2) two.2 ∧
      ended index joint two.2 = ended index (alone worker) one.2 := by
  intro one two
  obtain ⟨numbers, gap, hmirrors⟩ := h.mirrors worker
  have hown : ∀ line ∈ (groups worker).lines, (regions worker).Lists (alone worker) line :=
    fun line hline => hmirrors.lists_iff.mp (hlines line hline)
  have halike : Alike _ _ _ one two := GroupTask.alike hmirrors (h.fenced worker)
    (h.fencedJoint worker).accord (h.fencedJoint worker).desk hown hgroup.size_le task
  have hone : (alone worker).WorksIn (regions worker) lent one.2 :=
    task.worksIn (h.fenced worker) hgroup hown
  have htwo : joint.WorksIn (regions worker) lent two.2 :=
    task.worksIn (h.fencedJoint worker) hgroup hlines
  have hended := ended_alike hmirrors halike.mirrors (hone.stays.confined.bench.make _)
  rw [hindex] at hended
  refine ⟨halike.answer, ⟨fun other => ?_, fun other => ?_, fun other => ?_⟩, hended⟩
  all_goals by_cases hother : other = worker
  · subst hother
    rw [Function.update_self]
    exact hone.fenced (h.fenced other)
  · rw [Function.update_of_ne hother]
    exact h.fenced other
  · subst hother
    exact htwo.fenced (h.fencedJoint other)
  · exact (h.fencedJoint other).elsewhere (hapart hother) htwo
  · subst hother
    rw [Function.update_self]
    exact ⟨numbers, gap, halike.mirrors⟩
  · rw [Function.update_of_ne hother]
    obtain ⟨numbers, gap, hmirrors⟩ := h.mirrors other
    exact ⟨_, _, hmirrors.elsewhere (hapart hother) (h.fenced other).accord (h.fenced other).desk
      (h.fencedJoint other).accord (h.fencedJoint other).desk htwo⟩

/-- What a worker does in a schedule. -/
abbrev partOf (worker : ι) (schedule : List (ι × GroupTask)) : List (ι × GroupTask) :=
  schedule.filter (·.1 = worker)

theorem partOf_self (worker : ι) (task : GroupTask) (rest : List (ι × GroupTask)) :
    partOf worker ((worker, task) :: rest) = (worker, task) :: partOf worker rest :=
  List.filter_cons_of_pos (by simp)

theorem partOf_of_ne {worker other : ι} (hother : other ≠ worker) (task : GroupTask)
    (rest : List (ι × GroupTask)) : partOf other ((worker, task) :: rest) = partOf other rest :=
  List.filter_cons_of_neg (by simpa using hother.symm)

/-- **Each worker is answered as if he were alone**, and what ends is what each of them ends. -/
theorem Abreast.run [Fintype ι] (h : Abreast regions lent alone joint)
    (hindex : ∀ worker, (regions worker).index = index)
    (hapart : Pairwise fun i j => (regions i).Apart (regions j))
    (hgroups : ∀ worker, (groups worker).WellFormed)
    (hlines : ∀ worker, ∀ line ∈ (groups worker).lines, (regions worker).Lists joint line)
    (schedule : List (ι × GroupTask)) :
    let solo := fun worker => GroupTask.performAll groups (alone worker) (partOf worker schedule)
    let all := GroupTask.performAll groups joint schedule
    (∀ worker, all.1.filter (·.1 = worker) = (solo worker).1) ∧
      ended index joint all.2 = ∑ worker, ended index (alone worker) (solo worker).2 := by
  induction schedule generalizing alone joint with
  | nil => exact ⟨fun _ => rfl, by simp [GroupTask.performAll]⟩
  | cons entry rest ih =>
      obtain ⟨worker, task⟩ := entry
      obtain ⟨hanswer, hstep, hended⟩ := h.step hindex hapart (hgroups worker) (hlines worker) task
      have hwork : joint.WorksIn (regions worker) lent (task.perform (groups worker) joint).2 :=
        task.worksIn (h.fencedJoint worker) (hgroups worker) (hlines worker)
      set one := task.perform (groups worker) (alone worker)
      set two := task.perform (groups worker) joint
      set later := Function.update alone worker one.2
      obtain ⟨hanswers, hsum⟩ := ih hstep fun other line hline =>
        (lists_of_faces hwork.stays.confined.faces).mpr (hlines other line hline)
      have hself : later worker = one.2 := Function.update_self ..
      have hothers : ∀ other ≠ worker, later other = alone other :=
        fun other hother => Function.update_of_ne hother ..
      -- the task is the first one of its worker, and none of anybody else
      have hlast : ∀ other, (GroupTask.performAll groups (later other) (partOf other rest)).2 =
          (GroupTask.performAll groups (alone other) (partOf other ((worker, task) :: rest))).2 := by
        intro other
        rcases eq_or_ne other worker with rfl | hne
        · rw [partOf_self, GroupTask.performAll_cons, hself]
        · rw [partOf_of_ne hne, hothers other hne]
      refine ⟨fun other => ?_, ?_⟩
      · have hother := hanswers other
        rcases eq_or_ne other worker with rfl | hne
        · simp only [hself] at hother
          simp only [partOf_self]
          exact (List.filter_cons_of_pos (by simp)).trans
            (congrArg₂ List.cons (congrArg (Prod.mk other) hanswer) hother)
        · simp only [hothers other hne] at hother
          simp only [partOf_of_ne hne]
          exact (List.filter_cons_of_neg (by simpa using hne.symm)).trans hother
      · have hgain : ∑ other, ended index (alone other) (later other) =
            ended index (alone worker) one.2 := by
          rw [Finset.sum_eq_single_of_mem worker (Finset.mem_univ worker) fun other _ hne => by
            rw [hothers other hne, ended_self], hself]
        calc ended index joint (GroupTask.performAll groups two.2 rest).2
          _ = ended index joint two.2 +
                ended index two.2 (GroupTask.performAll groups two.2 rest).2 := (ended_add ..).symm
          _ = ∑ other, ended index (alone other) (later other) +
                ∑ other, ended index (later other)
                  (GroupTask.performAll groups (later other) (partOf other rest)).2 := by
            rw [hended, hgain, hsum]
          _ = ∑ other, ended index (alone other)
                (GroupTask.performAll groups (alone other)
                  (partOf other ((worker, task) :: rest))).2 := by
            rw [← Finset.sum_add_distrib]
            exact Finset.sum_congr rfl fun other _ => by rw [ended_add, hlast]

/-! ### What does not depend on the order -/

/-- Two tasks get the same answers in either order, and lead to the same library and the same
simulated chip, but for the numbers of the handles and files that are granted meanwhile. -/
structure Commute (world : World (Traced Bench)) (index : Nat)
    (first second : World (Traced Bench) → Except Error (List UInt8) × World (Traced Bench)) :
    Prop where
  answer : (first (second world).2).1 = (first world).1
  answerOther : (second (first world).2).1 = (second world).1
  state : ∃ numbers : Renumbering, (∀ id < world.handles.next, numbers.handle id = id) ∧
    (∀ file < world.bench.files.next, numbers.file file = file) ∧
    Renumbered index numbers (second (first world).2).2 (first (second world).2).2

end World

namespace Workshop

variable {rule : Workshop → Act → Prop} {workshop : Workshop}

open World in
/-- **Tasks on independent groups commute**, whatever they are and whether they succeed or not. So
if several workers have a group each, they may work in any order: each of them is answered as if he
were alone, and as many handles are released as all of them release alone. -/
theorem independent_commute (h : Reachable rule workshop) {index : Nat} {ι : Type} [Fintype ι]
    [DecidableEq ι] {groups : ι → Group} (hgroups : ∀ worker, (groups worker).WellFormed)
    (hlines : ∀ worker, ∀ line ∈ (groups worker).lines,
      workshop.world.board.device? line.chip = some (.simulator index))
    (hindependent : Pairwise fun i j => workshop.world.Independent index (groups i) (groups j)) :
    (∀ i j, i ≠ j → ∀ first second : GroupTask,
      workshop.world.Commute index (first.perform (groups i)) (second.perform (groups j))) ∧
    ∀ schedule : List (ι × GroupTask),
      let solo := fun worker =>
        GroupTask.performAll groups workshop.world (partOf worker schedule)
      let all := GroupTask.performAll groups workshop.world schedule
      (∀ worker, all.1.filter (·.1 = worker) = (solo worker).1) ∧
        ended index workshop.world all.2 = ∑ worker, ended index workshop.world (solo worker).2 := by
  have hsound := h.sound
  have hfresh := h.spares.fresh
  have hfenced : ∀ worker, workshop.world.Fenced (workshop.world.territory index (groups worker))
      workshop.lent := fun worker => fenced_territory hsound.accord hsound.client.desk
  have hlists := fun worker => lists_territory (hlines worker)
  have hapart : Pairwise fun i j => (workshop.world.territory index (groups i)).Apart
      (workshop.world.territory index (groups j)) :=
    fun _ _ hne => (hindependent hne).apart hsound.accord
  refine ⟨fun i j hne first second => ?_, fun schedule => ?_⟩
  · obtain ⟨hanswer, hother, horders⟩ := twoOrders (hapart hne) (hfenced i) (hfenced j) hfresh
      (hgroups i) (hlists i) (hgroups j) (hlists j) first second
    exact ⟨hanswer, hother, _, fun _ => TwoOrders.handle_old, fun _ => TwoOrders.file_old,
      horders.renumbered⟩
  · have habreast : Abreast (fun worker => workshop.world.territory index (groups worker))
        workshop.lent (fun _ => workshop.world) workshop.world :=
      ⟨hfenced, hfenced, fun worker => ⟨_, _, Mirrors.refl _ hfresh⟩⟩
    exact habreast.run (fun _ => rfl) hapart hgroups hlists schedule

/-- Two pairs of lines, and the second of them is requested. -/
def pairs (second : Bool) : Group := if second then ⟨[⟨0, 2⟩, ⟨0, 3⟩]⟩ else ⟨[⟨0, 0⟩, ⟨0, 1⟩]⟩

def requestPair (type : RequestType) : GroupOperation := .request { consumer := "pair", type } none

def secondPair : List Act :=
  [.deed (.addSimulator "gpiochip0" 4), .operation (.openChip (.simulator 0)),
    .operation (.getLines 0 [0, 1]), .operation (.getLines 0 [2, 3]),
    .operation (.onGroup (requestPair .output) (pairs true))]

/-- The second pair is given back and requested anew, and the first one is requested in between. -/
def turns : List (Bool × GroupTask) :=
  [(true, .release), (false, .operate (requestPair .eventBoth)),
    (true, .operate (requestPair .output)), (false, .release)]

theorem independent_commute_pairs : ∃ workshop : Workshop, Reachable Unruled workshop ∧
    (∀ first second : GroupTask, workshop.world.Commute 0
      (first.perform (pairs false)) (second.perform (pairs true))) ∧
    (GroupTask.performAll pairs workshop.world turns).1.filter (·.1 = false) =
      (GroupTask.performAll pairs workshop.world
        [(false, .operate (requestPair .eventBoth)), (false, .release)]).1 ∧
    World.ended 0 workshop.world (GroupTask.performAll pairs workshop.world turns).2 = 3 := by
  have hreachable : Reachable Unruled (({} : Workshop).actAll secondPair) :=
    Reachable.start.actAll (by decide)
  have hgroups : ∀ second, (pairs second).WellFormed := by
    rintro (_ | _) <;> exact ⟨by decide, by decide⟩
  have hlines : ∀ second, ∀ line ∈ (pairs second).lines,
      (({} : Workshop).actAll secondPair).world.board.device? line.chip = some (.simulator 0) := by
    decide
  have hapart : ∀ one two, one ≠ two → ∀ offset ∈ (pairs one).offsets,
      offset ∉ (pairs two).offsets := by
    rintro (_ | _) (_ | _) hne
    · exact absurd rfl hne
    · simp [pairs, Group.offsets]
    · simp [pairs, Group.offsets]
    · exact absurd rfl hne
  have hoffsets : ∀ entry ∈ (({} : Workshop).actAll secondPair).world.handles.entries,
      entry.2.offsets = (pairs true).offsets := by decide
  have hindependent : Pairwise fun one two =>
      (({} : Workshop).actAll secondPair).world.Independent 0 (pairs one) (pairs two) := by
    intro one two hne
    refine ⟨hapart one two hne, fun id handle hget _ hmeets => ?_⟩
    have hascending := hreachable.sound.client.desk.ledger.handles_ascending
    rw [hoffsets (id, handle) (hascending.mem_entries_iff.mpr hget)] at hmeets ⊢
    obtain ⟨offset, hmem, hone⟩ := hmeets
    cases one with
    | false => exact absurd hmem (hapart false true (by decide) offset hone)
    | true => exact hapart true two hne
  obtain ⟨hcommute, hschedule⟩ := independent_commute hreachable hgroups hlines hindependent
  obtain ⟨hanswers, hended⟩ := hschedule turns
  have hsum : ∑ second, World.ended 0 (({} : Workshop).actAll secondPair).world
      (GroupTask.performAll pairs (({} : Workshop).actAll secondPair).world
        (World.partOf second turns)).2 = 3 := by
    decide
  exact ⟨_, hreachable, hcommute false true (by decide), hanswers false, hended.trans hsum⟩

end Workshop

end GpioLines
