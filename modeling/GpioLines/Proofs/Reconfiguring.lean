import GpioLines.Bench.State
import GpioLines.Proofs.Client

/-!
# Two parties at one handle

A reconfiguration looks at its handle twice: what it keeps of the direction or the settings it reads
before it has the guard of the chip, and the remembered values when it has the guard. Only then it
commits. A write of values finds the handle and commits, and needs no guard. So another party may
commit between a look and the commit that rests on it.

A call whose looks are still true when it ends does what it would do if it began there, so if all calls
end that way the outcome is theirs in the order in which they end (`inOrder_of_current`). If not, the
outcome may be that of no order: a write can be lost (`lost_write`), and a direction can be taken back
(`reverted_direction`).
-/

namespace GpioLines

/-- How far a call has come. -/
inductive Adjusting where
  | start
  /-- It is done in one go. -/
  | whole
  | found (id : HandleId) (handle : Handle) (values : List UInt8)
  /-- It knows what to ask for, and waits for the guard. -/
  | settled (type : RequestType) (flags : RequestFlags) (values : Option (List UInt8))
  /-- It has the guard, and knows what to commit. -/
  | planned (plan : World.ConfigPlan)
  | finished (outcome : Except Error Unit)

/-- A call on a group, in the midst of it. -/
structure Adjustment where
  group : Group
  operation : GroupOperation
  stage : Adjusting := .start

/-! ### One party -/

namespace World

variable {σ : Type}

def settle (group : Group) (type : RequestType) (flags : RequestFlags)
    (values : Option (List UInt8)) : Except Error Adjusting :=
  (checkConfig group type flags values).map fun _ => .settled type flags values

/-- The first look of a call, without the guard. -/
def firstLook (world : World σ) (group : Group) : GroupOperation → Except Error Adjusting
  | .request .. | .getValues => .ok .whole
  | .setValues values =>
    (world.planValues group values).map fun (id, handle, ordered) => .found id handle ordered
  | .setConfig type flags values => settle group type flags values
  | .setFlags flags => do
    let (_, handle) ← world.valuesHandle group
    settle group handle.flags.direction flags none
  | .setDirectionInput => do
    let (_, handle) ← world.valuesHandle group
    settle group .input { settings := handle.flags.settings.withoutDrive } none
  | .setDirectionOutput values => do
    group.checkCount values
    let (_, handle) ← world.valuesHandle group
    settle group .output handle.flags.requestFlags (some values)

variable [Machine σ]

/-- The commit, and the refresh that follows it under the guard. -/
def commitPlan (world : World σ) (group : Group) (plan : ConfigPlan) :
    Except Error Unit × World σ :=
  match world.commitConfig plan with
  | (.error error, world) => (.error error, world)
  | (.ok _, world) =>
    (.ok (), (world.note (.reconfigured plan.handle.offsets plan.flags)).updateAll group)

end World

namespace Adjustment

variable {σ : Type} [Machine σ]

def isFinished (call : Adjustment) : Bool :=
  match call.stage with
  | .finished _ => true
  | _ => false

def waits (call : Adjustment) : Bool :=
  match call.stage with
  | .settled .. => true
  | _ => false

def isInside (call : Adjustment) : Bool :=
  match call.stage with
  | .planned _ => true
  | _ => false

/-- It comes to the next stage and the world is as it was, or it fails. -/
def proceed (call : Adjustment) (world : World σ) : Except Error Adjusting → Adjustment × World σ
  | .ok stage => ({ call with stage }, world)
  | .error error =>
    ({ call with stage := .finished (.error error) }, (world.fail (α := Unit) error).2)

def finish (call : Adjustment) (result : Except Error Unit × World σ) : Adjustment × World σ :=
  ({ call with stage := .finished result.1 }, result.2)

def step (call : Adjustment) (world : World σ) : Adjustment × World σ :=
  match call.stage with
  | .start => call.proceed world (world.firstLook call.group call.operation)
  | .whole => call.finish (call.operation.run call.group world)
  | .found id handle values => call.finish (world.commitValues id handle values)
  | .settled type flags values =>
    call.proceed world ((world.planConfig call.group type flags values).map .planned)
  | .planned plan => call.finish (world.commitPlan call.group plan)
  | .finished _ => (call, world)

/-- What the call comes to if nobody comes between any more. -/
def complete (call : Adjustment) (world : World σ) : Except Error Unit × World σ :=
  match call.stage with
  | .start | .whole => call.operation.run call.group world
  | .found id handle values => world.commitValues id handle values
  | .settled type flags values =>
    match world.planConfig call.group type flags values with
    | .error error => world.fail error
    | .ok plan => world.commitPlan call.group plan
  | .planned plan => world.commitPlan call.group plan
  | .finished outcome => (outcome, world)

theorem complete_settle (call : Adjustment) (world : World σ) (type : RequestType)
    (flags : RequestFlags) (values : Option (List UInt8)) :
    (call.proceed world (World.settle call.group type flags values)).1.complete
        (call.proceed world (World.settle call.group type flags values)).2 =
      world.setConfig call.group type flags values := by
  rw [World.setConfig, World.settle]
  cases World.checkConfig call.group type flags values with
  | error error => rfl
  | ok _ =>
      simp only [Except.map, proceed, complete]
      cases world.planConfig call.group type flags values with
      | error error => rfl
      | ok plan => rfl

/-- A step of its own does not change what a call comes to. -/
theorem complete_step (call : Adjustment) (world : World σ) :
    (call.step world).1.complete (call.step world).2 = call.complete world := by
  obtain ⟨group, operation, stage⟩ := call
  cases stage with
  | start =>
      cases operation with
      | request | getValues => rfl
      | setValues values =>
          simp only [step, complete, GroupOperation.run, World.firstLook, World.setValues]
          cases world.planValues group values with
          | error error => rfl
          | ok found => rfl
      | setConfig type flags values => exact complete_settle ⟨group, _, .start⟩ world type flags values
      | setFlags flags =>
          simp only [step, complete, GroupOperation.run, World.firstLook, World.setFlags]
          cases world.valuesHandle group with
          | error error => rfl
          | ok held => exact complete_settle ⟨group, _, .start⟩ world _ flags none
      | setDirectionInput =>
          simp only [step, complete, GroupOperation.run, World.firstLook, World.setDirectionInput]
          cases world.valuesHandle group with
          | error error => rfl
          | ok held => exact complete_settle ⟨group, _, .start⟩ world _ _ none
      | setDirectionOutput values =>
          simp only [step, complete, GroupOperation.run, World.firstLook, World.setDirectionOutput]
          cases group.checkCount values with
          | error error => rfl
          | ok _ =>
              cases world.valuesHandle group with
              | error error => rfl
              | ok held => exact complete_settle ⟨group, _, .start⟩ world _ _ (some values)
  | whole | found | planned | finished => rfl
  | settled type flags values =>
      simp only [step, complete]
      cases world.planConfig group type flags values with
      | error error => rfl
      | ok plan => rfl

/-- A call changes the world with its last step only. -/
theorem step_cases (call : Adjustment) (world : World σ) :
    (call.step world).1.group = call.group ∧ (call.step world).1.operation = call.operation ∧
      ((call.step world).1.isFinished = true ∨ (call.step world).2 = world) := by
  obtain ⟨group, operation, stage⟩ := call
  cases stage with
  | start =>
      simp only [step]
      cases world.firstLook group operation with
      | error error => exact ⟨rfl, rfl, Or.inl rfl⟩
      | ok stage => exact ⟨rfl, rfl, Or.inr rfl⟩
  | whole | found | planned | finished => exact ⟨rfl, rfl, Or.inl rfl⟩
  | settled type flags values =>
      simp only [step]
      cases world.planConfig group type flags values with
      | error error => exact ⟨rfl, rfl, Or.inl rfl⟩
      | ok plan => exact ⟨rfl, rfl, Or.inr rfl⟩

theorem exists_of_isFinished {call : Adjustment} (h : call.isFinished = true) :
    ∃ outcome, call.stage = .finished outcome := by
  obtain ⟨group, operation, stage⟩ := call
  cases stage with
  | finished outcome => exact ⟨outcome, rfl⟩
  | _ => cases h

theorem step_of_isFinished {call : Adjustment} (h : call.isFinished = true) (world : World σ) :
    call.step world = (call, world) := by
  obtain ⟨outcome, hstage⟩ := exists_of_isFinished h
  rw [step, hstage]

end Adjustment

/-! ### Two parties -/

/-- Two calls at once, on groups of one chip. -/
structure Pair (σ : Type) where
  world : World σ
  call : Bool → Adjustment

namespace Pair

variable {σ : Type} [Machine σ]

def move (pair : Pair σ) (who : Bool) : Pair σ where
  world := ((pair.call who).step pair.world).2
  call := Function.update pair.call who ((pair.call who).step pair.world).1

/-- A call waits as long as the other one has the guard. -/
def advance (pair : Pair σ) (who : Bool) : Pair σ :=
  if (pair.call who).waits && (pair.call !who).isInside then pair else pair.move who

def run (pair : Pair σ) (schedule : List Bool) : Pair σ := schedule.foldl advance pair

/-- The operation of one of the calls, in one go. -/
def operate (pair : Pair σ) (who : Bool) (world : World σ) : Except Error Unit × World σ :=
  (pair.call who).operation.run (pair.call who).group world

/-- What the call has seen so far makes no difference to what it does. -/
def Current (pair : Pair σ) (who : Bool) : Prop :=
  (pair.call who).complete pair.world = pair.operate who pair.world

/-- Whoever ends does so while what it has seen is still true. -/
def EndsCurrent (pair : Pair σ) : List Bool → Prop
  | [] => True
  | who :: rest =>
    ((pair.call who).isFinished = false → ((pair.advance who).call who).isFinished = true →
      pair.Current who) ∧ (pair.advance who).EndsCurrent rest

/-- The world after these operations, each in one go. -/
def after (start : Pair σ) (order : List Bool) : World σ :=
  order.foldl (fun world who => (start.operate who world).2) start.world

/-- The calls that have ended did so one after the other, each in one go. -/
structure InOrder (start pair : Pair σ) (ended : List Bool) : Prop where
  same : ∀ who, pair.operate who = start.operate who
  ended_iff : ∀ who, (pair.call who).isFinished = true ↔ who ∈ ended
  nodup : ended.Nodup
  world : pair.world = start.after ended
  outcome : ∀ earlier who later, ended = earlier ++ who :: later →
    (pair.call who).stage = .finished (start.operate who (start.after earlier)).1

variable {start pair : Pair σ} {ended : List Bool} {who : Bool}

/-! ### One step -/

theorem call_move (pair : Pair σ) (who : Bool) :
    (pair.move who).call who = ((pair.call who).step pair.world).1 := Function.update_self ..

theorem call_move_of_ne (pair : Pair σ) {other : Bool} (h : other ≠ who) :
    (pair.move who).call other = pair.call other := Function.update_of_ne h ..

theorem operate_move (pair : Pair σ) (who other : Bool) :
    (pair.move who).operate other = pair.operate other := by
  obtain ⟨hgroup, hoperation, -⟩ := (pair.call who).step_cases pair.world
  funext world
  by_cases heq : other = who
  · rw [heq, operate, operate, call_move, hgroup, hoperation]
  · rw [operate, operate, call_move_of_ne pair heq]

/-- Nothing happens, or a call that has not ended takes its step. -/
theorem advance_cases (pair : Pair σ) (who : Bool) : pair.advance who = pair ∨
    pair.advance who = pair.move who ∧ (pair.call who).isFinished = false := by
  cases hdone : (pair.call who).isFinished with
  | true =>
      have hmove : pair.move who = pair := by
        rw [move, Adjustment.step_of_isFinished hdone, Function.update_eq_self]
      rw [advance, hmove, ite_self]
      exact Or.inl rfl
  | false =>
      rw [advance]
      split
      · exact Or.inl rfl
      · exact Or.inr ⟨rfl, rfl⟩

/-- A step that ends a call is the operation in one go, if what the call has seen is still true. -/
theorem step_of_current (h : pair.Current who)
    (hends : ((pair.call who).step pair.world).1.isFinished = true) :
    ((pair.call who).step pair.world).1.stage = .finished (pair.operate who pair.world).1 ∧
      ((pair.call who).step pair.world).2 = (pair.operate who pair.world).2 := by
  have hcomplete := ((pair.call who).complete_step pair.world).trans h
  obtain ⟨outcome, hstage⟩ := Adjustment.exists_of_isFinished hends
  rw [Adjustment.complete, hstage] at hcomplete
  rw [hstage, ← hcomplete]
  exact ⟨rfl, rfl⟩

namespace InOrder

theorem not_mem (h : InOrder start pair ended) (hdone : (pair.call who).isFinished = false) :
    who ∉ ended := by
  intro hmem
  rw [(h.ended_iff who).mpr hmem] at hdone
  cases hdone

theorem outcome_move (h : InOrder start pair ended) (hout : who ∉ ended) {earlier later : List Bool}
    {other : Bool} (hended : ended = earlier ++ other :: later) :
    ((pair.move who).call other).stage =
      .finished (start.operate other (start.after earlier)).1 := by
  have hmem : other ∈ ended := hended ▸ List.mem_append_right _ List.mem_cons_self
  have hne : other ≠ who := fun heq => hout (heq ▸ hmem)
  rw [call_move_of_ne pair hne]
  exact h.outcome earlier other later hended

/-- A step that does not end the call leaves everything in order. -/
theorem move (h : InOrder start pair ended) (hdone : (pair.call who).isFinished = false)
    (hends : ((pair.call who).step pair.world).1.isFinished = false) :
    InOrder start (pair.move who) ended where
  same := fun other => (operate_move pair who other).trans (h.same other)
  ended_iff := by
    intro other
    by_cases heq : other = who
    · rw [heq, call_move, hends]
      exact iff_of_false nofun (h.not_mem hdone)
    · rw [call_move_of_ne pair heq]
      exact h.ended_iff other
  nodup := h.nodup
  world := by
    have hidle := ((pair.call who).step_cases pair.world).2.2
    rw [hends] at hidle
    exact (hidle.resolve_left nofun).trans h.world
  outcome := fun _ _ _ => h.outcome_move (h.not_mem hdone)

/-- A call that ends on what is true comes after those that have ended. -/
theorem moveLast (h : InOrder start pair ended) (hdone : (pair.call who).isFinished = false)
    (hends : ((pair.call who).step pair.world).1.isFinished = true) (hcurrent : pair.Current who) :
    InOrder start (pair.move who) (ended ++ [who]) := by
  have hout := h.not_mem hdone
  obtain ⟨hstage, hafter⟩ := step_of_current hcurrent hends
  rw [h.same, h.world] at hstage hafter
  refine ⟨fun other => (operate_move pair who other).trans (h.same other), fun other => ?_, ?_, ?_, ?_⟩
  · by_cases heq : other = who
    · rw [heq, call_move, hends]
      exact iff_of_true rfl (List.mem_append_right _ (List.mem_singleton_self who))
    · rw [call_move_of_ne pair heq, h.ended_iff, List.mem_append, List.mem_singleton]
      exact (or_iff_left heq).symm
  · rw [List.nodup_append]
    refine ⟨h.nodup, List.nodup_singleton who, fun a ha b hb heq => hout ?_⟩
    rw [← List.mem_singleton.mp hb, ← heq]
    exact ha
  · rw [Pair.move, h.world, hafter, after, after, List.foldl_append]
    rfl
  · intro earlier other later hended
    rcases List.eq_nil_or_concat later with rfl | ⟨others, last, rfl⟩
    · obtain ⟨rfl, hlast⟩ := List.append_inj' hended rfl
      obtain rfl : who = other := (List.cons.inj hlast).1
      rw [call_move, h.world]
      exact hstage
    · rw [List.concat_eq_append, ← List.cons_append, ← List.append_assoc] at hended
      exact h.outcome_move hout (List.append_inj' hended rfl).1

theorem advance (h : InOrder start pair ended)
    (hcurrent : (pair.call who).isFinished = false →
      ((pair.advance who).call who).isFinished = true → pair.Current who) :
    ∃ ended, InOrder start (pair.advance who) ended := by
  rcases pair.advance_cases who with hnothing | ⟨hmoved, hdone⟩
  · rw [hnothing]
    exact ⟨ended, h⟩
  · rw [hmoved, call_move] at hcurrent
    rw [hmoved]
    cases hends : ((pair.call who).step pair.world).1.isFinished with
    | false => exact ⟨ended, h.move hdone hends⟩
    | true => exact ⟨_, h.moveLast hdone hends (hcurrent hdone hends)⟩

end InOrder

/-! ### A whole schedule -/

theorem InOrder.run (h : InOrder start pair ended) {schedule : List Bool}
    (hcurrent : pair.EndsCurrent schedule) : ∃ ended, InOrder start (pair.run schedule) ended := by
  induction schedule generalizing pair ended with
  | nil => exact ⟨ended, h⟩
  | cons who rest ih =>
      obtain ⟨later, hafter⟩ := h.advance hcurrent.1
      exact ih hafter hcurrent.2

/-- **Calls that see what is true come one after the other.** If no call ends on something that is no
longer true, both have the outcome and leave the world behind that they would in one of the two orders,
each in one go. -/
theorem inOrder_of_current (hstart : ∀ who, (pair.call who).stage = .start) {schedule : List Bool}
    (hcurrent : pair.EndsCurrent schedule)
    (hended : ∀ who, ((pair.run schedule).call who).isFinished = true) :
    ∃ first, (pair.run schedule).world =
        (pair.operate (!first) (pair.operate first pair.world).2).2 ∧
      ((pair.run schedule).call first).stage = .finished (pair.operate first pair.world).1 ∧
      ((pair.run schedule).call !first).stage =
        .finished (pair.operate (!first) (pair.operate first pair.world).2).1 := by
  have hnone : InOrder pair pair [] := by
    refine ⟨fun _ => rfl, fun who => ?_, List.nodup_nil, rfl, fun earlier who later hnil => ?_⟩
    · rw [Adjustment.isFinished, hstart who]
      exact iff_of_false nofun List.not_mem_nil
    · exact absurd hnil.symm (List.append_ne_nil_of_right_ne_nil _ (List.cons_ne_nil _ _))
  obtain ⟨ended, hall⟩ := hnone.run hcurrent
  obtain ⟨first, hordered⟩ : ∃ first : Bool, ended = [first, !first] := by
    have hperm : ended.Perm [false, true] := by
      refine (List.perm_ext_iff_of_nodup hall.nodup (by decide)).mpr fun who => ?_
      exact iff_of_true ((hall.ended_iff who).mp (hended who)) (by cases who <;> decide)
    obtain ⟨first, second, rfl⟩ := List.length_eq_two.mp hperm.length_eq
    have hne : first ≠ second := fun heq => by simpa [heq] using hall.nodup
    exact ⟨first, by rw [Bool.eq_not_of_ne hne, Bool.not_not]⟩
  refine ⟨first, ?_, ?_, ?_⟩
  · rw [hall.world, hordered]
    rfl
  · exact hall.outcome [] first [!first] hordered
  · exact hall.outcome [first] (!first) [] hordered

/-! ### What another party can undo -/

/-- What the library remembers of the first handle, and what its line is at. -/
def observed (world : World Bench) : Option (HandleFlags × List UInt8) × Option UInt8 :=
  ((world.handles.get? 0).map fun handle => (handle.flags, handle.values),
    (world.machine.simulators[0]?).map (·.value 0))

/-- An output at zero, of which one party sets the flags while the other one does this. -/
def contested (operation : GroupOperation) : Pair Bench where
  world :=
    ((Client.start ({ simulators := [.create "gpiochip0" 1] } : Bench)).callAll
      [.openChip (.simulator 0), .getLines 0 [0],
        .onGroup (.request { consumer := "pair", type := .output } none) ⟨[⟨0, 0⟩]⟩]).world
  call who :=
    ⟨⟨[⟨0, 0⟩]⟩, if who then operation else .setFlags { settings := { openDrain := true } }, .start⟩

/-- A write between the second look at the values and the commit is lost. -/
theorem lost_write :
    let pair := contested (.setValues [1])
    let final := pair.run [false, false, true, true, false]
    (∀ who, (final.call who).stage = .finished (.ok ())) ∧
      ∀ first, observed final.world ≠ observed (pair.after [first, !first]) := by
  refine ⟨fun who => by cases who <;> rfl, ?_⟩
  decide

/-- A direction that is changed between the first look and the second one is taken back. -/
theorem reverted_direction :
    let pair := contested .setDirectionInput
    let final := pair.run [false, true, true, true, false, false]
    (∀ who, (final.call who).stage = .finished (.ok ())) ∧
      ∀ first, observed final.world ≠ observed (pair.after [first, !first]) := by
  refine ⟨fun who => by cases who <;> rfl, ?_⟩
  decide

end Pair

end GpioLines
