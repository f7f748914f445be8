import GpioLines.Proofs.Returning

/-!
# Threads at work

Requests, releases and closings of chips may run at the same time. Each is cut here into the steps
that other threads can come between. A request checks its chip and its arguments before it waits for
the guard of the chip, and starts over with the chip once it has the guard; from there until it is
finished no other thread has the guard. A release waits for the guard only if it finds the chip open.

A crew is any number of threads in one world. Which of them goes next is left open, so its runs are
all interleavings. A thread that was not scheduled yet has not begun, so an operation that is called
later than another is among the crew from the start.
-/

namespace GpioLines

def Group.chip? (group : Group) : Option ChipId := group.first?.map (·.chip)

inductive Touch where
  | attached (line : Line)
  | freed (line : Line)
deriving DecidableEq

/-! ### Requests -/

structure Demand where
  group : Group
  config : RequestConfig
  defaults : Option (List UInt8)

inductive Requesting where
  | start
  | waiting
  /-- It has the guard, and nothing is checked yet. -/
  | entered
  | scanning (device : Device) (before rest : List Line)
  | asking (device : Device)
  | acquiring (device : Device) (granted : List HandleId) (rest : List Line)
  | attaching (pairs : List (Line × HandleId))
  /-- A member was refused, and those granted before it are given back. -/
  | undoing (granted : List HandleId) (error : Error)
  | refreshing (rest : List Line)
  | finished (outcome : Except Error Unit)

def Requesting.isInside : Requesting → Bool
  | .start | .waiting | .finished _ => false
  | _ => true

namespace World

variable {σ : Type} [Machine σ]

/-- Lets go of one of several references, while others may refer to the handle as well. -/
def letGo (world : World σ) (shared : HandleId → Bool) (id : HandleId) (rest : List HandleId) :
    World σ :=
  if id ∈ rest ∨ shared id = true then world else world.dropHandle id

end World

namespace Demand

variable {σ : Type} [Machine σ]

def kind (demand : Demand) : HandleKind :=
  if demand.config.type.isEvent then .events else .values

def notice (demand : Demand) : Notice :=
  if demand.config.type.isEvent then
    .requestedEvents demand.group.offsets demand.config.type.edges demand.config.consumer
  else .requestedValues demand.group.offsets demand.config.consumer

def fail (world : World σ) (error : Error) : Requesting × World σ × Option Touch :=
  (.finished (.error error), (world.fail (α := Unit) error).2, none)

def step (demand : Demand) (shared : HandleId → Bool) (world : World σ) :
    Requesting → Requesting × World σ × Option Touch
  | .start =>
    match world.checkRequest demand.group demand.config demand.defaults with
    | .error error => fail world error
    | .ok _ => (.waiting, world, none)
  | .waiting => (.entered, world, none)
  | .entered =>
    match world.chipOf demand.group with
    | .error error => fail world error
    | .ok chip => (.scanning chip.device [] demand.group.lines, world, none)
  | .scanning device before (line :: rest) =>
    if !world.isFree line || before.contains line then fail world (.busy line.offset)
    else (.scanning device (before ++ [line]) rest, world, none)
  | .scanning device _ [] =>
    (if demand.config.type.isEvent then .acquiring device [] demand.group.lines
      else .asking device, world, none)
  | .asking device =>
    match world.perform device
      (.requestLines (World.linesRequest demand.group demand.config demand.defaults)) with
    | (.error error, world) => (.finished (.error error), world, none)
    | (.ok file, world) =>
      (.attaching (demand.group.lines.map (·, world.handles.next)),
        world.openHandle (World.linesHandle device file demand.group demand.config demand.defaults),
        none)
  | .acquiring device granted (line :: rest) =>
    match world.perform device (.requestEvent (World.eventRequest demand.config line)) with
    | (.error error, world) =>
      (.undoing granted error,
        if granted.isEmpty then world
        else world.note (.refusedEvent line.offset granted.length error), none)
    | (.ok file, world) =>
      (.acquiring device (granted ++ [world.handles.next]) rest,
        world.openHandle (World.eventGrant device demand.config line file), none)
  | .acquiring _ granted [] => (.attaching (demand.group.lines.zip granted), world, none)
  | .attaching ((line, id) :: pairs) =>
    (.attaching pairs, world.attach line id demand.kind, some (.attached line))
  | .attaching [] => (.refreshing demand.group.lines, world.note demand.notice, none)
  | .undoing (id :: rest) error => (.undoing rest error, world.letGo shared id rest, none)
  | .undoing [] error => (.finished (.error error), world, none)
  | .refreshing (line :: rest) => (.refreshing rest, world.update line, none)
  | .refreshing [] => (.finished (.ok ()), world, none)
  | .finished outcome => (.finished outcome, world, none)

end Demand

/-! ### Releases -/

/-- How far a release has come, and whether it has the guard. -/
inductive Releasing where
  | start
  | waiting
  | detaching (guarded : Bool) (held : List HandleId) (rest : List Line)
  | dropping (guarded : Bool) (count : Nat) (held : List HandleId)
  | refreshing (rest : List Line)
  | finished

def Releasing.isInside : Releasing → Bool
  | .start | .waiting | .finished => false
  | .detaching guarded .. | .dropping guarded .. => guarded
  | .refreshing _ => true

def Group.releaseStep {σ : Type} [Machine σ] (group : Group) (shared : HandleId → Bool)
    (world : World σ) : Releasing → Releasing × World σ × Option Touch
  | .start =>
    (if group.first?.any fun line => world.isOpen line.chip then .waiting
      else .detaching false [] group.lines, world, none)
  | .waiting => (.detaching true [] group.lines, world, none)
  | .detaching guarded held (line :: rest) =>
    (.detaching guarded (held ++ (world.detach line).1.toList) rest, (world.detach line).2,
      some (.freed line))
  | .detaching guarded held [] => (.dropping guarded held.length held, world, none)
  | .dropping guarded count (id :: rest) =>
    (.dropping guarded count rest, world.letGo shared id rest, none)
  | .dropping guarded count [] =>
    if count = 0 then (.finished, world, none)
    else
      (if guarded then .refreshing group.lines else .finished,
        world.note (.released count group.offsets), none)
  | .refreshing (line :: rest) => (.refreshing rest, world.update line, none)
  | .refreshing [] => (.finished, world, none)
  | .finished => (.finished, world, none)

/-! ### Closing -/

/-- How far the closing of a chip has come; its name is for the log. -/
inductive Closing where
  | waiting
  | entered
  /-- The chip is marked, and its lines are still to be looked up. -/
  | marked (name : String)
  | invalidating (name : String) (rest : List Line)
  | discarding (name : String) (id : HandleId) (rest : List Line)
  | finished

def Closing.isInside : Closing → Bool
  | .waiting | .finished => false
  | _ => true

def World.closeStep {σ : Type} [Machine σ] (world : World σ) (chip : ChipId)
    (shared : HandleId → Bool) : Closing → Closing × World σ × Option Touch
  | .waiting => (.entered, world, none)
  | .entered =>
    match world.chips[chip]? with
    | none => (.finished, world, none)
    | some found =>
      if found.closed then (.finished, world, none)
      else (.marked found.name, world.markClosed chip, none)
  | .marked name => (.invalidating name (world.knownLines chip), world, none)
  | .invalidating name (line :: rest) =>
    ((world.detach line).1.elim (.invalidating name rest) fun id => .discarding name id rest,
      (world.detach line).2.modifyLine line (·.stale), some (.freed line))
  | .invalidating name [] => (.finished, world.note (.closedChip name), none)
  | .discarding name id rest => (.invalidating name rest, world.letGo shared id [], none)
  | .finished => (.finished, world, none)

/-! ### Threads -/

inductive Job where
  | request (demand : Demand)
  | release (group : Group)
  | close (chip : ChipId)

def Job.groups : Job → List Group
  | .request demand => [demand.group]
  | .release group => [group]
  | .close _ => []

def Job.Covers (line : Line) : Job → Prop
  | .request demand => line ∈ demand.group.lines
  | .release group => line ∈ group.lines
  | .close chip => line.chip = chip

inductive Thread where
  | request (demand : Demand) (stage : Requesting)
  | release (group : Group) (stage : Releasing)
  | close (chip : ChipId) (stage : Closing)

def Job.thread : Job → Thread
  | .request demand => .request demand .start
  | .release group => .release group .start
  | .close chip => .close chip .waiting

namespace Thread

def job : Thread → Job
  | .request demand _ => .request demand
  | .release group _ => .release group
  | .close chip _ => .close chip

def guard? : Thread → Option ChipId
  | .request demand stage => if stage.isInside then demand.group.chip? else none
  | .release group stage => if stage.isInside then group.chip? else none
  | .close chip stage => if stage.isInside then some chip else none

def awaits? : Thread → Option ChipId
  | .request demand .waiting => demand.group.chip?
  | .release group .waiting => group.chip?
  | .close chip .waiting => some chip
  | _ => none

theorem awaits?_of_guard? {thread : Thread} {chip : ChipId} (h : thread.guard? = some chip) :
    thread.awaits? = none := by
  cases thread with
  | request demand stage => cases stage <;> first | rfl | cases h
  | release group stage => cases stage <;> first | rfl | cases h
  | close other stage => cases stage <;> first | rfl | cases h

/-- The thread refers to the handle by itself, as lines and streams do. -/
def refers (id : HandleId) : Thread → Bool
  | .request _ (.acquiring _ granted _) | .request _ (.undoing granted _) => granted.contains id
  | .request _ (.attaching pairs) => pairs.any (·.2 == id)
  | .release _ (.detaching _ held _) | .release _ (.dropping _ _ held) => held.contains id
  | .close _ (.discarding _ other _) => other == id
  | _ => false

def isFinished : Thread → Bool
  | .request _ (.finished _) | .release _ .finished | .close _ .finished => true
  | _ => false

variable {σ : Type} [Machine σ]

def step (shared : HandleId → Bool) (world : World σ) : Thread → Thread × World σ × Option Touch
  | .request demand stage =>
    let (stage, world, touch) := demand.step shared world stage
    (.request demand stage, world, touch)
  | .release group stage =>
    let (stage, world, touch) := group.releaseStep shared world stage
    (.release group stage, world, touch)
  | .close chip stage =>
    let (stage, world, touch) := world.closeStep chip shared stage
    (.close chip stage, world, touch)

end Thread

/-! ### Crews -/

/-- What was done to lines, and by which thread; the latest comes first. -/
abbrev History := List (Nat × Touch)

def Touch.takes : Option Touch → List Line
  | some (.attached line) => [line]
  | some (.freed _) | none => []

namespace History

def record (history : History) (i : Nat) (touch : Option Touch) : History :=
  touch.toList.map (i, ·) ++ history

def takenBy (i : Nat) : History → List Line
  | [] => []
  | (j, touch) :: older => takenBy i older ++ if j = i then Touch.takes (some touch) else []

def Keeps (i : Nat) (line : Line) : History → Prop
  | [] => False
  | (j, .attached other) :: older => j = i ∧ other = line ∨ Keeps i line older
  | (_, .freed other) :: older => other ≠ line ∧ Keeps i line older

end History

structure Crew (σ : Type) where
  threads : List Thread
  world : World σ
  history : History := []

namespace Crew

variable {σ : Type}

def start (world : World σ) (jobs : List Job) : Crew σ :=
  { threads := jobs.map Job.thread, world }

def blocks (crew : Crew σ) (thread : Thread) : Bool :=
  thread.awaits?.any fun chip => crew.threads.any (·.guard? == some chip)

def shares (crew : Crew σ) (i : Nat) (id : HandleId) : Bool :=
  (crew.threads.eraseIdx i).any (·.refers id)

def isDone (crew : Crew σ) : Bool := crew.threads.all Thread.isFinished

def moved (crew : Crew σ) (i : Nat) (thread : Thread) (world : World σ) (touch : Option Touch) :
    Crew σ where
  threads := crew.threads.set i thread
  world
  history := crew.history.record i touch

section moved

variable {crew : Crew σ} {i j : Nat} {old next thread : Thread} {after : World σ}
  {touch : Option Touch}

theorem moved_self (hold : crew.threads[i]? = some old) :
    (crew.moved i next after touch).threads[i]? = some next :=
  List.getElem?_set_self (List.getElem?_eq_some_iff.mp hold).1

theorem moved_ne (hne : i ≠ j) :
    (crew.moved i next after touch).threads[j]? = crew.threads[j]? :=
  List.getElem?_set_ne hne

/-- The threads after a step: the one that took it, and the others as they were. -/
theorem moved_cases (hold : crew.threads[i]? = some old)
    (h : (crew.moved i next after touch).threads[j]? = some thread) :
    i = j ∧ next = thread ∨ i ≠ j ∧ crew.threads[j]? = some thread := by
  by_cases hij : i = j
  · subst hij
    rw [moved_self hold] at h
    exact Or.inl ⟨rfl, Option.some.inj h⟩
  · rw [moved_ne hij] at h
    exact Or.inr ⟨hij, h⟩

end moved

variable [Machine σ]

def advance (crew : Crew σ) (i : Nat) : Crew σ :=
  match crew.threads[i]? with
  | none => crew
  | some thread =>
    if crew.blocks thread then crew
    else
      let (thread, world, touch) := thread.step (crew.shares i) crew.world
      crew.moved i thread world touch

def follow (crew : Crew σ) (schedule : List Nat) : Crew σ := schedule.foldl advance crew

end Crew

end GpioLines
