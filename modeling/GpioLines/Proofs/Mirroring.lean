import GpioLines.Proofs.Dealings
import GpioLines.Proofs.Renumbering

/-!
# A region in two worlds

A region is a part of the lines of a simulated chip. Two worlds mirror each other in a region if the
library knows the same of its lines in both, and the chip as well, but for the numbers of handles and
files. What happens elsewhere is left open: other lines may be requested in one world and free in the
other, and the handles that others were granted shift the numbers of those that are granted next.
Each step of an operation that keeps to the region keeps the mirror.
-/

namespace GpioLines

namespace Table

variable {α : Type} {table : Table α} {key other : Nat} {value : α}

theorem get?_modify_eq_some {f : α → α} : (table.modify key f).get? other = some value ↔
    ∃ old, table.get? other = some old ∧ (if other = key then f old else old) = value := by
  rw [Table.get?_modify]
  split
  · exact Option.map_eq_some_iff
  · exact ⟨fun h => ⟨value, h, rfl⟩, fun ⟨_, hget, heq⟩ => heq ▸ hget⟩

/-- What is found in a grown table is the new entry, or was there before. -/
theorem get?_add_cases (hfresh : table.Fresh) {added : α}
    (h : (table.add added).get? other = some value) :
    (other = table.next ∧ value = added) ∨
      other < table.next ∧ table.get? other = some value := by
  rw [Table.get?_add hfresh] at h
  split at h
  · next heq => exact Or.inl ⟨heq, (Option.some.inj h).symm⟩
  · exact Or.inr ⟨Table.get?_lt hfresh h, h⟩

theorem get?_erase_eq_some :
    (table.erase key).get? other = some value ↔ other ≠ key ∧ table.get? other = some value := by
  rw [Table.get?_erase]
  split <;> simp_all

end Table

/-- Lines of a simulated chip. -/
structure Region where
  index : Nat
  offsets : Set Offset

namespace Region

def Has (region : Region) (handle : Handle) : Prop :=
  handle.device = .simulator region.index ∧ ∀ offset ∈ handle.offsets, offset ∈ region.offsets

/-- The line is one of the region, on a chip that was opened on the simulated chip itself. -/
def Lists (region : Region) (world : World (Traced Bench)) (line : Line) : Prop :=
  world.board.device? line.chip = some (.simulator region.index) ∧ line.offset ∈ region.offsets

theorem Has.of_sameGrant {region : Region} {a b : Handle} (h : region.Has b) (hsame : a.SameGrant b) :
    region.Has a :=
  ⟨hsame.2.1.trans h.1, hsame.2.2.2 ▸ h.2⟩

theorem Has.simulator? {region : Region} {handle : Handle} (h : region.Has handle) :
    handle.device.simulator? = some region.index := by
  rw [h.1]
  rfl

end Region

def Bench.putSimulator (bench : Bench) (index : Nat) (sim : Simulator) : Bench :=
  { bench with simulators := bench.simulators.set index sim }

namespace World

/-! ### Calls of a simulated chip -/

section Calls

variable {world : World (Traced Bench)} {index : Nat}

/-- The world after a simulated chip has answered, and has changed to this. -/
def answered (world : World (Traced Bench)) (index : Nat) (call : Call) (outcome : Outcome call)
    (changed : Simulator) : World (Traced Bench) :=
  { world with
    machine :=
      { machine := (world.bench.putSimulator index changed).openGranted call outcome
        trace := world.trace ++ [.call (.simulator index) call outcome] } }

/-- The world after a call of a simulated chip that is not there. -/
def unanswered (world : World (Traced Bench)) (index : Nat) (call : Call) (outcome : Outcome call) :
    World (Traced Bench) :=
  { world with
    machine :=
      { machine := world.bench, trace := world.trace ++ [.call (.simulator index) call outcome] } }

theorem perform_present {sim changed : Simulator} {call : Call} {outcome : Outcome call}
    (hsim : world.bench.simulators[index]? = some sim)
    (hcall : sim.perform world.bench.files.next call = (outcome, changed)) :
    world.perform (.simulator index) call = (outcome, world.answered index call outcome changed) := by
  have hbench : Bench.perform (.simulator index) call world.bench =
      (outcome, (world.bench.putSimulator index changed).openGranted call outcome) := by
    simp only [Bench.perform, Bench.performSimulator, hsim, hcall, Bench.putSimulator]
  simp only [World.perform, Machine.perform, hbench, answered]

theorem perform_absent (hsim : world.bench.simulators[index]? = none) (call : Call) :
    world.perform (.simulator index) call =
      (.error (.call call.kind .badFile), world.unanswered index call
        (.error (.call call.kind .badFile))) := by
  have hbench : Bench.perform (.simulator index) call world.bench =
      (.error (.call call.kind .badFile), world.bench) := by
    simp only [Bench.perform, Bench.performSimulator, hsim]
  simp only [World.perform, Machine.perform, hbench, unanswered]

theorem simulators_answered {sim : Simulator} (hsim : world.bench.simulators[index]? = some sim)
    (call : Call) (outcome : Outcome call) (changed : Simulator) :
    (world.answered index call outcome changed).bench.simulators[index]? = some changed := by
  have hlt := (List.getElem?_eq_some_iff.mp hsim).1
  change ((world.bench.putSimulator index changed).openGranted call outcome).simulators[index]? = _
  rw [Bench.simulators_openGranted, Bench.putSimulator, List.getElem?_set_self hlt]

end Calls

/-! ### Mirrors -/

theorem device?_of_faces {world after : World (Traced Bench)}
    (h : after.chips.map Chip.face = world.chips.map Chip.face) (id : ChipId) :
    after.board.device? id = world.board.device? id := by
  have hchip : (after.chips[id]?).map Chip.face = (world.chips[id]?).map Chip.face := by
    rw [← List.getElem?_map, ← List.getElem?_map, h]
  have hdevice := congrArg (Option.map Chip.device) hchip
  rwa [Option.map_map, Option.map_map] at hdevice

theorem lists_of_faces {region : Region} {world after : World (Traced Bench)}
    (h : after.chips.map Chip.face = world.chips.map Chip.face) {line : Line} :
    region.Lists after line ↔ region.Lists world line := by
  rw [Region.Lists, Region.Lists, device?_of_faces h]

/-- In the region both worlds have the same, under other numbers. -/
structure Mirrors (region : Region) (numbers : Renumbering) (gap : Int)
    (a b : World (Traced Bench)) : Prop where
  faces : b.chips.map Chip.face = a.chips.map Chip.face
  record : ∀ line, region.Lists a line → b.record line = (a.record line).renumber numbers
  streams : b.streams = a.streams
  tokens : b.tokens = a.tokens
  fixed : ∀ entry ∈ a.streams.entries, numbers.handle entry.2 = entry.2
  handles : Renumbers numbers.handle a.handles.next b.handles.next
  files : Renumbers numbers.file a.bench.files.next b.bench.files.next
  handle : ∀ id handle, a.handles.get? id = some handle → region.Has handle →
    b.handles.get? (numbers.handle id) = some (handle.renumber numbers)
  onto : ∀ id handle, b.handles.get? id = some handle → region.Has handle →
    ∃ key found, a.handles.get? key = some found ∧ region.Has found ∧ numbers.handle key = id
  grant : ∀ id handle, a.handles.get? id = some handle → region.Has handle →
    ∀ grant ∈ a.bench.grants region.index, grant.file = handle.file →
      grant.renumber numbers ∈ b.bench.grants region.index
  fresh : a.bench.files.Fresh ∧ b.bench.files.Fresh
  opened : ∀ id handle, a.handles.get? id = some handle → region.Has handle →
    b.bench.files.get? (numbers.file handle.file) = a.bench.files.get? handle.file
  simulator : Option.Rel (Simulator.Mirrors region.offsets gap)
    (a.bench.simulators[region.index]?) (b.bench.simulators[region.index]?)

/-- The answers are the same, and the worlds that are left mirror each other. -/
structure Alike {α : Type} (region : Region) (numbers : Renumbering) (gap : Int)
    (one two : α × World (Traced Bench)) : Prop where
  answer : two.1 = one.1
  mirrors : Mirrors region numbers gap one.2 two.2

theorem Alike.split {α : Type} {region : Region} {numbers : Renumbering} {gap : Int}
    {one two : α × World (Traced Bench)} (h : Alike region numbers gap one two) :
    ∃ outcome after later, one = (outcome, after) ∧ two = (outcome, later) ∧
      Mirrors region numbers gap after later :=
  ⟨one.1, one.2, two.2, rfl, Prod.ext h.answer rfl, h.mirrors⟩

/-- Both requests are refused for one reason, or both are granted. Then the worlds with a handle of
the region for the new file mirror each other. -/
def TakenAlike (region : Region) (numbers : Renumbering) (gap : Int) (a b : World (Traced Bench))
    (call : Call) (reply answer : call.Reply) (offsets : List Offset) : Prop :=
  (∃ error after later, a.perform (.simulator region.index) call = (.error error, after) ∧
      b.perform (.simulator region.index) call = (.error error, later) ∧
      Mirrors region numbers gap after later) ∨
    ∃ after later, a.perform (.simulator region.index) call = (.ok reply, after) ∧
      b.perform (.simulator region.index) call = (.ok answer, later) ∧
      ∀ handle : Handle, handle.device = .simulator region.index → handle.offsets = offsets →
        handle.file = a.bench.files.next →
        Mirrors region numbers gap (after.openHandle handle)
          (later.openHandle (handle.renumber numbers))

namespace Mirrors

variable {region : Region} {numbers : Renumbering} {gap : Int} {a b : World (Traced Bench)}
  {lent : List (Device × FileId)}

theorem note (h : Mirrors region numbers gap a b) (notice other : Notice) :
    Mirrors region numbers gap (a.note notice) (b.note other) :=
  { h with }

theorem fail (h : Mirrors region numbers gap a b) {α : Type} (error other : Error) :
    Mirrors region numbers gap (@World.fail _ α a error).2 (@World.fail _ α b other).2 :=
  { h with }

/-! ### Lines -/

theorem lists_iff (h : Mirrors region numbers gap a b) {line : Line} :
    region.Lists b line ↔ region.Lists a line :=
  lists_of_faces h.faces

theorem modifyLine (h : Mirrors region numbers gap a b) (line : Line) {f g : LineRecord → LineRecord}
    (hf : ∀ record, g (record.renumber numbers) = (f record).renumber numbers) :
    Mirrors region numbers gap (a.modifyLine line f) (b.modifyLine line g) :=
  { h with
    faces := by rw [faces_modifyLine, faces_modifyLine, h.faces]
    record := by
      intro other hother
      have hlength : b.chips.length = a.chips.length := by
        simpa using congrArg List.length h.faces
      rw [Region.Lists, device?_modifyLine] at hother
      rw [record_modifyLine, record_modifyLine, hlength]
      split
      · next hsame => rw [h.record line (hsame.1 ▸ hother), hf]
      · exact h.record other hother }

theorem attach (h : Mirrors region numbers gap a b) (line : Line) (id : HandleId)
    (kind : HandleKind) :
    Mirrors region numbers gap (a.attach line id kind) (b.attach line (numbers.handle id) kind) := by
  refine h.modifyLine line fun record => ?_
  simp only [LineRecord.renumber, LineRecord.withSlot, Slot.renumber_holding]

theorem attachAll (h : Mirrors region numbers gap a b) (kind : HandleKind)
    (pairs : List (Line × HandleId)) :
    Mirrors region numbers gap (a.attachAll kind pairs)
      (b.attachAll kind (pairs.map fun pair => (pair.1, numbers.handle pair.2))) := by
  induction pairs generalizing a b with
  | nil => exact h
  | cons pair rest ih => exact ih (h.attach pair.1 pair.2 kind)

/-! ### Handles -/

theorem modifyHandle (h : Mirrors region numbers gap a b) (id : HandleId) {f : Handle → Handle}
    (hf : ∀ handle, f (handle.renumber numbers) = (f handle).renumber numbers)
    (hsame : ∀ handle, (f handle).SameGrant handle) :
    Mirrors region numbers gap { a with handles := a.handles.modify id f }
      { b with handles := b.handles.modify (numbers.handle id) f } := by
  have hback : ∀ old : Handle, old.SameGrant (f old) := fun old =>
    ⟨(hsame old).1.symm, (hsame old).2.1.symm, (hsame old).2.2.1.symm, (hsame old).2.2.2.symm⟩
  -- what is modified serves the same lines through the same file
  have hold : ∀ {table : Table Handle} {at' key : HandleId} {handle : Handle},
      (table.modify at' f).get? key = some handle → region.Has handle →
      ∃ old, table.get? key = some old ∧ region.Has old ∧ old.file = handle.file ∧
        (if key = at' then f old else old) = handle := by
    intro table at' key handle hget hhas
    obtain ⟨old, hold, heq⟩ := Table.get?_modify_eq_some.mp hget
    have hgrant : old.SameGrant handle := by
      rw [← heq]
      split
      · exact hback old
      · exact .refl old
    exact ⟨old, hold, hhas.of_sameGrant hgrant, hgrant.2.2.1, heq⟩
  exact
    { h with
      handle := by
        intro key handle hget hhas
        obtain ⟨old, hbefore, hhad, -, rfl⟩ := hold hget hhas
        simp only [Table.get?_modify, h.handle key old hbefore hhad, h.handles.injective.eq_iff,
          Option.map_some]
        split
        · rw [hf]
        · rfl
      onto := by
        intro key handle hget hhas
        obtain ⟨old, hbefore, hhad, -⟩ := hold hget hhas
        obtain ⟨own, found, hfound, hin, rfl⟩ := h.onto key old hbefore hhad
        refine ⟨own, _, Table.get?_modify_eq_some.mpr ⟨found, hfound, rfl⟩, ?_, rfl⟩
        split
        · exact hin.of_sameGrant (hsame found)
        · exact hin
      grant := by
        intro key handle hget hhas grant hgrant hfile
        obtain ⟨old, hbefore, hhad, hsame, -⟩ := hold hget hhas
        exact h.grant key old hbefore hhad grant hgrant (hfile.trans hsame.symm)
      opened := by
        intro key handle hget hhas
        obtain ⟨old, hbefore, hhad, hsame, -⟩ := hold hget hhas
        rw [← hsame]
        exact h.opened key old hbefore hhad }

/-! ### Calls that are granted no file -/

/-- The simulated chip stays in step, and no file and no grant comes or goes. -/
theorem withMachine (h : Mirrors region numbers gap a b) {one two : Traced Bench}
    (hone : one.machine.files = a.bench.files) (htwo : two.machine.files = b.bench.files)
    (hgrants : one.machine.grants region.index = a.bench.grants region.index)
    (hothers : two.machine.grants region.index = b.bench.grants region.index)
    (hsimulator : Option.Rel (Simulator.Mirrors region.offsets gap)
      (one.machine.simulators[region.index]?) (two.machine.simulators[region.index]?)) :
    Mirrors region numbers gap { a with machine := one } { b with machine := two } :=
  { h with
    files := by
      change Renumbers numbers.file one.machine.files.next two.machine.files.next
      rw [hone, htwo]
      exact h.files
    grant := by
      intro id handle hget hhas grant hgrant hfile
      change grant.renumber numbers ∈ two.machine.grants region.index
      rw [hothers]
      exact h.grant id handle hget hhas grant (hgrants ▸ hgrant) hfile
    fresh := by
      change one.machine.files.Fresh ∧ two.machine.files.Fresh
      rw [hone, htwo]
      exact h.fresh
    opened := by
      intro id handle hget hhas
      change two.machine.files.get? _ = one.machine.files.get? _
      rw [hone, htwo]
      exact h.opened id handle hget hhas
    simulator := hsimulator }

theorem unanswered (h : Mirrors region numbers gap a b) (call other : Call) (outcome : Outcome call)
    (answer : Outcome other) :
    Mirrors region numbers gap (a.unanswered region.index call outcome)
      (b.unanswered region.index other answer) :=
  h.withMachine rfl rfl rfl rfl h.simulator

section Present

variable {sim changed twin later : Simulator}

theorem answered (h : Mirrors region numbers gap a b)
    (hsim : a.bench.simulators[region.index]? = some sim)
    (htwin : b.bench.simulators[region.index]? = some twin) {call other : Call}
    {outcome : Outcome call} {answer : Outcome other}
    (hcall : ∀ bench : Bench, bench.openGranted call outcome = bench)
    (hother : ∀ bench : Bench, bench.openGranted other answer = bench)
    (hgrants : changed.grants = sim.grants) (hothers : later.grants = twin.grants)
    (hmirrors : changed.Mirrors region.offsets gap later) :
    Mirrors region numbers gap (a.answered region.index call outcome changed)
      (b.answered region.index other answer later) := by
  have hchanged := simulators_answered hsim call outcome changed
  have hlater := simulators_answered htwin other answer later
  have hfiles := congrArg Bench.files (hcall (a.bench.putSimulator region.index changed))
  have hsame := congrArg Bench.files (hother (b.bench.putSimulator region.index later))
  refine h.withMachine hfiles hsame ?_ ?_ ?_
  · exact (Bench.grants_of_eq hchanged).trans (hgrants.trans (Bench.grants_of_eq hsim).symm)
  · exact (Bench.grants_of_eq hlater).trans (hothers.trans (Bench.grants_of_eq htwin).symm)
  · exact hchanged ▸ hlater ▸ .some hmirrors

end Present

/-- The simulated chip is there in both worlds, or in neither. -/
theorem simulator_cases (h : Mirrors region numbers gap a b) :
    (a.bench.simulators[region.index]? = none ∧ b.bench.simulators[region.index]? = none) ∨
      ∃ sim twin, a.bench.simulators[region.index]? = some sim ∧
        b.bench.simulators[region.index]? = some twin ∧ sim.Mirrors region.offsets gap twin := by
  have hrel := h.simulator
  generalize ha : a.bench.simulators[region.index]? = first at hrel
  generalize hb : b.bench.simulators[region.index]? = second at hrel
  cases hrel with
  | none => exact Or.inl ⟨rfl, rfl⟩
  | some hmirrors => exact Or.inr ⟨_, _, rfl, rfl, hmirrors⟩

/-- A line of the region is reported alike. -/
theorem performLineInfo (h : Mirrors region numbers gap a b) {offset : Offset}
    (hmem : offset ∈ region.offsets) :
    Alike region numbers gap (a.perform (.simulator region.index) (.lineInfo offset))
      (b.perform (.simulator region.index) (.lineInfo offset)) := by
  rcases h.simulator_cases with ⟨hnone, hnowhere⟩ | ⟨sim, twin, hsim, htwin, hmirrors⟩
  · rw [perform_absent hnone, perform_absent hnowhere]
    exact ⟨rfl, h.unanswered ..⟩
  · have hinfo : twin.perform b.bench.files.next (.lineInfo offset) =
        ((sim.lineInfo offset).mapError (.call .lineInfo ·), twin) := by
      rw [← hmirrors.lineInfo hmem]
      rfl
    rw [perform_present hsim rfl, perform_present htwin hinfo]
    exact ⟨rfl, h.answered hsim htwin (fun _ => rfl) (fun _ => rfl) rfl rfl hmirrors⟩

/-! ### Calls through a handle -/

/-- A handle of the region has its grant in both worlds. -/
theorem granted (h : Mirrors region numbers gap a b) (ha : a.Accord lent) (hb : b.Accord lent)
    {id : HandleId} {handle : Handle} (hget : a.handles.get? id = some handle)
    (hhas : region.Has handle) : ∃ sim twin grant, a.bench.simulators[region.index]? = some sim ∧
      b.bench.simulators[region.index]? = some twin ∧ sim.Mirrors region.offsets gap twin ∧
      handle.Backed grant ∧ sim.grant? handle.file = some grant ∧
      twin.grant? (numbers.file handle.file) = some (grant.renumber numbers) := by
  obtain ⟨grant, hgrant, hbacked⟩ := ha.lending.backed id handle hget _ hhas.simulator?
  have hmate := h.grant id handle hget hhas grant hgrant hbacked.file
  rcases h.simulator_cases with ⟨hnone, -⟩ | ⟨sim, twin, hsim, htwin, hmirrors⟩
  · obtain ⟨sim, hsim, -⟩ := Bench.mem_grants.mp hgrant
    rw [hnone] at hsim
    cases hsim
  rw [Bench.grants_of_eq hsim] at hgrant
  rw [Bench.grants_of_eq htwin] at hmate
  have hfound := (ha.bench.simulators _ sim hsim).grant?_eq hgrant
  have hfile : (grant.renumber numbers).file = numbers.file handle.file :=
    congrArg numbers.file hbacked.file
  exact ⟨sim, twin, grant, hsim, htwin, hmirrors, hbacked, hbacked.file ▸ hfound,
    hfile ▸ (hb.bench.simulators _ twin htwin).grant?_eq hmate⟩

section Handles

variable {id : HandleId} {handle : Handle}

theorem performGetValues (h : Mirrors region numbers gap a b) (ha : a.Accord lent)
    (hb : b.Accord lent)
    (hget : a.handles.get? id = some handle) (hhas : region.Has handle) (buffer : List UInt8) :
    Alike region numbers gap (a.perform handle.device (.getValues handle.file buffer))
      (b.perform handle.device (.getValues (numbers.file handle.file) buffer)) := by
  obtain ⟨sim, twin, grant, hsim, htwin, hmirrors, hbacked, hgrant, hmate⟩ := h.granted ha hb hget hhas
  have hvalues : twin.getValues (numbers.file handle.file) = sim.getValues handle.file :=
    hmirrors.getValues hgrant hmate rfl (hbacked.offsets ▸ hhas.2)
  have hanswer : twin.perform b.bench.files.next (.getValues (numbers.file handle.file) buffer) =
      (((sim.getValues handle.file).map (Buffer.fill buffer)).mapError (.call .getValues ·),
        twin) := by
    rw [← hvalues]
    rfl
  rw [hhas.1, perform_present hsim rfl, perform_present htwin hanswer]
  exact ⟨rfl, h.answered hsim htwin (fun _ => rfl) (fun _ => rfl) rfl rfl hmirrors⟩

/-- Both are refused, or both are obeyed. -/
theorem settled (h : Mirrors region numbers gap a b) {sim twin : Simulator}
    (hsim : a.bench.simulators[region.index]? = some sim)
    (htwin : b.bench.simulators[region.index]? = some twin)
    (hmirrors : sim.Mirrors region.offsets gap twin) (call other : Call) {reply : call.Reply}
    {answer : other.Reply} {first second : Except Errno Simulator}
    (hcall : sim.perform a.bench.files.next call = sim.settle reply first)
    (hother : twin.perform b.bench.files.next other = twin.settle answer second)
    (halike : Simulator.AnswerAlike region.offsets gap first second)
    (hquiet : ∀ (bench : Bench) (reply : call.Reply), bench.openGranted call (.ok reply) = bench)
    (hsilent : ∀ (bench : Bench) (answer : other.Reply), bench.openGranted other (.ok answer) = bench)
    (hgrants : ∀ fresh, call.grants fresh = []) (hothers : ∀ fresh, other.grants fresh = []) :
    ∃ after later, Mirrors region numbers gap after later ∧
      ((a.perform (.simulator region.index) call = (.ok reply, after) ∧
          b.perform (.simulator region.index) other = (.ok answer, later)) ∨
        ∃ errno, a.perform (.simulator region.index) call = (.error (.call call.kind errno), after) ∧
          b.perform (.simulator region.index) other = (.error (.call other.kind errno), later)) := by
  have hrefused : ∀ (call : Call) (error : Error) (bench : Bench),
      bench.openGranted call (.error error) = bench := by
    intro call error bench
    cases call <;> rfl
  cases halike with
  | refused errno =>
      exact ⟨_, _, h.answered hsim htwin (hrefused call _) (hrefused other _) rfl rfl hmirrors,
        Or.inr ⟨errno, perform_present hsim hcall, perform_present htwin hother⟩⟩
  | @granted changed final hchanged =>
      have hkept := (Simulator.grants_perform hcall).1
      have hsame := (Simulator.grants_perform hother).1
      rw [hgrants, List.append_nil] at hkept
      rw [hothers, List.append_nil] at hsame
      exact ⟨_, _, h.answered hsim htwin (hquiet · reply) (hsilent · answer) hkept hsame hchanged,
        Or.inl ⟨perform_present hsim hcall, perform_present htwin hother⟩⟩

theorem performSetValues (h : Mirrors region numbers gap a b) (ha : a.Accord lent)
    (hb : b.Accord lent)
    (hget : a.handles.get? id = some handle) (hhas : region.Has handle) (values : List UInt8) :
    Alike region numbers gap (a.perform handle.device (.setValues handle.file values))
      (b.perform handle.device (.setValues (numbers.file handle.file) values)) := by
  obtain ⟨sim, twin, grant, hsim, htwin, hmirrors, hbacked, hgrant, hmate⟩ := h.granted ha hb hget hhas
  have halike := hmirrors.setValues hgrant hmate rfl (hbacked.offsets ▸ hhas.2) values
  obtain ⟨after, later, hafter, ⟨hone, htwo⟩ | ⟨errno, hone, htwo⟩⟩ := h.settled hsim htwin hmirrors
    (.setValues handle.file values) (.setValues (numbers.file handle.file) values) rfl rfl halike
    (fun _ _ => rfl) (fun _ _ => rfl) (fun _ => rfl) (fun _ => rfl)
  all_goals
    rw [hhas.1, hone, htwo]
    exact ⟨rfl, hafter⟩

theorem performSetConfig (h : Mirrors region numbers gap a b) (ha : a.Accord lent)
    (hb : b.Accord lent)
    (hget : a.handles.get? id = some handle) (hhas : region.Has handle) (flags : HandleFlags)
    (values : List UInt8) :
    Alike region numbers gap (a.perform handle.device (.setConfig handle.file flags values))
      (b.perform handle.device (.setConfig (numbers.file handle.file) flags values)) := by
  obtain ⟨sim, twin, grant, hsim, htwin, hmirrors, -, hgrant, hmate⟩ := h.granted ha hb hget hhas
  have halike := hmirrors.setConfig hgrant hmate rfl flags values
  obtain ⟨after, later, hafter, ⟨hone, htwo⟩ | ⟨errno, hone, htwo⟩⟩ := h.settled hsim htwin hmirrors
    (.setConfig handle.file flags values) (.setConfig (numbers.file handle.file) flags values) rfl rfl
    halike (fun _ _ => rfl) (fun _ _ => rfl) (fun _ => rfl) (fun _ => rfl)
  all_goals
    rw [hhas.1, hone, htwo]
    exact ⟨rfl, hafter⟩

end Handles

/-! ### Requests -/

/-- The grants of a handle are found again, also when it has just been opened for the new file. -/
theorem grant_openGranted (h : Mirrors region numbers gap a b) (ha : a.Accord lent)
    {sim twin : Simulator} (hsim : a.bench.simulators[region.index]? = some sim)
    (htwin : b.bench.simulators[region.index]? = some twin) {grant other : Grant}
    {handle found : Handle}
    (hfile : handle.file = a.bench.files.next) {id : HandleId}
    (hget : (a.handles.add handle).get? id = some found) (hfound : region.Has found)
    (hlisted : other ∈ sim.grants ++ [{ grant with file := a.bench.files.next }])
    (hsame : other.file = found.file) :
    other.renumber numbers ∈ twin.grants ++ [{ grant with file := b.bench.files.next }] := by
  have hold : ∀ old ∈ sim.grants, old.file < a.bench.files.next := fun old hmem =>
    ha.bench.fresh region.index old (Bench.grants_of_eq hsim ▸ hmem)
  rcases Table.get?_add_cases ha.fresh hget with ⟨-, rfl⟩ | ⟨-, hbefore⟩
  · -- the new handle has the new file
    rcases List.mem_append.mp hlisted with hmem | hmem
    · exact absurd (hsame.trans hfile) (hold other hmem).ne
    · obtain rfl := List.mem_singleton.mp hmem
      refine List.mem_append_right _ (List.mem_singleton.mpr ?_)
      exact congrArg (fun file => { grant with file }) h.files.apply_next
  · have hlt := ha.lending.file_lt ha.bench hbefore hfound.simulator?
    rcases List.mem_append.mp hlisted with hmem | hmem
    · have hmate := h.grant id found hbefore hfound other (Bench.grants_of_eq hsim ▸ hmem) hsame
      exact List.mem_append_left _ (Bench.grants_of_eq htwin ▸ hmate)
    · obtain rfl := List.mem_singleton.mp hmem
      exact absurd hsame hlt.ne'

/-- A granted file becomes a handle in both worlds. -/
theorem openGranted (h : Mirrors region numbers gap a b) (ha : a.Accord lent) (hb : b.Accord lent)
    {sim changed twin later : Simulator} (hsim : a.bench.simulators[region.index]? = some sim)
    (htwin : b.bench.simulators[region.index]? = some twin)
    (hmirrors : changed.Mirrors region.offsets gap later) {call : Call} {reply answer : call.Reply}
    (hopens : ∀ (bench : Bench) (reply : call.Reply),
      bench.openGranted call (.ok reply) = bench.addFile .fresh)
    {grant : Grant}
    (hgrants : changed.grants = sim.grants ++ [{ grant with file := a.bench.files.next }])
    (hothers : later.grants = twin.grants ++ [{ grant with file := b.bench.files.next }])
    {handle : Handle} (hhas : region.Has handle) (hfile : handle.file = a.bench.files.next) :
    Mirrors region numbers gap ((a.answered region.index call (.ok reply) changed).openHandle handle)
      ((b.answered region.index call (.ok answer) later).openHandle (handle.renumber numbers)) := by
  have hfiles : (a.answered region.index call (.ok reply) changed).bench.files =
      a.bench.files.add .fresh :=
    congrArg Bench.files (hopens (a.bench.putSimulator region.index changed) reply)
  have hsame : (b.answered region.index call (.ok answer) later).bench.files =
      b.bench.files.add .fresh :=
    congrArg Bench.files (hopens (b.bench.putSimulator region.index later) answer)
  have hchanged := simulators_answered hsim call (.ok reply) changed
  have hlater := simulators_answered htwin call (.ok answer) later
  exact
    { h with
      handles := h.handles.succ
      files := by
        change Renumbers numbers.file
          (a.answered region.index call (.ok reply) changed).bench.files.next
          (b.answered region.index call (.ok answer) later).bench.files.next
        rw [hfiles, hsame]
        exact h.files.succ
      fresh := by
        change (a.answered region.index call (.ok reply) changed).bench.files.Fresh ∧
          (b.answered region.index call (.ok answer) later).bench.files.Fresh
        rw [hfiles, hsame]
        exact ⟨h.fresh.1.add _, h.fresh.2.add _⟩
      opened := by
        intro id found hget hfound
        change (b.answered region.index call (.ok answer) later).bench.files.get? _ =
          (a.answered region.index call (.ok reply) changed).bench.files.get? _
        rw [hfiles, hsame, Table.get?_add h.fresh.1, Table.get?_add h.fresh.2, ← h.files.apply_next]
        rcases Table.get?_add_cases ha.fresh hget with ⟨-, rfl⟩ | ⟨-, hold⟩
        · rw [hfile, if_pos rfl, if_pos rfl]
        · have hne := (ha.lending.file_lt ha.bench hold hfound.simulator?).ne
          rw [if_neg hne, if_neg fun heq => hne (h.files.injective heq)]
          exact h.opened id found hold hfound
      handle := by
        intro id found hget hfound
        change (b.handles.add (handle.renumber numbers)).get? (numbers.handle id) = _
        rw [Table.get?_add hb.fresh]
        rcases Table.get?_add_cases ha.fresh hget with ⟨rfl, rfl⟩ | ⟨hlt, hold⟩
        · rw [if_pos h.handles.apply_next]
        · rw [if_neg (h.handles.below id hlt).ne]
          exact h.handle id found hold hfound
      onto := by
        intro id found hget hfound
        change (b.handles.add (handle.renumber numbers)).get? id = some found at hget
        change ∃ key found, (a.handles.add handle).get? key = some found ∧ _
        simp only [Table.get?_add ha.fresh]
        rcases Table.get?_add_cases hb.fresh hget with ⟨rfl, -⟩ | ⟨-, hbefore⟩
        · exact ⟨a.handles.next, handle, if_pos rfl, hhas, h.handles.apply_next⟩
        · obtain ⟨key, own, hown, hin, hkey⟩ := h.onto id found hbefore hfound
          exact ⟨key, own, by rwa [if_neg (Table.get?_lt ha.fresh hown).ne], hin, hkey⟩
      grant := by
        intro id found hget hfound other hmember hsame
        have hlisted : other ∈ sim.grants ++ [{ grant with file := a.bench.files.next }] := by
          rw [← hgrants, ← Bench.grants_of_eq hchanged]
          exact hmember
        have hmem := h.grant_openGranted ha hsim htwin hfile hget hfound hlisted hsame
        rw [← hothers, ← Bench.grants_of_eq hlater] at hmem
        exact hmem
      simulator := by
        change Option.Rel _
          ((a.answered region.index call (.ok reply) changed).bench.simulators[region.index]?)
          ((b.answered region.index call (.ok answer) later).bench.simulators[region.index]?)
        rw [hchanged, hlater]
        exact .some hmirrors }

/-- Both are refused, or both are granted a file. -/
theorem taken (h : Mirrors region numbers gap a b) (ha : a.Accord lent) (hb : b.Accord lent)
    {sim twin : Simulator} (hsim : a.bench.simulators[region.index]? = some sim)
    (htwin : b.bench.simulators[region.index]? = some twin)
    (hmirrors : sim.Mirrors region.offsets gap twin) {call : Call} {reply answer : call.Reply}
    {first second : Except Errno Simulator}
    (hcall : sim.perform a.bench.files.next call = sim.settle reply first)
    (hother : twin.perform b.bench.files.next call = twin.settle answer second)
    (halike : Simulator.AnswerAlike region.offsets gap first second)
    (hopens : ∀ (bench : Bench) (reply : call.Reply),
      bench.openGranted call (.ok reply) = bench.addFile .fresh)
    (grant : Grant) (hgrants : ∀ fresh, call.grants fresh = [{ grant with file := fresh }])
    (hwithin : ∀ offset ∈ grant.offsets, offset ∈ region.offsets) :
    TakenAlike region numbers gap a b call reply answer grant.offsets := by
  have hrefused : ∀ (error : Error) (bench : Bench),
      bench.openGranted call (.error error) = bench := by
    intro error bench
    cases call <;> rfl
  cases halike with
  | refused errno =>
      exact Or.inl ⟨_, _, _, perform_present hsim hcall, perform_present htwin hother,
        h.answered hsim htwin (hrefused _) (hrefused _) rfl rfl hmirrors⟩
  | @granted changed final hchanged =>
      have hkept := (Simulator.grants_perform hcall).1
      have hsame := (Simulator.grants_perform hother).1
      rw [hgrants] at hkept hsame
      refine Or.inr ⟨_, _, perform_present hsim hcall, perform_present htwin hother, ?_⟩
      intro handle hdevice hoffsets hfile
      exact h.openGranted ha hb hsim htwin hchanged hopens hkept hsame
        ⟨hdevice, fun offset hmem => hwithin offset (hoffsets ▸ hmem)⟩ hfile

theorem performRequestLines (h : Mirrors region numbers gap a b) (ha : a.Accord lent)
    (hb : b.Accord lent) (request : LinesRequest)
    (hwithin : ∀ offset ∈ request.offsets, offset ∈ region.offsets) :
    TakenAlike region numbers gap a b (.requestLines request) a.bench.files.next
      b.bench.files.next request.offsets := by
  rcases h.simulator_cases with ⟨hnone, hnowhere⟩ | ⟨sim, twin, hsim, htwin, hmirrors⟩
  · exact Or.inl ⟨_, _, _, perform_absent hnone _, perform_absent hnowhere _, h.unanswered ..⟩
  · have halike := hmirrors.requestLines hwithin a.bench.files.next b.bench.files.next
    exact h.taken ha hb hsim htwin hmirrors rfl rfl halike (fun _ _ => rfl)
      ⟨0, request.offsets, none⟩ (fun _ => rfl) hwithin

theorem performRequestEvent (h : Mirrors region numbers gap a b) (ha : a.Accord lent)
    (hb : b.Accord lent) (request : EventRequest) (hmem : request.offset ∈ region.offsets) :
    TakenAlike region numbers gap a b (.requestEvent request) a.bench.files.next
      b.bench.files.next [request.offset] := by
  have hwithin : ∀ offset ∈ [request.offset], offset ∈ region.offsets := fun offset hlisted =>
    List.mem_singleton.mp hlisted ▸ hmem
  rcases h.simulator_cases with ⟨hnone, hnowhere⟩ | ⟨sim, twin, hsim, htwin, hmirrors⟩
  · exact Or.inl ⟨_, _, _, perform_absent hnone _, perform_absent hnowhere _, h.unanswered ..⟩
  · have halike := hmirrors.requestEvent hmem a.bench.files.next b.bench.files.next
    exact h.taken ha hb hsim htwin hmirrors rfl rfl halike (fun _ _ => rfl)
      ⟨0, [request.offset], some request.edges⟩ (fun _ => rfl) hwithin

/-! ### Releases -/

/-- Of the files only the one that is closed changes. -/
theorem get?_closed {bench : Bench} {device : Device} {file other : FileId} (hne : other ≠ file) :
    ((Bench.releaseAt device file bench).closeFile file).files.get? other =
      bench.files.get? other := by
  refine (Table.get?_erase ..).trans ((if_neg hne).trans ?_)
  rcases Bench.files_releaseAt device file bench with hsame | hhungUp
  · rw [hsame]
  · rw [hhungUp, Table.get?_modify, if_neg hne]

theorem closeHandle (h : Mirrors region numbers gap a b) (ha : a.Accord lent) (hb : b.Accord lent)
    {id : HandleId} {handle : Handle} (hget : a.handles.get? id = some handle)
    (hhas : region.Has handle) :
    Mirrors region numbers gap (a.closeHandle id) (b.closeHandle (numbers.handle id)) := by
  obtain ⟨sim, twin, grant, hsim, htwin, hmirrors, -, hgrant, hmate⟩ := h.granted ha hb hget hhas
  have hindex := hhas.simulator?
  have hother : ∀ {key : HandleId} {found : Handle}, (a.handles.erase id).get? key = some found →
      region.Has found → found.file ≠ handle.file := by
    intro key found hfound hin heq
    obtain ⟨hne, hbefore⟩ := Table.get?_erase_eq_some.mp hfound
    exact hne (ha.lending.distinct key id found handle _ hbefore hget hin.simulator? hindex heq)
  rw [closeHandle_eq hget, closeHandle_eq (h.handle id handle hget hhas)]
  exact
    { h with
      files := by
        change Renumbers numbers.file
          (Bench.releaseAt handle.device handle.file a.bench).files.next
          (Bench.releaseAt handle.device (numbers.file handle.file) b.bench).files.next
        rw [Bench.next_releaseAt, Bench.next_releaseAt]
        exact h.files
      handle := by
        intro key found hfound hin
        obtain ⟨hne, hbefore⟩ := Table.get?_erase_eq_some.mp hfound
        refine Table.get?_erase_eq_some.mpr ⟨fun heq => hne ?_, h.handle key found hbefore hin⟩
        exact h.handles.injective heq
      onto := by
        intro key found hfound hin
        obtain ⟨hne, hbefore⟩ := Table.get?_erase_eq_some.mp hfound
        obtain ⟨own, old, hold, hhad, rfl⟩ := h.onto key found hbefore hin
        refine ⟨own, old, Table.get?_erase_eq_some.mpr ⟨fun heq => ?_, hold⟩, hhad, rfl⟩
        exact hne (congrArg _ heq)
      fresh := by
        refine ⟨Table.Fresh.erase ?_ _, Table.Fresh.erase ?_ _⟩
        · exact (Bench.touches_releaseAt handle.device handle.file a.bench).fresh h.fresh.1
        · exact (Bench.touches_releaseAt handle.device (numbers.file handle.file) b.bench).fresh
            h.fresh.2
      opened := by
        intro key found hfound hin
        have hne := hother hfound hin
        have hbefore := (Table.get?_erase_eq_some.mp hfound).2
        refine (get?_closed ?_).trans ((h.opened key found hbefore hin).trans
          (get?_closed hne).symm)
        exact fun heq => hne (h.files.injective heq)
      grant := by
        intro key found hfound hin other hmember hfile
        have hbefore := (Table.get?_erase_eq_some.mp hfound).2
        have hfiles : other.file ≠ handle.file := fun heq => hother hfound hin (hfile.symm.trans heq)
        have hold : other ∈ a.bench.grants region.index := by
          rw [Bench.grants_of_eq hsim]
          have hsame : (Bench.releaseAt handle.device handle.file a.bench).simulators[region.index]? =
              some (sim.release handle.file) := by
            rw [Bench.simulators_releaseAt, if_pos hindex, hsim, Option.map_some]
          change other ∈ (Bench.releaseAt handle.device handle.file a.bench).grants _ at hmember
          rw [Bench.grants_of_eq hsame] at hmember
          exact (Simulator.mem_grants_release hfiles).mp hmember
        refine Bench.mem_grants_releaseAt (h.grant key found hbefore hin other hold hfile) fun _ heq =>
          hfiles (h.files.injective heq)
      simulator := by
        change Option.Rel _
          ((Bench.releaseAt handle.device handle.file a.bench).simulators[region.index]?)
          ((Bench.releaseAt handle.device (numbers.file handle.file)
            b.bench).simulators[region.index]?)
        rw [Bench.simulators_releaseAt, Bench.simulators_releaseAt, if_pos hindex, if_pos hindex, hsim,
          htwin]
        exact .some (hmirrors.release hgrant hmate rfl) }

/-! ### Who holds a handle -/

end Mirrors

/-- Who holds a handle of the region is a line of the region. -/
theorem lists_of_holds {region : Region} {world : World (Traced Bench)}
    {lent : List (Device × FileId)} (haccord : world.Accord lent) (hsound : world.ledger.Sound)
    {line : Line} {id : HandleId} {handle : Handle} (hholds : world.ledger.Holds line id)
    (hget : world.handles.get? id = some handle) (hhas : region.Has handle) :
    region.Lists world line := by
  obtain ⟨found, hfound, -, hlisted⟩ := hsound.slot_open line id hholds
  obtain rfl := Option.mem_unique hget hfound
  refine ⟨?_, hhas.2 _ hlisted⟩
  rw [← hhas.1]
  exact (haccord.home line id hholds).2 handle hget

namespace Mirrors

variable {region : Region} {numbers : Renumbering} {gap : Int} {a b : World (Traced Bench)}
  {lent : List (Device × FileId)} {id : HandleId} {handle : Handle}

theorem slot (h : Mirrors region numbers gap a b) {line : Line} (hline : region.Lists a line) :
    b.slot line = (a.slot line).renumber numbers.handle :=
  congrArg LineRecord.slot (h.record line hline)

theorem holds_iff (h : Mirrors region numbers gap a b) {line : Line} (hline : region.Lists a line) :
    b.ledger.Holds line (numbers.handle id) ↔ a.ledger.Holds line id := by
  change (b.slot line).handle? = some (numbers.handle id) ↔ (a.slot line).handle? = some id
  rw [h.slot hline, Slot.handle?_renumber, Option.map_eq_some_iff]
  constructor
  · rintro ⟨key, hkey, heq⟩
    rw [hkey, h.handles.injective heq]
  · exact fun hid => ⟨id, hid, rfl⟩

theorem held_iff (h : Mirrors region numbers gap a b) (ha : a.Accord lent) (hb : b.Accord lent)
    (hfirst : a.ledger.Sound) (hsecond : b.ledger.Sound) (hget : a.handles.get? id = some handle)
    (hhas : region.Has handle) : b.ledger.Held (numbers.handle id) ↔ a.ledger.Held id := by
  have hmate := h.handle id handle hget hhas
  refine or_congr ⟨?_, ?_⟩ ⟨?_, ?_⟩
  · rintro ⟨line, hholds⟩
    have hthere : region.Lists b line := lists_of_holds hb hsecond hholds hmate hhas
    exact ⟨line, (h.holds_iff (h.lists_iff.mp hthere)).mp hholds⟩
  · rintro ⟨line, hholds⟩
    exact ⟨line, (h.holds_iff (lists_of_holds ha hfirst hholds hget hhas)).mpr hholds⟩
  · rintro ⟨entry, hentry, heq⟩
    have hentry : entry ∈ a.streams.entries := h.streams ▸ hentry
    exact ⟨entry, hentry, h.handles.injective ((h.fixed entry hentry).trans heq)⟩
  · rintro ⟨entry, hentry, rfl⟩
    refine ⟨entry, ?_, (h.fixed entry hentry).symm⟩
    change entry ∈ b.streams.entries
    rw [h.streams]
    exact hentry

theorem dropHandle (h : Mirrors region numbers gap a b) (ha : a.Accord lent) (hb : b.Accord lent)
    {owned others : Multiset HandleId} (hfirst : Desk.Sound ⟨a, owned⟩)
    (hsecond : Desk.Sound ⟨b, others⟩) (hget : a.handles.get? id = some handle)
    (hhas : region.Has handle) :
    Mirrors region numbers gap (a.dropHandle id) (b.dropHandle (numbers.handle id)) := by
  have hiff := h.held_iff ha hb hfirst.ledger hsecond.ledger hget hhas
  by_cases hheld : a.ledger.Held id
  · rw [dropHandle_of_held hfirst.tidy hheld, dropHandle_of_held hsecond.tidy (hiff.mpr hheld)]
    exact h
  · rw [dropHandle_of_not_held hfirst.tidy hheld,
      dropHandle_of_not_held hsecond.tidy fun hother => hheld (hiff.mp hother)]
    exact h.closeHandle ha hb hget hhas

end Mirrors

theorem get?_of_dropHandle {σ : Type} [Machine σ] {world : World σ} {id key : HandleId}
    {handle : Handle} (h : (world.dropHandle id).handles.get? key = some handle) :
    world.handles.get? key = some handle := by
  unfold World.dropHandle at h
  split at h
  · exact h
  · cases hget : world.handles.get? id with
    | none => rwa [World.closeHandle, hget] at h
    | some found =>
        rw [closeHandle_eq hget] at h
        exact (Table.get?_erase_eq_some.mp h).2

theorem sound_dropHandle {σ : Type} [Machine σ] {world : World σ} {id : HandleId}
    {rest : List HandleId}
    (h : Desk.Sound ⟨world, ((id :: rest : List HandleId) : Multiset HandleId)⟩) (hlast : id ∉ rest) :
    Desk.Sound ⟨world.dropHandle id, (rest : Multiset HandleId)⟩ := by
  have herase : ((id :: rest : List HandleId) : Multiset HandleId).erase id = rest := by
    rw [Multiset.coe_erase, List.erase_cons_head]
  have hdrop : Move { first := 0 } ⟨world, ((id :: rest : List HandleId) : Multiset HandleId)⟩
      ⟨world.dropHandle id, ((id :: rest : List HandleId) : Multiset HandleId).erase id⟩ :=
    .drop (Multiset.mem_coe.mpr List.mem_cons_self) fun hmem => hlast (by simpa [herase] using hmem)
  rw [herase] at hdrop
  exact hdrop.sound h

/-- Handles of the region close alike, each when nobody holds it any more. -/
theorem Mirrors.dropHandles {region : Region} {numbers : Renumbering} {gap : Int}
    {a b : World (Traced Bench)} {lent : List (Device × FileId)} (h : Mirrors region numbers gap a b)
    (ha : a.Accord lent) (hb : b.Accord lent) {ids : List HandleId}
    (hfirst : Desk.Sound ⟨a, (ids : Multiset HandleId)⟩)
    (hsecond : Desk.Sound ⟨b, ((ids.map numbers.handle : List HandleId) : Multiset HandleId)⟩)
    (hhas : ∀ id ∈ ids, ∀ handle, a.handles.get? id = some handle → region.Has handle) :
    Mirrors region numbers gap (a.dropHandles ids) (b.dropHandles (ids.map numbers.handle)) := by
  induction ids generalizing a b with
  | nil => exact h
  | cons id rest ih =>
      have herase : ∀ (id : HandleId) (rest : List HandleId),
          ((id :: rest : List HandleId) : Multiset HandleId).erase id = rest := by
        intro id rest
        rw [Multiset.coe_erase, List.erase_cons_head]
      have hmem : numbers.handle id ∈ rest.map numbers.handle ↔ id ∈ rest := by
        rw [List.mem_map]
        exact ⟨fun ⟨key, hkey, heq⟩ => h.handles.injective heq ▸ hkey, fun hid => ⟨id, hid, rfl⟩⟩
      have hrest : ∀ key ∈ rest, ∀ handle, a.handles.get? key = some handle → region.Has handle :=
        fun key hkey => hhas key (List.mem_cons_of_mem _ hkey)
      rw [List.map_cons] at hsecond ⊢
      unfold World.dropHandles
      simp only [hmem]
      split
      · next hagain =>
        refine ih h ha hb (herase id rest ▸ hfirst.forget ?_)
          (herase _ (rest.map _) ▸ hsecond.forget ?_) hrest
        · rw [herase]
          exact Multiset.mem_coe.mpr hagain
        · rw [herase]
          exact Multiset.mem_coe.mpr (hmem.mpr hagain)
      · next hlast =>
        obtain ⟨handle, hget⟩ := hfirst.owned_open id (Multiset.mem_coe.mpr List.mem_cons_self)
        have hin := hhas id List.mem_cons_self handle hget
        have hgone : Deals False ⟨a, ∅⟩ ⟨a.dropHandle id, ∅⟩ := deals_dropHandle a id
        have halso : Deals False ⟨b, ∅⟩ ⟨b.dropHandle (numbers.handle id), ∅⟩ :=
          deals_dropHandle b (numbers.handle id)
        exact ih (h.dropHandle ha hb hfirst hsecond hget hin) (Deals.accord hgone ha)
          (Deals.accord halso hb) (sound_dropHandle hfirst hlast)
          (sound_dropHandle hsecond fun hother => hlast (hmem.mp hother))
          fun key hkey found hfound => hrest key hkey found (get?_of_dropHandle hfound)

end World

end GpioLines
