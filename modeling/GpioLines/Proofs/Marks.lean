import GpioLines.Proofs.Workshop

/-!
# The marks of a line

Who holds a line of a simulated chip is told by three fields of it. Only three things write them: a
request that is granted, the release of what it was granted, and a hog from outside, which looks at
nothing. Everything else that happens on a bench leaves them as they are, whatever it does to levels,
settings and names.
-/

namespace GpioLines

/-- What tells who holds a line. -/
structure Marks where
  requested : Bool
  used : Bool
  consumer : Option String
deriving DecidableEq, Repr

/-- The lines that a call asks to hold. -/
def Call.wants : Call → List Offset
  | .requestLines request => request.offsets
  | .requestEvent request => [request.offset]
  | _ => []

theorem Call.offsets_of_mem_grants {file : FileId} {call : Call} {grant : Grant}
    (h : grant ∈ call.grants file) : grant.offsets = call.wants := by
  cases call with
  | requestLines | requestEvent => rw [List.mem_singleton.mp h, Call.wants]
  | _ => cases h

namespace SimLine

def marks (line : SimLine) : Marks := ⟨line.requested, line.flags.used, line.consumer⟩

theorem marks_applyFlags (line : SimLine) (flags : HandleFlags) :
    (line.applyFlags flags).marks = line.marks := rfl

theorem marks_drive (line : SimLine) (active : Bool) : (line.drive active).marks = line.marks := rfl

theorem marks_configure (line : SimLine) (flags : HandleFlags) (value : UInt8) :
    (line.configure flags value).marks = line.marks := by
  simp only [configure]
  split <;> rfl

end SimLine

/-- The control marks this line. -/
def Control.Hogs (offset : Offset) : Control → Prop
  | .hog hogged _ => hogged = offset
  | _ => False

namespace Simulator

variable {sim after : Simulator} {offset : Offset}

def marks? (sim : Simulator) (offset : Offset) : Option Marks := (sim.line? offset).map SimLine.marks

theorem marks?_modifyLine {f : SimLine → SimLine} (hf : ∀ line : SimLine, (f line).marks = line.marks)
    (other : Offset) : (sim.modifyLine other f).marks? offset = sim.marks? offset := by
  rw [marks?, marks?, line?_modifyLine]
  split
  · rw [Option.map_map]
    exact Option.map_congr fun line _ => hf line
  · rfl

theorem marks?_modifyAll {updates : List (Offset × (SimLine → SimLine))}
    (hf : ∀ update ∈ updates, ∀ line : SimLine, (update.2 line).marks = line.marks) :
    (sim.modifyAll updates).marks? offset = sim.marks? offset := by
  induction updates generalizing sim with
  | nil => rfl
  | cons update rest ih =>
      rw [modifyAll_cons, ih fun other hother => hf other (List.mem_cons_of_mem _ hother)]
      exact marks?_modifyLine (hf update List.mem_cons_self) update.1

/-- What is held is not granted. -/
theorem not_mem_wants {fresh : FileId} {call : Call} {reply : call.Reply}
    (h : sim.perform fresh call = (.ok reply, after)) {marks : Marks}
    (hmarks : sim.marks? offset = some marks) (hheld : marks.requested = true) :
    offset ∉ call.wants := by
  have hnot : ∀ offsets, sim.Offers offsets → offset ∉ offsets := by
    intro offsets hoffers hmem
    obtain ⟨line, hline, hfree⟩ := hoffers.free offset hmem
    rw [marks?, hline] at hmarks
    obtain rfl := Option.some.inj hmarks
    exact absurd (hfree.symm.trans hheld) Bool.false_ne_true
  cases call with
  | requestLines request =>
      obtain ⟨-, hgranted⟩ := settle_eq_ok.mp h
      exact hnot _ (requestLines_eq_ok hgranted).1
  | requestEvent request =>
      obtain ⟨-, hgranted⟩ := settle_eq_ok.mp h
      exact hnot _ (requestEvent_eq_ok hgranted).1
  | chipInfo | lineInfo | getValues | setValues | setConfig => exact List.not_mem_nil

/-- A call marks the lines that it is granted, and no others. -/
theorem Exclusive.marks?_perform (hsim : sim.Exclusive) {fresh : FileId} {call : Call}
    {reply : call.Reply} (h : sim.perform fresh call = (.ok reply, after))
    (hout : offset ∉ call.wants) : after.marks? offset = sim.marks? offset := by
  have hreach : offset ∉ sim.reach call → after.marks? offset = sim.marks? offset := by
    intro hnot
    have hline : (sim.perform fresh call).2.line? offset = sim.line? offset := hsim.line?_perform hnot
    rw [h] at hline
    exact congrArg (Option.map SimLine.marks) hline
  cases call with
  | chipInfo | lineInfo | getValues | requestLines | requestEvent => exact hreach hout
  | setValues file values =>
      obtain ⟨-, hset⟩ := settle_eq_ok.mp h
      obtain ⟨grant, -, -, -, -, rfl⟩ := setValues_eq_ok hset
      refine marks?_modifyAll fun update hupdate line => ?_
      obtain ⟨entry, -, rfl⟩ := List.mem_map.mp hupdate
      exact line.marks_drive _
  | setConfig file flags values =>
      obtain ⟨-, hset⟩ := settle_eq_ok.mp h
      obtain ⟨-, grant, -, -, -, rfl⟩ := setConfig_eq_ok hset
      refine marks?_modifyAll fun update hupdate line => ?_
      obtain ⟨entry, -, rfl⟩ := List.mem_map.mp hupdate
      exact line.marks_configure _ _

/-- The end of another grant leaves the marks of a line. -/
theorem Exclusive.marks?_release (hsim : sim.Exclusive) {file : FileId}
    (hout : ∀ grant ∈ sim.grants, grant.file = file → offset ∉ grant.offsets) :
    (sim.release file).marks? offset = sim.marks? offset :=
  congrArg (Option.map SimLine.marks) (hsim.line?_release file hout)

theorem marks?_control {control : Control} (hspares : ¬ control.Hogs offset) :
    (control.apply sim).marks? offset = sim.marks? offset := by
  cases control with
  | failInfo => rfl
  | setName named name =>
      have hkept : ∀ line : SimLine, { line with name := some name : SimLine }.marks = line.marks :=
        fun _ => rfl
      exact marks?_modifyLine hkept named
  | failInfoAt failing fails =>
      have hkept : ∀ line : SimLine, { line with infoFails := fails : SimLine }.marks = line.marks :=
        fun _ => rfl
      exact marks?_modifyLine hkept failing
  | hog hogged consumer =>
      have hne : ¬ offset = hogged := fun heq => hspares heq.symm
      rw [Control.apply, hog, marks?, line?_modifyLine, if_neg hne, marks?]

theorem marks?_hog (sim : Simulator) (offset : Offset) (consumer : String) :
    (sim.hog offset consumer).marks? offset =
      (sim.marks? offset).map fun _ => ⟨true, true, some consumer⟩ := by
  rw [marks?, hog, line?_modifyLine, if_pos rfl, Option.map_map, marks?, Option.map_map]
  rfl

theorem marks?_setLevel (sim : Simulator) (driven : Offset) (level : Bool) :
    (sim.setLevel driven level).2.marks? offset = sim.marks? offset := by
  have hkept : ∀ line : SimLine, { line with level : SimLine }.marks = line.marks := fun _ => rfl
  obtain ⟨clock, heq | heq⟩ := sim.setLevel_eq driven level
  · rw [heq]
    exact marks?_modifyLine hkept driven
  · rw [heq]

end Simulator

/-! ### On a bench -/

namespace Bench

variable {bench after : Bench} {index : Nat} {offset : Offset}

/-- The marks of a line of a simulated chip, if the line is there. -/
def marks? (bench : Bench) (index : Nat) (offset : Offset) : Option Marks :=
  (bench.line? index offset).map SimLine.marks

theorem marks?_eq_bind (bench : Bench) (index : Nat) (offset : Offset) :
    bench.marks? index offset =
      ((bench.simulators[index]?).map (·.marks? offset)).bind id := by
  rw [marks?, line?, Option.map_bind, Option.bind_map]
  rfl

theorem marks?_of_eq {sim : Simulator} (h : bench.simulators[index]? = some sim) (offset : Offset) :
    bench.marks? index offset = sim.marks? offset := by
  rw [marks?_eq_bind, h]
  rfl

theorem marks?_of_line? (h : after.line? index offset = bench.line? index offset) :
    after.marks? index offset = bench.marks? index offset := by
  rw [marks?, marks?, h]

theorem marks?_of_simulators (h : after.simulators = bench.simulators) :
    after.marks? index offset = bench.marks? index offset :=
  marks?_of_line? (by rw [line?_eq_of_simulators_eq h])

/-- One chip changes, and leaves the marks of the line if it is the chip of the line. -/
theorem marks?_of_modify {chip : Nat} {f : Simulator → Simulator}
    (hafter : ∀ other : Nat, after.simulators[other]? =
      if other = chip then (bench.simulators[other]?).map f else bench.simulators[other]?)
    (hf : chip = index → ∀ sim : Simulator, (f sim).marks? offset = sim.marks? offset) :
    after.marks? index offset = bench.marks? index offset := by
  rw [marks?_eq_bind, marks?_eq_bind, map_simulators_of_modify hafter hf]

theorem marks?_control {chip : Nat} {control : Control}
    (hspares : chip = index → ¬ control.Hogs offset) :
    (bench.modifySimulator chip control.apply).marks? index offset = bench.marks? index offset :=
  marks?_of_modify (bench.simulators_modifySimulator chip control.apply) fun hchip _ =>
    Simulator.marks?_control (hspares hchip)

theorem marks?_setLevel (bench : Bench) (chip : Nat) (driven : Offset) (level : UInt8) :
    (bench.setLevel chip driven level).2.marks? index offset = bench.marks? index offset :=
  marks?_of_modify (bench.simulators_setLevel chip driven level) fun _ sim =>
    sim.marks?_setLevel driven (isActive level)

theorem marks?_addSimulator {line : SimLine} (hline : bench.line? index offset = some line)
    (name : String) (lineCount : UInt32) :
    (bench.addSimulator name lineCount).2.marks? index offset = bench.marks? index offset := by
  obtain ⟨sim, hsim, -⟩ := Option.bind_eq_some_iff.mp hline
  have hlt := (List.getElem?_eq_some_iff.mp hsim).1
  have hkept : (bench.addSimulator name lineCount).2.simulators[index]? = some sim :=
    (List.getElem?_append_left hlt).trans hsim
  rw [marks?_of_eq hkept, marks?_of_eq hsim]

/-- A call marks no line of a simulated chip but those that it is granted. -/
theorem Exclusive.marks?_perform (h : bench.Exclusive) {device : Device} {call : Call}
    {outcome : Outcome call} (hperform : Bench.perform device call bench = (outcome, after))
    (hout : device.simulator? = some index → offset ∉ call.wants) :
    after.marks? index offset = bench.marks? index offset := by
  rcases perform_cases hperform with hpassed | ⟨reply, found, rfl, hgranted⟩
  · exact marks?_of_simulators hpassed.simulators
  · obtain ⟨sim, given, changed, hsim, hcall, -, hafter⟩ := hgranted.answered
    by_cases heq : index = found
    · subst heq
      have hchanged : after.simulators[index]? = some changed := (hafter index).trans (if_pos rfl)
      rw [marks?_of_eq hchanged, marks?_of_eq hsim]
      exact (h.simulators index sim hsim).marks?_perform hcall (hout hgranted.beneath)
    · exact marks?_of_line? (by rw [line?, line?, hafter, if_neg heq])

end Bench

end GpioLines
