import GpioLines.Proofs.Framing
import GpioLines.Proofs.Operations
import GpioLines.Proofs.Taking

/-!
# What a simulated chip grants

A request for lines that a simulated chip has is refused for one of two reasons: the flags break a
rule, or somebody holds one of the lines. The rules come first. Requests for events are made line by
line, so the lines before the one that is held are granted already when the refusal comes; since no
grant touches any other line, it comes all the same. And only a request for outputs sets levels.
-/

namespace GpioLines

/-- Lines that are requested for events are not requested as outputs. -/
theorem RequestFlags.output_handleFlags_of_isEvent (flags : RequestFlags) {type : RequestType}
    (h : type.isEvent = true) : (flags.handleFlags type).output = false := by
  cases type <;> first | rfl | cases h

namespace Simulator

variable {sim : Simulator}

/-- Settings that the library lets pass are refused if they drive what is not an output, or if they
bias what has no direction. -/
theorem refuses_handleFlags {flags : RequestFlags} {type : RequestType}
    (hdrives : flags.settings.bothDrives = false) (hbiases : flags.settings.biasCount ≤ 1) :
    refuses (flags.handleFlags type) = false ↔
      (flags.settings.anyDrive = true → type = .output) ∧
        (0 < flags.settings.biasCount → type ≠ .asIs) := by
  have hcount : ¬ 1 < flags.settings.biasCount := Nat.not_lt.mpr hbiases
  cases type <;> simp [refuses, RequestFlags.handleFlags, hdrives, hcount]

theorem checkOffsets_of_offers {before offsets : List Offset} (h : sim.Offers offsets)
    (hnew : ∀ offset ∈ offsets, offset ∉ before) : sim.checkOffsets before offsets = .ok () := by
  induction offsets generalizing before with
  | nil => rfl
  | cons offset rest ih =>
      obtain ⟨line, hline, hfree⟩ := h.free offset List.mem_cons_self
      have hnodup := List.nodup_cons.mp h.nodup
      have hcan : ¬ (line.requested || before.contains offset) = true := by
        simpa [hfree] using hnew offset List.mem_cons_self
      simp only [checkOffsets, hline, if_neg hcan]
      refine ih ⟨hnodup.2, fun other hother => h.free other (List.mem_cons_of_mem _ hother)⟩ ?_
      intro other hother hmem
      rcases List.mem_append.mp hmem with hold | hsame
      · exact hnew other (List.mem_cons_of_mem _ hother) hold
      · exact hnodup.1 (List.mem_singleton.mp hsame ▸ hother)

/-- If all lines are there, only one that is held or repeated is in the way. -/
theorem checkOffsets_of_present {before offsets : List Offset}
    (hpresent : ∀ offset ∈ offsets, ∃ line, sim.line? offset = some line) :
    sim.checkOffsets before offsets = .ok () ∨ sim.checkOffsets before offsets = .error .busy := by
  induction offsets generalizing before with
  | nil => exact Or.inl rfl
  | cons offset rest ih =>
      obtain ⟨line, hline⟩ := hpresent offset List.mem_cons_self
      simp only [checkOffsets, hline]
      split
      · exact Or.inr rfl
      · exact ih fun other hother => hpresent other (List.mem_cons_of_mem _ hother)

end Simulator

namespace Bench

variable {bench after : Bench} {index : Nat} {sim : Simulator}

/-- Nobody holds the line of the simulated chip. -/
def Vacant (bench : Bench) (index : Nat) (offset : Offset) : Prop :=
  ∃ line, bench.line? index offset = some line ∧ line.requested = false

/-- The lines of a request on a simulated chip: some, not too many, all there, and none twice. -/
structure Asks (bench : Bench) (index : Nat) (offsets : List Offset) : Prop where
  nonempty : offsets ≠ []
  length_le : offsets.length ≤ maxLines
  nodup : offsets.Nodup
  present : ∀ offset ∈ offsets, ∃ line, bench.line? index offset = some line

theorem Asks.offers_iff {offsets : List Offset} (h : bench.Asks index offsets)
    (hsim : bench.simulators[index]? = some sim) :
    sim.Offers offsets ↔ ∀ offset ∈ offsets, bench.Vacant index offset := by
  simp only [Vacant, line?_of_eq hsim]
  exact ⟨fun hoffers => hoffers.free, fun hvacant => ⟨h.nodup, hvacant⟩⟩

theorem Asks.checkOffsets {offsets : List Offset} (h : bench.Asks index offsets)
    (hsim : bench.simulators[index]? = some sim) :
    (∀ offset ∈ offsets, bench.Vacant index offset) ∧ sim.checkOffsets [] offsets = .ok () ∨
      (¬ ∀ offset ∈ offsets, bench.Vacant index offset) ∧
        sim.checkOffsets [] offsets = .error .busy := by
  rw [← h.offers_iff hsim]
  have hpresent : ∀ offset ∈ offsets, ∃ line, sim.line? offset = some line := by
    intro offset hoffset
    obtain ⟨line, hline⟩ := h.present offset hoffset
    exact ⟨line, (line?_of_eq hsim offset).symm.trans hline⟩
  by_cases hoffers : sim.Offers offsets
  · exact Or.inl ⟨hoffers, Simulator.checkOffsets_of_offers hoffers fun _ _ => List.not_mem_nil⟩
  · refine Or.inr ⟨hoffers, (Simulator.checkOffsets_of_present hpresent).resolve_left fun hok => ?_⟩
    exact hoffers (Simulator.offers_of_checkOffsets hok).1

theorem perform_simulator_fst (hsim : bench.simulators[index]? = some sim) (call : Call) :
    (perform (.simulator index) call bench).1 = (sim.perform bench.files.next call).1 := by
  simp only [perform, performSimulator, hsim]

/-! ### Requests for values -/

theorem requestLines_invalid (hsim : bench.simulators[index]? = some sim) {request : LinesRequest}
    (hrules : Simulator.refuses request.flags = true) :
    (perform (.simulator index) (.requestLines request) bench).1 =
      .error (.call .requestLines .invalid) := by
  rw [perform_simulator_fst hsim]
  simp only [Simulator.perform, Simulator.requestLines, hrules, if_true]
  split <;> rfl

/-- Flags that obey the rules leave the lines to decide. -/
theorem requestLines_decided (hsim : bench.simulators[index]? = some sim) {request : LinesRequest}
    (hrules : Simulator.refuses request.flags = false) (hasks : bench.Asks index request.offsets) :
    (∀ offset ∈ request.offsets, bench.Vacant index offset) ∧
        (perform (.simulator index) (.requestLines request) bench).1 = .ok bench.files.next ∨
      (¬ ∀ offset ∈ request.offsets, bench.Vacant index offset) ∧
        (perform (.simulator index) (.requestLines request) bench).1 =
          .error (.call .requestLines .busy) := by
  have hcan : ¬ (request.offsets.isEmpty ||
      decide (maxLines < request.offsets.length)) = true := by
    simp [hasks.nonempty, hasks.length_le]
  rw [perform_simulator_fst hsim]
  simp only [Simulator.perform, Simulator.requestLines, if_neg hcan, hrules, Bool.false_eq_true,
    if_false]
  rcases hasks.checkOffsets hsim with ⟨hvacant, hcheck⟩ | ⟨hheld, hcheck⟩
  · exact Or.inl ⟨hvacant, by rw [hcheck]; rfl⟩
  · exact Or.inr ⟨hheld, by rw [hcheck]; rfl⟩

/-! ### Requests for events -/

theorem requestEvent_invalid (hsim : bench.simulators[index]? = some sim) {request : EventRequest}
    (hrules : Simulator.refuses request.flags = true) :
    (perform (.simulator index) (.requestEvent request) bench).1 =
      .error (.call .requestEvent .invalid) := by
  rw [perform_simulator_fst hsim]
  simp only [Simulator.perform, Simulator.requestEvent, hrules, Bool.or_true, if_true]
  rfl

theorem requestEvent_decided (hsim : bench.simulators[index]? = some sim) {request : EventRequest}
    (houtput : request.flags.output = false) (hrules : Simulator.refuses request.flags = false)
    (hpresent : ∃ line, bench.line? index request.offset = some line) :
    bench.Vacant index request.offset ∧
        (perform (.simulator index) (.requestEvent request) bench).1 = .ok bench.files.next ∨
      ¬ bench.Vacant index request.offset ∧
        (perform (.simulator index) (.requestEvent request) bench).1 =
          .error (.call .requestEvent .busy) := by
  have hasks : bench.Asks index [request.offset] :=
    ⟨List.cons_ne_nil _ _, (by decide : 1 ≤ maxLines), List.nodup_singleton _, by simpa⟩
  rw [perform_simulator_fst hsim]
  simp only [Simulator.perform, Simulator.requestEvent, houtput, hrules, Bool.or_false,
    Bool.false_eq_true, if_false]
  have hsame : (∀ offset ∈ [request.offset], bench.Vacant index offset) ↔
      bench.Vacant index request.offset := List.forall_mem_singleton
  rcases hasks.checkOffsets hsim with ⟨hvacant, hcheck⟩ | ⟨hheld, hcheck⟩
  · exact Or.inl ⟨hsame.mp hvacant, by rw [hcheck]; rfl⟩
  · exact Or.inr ⟨mt hsame.mpr hheld, by rw [hcheck]; rfl⟩

/-! ### Levels -/

/-- The physical level of a line of a simulated chip, if the line is there. -/
def level? (bench : Bench) (index : Nat) (offset : Offset) : Option Bool :=
  (bench.line? index offset).map (·.level)

theorem level?_of_simulators_eq (h : after.simulators = bench.simulators) :
    after.level? = bench.level? := by
  funext index offset
  rw [level?, level?, line?_eq_of_simulators_eq h]

/-- To be requested for events does not change the level of a line. -/
theorem Exclusive.level?_requestEvent (h : bench.Exclusive) {device : Device} {request : EventRequest}
    {outcome : Outcome (.requestEvent request)}
    (hperform : Bench.perform device (.requestEvent request) bench = (outcome, after)) :
    after.level? = bench.level? := by
  cases outcome with
  | error error => exact level?_of_simulators_eq (simulators_asked hperform (Or.inr ⟨error, rfl⟩))
  | ok file =>
      funext index offset
      by_cases hreached : device.simulator? = some index ∧ offset = request.offset
      · obtain ⟨hindex, rfl⟩ := hreached
        obtain ⟨-, line, hline, hafter⟩ := line?_requestEvent hperform hindex
        rw [level?, level?, hline, hafter]
        rfl
      · have hkept : after.line? index offset = bench.line? index offset := by
          refine h.line?_perform hperform ?_
          intro hindex _ _ _ _ _ hmem
          exact hreached ⟨hindex, List.mem_singleton.mp hmem⟩
        rw [level?, level?, hkept]

section Values

variable {device : Device} {request : LinesRequest} {file : FileId}
  (hperform : Bench.perform device (.requestLines request) bench = (.ok file, after))
  (hlength : request.values.length = request.offsets.length)

include hperform hlength

/-- The outputs of a request are driven to its values, seen as its flags say. -/
theorem level?_of_driven (hindex : device.simulator? = some index)
    (houtput : request.flags.output = true) {position : Nat} {offset : Offset} {value : UInt8}
    (hoffset : request.offsets[position]? = some offset)
    (hvalue : request.values[position]? = some value) :
    after.level? index offset = some (isActive value ^^ request.flags.settings.activeLow) := by
  obtain ⟨-, line, -, hafter⟩ := line?_requestLines hperform hindex hlength hoffset hvalue
  rw [level?, hafter, Option.map_some, SimLine.configure, if_pos houtput]
  rfl

theorem Exclusive.level?_of_not_driven (h : bench.Exclusive) {offset : Offset}
    (hkept : device.simulator? = some index → offset ∈ request.offsets →
      request.flags.output = false) : after.level? index offset = bench.level? index offset := by
  by_cases hreached : device.simulator? = some index ∧ offset ∈ request.offsets
  · obtain ⟨hindex, hmem⟩ := hreached
    obtain ⟨position, hposition⟩ := List.mem_iff_getElem?.mp hmem
    have hlt := (List.getElem?_eq_some_iff.mp hposition).1
    obtain ⟨-, line, hline, hafter⟩ := line?_requestLines hperform hindex hlength hposition
      (List.getElem?_eq_getElem (hlength ▸ hlt))
    have hinput : ¬ request.flags.output = true := by simp [hkept hindex hmem]
    rw [level?, level?, hline, hafter, Option.map_some, SimLine.configure, if_neg hinput]
    rfl
  · have hsame : after.line? index offset = bench.line? index offset := by
      refine h.line?_perform hperform ?_
      intro hindex _ _ _ _ _ hmem
      exact hreached ⟨hindex, hmem⟩
    rw [level?, level?, hsame]

end Values

end Bench

/-! ### Line by line -/

namespace World

variable {world : World (Traced Bench)} {index : Nat} {config : RequestConfig}

/-- The grants of one line leave the others of the request as they were. -/
theorem acquireEvents_decided (h : world.bench.Exclusive) {sim : Simulator}
    (hsim : world.bench.simulators[index]? = some sim)
    (houtput : (config.flags.handleFlags config.type).output = false)
    (hrules : Simulator.refuses (config.flags.handleFlags config.type) = false)
    {lines : List Line} (hnodup : (lines.map (·.offset)).Nodup)
    (hpresent : ∀ line ∈ lines, ∃ found, world.bench.line? index line.offset = some found)
    (granted : List HandleId) :
    (∀ line ∈ lines, world.bench.Vacant index line.offset) ∧
        (world.acquireEvents (.simulator index) config granted lines).1.1 = none ∨
      (¬ ∀ line ∈ lines, world.bench.Vacant index line.offset) ∧ ∃ line,
        (world.acquireEvents (.simulator index) config granted lines).1.1 =
          some (line, .call .requestEvent .busy) := by
  induction lines generalizing world sim granted with
  | nil => exact Or.inl ⟨nofun, rfl⟩
  | cons line rest ih =>
      rw [List.map_cons, List.nodup_cons] at hnodup
      rcases hperform : world.perform (.simulator index) (.requestEvent (eventRequest config line))
        with ⟨outcome, after⟩
      have hdecided := @Bench.requestEvent_decided _ _ _ hsim (eventRequest config line) houtput
        hrules (hpresent line List.mem_cons_self)
      obtain ⟨bench, hbench, rfl⟩ := perform_bench hperform
      rw [hbench] at hdecided
      rcases hdecided with ⟨hvacant, rfl⟩ | ⟨hheld, rfl⟩
      · rw [acquireEvents_granted hperform]
        generalize hopened : World.openHandle _ _ = opened
        have hmachine : opened.bench = bench := by rw [← hopened]; rfl
        have hexclusive : opened.bench.Exclusive := hmachine ▸ h.perform hbench
        obtain ⟨-, -, changed, -, -, hchanged⟩ := Bench.answered_ok hbench rfl
        rw [← hmachine] at hchanged
        -- the grant of the first line does not reach the others
        have hline : ∀ other ∈ rest,
            opened.bench.line? index other.offset = world.bench.line? index other.offset := by
          intro other hother
          rw [hmachine]
          refine h.line?_perform hbench ?_
          intro _ _ _ _ _ _ hmem
          have hsame : other.offset = line.offset := List.mem_singleton.mp hmem
          exact hnodup.1 (hsame ▸ List.mem_map_of_mem hother)
        have hvacancies : (∀ other ∈ rest, opened.bench.Vacant index other.offset) ↔
            ∀ other ∈ rest, world.bench.Vacant index other.offset := by
          refine forall₂_congr fun other hother => ?_
          rw [Bench.Vacant, Bench.Vacant, hline other hother]
        have hthere : ∀ other ∈ rest,
            ∃ found, opened.bench.line? index other.offset = some found := by
          intro other hother
          rw [hline other hother]
          exact hpresent other (List.mem_cons_of_mem _ hother)
        have hboth : (∀ other ∈ line :: rest, world.bench.Vacant index other.offset) ↔
            ∀ other ∈ rest, opened.bench.Vacant index other.offset := by
          rw [hvacancies, List.forall_mem_cons]
          exact and_iff_right hvacant
        rw [hboth]
        exact ih hexclusive hchanged hnodup.2 hthere _
      · rw [acquireEvents_refused hperform]
        exact Or.inr ⟨fun hall => hheld (hall line List.mem_cons_self), line, rfl⟩

theorem level?_acquireEvents (h : world.bench.Exclusive) (device : Device) (granted : List HandleId)
    (lines : List Line) :
    (world.acquireEvents device config granted lines).2.bench.level? = world.bench.level? := by
  induction lines generalizing world granted with
  | nil => rfl
  | cons line rest ih =>
      rcases hperform : world.perform device (.requestEvent (eventRequest config line))
        with ⟨error | file, after⟩
      · rw [acquireEvents_refused hperform]
        obtain ⟨bench, hbench, rfl⟩ := perform_bench hperform
        exact h.level?_requestEvent hbench
      · rw [acquireEvents_granted hperform]
        obtain ⟨bench, hbench, rfl⟩ := perform_bench hperform
        have hexclusive : bench.Exclusive := h.perform hbench
        exact (ih hexclusive _).trans (h.level?_requestEvent hbench)

end World

end GpioLines
