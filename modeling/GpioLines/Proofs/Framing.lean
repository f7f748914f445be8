import GpioLines.Proofs.Accord

/-!
# What a call reaches

A call changes lines of the request it makes, or of the request that its file is for, and no others.
So whoever has a request can rely on its lines, whatever goes on with other requests of the same
chip: their lines are out of reach (`line?_perform_of_grant`, `line?_releaseAt_of_grant`).
-/

namespace GpioLines

/-- The open file that a call is about. -/
def Call.file? : Call → Option FileId
  | .getValues file _ | .setValues file _ | .setConfig file .. => some file
  | _ => none

/-- A call that only asks. -/
def Call.Asks : Call → Prop
  | .chipInfo | .lineInfo _ | .getValues .. => True
  | _ => False

theorem Call.Quiet.asks {call : Call} {outcome : Outcome call} (h : call.Quiet outcome) :
    call.Asks ∨ ∃ error, outcome = .error error := by
  cases call with
  | chipInfo | lineInfo | getValues => exact Or.inl trivial
  | requestLines | requestEvent | setValues | setConfig => exact Or.inr h

namespace Simulator

variable {sim after : Simulator}

/-- The lines that a call may change. -/
def reach (sim : Simulator) : Call → List Offset
  | .requestLines request => request.offsets
  | .requestEvent request => [request.offset]
  | .setValues file _ | .setConfig file .. => (sim.grant? file).elim [] (·.offsets)
  | .chipInfo | .lineInfo _ | .getValues .. => []

theorem perform_asks (sim : Simulator) (fresh : FileId) {call : Call} (h : call.Asks) :
    (sim.perform fresh call).2 = sim := by
  cases call with
  | chipInfo | lineInfo | getValues => rfl
  | requestLines | requestEvent | setValues | setConfig => cases h

namespace Exclusive

theorem line?_perform (h : sim.Exclusive) {fresh : FileId} {call : Call} {offset : Offset}
    (hout : offset ∉ sim.reach call) :
    (sim.perform fresh call).2.line? offset = sim.line? offset := by
  rcases hperform : sim.perform fresh call with ⟨error | reply, after⟩
  · rw [perform_refused hperform]
  have hreach : ∀ grant ∈ sim.grants, (sim.grant? grant.file).elim [] (·.offsets) = grant.offsets :=
    fun grant hgrant => by rw [h.grant?_eq hgrant, Option.elim_some]
  cases call with
  | chipInfo | lineInfo | getValues => exact congrArg (line? · offset) (Prod.mk.inj hperform).2.symm
  | requestLines request =>
      obtain ⟨-, hgranted⟩ := settle_eq_ok.mp hperform
      obtain ⟨-, -, rfl⟩ := requestLines_eq_ok hgranted
      refine (line?_modifyAll_of_not_mem ?_).trans (line?_modifyAll_of_not_mem ?_)
      · rwa [map_fst_configures]
      · rwa [map_fst_takes]
  | requestEvent request =>
      obtain ⟨-, hgranted⟩ := settle_eq_ok.mp hperform
      obtain ⟨-, -, rfl⟩ := requestEvent_eq_ok hgranted
      refine (line?_modifyAll_of_not_mem ?_).trans (line?_modifyAll_of_not_mem ?_)
      · exact hout
      · rwa [map_fst_takes]
  | setValues file values =>
      obtain ⟨-, hset⟩ := settle_eq_ok.mp hperform
      obtain ⟨grant, hgrant, rfl, -, -, rfl⟩ := setValues_eq_ok hset
      rw [reach, hreach grant hgrant] at hout
      exact line?_modifyAll_of_not_mem fun hmem => hout ((map_fst_drives_sublist ..).subset hmem)
  | setConfig file flags values =>
      obtain ⟨-, hset⟩ := settle_eq_ok.mp hperform
      obtain ⟨-, grant, hgrant, rfl, -, rfl⟩ := setConfig_eq_ok hset
      rw [reach, hreach grant hgrant] at hout
      apply line?_modifyAll_of_not_mem
      rwa [map_fst_configures]

/-- A call through another file, or through none, does not reach the lines of a grant. -/
theorem not_mem_reach (h : sim.Exclusive) {fresh : FileId} {call : Call} {reply : call.Reply}
    (hperform : sim.perform fresh call = (.ok reply, after)) {grant : Grant}
    (hgrant : grant ∈ sim.grants) (hother : call.file? ≠ some grant.file) {offset : Offset}
    (hmem : offset ∈ grant.offsets) : offset ∉ sim.reach call := by
  have happly : ∀ file, file ≠ grant.file → offset ∉ (sim.grant? file).elim [] (·.offsets) := by
    intro file hfile
    cases hfound : sim.grant? file with
    | none => exact List.not_mem_nil
    | some found =>
        rw [Option.elim_some]
        intro hheld
        obtain rfl := h.grant_eq (List.mem_of_find?_eq_some hfound) hgrant hheld hmem
        have hsame : found.file = file := by simpa using List.find?_some hfound
        exact hfile hsame.symm
  cases call with
  | chipInfo | lineInfo | getValues => exact List.not_mem_nil
  | requestLines request =>
      obtain ⟨-, hgranted⟩ := settle_eq_ok.mp hperform
      exact fun hasked => h.not_mem_of_offers (requestLines_eq_ok hgranted).1 hasked hgrant hmem
  | requestEvent request =>
      obtain ⟨-, hgranted⟩ := settle_eq_ok.mp hperform
      exact fun hasked => h.not_mem_of_offers (requestEvent_eq_ok hgranted).1 hasked hgrant hmem
  | setValues file values => exact happly file fun heq => hother (congrArg some heq)
  | setConfig file flags values => exact happly file fun heq => hother (congrArg some heq)

theorem line?_release (h : sim.Exclusive) (file : FileId) {offset : Offset}
    (hout : ∀ grant ∈ sim.grants, grant.file = file → offset ∉ grant.offsets) :
    (sim.release file).line? offset = sim.line? offset := by
  rcases sim.release_eq file with ⟨-, heq⟩ | ⟨grant, hgrant, hfile, -, heq⟩
  · rw [heq]
  · rw [heq]
    exact (line?_frees (h.nodup hgrant) offset).trans (if_neg (hout grant hgrant hfile))

end Exclusive

/-! ### Lines in reach -/

theorem line?_configures {offsets : List Offset} (hnodup : offsets.Nodup) {values : List UInt8}
    (hlength : values.length = offsets.length) (flags : HandleFlags) {position : Nat}
    {offset : Offset} {value : UInt8} (hoffset : offsets[position]? = some offset)
    (hvalue : values[position]? = some value) :
    (sim.modifyAll (configures offsets flags values)).line? offset =
      (sim.line? offset).map (·.configure flags value) := by
  apply line?_modifyAll
  · rwa [map_fst_configures]
  · rw [configures, Bytes.fit_of_length hlength]
    refine List.mem_map.mpr ⟨(offset, value), List.mem_of_getElem? (i := position) ?_, rfl⟩
    rw [List.getElem?_zip_eq_some]
    exact ⟨hoffset, hvalue⟩

theorem line?_drives {offsets : List Offset} (hnodup : offsets.Nodup) {values : List UInt8}
    {position : Nat} {offset : Offset} {value : UInt8} (hoffset : offsets[position]? = some offset)
    (hvalue : values[position]? = some value) :
    (sim.modifyAll (drives offsets values)).line? offset =
      (sim.line? offset).map (·.drive (isActive value)) := by
  apply line?_modifyAll
  · exact hnodup.sublist (map_fst_drives_sublist offsets values)
  · refine List.mem_map.mpr ⟨(offset, value), List.mem_of_getElem? (i := position) ?_, rfl⟩
    rw [List.getElem?_zip_eq_some]
    exact ⟨hoffset, hvalue⟩

end Simulator

namespace Bench

variable {bench after : Bench}

/-- A call that only asks, or that was refused, leaves the simulated chips as they were. -/
theorem simulators_asked {device : Device} {call : Call} {outcome : Outcome call}
    (h : perform device call bench = (outcome, after))
    (hasks : call.Asks ∨ ∃ error, outcome = .error error) : after.simulators = bench.simulators := by
  rcases perform_cases h with hpassed | ⟨reply, index, rfl, hgranted⟩
  · exact hpassed.simulators
  · obtain ⟨sim, given, changed, hsim, hperform, -, hafter⟩ := hgranted.answered
    have hcall : call.Asks := hasks.resolve_right nofun
    obtain rfl : changed = sim := by
      rw [← sim.perform_asks bench.files.next hcall, hperform]
    refine List.ext_getElem? fun other => ?_
    rw [hafter]
    split
    · next heq => rw [heq, hsim]
    · rfl

theorem line?_eq_of_simulators_eq (h : after.simulators = bench.simulators) :
    after.line? = bench.line? := by
  funext index offset
  rw [line?, line?, h]

theorem line?_of_eq {index : Nat} {sim : Simulator} (h : bench.simulators[index]? = some sim)
    (offset : Offset) : bench.line? index offset = sim.line? offset := by
  rw [line?, h, Option.bind_some]

namespace Exclusive

theorem line?_perform (h : bench.Exclusive) {device : Device} {call : Call} {outcome : Outcome call}
    (hperform : Bench.perform device call bench = (outcome, after)) {index : Nat} {offset : Offset}
    (hout : device.simulator? = some index → ∀ sim : Simulator,
      bench.simulators[index]? = some sim → ∀ given changed,
      sim.perform bench.files.next call = (.ok given, changed) → offset ∉ sim.reach call) :
    after.line? index offset = bench.line? index offset := by
  rcases perform_cases hperform with hpassed | ⟨reply, found, rfl, hgranted⟩
  · rw [line?_eq_of_simulators_eq hpassed.simulators]
  · obtain ⟨sim, given, changed, hsim, hcall, -, hafter⟩ := hgranted.answered
    by_cases heq : index = found
    · subst heq
      have hsame : after.simulators[index]? = some changed := (hafter index).trans (if_pos rfl)
      rw [line?_of_eq hsame, line?_of_eq hsim]
      have hkept : (sim.perform bench.files.next call).2.line? offset = sim.line? offset :=
        (h.simulators index sim hsim).line?_perform
          (hout hgranted.beneath sim hsim given changed hcall)
      rwa [hcall] at hkept
    · rw [line?, line?, hafter, if_neg heq]

/-- A call through another file, or through none, leaves the lines of a grant alone. -/
theorem line?_perform_of_grant (h : bench.Exclusive) {device : Device} {call : Call}
    {outcome : Outcome call} (hperform : Bench.perform device call bench = (outcome, after))
    {index : Nat} {grant : Grant} (hgrant : grant ∈ bench.grants index)
    (hother : device.simulator? = some index → call.file? ≠ some grant.file) {offset : Offset}
    (hmem : offset ∈ grant.offsets) : after.line? index offset = bench.line? index offset := by
  refine h.line?_perform hperform fun hindex sim hsim given changed hcall => ?_
  rw [grants_of_eq hsim] at hgrant
  exact (h.simulators index sim hsim).not_mem_reach hcall hgrant (hother hindex) hmem

theorem line?_releaseAt (h : bench.Exclusive) (device : Device) (file : FileId) {index : Nat}
    {offset : Offset} (hout : device.simulator? = some index →
      ∀ grant ∈ bench.grants index, grant.file = file → offset ∉ grant.offsets) :
    (Bench.releaseAt device file bench).line? index offset = bench.line? index offset := by
  rw [line?, line?, simulators_releaseAt]
  split
  · next hindex =>
    cases hsim : bench.simulators[index]? with
    | none => rfl
    | some sim =>
        have hgrants := hout hindex
        rw [grants_of_eq hsim] at hgrants
        exact (h.simulators index sim hsim).line?_release file hgrants
  · rfl

/-- The release of a file frees the lines of its grant. -/
theorem line?_releaseAt_of_mem (h : bench.Exclusive) {device : Device} {index : Nat}
    (hindex : device.simulator? = some index) {grant : Grant} (hgrant : grant ∈ bench.grants index)
    {offset : Offset} (hmem : offset ∈ grant.offsets) :
    (Bench.releaseAt device grant.file bench).line? index offset =
      (bench.line? index offset).map SimLine.free := by
  obtain ⟨sim, hsim, hlent⟩ := mem_grants.mp hgrant
  have hexclusive := h.simulators index sim hsim
  rw [line?, simulators_releaseAt, if_pos hindex, hsim, line?_of_eq hsim]
  rcases sim.release_eq grant.file with ⟨hnone, -⟩ | ⟨found, hfound, hsame, -, heq⟩
  · rw [hexclusive.grant?_eq hlent] at hnone
    cases hnone
  · obtain rfl := hexclusive.grant_eq_of_file hfound hlent hsame
    refine (congrArg (Simulator.line? · offset) heq).trans ?_
    exact (Simulator.line?_frees (hexclusive.nodup hlent) offset).trans (if_pos hmem)

/-- The release of another file leaves the lines of a grant alone. -/
theorem line?_releaseAt_of_grant (h : bench.Exclusive) {device : Device} {file : FileId}
    {index : Nat} {grant : Grant} (hgrant : grant ∈ bench.grants index)
    (hother : device.simulator? = some index → grant.file ≠ file) {offset : Offset}
    (hmem : offset ∈ grant.offsets) :
    (Bench.releaseAt device file bench).line? index offset = bench.line? index offset := by
  refine h.line?_releaseAt device file fun hindex found hfound hfile hheld => ?_
  obtain ⟨sim, hsim, hgrant⟩ := mem_grants.mp hgrant
  rw [grants_of_eq hsim] at hfound
  obtain rfl := (h.simulators index sim hsim).grant_eq hfound hgrant hheld hmem
  exact hother hindex hfile

end Exclusive

/-! ### Lines in reach of a request -/

theorem answered_ok {device : Device} {call : Call} {reply : call.Reply}
    (h : perform device call bench = (.ok reply, after)) {index : Nat}
    (hindex : device.simulator? = some index) : ∃ sim given changed,
      bench.simulators[index]? = some sim ∧
      sim.perform bench.files.next call = (.ok given, changed) ∧
      after.simulators[index]? = some changed := by
  rcases perform_cases h with hpassed | ⟨_, found, -, hgranted⟩
  · rcases hpassed.reason with hnowhere | ⟨error, herror⟩
    · rw [hnowhere] at hindex
      cases hindex
    · cases herror
  · obtain rfl := Option.some.inj (hgranted.beneath.symm.trans hindex)
    obtain ⟨sim, given, changed, hsim, hperform, -, hafter⟩ := hgranted.answered
    exact ⟨sim, given, changed, hsim, hperform, (hafter found).trans (if_pos rfl)⟩

theorem line?_requestLines {device : Device} {request : LinesRequest} {file : FileId}
    (h : perform device (.requestLines request) bench = (.ok file, after)) {index : Nat}
    (hindex : device.simulator? = some index)
    (hlength : request.values.length = request.offsets.length) {position : Nat} {offset : Offset}
    {value : UInt8} (hoffset : request.offsets[position]? = some offset)
    (hvalue : request.values[position]? = some value) :
    Simulator.refuses request.flags = false ∧ ∃ line, bench.line? index offset = some line ∧
      after.line? index offset =
        some ((line.take request.consumer).configure request.flags value) := by
  obtain ⟨sim, given, changed, hsim, hperform, hchanged⟩ := answered_ok h hindex
  obtain ⟨-, hgranted⟩ := Simulator.settle_eq_ok.mp hperform
  obtain ⟨hoffers, hrefuses, rfl⟩ := Simulator.requestLines_eq_ok hgranted
  have hmem := List.mem_of_getElem? hoffset
  obtain ⟨line, hline, -⟩ := hoffers.free offset hmem
  refine ⟨hrefuses, line, (line?_of_eq hsim offset).trans hline, ?_⟩
  rw [line?_of_eq hchanged]
  refine (Simulator.line?_configures hoffers.nodup hlength request.flags hoffset hvalue).trans ?_
  rw [Simulator.line?_takes hoffers.nodup hmem, hline]
  rfl

theorem line?_requestEvent {device : Device} {request : EventRequest} {file : FileId}
    (h : perform device (.requestEvent request) bench = (.ok file, after)) {index : Nat}
    (hindex : device.simulator? = some index) :
    request.flags.output = false ∧ ∃ line, bench.line? index request.offset = some line ∧
      after.line? index request.offset =
        some ((line.take request.consumer).applyFlags { request.flags with input := true }) := by
  obtain ⟨sim, given, changed, hsim, hperform, hchanged⟩ := answered_ok h hindex
  obtain ⟨-, hgranted⟩ := Simulator.settle_eq_ok.mp hperform
  obtain ⟨hoffers, houtput, rfl⟩ := Simulator.requestEvent_eq_ok hgranted
  have hmem := List.mem_singleton_self request.offset
  obtain ⟨line, hline, -⟩ := hoffers.free request.offset hmem
  refine ⟨houtput, line, (line?_of_eq hsim _).trans hline, ?_⟩
  have hnodup : ((Simulator.listens request).map (·.1)).Nodup := List.nodup_singleton _
  rw [line?_of_eq hchanged]
  refine (Simulator.line?_modifyAll hnodup List.mem_cons_self).trans ?_
  rw [Simulator.line?_takes hoffers.nodup hmem, hline]
  rfl

namespace Exclusive

variable {device : Device} {values : List UInt8} {index : Nat} {grant : Grant} {position : Nat}
  {offset : Offset} {value : UInt8}

theorem line?_setValues (h : bench.Exclusive)
    (hperform : Bench.perform device (.setValues grant.file values) bench = (.ok (), after))
    (hindex : device.simulator? = some index) (hgrant : grant ∈ bench.grants index)
    (hoffset : grant.offsets[position]? = some offset) (hvalue : values[position]? = some value) :
    ∃ line, bench.line? index offset = some line ∧ line.flags.output = true ∧
      after.line? index offset = some (line.drive (isActive value)) := by
  obtain ⟨sim, given, changed, hsim, hset, hchanged⟩ := answered_ok hperform hindex
  obtain ⟨-, hset⟩ := Simulator.settle_eq_ok.mp hset
  obtain ⟨found, hfound, hfile, -, houtputs, rfl⟩ := Simulator.setValues_eq_ok hset
  rw [grants_of_eq hsim] at hgrant
  have hexclusive := h.simulators index sim hsim
  obtain rfl := hexclusive.grant_eq_of_file hfound hgrant hfile
  obtain ⟨line, hline, houtput⟩ := houtputs offset (List.mem_of_getElem? hoffset)
  refine ⟨line, (line?_of_eq hsim offset).trans hline, houtput, ?_⟩
  rw [line?_of_eq hchanged, Simulator.line?_drives (hexclusive.nodup hgrant) hoffset hvalue, hline]
  rfl

theorem line?_setConfig (h : bench.Exclusive) {flags : HandleFlags}
    (hperform : Bench.perform device (.setConfig grant.file flags values) bench = (.ok (), after))
    (hindex : device.simulator? = some index) (hgrant : grant ∈ bench.grants index)
    (hlength : values.length = grant.offsets.length)
    (hoffset : grant.offsets[position]? = some offset) (hvalue : values[position]? = some value) :
    Simulator.refuses flags = false ∧ ∃ line, bench.line? index offset = some line ∧
      after.line? index offset = some (line.configure flags value) := by
  obtain ⟨sim, given, changed, hsim, hset, hchanged⟩ := answered_ok hperform hindex
  obtain ⟨-, hset⟩ := Simulator.settle_eq_ok.mp hset
  obtain ⟨hrefuses, found, hfound, hfile, -, rfl⟩ := Simulator.setConfig_eq_ok hset
  rw [grants_of_eq hsim] at hgrant
  have hexclusive := h.simulators index sim hsim
  obtain rfl := hexclusive.grant_eq_of_file hfound hgrant hfile
  obtain ⟨line, hline, -⟩ := hexclusive.held found hgrant offset (List.mem_of_getElem? hoffset)
  refine ⟨hrefuses, line, (line?_of_eq hsim offset).trans hline, ?_⟩
  rw [line?_of_eq hchanged,
    Simulator.line?_configures (hexclusive.nodup hgrant) hlength flags hoffset hvalue, hline]
  rfl

end Exclusive

end Bench

end GpioLines
