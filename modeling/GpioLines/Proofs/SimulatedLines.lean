import Mathlib.Data.List.Nodup
import GpioLines.Simulator

/-!
# A simulated chip, line by line

Whatever a simulated chip does to its lines is a run of updates of one line each. As long as no line
occurs twice, each line sees one update of the run and the others keep off it (`line?_modifyAll`).
So every call has a reading of its own for one line, and what is proved of the chip is proved line by
line: what a call that was granted found and what it left.
-/

namespace GpioLines

theorem Bytes.fit_of_length {width : Nat} {bytes : List UInt8} (h : bytes.length = width) :
    Bytes.fit width bytes = bytes := by
  rw [fit, List.take_of_length_le (Nat.le_of_eq h), h, Nat.sub_self, List.replicate_zero, List.append_nil]

namespace Simulator

variable {sim after : Simulator}

/-! ### Runs of updates -/

theorem line?_modifyLine (sim : Simulator) (offset : Offset) (f : SimLine → SimLine)
    (other : Offset) :
    (sim.modifyLine offset f).line? other =
      if other = offset then (sim.line? other).map f else sim.line? other := by
  simp only [line?, modifyLine, Array.getElem?_modify, UInt32.toNat_inj, eq_comm (a := offset)]

/-- One update a line, one after the other. -/
def modifyAll (sim : Simulator) (updates : List (Offset × (SimLine → SimLine))) : Simulator :=
  updates.foldl (fun sim update => sim.modifyLine update.1 update.2) sim

theorem modifyAll_cons (sim : Simulator) (update : Offset × (SimLine → SimLine))
    (rest : List (Offset × (SimLine → SimLine))) :
    sim.modifyAll (update :: rest) = (sim.modifyLine update.1 update.2).modifyAll rest := rfl

/-- Updates are about lines only. -/
theorem modifyAll_eq (sim : Simulator) (updates : List (Offset × (SimLine → SimLine))) :
    ∃ lines, sim.modifyAll updates = { sim with lines } ∧ lines.size = sim.lines.size := by
  induction updates generalizing sim with
  | nil => exact ⟨sim.lines, rfl, rfl⟩
  | cons update rest ih =>
      obtain ⟨lines, heq, hsize⟩ := ih (sim.modifyLine update.1 update.2)
      refine ⟨lines, heq, hsize.trans ?_⟩
      rw [modifyLine, Array.size_modify]

@[simp] theorem grants_modifyAll (sim : Simulator)
    (updates : List (Offset × (SimLine → SimLine))) :
    (sim.modifyAll updates).grants = sim.grants := by
  obtain ⟨lines, heq, -⟩ := sim.modifyAll_eq updates
  rw [heq]

@[simp] theorem released_modifyAll (sim : Simulator)
    (updates : List (Offset × (SimLine → SimLine))) :
    (sim.modifyAll updates).released = sim.released := by
  obtain ⟨lines, heq, -⟩ := sim.modifyAll_eq updates
  rw [heq]

theorem line?_modifyAll_of_not_mem {updates : List (Offset × (SimLine → SimLine))}
    {offset : Offset} (h : offset ∉ updates.map (·.1)) :
    (sim.modifyAll updates).line? offset = sim.line? offset := by
  induction updates generalizing sim with
  | nil => rfl
  | cons update rest ih =>
      rw [List.map_cons, List.mem_cons, not_or] at h
      rw [modifyAll_cons, ih h.2, line?_modifyLine, if_neg h.1]

/-- The one update of a line is all that a run does to it. -/
theorem line?_modifyAll {updates : List (Offset × (SimLine → SimLine))}
    (hnodup : (updates.map (·.1)).Nodup) {offset : Offset} {f : SimLine → SimLine}
    (h : (offset, f) ∈ updates) :
    (sim.modifyAll updates).line? offset = (sim.line? offset).map f := by
  induction updates generalizing sim with
  | nil => cases h
  | cons update rest ih =>
      rw [List.map_cons, List.nodup_cons] at hnodup
      rw [modifyAll_cons]
      rcases List.mem_cons.mp h with rfl | h
      · rw [line?_modifyAll_of_not_mem hnodup.1, line?_modifyLine, if_pos rfl]
      · have hne : offset ≠ update.1 := fun heq =>
          hnodup.1 (heq ▸ List.mem_map.mpr ⟨_, h, rfl⟩)
        rw [ih hnodup.2 h, line?_modifyLine, if_neg hne]

/-! ### The runs of the calls -/

def takes (offsets : List Offset) (consumer : String) : List (Offset × (SimLine → SimLine)) :=
  offsets.map (·, (·.take consumer))

def frees (offsets : List Offset) : List (Offset × (SimLine → SimLine)) :=
  offsets.map (·, SimLine.free)

def configures (offsets : List Offset) (flags : HandleFlags) (values : List UInt8) :
    List (Offset × (SimLine → SimLine)) :=
  (offsets.zip (Bytes.fit offsets.length values)).map fun (offset, value) =>
    (offset, (·.configure flags value))

def drives (offsets : List Offset) (values : List UInt8) : List (Offset × (SimLine → SimLine)) :=
  (offsets.zip values).map fun (offset, value) => (offset, (·.drive (isActive value)))

theorem map_fst_takes (offsets : List Offset) (consumer : String) :
    (takes offsets consumer).map (·.1) = offsets := by
  rw [takes, List.map_map]
  exact List.map_id _

theorem map_fst_frees (offsets : List Offset) : (frees offsets).map (·.1) = offsets := by
  rw [frees, List.map_map]
  exact List.map_id _

theorem map_fst_configures (offsets : List Offset) (flags : HandleFlags) (values : List UInt8) :
    (configures offsets flags values).map (·.1) = offsets := by
  rw [configures, List.map_map]
  exact List.map_fst_zip (Nat.le_of_eq (Bytes.length_fit ..).symm)

theorem map_fst_drives_sublist (offsets : List Offset) (values : List UInt8) :
    ((drives offsets values).map (·.1)).Sublist offsets := by
  rw [drives, List.map_map]
  change ((offsets.zip values).map Prod.fst).Sublist offsets
  induction offsets generalizing values with
  | nil => exact .slnil
  | cons offset rest ih =>
      cases values with
      | nil => exact List.nil_sublist _
      | cons value values => exact (ih values).cons_cons offset

theorem line?_takes {offsets : List Offset} (hnodup : offsets.Nodup) {offset : Offset}
    (hmem : offset ∈ offsets) (consumer : String) :
    (sim.modifyAll (takes offsets consumer)).line? offset =
      (sim.line? offset).map (·.take consumer) := by
  apply line?_modifyAll
  · rwa [map_fst_takes]
  · exact List.mem_map.mpr ⟨offset, hmem, rfl⟩

theorem line?_frees {offsets : List Offset} (hnodup : offsets.Nodup) (offset : Offset) :
    (sim.modifyAll (frees offsets)).line? offset =
      if offset ∈ offsets then (sim.line? offset).map SimLine.free else sim.line? offset := by
  split
  · next hmem =>
    apply line?_modifyAll
    · rwa [map_fst_frees]
    · exact List.mem_map.mpr ⟨offset, hmem, rfl⟩
  · next hmem =>
    apply line?_modifyAll_of_not_mem
    rwa [map_fst_frees]

theorem takeAll_eq (sim : Simulator) (offsets : List Offset) (consumer : String) :
    sim.takeAll offsets consumer = sim.modifyAll (takes offsets consumer) := by
  rw [takeAll, modifyAll, takes, List.foldl_map]

theorem configureAll_eq (sim : Simulator) (offsets : List Offset) (flags : HandleFlags)
    (values : List UInt8) :
    sim.configureAll offsets flags values = sim.modifyAll (configures offsets flags values) := by
  rw [configureAll, modifyAll, configures, List.foldl_map]

/-! ### What is granted -/

/-- Lines of the chip that nobody holds, none of them twice. -/
structure Offers (sim : Simulator) (offsets : List Offset) : Prop where
  nodup : offsets.Nodup
  free : ∀ offset ∈ offsets, ∃ line, sim.line? offset = some line ∧ line.requested = false

theorem offers_of_checkOffsets {before offsets : List Offset}
    (h : sim.checkOffsets before offsets = .ok ()) :
    sim.Offers offsets ∧ ∀ offset ∈ offsets, offset ∉ before := by
  induction offsets generalizing before with
  | nil => exact ⟨⟨.nil, nofun⟩, nofun⟩
  | cons offset rest ih =>
      unfold checkOffsets at h
      split at h
      · cases h
      · next line hline =>
        split at h
        · cases h
        · next hcan =>
          simp only [Bool.or_eq_true, List.contains_iff_mem, not_or, Bool.not_eq_true] at hcan
          obtain ⟨hoffers, hnew⟩ := ih h
          refine ⟨⟨?_, ?_⟩, ?_⟩
          · refine List.nodup_cons.mpr ⟨fun hmem => ?_, hoffers.nodup⟩
            exact hnew offset hmem (List.mem_append_right _ (List.mem_singleton_self offset))
          · intro other hother
            rcases List.mem_cons.mp hother with rfl | hother
            · exact ⟨line, hline, hcan.1⟩
            · exact hoffers.free other hother
          · intro other hother
            rcases List.mem_cons.mp hother with rfl | hother
            · exact hcan.2
            · exact fun hmem => hnew other hother (List.mem_append_left _ hmem)

theorem requestLines_eq_ok {file : FileId} {request : LinesRequest}
    (h : sim.requestLines file request = .ok after) :
    sim.Offers request.offsets ∧ refuses request.flags = false ∧
      after =
        { (sim.modifyAll (takes request.offsets request.consumer)).modifyAll
            (configures request.offsets request.flags request.values) with
          grants := sim.grants ++ [{ file, offsets := request.offsets }] } := by
  unfold requestLines at h
  split at h
  · cases h
  · split at h
    · cases h
    · next hrefuses =>
      split at h
      · cases h
      · next hcheck =>
        have hafter := Except.ok.inj h
        simp only [takeAll_eq, configureAll_eq, grants_modifyAll] at hafter
        exact ⟨(offers_of_checkOffsets hcheck).1, eq_false_of_ne_true hrefuses, hafter.symm⟩

/-- A line that is requested for events becomes an input. -/
def listens (request : EventRequest) : List (Offset × (SimLine → SimLine)) :=
  [(request.offset, (·.applyFlags { request.flags with input := true }))]

theorem requestEvent_eq_ok {file : FileId} {request : EventRequest}
    (h : sim.requestEvent file request = .ok after) :
    sim.Offers [request.offset] ∧ request.flags.output = false ∧
      after =
        { (sim.modifyAll (takes [request.offset] request.consumer)).modifyAll (listens request) with
          grants := sim.grants ++
            [{ file, offsets := [request.offset], edges := some request.edges }] } := by
  unfold requestEvent at h
  split at h
  · cases h
  · next hrefuses =>
    split at h
    · cases h
    · next hcheck =>
      simp only [Bool.or_eq_true, not_or, Bool.not_eq_true] at hrefuses
      refine ⟨(offers_of_checkOffsets hcheck).1, hrefuses.1, ?_⟩
      exact (Except.ok.inj h).symm

theorem valuesGrant_eq_ok {file : FileId} {grant : Grant}
    (h : sim.valuesGrant file = .ok grant) :
    grant ∈ sim.grants ∧ grant.file = file ∧ grant.edges = none := by
  unfold valuesGrant at h
  split at h
  · cases h
  · next found hfound =>
    split at h
    · cases h
    · next hedges =>
      obtain rfl := Except.ok.inj h
      have hfile : found.file = file := by simpa using List.find?_some hfound
      exact ⟨List.mem_of_find?_eq_some hfound, hfile, by simpa using hedges⟩

theorem setValues_eq_ok {file : FileId} {values : List UInt8}
    (h : sim.setValues file values = .ok after) :
    ∃ grant ∈ sim.grants, grant.file = file ∧ grant.edges = none ∧
      (∀ offset ∈ grant.offsets, ∃ line, sim.line? offset = some line ∧ line.flags.output = true) ∧
      after = sim.modifyAll (drives grant.offsets values) := by
  unfold setValues at h
  split at h
  · cases h
  · next grant hgrant =>
    obtain ⟨hmem, hfile, hedges⟩ := valuesGrant_eq_ok hgrant
    split at h
    · cases h
    · next houtputs =>
      refine ⟨grant, hmem, hfile, hedges, ?_, ?_⟩
      · intro offset hoffset
        by_contra hnot
        refine houtputs (List.any_eq_true.mpr ⟨offset, hoffset, ?_⟩)
        rw [Bool.not_eq_true', ← Bool.not_eq_true, Option.any_eq_true]
        exact hnot
      · rw [← Except.ok.inj h, modifyAll, drives, List.foldl_map]

theorem setConfig_eq_ok {file : FileId} {flags : HandleFlags} {values : List UInt8}
    (h : sim.setConfig file flags values = .ok after) :
    refuses flags = false ∧ ∃ grant ∈ sim.grants, grant.file = file ∧ grant.edges = none ∧
      after = sim.modifyAll (configures grant.offsets flags values) := by
  unfold setConfig at h
  split at h
  · cases h
  · next hrefuses =>
    split at h
    · cases h
    · next grant hgrant =>
      obtain ⟨hmem, hfile, hedges⟩ := valuesGrant_eq_ok hgrant
      refine ⟨eq_false_of_ne_true hrefuses, grant, hmem, hfile, hedges, ?_⟩
      rw [← Except.ok.inj h, configureAll_eq]

/-! ### What is given back -/

/-- A file is released at most once: the second time there is no grant of it. -/
theorem release_eq (sim : Simulator) (file : FileId) :
    (sim.grant? file = none ∧ sim.release file = sim) ∨
      ∃ grant ∈ sim.grants, grant.file = file ∧ sim.grant? file = some grant ∧
        sim.release file =
          { sim.modifyAll (frees grant.offsets) with
            grants := sim.grants.filter (·.file != file), released := sim.released + 1 } := by
  cases hgrant : sim.grant? file with
  | none => exact Or.inl ⟨rfl, by rw [release, hgrant]⟩
  | some grant =>
      have hfile : grant.file = file := by simpa using List.find?_some hgrant
      refine Or.inr ⟨grant, List.mem_of_find?_eq_some hgrant, hfile, rfl, ?_⟩
      have hframe : ∀ updates, (sim.modifyAll updates).grants = sim.grants ∧
          (sim.modifyAll updates).released = sim.released := fun updates =>
        ⟨grants_modifyAll sim updates, released_modifyAll sim updates⟩
      have hfold : grant.offsets.foldl (fun sim offset => sim.modifyLine offset (·.free)) sim =
          sim.modifyAll (frees grant.offsets) := by
        rw [modifyAll, frees, List.foldl_map]
      rw [release, hgrant]
      simp only [hfold, hframe]

/-! ### Controls from outside -/

/-- Setting a level changes at most the level of that line and the clock. -/
theorem setLevel_eq (sim : Simulator) (offset : Offset) (level : Bool) :
    ∃ clock, (sim.setLevel offset level).2 =
      { sim.modifyLine offset ({ · with level }) with clock } ∨
      (sim.setLevel offset level).2 = sim := by
  unfold setLevel
  split
  · exact ⟨sim.clock, Or.inr rfl⟩
  · split
    · exact ⟨sim.clock, Or.inr rfl⟩
    · exact ⟨_, Or.inl rfl⟩

/-! ### Calls -/

theorem settle_eq_ok {call : Call} {reply given : call.Reply} {result : Except Errno Simulator} :
    sim.settle reply result = (.ok given, after) ↔ given = reply ∧ result = .ok after := by
  cases result with
  | error errno => simp [settle]
  | ok found => simp [settle, eq_comm]

theorem settle_eq_error {call : Call} {reply : call.Reply} {result : Except Errno Simulator}
    {error : Error} : sim.settle reply result = (.error error, after) ↔
      ∃ errno, result = .error errno ∧ error = .call call.kind errno ∧ after = sim := by
  cases result with
  | error errno => simp [settle, eq_comm]
  | ok found => simp [settle]

/-- A call that is refused leaves the chip as it was. -/
theorem perform_refused {fresh : FileId} {call : Call} {error : Error}
    (h : sim.perform fresh call = (.error error, after)) : after = sim := by
  cases call with
  | chipInfo => cases (Prod.mk.inj h).1
  | lineInfo | getValues => exact (Prod.mk.inj h).2.symm
  | requestLines | requestEvent | setValues | setConfig =>
      obtain ⟨-, -, -, hsame⟩ := settle_eq_error.mp h
      exact hsame

end Simulator

end GpioLines
