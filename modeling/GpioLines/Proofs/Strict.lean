import GpioLines.Proofs.Timekeeping

/-!
# Simulated chips whose look-ups can fail

A simulated chip takes lines by index, and looks for an offset among the ones before it in a request
by cutting the request off there. Where that could go wrong, the chip gets by: what is changed beyond
the last line is nothing, and what is read there is low. Here it does not get by. Each look-up has a
result or there is none for the whole call, and then it is shown that there always is one, the same
as before: a grant has lines, holds each of them as long as it runs, and a request is checked before
it is granted.
-/

namespace GpioLines

/-- A part of a list, if the list is long enough for it. -/
def slice? {α : Type} (start stop : Nat) (items : List α) : Option (List α) :=
  if start ≤ stop ∧ stop ≤ items.length then some ((items.drop start).take (stop - start)) else none

theorem slice?_of_le {α : Type} {start stop : Nat} {items : List α} (hstart : start ≤ stop)
    (hstop : stop ≤ items.length) :
    slice? start stop items = some ((items.drop start).take (stop - start)) :=
  if_pos ⟨hstart, hstop⟩

theorem slice?_zero {α : Type} {stop : Nat} {items : List α} (h : stop ≤ items.length) :
    slice? 0 stop items = some (items.take stop) := by
  rw [slice?_of_le (Nat.zero_le stop) h, List.drop_zero, Nat.sub_zero]

/-- What there is before an item of a list. -/
theorem slice?_front {α : Type} (front rest : List α) :
    slice? 0 front.length (front ++ rest) = some front := by
  rw [slice?_zero (List.length_append ▸ Nat.le_add_right ..), List.take_left]

theorem mapM_some {α β : Type} {f : α → Option β} {g : α → β} {items : List α}
    (h : ∀ item ∈ items, f item = some (g item)) : items.mapM f = some (items.map g) := by
  induction items with
  | nil => rfl
  | cons item rest ih =>
      rw [List.mapM_cons, h item List.mem_cons_self,
        ih fun other hother => h other (List.mem_cons_of_mem _ hother)]
      rfl

namespace Simulator

/-! ### The chip -/

namespace Strict

def alter (sim : Simulator) (offset : Offset) (f : SimLine → SimLine) : Option Simulator :=
  (sim.line? offset).map fun _ => sim.modifyLine offset f

def alterAll (sim : Simulator) (updates : List (Offset × (SimLine → SimLine))) : Option Simulator :=
  updates.foldlM (fun sim update => alter sim update.1 update.2) sim

def value (sim : Simulator) (offset : Offset) : Option UInt8 :=
  (sim.line? offset).map fun line => ofActive line.active

/-- Goes through offsets with their places in the request. -/
def checkFrom (sim : Simulator) (offsets : List Offset) :
    List (Offset × Nat) → Option (Except Errno Unit)
  | [] => some (.ok ())
  | (offset, place) :: rest =>
    match sim.line? offset with
    | none => some (.error .invalid)
    | some line => do
      let before ← slice? 0 place offsets
      if line.requested || before.contains offset then some (.error .busy)
      else checkFrom sim offsets rest

def checkOffsets (sim : Simulator) (offsets : List Offset) : Option (Except Errno Unit) :=
  checkFrom sim offsets offsets.zipIdx

def requestLines (sim : Simulator) (file : FileId) (request : LinesRequest) :
    Option (Except Errno Simulator) :=
  if request.offsets.isEmpty || decide (maxLines < request.offsets.length) then
    some (.error .invalid)
  else if refuses request.flags then some (.error .invalid)
  else do
    match ← checkOffsets sim request.offsets with
    | .error errno => some (.error errno)
    | .ok _ =>
      let sim ← alterAll sim (takes request.offsets request.consumer)
      let sim ← alterAll sim (configures request.offsets request.flags request.values)
      some (.ok { sim with grants := sim.grants ++ [{ file, offsets := request.offsets }] })

def requestEvent (sim : Simulator) (file : FileId) (request : EventRequest) :
    Option (Except Errno Simulator) :=
  if request.flags.output || refuses request.flags then some (.error .invalid)
  else do
    match ← checkOffsets sim [request.offset] with
    | .error errno => some (.error errno)
    | .ok _ =>
      let sim ← alterAll sim (takes [request.offset] request.consumer)
      let sim ← alterAll sim (listens request)
      let grant : Grant := { file, offsets := [request.offset], edges := some request.edges }
      some (.ok { sim with grants := sim.grants ++ [grant] })

def getValues (sim : Simulator) (file : FileId) : Option (Except Errno (List UInt8)) :=
  match sim.grant? file with
  | none => some (.error .badFile)
  | some grant => (grant.offsets.mapM (value sim)).map .ok

def setValues (sim : Simulator) (file : FileId) (values : List UInt8) :
    Option (Except Errno Simulator) :=
  match sim.valuesGrant file with
  | .error errno => some (.error errno)
  | .ok grant => do
    let inputs ← grant.offsets.mapM fun offset => (sim.line? offset).map (!·.flags.output)
    if inputs.any id then some (.error .notPermitted)
    else (alterAll sim (drives grant.offsets values)).map .ok

def setConfig (sim : Simulator) (file : FileId) (flags : HandleFlags) (values : List UInt8) :
    Option (Except Errno Simulator) :=
  if refuses flags then some (.error .invalid)
  else match sim.valuesGrant file with
    | .error errno => some (.error errno)
    | .ok grant => (alterAll sim (configures grant.offsets flags values)).map .ok

def perform (sim : Simulator) (fresh : FileId) : (call : Call) → Option (Outcome call × Simulator)
  | .chipInfo => some (sim.perform fresh .chipInfo)
  | .lineInfo offset => some (sim.perform fresh (.lineInfo offset))
  | .requestLines request => (requestLines sim fresh request).map fun result =>
    (sim.settle fresh result : Outcome (.requestLines request) × Simulator)
  | .requestEvent request => (requestEvent sim fresh request).map fun result =>
    (sim.settle fresh result : Outcome (.requestEvent request) × Simulator)
  | .getValues file buffer => (getValues sim file).map fun found =>
    ((found.map (Buffer.fill buffer)).mapError (.call .getValues ·), sim)
  | .setValues file values => (setValues sim file values).map fun result =>
    (sim.settle () result : Outcome (.setValues file values) × Simulator)
  | .setConfig file flags values => (setConfig sim file flags values).map fun result =>
    (sim.settle () result : Outcome (.setConfig file flags values) × Simulator)

def release (sim : Simulator) (file : FileId) : Option Simulator :=
  match sim.grant? file with
  | none => some sim
  | some grant => (alterAll sim (frees grant.offsets)).map fun freed =>
    { freed with grants := freed.grants.filter (·.file != file), released := freed.released + 1 }

/-- The clock, advanced by one change. It does not start over. -/
def advance (clock : UInt64) : Option UInt64 :=
  if clock.toNat + eventInterval.toNat < UInt64.size then some (clock + eventInterval) else none

def setLevel (sim : Simulator) (offset : Offset) (level : Bool) :
    Option (Option LineEvent × Simulator) :=
  match sim.line? offset with
  | none => some (none, sim)
  | some line =>
    if line.level = level then some (none, sim)
    else do
      let line := { line with level }
      let clock ← advance sim.clock
      let sim ← alter sim offset ({ · with level })
      some (some ⟨clock, .into line.active⟩, { sim with clock })

/-- The files of the grants that a test is passed by. -/
def filesOf (test : Grant → Option Bool) : List Grant → Option (List FileId)
  | [] => some []
  | grant :: rest => do
    let passes ← test grant
    let files ← filesOf test rest
    return if passes then grant.file :: files else files

/-- The line of a grant for events is the first of its lines. -/
def listensAt (grant : Grant) (offset : Offset) : Option Bool := (grant.offsets[0]?).map (· == offset)

def eventFiles (sim : Simulator) (offset : Offset) : Option (List FileId) :=
  filesOf (fun grant => if grant.edges.isSome then listensAt grant offset else some false) sim.grants

def subscribers (sim : Simulator) (offset : Offset) (edge : Edge) : Option (List FileId) :=
  filesOf (fun grant =>
    if grant.edges.any (·.contains edge) then listensAt grant offset else some false) sim.grants

end Strict

/-! ### Nothing is looked up in vain -/

/-- No grant is without lines. -/
def Filled (sim : Simulator) : Prop := ∀ grant ∈ sim.grants, grant.offsets ≠ []

/-- Each of these is a line of the chip. -/
def Spans (sim : Simulator) (offsets : List Offset) : Prop :=
  ∀ offset ∈ offsets, ∃ line, sim.line? offset = some line

variable {sim : Simulator}

theorem Spans.modifyLine {offsets : List Offset} (h : sim.Spans offsets) (offset : Offset)
    (f : SimLine → SimLine) : (sim.modifyLine offset f).Spans offsets := by
  intro other hother
  obtain ⟨line, hline⟩ := h other hother
  rw [line?_modifyLine, hline]
  split
  · exact ⟨f line, rfl⟩
  · exact ⟨line, rfl⟩

theorem Spans.modifyAll {offsets : List Offset} (h : sim.Spans offsets)
    (updates : List (Offset × (SimLine → SimLine))) : (sim.modifyAll updates).Spans offsets := by
  induction updates generalizing sim with
  | nil => exact h
  | cons update rest ih => exact ih (h.modifyLine update.1 update.2)

theorem spans_of_checkOffsets {offsets : List Offset} (h : sim.checkOffsets [] offsets = .ok ()) :
    sim.Spans offsets := fun offset hoffset => by
  obtain ⟨line, hline, -⟩ := (offers_of_checkOffsets h).1.free offset hoffset
  exact ⟨line, hline⟩

namespace Strict

theorem alterAll_eq {updates : List (Offset × (SimLine → SimLine))}
    (h : sim.Spans (updates.map (·.1))) : alterAll sim updates = some (sim.modifyAll updates) := by
  induction updates generalizing sim with
  | nil => rfl
  | cons update rest ih =>
      obtain ⟨line, hline⟩ := h update.1 List.mem_cons_self
      have hrest : sim.Spans (rest.map (·.1)) :=
        fun offset hoffset => h offset (List.mem_cons_of_mem _ hoffset)
      rw [alterAll, List.foldlM_cons, alter, hline, modifyAll_cons]
      exact ih (hrest.modifyLine update.1 update.2)

theorem alterAll_takes {offsets : List Offset} (h : sim.Spans offsets) (consumer : String) :
    alterAll sim (takes offsets consumer) = some (sim.modifyAll (takes offsets consumer)) :=
  alterAll_eq (by rwa [map_fst_takes])

theorem alterAll_configures {offsets : List Offset} (h : sim.Spans offsets) (flags : HandleFlags)
    (values : List UInt8) : alterAll sim (configures offsets flags values) =
      some (sim.modifyAll (configures offsets flags values)) :=
  alterAll_eq (by rwa [map_fst_configures])

theorem checkFrom_eq (sim : Simulator) (before rest : List Offset) :
    checkFrom sim (before ++ rest) (rest.zipIdx before.length) =
      some (sim.checkOffsets before rest) := by
  induction rest generalizing before with
  | nil => rfl
  | cons offset rest ih =>
      have hrest := ih (before ++ [offset])
      rw [← List.append_cons, List.length_append, List.length_singleton] at hrest
      rw [List.zipIdx_cons, checkFrom, Simulator.checkOffsets, hrest, slice?_front]
      cases sim.line? offset with
      | none => rfl
      | some line =>
          simp only [Option.bind_eq_bind, Option.bind_some]
          split <;> rfl

theorem checkOffsets_eq (sim : Simulator) (offsets : List Offset) :
    checkOffsets sim offsets = some (sim.checkOffsets [] offsets) :=
  checkFrom_eq sim [] offsets

theorem requestLines_eq (sim : Simulator) (file : FileId) (request : LinesRequest) :
    requestLines sim file request = some (sim.requestLines file request) := by
  unfold requestLines Simulator.requestLines
  split
  · rfl
  split
  · rfl
  rw [checkOffsets_eq]
  simp only [Option.bind_eq_bind, Option.bind_some]
  cases hcheck : sim.checkOffsets [] request.offsets with
  | error errno => rfl
  | ok =>
      have hspans := spans_of_checkOffsets hcheck
      simp only [alterAll_takes hspans, alterAll_configures (hspans.modifyAll _), Option.bind_some,
        takeAll_eq, configureAll_eq]

theorem requestEvent_eq (sim : Simulator) (file : FileId) (request : EventRequest) :
    requestEvent sim file request = some (sim.requestEvent file request) := by
  unfold requestEvent Simulator.requestEvent
  split
  · rfl
  rw [checkOffsets_eq]
  simp only [Option.bind_eq_bind, Option.bind_some]
  cases hcheck : sim.checkOffsets [] [request.offset] with
  | error errno => rfl
  | ok =>
      have hspans := spans_of_checkOffsets hcheck
      have htaken : (sim.modifyAll (takes [request.offset] request.consumer)).Spans
          ((listens request).map (·.1)) := hspans.modifyAll _
      simp only [alterAll_takes hspans, alterAll_eq htaken, Option.bind_some, takeAll_eq]
      rfl

end Strict

/-- A grant holds its lines, so the chip has them. -/
theorem Exclusive.spans (h : sim.Exclusive) {grant : Grant} (hgrant : grant ∈ sim.grants) :
    sim.Spans grant.offsets := fun offset hoffset => by
  obtain ⟨line, hline, -⟩ := h.held grant hgrant offset hoffset
  exact ⟨line, hline⟩

theorem Exclusive.getValues_strict (h : sim.Exclusive) (file : FileId) :
    Strict.getValues sim file = some (sim.getValues file) := by
  unfold Strict.getValues Simulator.getValues
  cases hgrant : sim.grant? file with
  | none => rfl
  | some grant =>
      have hvalues : ∀ offset ∈ grant.offsets, Strict.value sim offset = some (sim.value offset) := by
        intro offset hoffset
        obtain ⟨line, hline⟩ := h.spans (List.mem_of_find?_eq_some hgrant) offset hoffset
        rw [Strict.value, Simulator.value, hline]
        rfl
      simp only [mapM_some hvalues, Option.map_some]

theorem Exclusive.setValues_strict (h : sim.Exclusive) (file : FileId) (values : List UInt8) :
    Strict.setValues sim file values = some (sim.setValues file values) := by
  unfold Strict.setValues Simulator.setValues
  cases hgrant : sim.valuesGrant file with
  | error errno => rfl
  | ok grant =>
      have hspans := h.spans (valuesGrant_eq_ok hgrant).1
      have hinputs : ∀ offset ∈ grant.offsets, (sim.line? offset).map (!·.flags.output) =
          some (!(sim.line? offset).any (·.flags.output)) := by
        intro offset hoffset
        obtain ⟨line, hline⟩ := hspans offset hoffset
        rw [hline]
        rfl
      have hdrives : sim.Spans ((Simulator.drives grant.offsets values).map (·.1)) := fun offset hoffset =>
        hspans offset ((map_fst_drives_sublist ..).subset hoffset)
      simp only [mapM_some hinputs, Option.bind_eq_bind, Option.bind_some, List.any_map,
        Function.id_comp, Strict.alterAll_eq hdrives, Option.map_some]
      rw [Simulator.modifyAll, Simulator.drives, List.foldl_map]
      split <;> rfl

theorem Exclusive.setConfig_strict (h : sim.Exclusive) (file : FileId) (flags : HandleFlags)
    (values : List UInt8) :
    Strict.setConfig sim file flags values = some (sim.setConfig file flags values) := by
  unfold Strict.setConfig Simulator.setConfig
  split
  · rfl
  cases hgrant : sim.valuesGrant file with
  | error errno => rfl
  | ok grant =>
      have hspans := h.spans (valuesGrant_eq_ok hgrant).1
      simp only [Strict.alterAll_configures hspans, Option.map_some, configureAll_eq]

theorem Exclusive.perform_strict (h : sim.Exclusive) (fresh : FileId) (call : Call) :
    Strict.perform sim fresh call = some (sim.perform fresh call) := by
  cases call with
  | chipInfo | lineInfo => rfl
  | requestLines request => rw [Strict.perform, Strict.requestLines_eq]; rfl
  | requestEvent request => rw [Strict.perform, Strict.requestEvent_eq]; rfl
  | getValues file buffer => rw [Strict.perform, h.getValues_strict]; rfl
  | setValues file values => rw [Strict.perform, h.setValues_strict]; rfl
  | setConfig file flags values => rw [Strict.perform, h.setConfig_strict]; rfl

theorem Exclusive.release_strict (h : sim.Exclusive) (file : FileId) :
    Strict.release sim file = some (sim.release file) := by
  unfold Strict.release Simulator.release
  cases hgrant : sim.grant? file with
  | none => rfl
  | some grant =>
      have hspans := h.spans (List.mem_of_find?_eq_some hgrant)
      have hfrees : sim.Spans ((frees grant.offsets).map (·.1)) := by rwa [map_fst_frees]
      simp only [Strict.alterAll_eq hfrees, Option.map_some]
      rw [Simulator.modifyAll, frees, List.foldl_map]

theorem setLevel_strict (hclock : sim.clock.toNat + eventInterval.toNat < UInt64.size)
    (offset : Offset) (level : Bool) :
    Strict.setLevel sim offset level = some (sim.setLevel offset level) := by
  unfold Strict.setLevel Simulator.setLevel
  cases hline : sim.line? offset with
  | none => rfl
  | some line =>
      simp only
      split
      · rfl
      · rw [Strict.advance, if_pos hclock, Strict.alter, hline]
        rfl

theorem Strict.filesOf_eq {test : Grant → Option Bool} {passes : Grant → Bool} {grants : List Grant}
    (h : ∀ grant ∈ grants, test grant = some (passes grant)) :
    filesOf test grants = some ((grants.filter passes).map (·.file)) := by
  induction grants with
  | nil => rfl
  | cons grant rest ih =>
      rw [filesOf, h grant List.mem_cons_self,
        ih fun other hother => h other (List.mem_cons_of_mem _ hother), List.filter_cons]
      simp only [Option.bind_eq_bind, Option.bind_some]
      split <;> rfl

theorem Strict.listensAt_eq {grant : Grant} (h : grant.offsets ≠ []) (offset : Offset) :
    listensAt grant offset = some (grant.offsets.head? == some offset) := by
  obtain ⟨first, rest, hoffsets⟩ := List.exists_cons_of_ne_nil h
  rw [listensAt, hoffsets]
  simp

theorem Filled.eventFiles_strict (h : sim.Filled) (offset : Offset) :
    Strict.eventFiles sim offset = some (sim.eventFiles offset) := by
  refine Strict.filesOf_eq fun grant hgrant => ?_
  rw [Strict.listensAt_eq (h grant hgrant)]
  cases grant.edges.isSome <;> rfl

theorem Filled.subscribers_strict (h : sim.Filled) (offset : Offset) (edge : Edge) :
    Strict.subscribers sim offset edge = some (sim.subscribers offset edge) := by
  refine Strict.filesOf_eq fun grant hgrant => ?_
  rw [Strict.listensAt_eq (h grant hgrant)]
  cases grant.edges.any (·.contains edge) <;> rfl

/-- Nothing that the chip looks up is missing, whatever it is asked or told. -/
structure Whole (sim : Simulator) : Prop where
  calls : ∀ fresh call, Strict.perform sim fresh call = some (sim.perform fresh call)
  releases : ∀ file, Strict.release sim file = some (sim.release file)
  levels : sim.clock.toNat + eventInterval.toNat < UInt64.size → ∀ offset level,
    Strict.setLevel sim offset level = some (sim.setLevel offset level)
  subscribers : ∀ offset edge,
    Strict.subscribers sim offset edge = some (sim.subscribers offset edge)
  eventFiles : ∀ offset, Strict.eventFiles sim offset = some (sim.eventFiles offset)

/-- **A simulated chip finds what it looks up.** -/
theorem Exclusive.whole (h : sim.Exclusive) (hfilled : sim.Filled) : sim.Whole :=
  ⟨h.perform_strict, h.release_strict, setLevel_strict, hfilled.subscribers_strict,
    hfilled.eventFiles_strict⟩

end Simulator

end GpioLines
