import GpioLines.Proofs.Coherence

/-!
# The library with look-ups that can fail

The library looks things up by their places without asking first: the handle of the first member of a
group, the place of a value in a request, the value of a member in what its handle reported, the only
value of a read of one line, the bytes of a record in a buffer. As with simulated chips, each of these
has a result here or there is none for the whole operation, and there always is one, the same as
before. A read is given a part of a buffer, and it finds no more than that part has room for.
-/

namespace GpioLines

/-- A buffer with what was found written over its start, if there is room for it. -/
def write? (found buffer : List UInt8) : Option (List UInt8) :=
  if found.length ≤ buffer.length then some (found ++ buffer.drop found.length) else none

def put? {α : Type} (items : List α) (place : Nat) (item : α) : Option (List α) :=
  if place < items.length then some (items.set place item) else none

namespace LineEvent.Strict

def ofRecord (bytes : List UInt8) : Option (Option LineEvent) :=
  if bytes.length < recordSize then some none
  else do
    let time ← slice? 0 8 bytes
    let edge ← slice? 8 12 bytes
    some (some
      { timestamp := UInt64.ofNat (Bytes.toNat time), edge := Edge.ofNumber (Bytes.toNat edge) })

/-- The events of bytes that are cut into records. -/
def ofChunks (bytes : List UInt8) : Option (Option (List LineEvent)) := do
  let events ← (List.range (bytes.length / recordSize)).mapM fun place => do
    ofRecord (← slice? (recordSize * place) (recordSize * (place + 1)) bytes)
  some (events.mapM id)

end LineEvent.Strict

namespace World.Strict

open LineEvent.Strict

variable {σ : Type}

/-! ### Groups -/

/-- Goes through lines with their places in the group. -/
def takenFrom (world : World σ) (lines : List Line) : List (Line × Nat) → Option (Option Line)
  | [] => some none
  | (line, place) :: rest => do
    let before ← slice? 0 place lines
    if !world.isFree line || before.contains line then some (some line)
    else takenFrom world lines rest

def firstTaken (world : World σ) (lines : List Line) : Option (Option Line) :=
  takenFrom world lines lines.zipIdx

def valuesHandle (world : World σ) (group : Group) : Option (Except Error (HandleId × Handle)) :=
  match world.handlesOf group with
  | .error error => some (.error error)
  | .ok handles => do
    let first ← handles[0]?
    if handles.any (·.2.kind != .values) then some (.error (.invalid .requestedForEvents))
    else if handles.any (·.1 != first.1) then some (.error (.invalid .severalRequests))
    else if first.2.offsets.any (!group.offsets.contains ·) then
      some (.error (.invalid .partialRequest))
    else some (.ok first)

def orderFrom (handle : Handle) :
    List UInt8 → List (Offset × UInt8) → Option (Except Error (List UInt8))
  | ordered, [] => some (.ok ordered)
  | ordered, (offset, value) :: rest =>
    match handle.indexOf? offset with
    | none => some (.error (.invalid .foreignLine))
    | some place => do orderFrom handle (← put? ordered place (normalize value)) rest

def inRequestOrder (group : Group) (handle : Handle) (values : List UInt8) :
    Option (Except Error (List UInt8)) :=
  orderFrom handle (List.replicate handle.offsets.length 0) (group.offsets.zip values)

/-! ### Values -/

/-- The value of a member in what was fetched. Its handle was. -/
def pick (fetched : List (HandleId × List UInt8)) (line : Line) (held : HandleId × Handle) :
    Option (Except Error UInt8) := do
  let (_, values) ← fetched[← fetched.findIdx? (·.1 == held.1)]?
  match held.2.indexOf? line.offset with
  | none => some (.error (.invalid .foreignLine))
  | some place => values[place]?.map .ok

variable [Machine σ]

def getValues (world : World σ) (group : Group) : Option (Except Error (List UInt8) × World σ) :=
  match world.handlesOf group with
  | .error error => some (world.fail error)
  | .ok handles =>
    match world.fetchAll (distinctHandles handles) with
    | (.error error, world) => some (.error error, world)
    | (.ok fetched, world) => do
      let picked ← (group.lines.zip handles).mapM fun (line, held) => pick fetched line held
      some (picked.mapM id, world)

/-- The only value of a read of one line. -/
def getValue (world : World σ) (line : Line) : Option (Except Error UInt8 × World σ) := do
  match ← getValues world (.single line) with
  | (.error error, world) => some (.error error, world)
  | (.ok values, world) => some (.ok (← values[0]?), world)

/-! ### Events -/

/-- What a read into a buffer of one record gave. -/
def oneRecord (found : List UInt8) : Option (Option LineEvent) := do
  let buffer ← write? found (List.replicate LineEvent.recordSize 0)
  if found.length ≠ buffer.length then some none else ofRecord buffer

/-- What a read into a buffer of several records gave. -/
def severalRecords (buffer found : List UInt8) : Option (Option (List LineEvent)) := do
  let written ← write? found buffer
  if found.length = 0 ∨ found.length % LineEvent.recordSize ≠ 0 then some none
  else ofChunks (← slice? 0 found.length written)

def readEvent (world : World σ) (line : Line) :
    Option (Except Error (Polled LineEvent) × World σ) :=
  match world.eventHandle line with
  | .error error => some (world.fail error)
  | .ok (_, handle) =>
    match world.readFile handle.file LineEvent.recordSize with
    | (.blocked, world) => some (.ok .pending, world)
    | (.failed errno, world) => some (world.fail (.event errno))
    | (.bytes found, world) => do
      match ← oneRecord found with
      | none => some (world.fail (.event .ioFailure))
      | some event => some (.ok (.ready event), world.note (.readEvent event handle.offsets))

/-- The buffer has room for `maxEvents`, and the read is given as much of it as it asks for. -/
def readEvents (world : World σ) (line : Line) (limit : Nat) :
    Option (Except Error (Polled (List LineEvent)) × World σ) :=
  match world.eventHandle line with
  | .error error => some (world.fail error)
  | .ok (_, handle) =>
    let count := min limit maxEvents
    if count = 0 then some (.ok (.ready []), world)
    else do
      let buffer := List.replicate (LineEvent.recordSize * maxEvents) (0 : UInt8)
      let window ← slice? 0 (LineEvent.recordSize * count) buffer
      match world.readFile handle.file window.length with
      | (.blocked, world) => some (.ok .pending, world)
      | (.failed errno, world) => some (world.fail (.event errno))
      | (.bytes found, world) =>
        match ← severalRecords window found with
        | none => some (world.fail (.event .ioFailure))
        | some events => some (.ok (.ready events), world)

def nextEvent (world : World σ) (stream : StreamId) :
    Option (Except Error (Polled LineEvent) × World σ) :=
  match world.streamHandle? stream with
  | none => some (.ok .pending, world)
  | some (_, handle) =>
    if Machine.readiness handle.file world.machine ≠ .input then some (.ok .pending, world)
    else match world.readFile handle.file LineEvent.recordSize with
      | (.blocked, world) => some (.ok .pending, world)
      | (.failed errno, world) =>
        if errno = .wouldBlock then some (.ok .pending, world)
        else some (world.fail (.event errno))
      | (.bytes found, world) => do
        match ← oneRecord found with
        | none => some (world.fail (.event .ioFailure))
        | some event => some (.ok (.ready event), world)

end World.Strict

/-! ### Records -/

namespace LineEvent.Strict

theorem ofRecord_eq (bytes : List UInt8) : ofRecord bytes = some (ofRecord? bytes) := by
  unfold ofRecord ofRecord?
  split
  · rfl
  · next hlength =>
    have hroom : recordSize ≤ bytes.length := Nat.not_lt.mp hlength
    rw [slice?_of_le (by decide) ((by decide : 8 ≤ recordSize).trans hroom),
      slice?_of_le (by decide) ((by decide : 12 ≤ recordSize).trans hroom)]
    rfl

theorem ofChunks_eq {bytes : List UInt8} (hpos : bytes.length ≠ 0)
    (hwhole : bytes.length % recordSize = 0) : ofChunks bytes = some (ofRecords? bytes) := by
  have hchunk : ∀ place ∈ List.range (bytes.length / recordSize),
      (do ofRecord (← slice? (recordSize * place) (recordSize * (place + 1)) bytes)) =
        some (ofRecord? (Bytes.field (recordSize * place) recordSize bytes)) := by
    intro place hplace
    have hlast : recordSize * (place + 1) ≤ bytes.length :=
      (Nat.mul_le_mul_left recordSize (List.mem_range.mp hplace)).trans (Nat.mul_div_le ..)
    have hwidth : recordSize * (place + 1) - recordSize * place = recordSize := by
      rw [Nat.mul_succ, Nat.add_sub_cancel_left]
    rw [slice?_of_le (Nat.mul_le_mul_left recordSize (Nat.le_succ place)) hlast, hwidth]
    exact ofRecord_eq _
  rw [ofChunks, mapM_some hchunk, Option.bind_eq_bind, Option.bind_some, List.mapM_map,
    Function.id_comp, ofRecords?, if_neg (by simp [hpos, hwhole])]

end LineEvent.Strict

namespace World.Strict

open LineEvent.Strict

variable {σ : Type} {world : World σ} {group : Group}

theorem oneRecord_eq {found : List UInt8} (h : found.length ≤ LineEvent.recordSize) :
    oneRecord found = some (LineEvent.ofRecord? found) := by
  have hbuffer : (List.replicate LineEvent.recordSize (0 : UInt8)).length = LineEvent.recordSize :=
    List.length_replicate
  rw [oneRecord, write?, if_pos (hbuffer ▸ h)]
  simp only [Option.bind_eq_bind, Option.bind_some, List.length_append, List.length_drop, hbuffer,
    Nat.add_sub_cancel' h]
  split
  · next hshort =>
    rw [LineEvent.ofRecord?, if_pos (Nat.lt_of_le_of_ne h hshort)]
  · next hwhole =>
    have hlength : found.length = LineEvent.recordSize := not_not.mp hwhole
    rw [ofRecord_eq, List.drop_eq_nil_of_le (hbuffer.trans hlength.symm).le, List.append_nil]

theorem severalRecords_eq {buffer found : List UInt8} (h : found.length ≤ buffer.length) :
    severalRecords buffer found = some (LineEvent.ofRecords? found) := by
  simp only [severalRecords, write?, if_pos h, Option.bind_eq_bind, Option.bind_some]
  split
  · next hbroken => rw [LineEvent.ofRecords?, if_pos hbroken]
  · next hwhole =>
    obtain ⟨hpos, hwhole⟩ := not_or.mp hwhole
    rw [slice?_front, Option.bind_some, ofChunks_eq hpos (not_not.mp hwhole)]

/-! ### Groups -/

theorem takenFrom_eq (world : World σ) (before rest : List Line) :
    takenFrom world (before ++ rest) (rest.zipIdx before.length) =
      some (world.firstTaken? before rest) := by
  induction rest generalizing before with
  | nil => rfl
  | cons line rest ih =>
      have hrest := ih (before ++ [line])
      rw [← List.append_cons, List.length_append, List.length_singleton] at hrest
      rw [List.zipIdx_cons, takenFrom, firstTaken?, hrest, slice?_front]
      simp only [Option.bind_eq_bind, Option.bind_some]
      split <;> rfl

theorem firstTaken_eq (world : World σ) (lines : List Line) :
    firstTaken world lines = some (world.firstTaken? [] lines) :=
  takenFrom_eq world [] lines

/-- The first handle is there, because the group has an open chip. -/
theorem valuesHandle_eq (world : World σ) (group : Group) :
    valuesHandle world group = some (world.valuesHandle group) := by
  unfold valuesHandle World.valuesHandle
  cases hheld : world.handlesOf group with
  | error error => rfl
  | ok held =>
      have hpos : held ≠ [] := by
        obtain ⟨⟨chip, hchip⟩, hmembers⟩ := forall₂_of_handlesOf hheld
        obtain ⟨first, -, honchip⟩ := onChip_of_chipOf hchip
        intro hnil
        rw [hnil] at hmembers
        exact honchip.nonempty (List.forall₂_nil_right_iff.mp hmembers)
      obtain ⟨first, rest, rfl⟩ := List.exists_cons_of_ne_nil hpos
      have hsame : (first :: rest).any (·.1 != first.1) = rest.any (·.1 != first.1) := by
        rw [List.any_cons, bne_self_eq_false, Bool.false_or]
      simp only [List.getElem?_cons_zero, Option.bind_eq_bind, Option.bind_some, hsame]
      simp only [bind, Except.bind]
      repeat' split
      all_goals rfl

theorem orderFrom_eq {handle : Handle} {ordered : List UInt8}
    (h : ordered.length = handle.offsets.length) (pairs : List (Offset × UInt8)) :
    orderFrom handle ordered pairs = some (pairs.foldlM
      (fun ordered (offset, value) =>
        match handle.indexOf? offset with
        | some index => .ok (ordered.set index (normalize value))
        | none => .error (.invalid .foreignLine)) ordered) := by
  induction pairs generalizing ordered with
  | nil => rfl
  | cons pair rest ih =>
      obtain ⟨offset, value⟩ := pair
      simp only [List.foldlM_cons, orderFrom]
      cases hindex : handle.indexOf? offset with
      | none => rfl
      | some place =>
          obtain ⟨hlt, -⟩ := List.idxOf?_eq_some_iff.mp hindex
          have hput : put? ordered place (normalize value) =
              some (ordered.set place (normalize value)) := if_pos (h ▸ hlt)
          simp only [hput, Option.bind_eq_bind, Option.bind_some]
          exact ih (List.length_set.trans h)

theorem inRequestOrder_eq (group : Group) (handle : Handle) (values : List UInt8) :
    inRequestOrder group handle values = some (group.inRequestOrder handle values) :=
  orderFrom_eq List.length_replicate _

/-! ### Values -/

/-- What is found by its key is found by its place, too. -/
theorem exists_findIdx? {fetched : List (HandleId × List UInt8)} {id : HandleId}
    {values : List UInt8} (h : fetched.lookup id = some values) :
    ∃ place, fetched.findIdx? (·.1 == id) = some place ∧ fetched[place]? = some (id, values) := by
  induction fetched with
  | nil => cases h
  | cons entry rest ih =>
      obtain ⟨key, found⟩ := entry
      rw [List.lookup_cons] at h
      rw [List.findIdx?_cons]
      by_cases hkey : id = key
      · rw [beq_iff_eq.mpr hkey] at h
        obtain rfl := Option.some.inj h
        exact ⟨0, by rw [if_pos (beq_iff_eq.mpr hkey.symm)], by rw [hkey]; rfl⟩
      · rw [beq_eq_false_iff_ne.mpr hkey] at h
        obtain ⟨place, hplace, hentry⟩ := ih h
        have hother : ¬(key == id) = true := fun heq => hkey (beq_iff_eq.mp heq).symm
        exact ⟨place + 1, by rw [if_neg hother, hplace, Option.map_some], hentry⟩

theorem pick_eq {fetched : List (HandleId × List UInt8)} {line : Line} {held : HandleId × Handle}
    {value : UInt8} (h : valueOf fetched line held = .ok value) :
    pick fetched line held = some (valueOf fetched line held) := by
  rw [h]
  unfold valueOf at h
  split at h
  · next values place hvalues hplace =>
    obtain ⟨index, hindex, hentry⟩ := exists_findIdx? hvalues
    split at h
    · next found hfound =>
      obtain rfl := Except.ok.inj h
      simp only [pick, hindex, Option.bind_eq_bind, Option.bind_some, hentry, hplace, hfound,
        Option.map_some]
    · cases h
  · cases h

variable [Machine σ]

theorem getValues_eq (hsound : world.ledger.Sound) (group : Group) :
    getValues world group = some (world.getValues group) := by
  unfold getValues World.getValues
  cases hheld : world.handlesOf group with
  | error error => rfl
  | ok held =>
      simp only
      rcases hfetched : world.fetchAll (distinctHandles held) with ⟨error | fetched, after⟩
      · rfl
      · have hpicked : ∀ member ∈ group.lines.zip held,
            pick fetched member.1 member.2 = some (valueOf fetched member.1 member.2) := by
          intro member hmember
          obtain ⟨value, hvalue⟩ :=
            valueOf_eq_ok hsound hheld (forall₂_of_fetchAll hfetched) hmember
          exact pick_eq hvalue
        simp only [mapM_some hpicked, Option.bind_eq_bind, Option.bind_some, List.mapM_map]
        rfl

theorem length_of_getValues {values : List UInt8} (h : (world.getValues group).1 = .ok values) :
    values.length = group.size := by
  unfold World.getValues at h
  split at h
  · cases h
  · next held hheld =>
    split at h
    · cases h
    · have hmembers := (forall₂_of_handlesOf hheld).2.length_eq
      rw [← (forall₂_of_mapM h).length_eq, List.length_zip, ← hmembers, Nat.min_self]
      rfl

/-- A read of one line finds one value. -/
theorem getValue_eq (hsound : world.ledger.Sound) (line : Line) :
    ∃ outcome, getValue world line = some (outcome, (world.getValues (.single line)).2) ∧
      outcome.map (fun value => [value]) = (world.getValues (.single line)).1 := by
  rw [getValue, getValues_eq hsound]
  rcases hread : world.getValues (.single line) with ⟨error | values, after⟩
  · exact ⟨.error error, rfl, rfl⟩
  · have hlength : values.length = 1 := length_of_getValues (congrArg Prod.fst hread)
    obtain ⟨value, rfl⟩ := List.length_eq_one_iff.mp hlength
    exact ⟨.ok value, rfl, rfl⟩

/-! ### Events -/

/-- Reads find no more than they have room for. -/
def ReadsFit (world : World σ) : Prop := ∀ file size bytes,
  (world.readFile file size).1 = .bytes bytes → bytes.length ≤ size

theorem readEvent_eq (hfit : ReadsFit world) (line : Line) :
    readEvent world line = some (world.readEvent line) := by
  unfold readEvent World.readEvent
  cases world.eventHandle line with
  | error error => rfl
  | ok held =>
      simp only
      rcases hread : world.readFile held.2.file LineEvent.recordSize with ⟨found | errno | _, after⟩
      · have hlength := hfit held.2.file LineEvent.recordSize found (by rw [hread])
        simp only [oneRecord_eq hlength, Option.bind_eq_bind, Option.bind_some]
        cases LineEvent.ofRecord? found <;> rfl
      · rfl
      · rfl

theorem nextEvent_eq (hfit : ReadsFit world) (stream : StreamId) :
    nextEvent world stream = some (world.nextEvent stream) := by
  unfold nextEvent World.nextEvent
  cases world.streamHandle? stream with
  | none => rfl
  | some held =>
      simp only
      split
      · rfl
      rcases hread : world.readFile held.2.file LineEvent.recordSize with ⟨found | errno | _, after⟩
      · have hlength := hfit held.2.file LineEvent.recordSize found (by rw [hread])
        simp only [oneRecord_eq hlength, Option.bind_eq_bind, Option.bind_some]
        cases LineEvent.ofRecord? found <;> rfl
      · simp only
        split <;> rfl
      · rfl

/-- However many events are asked for, the buffer has room for them. -/
theorem readEvents_eq (hfit : ReadsFit world) (line : Line) (limit : Nat) :
    readEvents world line limit = some (world.readEvents line limit) := by
  unfold readEvents World.readEvents
  cases world.eventHandle line with
  | error error => rfl
  | ok held =>
      simp only
      split
      · rfl
      have hroom : LineEvent.recordSize * min limit maxEvents ≤
          (List.replicate (LineEvent.recordSize * maxEvents) (0 : UInt8)).length := by
        rw [List.length_replicate]
        exact Nat.mul_le_mul_left _ (Nat.min_le_right ..)
      have hwindow : ((List.replicate (LineEvent.recordSize * maxEvents) (0 : UInt8)).take
          (LineEvent.recordSize * min limit maxEvents)).length =
            LineEvent.recordSize * min limit maxEvents := List.length_take_of_le hroom
      simp only [slice?_zero hroom, Option.bind_eq_bind, Option.bind_some, hwindow]
      rcases hread : world.readFile held.2.file (LineEvent.recordSize * min limit maxEvents)
        with ⟨found | errno | _, after⟩
      · have hlength := hfit held.2.file _ found (by rw [hread])
        rw [← hwindow] at hlength
        simp only [severalRecords_eq hlength, Option.bind_some]
        cases LineEvent.ofRecords? found <;> rfl
      · rfl
      · rfl

end World.Strict

/-- Whatever the library looks up by its place is there. -/
structure World.Indexed {σ : Type} [Machine σ] (world : World σ) : Prop where
  taken : ∀ lines, Strict.firstTaken world lines = some (world.firstTaken? [] lines)
  handle : ∀ group, Strict.valuesHandle world group = some (world.valuesHandle group)
  ordered : ∀ (group : Group) handle values,
    Strict.inRequestOrder group handle values = some (group.inRequestOrder handle values)
  values : ∀ group, Strict.getValues world group = some (world.getValues group)
  value : ∀ line, ∃ outcome,
    Strict.getValue world line = some (outcome, (world.getValues (.single line)).2) ∧
      outcome.map (fun value => [value]) = (world.getValues (.single line)).1
  event : ∀ line, Strict.readEvent world line = some (world.readEvent line)
  /-- However many events are asked for. -/
  events : ∀ line limit, Strict.readEvents world line limit = some (world.readEvents line limit)
  next : ∀ stream, Strict.nextEvent world stream = some (world.nextEvent stream)

/-- **The library finds what it looks up**, if no read overruns its buffer. -/
theorem World.indexed {σ : Type} [Machine σ] {world : World σ} (hsound : world.ledger.Sound)
    (hfit : Strict.ReadsFit world) : world.Indexed where
  taken := Strict.firstTaken_eq world
  handle := Strict.valuesHandle_eq world
  ordered := Strict.inRequestOrder_eq
  values := Strict.getValues_eq hsound
  value := Strict.getValue_eq hsound
  event := Strict.readEvent_eq hfit
  events := Strict.readEvents_eq hfit
  next := Strict.nextEvent_eq hfit

end GpioLines
