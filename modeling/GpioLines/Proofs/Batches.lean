import GpioLines.Proofs.Queues
import GpioLines.Proofs.Records
import GpioLines.Proofs.Groups

/-!
# Batches and single reads

The events of a handle can be read one by one, several at a time, or through a stream. All three
readers share one queue, and anything can be in it: records, parts of records, or records that begin
in the middle of others. Whatever it is, a batch that succeeds has the events that as many single
reads have, and takes the same bytes; if it fails, what it was given is gone. The batch is decoded
record by record (`decodeAll`), and so are the single reads, by induction on their number.
-/

namespace GpioLines

/-! ### Decoding -/

namespace LineEvent

/-- The event in the first record of at least sixteen bytes. -/
def decode (bytes : List UInt8) : LineEvent where
  timestamp := UInt64.ofNat (Bytes.toNat (Bytes.field 0 8 bytes))
  edge := Edge.ofNumber (Bytes.toNat (Bytes.field 8 4 bytes))

/-- The events in the first so many records. -/
def decodeAll : Nat → List UInt8 → List LineEvent
  | 0, _ => []
  | count + 1, bytes =>
    decode (bytes.take recordSize) :: decodeAll count (bytes.drop recordSize)

@[simp] theorem length_decodeAll (count : Nat) (bytes : List UInt8) :
    (decodeAll count bytes).length = count := by
  induction count generalizing bytes with
  | zero => rfl
  | succ count ih => rw [decodeAll, List.length_cons, ih]

theorem ofRecord?_of_le {bytes : List UInt8} (h : recordSize ≤ bytes.length) :
    ofRecord? bytes = some (decode bytes) := if_neg (Nat.not_lt.mpr h)

theorem ofRecord?_of_lt {bytes : List UInt8} (h : bytes.length < recordSize) :
    ofRecord? bytes = none := if_pos h

theorem front_of_le {queue : List UInt8} (h : recordSize ≤ queue.length) :
    front queue = .ok (.ready (decode (queue.take recordSize))) := by
  have htaken : recordSize ≤ (queue.take recordSize).length := by
    rw [List.length_take]
    omega
  rw [front, ofRecord?_of_le htaken, Option.elim_some]

theorem front_of_lt {queue : List UInt8} (h : queue.length < recordSize) :
    front queue = .error (.event .ioFailure) := by
  have htaken : (queue.take recordSize).length < recordSize := by
    rw [List.length_take]
    omega
  rw [front, ofRecord?_of_lt htaken, Option.elim_none]

/-- Only the first twelve bytes of a record matter. -/
theorem decode_congr {bytes other : List UInt8} (h : bytes.take 12 = other.take 12) :
    decode bytes = decode other := by
  have hfield : ∀ start width, start + width ≤ 12 →
      Bytes.field start width bytes = Bytes.field start width other := by
    intro start width hle
    have hinside : ∀ list : List UInt8,
        Bytes.field start width list = Bytes.field start width (list.take 12) := by
      intro list
      rw [Bytes.field, Bytes.field, List.drop_take, List.take_take,
        Nat.min_eq_left (Nat.le_sub_of_add_le' hle)]
    rw [hinside, h, ← hinside]
  rw [decode, decode, hfield 0 8 (by decide), hfield 8 4 (by decide)]

theorem decodeAll_take {count limit : Nat} (bytes : List UInt8) (h : recordSize * count ≤ limit) :
    decodeAll count (bytes.take limit) = decodeAll count bytes := by
  induction count generalizing bytes limit with
  | zero => rfl
  | succ count ih =>
      rw [Nat.mul_succ] at h
      have hfirst : (bytes.take limit).take recordSize = bytes.take recordSize := by
        rw [List.take_take, Nat.min_eq_left (Nat.le_of_add_left_le h)]
      rw [decodeAll, decodeAll, hfirst, List.drop_take, ih _ (Nat.le_sub_of_add_le h)]

/-- The records of a batch are decoded as if they were alone. -/
theorem mapM_ofRecord? {count : Nat} {bytes : List UInt8} (h : recordSize * count ≤ bytes.length) :
    ((List.range count).mapM fun i => ofRecord? (Bytes.field (recordSize * i) recordSize bytes)) =
      some (decodeAll count bytes) := by
  induction count generalizing bytes with
  | zero => rfl
  | succ count ih =>
      rw [Nat.mul_succ] at h
      have hfirst : ofRecord? (Bytes.field (recordSize * 0) recordSize bytes) =
          some (decode (bytes.take recordSize)) := by
        refine ofRecord?_of_le ?_
        rw [Bytes.field, Nat.mul_zero, List.drop_zero, List.length_take]
        exact Nat.le_min.mpr ⟨le_rfl, Nat.le_of_add_left_le h⟩
      have hothers : ∀ i, Bytes.field (recordSize * (i + 1)) recordSize bytes =
          Bytes.field (recordSize * i) recordSize (bytes.drop recordSize) := by
        intro i
        rw [Bytes.field, Bytes.field, List.drop_drop, Nat.mul_succ, Nat.add_comm]
      have hrest : recordSize * count ≤ (bytes.drop recordSize).length := by
        rw [List.length_drop]
        exact Nat.le_sub_of_add_le h
      rw [List.range_succ_eq_map, List.mapM_cons, List.mapM_map, hfirst]
      simp only [Function.comp_def, Nat.succ_eq_add_one, hothers, ih hrest]
      rfl

theorem ofRecords?_eq_decodeAll {bytes : List UInt8} (hsome : bytes ≠ [])
    (h : bytes.length % recordSize = 0) :
    ofRecords? bytes = some (decodeAll (bytes.length / recordSize) bytes) := by
  have hwhole : ¬ (bytes.length = 0 ∨ bytes.length % recordSize ≠ 0) := by
    rintro (hnone | htorn)
    · exact hsome (List.length_eq_zero_iff.mp hnone)
    · exact htorn h
  rw [ofRecords?, if_neg hwhole]
  exact mapM_ofRecord? (Nat.mul_div_le ..)

theorem ofRecords?_of_torn {bytes : List UInt8} (h : bytes.length % recordSize ≠ 0) :
    ofRecords? bytes = none := if_pos (Or.inr h)

end LineEvent

/-! ### Reading a queue -/

namespace World

variable {σ : Type} [Machine σ]

/-- Reads an event so many times, until a read fails or would have to wait. -/
def readOneByOne (world : World σ) (line : Line) :
    Nat → Except Error (Polled (List LineEvent)) × World σ
  | 0 => (.ok (.ready []), world)
  | count + 1 =>
    match world.readEvent line with
    | (.error error, world) => (.error error, world)
    | (.ok .pending, world) => (.ok .pending, world)
    | (.ok (.ready event), world) =>
      match world.readOneByOne line count with
      | (.ok (.ready events), world) => (.ok (.ready (event :: events)), world)
      | stopped => stopped

end World

namespace Session

variable {session mid after : Session} {line : Line} {id : HandleId} {handle : Handle}
  {file : FileId} {count more : Nat} {queue : List UInt8}

/-- So many bytes were read from a file. The log may have grown, and nothing else has changed. -/
structure Drained (session : Session) (file : FileId) (count : Nat) (after : Session) : Prop where
  machine : session.machine.Drained file count after.machine
  rest : after = { session with machine := after.machine, log := after.log }

namespace Drained

theorem refl (session : Session) (file : FileId) : session.Drained file 0 session :=
  ⟨.refl _ _, rfl⟩

theorem trans (h : session.Drained file count mid) (hmore : mid.Drained file more after) :
    session.Drained file (count + more) after where
  machine := h.machine.trans hmore.machine
  rest := by
    rw [hmore.rest, h.rest]

theorem eventHandle (h : session.Drained file count after) (line : Line) :
    after.eventHandle line = session.eventHandle line := by
  rw [h.rest]
  rfl

end Drained

/-- Reads are about the queue alone. -/
theorem readFile_queue (h : session.machine.queue file ≠ []) (limit : Nat) :
    ∃ after, session.readFile file limit = (.bytes ((session.machine.queue file).take limit), after) ∧
      after = { session with machine := after.machine } ∧
      session.machine.Drained file (min limit (session.machine.queue file).length) after.machine := by
  obtain ⟨hbytes, hdrained⟩ := Bench.read_queue h limit
  refine ⟨{ session with machine := (session.machine.read file limit).2 }, ?_, rfl, hdrained⟩
  exact Prod.ext hbytes rfl

/-- A single read takes a record, or what there is of one. -/
theorem readEvent_queue (hserved : session.eventHandle line = .ok (id, handle))
    (h : session.machine.queue handle.file ≠ []) :
    ∃ after, session.Drained handle.file
        (min LineEvent.recordSize (session.machine.queue handle.file).length) after ∧
      session.readEvent line =
        (LineEvent.front (session.machine.queue handle.file), after) := by
  obtain ⟨mid, hread, hmid, hdrained⟩ := readFile_queue h LineEvent.recordSize
  have hrest : ∀ log, session.Drained handle.file
      (min LineEvent.recordSize (session.machine.queue handle.file).length)
      { mid with log := log } := by
    intro log
    refine ⟨hdrained, ?_⟩
    rw [hmid]
  rw [World.readEvent, hserved]
  simp only [hread, LineEvent.front]
  cases LineEvent.ofRecord? ((session.machine.queue handle.file).take LineEvent.recordSize) with
  | none => exact ⟨_, hrest _, rfl⟩
  | some event => exact ⟨_, hrest _, rfl⟩

/-- A stream reads as its line does. -/
theorem nextEvent_queue {stream : StreamId}
    (hserved : session.streamHandle? stream = some (id, handle))
    (h : session.machine.queue handle.file ≠ []) :
    ∃ after, session.Drained handle.file
        (min LineEvent.recordSize (session.machine.queue handle.file).length) after ∧
      session.nextEvent stream =
        (LineEvent.front (session.machine.queue handle.file), after) := by
  obtain ⟨mid, hread, hmid, hdrained⟩ := readFile_queue h LineEvent.recordSize
  have hrest : ∀ log, session.Drained handle.file
      (min LineEvent.recordSize (session.machine.queue handle.file).length)
      { mid with log := log } := by
    intro log
    refine ⟨hdrained, ?_⟩
    rw [hmid]
  have hready : Machine.readiness handle.file session.machine = .input := Bench.readiness_of_queue h
  rw [World.nextEvent, hserved]
  simp only [hready, ne_eq, not_true_eq_false, if_false, hread, LineEvent.front]
  cases LineEvent.ofRecord? ((session.machine.queue handle.file).take LineEvent.recordSize) with
  | none => exact ⟨_, hrest _, rfl⟩
  | some event => exact ⟨_, hrest mid.log, rfl⟩

/-- As many single reads as there are records give the events of these records. -/
theorem readOneByOne_queue (hserved : session.eventHandle line = .ok (id, handle))
    (h : LineEvent.recordSize * count ≤ (session.machine.queue handle.file).length) :
    ∃ after, session.Drained handle.file (LineEvent.recordSize * count) after ∧
      session.readOneByOne line count =
        (.ok (.ready (LineEvent.decodeAll count (session.machine.queue handle.file))), after) := by
  induction count generalizing session with
  | zero => exact ⟨session, .refl session handle.file, rfl⟩
  | succ count ih =>
      rw [Nat.mul_succ] at h
      have hfull : LineEvent.recordSize ≤ (session.machine.queue handle.file).length :=
        Nat.le_of_add_left_le h
      have hsome : session.machine.queue handle.file ≠ [] := by
        intro hnil
        rw [hnil] at hfull
        exact absurd hfull (by decide)
      obtain ⟨mid, hmid, hread⟩ := readEvent_queue hserved hsome
      rw [Nat.min_eq_left hfull] at hmid
      rw [LineEvent.front_of_le hfull] at hread
      have hrest : LineEvent.recordSize * count ≤ (mid.machine.queue handle.file).length := by
        rw [hmid.machine.queue, List.length_drop]
        exact Nat.le_sub_of_add_le h
      obtain ⟨after, hafter, hothers⟩ := ih ((hmid.eventHandle line).trans hserved) hrest
      refine ⟨after, ?_, ?_⟩
      · rw [Nat.mul_succ, Nat.add_comm]
        exact hmid.trans hafter
      · rw [World.readOneByOne, hread]
        simp only [hothers, hmid.machine.queue, LineEvent.decodeAll]

/-- A batch takes what it asked for, or what there is, whether it can be decoded or not. -/
theorem readEvents_queue (hserved : session.eventHandle line = .ok (id, handle))
    (h : session.machine.queue handle.file ≠ []) {limit : Nat} (hlimit : min limit maxEvents ≠ 0) :
    ∃ after, session.Drained handle.file (min (LineEvent.recordSize * min limit maxEvents)
        (session.machine.queue handle.file).length) after ∧
      session.readEvents line limit =
        (match LineEvent.ofRecords? ((session.machine.queue handle.file).take
            (LineEvent.recordSize * min limit maxEvents)) with
          | none => .error (.event .ioFailure)
          | some events => .ok (.ready events), after) := by
  obtain ⟨mid, hread, hmid, hdrained⟩ :=
    readFile_queue h (LineEvent.recordSize * min limit maxEvents)
  have hrest : ∀ log, session.Drained handle.file (min (LineEvent.recordSize * min limit maxEvents)
      (session.machine.queue handle.file).length) { mid with log := log } := by
    intro log
    refine ⟨hdrained, ?_⟩
    rw [hmid]
  rw [World.readEvents, hserved]
  simp only [if_neg hlimit, hread]
  cases LineEvent.ofRecords? ((session.machine.queue handle.file).take
      (LineEvent.recordSize * min limit maxEvents)) with
  | none => exact ⟨_, hrest _, rfl⟩
  | some events => exact ⟨_, hrest mid.log, rfl⟩

/-! ### The readers agree -/

/-- How many bytes a batch read takes from a queue. -/
def batchSize (limit : Nat) (queue : List UInt8) : Nat :=
  min (LineEvent.recordSize * min limit maxEvents) queue.length

theorem length_take_batch (limit : Nat) (queue : List UInt8) :
    (queue.take (LineEvent.recordSize * min limit maxEvents)).length = batchSize limit queue :=
  List.length_take

theorem batchSize_of_none {limit : Nat} (hlimit : min limit maxEvents = 0) (queue : List UInt8) :
    batchSize limit queue = 0 := by
  rw [batchSize, hlimit, Nat.mul_zero, Nat.zero_min]

theorem readEvents_none (hserved : session.eventHandle line = .ok (id, handle)) {limit : Nat}
    (hlimit : min limit maxEvents = 0) :
    session.readEvents line limit = (.ok (.ready []), session) := by
  rw [World.readEvents, hserved]
  simp only [hlimit, if_true]

/-- A batch of whole records is decoded record by record. -/
theorem readEvents_whole (hserved : session.eventHandle line = .ok (id, handle))
    (hqueue : session.machine.queue handle.file = queue) (hsome : queue ≠ []) {limit : Nat}
    (hwhole : batchSize limit queue % LineEvent.recordSize = 0) :
    ∃ after, session.Drained handle.file (batchSize limit queue) after ∧
      session.readEvents line limit = (.ok (.ready
        (LineEvent.decodeAll (batchSize limit queue / LineEvent.recordSize) queue)), after) := by
  by_cases hlimit : min limit maxEvents = 0
  · rw [batchSize_of_none hlimit]
    exact ⟨session, .refl _ _, readEvents_none hserved hlimit⟩
  subst hqueue
  obtain ⟨after, hafter, hread⟩ := readEvents_queue hserved hsome hlimit
  refine ⟨after, hafter, ?_⟩
  have hbytes : (session.machine.queue handle.file).take
      (LineEvent.recordSize * min limit maxEvents) ≠ [] := by
    rw [Ne, List.take_eq_nil_iff, not_or]
    exact ⟨Nat.mul_ne_zero (by decide) hlimit, hsome⟩
  have hinside : LineEvent.recordSize *
      (batchSize limit (session.machine.queue handle.file) / LineEvent.recordSize) ≤
      LineEvent.recordSize * min limit maxEvents :=
    (Nat.mul_div_le ..).trans (Nat.min_le_left ..)
  rw [← length_take_batch] at hwhole
  rw [hread, LineEvent.ofRecords?_eq_decodeAll hbytes hwhole, length_take_batch,
    LineEvent.decodeAll_take _ hinside]

theorem readEvents_torn (hserved : session.eventHandle line = .ok (id, handle))
    (hqueue : session.machine.queue handle.file = queue) (hsome : queue ≠ []) {limit : Nat}
    (htorn : batchSize limit queue % LineEvent.recordSize ≠ 0) :
    ∃ after, session.Drained handle.file (batchSize limit queue) after ∧
      session.readEvents line limit = (.error (.event .ioFailure), after) := by
  have hlimit : min limit maxEvents ≠ 0 := by
    intro hlimit
    rw [batchSize_of_none hlimit] at htorn
    exact htorn rfl
  subst hqueue
  obtain ⟨after, hafter, hread⟩ := readEvents_queue hserved hsome hlimit
  rw [← length_take_batch] at htorn
  exact ⟨after, hafter, by rw [hread, LineEvent.ofRecords?_of_torn htorn]⟩

theorem decoding_of_fields {fields padding : List UInt8} (hfields : fields.length = 12)
    (hpadding : padding.length = 4) :
    LineEvent.ofRecord? (fields ++ padding) = some (LineEvent.decode fields) := by
  have hlong : LineEvent.recordSize ≤ (fields ++ padding).length := by
    rw [List.length_append, hfields, hpadding]
    exact le_rfl
  rw [LineEvent.ofRecord?_of_le hlong]
  refine congrArg some (LineEvent.decode_congr ?_)
  rw [List.take_left' hfields, List.take_of_length_le (Nat.le_of_eq hfields)]

/-- What the readers of a file make of the bytes in its queue. -/
structure ReadersAgree (session : Session) (line : Line) (id : HandleId) (file : FileId)
    (queue : List UInt8) : Prop where
  nothing : ∀ limit, min limit maxEvents = 0 →
    session.readEvents line limit = (.ok (.ready []), session)
  /-- A batch of whole records is what as many single reads are: the events of the records at the
  front of the queue. -/
  whole : ∀ limit, batchSize limit queue % LineEvent.recordSize = 0 →
    ∃ events batch single,
      events = LineEvent.decodeAll (batchSize limit queue / LineEvent.recordSize) queue ∧
      events.length = batchSize limit queue / LineEvent.recordSize ∧
      session.readEvents line limit = (.ok (.ready events), batch) ∧
      session.readOneByOne line events.length = (.ok (.ready events), single) ∧
      session.Drained file (batchSize limit queue) batch ∧
      session.Drained file (batchSize limit queue) single ∧
      batch.machine.queue file = queue.drop (batchSize limit queue) ∧
      single.machine.queue file = queue.drop (batchSize limit queue)
  torn : ∀ limit, batchSize limit queue % LineEvent.recordSize ≠ 0 →
    ∃ after, session.readEvents line limit = (.error (.event .ioFailure), after) ∧
      session.Drained file (batchSize limit queue) after ∧
      after.machine.queue file = queue.drop (batchSize limit queue)
  /-- A stream on the handle has for its next item what a single read has. -/
  single : ∃ result after, session.readEvent line = (result, after) ∧
    session.Drained file (min LineEvent.recordSize queue.length) after ∧
    (LineEvent.recordSize ≤ queue.length →
      result = .ok (.ready (LineEvent.decode (queue.take LineEvent.recordSize)))) ∧
    (queue.length < LineEvent.recordSize → result = .error (.event .ioFailure)) ∧
    ∀ stream, session.streams.get? stream = some id →
      ∃ streamed, session.nextEvent stream = (result, streamed) ∧
        session.Drained file (min LineEvent.recordSize queue.length) streamed
  /-- Whatever is not the number of a rising edge is a falling one, and the last four bytes of a
  record may be anything. -/
  decoding : ∀ fields padding, fields.length = 12 → padding.length = 4 →
    ∃ event, LineEvent.ofRecord? (fields ++ padding) = some event ∧
      event = LineEvent.decode (fields ++ padding) ∧
      event.edge = (if Bytes.toNat (Bytes.field 8 4 fields) = 1 then .rising else .falling) ∧
      ∀ other, other.length = 4 → LineEvent.ofRecord? (fields ++ other) = some event

/-- **Batch reading agrees with single reading**, and both with streams, on any bytes at all that
wait in the queue of an events handle. -/
theorem readers_agree (hserved : session.eventHandle line = .ok (id, handle))
    (hqueue : session.machine.queue handle.file = queue) (hsome : queue ≠ []) :
    session.ReadersAgree line id handle.file queue where
  nothing := fun _ hlimit => readEvents_none hserved hlimit
  whole := by
    intro limit hwhole
    have hfits : LineEvent.recordSize * (batchSize limit queue / LineEvent.recordSize) =
        batchSize limit queue := Nat.mul_div_cancel' (Nat.dvd_of_mod_eq_zero hwhole)
    have hthere : LineEvent.recordSize * (batchSize limit queue / LineEvent.recordSize) ≤
        (session.machine.queue handle.file).length := by
      rw [hfits, hqueue]
      exact Nat.min_le_right ..
    obtain ⟨batch, hbatch, hall⟩ := readEvents_whole hserved hqueue hsome hwhole
    obtain ⟨single, hsingle, hone⟩ := readOneByOne_queue hserved hthere
    rw [hfits] at hsingle
    rw [hqueue] at hone
    refine ⟨_, batch, single, rfl, LineEvent.length_decodeAll .., hall, ?_, hbatch, hsingle, ?_, ?_⟩
    · rw [LineEvent.length_decodeAll]
      exact hone
    · rw [hbatch.machine.queue, hqueue]
    · rw [hsingle.machine.queue, hqueue]
  torn := by
    intro limit htorn
    obtain ⟨after, hafter, hread⟩ := readEvents_torn hserved hqueue hsome htorn
    refine ⟨after, hread, hafter, ?_⟩
    rw [hafter.machine.queue, hqueue]
  single := by
    subst hqueue
    obtain ⟨after, hafter, hread⟩ := readEvent_queue hserved hsome
    refine ⟨_, after, hread, hafter, fun hlong => ?_, fun hshort => ?_, fun stream hstream => ?_⟩
    · exact LineEvent.front_of_le hlong
    · exact LineEvent.front_of_lt hshort
    · have hstreamed : session.streamHandle? stream = some (id, handle) := by
        rw [World.streamHandle?, hstream, Option.bind_some, (World.eventHandle_ok hserved).1]
        rfl
      obtain ⟨streamed, hdrained, hnext⟩ := nextEvent_queue hstreamed hsome
      exact ⟨streamed, hnext, hdrained⟩
  decoding := by
    intro fields padding hfields hpadding
    have hsame : (fields ++ padding).take 12 = fields.take 12 := by
      rw [List.take_left' hfields, List.take_of_length_le (Nat.le_of_eq hfields)]
    refine ⟨LineEvent.decode fields, decoding_of_fields hfields hpadding,
      (LineEvent.decode_congr hsame).symm, rfl, ?_⟩
    intro other hother
    exact decoding_of_fields hfields hother

/-- A line with two records and half of a third in its queue. -/
def crowded : Session :=
  let session := Session.start.onBench fun bench => (bench.addSimulator "gpiochip0" 2).2
  let session := (session.openChipOn (.simulator 0)).2
  let session := (session.request (.single ⟨0, 1⟩) { consumer := "", type := .eventBoth } none).2
  Session.onBench session fun bench => (bench.inject 0 1 (List.replicate 40 1)).2

/-- Two of the events are read in a batch, and the half record is what a larger batch stops at. -/
theorem readers_agree_crowded :
    crowded.machine.queue 0 = List.replicate 40 1 ∧
      (∃ events batch single, events = LineEvent.decodeAll 2 (List.replicate 40 1) ∧
        events.length = 2 ∧
        crowded.readEvents ⟨0, 1⟩ 2 = (.ok (.ready events), batch) ∧
        crowded.readOneByOne ⟨0, 1⟩ events.length = (.ok (.ready events), single) ∧
        batch.machine.queue 0 = List.replicate 8 1 ∧ single.machine.queue 0 = List.replicate 8 1) ∧
      ∃ after, crowded.readEvents ⟨0, 1⟩ 3 = (.error (.event .ioFailure), after) ∧
        after.machine.queue 0 = [] := by
  have hserved : crowded.eventHandle ⟨0, 1⟩ = .ok (0,
      { kind := .events, device := .simulator 0, file := 0, offsets := [1]
        flags := { input := true }, values := [] }) := by decide
  have hqueue : crowded.machine.queue 0 = List.replicate 40 1 := by decide
  have hagree := readers_agree hserved hqueue (by decide)
  refine ⟨hqueue, ?_, ?_⟩
  · obtain ⟨events, batch, single, hevents, hlength, hbatch, hsingle, -, -, hleft, hsame⟩ :=
      hagree.whole 2 (by decide)
    exact ⟨events, batch, single, hevents, hlength, hbatch, hsingle, hleft, hsame⟩
  · obtain ⟨after, hread, -, hleft⟩ := hagree.torn 3 (by decide)
    exact ⟨after, hread, hleft⟩

end Session

end GpioLines
