import GpioLines.Proofs.Listening

/-!
# What readers receive

There are three ways to read the events of a handle, and each takes whole records from the front of
its file: one, a batch, or one for a stream. A reader that finds none goes away empty-handed and
leaves the file as it is. So what is received and what is left make up what was there.
-/

namespace GpioLines

namespace World

variable {σ : Type} {world : World σ}

theorem holds_of_eventHandle {line : Line} {id : HandleId} {handle : Handle}
    (h : world.eventHandle line = .ok (id, handle)) : (world.slot line).handle? = some id := by
  rw [eventHandle, bind_eq_ok] at h
  obtain ⟨-, -, h⟩ := h
  split at h
  · cases h
  · next held hheld =>
    split at h
    · obtain rfl := Except.ok.inj h
      exact (handle?_eq_some.mp hheld).1
    · cases h

end World

/-! ### Reading a file -/

namespace World.Hears

variable {world after : World (Traced Bench)} {feed : Feed} {id key : HandleId}
  {others : List FileId} {pending : List LineEvent} {handle : Handle} {outcome : ReadOutcome}

theorem flatMap_record_eq_nil : pending.flatMap LineEvent.record = [] ↔ pending = [] := by
  rw [← List.length_eq_zero_iff, LineEvent.length_flatMap_record, ← List.length_eq_zero_iff]
  simp only [LineEvent.recordSize]
  omega

/-- A read of records takes events from the front if it goes through this handle, and none if it
goes through another. -/
theorem readFile (h : world.Hears feed id others (pending.flatMap LineEvent.record))
    (hunclaimed : Unclaimed feed.file world.trace) (hget : world.handles.get? key = some handle)
    {count : Nat} (hcount : count ≠ 0)
    (hread : world.readFile handle.file (LineEvent.recordSize * count) = (outcome, after)) :
    ∃ taken rest, pending = taken ++ rest ∧ after.Hears feed id others (rest.flatMap LineEvent.record) ∧
      taken.length ≤ count ∧ (key ≠ id ∧ taken = [] ∨
        key = id ∧ taken = [] ∧ (outcome = .blocked ∨ outcome = .failed .wouldBlock) ∨
        key = id ∧ taken ≠ [] ∧ outcome = .bytes (taken.flatMap LineEvent.record)) := by
  by_cases hkey : key = id
  · subst hkey
    have hfile := h.file handle hget
    have hserves := h.serves hunclaimed (Option.isSome_of_eq_some hget)
    have houtcome : outcome = (world.bench.read feed.file (LineEvent.recordSize * count)).1 :=
      hfile ▸ (Prod.mk.inj hread).1.symm
    refine ⟨pending.take count, pending.drop count, (List.take_append_drop ..).symm, ?_,
      List.length_take_le .., Or.inr ?_⟩
    · rw [readFile_eq hread, ← LineEvent.drop_flatMap_record, hfile]
      exact h.of_handles (List.Subset.refl _) rfl fun hserves => hserves.read _
    · obtain ⟨opened, hopened, hsource⟩ := hserves.pending
      rw [houtcome, ← LineEvent.take_flatMap_record]
      rcases Bench.read_socket hopened hsource (LineEvent.recordSize * count) with
        ⟨hempty, hwaits⟩ | ⟨hsome, hfound⟩
      · obtain rfl := flatMap_record_eq_nil.mp hempty
        exact Or.inl ⟨rfl, List.take_nil, hwaits⟩
      · refine Or.inr ⟨rfl, ?_, hfound⟩
        rw [Ne, List.take_eq_nil_iff, not_or]
        exact ⟨hcount, mt flatMap_record_eq_nil.mpr hsome⟩
  · refine ⟨[], pending, rfl, ?_, Nat.zero_le _, Or.inl ⟨hkey, rfl⟩⟩
    rw [readFile_eq hread]
    refine h.step (List.Subset.refl _) le_rfl (fun _ found hfound => Or.inl ⟨found, hfound, rfl⟩)
      fun _ _ hsole hserves => ?_
    exact hserves.readOther (fun hfile => hkey (hsole key handle hget hfile)) _

theorem readRecord (h : world.Hears feed id others (pending.flatMap LineEvent.record))
    (hunclaimed : Unclaimed feed.file world.trace) (hget : world.handles.get? key = some handle)
    (hread : world.readFile handle.file LineEvent.recordSize = (outcome, after)) :
    ∃ taken rest, pending = taken ++ rest ∧ after.Hears feed id others (rest.flatMap LineEvent.record) ∧
      (key ≠ id ∧ taken = [] ∨
        key = id ∧ taken = [] ∧ (outcome = .blocked ∨ outcome = .failed .wouldBlock) ∨
        key = id ∧ ∃ event bytes, taken = [event] ∧ outcome = .bytes bytes ∧
          LineEvent.ofRecord? bytes = some event) := by
  have hone : world.readFile handle.file (LineEvent.recordSize * 1) = (outcome, after) := hread
  obtain ⟨taken, rest, hpending, hears, hlength, hfound⟩ :=
    h.readFile hunclaimed hget Nat.one_ne_zero hone
  refine ⟨taken, rest, hpending, hears, hfound.imp_right (Or.imp_right ?_)⟩
  rintro ⟨hkey, hsome, houtcome⟩
  obtain ⟨event, rfl⟩ := List.length_eq_one_iff.mp
    (Nat.le_antisymm hlength (List.length_pos_iff.mpr hsome))
  exact ⟨hkey, event, _, rfl, houtcome, LineEvent.ofRecord?_append event []⟩

end World.Hears

/-! ### The three readers -/

/-- The events that an operation returns, if it reads them through this handle. -/
def Operation.received {σ : Type} [Machine σ] (id : HandleId) (world : World σ) :
    Operation → List LineEvent
  | .readEvent line =>
    if (world.slot line).handle? = some id then
      match (world.readEvent line).1 with
      | .ok (.ready event) => [event]
      | _ => []
    else []
  | .readEvents line limit =>
    if (world.slot line).handle? = some id then
      match (world.readEvents line limit).1 with
      | .ok (.ready events) => events
      | _ => []
    else []
  | .nextEvent stream =>
    if world.streams.get? stream = some id then
      match (world.nextEvent stream).1 with
      | .ok (.ready event) => [event]
      | _ => []
    else []
  | _ => []

theorem Operation.received_of_not_reads {σ : Type} [Machine σ] (id : HandleId) (world : World σ)
    {operation : Operation} (h : ¬ operation.Reads) : operation.received id world = [] := by
  cases operation with
  | readEvent | readEvents | nextEvent => exact absurd trivial h
  | _ => rfl

namespace World.Hears

variable {world : World (Traced Bench)} {feed : Feed} {id : HandleId} {others : List FileId}
  {pending : List LineEvent}

theorem readEvent (h : world.Hears feed id others (pending.flatMap LineEvent.record))
    (hunclaimed : Unclaimed feed.file world.trace) (line : Line) :
    ∃ rest, pending = (Operation.readEvent line).received id world ++ rest ∧
      (world.readEvent line).2.Hears feed id others (rest.flatMap LineEvent.record) := by
  cases hhandle : world.eventHandle line with
  | error error =>
      refine ⟨pending, ?_, ?_⟩
      · simp only [Operation.received, World.readEvent, hhandle, World.fail, ite_self,
          List.nil_append]
      · rw [World.readEvent, hhandle]
        exact h.of_machine_eq rfl rfl
  | ok entry =>
      obtain ⟨key, handle⟩ := entry
      obtain ⟨hget, -⟩ := eventHandle_ok hhandle
      have hholds := holds_of_eventHandle hhandle
      rcases hread : world.readFile handle.file LineEvent.recordSize with ⟨outcome, after⟩
      obtain ⟨taken, rest, rfl, hears, hfound⟩ := h.readRecord hunclaimed hget hread
      refine ⟨rest, ?_, hears.of_machine_eq ?_ ?_⟩
      · simp only [Operation.received, World.readEvent, hhandle, hread, hholds, Option.some.injEq]
        rcases hfound with ⟨hne, rfl⟩ | ⟨rfl, rfl, rfl | rfl⟩ | ⟨rfl, event, bytes, rfl, rfl, hrecord⟩
        · rw [if_neg hne]
        · rw [if_pos rfl]
        · rw [if_pos rfl]
          rfl
        · simp only [hrecord, if_true]
      all_goals
        simp only [World.readEvent, hhandle, hread]
        cases outcome with
        | blocked | failed => rfl
        | bytes =>
          simp only
          split <;> rfl

theorem readEvents (h : world.Hears feed id others (pending.flatMap LineEvent.record))
    (hunclaimed : Unclaimed feed.file world.trace) (line : Line) (limit : Nat) :
    ∃ rest, pending = (Operation.readEvents line limit).received id world ++ rest ∧
      (world.readEvents line limit).2.Hears feed id others (rest.flatMap LineEvent.record) := by
  cases hhandle : world.eventHandle line with
  | error error =>
      refine ⟨pending, ?_, ?_⟩
      · simp only [Operation.received, World.readEvents, hhandle, World.fail, ite_self,
          List.nil_append]
      · rw [World.readEvents, hhandle]
        exact h.of_machine_eq rfl rfl
  | ok entry =>
      obtain ⟨key, handle⟩ := entry
      obtain ⟨hget, -⟩ := eventHandle_ok hhandle
      have hholds := holds_of_eventHandle hhandle
      by_cases hcount : min limit maxEvents = 0
      · refine ⟨pending, ?_, ?_⟩
        · simp only [Operation.received, World.readEvents, hhandle, hcount, if_true, ite_self,
            List.nil_append]
        · simp only [World.readEvents, hhandle, hcount, if_true]
          exact h
      rcases hread : world.readFile handle.file (LineEvent.recordSize * min limit maxEvents)
        with ⟨outcome, after⟩
      obtain ⟨taken, rest, rfl, hears, -, hfound⟩ := h.readFile hunclaimed hget hcount hread
      refine ⟨rest, ?_, hears.of_machine_eq ?_ ?_⟩
      · simp only [Operation.received, World.readEvents, hhandle, hread, hholds, if_neg hcount,
          Option.some.injEq]
        rcases hfound with ⟨hne, rfl⟩ | ⟨rfl, rfl, rfl | rfl⟩ | ⟨rfl, hsome, rfl⟩
        · rw [if_neg hne]
        · rw [if_pos rfl]
        · rw [if_pos rfl]
          rfl
        · simp only [LineEvent.ofRecords?_flatMap hsome, if_true]
      all_goals
        simp only [World.readEvents, hhandle, hread, if_neg hcount]
        cases outcome with
        | blocked | failed => rfl
        | bytes =>
          simp only
          split <;> rfl

theorem nextEvent (h : world.Hears feed id others (pending.flatMap LineEvent.record))
    (hunclaimed : Unclaimed feed.file world.trace) (stream : StreamId) :
    ∃ rest, pending = (Operation.nextEvent stream).received id world ++ rest ∧
      (world.nextEvent stream).2.Hears feed id others (rest.flatMap LineEvent.record) := by
  -- a stream that is not polled leaves everything as it is
  have hidle : world.nextEvent stream = (.ok .pending, world) →
      ∃ rest, pending = (Operation.nextEvent stream).received id world ++ rest ∧
        (world.nextEvent stream).2.Hears feed id others (rest.flatMap LineEvent.record) := by
    intro hnothing
    refine ⟨pending, ?_, hnothing ▸ h⟩
    simp only [Operation.received, hnothing, ite_self, List.nil_append]
  cases hhandle : world.streamHandle? stream with
  | none => exact hidle (by rw [World.nextEvent, hhandle])
  | some entry =>
      obtain ⟨key, hholds, hheld⟩ := Option.bind_eq_some_iff.mp hhandle
      obtain ⟨handle, hget, rfl⟩ := Option.map_eq_some_iff.mp hheld
      by_cases hready : Machine.readiness handle.file world.machine = .input
      · rcases hread : world.readFile handle.file LineEvent.recordSize with ⟨outcome, after⟩
        obtain ⟨taken, rest, rfl, hears, hfound⟩ := h.readRecord hunclaimed hget hread
        have hpolled : ¬ Machine.readiness handle.file world.machine ≠ .input := not_not.mpr hready
        refine ⟨rest, ?_, hears.of_machine_eq ?_ ?_⟩
        · simp only [Operation.received, World.nextEvent, hhandle, hread, hholds, if_neg hpolled,
            Option.some.injEq]
          rcases hfound with
            ⟨hne, rfl⟩ | ⟨rfl, rfl, rfl | rfl⟩ | ⟨rfl, event, bytes, rfl, rfl, hrecord⟩
          · rw [if_neg hne]
          · rw [if_pos rfl]
          · rw [if_pos rfl]
            rfl
          · simp only [hrecord, if_true]
        all_goals
          simp only [World.nextEvent, hhandle, hread, if_neg hpolled]
          cases outcome with
          | blocked => rfl
          | failed | bytes =>
            simp only
            split <;> rfl
      · refine hidle ?_
        rw [World.nextEvent, hhandle]
        exact if_pos hready

/-- **What is received and what is left make up what was there.** -/
theorem operation {lent : List (Device × FileId)} (haccord : world.Accord lent)
    (hsound : Desk.Sound ⟨world, 0⟩)
    (h : world.Hears feed id others (pending.flatMap LineEvent.record))
    (hunclaimed : Unclaimed feed.file world.trace) {operation : Operation}
    (hgroups : ∀ group ∈ operation.groups, group.WellFormed) :
    ∃ rest, pending = operation.received id world ++ rest ∧
      (operation.run world).2.Hears feed id others (rest.flatMap LineEvent.record) := by
  by_cases hreads : operation.Reads
  · cases operation with
    | readEvent line => exact h.readEvent hunclaimed line
    | readEvents line limit => exact h.readEvents hunclaimed line limit
    | nextEvent stream => exact h.nextEvent hunclaimed stream
    | _ => cases hreads
  · refine ⟨pending, ?_, Unread.hears (operation.unread hsound hgroups hreads) haccord h⟩
    rw [Operation.received_of_not_reads id world hreads, List.nil_append]

end World.Hears

end GpioLines
