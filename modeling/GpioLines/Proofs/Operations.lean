import GpioLines.Proofs.Groups
import GpioLines.Proofs.Move
import GpioLines.World.Chips
import GpioLines.World.Wait

/-!
# Operations as chains of moves

Metadata, values, configurations, events and streams: none of these operations takes a line, so
their moves fit every scope. What is asked of a device is in order because the handle that it is
asked about is open, and because what is remembered of that handle is valid.
-/

namespace GpioLines

/-- An act that leaves the chips alone, and for which neither the log nor the waits matter. -/
structure Intervention.Aloof {σ : Type} (other : Intervention σ) : Prop where
  chips : ∀ world, (other.act world).chips = world.chips
  blind : ∀ (world : World σ) (log : Array Notice) (waiting : List HandleId), ∃ log',
    other.act { world with log, waiting } = { other.act world with log := log', waiting }

namespace World

variable {σ : Type} [Machine σ] {scope : Scope} {world : World σ} {owned : Multiset HandleId}

/-! ### Notes, failures and calls -/

theorem moves_note (notice : Notice) : Moves scope ⟨world, owned⟩ ⟨world.note notice, owned⟩ :=
  .single (.remark (world.log.push notice) world.tokens)

theorem moves_fail {α : Type} (error : Error) :
    Moves scope ⟨world, owned⟩ ⟨(@fail σ α world error).2, owned⟩ :=
  .single (.remark (world.log ++ error.notices) world.tokens)

theorem perform_eq {device : Device} {call : Call} {outcome : Outcome call} {after : World σ}
    (h : world.perform device call = (outcome, after)) :
    ∃ machine, Machine.perform device call world.machine = (outcome, machine) ∧
      after = { world with machine } := by
  obtain ⟨houtcome, hafter⟩ := Prod.mk.inj h
  refine ⟨(Machine.perform device call world.machine).2, ?_, hafter.symm⟩
  exact Prod.ext houtcome rfl

theorem ledger_of_perform {device : Device} {call : Call} {outcome : Outcome call}
    {after : World σ} (h : world.perform device call = (outcome, after)) :
    after.ledger = world.ledger := by
  obtain ⟨machine, -, rfl⟩ := perform_eq h
  rfl

theorem handles_of_perform {device : Device} {call : Call} {outcome : Outcome call}
    {after : World σ} (h : world.perform device call = (outcome, after)) :
    after.handles = world.handles :=
  congrArg Ledger.handles (ledger_of_perform h)

theorem openChip_of_perform {device : Device} {call : Call} {outcome : Outcome call}
    {after : World σ} (h : world.perform device call = (outcome, after)) :
    after.openChip = world.openChip := by
  obtain ⟨machine, -, rfl⟩ := perform_eq h
  rfl

theorem moves_of_perform {device : Device} {call : Call} {outcome : Outcome call}
    {after : World σ} (h : world.perform device call = (outcome, after))
    (hpermitted : call.Permitted device world.ledger.leases)
    (hungranted : call.granted device outcome = 0) :
    Moves scope ⟨world, owned⟩ ⟨after, owned⟩ := by
  have hmove : Move scope ⟨world, owned⟩ ⟨(world.perform device call).2, owned⟩ := by
    refine .call hpermitted ?_
    rw [h]
    exact hungranted
  rw [h] at hmove
  exact .single hmove

/-! ### Metadata -/

theorem moves_refresh (line : Line) :
    Moves scope ⟨world, owned⟩ ⟨(world.refresh line).2, owned⟩ := by
  unfold refresh
  split
  · exact moves_fail _
  · split
    · next info after h =>
      have hcall : Moves scope ⟨world, owned⟩ ⟨after, owned⟩ := moves_of_perform h trivial rfl
      exact hcall.tail (.retouch line fun _ => rfl)
    · next error after h =>
      have hcall : Moves scope ⟨world, owned⟩ ⟨after, owned⟩ := moves_of_perform h trivial rfl
      exact hcall.tail (.retouch line fun _ => rfl)

theorem moves_update (line : Line) : Moves scope ⟨world, owned⟩ ⟨world.update line, owned⟩ := by
  have hrefresh : Moves scope ⟨world, owned⟩ ⟨(world.refresh line).2, owned⟩ := moves_refresh line
  unfold update
  split
  · next h => rwa [h] at hrefresh
  · next h =>
    rw [h] at hrefresh
    exact hrefresh.trans (moves_note _)

theorem moves_updateAll (group : Group) :
    Moves scope ⟨world, owned⟩ ⟨world.updateAll group, owned⟩ := by
  unfold updateAll
  induction group.lines generalizing world with
  | nil => exact .refl
  | cons line rest ih => exact (moves_update line).trans ih

/-! ### Chips and their lines -/

theorem moves_openChipOn (device : Device) :
    Moves scope ⟨world, owned⟩ ⟨(world.openChipOn device).2, owned⟩ := by
  unfold openChipOn
  split
  · next h => exact moves_of_perform h trivial rfl
  · next info after h =>
    have hcall : Moves scope ⟨world, owned⟩ ⟨after, owned⟩ := moves_of_perform h trivial rfl
    exact (hcall.trans (moves_note _)).tail (.openChip device info)

theorem moves_getLine (id : ChipId) (offset : Offset) :
    Moves scope ⟨world, owned⟩ ⟨(world.getLine id offset).2, owned⟩ := by
  have hrefresh : Moves scope ⟨world, owned⟩ ⟨(world.refresh ⟨id, offset⟩).2, owned⟩ :=
    moves_refresh _
  unfold getLine
  split
  · exact moves_fail _
  · split
    · simp only
      split <;> next h => rwa [h] at hrefresh
    · exact moves_fail _

theorem moves_getLinesInto (id : ChipId) (group : Group) (offsets : List Offset) :
    Moves scope ⟨world, owned⟩ ⟨(world.getLinesInto id group offsets).2, owned⟩ := by
  induction offsets generalizing world group with
  | nil => exact .refl
  | cons offset rest ih =>
      have hline : Moves scope ⟨world, owned⟩ ⟨(world.getLine id offset).2, owned⟩ :=
        moves_getLine id offset
      unfold getLinesInto
      split
      · next h => rwa [h] at hline
      · next h =>
        rw [h] at hline
        split
        · exact hline.trans (moves_fail _)
        · exact hline.trans (ih _)

theorem moves_getLines (id : ChipId) (offsets : List Offset) :
    Moves scope ⟨world, owned⟩ ⟨(world.getLines id offsets).2, owned⟩ :=
  moves_getLinesInto id .empty offsets

theorem moves_findAmong (chip : Chip) (name : String) (offsets : List Offset) :
    Moves scope ⟨world, owned⟩ ⟨(world.findAmong chip name offsets).2, owned⟩ := by
  induction offsets generalizing world with
  | nil => exact moves_fail _
  | cons offset rest ih =>
      unfold findAmong
      split
      · next error after h =>
        have hcall : Moves scope ⟨world, owned⟩ ⟨after, owned⟩ := moves_of_perform h trivial rfl
        exact (hcall.trans (moves_note _)).trans ih
      · next info after h =>
        have hcall : Moves scope ⟨world, owned⟩ ⟨after, owned⟩ := moves_of_perform h trivial rfl
        split
        · exact hcall
        · exact hcall.trans ih

theorem moves_findLine (id : ChipId) (name : String) :
    Moves scope ⟨world, owned⟩ ⟨(world.findLine id name).2, owned⟩ := by
  unfold findLine
  split
  · exact moves_fail _
  · exact moves_findAmong ..

/-! ### Values -/

/-- A call about an open handle, after which everything is as sound as before. -/
theorem sound_of_perform (hsound : Desk.Sound ⟨world, owned⟩) {device : Device} {call : Call}
    {outcome : Outcome call} {after : World σ}
    (h : world.perform device call = (outcome, after)) : Desk.Sound ⟨after, owned⟩ := by
  obtain ⟨machine, -, rfl⟩ := perform_eq h
  exact ⟨hsound.tidy.congr rfl rfl, hsound.ledger, hsound.owned_open, hsound.kept⟩

theorem moves_fetchAll (hsound : Desk.Sound ⟨world, owned⟩) {held : List (HandleId × Handle)}
    (hfound : ∀ entry ∈ held, world.handles.get? entry.1 = some entry.2) :
    Moves scope ⟨world, owned⟩ ⟨(world.fetchAll held).2, owned⟩ := by
  induction held generalizing world with
  | nil => exact .refl
  | cons entry rest ih =>
      obtain ⟨id, handle⟩ := entry
      have hlease := hsound.lease_mem (hfound _ List.mem_cons_self)
      have hpermitted : Call.Permitted handle.device world.ledger.leases
          (.getValues handle.file (List.replicate handle.offsets.length 0)) := by
        simpa [Call.Permitted, Handle.lease] using hlease
      unfold fetchAll
      simp only
      split
      · next h => exact moves_of_perform h hpermitted rfl
      · next values after h =>
        have hcall : Moves scope ⟨world, owned⟩ ⟨after, owned⟩ := moves_of_perform h hpermitted rfl
        have hhandles := handles_of_perform h
        have hrest := ih (sound_of_perform hsound h) fun other hother => by
          rw [hhandles]
          exact hfound other (List.mem_cons_of_mem _ hother)
        split
        · next hfetch =>
          rw [hfetch] at hrest
          exact hcall.trans hrest
        · next hfetch =>
          rw [hfetch] at hrest
          exact hcall.trans hrest

theorem moves_getValues (hsound : Desk.Sound ⟨world, owned⟩) (group : Group) :
    Moves scope ⟨world, owned⟩ ⟨(world.getValues group).2, owned⟩ := by
  unfold getValues
  split
  · exact moves_fail _
  · next held hheld =>
    have hfetch : Moves scope ⟨world, owned⟩
        ⟨(world.fetchAll (distinctHandles held)).2, owned⟩ :=
      moves_fetchAll hsound fun entry hentry =>
        found_of_handlesOf hheld entry (mem_distinctHandles hentry)
    split <;> next h => rwa [h] at hfetch

theorem moves_setValues (hsound : Desk.Sound ⟨world, owned⟩) (group : Group)
    (values : List UInt8) :
    Moves scope ⟨world, owned⟩ ⟨(world.setValues group values).2, owned⟩ := by
  unfold setValues
  split
  · exact moves_fail _
  · next id handle ordered hplan =>
    obtain ⟨hcovers, hlength, hbits⟩ := planValues_ok hplan
    have hlease := hsound.lease_mem hcovers.found
    have hpermitted : Call.Permitted handle.device world.ledger.leases
        (.setValues handle.file ordered) := by
      refine ⟨?_, hbits⟩
      rw [hlength]
      exact hlease
    unfold commitValues
    split
    · next h => exact moves_of_perform h hpermitted rfl
    · next after h =>
      have hcall : Moves scope ⟨world, owned⟩ ⟨after, owned⟩ := moves_of_perform h hpermitted rfl
      have hsame := handles_of_perform h
      refine hcall.tail (.retune fun found hfound => ?_)
      rw [hsame, hcovers.found] at hfound
      obtain rfl := Option.some.inj hfound
      refine ⟨⟨rfl, rfl, rfl, rfl⟩, ?_⟩
      exact (hsound.ledger.valid id _ hcovers.found).driven hlength hbits

/-! ### Configurations -/

theorem moves_commitConfig (hsound : Desk.Sound ⟨world, owned⟩) {group : Group} {type : RequestType}
    {flags : RequestFlags} {values : Option (List UInt8)} {plan : ConfigPlan}
    (hplan : world.planConfig group type flags values = .ok plan) :
    Moves scope ⟨world, owned⟩ ⟨(world.commitConfig plan).2, owned⟩ := by
  obtain ⟨hcovers, hunknown, hvalues⟩ := planConfig_ok hplan
  have hvalid := hsound.ledger.valid plan.id plan.handle hcovers.found
  have hlease := hsound.lease_mem hcovers.found
  obtain ⟨hlength, hbits⟩ := hvalues hvalid hcovers.kind
  have hpermitted : Call.Permitted plan.handle.device world.ledger.leases
      (.setConfig plan.handle.file plan.flags plan.values) := by
    refine ⟨?_, hbits⟩
    rw [hlength]
    exact hlease
  unfold commitConfig
  split
  · next h => exact moves_of_perform h hpermitted rfl
  · next after h =>
    have hcall : Moves scope ⟨world, owned⟩ ⟨after, owned⟩ := moves_of_perform h hpermitted rfl
    have hsame := handles_of_perform h
    refine hcall.tail (.retune fun found hfound => ?_)
    rw [hsame, hcovers.found] at hfound
    obtain rfl := Option.some.inj hfound
    exact ⟨⟨rfl, rfl, rfl, rfl⟩, hvalid.configured hunknown hlength hbits⟩

theorem moves_setConfig (hsound : Desk.Sound ⟨world, owned⟩) (group : Group) (type : RequestType)
    (flags : RequestFlags) (values : Option (List UInt8)) :
    Moves scope ⟨world, owned⟩ ⟨(world.setConfig group type flags values).2, owned⟩ := by
  unfold setConfig
  split
  · exact moves_fail _
  · split
    · exact moves_fail _
    · next plan hplan =>
      have hcommit : Moves scope ⟨world, owned⟩ ⟨(world.commitConfig plan).2, owned⟩ :=
        moves_commitConfig hsound hplan
      split
      · next h => rwa [h] at hcommit
      · next h =>
        rw [h] at hcommit
        exact (hcommit.trans (moves_note _)).trans (moves_updateAll group)

theorem moves_setFlags (hsound : Desk.Sound ⟨world, owned⟩) (group : Group)
    (flags : RequestFlags) :
    Moves scope ⟨world, owned⟩ ⟨(world.setFlags group flags).2, owned⟩ := by
  unfold setFlags
  split
  · exact moves_fail _
  · exact moves_setConfig hsound ..

theorem moves_setDirectionInput (hsound : Desk.Sound ⟨world, owned⟩) (group : Group) :
    Moves scope ⟨world, owned⟩ ⟨(world.setDirectionInput group).2, owned⟩ := by
  unfold setDirectionInput
  split
  · exact moves_fail _
  · exact moves_setConfig hsound ..

theorem moves_setDirectionOutput (hsound : Desk.Sound ⟨world, owned⟩) (group : Group)
    (values : List UInt8) :
    Moves scope ⟨world, owned⟩ ⟨(world.setDirectionOutput group values).2, owned⟩ := by
  unfold setDirectionOutput
  split
  · exact moves_fail _
  · exact moves_setConfig hsound ..

/-! ### Events and streams -/

theorem readFile_eq {file : FileId} {size : Nat} {outcome : ReadOutcome} {after : World σ}
    (h : world.readFile file size = (outcome, after)) :
    after = { world with machine := (Machine.read file size world.machine).2 } :=
  (Prod.mk.inj h).2.symm

theorem moves_of_readFile {file : FileId} {size : Nat} {outcome : ReadOutcome} {after : World σ}
    (h : world.readFile file size = (outcome, after)) :
    Moves scope ⟨world, owned⟩ ⟨after, owned⟩ := by
  rw [readFile_eq h]
  exact .single (.read file size)

theorem moves_readEvent (line : Line) :
    Moves scope ⟨world, owned⟩ ⟨(world.readEvent line).2, owned⟩ := by
  unfold readEvent
  split
  · exact moves_fail _
  · split
    · next h => exact moves_of_readFile h
    · next h => exact (moves_of_readFile h).trans (moves_fail _)
    · next h =>
      split
      · exact (moves_of_readFile h).trans (moves_fail _)
      · exact (moves_of_readFile h).trans (moves_note _)

theorem moves_readEvents (line : Line) (limit : Nat) :
    Moves scope ⟨world, owned⟩ ⟨(world.readEvents line limit).2, owned⟩ := by
  unfold readEvents
  split
  · exact moves_fail _
  · simp only
    split
    · exact .refl
    · split
      · next h => exact moves_of_readFile h
      · next h => exact (moves_of_readFile h).trans (moves_fail _)
      · next h =>
        split
        · exact (moves_of_readFile h).trans (moves_fail _)
        · exact moves_of_readFile h

theorem moves_openStream (line : Line) :
    Moves scope ⟨world, owned⟩ ⟨(world.openStream line).2, owned⟩ := by
  unfold openStream
  split
  · exact moves_fail _
  · next id handle hhandle =>
    obtain ⟨hfound, hkind⟩ := eventHandle_ok hhandle
    have hwatch : Moves scope ⟨world, owned⟩
        ⟨{ world with machine := (Machine.watch handle.file world.machine).2 }, owned⟩ :=
      .single (.watch handle.file)
    split
    · next h =>
      rw [h] at hwatch
      exact hwatch.trans (moves_fail _)
    · next h =>
      rw [h] at hwatch
      exact hwatch.tail (.openStream hfound hkind)

theorem moves_nextEvent (stream : StreamId) :
    Moves scope ⟨world, owned⟩ ⟨(world.nextEvent stream).2, owned⟩ := by
  unfold nextEvent
  split
  · exact .refl
  · split
    · exact .refl
    · split
      · next h => exact moves_of_readFile h
      · next h =>
        split
        · exact moves_of_readFile h
        · exact (moves_of_readFile h).trans (moves_fail _)
      · next h =>
        split
        · exact (moves_of_readFile h).trans (moves_fail _)
        · exact moves_of_readFile h

theorem moves_dropStream (stream : StreamId) :
    Moves scope ⟨world, 0⟩ ⟨(world.dropStream stream), 0⟩ := by
  unfold dropStream
  split
  · exact .refl
  · next id handle h =>
    have hstream : world.streams.get? stream = some id := by
      obtain ⟨key, hkey, hhandle⟩ := Option.bind_eq_some_iff.mp h
      obtain ⟨found, -, hpair⟩ := Option.map_eq_some_iff.mp hhandle
      rw [hkey, (Prod.mk.inj hpair).1]
    have hunwatch : Moves scope ⟨world, 0⟩
        ⟨{ world with machine := Machine.unwatch handle.file world.machine }, 0⟩ :=
      .single (.unwatch handle.file)
    have hclose := hunwatch.tail (.closeStream hstream)
    simpa using hclose.tail (.drop (Multiset.mem_cons_self id 0) (by simp))

/-! ### Waits -/

omit [Machine σ] in
theorem isHeld_of_slot {line : Line} {id : HandleId} (h : (world.slot line).handle? = some id) :
    world.isHeld id = true := by
  have hany : world.chips.any (·.records.any (·.slot.handle? == some id)) = true := by
    unfold slot record at h
    cases hchip : world.chips[line.chip]? with
    | none =>
        rw [hchip] at h
        cases h
    | some chip =>
        rw [hchip, Option.elim_some, LineRecords.get] at h
        cases hlookup : chip.records.entries.lookup line.offset with
        | none =>
            rw [hlookup] at h
            cases h
        | some record =>
            rw [hlookup, Option.getD_some] at h
            refine List.any_eq_true.mpr ⟨chip, List.mem_of_getElem? hchip, ?_⟩
            refine List.any_eq_true.mpr ⟨_, LineRecords.mem_of_lookup hlookup, ?_⟩
            exact beq_iff_eq.mpr h
  rw [isHeld, hany, Bool.true_or, Bool.true_or]

theorem dropHandles_of_isHeld {ids : List HandleId} (h : ∀ id ∈ ids, world.isHeld id = true) :
    world.dropHandles ids = world := by
  induction ids with
  | nil => rfl
  | cons id rest ih =>
      have hrest := ih fun other hother => h other (List.mem_cons_of_mem _ hother)
      rw [dropHandles]
      split
      · exact hrest
      · rw [dropHandle, if_pos (h id List.mem_cons_self)]
        exact hrest

theorem foldl_erase_append {α : Type} [BEq α] [LawfulBEq α] (front rest : List α) :
    front.foldl List.erase (front ++ rest) = rest := by
  induction front with
  | nil => rfl
  | cons item front ih => rw [List.foldl_cons, List.cons_append, List.erase_cons_head, ih]

/-- Handles that lines refer to stay open when a wait lets go of them. -/
theorem relinquish_eq {after : World σ} {held : List HandleId} {waiting : List HandleId}
    (hwaiting : after.waiting = held ++ waiting)
    (hlines : ∀ id ∈ held, ∃ line, (after.slot line).handle? = some id) :
    after.relinquish held = { after with waiting } := by
  rw [relinquish, hwaiting, foldl_erase_append]
  refine dropHandles_of_isHeld fun id hid => ?_
  obtain ⟨line, hline⟩ := hlines id hid
  exact isHeld_of_slot hline

/-- Some of the others act before a wait ends, and the rest are given back. -/
theorem await_eq (world : World σ) (files : List (Line × FileId)) (token : Option TokenId)
    (limit : Option Duration) (others : List (Intervention σ)) :
    ∃ outcome log before after, others = before ++ after ∧
      world.await files token limit others = (outcome, { world.actAll before with log }, after) := by
  induction others generalizing world with
  | nil =>
      unfold await
      split
      · exact ⟨_, _, [], [], rfl, rfl⟩
      · exact ⟨_, _, [], [], rfl, rfl⟩
      · exact ⟨_, _, [], [], rfl, rfl⟩
  | cons other rest ih =>
      unfold await
      split
      · exact ⟨_, _, [], other :: rest, rfl, rfl⟩
      · exact ⟨_, _, [], other :: rest, rfl, rfl⟩
      · split
        · exact ⟨_, _, [], other :: rest, rfl, rfl⟩
        · obtain ⟨outcome, log, before, after, hsplit, hawait⟩ := ih (other.act world)
          exact ⟨outcome, log, other :: before, after, congrArg (other :: ·) hsplit, hawait⟩

omit [Machine σ] in
theorem actAll_blind {others : List (Intervention σ)} (h : ∀ other ∈ others, other.Aloof)
    (world : World σ) (log : Array Notice) (waiting : List HandleId) : ∃ log',
      actAll { world with log, waiting } others =
        { world.actAll others with log := log', waiting } := by
  induction others generalizing world log with
  | nil => exact ⟨log, rfl⟩
  | cons other rest ih =>
      obtain ⟨log', hact⟩ := (h other List.mem_cons_self).blind world log waiting
      change ∃ last, actAll (other.act { world with log, waiting }) rest =
        { actAll (other.act world) rest with log := last, waiting }
      rw [hact]
      exact ih (fun later hlater => h later (List.mem_cons_of_mem _ hlater)) _ log'

omit [Machine σ] in
theorem chips_actAll {others : List (Intervention σ)} (h : ∀ other ∈ others, other.Aloof)
    (world : World σ) : (world.actAll others).chips = world.chips := by
  induction others generalizing world with
  | nil => rfl
  | cons other rest ih =>
      exact (ih (fun later hlater => h later (List.mem_cons_of_mem _ hlater)) (other.act world)).trans
        ((h other List.mem_cons_self).chips world)

/-- Whatever it reports, a wait leaves the world as the others make it. -/
theorem wait_world {others : List (Intervention σ)} (h : ∀ other ∈ others, other.Aloof)
    (world : World σ) (group : Group) (token : Option TokenId) (timeout : Option Duration) :
    ∃ log, (world.wait group token timeout others).2 = { world.actAll others with log } := by
  unfold wait
  split
  · exact ⟨_, rfl⟩
  next files _ =>
  generalize hheld : (group.lines.filterMap fun line => (world.slot line).handle?) = held
  obtain ⟨outcome, log, before, after, hsplit, hawait⟩ :=
    (world.retain held).await_eq files token (timeout.filter Duration.hasEnd) others
  have hbefore : ∀ other ∈ before, other.Aloof := fun other hother =>
    h other (hsplit ▸ List.mem_append_left _ hother)
  have hafter : ∀ other ∈ after, other.Aloof := fun other hother =>
    h other (hsplit ▸ List.mem_append_right _ hother)
  -- nobody has taken a line from a handle that the wait refers to
  have hlines : ∀ id ∈ held, ∃ line, ((world.actAll before).slot line).handle? = some id := by
    intro id hid
    rw [← hheld] at hid
    obtain ⟨line, -, hline⟩ := List.mem_filterMap.mp hid
    refine ⟨line, ?_⟩
    rw [slot, record, chips_actAll hbefore world]
    exact hline
  obtain ⟨noted, hacted⟩ := actAll_blind hbefore world world.log (held ++ world.waiting)
  change (world.retain held).actAll before = _ at hacted
  obtain ⟨last, hrest⟩ := actAll_blind hafter (world.actAll before) log world.waiting
  have hleft : ({ world.actAll before with log, waiting := held ++ world.waiting }).relinquish held =
      { world.actAll before with log, waiting := world.waiting } := relinquish_eq rfl hlines
  rw [hacted] at hawait
  simp only [hawait, hleft, hrest]
  have hwaiting : (world.actAll others).waiting = world.waiting := by
    obtain ⟨_, hsame⟩ := actAll_blind h world world.log world.waiting
    rw [show world.actAll others = _ from hsame]
  have hall : (world.actAll before).actAll after = world.actAll others := by
    rw [hsplit, actAll, actAll, actAll, List.foldl_append]
  exact ⟨last, by rw [hall, ← hwaiting]⟩

theorem wait_alone (group : Group) (token : Option TokenId) (timeout : Option Duration) :
    ∃ log, (world.wait group token timeout []).2 = { world with log } :=
  wait_world (fun _ hother => absurd hother List.not_mem_nil) world group token timeout

theorem moves_wait (group : Group) (token : Option TokenId) (timeout : Option Duration) :
    Moves scope ⟨world, owned⟩ ⟨(world.wait group token timeout []).2, owned⟩ := by
  obtain ⟨log, hwait⟩ := world.wait_alone group token timeout
  rw [hwait]
  exact .single (.remark log world.tokens)

end World

end GpioLines
