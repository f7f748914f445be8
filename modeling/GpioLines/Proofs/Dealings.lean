import GpioLines.Proofs.Atomicity
import GpioLines.Proofs.Deal

/-!
# Operations as chains of deals

No operation ends with a line due. A request and a reconfiguration refresh the members of their group
at the end, and a request for events that is refused closes the handles it was granted, which settles
their lines as well. Everything else takes nothing and owes nothing.
-/

namespace GpioLines

namespace World

variable {σ : Type} {world : World σ}

/-! ### Groups on an open chip -/

theorem OnChip.device {group : Group} {chip : Chip} {id : ChipId} (h : world.OnChip group chip id)
    {line : Line} (hmem : line ∈ group.lines) :
    world.board.device? line.chip = some chip.device := by
  rw [h.members line hmem]
  simp only [board, (openChip_eq_ok.mp h.isOpen).1, Option.map_some]

/-- The members of a group on an open chip, if they are all that is due. -/
theorem OnChip.due_open {group : Group} {chip : Chip} {id : ChipId} {after : World σ}
    (h : world.OnChip group chip id) (hboard : after.board.closed? = world.board.closed?) :
    ∀ line ∈ (∅ : Set Line) ∪ {line | line ∈ group.lines},
      line ∈ group.lines ∧ after.board.closed? line.chip = some false := by
  intro line hline
  have hmem : line ∈ group.lines := hline.resolve_left (Set.notMem_empty line)
  refine ⟨hmem, ?_⟩
  rw [hboard, h.members line hmem]
  exact closed?_eq_false.mpr ⟨chip, h.isOpen⟩

theorem onChip_of_planConfig {group : Group} {type : RequestType} {flags : RequestFlags}
    {values : Option (List UInt8)} {plan : ConfigPlan}
    (h : world.planConfig group type flags values = .ok plan) :
    ∃ chip id, world.OnChip group chip id := by
  rw [planConfig, bind_eq_ok] at h
  obtain ⟨chip, hchip, -⟩ := h
  obtain ⟨first, -, honchip⟩ := onChip_of_chipOf hchip
  exact ⟨chip, first.chip, honchip⟩

theorem closed?_attachAll (kind : HandleKind) (pairs : List (Line × HandleId)) :
    (world.attachAll kind pairs).board.closed? = world.board.closed? := by
  induction pairs generalizing world with
  | nil => rfl
  | cons pair rest ih =>
      rw [attachAll_cons, ih]
      exact closed?_modifyLine world pair.1 _

variable [Machine σ] {adds : Prop} {due : Set Line}

/-! ### Notes, failures and calls -/

theorem deals_note (notice : Notice) : Deals adds ⟨world, due⟩ ⟨world.note notice, due⟩ :=
  .single (.pass (keeps_of_eq rfl rfl rfl))

theorem deals_fail {α : Type} (error : Error) :
    Deals adds ⟨world, due⟩ ⟨(@fail σ α world error).2, due⟩ :=
  .single (.pass (keeps_of_eq rfl rfl rfl))

theorem deals_ask {device : Device} {call : Call} {outcome : Outcome call} {after : World σ}
    (h : world.perform device call = (outcome, after)) (hquiet : call.Quiet outcome)
    (haddressed : call.Addressed device world.handles) : Deals adds ⟨world, due⟩ ⟨after, due⟩ :=
  .single (.ask hquiet haddressed h)

/-! ### Metadata -/

theorem deals_refresh {line : Line} (h : line ∈ due → world.board.closed? line.chip = some false) :
    Deals adds ⟨world, due⟩ ⟨(world.refresh line).2, due \ {line}⟩ := by
  unfold refresh
  cases hopen : world.openChip line.chip with
  | error error =>
      have hnot : line ∉ due := by
        intro hmem
        obtain ⟨chip, hchip⟩ := closed?_eq_false.mp (h hmem)
        rw [hopen] at hchip
        cases hchip
      rw [Set.sdiff_singleton_eq_self hnot]
      exact deals_fail error
  | ok chip =>
      simp only
      split
      · next info after htold => exact .single (.learn hopen htold)
      · next error after htold => exact .single (.doubt hopen htold)

theorem deals_update {line : Line} (h : line ∈ due → world.board.closed? line.chip = some false) :
    Deals adds ⟨world, due⟩ ⟨world.update line, due \ {line}⟩ := by
  have hrefresh : Deals adds ⟨world, due⟩ ⟨(world.refresh line).2, due \ {line}⟩ := deals_refresh h
  unfold update
  split
  · next hworld => rwa [hworld] at hrefresh
  · next hworld =>
    rw [hworld] at hrefresh
    exact hrefresh.trans (deals_note _)

/-- A refresh of all members settles them all. -/
theorem deals_updateAll {group : Group}
    (h : ∀ line ∈ due, line ∈ group.lines ∧ world.board.closed? line.chip = some false) :
    Deals adds ⟨world, due⟩ ⟨world.updateAll group, ∅⟩ := by
  unfold updateAll
  generalize group.lines = lines at h ⊢
  induction lines generalizing world due with
  | nil =>
      obtain rfl : due = ∅ := Set.eq_empty_of_forall_notMem fun line hline =>
        List.not_mem_nil (h line hline).1
      exact .refl
  | cons line rest ih =>
      refine (deals_update fun hmem => (h line hmem).2).trans (ih fun other hother => ?_)
      obtain ⟨hmem, hopen⟩ := h other hother.1
      refine ⟨(List.mem_cons.mp hmem).resolve_left hother.2, ?_⟩
      rwa [board_update]

/-- Nothing was due, so nothing is due. -/
theorem deals_refresh_idle (line : Line) :
    Deals adds ⟨world, ∅⟩ ⟨(world.refresh line).2, ∅⟩ := by
  have hrefresh : Deals adds ⟨world, ∅⟩ ⟨(world.refresh line).2, ∅ \ {line}⟩ :=
    deals_refresh nofun
  rwa [Set.empty_sdiff] at hrefresh

/-! ### Chips and their lines -/

theorem deals_openChipOn (hadds : adds) (device : Device) :
    Deals adds ⟨world, ∅⟩ ⟨(world.openChipOn device).2, ∅⟩ := by
  unfold openChipOn
  split
  · next h => exact deals_ask h trivial trivial
  · next info after h =>
    exact ((deals_ask h trivial trivial).trans (deals_note _)).tail (.openChip hadds device info)

theorem deals_getLine (id : ChipId) (offset : Offset) :
    Deals adds ⟨world, ∅⟩ ⟨(world.getLine id offset).2, ∅⟩ := by
  have hrefresh : Deals adds ⟨world, ∅⟩ ⟨(world.refresh ⟨id, offset⟩).2, ∅⟩ :=
    deals_refresh_idle _
  unfold getLine
  split
  · exact deals_fail _
  · split
    · simp only
      split <;> next h => rwa [h] at hrefresh
    · exact deals_fail _

theorem deals_getLinesInto (id : ChipId) (group : Group) (offsets : List Offset) :
    Deals adds ⟨world, ∅⟩ ⟨(world.getLinesInto id group offsets).2, ∅⟩ := by
  induction offsets generalizing world group with
  | nil => exact .refl
  | cons offset rest ih =>
      have hline : Deals adds ⟨world, ∅⟩ ⟨(world.getLine id offset).2, ∅⟩ := deals_getLine id offset
      unfold getLinesInto
      split
      · next h => rwa [h] at hline
      · next h =>
        rw [h] at hline
        split
        · exact hline.trans (deals_fail _)
        · exact hline.trans (ih _)

theorem deals_findAmong (chip : Chip) (name : String) (offsets : List Offset) :
    Deals adds ⟨world, ∅⟩ ⟨(world.findAmong chip name offsets).2, ∅⟩ := by
  induction offsets generalizing world with
  | nil => exact deals_fail _
  | cons offset rest ih =>
      unfold findAmong
      split
      · next error after h => exact ((deals_ask h trivial trivial).trans (deals_note _)).trans ih
      · next info after h =>
        split
        · exact deals_ask h trivial trivial
        · exact (deals_ask h trivial trivial).trans ih

theorem deals_findLine (id : ChipId) (name : String) :
    Deals adds ⟨world, ∅⟩ ⟨(world.findLine id name).2, ∅⟩ := by
  unfold findLine
  split
  · exact deals_fail _
  · exact deals_findAmong ..

/-! ### Values and configurations -/

theorem deals_fetchAll {held : List (HandleId × Handle)}
    (hfound : ∀ entry ∈ held, world.handles.get? entry.1 = some entry.2) :
    Deals adds ⟨world, ∅⟩ ⟨(world.fetchAll held).2, ∅⟩ := by
  induction held generalizing world with
  | nil => exact .refl
  | cons entry rest ih =>
      have haddressed (buffer : List UInt8) :
          (Call.getValues entry.2.file buffer).Addressed entry.2.device world.handles :=
        ⟨entry.1, entry.2, hfound entry List.mem_cons_self, rfl, rfl⟩
      unfold fetchAll
      simp only
      split
      · next h => exact deals_ask h trivial (haddressed _)
      · next values after h =>
        have hrest : Deals adds ⟨after, ∅⟩ ⟨(after.fetchAll rest).2, ∅⟩ :=
          ih fun other hother => by
            rw [handles_of_perform h]
            exact hfound other (List.mem_cons_of_mem _ hother)
        split <;> next hfetch =>
          rw [hfetch] at hrest
          exact (deals_ask h trivial (haddressed _)).trans hrest

theorem deals_getValues (group : Group) :
    Deals adds ⟨world, ∅⟩ ⟨(world.getValues group).2, ∅⟩ := by
  unfold getValues
  split
  · exact deals_fail _
  · next held hheld =>
    have hfetch : Deals adds ⟨world, ∅⟩ ⟨(world.fetchAll (distinctHandles held)).2, ∅⟩ :=
      deals_fetchAll fun entry hentry =>
        found_of_handlesOf hheld entry (mem_distinctHandles hentry)
    split <;> next h => rwa [h] at hfetch

theorem deals_setValues (group : Group) (values : List UInt8) :
    Deals adds ⟨world, ∅⟩ ⟨(world.setValues group values).2, ∅⟩ := by
  unfold setValues
  split
  · exact deals_fail _
  · next id handle ordered hplan =>
    obtain ⟨hcovers, hlength, hbits⟩ := planValues_ok hplan
    unfold commitValues
    split
    · next error after h =>
      exact deals_ask h ⟨error, rfl⟩ ⟨id, handle, hcovers.found, rfl, rfl⟩
    · next after h => exact .single (.drive hcovers.found hlength hbits h)

theorem deals_setConfig (hsound : Desk.Sound ⟨world, 0⟩) (group : Group) (type : RequestType)
    (flags : RequestFlags) (values : Option (List UInt8)) :
    Deals adds ⟨world, ∅⟩ ⟨(world.setConfig group type flags values).2, ∅⟩ := by
  unfold setConfig
  split
  · exact deals_fail _
  split
  · exact deals_fail _
  next plan hplan =>
  obtain ⟨hcovers, -, hvalues⟩ := planConfig_ok hplan
  obtain ⟨hlength, hbits⟩ := hvalues (hsound.ledger.valid _ _ hcovers.found) hcovers.kind
  obtain ⟨chip, id, honchip⟩ := onChip_of_planConfig hplan
  unfold commitConfig
  split
  · next error after h =>
    split at h
    · next error after htold =>
      obtain ⟨-, rfl⟩ := Prod.mk.inj h
      exact deals_ask htold ⟨error, rfl⟩ ⟨plan.id, plan.handle, hcovers.found, rfl, rfl⟩
    · cases (Prod.mk.inj h).1
  · next after h =>
    split at h
    · cases (Prod.mk.inj h).1
    · next mid htold =>
      obtain ⟨-, rfl⟩ := Prod.mk.inj h
      have hdeal : Deal adds ⟨world, ∅⟩
          ⟨{ mid with handles := mid.handles.modify plan.id (·.configured plan.flags plan.values) },
            ∅ ∪ {line | line ∈ group.lines}⟩ :=
        .configure honchip hcovers hlength hbits htold
      refine (Relation.ReflTransGen.head hdeal (deals_note _)).trans (deals_updateAll ?_)
      have hclosed : mid.board.closed? = world.board.closed? :=
        congrArg Board.closed? (board_of_perform htold)
      exact honchip.due_open hclosed

theorem deals_setFlags (hsound : Desk.Sound ⟨world, 0⟩) (group : Group) (flags : RequestFlags) :
    Deals adds ⟨world, ∅⟩ ⟨(world.setFlags group flags).2, ∅⟩ := by
  unfold setFlags
  split
  · exact deals_fail _
  · exact deals_setConfig hsound ..

theorem deals_setDirectionInput (hsound : Desk.Sound ⟨world, 0⟩) (group : Group) :
    Deals adds ⟨world, ∅⟩ ⟨(world.setDirectionInput group).2, ∅⟩ := by
  unfold setDirectionInput
  split
  · exact deals_fail _
  · exact deals_setConfig hsound ..

theorem deals_setDirectionOutput (hsound : Desk.Sound ⟨world, 0⟩) (group : Group)
    (values : List UInt8) :
    Deals adds ⟨world, ∅⟩ ⟨(world.setDirectionOutput group values).2, ∅⟩ := by
  unfold setDirectionOutput
  split
  · exact deals_fail _
  · exact deals_setConfig hsound ..

/-! ### Events and streams -/

theorem deals_readFile {file : FileId} {size : Nat} {outcome : ReadOutcome} {after : World σ}
    (h : world.readFile file size = (outcome, after)) :
    Deals adds ⟨world, due⟩ ⟨after, due⟩ := by
  rw [readFile_eq h]
  exact .single (.read file size)

theorem deals_readEvent (line : Line) :
    Deals adds ⟨world, ∅⟩ ⟨(world.readEvent line).2, ∅⟩ := by
  unfold readEvent
  split
  · exact deals_fail _
  · split
    · next h => exact deals_readFile h
    · next h => exact (deals_readFile h).trans (deals_fail _)
    · next h =>
      split
      · exact (deals_readFile h).trans (deals_fail _)
      · exact (deals_readFile h).trans (deals_note _)

theorem deals_readEvents (line : Line) (limit : Nat) :
    Deals adds ⟨world, ∅⟩ ⟨(world.readEvents line limit).2, ∅⟩ := by
  unfold readEvents
  split
  · exact deals_fail _
  · simp only
    split
    · exact .refl
    · split
      · next h => exact deals_readFile h
      · next h => exact (deals_readFile h).trans (deals_fail _)
      · next h =>
        split
        · exact (deals_readFile h).trans (deals_fail _)
        · exact deals_readFile h

theorem deals_openStream (line : Line) :
    Deals adds ⟨world, ∅⟩ ⟨(world.openStream line).2, ∅⟩ := by
  unfold openStream
  split
  · exact deals_fail _
  · next id handle _ =>
    have hwatch : Deals adds ⟨world, ∅⟩
        ⟨{ world with machine := (Machine.watch handle.file world.machine).2 }, ∅⟩ :=
      .single (.watch handle.file)
    split
    · next h =>
      rw [h] at hwatch
      exact hwatch.trans (deals_fail _)
    · next h =>
      rw [h] at hwatch
      exact hwatch.tail (.pass (keeps_of_eq rfl rfl rfl))

theorem deals_nextEvent (stream : StreamId) :
    Deals adds ⟨world, ∅⟩ ⟨(world.nextEvent stream).2, ∅⟩ := by
  unfold nextEvent
  split
  · exact .refl
  · split
    · exact .refl
    · split
      · next h => exact deals_readFile h
      · next h =>
        split
        · exact deals_readFile h
        · exact (deals_readFile h).trans (deals_fail _)
      · next h =>
        split
        · exact (deals_readFile h).trans (deals_fail _)
        · exact deals_readFile h

/-! ### Letting go -/

theorem deals_closeHandle (world : World σ) (id : HandleId) :
    Deals adds ⟨world, ∅⟩ ⟨world.closeHandle id, ∅⟩ := by
  cases hget : world.handles.get? id with
  | none =>
      rw [closeHandle, hget]
  | some handle =>
      have hclose : Deal adds ⟨world, ∅⟩
          ⟨world.closeHandle id, ∅ \ {line | line.offset ∈ handle.offsets}⟩ := .close hget
      rw [Set.empty_sdiff] at hclose
      exact .single hclose

theorem deals_dropHandle (world : World σ) (id : HandleId) :
    Deals adds ⟨world, ∅⟩ ⟨world.dropHandle id, ∅⟩ := by
  unfold dropHandle
  split
  · exact .refl
  · exact deals_closeHandle world id

theorem deals_dropHandles (ids : List HandleId) :
    Deals adds ⟨world, ∅⟩ ⟨world.dropHandles ids, ∅⟩ := by
  induction ids generalizing world with
  | nil => exact .refl
  | cons id rest ih =>
      unfold dropHandles
      split
      · exact ih
      · exact (deals_dropHandle world id).trans ih

theorem deals_dropStream (stream : StreamId) :
    Deals adds ⟨world, ∅⟩ ⟨world.dropStream stream, ∅⟩ := by
  unfold dropStream
  split
  · exact .refl
  · next id handle _ =>
    have hunwatch : Deals adds ⟨world, ∅⟩
        ⟨{ world with machine := Machine.unwatch handle.file world.machine }, ∅⟩ :=
      .single (.unwatch handle.file)
    have herase : Deals adds ⟨world, ∅⟩
        ⟨{ world with
            machine := Machine.unwatch handle.file world.machine
            streams := world.streams.erase stream }, ∅⟩ :=
      hunwatch.tail (.pass (keeps_of_eq rfl rfl rfl))
    exact herase.trans (deals_dropHandle _ id)

theorem deals_detachAll (lines : List Line) :
    Deals adds ⟨world, ∅⟩ ⟨(world.detachAll lines).2, ∅⟩ := by
  induction lines generalizing world with
  | nil => exact .refl
  | cons line rest ih => exact .head (.pass (keeps_detach world line)) ih

theorem deals_release (group : Group) : Deals adds ⟨world, ∅⟩ ⟨world.release group, ∅⟩ := by
  have hdrop : Deals adds ⟨world, ∅⟩
      ⟨(world.detachAll group.lines).2.dropHandles (world.detachAll group.lines).1, ∅⟩ :=
    (deals_detachAll group.lines).trans (deals_dropHandles _)
  unfold release
  simp only
  split
  · exact hdrop
  · split
    · exact (hdrop.trans (deals_note _)).trans (deals_updateAll nofun)
    · exact hdrop.trans (deals_note _)

theorem deals_invalidateAll (lines : List Line) :
    Deals adds ⟨world, ∅⟩ ⟨lines.foldl invalidate world, ∅⟩ := by
  induction lines generalizing world with
  | nil => exact .refl
  | cons line rest ih =>
      have hdetach : Deals adds ⟨world, ∅⟩
          ⟨(world.detach line).2.modifyLine line (·.stale), ∅⟩ :=
        .tail (.single (.pass (keeps_detach world line))) (.pass (keeps_stale _ line))
      refine Relation.ReflTransGen.trans ?_ ih
      unfold invalidate
      simp only
      cases (world.detach line).1 with
      | none => exact hdetach
      | some id => exact hdetach.trans (deals_dropHandle _ id)

theorem deals_closeChip (id : ChipId) : Deals adds ⟨world, ∅⟩ ⟨world.closeChip id, ∅⟩ := by
  by_cases hopen : world.ledger.closed? id = some false
  · obtain ⟨notice, heq⟩ := closeChip_of_open hopen
    rw [heq]
    exact (Relation.ReflTransGen.head (.pass (keeps_markClosed world id))
      (deals_invalidateAll _)).trans (deals_note _)
  · rw [closeChip_of_closed hopen]

/-! ### Requests for values -/

theorem deals_attachAll {kind : HandleKind} {pairs : List (Line × HandleId)}
    (h : ∀ pair ∈ pairs, ∃ handle, world.handles.get? pair.2 = some handle ∧
      world.board.device? pair.1.chip = some handle.device) :
    Deals adds ⟨world, due⟩ ⟨world.attachAll kind pairs, due⟩ := by
  induction pairs generalizing world with
  | nil => exact .refl
  | cons pair rest ih =>
      obtain ⟨handle, hfound, hdevice⟩ := h pair List.mem_cons_self
      refine .head (.attach hfound hdevice kind) (ih fun other hother => ?_)
      obtain ⟨handle, hfound, hdevice⟩ := h other (List.mem_cons_of_mem _ hother)
      refine ⟨handle, hfound, ?_⟩
      rw [attach, device?_modifyLine]
      exact hdevice

/-- What is left to do for a request: the lines are taken, and the members are due. -/
theorem deals_requestValues (hsound : Desk.Sound ⟨world, 0⟩) {group : Group} {chip : Chip}
    {id : ChipId} (htakeable : world.Takeable group chip id) (hsize : group.size ≤ maxLines)
    {config : RequestConfig} {defaults : Option (List UInt8)}
    (hcount : group.checkCount? defaults = .ok ()) {outcome : Except Error Unit} {after : World σ}
    (h : world.requestValues chip.device group config defaults = (outcome, after)) :
    (∃ error, outcome = .error error ∧ Deals adds ⟨world, ∅⟩ ⟨after, ∅⟩) ∨
      outcome = .ok () ∧ after.board.closed? = world.board.closed? ∧
        Deals adds ⟨world, ∅⟩ ⟨after, ∅ ∪ {line | line ∈ group.lines}⟩ := by
  rcases hperform : world.perform chip.device (.requestLines (linesRequest group config defaults))
    with ⟨error | file, mid⟩
  · rw [requestValues_refused hperform] at h
    obtain ⟨rfl, rfl⟩ := Prod.mk.inj h
    exact Or.inl ⟨error, rfl, deals_ask hperform ⟨error, rfl⟩ trivial⟩
  · rw [requestValues_granted hperform] at h
    obtain ⟨rfl, rfl⟩ := Prod.mk.inj h
    have hvalid := valid_linesHandle htakeable hsize hcount config chip.device file
    have htake : Deal adds ⟨world, ∅⟩
        ⟨mid.openHandle (linesHandle chip.device file group config defaults),
          ∅ ∪ {line | line ∈ group.lines}⟩ :=
      .take htakeable.toOnChip hvalid hperform
    obtain ⟨machine, -, rfl⟩ := perform_eq hperform
    refine Or.inr ⟨rfl, ?_, (Relation.ReflTransGen.head htake (deals_attachAll ?_)).trans
      (deals_note _)⟩
    · exact closed?_attachAll _ _
    · intro pair hpair
      obtain ⟨line, hmem, rfl⟩ := List.mem_map.mp hpair
      exact ⟨_, openHandle_found hsound.ledger.handles_fresh _, htakeable.toOnChip.device hmem⟩

/-! ### Requests for events -/

/-- The lines that were granted by the time are due, and each is listed by one of the handles that
were granted for them. -/
theorem deals_acquireEvents (adds : Prop) (due : Set Line) {chip : Chip} {id : ChipId}
    (config : RequestConfig) {lines : List Line} (hlines : ∀ line ∈ lines, line.chip = id)
    (hopen : world.openChip id = .ok chip) (hfresh : world.handles.Fresh)
    (granted : List HandleId) :
    ∃ taken ⊆ {line | line ∈ lines},
      Deals adds ⟨world, due⟩
        ⟨(world.acquireEvents chip.device config granted lines).2, due ∪ taken⟩ ∧
      ∀ line ∈ taken, ∃ key ∈ (world.acquireEvents chip.device config granted lines).1.2,
        ∃ handle, (world.acquireEvents chip.device config granted lines).2.handles.get? key =
          some handle ∧ line.offset ∈ handle.offsets := by
  induction lines generalizing world due granted with
  | nil =>
      refine ⟨∅, Set.empty_subset _, ?_, nofun⟩
      rw [Set.union_empty]
      exact .refl
  | cons line rest ih =>
      have hline : world.openChip line.chip = .ok chip := by
        rw [hlines line List.mem_cons_self]
        exact hopen
      rcases hperform : world.perform chip.device (.requestEvent (eventRequest config line))
        with ⟨error | file, after⟩
      · rw [acquireEvents_refused hperform]
        refine ⟨∅, Set.empty_subset _, ?_, nofun⟩
        rw [Set.union_empty]
        exact deals_ask hperform ⟨error, rfl⟩ trivial
      · rw [acquireEvents_granted hperform]
        have hlisten : Deal adds ⟨world, due⟩
            ⟨after.openHandle (eventGrant chip.device config line file), insert line due⟩ :=
          .listen hline hperform
        obtain ⟨machine, -, rfl⟩ := perform_eq hperform
        have hopened : (World.openHandle { world with machine }
            (eventGrant chip.device config line file)).openChip id = .ok chip := hopen
        obtain ⟨taken, hsubset, hdeals, hlisted⟩ := ih (insert line due)
          (fun other hother => hlines other (List.mem_cons_of_mem _ hother)) hopened
          (hfresh.add _) (granted ++ [world.handles.next])
        refine ⟨insert line taken, ?_, ?_, ?_⟩
        · refine Set.insert_subset List.mem_cons_self fun other hother => ?_
          exact List.mem_cons_of_mem _ (hsubset hother)
        · rw [Set.union_insert, ← Set.insert_union]
          exact .head hlisten hdeals
        · rintro other (rfl | hother)
          · obtain ⟨machine', log, files, hworld, hgranted, -, -⟩ := acquireEvents_eq
              (World.openHandle { world with machine } (eventGrant chip.device config other file))
              chip.device config (granted ++ [world.handles.next]) rest
            refine ⟨world.handles.next, ?_, eventGrant chip.device config other file, ?_,
              List.mem_singleton_self _⟩
            · rw [hgranted]
              exact List.mem_append_left _ (List.mem_append_right _ (List.mem_singleton_self _))
            · rw [hworld]
              refine (Table.get?_addAll (hfresh.add _) _ _).trans ?_
              refine (if_pos (Nat.lt_succ_self world.handles.next)).trans ?_
              exact openHandle_found hfresh _
          · exact hlisted other hother

/-- A request that gives up closes what it was granted, which settles the lines. -/
theorem deals_giveUp {ids : List HandleId} (htidy : world.Tidy) (hnodup : ids.Nodup)
    (hunheld : ∀ id ∈ ids, ¬ world.ledger.Held id)
    (hdue : ∀ line ∈ due, ∃ id ∈ ids, ∃ handle, world.handles.get? id = some handle ∧
      line.offset ∈ handle.offsets) :
    Deals adds ⟨world, due⟩ ⟨world.dropHandles ids, ∅⟩ := by
  induction ids generalizing world due with
  | nil =>
      obtain rfl : due = ∅ := Set.eq_empty_of_forall_notMem fun line hline =>
        (hdue line hline).elim fun _ h => List.not_mem_nil h.1
      exact .refl
  | cons id rest ih =>
      rw [List.nodup_cons] at hnodup
      rw [dropHandles, if_neg hnodup.1, dropHandle_of_not_held htidy (hunheld id List.mem_cons_self)]
      have hothers : ∀ key ∈ rest, ¬ world.ledger.Held key := fun key hkey =>
        hunheld key (List.mem_cons_of_mem _ hkey)
      cases hget : world.handles.get? id with
      | none =>
          rw [closeHandle, hget]
          refine ih htidy hnodup.2 hothers fun line hline => ?_
          obtain ⟨key, hkey, handle, hfound, hlisted⟩ := hdue line hline
          rcases List.mem_cons.mp hkey with rfl | hkey
          · rw [hget] at hfound
            cases hfound
          · exact ⟨key, hkey, handle, hfound, hlisted⟩
      | some handle =>
          have hledger := world.ledger_closeHandle id hget
          have hhandles : (world.closeHandle id).handles = world.handles.erase id :=
            congrArg Ledger.handles hledger
          refine .head (.close hget) (ih ?_ hnodup.2 ?_ ?_)
          · exact htidy.closeHandle id
          · intro key hkey
            rw [hledger]
            exact hothers key hkey
          · rintro line ⟨hline, hnot⟩
            obtain ⟨key, hkey, found, hfound, hlisted⟩ := hdue line hline
            rcases List.mem_cons.mp hkey with rfl | hkey
            · obtain rfl := Option.mem_unique hget hfound
              exact absurd hlisted hnot
            · refine ⟨key, hkey, found, ?_, hlisted⟩
              rw [hhandles, Table.get?_erase, if_neg fun heq : key = id => hnodup.1 (heq ▸ hkey)]
              exact hfound

theorem deals_requestEvents (hsound : Desk.Sound ⟨world, 0⟩) {group : Group} {chip : Chip}
    {id : ChipId} (htakeable : world.Takeable group chip id) {config : RequestConfig}
    {outcome : Except Error Unit} {after : World σ}
    (h : world.requestEvents chip.device group config = (outcome, after)) :
    (∃ error, outcome = .error error ∧ Deals adds ⟨world, ∅⟩ ⟨after, ∅⟩) ∨
      outcome = .ok () ∧ after.board.closed? = world.board.closed? ∧
        ∃ due ⊆ {line | line ∈ group.lines}, Deals adds ⟨world, ∅⟩ ⟨after, due⟩ := by
  obtain ⟨taken, hsubset, hdeals, hlisted⟩ := deals_acquireEvents adds ∅ config
    htakeable.members htakeable.isOpen hsound.ledger.handles_fresh []
  obtain ⟨machine, log, files, hworld, hgranted, -, hall⟩ :=
    world.acquireEvents_eq chip.device config [] group.lines
  rw [Set.empty_union] at hdeals
  have hunheld : ∀ key, world.handles.next ≤ key → ¬ world.ledger.Held key := by
    intro key hnew hheld
    obtain ⟨handle, hget⟩ := hsound.ledger.held_open hheld
    exact absurd (Table.get?_lt hsound.ledger.handles_fresh hget) (Nat.not_lt.mpr hnew)
  unfold requestEvents at h
  split at h
  · next line error granted mid hacquire =>
    rw [hacquire] at hdeals hlisted hworld hgranted
    obtain ⟨rfl, rfl⟩ := Prod.mk.inj h
    obtain rfl : granted = List.range' world.handles.next files.length := hgranted
    have hmid : mid = { world with
        machine, log, handles := world.handles.addAll (eventGrants chip.device config group.lines files)
        } := hworld
    have hnew : ∀ key ∈ List.range' world.handles.next files.length, ¬ mid.ledger.Held key := by
      intro key hkey hheld
      refine hunheld key (List.mem_range'_1.mp hkey).1 ?_
      rw [hmid] at hheld
      exact hheld
    have htidy : mid.Tidy := by
      rw [hmid]
      exact hsound.tidy.congr rfl rfl
    refine Or.inl ⟨error, rfl, ?_⟩
    split
    · exact hdeals.trans (deals_giveUp htidy List.nodup_range' hnew hlisted)
    · exact (hdeals.trans (deals_note _)).trans
        (deals_giveUp (htidy.congr rfl rfl) List.nodup_range' hnew hlisted)
  · next granted mid hacquire =>
    rw [hacquire] at hdeals hlisted hworld hgranted hall
    obtain ⟨rfl, rfl⟩ := Prod.mk.inj h
    obtain rfl : granted = List.range' world.handles.next files.length := hgranted
    have hmid : mid = { world with
        machine, log, handles := world.handles.addAll (eventGrants chip.device config group.lines files)
        } := hworld
    subst hmid
    refine Or.inr ⟨rfl, closed?_attachAll _ _, taken, hsubset,
      (hdeals.trans (deals_attachAll fun pair hpair => ?_)).trans (deals_note _)⟩
    obtain ⟨-, file, hfound⟩ := eventGrants_found hsound.ledger.handles_fresh hpair
    exact ⟨_, hfound, htakeable.toOnChip.device (List.of_mem_zip hpair).1⟩

/-! ### Requests as a whole -/

theorem deals_request (hsound : Desk.Sound ⟨world, 0⟩) {group : Group}
    (hsize : group.size ≤ maxLines) (config : RequestConfig) (defaults : Option (List UInt8)) :
    Deals adds ⟨world, ∅⟩ ⟨(world.request group config defaults).2, ∅⟩ := by
  unfold request
  split
  · exact deals_fail _
  next hcheck =>
  unfold requestLocked
  split
  · exact deals_fail _
  next chip htake =>
  obtain ⟨first, -, htakeable⟩ := takeable_of_checkTakeable htake
  rcases hrequest : (if config.type.isEvent then world.requestEvents chip.device group config
    else world.requestValues chip.device group config defaults) with ⟨outcome, after⟩
  have htaken : (∃ error, outcome = .error error ∧ Deals adds ⟨world, ∅⟩ ⟨after, ∅⟩) ∨
      outcome = .ok () ∧ after.board.closed? = world.board.closed? ∧
        ∃ due ⊆ {line | line ∈ group.lines}, Deals adds ⟨world, ∅⟩ ⟨after, due⟩ := by
    split at hrequest
    · exact deals_requestEvents hsound htakeable hrequest
    · refine (deals_requestValues hsound htakeable hsize (count_of_checkRequest hcheck)
        hrequest).imp_right fun ⟨hok, hclosed, hdeals⟩ => ⟨hok, hclosed, _, ?_, hdeals⟩
      rw [Set.empty_union]
  rcases htaken with ⟨error, rfl, hdeals⟩ | ⟨rfl, hclosed, due, hsubset, hdeals⟩
  · exact hdeals
  · refine hdeals.trans (deals_updateAll fun line hline => ?_)
    exact htakeable.toOnChip.due_open hclosed line (Or.inr (hsubset hline))

end World

/-! ### All operations -/

variable {σ : Type} [Machine σ] {world : World σ}

def Operation.AddsChip : Operation → Prop
  | .openChip _ => True
  | _ => False

theorem GroupOperation.deals (hsound : Desk.Sound ⟨world, 0⟩) {operation : GroupOperation}
    {group : Group} (hsize : group.size ≤ maxLines) {adds : Prop} :
    Deals adds ⟨world, ∅⟩ ⟨(operation.run group world).2, ∅⟩ := by
  cases operation with
  | request config defaults => exact World.deals_request hsound hsize config defaults
  | getValues => exact World.deals_getValues group
  | setValues values => exact World.deals_setValues group values
  | setConfig type flags values => exact World.deals_setConfig hsound group type flags values
  | setFlags flags => exact World.deals_setFlags hsound group flags
  | setDirectionInput => exact World.deals_setDirectionInput hsound group
  | setDirectionOutput values => exact World.deals_setDirectionOutput hsound group values

/-- **Every operation is a chain of deals, and settles what it owes.** -/
theorem Operation.deals (hsound : Desk.Sound ⟨world, 0⟩) {operation : Operation}
    (hgroups : ∀ group ∈ operation.groups, group.WellFormed) :
    Deals operation.AddsChip ⟨world, ∅⟩ ⟨(operation.run world).2, ∅⟩ := by
  cases operation with
  | openChip device => exact World.deals_openChipOn trivial device
  | closeChip chip => exact World.deals_closeChip chip
  | getLine chip offset => exact World.deals_getLine chip offset
  | getLines chip offsets => exact World.deals_getLinesInto chip .empty offsets
  | getAllLines chip => exact World.deals_getLinesInto chip .empty _
  | findLine chip name => exact World.deals_findLine chip name
  | gather | append | single => exact .refl
  | onGroup operation group =>
      exact operation.deals hsound (hgroups group (List.mem_singleton_self group)).size_le
  | release group => exact World.deals_release group
  | refresh line => exact World.deals_refresh_idle line
  | readEvent line => exact World.deals_readEvent line
  | readEvents line limit => exact World.deals_readEvents line limit
  | openStream line => exact World.deals_openStream line
  | nextEvent stream => exact World.deals_nextEvent stream
  | dropStream stream => exact World.deals_dropStream stream
  | newToken => exact .single (.pass (World.keeps_of_eq rfl rfl rfl))
  | cancel token => exact .single (.pass (World.keeps_of_eq rfl rfl rfl))
  | wait group token timeout =>
      change Deals _ _ ⟨(world.wait group token timeout []).2, ∅⟩
      obtain ⟨log, hwait⟩ := world.wait_alone group token timeout
      rw [hwait]
      exact .single (.pass (World.keeps_of_eq rfl rfl rfl))

end GpioLines
