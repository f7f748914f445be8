import GpioLines.Proofs.Admission
import GpioLines.Proofs.Polarity

/-!
# Refreshing what is reported

An operation that has changed lines asks the chip for each of them in the end. What is answered is
reported from then on; where no answer comes, what was reported stays, and the line needs an update.
An operation that fails has not asked for any line, so no answer that is missing makes one fail.
-/

namespace GpioLines

/-! ### One line -/

/-- The record of a line after the device was asked for its metadata. -/
def LineRecord.hear (record : LineRecord) : Except Error LineInfo → LineRecord
  | .ok info => record.refreshed info
  | .error _ => record.stale

theorem LineRecord.hear_hear (record : LineRecord) (answer : Except Error LineInfo) :
    (record.hear answer).hear answer = record.hear answer := by
  cases answer <;> rfl

/-- What a simulated chip answers when it is asked for the metadata of a line. -/
def Bench.answer (bench : Bench) (index : Nat) (offset : Offset) : Except Error LineInfo :=
  (perform (.simulator index) (.lineInfo offset) bench).1

theorem Bench.answer_eq_of_simulators_eq {bench after : Bench}
    (h : after.simulators = bench.simulators) : after.answer = bench.answer := by
  funext index offset
  simp only [answer, perform, performSimulator, h]
  split <;> rfl

namespace World

variable {world before after : World (Traced Bench)} {index : Nat} {line : Line} {group : Group}

/-- The line is one of an open chip on this simulated chip. -/
structure Reaches (world : World (Traced Bench)) (index : Nat) (line : Line) : Prop where
  isOpen : world.board.closed? line.chip = some false
  device : world.board.device? line.chip = some (.simulator index)

theorem Reaches.openChip (h : world.Reaches index line) :
    ∃ chip, world.openChip line.chip = .ok chip ∧ chip.device = .simulator index := by
  have hopen : world.ledger.closed? line.chip = some false := h.isOpen
  obtain ⟨chip, hopen⟩ := closed?_eq_false.mp hopen
  have hdevice : world.board.device? line.chip = some chip.device := by
    simp only [board, (openChip_eq_ok.mp hopen).1, Option.map_some]
  exact ⟨chip, hopen, Option.some.inj (hdevice.symm.trans h.device)⟩

theorem Reaches.of_board (h : world.Reaches index line) (hboard : after.board = world.board) :
    after.Reaches index line :=
  ⟨hboard ▸ h.isOpen, hboard ▸ h.device⟩

theorem OnChip.reaches {chip : Chip} {id : ChipId} (h : world.OnChip group chip id)
    (hdevice : ∀ line ∈ group.lines, world.board.device? line.chip = some (.simulator index)) :
    ∀ line ∈ group.lines, world.Reaches index line := by
  intro line hmem
  refine ⟨?_, hdevice line hmem⟩
  rw [h.members line hmem]
  exact closed?_eq_false.mpr ⟨chip, h.isOpen⟩

theorem Reaches.info (h : world.Reaches index line) :
    world.info line = .ok (world.record line).info := by
  obtain ⟨chip, hopen, -⟩ := h.openChip
  rw [World.info, hopen]
  rfl

theorem record_update (h : world.Reaches index line) (other : Line) :
    (world.update line).record other =
      if other = line then (world.record line).hear (world.bench.answer index line.offset)
      else world.record other := by
  obtain ⟨chip, hopen, hdevice⟩ := h.openChip
  have hexists := (List.getElem?_eq_some_iff.mp (openChip_eq_ok.mp hopen).1).1
  have hthere : ∀ other, other = line ∧ line.chip < world.chips.length ↔ other = line :=
    fun other => and_iff_left hexists
  rcases hperform : world.perform chip.device (.lineInfo line.offset) with ⟨outcome, mid⟩
  have hupdate := hperform
  obtain ⟨bench, hbench, rfl⟩ := perform_bench hperform
  rw [hdevice] at hbench
  rw [show world.bench.answer index line.offset = outcome from congrArg Prod.fst hbench]
  cases outcome with
  | ok info =>
      simp only [update, refresh, hopen, hupdate]
      exact (record_modifyLine _ line _ other).trans (if_congr (hthere other) rfl rfl)
  | error error =>
      simp only [update, refresh, hopen, hupdate]
      exact (record_modifyLine _ line _ other).trans (if_congr (hthere other) rfl rfl)

/-- What the chip answers does not depend on the order, nor on how often it is asked. -/
theorem record_updates {lines : List Line} (h : ∀ line ∈ lines, world.Reaches index line)
    (line : Line) : (lines.foldl update world).record line =
      if line ∈ lines then (world.record line).hear (world.bench.answer index line.offset)
      else world.record line := by
  induction lines generalizing world with
  | nil => rfl
  | cons first rest ih =>
      have hasked := Asked.update world first
      have hanswer := congrFun (Bench.answer_eq_of_simulators_eq hasked.simulators) index
      have hrest : ∀ line ∈ rest, (world.update first).Reaches index line := fun line hline =>
        (h line (List.mem_cons_of_mem _ hline)).of_board hasked.board
      rw [List.foldl_cons, ih hrest, hanswer, record_update (h first List.mem_cons_self)]
      by_cases heq : line = first
      · subst heq
        rw [if_pos rfl, if_pos List.mem_cons_self, LineRecord.hear_hear, ite_self]
      · rw [if_neg heq]
        exact if_congr (by simp [heq]) rfl rfl

theorem record_updateAll (h : ∀ line ∈ group.lines, world.Reaches index line)
    (hmem : line ∈ group.lines) : (world.updateAll group).record line =
      (world.record line).hear (world.bench.answer index line.offset) :=
  (record_updates h line).trans (if_pos hmem)

/-- What is reported of a line is what the chip says of it after the operation. If the chip says
nothing, it is what was reported before, and needs an update. -/
structure Refreshed (before after : World (Traced Bench)) (index : Nat) (line : Line) : Prop where
  told : ∀ info, after.bench.answer index line.offset = .ok info →
    after.info line = .ok info ∧ after.needsUpdate line = false
  untold : ∀ error, after.bench.answer index line.offset = .error error →
    after.info line = before.info line ∧ after.needsUpdate line = true

theorem Refreshed.of_info {mid : World (Traced Bench)} (h : mid.Refreshed after index line)
    (hinfo : mid.info line = before.info line) : before.Refreshed after index line :=
  ⟨h.told, fun error huntold => hinfo ▸ h.untold error huntold⟩

theorem refreshed_updateAll {settled : World (Traced Bench)}
    (hboard : settled.board.closed? = before.board.closed?)
    (hdevice : settled.board.device? = before.board.device?)
    (hreaches : ∀ line ∈ group.lines, before.Reaches index line)
    (hinfo : (settled.record line).info = (before.record line).info) (hmem : line ∈ group.lines) :
    before.Refreshed (settled.updateAll group) index line := by
  have hsettled : ∀ line ∈ group.lines, settled.Reaches index line := fun line hline =>
    ⟨by rw [hboard]; exact (hreaches line hline).isOpen,
      by rw [hdevice]; exact (hreaches line hline).device⟩
  have hasked := Asked.updateAll settled group
  have hrecord := record_updateAll hsettled hmem
  have hlater := ((hsettled line hmem).of_board hasked.board).info
  have hanswer : (settled.updateAll group).bench.answer index line.offset =
      settled.bench.answer index line.offset := by
    rw [Bench.answer_eq_of_simulators_eq hasked.simulators]
  refine ⟨fun info htold => ?_, fun error huntold => ?_⟩
  · rw [hanswer] at htold
    rw [htold] at hrecord
    rw [hlater, needsUpdate, hrecord]
    exact ⟨rfl, rfl⟩
  · rw [hanswer] at huntold
    rw [huntold] at hrecord
    rw [hlater, needsUpdate, hrecord, (hreaches line hmem).info, ← hinfo]
    exact ⟨rfl, rfl⟩

/-! ### Operations that fail -/

/-- No metadata was asked for. -/
def Unasked (before after : World (Traced Bench)) : Prop :=
  ∃ made, after.trace = before.trace ++ made ∧
    ∀ device offset outcome, Exchange.call device (.lineInfo offset) outcome ∉ made

namespace Unasked

theorem of_machine_eq (h : after.machine = before.machine) : before.Unasked after :=
  ⟨[], by rw [World.trace, h, List.append_nil], fun _ _ _ => List.not_mem_nil⟩

theorem trans {mid : World (Traced Bench)} (h : before.Unasked mid) (hlater : mid.Unasked after) :
    before.Unasked after := by
  obtain ⟨made, hmade, hnone⟩ := h
  obtain ⟨more, hmore, hnever⟩ := hlater
  refine ⟨made ++ more, by rw [hmore, hmade, List.append_assoc], ?_⟩
  intro device offset outcome hmem
  exact (List.mem_append.mp hmem).elim (hnone device offset outcome) (hnever device offset outcome)

theorem perform {device : Device} {call : Call} {outcome : Outcome call}
    (h : before.perform device call = (outcome, after)) (hcall : call.kind ≠ .lineInfo) :
    before.Unasked after := by
  obtain ⟨bench, -, rfl⟩ := perform_bench h
  refine ⟨_, rfl, fun party offset reply hmem => hcall ?_⟩
  have hsame := List.mem_singleton.mp hmem
  cases hsame
  rfl

theorem dropHandle (world : World (Traced Bench)) (id : HandleId) :
    world.Unasked (world.dropHandle id) := by
  by_cases hheld : world.isHeld id = true
  · rw [World.dropHandle, if_pos hheld]
    exact of_machine_eq rfl
  · rw [World.dropHandle, if_neg hheld]
    cases hget : world.handles.get? id with
    | none =>
        rw [closeHandle, hget]
        exact of_machine_eq rfl
    | some handle =>
        rw [closeHandle_eq hget]
        refine ⟨[.release handle.device handle.file], rfl, fun device offset outcome hmem => ?_⟩
        cases List.mem_singleton.mp hmem

theorem dropHandles (ids : List HandleId) (world : World (Traced Bench)) :
    world.Unasked (world.dropHandles ids) := by
  induction ids generalizing world with
  | nil => exact of_machine_eq rfl
  | cons id rest ih =>
      by_cases hagain : id ∈ rest
      · rw [World.dropHandles, if_pos hagain]
        exact ih world
      · rw [World.dropHandles, if_neg hagain]
        exact (dropHandle world id).trans (ih _)

theorem acquireEvents (device : Device) (config : RequestConfig) (granted : List HandleId)
    (lines : List Line) (world : World (Traced Bench)) :
    world.Unasked (world.acquireEvents device config granted lines).2 := by
  induction lines generalizing world granted with
  | nil => exact of_machine_eq rfl
  | cons line rest ih =>
      rcases hperform : world.perform device (.requestEvent (eventRequest config line))
        with ⟨error | file, mid⟩
      · rw [acquireEvents_refused hperform]
        exact perform hperform (fun heq => by cases heq)
      · rw [acquireEvents_granted hperform]
        refine (perform hperform (fun heq => by cases heq)).trans (.trans ?_ (ih _ _))
        exact of_machine_eq rfl

end Unasked

variable {config : RequestConfig} {defaults : Option (List UInt8)} {type : RequestType}
  {flags : RequestFlags} {values : Option (List UInt8)} {error : Error}

theorem unasked_request (h : world.request group config defaults = (.error error, after)) :
    world.Unasked after := by
  unfold request at h
  split at h
  · obtain ⟨-, rfl⟩ := Prod.mk.inj h
    exact .of_machine_eq rfl
  unfold requestLocked at h
  split at h
  · obtain ⟨-, rfl⟩ := Prod.mk.inj h
    exact .of_machine_eq rfl
  next chip _ =>
  cases hevents : config.type.isEvent with
  | false =>
      simp only [hevents, Bool.false_eq_true, if_false] at h
      rcases hperform : world.perform chip.device
        (.requestLines (linesRequest group config defaults)) with ⟨refusal | file, mid⟩
      · rw [requestValues_refused hperform] at h
        obtain ⟨-, rfl⟩ := Prod.mk.inj h
        exact .perform hperform (fun heq => by cases heq)
      · rw [requestValues_granted hperform] at h
        cases (Prod.mk.inj h).1
  | true =>
      simp only [hevents, if_true, requestEvents] at h
      have hacquired := Unasked.acquireEvents chip.device config [] group.lines world
      rcases hacquire : world.acquireEvents chip.device config [] group.lines
        with ⟨⟨_ | refused, granted⟩, mid⟩
      · rw [hacquire] at h
        cases (Prod.mk.inj h).1
      · rw [hacquire] at h hacquired
        obtain ⟨-, rfl⟩ := Prod.mk.inj h
        refine hacquired.trans (.trans ?_ (.dropHandles granted _))
        split <;> exact .of_machine_eq rfl

theorem unasked_commitConfig {plan : ConfigPlan}
    (h : world.commitConfig plan = (.error error, after)) : world.Unasked after := by
  cases hperform : world.perform plan.handle.device
    (.setConfig plan.handle.file plan.flags plan.values) with
  | mk outcome mid =>
      cases outcome with
      | error refusal =>
          simp only [commitConfig, hperform] at h
          obtain ⟨-, rfl⟩ := Prod.mk.inj h
          exact .perform hperform (fun heq => by cases heq)
      | ok reply =>
          simp only [commitConfig, hperform] at h
          cases (Prod.mk.inj h).1

theorem unasked_setConfig (h : world.setConfig group type flags values = (.error error, after)) :
    world.Unasked after := by
  cases hcheck : checkConfig group type flags values with
  | error refusal =>
      simp only [setConfig, hcheck] at h
      obtain ⟨-, rfl⟩ := Prod.mk.inj h
      exact .of_machine_eq rfl
  | ok checked =>
      cases hplan : world.planConfig group type flags values with
      | error refusal =>
          simp only [setConfig, hcheck, hplan] at h
          obtain ⟨-, rfl⟩ := Prod.mk.inj h
          exact .of_machine_eq rfl
      | ok plan =>
          cases hcommit : world.commitConfig plan with
          | mk outcome mid =>
              cases outcome with
              | error refusal =>
                  simp only [setConfig, hcheck, hplan, hcommit] at h
                  obtain ⟨-, rfl⟩ := Prod.mk.inj h
                  exact unasked_commitConfig hcommit
              | ok reply =>
                  simp only [setConfig, hcheck, hplan, hcommit] at h
                  cases (Prod.mk.inj h).1

end World

end GpioLines
