import GpioLines.Proofs.Contention

/-!
# Threads that are alone

A thread that nobody comes between does what the operation of its job does in one go. So the steps of
threads are those of the operations, and only what others do in between makes a difference.
-/

namespace GpioLines

variable {σ : Type} {world : World σ}

/-- From one state to another by steps that follow each other. -/
def Leads {stage : Type} (step : World σ → stage → stage × World σ × Option Touch) :
    stage × World σ → stage × World σ → Prop :=
  Relation.ReflTransGen fun before after =>
    ((step before.2 before.1).1, (step before.2 before.1).2.1) = after

namespace Leads

variable {stage : Type} {step : World σ → stage → stage × World σ × Option Touch}

theorem next {s t : stage} {after : World σ} {touch : Option Touch} {last : stage × World σ}
    (hstep : step world s = (t, after, touch)) (h : Leads step (t, after) last) :
    Leads step (s, world) last := by
  refine .head ?_ h
  rw [hstep]

theorem single {s t : stage} {after : World σ} {touch : Option Touch}
    (hstep : step world s = (t, after, touch)) : Leads step (s, world) (t, after) :=
  next hstep .refl

end Leads

theorem World.knownLines_markClosed (world : World σ) (chip : ChipId) :
    (world.markClosed chip).knownLines chip = world.knownLines chip := by
  simp only [knownLines, markClosed, List.getElem?_modify]
  cases world.chips[chip]? <;> rfl

variable [Machine σ]

def unshared (_ : HandleId) : Bool := false

theorem World.letGo_unshared (world : World σ) (id : HandleId) (rest : List HandleId) :
    (world.letGo unshared id rest).dropHandles rest = world.dropHandles (id :: rest) := by
  rw [dropHandles, letGo]
  by_cases hmem : id ∈ rest
  · rw [if_pos hmem, if_pos (Or.inl hmem)]
  · have hunshared : ¬ unshared id = true := Bool.false_ne_true
    rw [if_neg hmem, if_neg (not_or.mpr ⟨hmem, hunshared⟩)]

/-! ### Requests -/

namespace Demand

variable {demand : Demand} {device : Device}

abbrev Leads (demand : Demand) : Requesting × World σ → Requesting × World σ → Prop :=
  GpioLines.Leads (demand.step unshared)

theorem leads_scanning_taken {before rest : List Line} {line : Line}
    (h : world.firstTaken? before rest = some line) :
    demand.Leads (.scanning device before rest, world)
      (.finished (.error (.busy line.offset)), (world.fail (α := Unit) (.busy line.offset)).2) := by
  induction rest generalizing before with
  | nil => cases h
  | cons first rest ih =>
      rw [World.firstTaken?] at h
      split at h
      · next htaken =>
        obtain rfl := Option.some.inj h
        exact .single (by rw [step, if_pos htaken, fail])
      · next hcan => exact .next (by rw [step, if_neg hcan]) (ih h)

theorem leads_scanning_free {before rest : List Line} (h : world.firstTaken? before rest = none) :
    demand.Leads (.scanning device before rest, world)
      (.scanning device (before ++ rest) [], world) := by
  induction rest generalizing before with
  | nil =>
      rw [List.append_nil]
      exact .refl
  | cons first rest ih =>
      rw [World.firstTaken?] at h
      split at h
      · cases h
      · next hcan =>
        rw [List.append_cons]
        exact .next (by rw [step, if_neg hcan]) (ih h)

theorem leads_attaching (pairs : List (Line × HandleId)) :
    demand.Leads (.attaching pairs, world) (.attaching [], world.attachAll demand.kind pairs) := by
  induction pairs generalizing world with
  | nil => exact .refl
  | cons pair rest ih =>
      rw [World.attachAll_cons]
      exact .next rfl ih

theorem leads_refreshing (rest : List Line) :
    demand.Leads (.refreshing rest, world)
      (.finished (.ok ()), rest.foldl World.update world) := by
  induction rest generalizing world with
  | nil => exact .single rfl
  | cons line rest ih => exact .next rfl ih

theorem leads_undoing (granted : List HandleId) (error : Error) :
    demand.Leads (.undoing granted error, world)
      (.finished (.error error), world.dropHandles granted) := by
  induction granted generalizing world with
  | nil => exact .single rfl
  | cons id rest ih =>
      rw [← World.letGo_unshared]
      exact .next rfl ih

theorem leads_attached (demand : Demand) (world : World σ) (pairs : List (Line × HandleId)) :
    demand.Leads (.attaching pairs, world) (.finished (.ok ()),
      ((world.attachAll demand.kind pairs).note demand.notice).updateAll demand.group) :=
  (leads_attaching pairs).trans (Leads.next rfl (leads_refreshing demand.group.lines))

theorem leads_acquiring_refused {granted ids : List HandleId} {rest : List Line} {line : Line}
    {error : Error} {after : World σ}
    (h : world.acquireEvents device demand.config granted rest = ((some (line, error), ids), after)) :
    demand.Leads (.acquiring device granted rest, world) (.undoing ids error,
      if ids.isEmpty then after else after.note (.refusedEvent line.offset ids.length error)) := by
  induction rest generalizing world granted with
  | nil => cases h
  | cons first rest ih =>
      rcases hperform : world.perform device (.requestEvent (World.eventRequest demand.config first))
        with ⟨refusal | file, mid⟩
      · rw [World.acquireEvents_refused hperform] at h
        obtain ⟨⟨⟨rfl, rfl⟩, rfl⟩, rfl⟩ :
            ((first = line ∧ refusal = error) ∧ granted = ids) ∧ mid = after := by
          simpa using h
        exact .single (by rw [step, hperform])
      · rw [World.acquireEvents_granted hperform] at h
        exact .next (by rw [step, hperform]) (ih h)

theorem leads_acquiring_granted {granted ids : List HandleId} {rest : List Line} {after : World σ}
    (h : world.acquireEvents device demand.config granted rest = ((none, ids), after)) :
    demand.Leads (.acquiring device granted rest, world) (.acquiring device ids [], after) := by
  induction rest generalizing world granted with
  | nil =>
      obtain ⟨⟨-, rfl⟩, rfl⟩ : (True ∧ granted = ids) ∧ world = after := by
        simpa [World.acquireEvents] using h
      exact .refl
  | cons first rest ih =>
      rcases hperform : world.perform device (.requestEvent (World.eventRequest demand.config first))
        with ⟨refusal | file, mid⟩
      · rw [World.acquireEvents_refused hperform] at h
        cases h
      · rw [World.acquireEvents_granted hperform] at h
        exact .next (by rw [step, hperform]) (ih h)

theorem leads_events {outcome : Except Error Unit} {after : World σ}
    (hevents : demand.config.type.isEvent = true)
    (h : world.requestEvents device demand.group demand.config = (outcome, after)) :
    demand.Leads (.acquiring device [] demand.group.lines, world)
      (.finished outcome, if outcome.isOk then after.updateAll demand.group else after) := by
  have hkind : demand.kind = .events := if_pos hevents
  have hnotice : demand.notice = .requestedEvents demand.group.offsets demand.config.type.edges
      demand.config.consumer := if_pos hevents
  unfold World.requestEvents at h
  split at h
  · next line refusal ids mid hacquire =>
    obtain ⟨rfl, rfl⟩ := Prod.mk.inj h
    exact (leads_acquiring_refused hacquire).trans (leads_undoing ids refusal)
  · next ids mid hacquire =>
    obtain ⟨rfl, rfl⟩ := Prod.mk.inj h
    have hlast := leads_attached demand mid (demand.group.lines.zip ids)
    rw [hkind, hnotice] at hlast
    exact (leads_acquiring_granted hacquire).trans (Leads.next rfl hlast)

theorem leads_values {outcome : Except Error Unit} {after : World σ}
    (hvalues : demand.config.type.isEvent = false)
    (h : world.requestValues device demand.group demand.config demand.defaults = (outcome, after)) :
    demand.Leads (.asking device, world)
      (.finished outcome, if outcome.isOk then after.updateAll demand.group else after) := by
  have hkind : demand.kind = .values := if_neg (Bool.eq_false_iff.mp hvalues)
  have hnotice : demand.notice = .requestedValues demand.group.offsets demand.config.consumer :=
    if_neg (Bool.eq_false_iff.mp hvalues)
  rcases hperform : world.perform device (.requestLines
    (World.linesRequest demand.group demand.config demand.defaults)) with ⟨refusal | file, mid⟩
  · rw [World.requestValues_refused hperform] at h
    obtain ⟨rfl, rfl⟩ := Prod.mk.inj h
    have hstep : demand.step unshared world (.asking device) =
        (.finished (.error refusal), mid, none) := by
      rw [step, hperform]
    exact .single hstep
  · rw [World.requestValues_granted hperform] at h
    obtain ⟨rfl, rfl⟩ := Prod.mk.inj h
    have hlast := leads_attached demand (mid.openHandle
      (World.linesHandle device file demand.group demand.config demand.defaults))
      (demand.group.lines.map (·, mid.handles.next))
    rw [hkind, hnotice] at hlast
    exact .next (by rw [step, hperform]) hlast

/-- From the guard on a request does what `World.requestLocked` does. -/
theorem leads_entered (demand : Demand) (world : World σ) :
    demand.Leads (.entered, world)
      (.finished (world.requestLocked demand.group demand.config demand.defaults).1,
        (world.requestLocked demand.group demand.config demand.defaults).2) := by
  cases hchip : world.chipOf demand.group with
  | error error =>
      have hcheck : world.checkTakeable demand.group = .error error := by
        rw [World.checkTakeable, hchip]
        rfl
      have hstep : demand.step unshared world .entered = fail world error := by
        rw [step, hchip]
      rw [World.requestLocked, hcheck]
      exact .single hstep
  | ok chip =>
      have henter : demand.Leads (.entered, world)
          (.scanning chip.device [] demand.group.lines, world) := .single (by rw [step, hchip])
      cases htaken : world.firstTaken? [] demand.group.lines with
      | some line =>
          have hcheck : world.checkTakeable demand.group = .error (.busy line.offset) := by
            rw [World.checkTakeable, hchip]
            simp only [bind, Except.bind, htaken]
          rw [World.requestLocked, hcheck]
          exact henter.trans (leads_scanning_taken htaken)
      | none =>
          have hcheck : world.checkTakeable demand.group = .ok chip := by
            rw [World.checkTakeable, hchip]
            simp only [bind, Except.bind, htaken]
          have hscanned := henter.trans (leads_scanning_free htaken)
          rw [World.requestLocked, hcheck]
          simp only
          cases hevents : demand.config.type.isEvent with
          | true =>
              rcases hrequest : world.requestEvents chip.device demand.group demand.config
                with ⟨outcome, mid⟩
              have hlast := leads_events hevents hrequest
              have hstep : demand.step unshared world
                  (.scanning chip.device ([] ++ demand.group.lines) []) =
                  (.acquiring chip.device [] demand.group.lines, world, none) := by
                rw [step, if_pos hevents]
              have hall := hscanned.trans (Leads.next hstep hlast)
              cases outcome <;> exact hall
          | false =>
              rcases hrequest : world.requestValues chip.device demand.group demand.config
                demand.defaults with ⟨outcome, mid⟩
              have hlast := leads_values hevents hrequest
              have hstep : demand.step unshared world
                  (.scanning chip.device ([] ++ demand.group.lines) []) =
                  (.asking chip.device, world, none) := by
                rw [step, if_neg (Bool.eq_false_iff.mp hevents)]
              have hall := hscanned.trans (Leads.next hstep hlast)
              cases outcome <;> exact hall

theorem leads (demand : Demand) (world : World σ) :
    demand.Leads (.start, world)
      (.finished (world.request demand.group demand.config demand.defaults).1,
        (world.request demand.group demand.config demand.defaults).2) := by
  cases hcheck : world.checkRequest demand.group demand.config demand.defaults with
  | error error =>
      have hstep : demand.step unshared world .start = fail world error := by
        rw [step, hcheck]
      rw [World.request, hcheck]
      exact .single hstep
  | ok =>
      have hstep : demand.step unshared world .start = (.waiting, world, none) := by
        rw [step, hcheck]
      have hwait : demand.step unshared world .waiting = (.entered, world, none) := rfl
      rw [World.request, hcheck]
      exact .next hstep (.next hwait (leads_entered demand world))

end Demand

/-! ### Releases -/

namespace Group

variable {group : Group}

theorem leads_detaching (guarded : Bool) (held : List HandleId) (rest : List Line) :
    Leads (group.releaseStep unshared) (.detaching guarded held rest, world)
      (.detaching guarded (held ++ (world.detachAll rest).1) [], (world.detachAll rest).2) := by
  induction rest generalizing world held with
  | nil =>
      rw [World.detachAll, List.append_nil]
      exact .refl
  | cons line rest ih =>
      have hstep : group.releaseStep unshared world (.detaching guarded held (line :: rest)) =
          (.detaching guarded (held ++ (world.detach line).1.toList) rest, (world.detach line).2,
            some (.freed line)) := rfl
      rw [World.detachAll, ← List.append_assoc]
      exact Leads.next hstep (ih _)

theorem leads_dropping (guarded : Bool) (count : Nat) (held : List HandleId) :
    Leads (group.releaseStep unshared) (.dropping guarded count held, world)
      (.dropping guarded count [], world.dropHandles held) := by
  induction held generalizing world with
  | nil => exact .refl
  | cons id rest ih =>
      rw [← World.letGo_unshared]
      exact .next rfl ih

theorem leads_refreshing (rest : List Line) :
    Leads (group.releaseStep unshared) (.refreshing rest, world)
      (.finished, rest.foldl World.update world) := by
  induction rest generalizing world with
  | nil => exact .single rfl
  | cons line rest ih => exact .next rfl ih

/-- A release that has decided for or against the guard. -/
theorem leads_released {guarded : Bool} {held : List HandleId} {after : World σ}
    (h : world.detachAll group.lines = (held, after)) :
    Leads (group.releaseStep unshared) (.detaching guarded [] group.lines, world)
      (.finished,
        if held.isEmpty then after.dropHandles held
        else if guarded then
          ((after.dropHandles held).note (.released held.length group.offsets)).updateAll group
        else (after.dropHandles held).note (.released held.length group.offsets)) := by
  have hdetached : Leads (group.releaseStep unshared) (.detaching guarded [] group.lines, world)
      (.detaching guarded held [], after) := by
    have hall : Leads (group.releaseStep unshared) (.detaching guarded [] group.lines, world) _ :=
      leads_detaching guarded [] group.lines
    rwa [h, List.nil_append] at hall
  have hdropping : group.releaseStep unshared after (.detaching guarded held []) =
      (.dropping guarded held.length held, after, none) := rfl
  refine hdetached.trans (Leads.next hdropping ((leads_dropping _ _ _).trans ?_))
  generalize after.dropHandles held = dropped
  cases held with
  | nil =>
      have hstep : group.releaseStep unshared dropped (.dropping guarded 0 []) =
          (.finished, dropped, none) := rfl
      exact Leads.single hstep
  | cons id rest =>
      cases guarded with
      | true =>
          have hstep : group.releaseStep unshared dropped (.dropping true (rest.length + 1) []) =
              (.refreshing group.lines, dropped.note (.released (rest.length + 1) group.offsets),
                none) := rfl
          exact Leads.next hstep (leads_refreshing group.lines)
      | false =>
          have hstep : group.releaseStep unshared dropped (.dropping false (rest.length + 1) []) =
              (.finished, dropped.note (.released (rest.length + 1) group.offsets), none) := rfl
          exact Leads.single hstep

theorem leads (group : Group) (world : World σ) :
    Leads (group.releaseStep unshared) (.start, world) (.finished, world.release group) := by
  unfold World.release
  cases hopen : group.first?.any fun line => world.isOpen line.chip with
  | true =>
      have hstep : group.releaseStep unshared world .start = (.waiting, world, none) := by
        rw [releaseStep, if_pos hopen]
      have hwait : group.releaseStep unshared world .waiting =
          (.detaching true [] group.lines, world, none) := rfl
      exact .next hstep (.next hwait (leads_released rfl))
  | false =>
      have hstep : group.releaseStep unshared world .start =
          (.detaching false [] group.lines, world, none) := by
        rw [releaseStep, if_neg (Bool.eq_false_iff.mp hopen)]
      exact .next hstep (leads_released rfl)

end Group

/-! ### Closing -/

namespace World

variable {chip : ChipId}

abbrev LeadsClosing (chip : ChipId) : Closing × World σ → Closing × World σ → Prop :=
  Leads fun world => world.closeStep chip unshared

theorem letGo_unshared_nil (world : World σ) (id : HandleId) :
    world.letGo unshared id [] = world.dropHandle id := by
  rw [letGo, if_neg]
  rintro (hmem | hshared)
  · cases hmem
  · cases hshared

theorem leads_invalidating (name : String) (rest : List Line) :
    LeadsClosing chip (.invalidating name rest, world)
      (.invalidating name [], rest.foldl invalidate world) := by
  induction rest generalizing world with
  | nil => exact .refl
  | cons line rest ih =>
      rw [List.foldl_cons, invalidate]
      cases hheld : (world.detach line).1 with
      | none =>
          have hstep : world.closeStep chip unshared (.invalidating name (line :: rest)) =
              (.invalidating name rest, (world.detach line).2.modifyLine line (·.stale),
                some (.freed line)) := by
            rw [closeStep, hheld]
            rfl
          simp only [hheld, Option.elim_none]
          exact .next hstep ih
      | some id =>
          have hstep : world.closeStep chip unshared (.invalidating name (line :: rest)) =
              (.discarding name id rest, (world.detach line).2.modifyLine line (·.stale),
                some (.freed line)) := by
            rw [closeStep, hheld]
            rfl
          have hdrop : ((world.detach line).2.modifyLine line (·.stale)).closeStep chip unshared
              (.discarding name id rest) = (.invalidating name rest,
                ((world.detach line).2.modifyLine line (·.stale)).dropHandle id, none) := by
            rw [closeStep, letGo_unshared_nil]
          simp only [hheld, Option.elim_some]
          exact .next hstep (.next hdrop ih)

theorem leads_noting (name : String) : LeadsClosing chip (.invalidating name [], world)
    (.finished, world.note (.closedChip name)) := by
  have hstep : world.closeStep chip unshared (.invalidating name []) =
      (.finished, world.note (.closedChip name), none) := rfl
  exact .single hstep

theorem leads_closing (world : World σ) (chip : ChipId) :
    LeadsClosing chip (.waiting, world) (.finished, world.closeChip chip) := by
  have hstart : world.closeStep chip unshared .waiting = (.entered, world, none) := rfl
  apply Leads.next hstart
  unfold closeChip
  split
  · next hnone =>
    have hstep : world.closeStep chip unshared .entered = (.finished, world, none) := by
      rw [closeStep, hnone]
    exact .single hstep
  · next found hget =>
    split
    · next hclosed =>
      have hstep : world.closeStep chip unshared .entered = (.finished, world, none) := by
        simp only [closeStep, hget, hclosed, if_true]
      exact .single hstep
    · next hopen =>
      have hstep : world.closeStep chip unshared .entered =
          (.marked found.name, world.markClosed chip, none) := by
        rw [closeStep, hget]
        simp only [hopen]
        rfl
      have hknown : (world.markClosed chip).knownLines chip =
          found.records.offsets.map (Line.mk chip) := by
        rw [knownLines_markClosed, knownLines, hget, Option.elim_some]
      have hmarked : (world.markClosed chip).closeStep chip unshared (.marked found.name) =
          (.invalidating found.name (found.records.offsets.map (Line.mk chip)),
            world.markClosed chip, none) := by
        rw [closeStep, hknown]
      have hinvalidated : LeadsClosing chip (_, world.markClosed chip) _ :=
        leads_invalidating found.name (found.records.offsets.map (Line.mk chip))
      exact .next hstep (.next hmarked (hinvalidated.trans (leads_noting found.name)))

end World

/-! ### Crews of one -/

namespace Crew

variable {env : σ → σ → Prop}

theorem advance_alone (thread : Thread) (world : World σ) (history : History) :
    advance ⟨[thread], world, history⟩ 0 =
      ⟨[(thread.step unshared world).1], (thread.step unshared world).2.1,
        history.record 0 (thread.step unshared world).2.2⟩ := by
  have hblocks : blocks (⟨[thread], world, history⟩ : Crew σ) thread = false := by
    rw [blocks]
    cases hawaits : thread.awaits? with
    | none => rfl
    | some chip =>
        rw [Option.any_some, List.any_eq_false]
        intro other hother hguard
        rw [List.mem_singleton.mp hother] at hguard
        rw [Thread.awaits?_of_guard? (beq_iff_eq.mp hguard)] at hawaits
        cases hawaits
  simp only [advance, List.getElem?_cons_zero, hblocks]
  rfl

/-- What the steps of a job lead to, its thread comes to if it is alone. -/
theorem run_of_leads {stage : Type} {step : World σ → stage → stage × World σ × Option Touch}
    (embed : stage → Thread) (hembed : ∀ s world, ((embed s).step unshared world).1 =
      embed (step world s).1 ∧ ((embed s).step unshared world).2.1 = (step world s).2.1)
    {before after : stage × World σ} (h : Leads step before after) (history : History) :
    ∃ later, Run env ⟨[embed before.1], before.2, history⟩ ⟨[embed after.1], after.2, later⟩ := by
  induction h with
  | refl => exact ⟨history, .refl⟩
  | @tail mid last _ hstep ih =>
      obtain ⟨later, hrun⟩ := ih
      obtain ⟨hthread, hworld⟩ := hembed mid.1 mid.2
      have hadvance := advance_alone (embed mid.1) mid.2 later
      rw [hthread, hworld] at hadvance
      refine ⟨later.record 0 ((embed mid.1).step unshared mid.2).2.2, hrun.tail ?_⟩
      rw [← hstep]
      exact hadvance ▸ Step.advance 0

/-- **Threads take the steps of the operations.** -/
theorem run_request (world : World σ) (demand : Demand) :
    ∃ history, Run env (start world [.request demand])
      ⟨[.request demand (.finished
          (world.request demand.group demand.config demand.defaults).1)],
        (world.request demand.group demand.config demand.defaults).2, history⟩ :=
  run_of_leads (Thread.request demand) (fun _ _ => ⟨rfl, rfl⟩) (demand.leads world) []

theorem run_release (world : World σ) (group : Group) :
    ∃ history, Run env (start world [.release group])
      ⟨[.release group .finished], world.release group, history⟩ :=
  run_of_leads (Thread.release group) (fun _ _ => ⟨rfl, rfl⟩) (group.leads world) []

theorem run_close (world : World σ) (chip : ChipId) :
    ∃ history, Run env (start world [.close chip])
      ⟨[.close chip .finished], world.closeChip chip, history⟩ :=
  run_of_leads (Thread.close chip) (fun _ _ => ⟨rfl, rfl⟩) (world.leads_closing chip) []

end Crew

end GpioLines
