import GpioLines.Proofs.Admission
import GpioLines.Proofs.LocalErrors
import GpioLines.Proofs.Service

/-!
# The library does not contradict itself

Two errors are there only for the case that something was not kept which is kept elsewhere: that a
group has lines of several chips, and that a line is not part of its own request. Groups are of one
chip from the start, and a slot refers to a handle that has its line. So no operation on a group ever
ends with either.
-/

namespace GpioLines

theorem foldlM_eq_ok {ε α β : Type} {f : β → α → Except ε β} {items : List α}
    (h : ∀ item ∈ items, ∀ state, ∃ next, f state item = .ok next) (start : β) :
    ∃ result, items.foldlM f start = .ok result := by
  induction items generalizing start with
  | nil => exact ⟨start, rfl⟩
  | cons item rest ih =>
      obtain ⟨next, hnext⟩ := h item List.mem_cons_self start
      obtain ⟨result, hrest⟩ := ih (fun other hother => h other (List.mem_cons_of_mem _ hother)) next
      refine ⟨result, ?_⟩
      rw [List.foldlM_cons, hnext]
      exact hrest

/-! ### Errors that contradict what the library keeps -/

/-- The library has not contradicted itself. -/
def Error.Coherent (error : Error) : Prop := error ≠ .crossChip ∧ error ≠ .invalid .foreignLine

theorem Error.coherent_call (kind : CallKind) (errno : Errno) : Coherent (.call kind errno) :=
  ⟨nofun, nofun⟩

theorem Simulator.perform_error {sim after : Simulator} {fresh : FileId} {call : Call} {error : Error}
    (h : sim.perform fresh call = (.error error, after)) : ∃ errno, error = .call call.kind errno := by
  have hmap : ∀ {α : Type} (kind : CallKind) (result : Except Errno α),
      result.mapError (.call kind ·) = .error error → ∃ errno, error = .call kind errno := by
    intro α kind result hresult
    cases result with
    | ok => cases hresult
    | error errno => exact ⟨errno, (Except.error.inj hresult).symm⟩
  cases call with
  | chipInfo => cases (Prod.mk.inj h).1
  | lineInfo => exact hmap _ _ (Prod.mk.inj h).1
  | getValues => exact hmap _ _ (Prod.mk.inj h).1
  | requestLines | requestEvent | setValues | setConfig =>
      obtain ⟨errno, -, herror, -⟩ := settle_eq_error.mp h
      exact ⟨errno, herror⟩

/-- A device refuses a call with an error number. -/
theorem Bench.perform_error {bench after : Bench} {device : Device} {call : Call} {error : Error}
    (h : perform device call bench = (.error error, after)) :
    ∃ errno, error = .call call.kind errno := by
  induction device generalizing bench after error with
  | simulator index =>
      simp only [perform, performSimulator] at h
      split at h
      · exact ⟨_, (Except.error.inj (Prod.mk.inj h).1).symm⟩
      · next sim _ =>
        rcases hperform : sim.perform bench.files.next call with ⟨outcome, changed⟩
        rw [hperform] at h
        obtain rfl : outcome = .error error := (Prod.mk.inj h).1
        exact Simulator.perform_error hperform
  | character path =>
      simp only [perform, CharacterDevice.perform] at h
      split at h
      · split at h
        · cases (Prod.mk.inj h).1
        · exact ⟨_, (Except.error.inj (Prod.mk.inj h).1).symm⟩
      · exact ⟨_, (Except.error.inj (Prod.mk.inj h).1).symm⟩
  | probe index beneath ih =>
      unfold perform at h
      split at h
      · exact ih h
      · simp only at h
        split at h
        · exact ⟨_, (Except.error.inj (Prod.mk.inj h).1).symm⟩
        · rcases hbeneath : perform beneath call _ with ⟨inner, mid⟩
          rw [hbeneath] at h
          cases inner with
          | ok => cases (Prod.mk.inj h).1
          | error inner =>
              obtain rfl := Except.error.inj (Prod.mk.inj h).1
              exact ih hbeneath

abbrev Coheres {α : Type} (outcome : Except Error α) : Prop := FailsAs Error.Coherent outcome

theorem Group.coheres_checkCount (group : Group) (values : List UInt8) :
    Coheres (group.checkCount values) := by
  unfold checkCount
  split
  · exact .ok ()
  · exact .error ⟨nofun, nofun⟩

theorem Group.coheres_checkCount? (group : Group) (values : Option (List UInt8)) :
    Coheres (group.checkCount? values) := by
  cases values with
  | none => exact .ok ()
  | some values => exact group.coheres_checkCount values

theorem RequestFlags.coheres_validate (flags : RequestFlags) : Coheres flags.validate := by
  unfold validate
  split
  · exact .error ⟨nofun, nofun⟩
  · split
    · exact .error ⟨nofun, nofun⟩
    · exact .ok ()

namespace World

/-! ### Checks and plans -/

section Plans

variable {σ : Type} {world : World σ} {group : Group}

/-- Every line of the group is one of the handle's, so each value has its place. -/
theorem inRequestOrder_of_covers (hsound : world.ledger.Sound) {id : HandleId} {handle : Handle}
    (hcovers : world.Covers group id handle) (values : List UInt8) :
    ∃ ordered, group.inRequestOrder handle values = .ok ordered := by
  refine foldlM_eq_ok (fun entry hentry ordered => ?_) _
  obtain ⟨line, hline, hoffset⟩ := List.mem_map.mp (List.of_mem_zip hentry).1
  obtain ⟨hholds, hget⟩ := handle?_eq_some.mp (hcovers.serves line hline)
  obtain ⟨found, hfound, -, hlisted⟩ := hsound.slot_open line id hholds
  obtain rfl := Option.mem_unique hget hfound
  obtain ⟨place, hplace⟩ := Option.isSome_iff_exists.mp (List.isSome_idxOf?.mpr hlisted)
  have hindex : handle.indexOf? entry.1 = some place := hoffset ▸ hplace
  exact ⟨ordered.set place (normalize entry.2), by simp only [hindex]⟩

variable (hgroup : group.WellFormed)

include hgroup

theorem coheres_chipOf : Coheres (world.chipOf group) := by
  by_cases hempty : group.lines = []
  · rw [chipOf_of_empty hempty]
    exact .error ⟨nofun, nofun⟩
  by_cases hopen : ∀ line ∈ group.lines, world.isOpen line.chip = true
  · obtain ⟨chip, id, honchip⟩ := onChip_of_isOpen hgroup hempty hopen
    exact .of_eq_ok ⟨chip, honchip.chipOf⟩
  · rw [chipOf_of_not_isOpen hgroup hempty hopen]
    exact .error ⟨nofun, nofun⟩

theorem coheres_handlesOf : Coheres (world.handlesOf group) := by
  refine .bind (coheres_chipOf hgroup) fun _ _ => .mapM (fun line => ?_) _
  unfold handleOf
  split
  · exact .ok _
  · exact .error ⟨nofun, nofun⟩

theorem coheres_valuesHandle : Coheres (world.valuesHandle group) := by
  refine .bind (coheres_handlesOf hgroup) fun held _ => ?_
  repeat' split
  all_goals first | exact .ok _ | exact .error ⟨nofun, nofun⟩

theorem coheres_planValues (hsound : world.ledger.Sound) (values : List UInt8) :
    Coheres (world.planValues group values) :=
  .bind (group.coheres_checkCount values) fun _ _ =>
    .bind (coheres_valuesHandle hgroup) fun _ hhandle =>
      .bind (.of_eq_ok (inRequestOrder_of_covers hsound (covers_of_valuesHandle hhandle).2 values))
        fun _ _ => .ok _

theorem coheres_planConfig (hsound : world.ledger.Sound) (type : RequestType) (flags : RequestFlags)
    (values : Option (List UInt8)) : Coheres (world.planConfig group type flags values) := by
  refine .bind (coheres_chipOf hgroup) fun _ _ =>
    .bind (coheres_valuesHandle hgroup) fun held hhandle => ?_
  simp only
  split
  · split
    · exact .bind (.of_eq_ok
        (inRequestOrder_of_covers hsound (covers_of_valuesHandle hhandle).2 _)) fun _ _ => .ok _
    · exact .ok _
  · exact .ok _

theorem coheres_checkRequest (config : RequestConfig) (defaults : Option (List UInt8)) :
    Coheres (world.checkRequest group config defaults) :=
  .bind (coheres_chipOf hgroup) fun _ _ =>
    .bind config.flags.coheres_validate fun _ _ => group.coheres_checkCount? defaults

theorem coheres_checkTakeable : Coheres (world.checkTakeable group) := by
  refine .bind (coheres_chipOf hgroup) fun chip _ => ?_
  split
  · exact .error ⟨nofun, nofun⟩
  · exact .ok chip

end Plans

theorem coheres_checkConfig (group : Group) (type : RequestType) (flags : RequestFlags)
    (values : Option (List UInt8)) : Coheres (checkConfig group type flags values) := by
  unfold checkConfig
  split
  · exact .error ⟨nofun, nofun⟩
  · exact .bind flags.coheres_validate fun _ _ => group.coheres_checkCount? values

/-! ### Operations -/

variable {world : World (Traced Bench)} {group : Group}

theorem coheres_perform (world : World (Traced Bench)) (device : Device) (call : Call) :
    Coheres (world.perform device call).1 := by
  intro error herror
  rcases hperform : world.perform device call with ⟨outcome, after⟩
  rw [hperform] at herror
  obtain rfl : outcome = .error error := herror
  obtain ⟨bench, hbench, -⟩ := perform_bench hperform
  obtain ⟨errno, rfl⟩ := Bench.perform_error hbench
  exact Error.coherent_call ..

theorem coheres_acquireEvents (device : Device) (config : RequestConfig) (granted : List HandleId)
    (lines : List Line) {refused : Line × Error}
    (h : (world.acquireEvents device config granted lines).1.1 = some refused) :
    refused.2.Coherent := by
  induction lines generalizing world granted with
  | nil => cases h
  | cons line rest ih =>
      have hperformed := coheres_perform world device (.requestEvent (eventRequest config line))
      rcases hperform : world.perform device (.requestEvent (eventRequest config line))
        with ⟨error | file, after⟩
      · rw [acquireEvents_refused hperform] at h
        rw [hperform] at hperformed
        obtain rfl := Option.some.inj h
        exact hperformed error rfl
      · rw [acquireEvents_granted hperform] at h
        exact ih _ h

theorem coheres_fetchAll (held : List (HandleId × Handle)) : Coheres (world.fetchAll held).1 := by
  induction held generalizing world with
  | nil => exact .ok []
  | cons entry rest ih =>
      unfold fetchAll
      have hperformed := coheres_perform world entry.2.device
        (.getValues entry.2.file (List.replicate entry.2.offsets.length 0))
      simp only
      split
      · next error after hperform =>
        rw [hperform] at hperformed
        exact .error (hperformed error rfl)
      · next values after _ =>
        have hrest := @ih after
        split
        · next error last hfetch =>
          rw [hfetch] at hrest
          exact .error (hrest error rfl)
        · exact .ok _

section Operations

variable (hgroup : group.WellFormed)

include hgroup

theorem coheres_request (config : RequestConfig) (defaults : Option (List UInt8)) :
    Coheres (world.request group config defaults).1 := by
  have hchecked : Coheres (world.checkRequest group config defaults) :=
    coheres_checkRequest hgroup config defaults
  cases hcheck : world.checkRequest group config defaults with
  | error error =>
      rw [request_of_refused hcheck]
      exact .error (hchecked error hcheck)
  | ok =>
      have htaken : Coheres (world.checkTakeable group) := coheres_checkTakeable hgroup
      cases htakeable : world.checkTakeable group with
      | error error =>
          rw [request_of_taken hcheck htakeable]
          exact .error (htaken error htakeable)
      | ok chip =>
          cases hevents : config.type.isEvent with
          | true =>
              rw [request_fst_events hcheck htakeable hevents]
              split
              · next hrefused => exact .error (coheres_acquireEvents _ config [] group.lines hrefused)
              · exact .ok ()
          | false =>
              rw [request_fst_values hcheck htakeable hevents]
              exact .map (coheres_perform _ _ _) _

variable (hsound : world.ledger.Sound)

include hsound

theorem coheres_getValues : Coheres (world.getValues group).1 := by
  have hhandles : Coheres (world.handlesOf group) := coheres_handlesOf hgroup
  unfold getValues
  split
  · next error hheld => exact .error (hhandles error hheld)
  · next held hheld =>
    have hfetched : Coheres (world.fetchAll (distinctHandles held)).1 := coheres_fetchAll _
    split
    · next error after hfetch =>
      rw [hfetch] at hfetched
      exact .error (hfetched error rfl)
    · next fetched after hfetch => exact .of_eq_ok (picked_of_fetched hsound hheld hfetch)

theorem coheres_setValues (values : List UInt8) : Coheres (world.setValues group values).1 := by
  have hplanned := coheres_planValues hgroup hsound values
  unfold setValues
  split
  · next error hplan => exact .error (hplanned error hplan)
  · next id handle ordered _ =>
    have hperformed := coheres_perform world handle.device (.setValues handle.file ordered)
    unfold commitValues
    split
    · next error after hperform =>
      rw [hperform] at hperformed
      exact .error (hperformed error rfl)
    · exact .ok ()

theorem coheres_setConfig (type : RequestType) (flags : RequestFlags)
    (values : Option (List UInt8)) : Coheres (world.setConfig group type flags values).1 := by
  have hchecked := coheres_checkConfig group type flags values
  have hplanned := coheres_planConfig hgroup hsound type flags values
  unfold setConfig
  split
  · next error hcheck => exact .error (hchecked error hcheck)
  split
  · next error hplan => exact .error (hplanned error hplan)
  next plan _ =>
  have hperformed := coheres_perform world plan.handle.device
    (.setConfig plan.handle.file plan.flags plan.values)
  have hcommitted : Coheres (world.commitConfig plan).1 := by
    unfold commitConfig
    split
    · next error after hperform =>
      rw [hperform] at hperformed
      exact .error (hperformed error rfl)
    · exact .ok ()
  split
  · next error after hcommit =>
    rw [hcommit] at hcommitted
    exact .error (hcommitted error rfl)
  · exact .ok ()

/-- **No operation on a group contradicts what the library keeps.** -/
theorem coheres_run (operation : GroupOperation) : Coheres (operation.run group world).1 := by
  have hvalues : Coheres (world.valuesHandle group) := coheres_valuesHandle hgroup
  cases operation with
  | request config defaults => exact coheres_request hgroup config defaults
  | getValues => exact .map (coheres_getValues hgroup hsound) _
  | setValues values => exact coheres_setValues hgroup hsound values
  | setConfig type flags values => exact coheres_setConfig hgroup hsound type flags values
  | setFlags flags =>
      simp only [GroupOperation.run, setFlags]
      split
      · next error hhandle => exact .error (hvalues error hhandle)
      · exact coheres_setConfig hgroup hsound _ _ _
  | setDirectionInput =>
      simp only [GroupOperation.run, setDirectionInput]
      split
      · next error hhandle => exact .error (hvalues error hhandle)
      · exact coheres_setConfig hgroup hsound _ _ _
  | setDirectionOutput values =>
      have hboth : Coheres (do group.checkCount values; world.valuesHandle group) :=
        .bind (group.coheres_checkCount values) fun _ _ => hvalues
      simp only [GroupOperation.run, setDirectionOutput]
      split
      · next error hhandle => exact .error (hboth error hhandle)
      · exact coheres_setConfig hgroup hsound _ _ _

end Operations

end World

end GpioLines
