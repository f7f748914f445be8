import GpioLines.Proofs.Granting
import GpioLines.Proofs.Polarity
import GpioLines.Proofs.Subscribing
import GpioLines.Proofs.Whereabouts

/-!
# Which requests are granted

Whether a request on a simulated chip is granted, and with which error it is refused, can be read off
the state before it. What a request requires is a list of conditions, each with the error that tells
it is not met: first what the library checks by itself, then what the chip insists on. The request is
granted exactly if all of them are met, and otherwise its error is that of the first one that is not.
-/

namespace GpioLines

/-- A condition of an operation, and the errors that tell it is not met. -/
structure Requirement where
  met : Prop
  tells : Error → Prop

namespace Requirement

/-- The error tells of the first of the requirements that is not met. -/
def FirstBroken : List Requirement → Error → Prop
  | [], _ => False
  | first :: rest, error => ¬ first.met ∧ first.tells error ∨ first.met ∧ FirstBroken rest error

/-- Success if all requirements are met, and else the error of the first that is not. -/
def Decide (requirements : List Requirement) : Except Error Unit → Prop
  | .ok _ => ∀ requirement ∈ requirements, requirement.met
  | .error error => FirstBroken requirements error

variable {first : Requirement} {rest requirements : List Requirement} {outcome : Except Error Unit}

theorem FirstBroken.not_met {error : Error} (h : FirstBroken requirements error) :
    ¬ ∀ requirement ∈ requirements, requirement.met := by
  induction requirements with
  | nil => exact h.elim
  | cons first rest ih =>
      rw [List.forall_mem_cons]
      rcases h with ⟨hbroken, -⟩ | ⟨-, hrest⟩
      · exact fun hall => hbroken hall.1
      · exact fun hall => ih hrest hall.2

theorem decide_nil : Decide [] (.ok ()) := nofun

theorem decide_cons (hbroken : ¬ first.met → ∃ error, outcome = .error error ∧ first.tells error)
    (hmet : first.met → Decide rest outcome) : Decide (first :: rest) outcome := by
  by_cases h : first.met
  · cases outcome with
    | ok => exact List.forall_mem_cons.mpr ⟨h, hmet h⟩
    | error error => exact Or.inr ⟨h, hmet h⟩
  · obtain ⟨error, rfl, htells⟩ := hbroken h
    exact Or.inl ⟨h, htells⟩

theorem Decide.ok_iff (h : Decide requirements outcome) :
    outcome = .ok () ↔ ∀ requirement ∈ requirements, requirement.met := by
  cases outcome with
  | ok => exact iff_of_true rfl h
  | error error => exact iff_of_false nofun h.not_met

end Requirement

/-- The call that a request makes. -/
def RequestType.call (type : RequestType) : CallKind :=
  if type.isEvent then .requestEvent else .requestLines

namespace World

/-- What a request of a group requires on a simulated chip, in the order in which it is checked. -/
def requirements (world : World (Traced Bench)) (index : Nat) (group : Group)
    (config : RequestConfig) (defaults : Option (List UInt8)) : List Requirement :=
  let settings := config.flags.settings
  [ { met := group.lines ≠ []
      tells := (· = .invalidArgument .emptyGroup) },
    { met := ∀ line ∈ group.lines, world.isOpen line.chip = true
      tells := (· = .invalid .chipClosed) },
    { met := ¬ (settings.openDrain = true ∧ settings.openSource = true)
      tells := (· = .invalidArgument .exclusiveDrives) },
    { met := settings.biasCount ≤ 1
      tells := (· = .invalidArgument .severalBiases) },
    { met := ∀ values ∈ defaults, values.length = group.size
      tells := fun error => ∃ values ∈ defaults,
        error = .invalidArgument (.valueCount group.size values.length) },
    { met := group.lines.Nodup ∧ ∀ line ∈ group.lines, world.slot line = .free
      -- the first member that is not free, or that occurs among those before
      tells := fun error => ∃ before line after, group.lines = before ++ line :: after ∧
        (before.Nodup ∧ ∀ other ∈ before, world.slot other = .free) ∧
        (world.slot line ≠ .free ∨ line ∈ before) ∧ error = .busy line.offset },
    { met := (settings.anyDrive = true → config.type = .output) ∧
        (0 < settings.biasCount → config.type ≠ .asIs)
      tells := (· = .call config.type.call .invalid) },
    { met := ∀ line ∈ group.lines, world.bench.Vacant index line.offset
      tells := (· = .call config.type.call .busy) } ]

/-- What a request that was granted has done. -/
structure Taken (before after : World (Traced Bench)) (index : Nat) (group : Group)
    (config : RequestConfig) (defaults : Option (List UInt8)) : Prop where
  /-- All members share one new handle, -/
  values : config.type.isEvent = false → ∃ id handle, before.handles.get? id = none ∧
    after.handles.get? id = some handle ∧ handle.kind = .values ∧ handle.offsets = group.offsets ∧
    ∀ line ∈ group.lines, after.slot line = .values id
  /-- or each has a new one for itself. -/
  events : config.type.isEvent = true → ∃ ids : List HandleId, ids.Nodup ∧
    List.Forall₂ (fun line id => before.handles.get? id = none ∧ after.slot line = .events id ∧
      ∃ handle, after.handles.get? id = some handle ∧ handle.kind = .events ∧
        handle.offsets = [line.offset]) group.lines ids
  others : ∀ line ∉ group.lines, after.slot line = before.slot line
  /-- Outputs have the level of their value, which is zero unless another was given. -/
  driven : config.type = .output → ∀ position line, group.lines[position]? = some line →
    after.bench.level? index line.offset =
      some (isActive (normalize (defaults.elim 0 (·.getD position 0))) ^^
        config.flags.settings.activeLow)
  /-- No other level changes. -/
  kept : ∀ other offset, (config.type = .output → other = index → offset ∉ group.offsets) →
    after.bench.level? other offset = before.bench.level? other offset

/-- What becomes of a request of a group on a simulated chip. -/
structure Settles (world : World (Traced Bench)) (index : Nat) (group : Group)
    (config : RequestConfig) (defaults : Option (List UInt8)) : Prop where
  granted : (world.request group config defaults).1 = .ok () ↔
    ∀ requirement ∈ world.requirements index group config defaults, requirement.met
  refused : ∀ error, (world.request group config defaults).1 = .error error →
    Requirement.FirstBroken (world.requirements index group config defaults) error
  taken : (world.request group config defaults).1 = .ok () →
    world.Taken (world.request group config defaults).2 index group config defaults

/-! ### The checks of the library -/

section Checks

variable {σ : Type} {world : World σ} {group : Group} {config : RequestConfig}
  {defaults : Option (List UInt8)}

/-- The line that is in the way is the first one that is held or repeated. -/
theorem firstTaken?_eq_some {before lines : List Line} {line : Line}
    (h : world.firstTaken? before lines = some line) : ∃ earlier later,
      lines = earlier ++ line :: later ∧
      (earlier.Nodup ∧ ∀ other ∈ earlier, world.slot other = .free ∧ other ∉ before) ∧
      (world.slot line ≠ .free ∨ line ∈ before ∨ line ∈ earlier) := by
  induction lines generalizing before with
  | nil => cases h
  | cons first rest ih =>
      unfold firstTaken? at h
      split at h
      · next htaken =>
        obtain rfl := Option.some.inj h
        refine ⟨[], rest, rfl, ⟨.nil, List.forall_mem_nil _⟩, ?_⟩
        simpa [isFree] using htaken
      · next hcan =>
        simp only [Bool.or_eq_true, Bool.not_eq_true', List.contains_iff_mem, not_or,
          Bool.not_eq_false, isFree_iff] at hcan
        obtain ⟨earlier, later, rfl, ⟨hnodup, hfree⟩, htaken⟩ := ih h
        refine ⟨first :: earlier, later, rfl, ⟨List.nodup_cons.mpr ⟨fun hmem => ?_, hnodup⟩, ?_⟩, ?_⟩
        · exact (hfree first hmem).2 (List.mem_append_right _ (List.mem_singleton_self first))
        · intro other hother
          rcases List.mem_cons.mp hother with rfl | hother
          · exact hcan
          · exact ⟨(hfree other hother).1, fun hmem =>
              (hfree other hother).2 (List.mem_append_left _ hmem)⟩
        · rcases htaken with hheld | hbefore | hearlier
          · exact Or.inl hheld
          · rcases List.mem_append.mp hbefore with hbefore | hsame
            · exact Or.inr (Or.inl hbefore)
            · exact Or.inr (Or.inr (List.mem_singleton.mp hsame ▸ List.mem_cons_self))
          · exact Or.inr (Or.inr (List.mem_cons_of_mem _ hearlier))

/-- Either every member can be taken, or the first one that cannot is named. -/
theorem checkTakeable_cases {chip : Chip} (hchip : world.chipOf group = .ok chip) :
    ((group.lines.Nodup ∧ ∀ line ∈ group.lines, world.slot line = .free) ∧
        world.checkTakeable group = .ok chip) ∨
      ¬ (group.lines.Nodup ∧ ∀ line ∈ group.lines, world.slot line = .free) ∧
        ∃ before line after, group.lines = before ++ line :: after ∧
          (before.Nodup ∧ ∀ other ∈ before, world.slot other = .free) ∧
          (world.slot line ≠ .free ∨ line ∈ before) ∧
          world.checkTakeable group = .error (.busy line.offset) := by
  simp only [checkTakeable, hchip, bind, Except.bind]
  cases hfirst : world.firstTaken? [] group.lines with
  | none =>
      obtain ⟨hlines, hnodup⟩ := firstTaken?_eq_none hfirst
      exact Or.inl ⟨⟨hnodup, fun line hline => (hlines line hline).1⟩, rfl⟩
  | some line =>
      obtain ⟨before, after, hlines, ⟨hnodup, hbefore⟩, htaken⟩ := firstTaken?_eq_some hfirst
      have hway : world.slot line ≠ .free ∨ line ∈ before :=
        htaken.imp_right fun hin => hin.resolve_left List.not_mem_nil
      refine Or.inr ⟨?_, before, line, after, hlines,
        ⟨hnodup, fun other hother => (hbefore other hother).1⟩, hway, rfl⟩
      rintro ⟨hall, hfree⟩
      rcases hway with hheld | hmem
      · exact hheld (hfree line (hlines ▸ List.mem_append_right _ List.mem_cons_self))
      · rw [hlines] at hall
        exact (List.nodup_middle.mp hall).notMem (List.mem_append_left _ hmem)

end Checks

/-! ### The request as a whole -/

section Request

variable {σ : Type} [Machine σ] {world after : World σ} {group : Group} {config : RequestConfig}
  {defaults : Option (List UInt8)} {chip : Chip}

theorem request_of_refused {error : Error}
    (h : world.checkRequest group config defaults = .error error) :
    (world.request group config defaults).1 = .error error := by
  rw [request, h]
  rfl

theorem request_of_taken {error : Error} (hcheck : world.checkRequest group config defaults = .ok ())
    (h : world.checkTakeable group = .error error) :
    (world.request group config defaults).1 = .error error := by
  rw [request, hcheck]
  simp only [requestLocked, h]
  rfl

theorem request_fst_values (hcheck : world.checkRequest group config defaults = .ok ())
    (htakeable : world.checkTakeable group = .ok chip) (hvalues : config.type.isEvent = false) :
    (world.request group config defaults).1 =
      (world.perform chip.device (.requestLines (linesRequest group config defaults))).1.map
        fun _ => () := by
  rw [request, hcheck]
  simp only [requestLocked, htakeable, hvalues, Bool.false_eq_true, if_false]
  rcases hperform : world.perform chip.device (.requestLines (linesRequest group config defaults))
    with ⟨error | file, mid⟩
  · rw [requestValues_refused hperform]
    rfl
  · rw [requestValues_granted hperform]
    rfl

theorem request_fst_events (hcheck : world.checkRequest group config defaults = .ok ())
    (htakeable : world.checkTakeable group = .ok chip) (hevents : config.type.isEvent = true) :
    (world.request group config defaults).1 =
      match (world.acquireEvents chip.device config [] group.lines).1.1 with
      | some (_, error) => .error error
      | none => .ok () := by
  rw [request, hcheck]
  simp only [requestLocked, htakeable, hevents, if_true, requestEvents]
  rcases world.acquireEvents chip.device config [] group.lines with ⟨⟨_ | refused, granted⟩, mid⟩
  · rfl
  · rfl

/-- What a request for values that is granted comes to. -/
theorem request_values (hvalues : config.type.isEvent = false)
    (h : world.request group config defaults = (.ok (), after)) :
    ∃ chip id file mid, world.Takeable group chip id ∧ group.checkCount? defaults = .ok () ∧
      world.perform chip.device (.requestLines (linesRequest group config defaults)) =
        (.ok file, mid) ∧
      after = (((mid.openHandle (linesHandle chip.device file group config defaults)).attachAll .values
        (group.lines.map (·, mid.handles.next))).note
          (.requestedValues group.offsets config.consumer)).updateAll group := by
  unfold request at h
  split at h
  · cases (Prod.mk.inj h).1
  next hchecked =>
  unfold requestLocked at h
  split at h
  · cases (Prod.mk.inj h).1
  next chip hcheck =>
  obtain ⟨first, -, htakeable⟩ := takeable_of_checkTakeable hcheck
  simp only [hvalues, Bool.false_eq_true, if_false] at h
  rcases hperform : world.perform chip.device (.requestLines (linesRequest group config defaults))
    with ⟨error | file, mid⟩
  · rw [requestValues_refused hperform] at h
    cases (Prod.mk.inj h).1
  · rw [requestValues_granted hperform] at h
    exact ⟨chip, first.chip, file, mid, htakeable, count_of_checkRequest hchecked, hperform,
      (Prod.mk.inj h).2.symm⟩

end Request

/-! ### What decides -/

section Simulated

variable {world : World (Traced Bench)} {index : Nat} {group : Group} {config : RequestConfig}
  {defaults : Option (List UInt8)} {chip : Chip} {id : ChipId}

theorem checkRequest_of_onChip (honchip : world.OnChip group chip id) :
    world.checkRequest group config defaults =
      (do config.flags.validate; group.checkCount? defaults) := by
  rw [checkRequest, honchip.chipOf]
  rfl

/-- The chip refuses the flags, or else it grants the lines exactly if all of them are vacant. -/
def ChipDecides (world : World (Traced Bench)) (index : Nat) (group : Group) (config : RequestConfig)
    (outcome : Except Error Unit) : Prop :=
  Simulator.refuses (config.flags.handleFlags config.type) = true ∧
      outcome = .error (.call config.type.call .invalid) ∨
    Simulator.refuses (config.flags.handleFlags config.type) = false ∧
      ((∀ line ∈ group.lines, world.bench.Vacant index line.offset) ∧ outcome = .ok () ∨
        (¬ ∀ line ∈ group.lines, world.bench.Vacant index line.offset) ∧
          outcome = .error (.call config.type.call .busy))

section Present

variable (hpresent : ∀ line ∈ group.lines, ∃ found, world.bench.line? index line.offset = some found)

include hpresent

theorem exists_simulator (hnonempty : group.lines ≠ []) :
    ∃ sim, world.bench.simulators[index]? = some sim := by
  obtain ⟨line, hline⟩ := List.exists_mem_of_ne_nil _ hnonempty
  obtain ⟨found, hfound⟩ := hpresent line hline
  obtain ⟨sim, hsim, -⟩ := Option.bind_eq_some_iff.mp hfound
  exact ⟨sim, hsim⟩

variable (htakeable : world.Takeable group chip id) (hdevice : chip.device = .simulator index)
  (hcheck : world.checkRequest group config defaults = .ok ())
  (htaken : world.checkTakeable group = .ok chip)

include htakeable hdevice hcheck htaken

theorem chipDecides_events (hbench : world.bench.Exclusive) (hevents : config.type.isEvent = true) :
    world.ChipDecides index group config (world.request group config defaults).1 := by
  obtain ⟨sim, hsim⟩ := exists_simulator hpresent htakeable.nonempty
  have houtput : (config.flags.handleFlags config.type).output = false :=
    config.flags.output_handleFlags_of_isEvent hevents
  rw [ChipDecides, request_fst_events hcheck htaken hevents, RequestType.call, if_pos hevents, hdevice]
  cases hrules : Simulator.refuses (config.flags.handleFlags config.type) with
  | true =>
      obtain ⟨first, rest, hlines⟩ := List.exists_cons_of_ne_nil htakeable.nonempty
      rcases hperform : world.perform (.simulator index)
        (.requestEvent (eventRequest config first)) with ⟨outcome, after⟩
      obtain ⟨bench, hanswer, -⟩ := perform_bench hperform
      have hinvalid := @Bench.requestEvent_invalid _ _ _ hsim (eventRequest config first) hrules
      rw [hanswer] at hinvalid
      obtain rfl : outcome = _ := hinvalid
      rw [hlines, acquireEvents_refused hperform]
      exact Or.inl ⟨rfl, rfl⟩
  | false =>
      refine Or.inr ⟨rfl, ?_⟩
      rcases acquireEvents_decided hbench hsim houtput hrules
        (htakeable.nodup_offsets htakeable.nodup) hpresent []
        with ⟨hvacant, hnone⟩ | ⟨hheld, line, hsome⟩
      · exact Or.inl ⟨hvacant, by rw [hnone]⟩
      · exact Or.inr ⟨hheld, by rw [hsome]⟩

theorem chipDecides_values (hsize : group.size ≤ maxLines) (hvalues : config.type.isEvent = false) :
    world.ChipDecides index group config (world.request group config defaults).1 := by
  obtain ⟨sim, hsim⟩ := exists_simulator hpresent htakeable.nonempty
  have hperform : (world.perform (.simulator index)
      (.requestLines (linesRequest group config defaults))).1 =
      (Bench.perform (.simulator index) (.requestLines (linesRequest group config defaults))
        world.bench).1 := rfl
  rw [ChipDecides, request_fst_values hcheck htaken hvalues, RequestType.call, hvalues, hdevice,
    hperform]
  simp only [Bool.false_eq_true, if_false]
  cases hrules : Simulator.refuses (config.flags.handleFlags config.type) with
  | true => exact Or.inl ⟨rfl, by rw [Bench.requestLines_invalid hsim hrules]; rfl⟩
  | false =>
      have hasks : world.bench.Asks index group.offsets :=
        { nonempty := fun hnil => htakeable.nonempty (List.map_eq_nil_iff.mp hnil)
          length_le := (List.length_map ..).trans_le hsize
          nodup := htakeable.nodup_offsets htakeable.nodup
          present := List.forall_mem_map.mpr hpresent }
      have hlines : (∀ offset ∈ group.offsets, world.bench.Vacant index offset) ↔
          ∀ line ∈ group.lines, world.bench.Vacant index line.offset := List.forall_mem_map
      refine Or.inr ⟨rfl, ?_⟩
      rcases @Bench.requestLines_decided _ _ _ hsim (linesRequest group config defaults) hrules hasks
        with ⟨hvacant, hok⟩ | ⟨hheld, hbusy⟩
      · exact Or.inl ⟨hlines.mp hvacant, by rw [hok]; rfl⟩
      · exact Or.inr ⟨mt hlines.mpr hheld, by rw [hbusy]; rfl⟩

end Present

/-- The last two requirements are the chip's. -/
theorem ChipDecides.decide {outcome : Except Error Unit}
    (h : world.ChipDecides index group config outcome)
    (hexclusive : config.flags.settings.bothDrives = false)
    (hbiases : config.flags.settings.biasCount ≤ 1) (defaults : Option (List UInt8)) :
    Requirement.Decide ((world.requirements index group config defaults).drop 6) outcome := by
  have hrules : Simulator.refuses (config.flags.handleFlags config.type) = false ↔ _ :=
    Simulator.refuses_handleFlags hexclusive hbiases
  rcases h with ⟨hrefused, rfl⟩ | ⟨haccepted, hlines⟩
  · refine Requirement.decide_cons (fun _ => ⟨_, rfl, rfl⟩) fun hmet => ?_
    rw [hrules.mpr hmet] at hrefused
    cases hrefused
  · refine Requirement.decide_cons (absurd (hrules.mp haccepted)) fun _ => ?_
    rcases hlines with ⟨hvacant, rfl⟩ | ⟨hheld, rfl⟩
    · exact Requirement.decide_cons (absurd hvacant) fun _ => Requirement.decide_nil
    · exact Requirement.decide_cons (fun _ => ⟨_, rfl, rfl⟩) fun hvacant => absurd hvacant hheld

/-- Once the library has let the arguments pass, the lines have to be free before the chip is asked. -/
theorem decide_checked (honchip : world.OnChip group chip id) (hsize : group.size ≤ maxLines)
    (hbench : world.bench.Exclusive)
    (hdevice : ∀ line ∈ group.lines, world.board.device? line.chip = some (.simulator index))
    (hpresent : ∀ line ∈ group.lines, ∃ found, world.bench.line? index line.offset = some found)
    (hcheck : world.checkRequest group config defaults = .ok ())
    (hexclusive : config.flags.settings.bothDrives = false)
    (hbiases : config.flags.settings.biasCount ≤ 1) :
    Requirement.Decide ((world.requirements index group config defaults).drop 5)
      (world.request group config defaults).1 := by
  rcases checkTakeable_cases honchip.chipOf with ⟨hfree, htaken⟩ | ⟨hnot, hbusy⟩
  · refine Requirement.decide_cons (absurd hfree) fun _ => ?_
    obtain ⟨line, hline⟩ := List.exists_mem_of_ne_nil _ honchip.nonempty
    have hchip : chip.device = .simulator index :=
      Option.some.inj ((honchip.device hline).symm.trans (hdevice line hline))
    have htakeable : world.Takeable group chip id := ⟨honchip, hfree.2, hfree.1⟩
    have hdecides : world.ChipDecides index group config (world.request group config defaults).1 := by
      cases hevents : config.type.isEvent with
      | true => exact chipDecides_events hpresent htakeable hchip hcheck htaken hbench hevents
      | false => exact chipDecides_values hpresent htakeable hchip hcheck htaken hsize hevents
    exact hdecides.decide hexclusive hbiases defaults
  · refine Requirement.decide_cons (fun _ => ?_) fun hfree => absurd hfree hnot
    obtain ⟨before, line, after, hlines, hbefore, hway, hbusy⟩ := hbusy
    exact ⟨_, request_of_taken hcheck hbusy, before, line, after, hlines, hbefore, hway, rfl⟩

theorem decide_request (hgroup : group.WellFormed) (hbench : world.bench.Exclusive)
    (hdevice : ∀ line ∈ group.lines, world.board.device? line.chip = some (.simulator index))
    (hpresent : ∀ line ∈ group.lines, ∃ found, world.bench.line? index line.offset = some found) :
    Requirement.Decide (world.requirements index group config defaults)
      (world.request group config defaults).1 := by
  unfold requirements
  refine Requirement.decide_cons (fun hempty => ?_) fun hnonempty => ?_
  · refine ⟨_, request_of_refused ?_, rfl⟩
    rw [checkRequest, chipOf_of_empty (not_not.mp hempty)]
    rfl
  refine Requirement.decide_cons (fun hclosed => ?_) fun hopen => ?_
  · refine ⟨_, request_of_refused ?_, rfl⟩
    rw [checkRequest, chipOf_of_not_isOpen hgroup hnonempty hclosed]
    rfl
  obtain ⟨chip, id, honchip⟩ := onChip_of_isOpen hgroup hnonempty hopen
  have hchecked : world.checkRequest group config defaults =
      (do config.flags.validate; group.checkCount? defaults) := checkRequest_of_onChip honchip
  refine Requirement.decide_cons (fun hboth => ?_) fun hdrives => ?_
  · refine ⟨_, request_of_refused ?_, rfl⟩
    have hrefused : config.flags.settings.bothDrives = true :=
      (Bool.and_eq_true ..).mpr (not_not.mp hboth)
    rw [hchecked, RequestFlags.validate, if_pos hrefused]
    rfl
  have hexclusive : ¬ config.flags.settings.bothDrives = true :=
    fun hboth => hdrives ((Bool.and_eq_true ..).mp hboth)
  rw [RequestFlags.validate, if_neg hexclusive] at hchecked
  refine Requirement.decide_cons (fun hseveral => ?_) fun hbiases => ?_
  · refine ⟨_, request_of_refused ?_, rfl⟩
    rw [hchecked, if_pos (Nat.not_le.mp hseveral)]
    rfl
  rw [if_neg (Nat.not_lt.mpr hbiases)] at hchecked
  have hcount : world.checkRequest group config defaults = group.checkCount? defaults := hchecked
  refine Requirement.decide_cons (fun hnumber => ?_) fun hnumber => ?_
  · cases defaults with
    | none => exact absurd (fun _ hgiven => absurd hgiven (Option.not_mem_none _)) hnumber
    | some values =>
        have hlength : values.length ≠ group.size :=
          fun heq => hnumber fun given hgiven => Option.some.inj hgiven ▸ heq
        refine ⟨_, request_of_refused ?_, values, rfl, rfl⟩
        rw [hcount, Group.checkCount?, Group.checkCount, if_neg hlength]
  have hcheck : world.checkRequest group config defaults = .ok () := by
    rw [hcount]
    cases defaults with
    | none => rfl
    | some values => rw [Group.checkCount?, Group.checkCount, if_pos (hnumber values rfl)]
  exact decide_checked honchip hgroup.size_le hbench hdevice hpresent hcheck
    (eq_false_of_ne_true hexclusive) hbiases

/-! ### What a request that was granted has done -/

/-- The members are attached to their handles, and the chips are asked for their metadata. -/
structure Attached (mid after : World (Traced Bench)) (group : Group) (kind : HandleKind)
    (pairs : List (Line × HandleId)) : Prop where
  slot : ∀ line id, (line, id) ∈ pairs → after.slot line = .holding id kind
  others : ∀ line ∉ group.lines, after.slot line = mid.slot line
  handles : after.handles = mid.handles
  level? : after.bench.level? = mid.bench.level?

theorem attached_updateAll {mid : World (Traced Bench)} {kind : HandleKind}
    {pairs : List (Line × HandleId)} (notice : Notice) (hlines : pairs.map (·.1) = group.lines)
    (hnodup : group.lines.Nodup)
    (hopen : ∀ line ∈ group.lines, mid.ledger.closed? line.chip = some false) :
    mid.Attached (((mid.attachAll kind pairs).note notice).updateAll group) group kind pairs := by
  have hasked := Asked.updateAll ((mid.attachAll kind pairs).note notice) group
  have hframe : ∀ (pairs : List (Line × HandleId)) (start : World (Traced Bench)),
      (start.attachAll kind pairs).handles = start.handles ∧
        (start.attachAll kind pairs).machine = start.machine := by
    intro pairs
    induction pairs with
    | nil => exact fun _ => ⟨rfl, rfl⟩
    | cons pair rest ih => exact fun start => ih (start.attach pair.1 pair.2 kind)
  obtain ⟨hhandles, hmachine⟩ := hframe pairs mid
  have hslot : ∀ line, World.slot (((mid.attachAll kind pairs).note notice).updateAll group) line =
      (mid.attachAll kind pairs).slot line := fun line => congrArg (·.slot line) hasked.board
  refine ⟨fun line id hmem => ?_, fun line hout => ?_, hasked.handles.trans hhandles, ?_⟩
  · have hline : line ∈ group.lines := hlines ▸ List.mem_map.mpr ⟨(line, id), hmem, rfl⟩
    exact (hslot line).trans (slot_attachAll (hlines ▸ hnodup) (hopen line hline) hmem)
  · exact (hslot line).trans (slot_attachAll_of_not_mem (hlines ▸ hout))
  · refine (Bench.level?_of_simulators_eq hasked.simulators).trans ?_
    exact congrArg (·.machine.level?) hmachine

theorem getElem?_initialValues (htype : config.type = .output)
    (hcount : group.checkCount? defaults = .ok ()) {position : Nat} (hlt : position < group.size) :
    (initialValues group config defaults)[position]? =
      some (normalize (defaults.elim 0 (·.getD position 0))) := by
  cases defaults with
  | none => simp [initialValues, hlt, normalize, isActive, ofActive]
  | some values =>
      have hlength : values.length = group.size := by
        simpa [Group.checkCount?, Group.checkCount] using hcount
      simp [initialValues, htype, hlength, hlt]

section Granted

variable {lent : List (Device × FileId)} {after : World (Traced Bench)} (haccord : world.Accord lent)

include haccord

theorem taken_values (hvalues : config.type.isEvent = false)
    (hdevice : ∀ line ∈ group.lines, world.board.device? line.chip = some (.simulator index))
    (h : world.request group config defaults = (.ok (), after)) :
    world.Taken after index group config defaults := by
  obtain ⟨chip, id, file, mid, htakeable, hcount, hperform, rfl⟩ := request_values hvalues h
  obtain ⟨bench, hbench, hmid⟩ := perform_bench hperform
  have hhandles : mid.handles = world.handles := handles_of_perform hperform
  have hlength : (linesRequest group config defaults).values.length =
      (linesRequest group config defaults).offsets.length :=
    (initialValues_bits hcount config).1.trans (List.length_map ..).symm
  have hindex : ∀ line ∈ group.lines, chip.device.simulator? = some index := by
    intro line hline
    have hchip := (htakeable.toOnChip.device hline).symm.trans (hdevice line hline)
    rw [Option.some.inj hchip]
    rfl
  have hopen : ∀ line ∈ group.lines, mid.ledger.closed? line.chip = some false := by
    intro line hline
    rw [ledger_of_perform hperform, htakeable.members line hline]
    exact closed?_eq_false.mpr ⟨chip, htakeable.isOpen⟩
  have hlines : (group.lines.map (·, mid.handles.next)).map (·.1) = group.lines := by
    rw [List.map_map]
    exact List.map_id _
  have hattached := @attached_updateAll group
    (mid.openHandle (linesHandle chip.device file group config defaults)) .values _
    (.requestedValues group.offsets config.consumer) hlines htakeable.nodup hopen
  have hlevel : _ = bench.level? := hattached.level?.trans (by rw [hmid]; rfl)
  have hslot : (mid.openHandle (linesHandle chip.device file group config defaults)).slot =
      world.slot := by rw [hmid]; rfl
  exact
    { values := fun _ => by
        refine ⟨world.handles.next, linesHandle chip.device file group config defaults,
          haccord.fresh.get?_next, ?_, rfl, rfl, fun line hline => ?_⟩
        · rw [hattached.handles, ← hhandles]
          exact openHandle_found (hhandles ▸ haccord.fresh) _
        · rw [← hhandles]
          exact hattached.slot line _ (List.mem_map_of_mem hline)
      events := fun hevents => by cases hvalues.symm.trans hevents
      others := fun line hout => (hattached.others line hout).trans (congrFun hslot line)
      driven := fun htype position line hline => by
        have hmem := List.mem_of_getElem? hline
        have hlt : position < group.size := (List.getElem?_eq_some_iff.mp hline).1
        rw [hlevel]
        refine Bench.level?_of_driven hbench hlength (hindex line hmem) (decide_eq_true htype) ?_
          (getElem?_initialValues htype hcount hlt)
        rw [linesRequest, Group.offsets, List.getElem?_map, hline]
        rfl
      kept := fun other offset hnot => by
        rw [hlevel]
        refine haccord.bench.level?_of_not_driven hbench hlength fun hother hoffset => ?_
        obtain ⟨line, hline, -⟩ := List.mem_map.mp hoffset
        have hsame : other = index :=
          Option.some.inj (hother.symm.trans (hindex line hline))
        exact decide_eq_false fun htype => hnot htype hsame hoffset }

theorem taken_events (hevents : config.type.isEvent = true)
    (h : world.request group config defaults = (.ok (), after)) :
    world.Taken after index group config defaults := by
  obtain ⟨chip, id, granted, mid, -, htakeable, hacquire, rfl⟩ := request_events hevents h
  obtain ⟨machine, log, files, hmid, hgranted, -, hall⟩ :=
    world.acquireEvents_eq chip.device config [] group.lines
  have hlevels := @level?_acquireEvents _ config haccord.bench chip.device [] group.lines
  rw [hacquire] at hmid hgranted hall hlevels
  obtain rfl : granted = List.range' world.handles.next files.length := hgranted
  have hlength : files.length = group.lines.length := hall rfl
  have hopen : ∀ line ∈ group.lines, mid.ledger.closed? line.chip = some false := by
    intro line hline
    rw [show mid = _ from hmid, htakeable.members line hline]
    exact closed?_eq_false.mpr ⟨chip, htakeable.isOpen⟩
  have hlines : (group.lines.zip (List.range' world.handles.next files.length)).map (·.1) =
      group.lines := List.map_fst_zip (by rw [List.length_range', hlength])
  have hattached := @attached_updateAll group mid .events _
    (.requestedEvents group.offsets config.type.edges config.consumer) hlines htakeable.nodup hopen
  have hlevel : _ = world.bench.level? := hattached.level?.trans hlevels
  have hslot : mid.slot = world.slot := by rw [show mid = _ from hmid]; rfl
  have hhandles : _ = world.handles.addAll (eventGrants chip.device config group.lines files) :=
    hattached.handles.trans (by rw [show mid = _ from hmid])
  exact
    { values := fun hvalues => by cases hvalues.symm.trans hevents
      events := fun _ => by
        refine ⟨List.range' world.handles.next files.length, List.nodup_range', ?_⟩
        refine List.forall₂_iff_zip.mpr ⟨by rw [List.length_range', hlength], ?_⟩
        intro line key hmem
        obtain ⟨hnew, file, hfound⟩ := eventGrants_found haccord.fresh hmem
        refine ⟨?_, hattached.slot line key hmem, eventGrant chip.device config line file,
          (congrArg (·.get? key) hhandles).trans hfound, rfl, rfl⟩
        cases hget : world.handles.get? key with
        | none => rfl
        | some handle => exact absurd (Table.get?_lt haccord.fresh hget) (Nat.not_lt.mpr hnew)
      others := fun line hout => (hattached.others line hout).trans (congrFun hslot line)
      driven := fun htype => by
        rw [htype] at hevents
        cases hevents
      kept := fun other offset _ => by rw [hlevel] }

end Granted

end Simulated

end World

/-! ### Every state of a workshop -/

namespace Workshop

variable {rule : Workshop → Act → Prop} {workshop : Workshop}

/-- A line that the client knows is there if its chip is opened on a simulated chip. -/
theorem Sited.present (h : workshop.Sited) {line : Line} (hknows : workshop.client.Knows line)
    {index : Nat} (hdevice : workshop.world.board.device? line.chip = some (.simulator index)) :
    ∃ found, workshop.world.bench.line? index line.offset = some found := by
  obtain ⟨count, hcount, hlt⟩ := h.known line hknows
  obtain ⟨sim, hsim, hsize⟩ :=
    Option.map_eq_some_iff.mp (h.measured _ index count hdevice hcount)
  have hoffset : line.offset.toNat < sim.lines.size := hsize ▸ hlt
  exact ⟨sim.lines[line.offset.toNat], (Bench.line?_of_eq hsim _).trans
    (Array.getElem?_eq_getElem hoffset)⟩

/-- **What becomes of a request can be read off the state before it.** A request of a group on a
simulated chip is granted exactly if all that it requires is met, and otherwise its error tells of the
first requirement that is not. If it is granted its lines have a new handle, outputs the level they
were given, and nothing else changes. -/
theorem request_settles (h : Reachable rule workshop) {group : Group}
    (hgroup : group ∈ workshop.client.groups) {index : Nat}
    (hdevice : ∀ line ∈ group.lines,
      workshop.world.board.device? line.chip = some (.simulator index))
    (config : RequestConfig) (defaults : Option (List UInt8)) :
    workshop.world.Settles index group config defaults := by
  have haccord := h.sound.accord
  have hdecide := @World.decide_request _ _ _ config defaults
    (h.sound.client.groups group hgroup) haccord.bench hdevice fun line hline =>
      h.sited.present ⟨group, hgroup, hline⟩ (hdevice line hline)
  refine ⟨hdecide.ok_iff, fun error herror => ?_, fun hok => ?_⟩
  · rw [herror] at hdecide
    exact hdecide
  · rcases hrequest : workshop.world.request group config defaults with ⟨outcome, after⟩
    rw [hrequest] at hok
    obtain rfl : outcome = .ok () := hok
    cases hevents : config.type.isEvent with
    | true => exact World.taken_events haccord hevents hrequest
    | false => exact World.taken_values haccord hevents hdevice hrequest

/-- Six lines, one of them hogged and two requested for events. -/
def admitting : List Act :=
  [.deed (.addSimulator "gpiochip0" 6), .deed (.control 0 (.hog 5 "other"))] ++
    ([.openChip (.simulator 0), .getLines 0 [0, 1, 2, 3, 4, 5], .getLines 0 [0, 2],
      .getLines 0 [3, 1], .getLines 0 [4, 0], .getLines 0 [4, 5],
      .onGroup (.request { consumer := "held", type := .eventBoth } none)
        ⟨[⟨0, 0⟩, ⟨0, 2⟩]⟩].map Act.operation)

/-- Outputs seen inverted, a group with a line that is requested, and one with a line that another
has: the first is granted, the others are refused by the library and by the chip. -/
theorem settles_admitting :
    ∃ workshop : Workshop, ∃ outputs : RequestConfig, ∃ after, Reachable Unruled workshop ∧
      outputs.type = .output ∧ outputs.flags.settings.activeLow = true ∧
      (workshop.world.Settles 0 ⟨[⟨0, 3⟩, ⟨0, 1⟩]⟩ outputs (some [1, 0]) ∧
        workshop.world.Settles 0 ⟨[⟨0, 4⟩, ⟨0, 0⟩]⟩ outputs none ∧
        workshop.world.Settles 0 ⟨[⟨0, 4⟩, ⟨0, 5⟩]⟩ outputs none) ∧
      (workshop.world.request ⟨[⟨0, 3⟩, ⟨0, 1⟩]⟩ outputs (some [1, 0]) = (.ok (), after) ∧
        after.bench.level? 0 3 = some false ∧ after.bench.level? 0 1 = some true) ∧
      (workshop.world.request ⟨[⟨0, 4⟩, ⟨0, 0⟩]⟩ outputs none).1 = .error (.busy 0) ∧
      (workshop.world.request ⟨[⟨0, 4⟩, ⟨0, 5⟩]⟩ outputs none).1 =
        .error (.call .requestLines .busy) := by
  have hreachable : Reachable Unruled (({} : Workshop).actAll admitting) :=
    Reachable.start.actAll (by decide)
  refine ⟨_, { consumer := "", type := .output, flags := { settings := { activeLow := true } } }, _,
    hreachable, rfl, rfl, ⟨?_, ?_, ?_⟩, ⟨Prod.ext ?_ rfl, ?_, ?_⟩, ?_, ?_⟩
  · exact request_settles hreachable (by decide) (by decide) _ _
  · exact request_settles hreachable (by decide) (by decide) _ _
  · exact request_settles hreachable (by decide) (by decide) _ _
  all_goals decide

end Workshop

end GpioLines
