import GpioLines.Proofs.Confinement

/-!
# No operation leaves its group

What an operation does to lines and handles it does to those of its group, whether it succeeds or
not. For a request that is plain, since what it is granted is new. A write and a reconfiguration reach
all lines of a handle at once, and here everything hangs on the check that they begin with: the group
covers the handle, so the lines of the handle are members.
-/

namespace GpioLines

namespace World

variable {world mid after : World (Traced Bench)} {area : Area} {lent : List (Device × FileId)}

namespace Fits

/-! ### Metadata -/

theorem refresh (h : world.Fits area lent) {line : Line} (hline : line ∈ area.lines) :
    world.StaysIn area lent (world.refresh line).2 := by
  unfold World.refresh
  cases hopen : world.openChip line.chip with
  | error error => exact h.fail error
  | ok chip =>
      have hasked : ∀ {outcome : Outcome (.lineInfo line.offset)} {after : World (Traced Bench)},
          world.perform chip.device (.lineInfo line.offset) = (outcome, after) →
          world.Confined area after ∧ after.handles = world.handles := fun htold =>
        ⟨h.confined_perform htold (fun _ _ _ _ _ hmem => absurd hmem List.not_mem_nil) nofun,
          handles_of_perform htold⟩
      simp only
      split
      · next info after htold =>
        obtain ⟨hconfined, hhandles⟩ := hasked htold
        exact h.dealSame (.learn hopen htold)
          (hconfined.trans (confined_modifyLine hline _)) hhandles
      · next error after htold =>
        obtain ⟨hconfined, hhandles⟩ := hasked htold
        exact h.dealSame (.doubt hopen htold)
          (hconfined.trans (confined_modifyLine hline _)) hhandles

theorem update (h : world.Fits area lent) {line : Line} (hline : line ∈ area.lines) :
    world.StaysIn area lent (world.update line) := by
  have hrefresh := h.refresh hline
  unfold World.update
  split
  · next hworld => rwa [hworld] at hrefresh
  · next hworld =>
    rw [hworld] at hrefresh
    exact hrefresh.note _

theorem updateAll (h : world.Fits area lent) {group : Group}
    (hlines : ∀ line ∈ group.lines, line ∈ area.lines) :
    world.StaysIn area lent (world.updateAll group) := by
  unfold World.updateAll
  generalize group.lines = lines at hlines ⊢
  induction lines generalizing world with
  | nil => exact .refl h
  | cons line rest ih =>
      have hfirst := h.update (hlines line List.mem_cons_self)
      exact hfirst.trans (ih hfirst.fits fun other hother =>
        hlines other (List.mem_cons_of_mem _ hother))

/-! ### Requests -/

theorem attachAll (h : world.Fits area lent) {kind : HandleKind} {pairs : List (Line × HandleId)}
    (hlines : ∀ pair ∈ pairs, pair.1 ∈ area.lines)
    (hfound : ∀ pair ∈ pairs, ∃ handle, world.handles.get? pair.2 = some handle ∧
      world.board.device? pair.1.chip = some handle.device) :
    world.StaysIn area lent (world.attachAll kind pairs) := by
  induction pairs generalizing world with
  | nil => exact .refl h
  | cons pair rest ih =>
      obtain ⟨handle, hget, hdevice⟩ := hfound pair List.mem_cons_self
      have hattach : world.StaysIn area lent (world.attach pair.1 pair.2 kind) :=
        h.dealSame (.attach hget hdevice kind)
          (confined_modifyLine (hlines pair List.mem_cons_self) _) rfl
      refine hattach.trans (ih hattach.fits (fun other hother => ?_) fun other hother => ?_)
      · exact hlines other (List.mem_cons_of_mem _ hother)
      · obtain ⟨handle, hget, hdevice⟩ := hfound other (List.mem_cons_of_mem _ hother)
        refine ⟨handle, hget, ?_⟩
        rw [attach, device?_modifyLine]
        exact hdevice

/-- A new file is in the area, since a simulated chip gives it a new number. -/
theorem mem_files_of_granted (h : world.Fits area lent) {device : Device} {call : Call}
    {outcome : Outcome call} (hperform : world.perform device call = (outcome, after)) {file : FileId}
    (hopens : call.opens device outcome = [(device, file)])
    (hfile : device.simulator? = none → file ∈ area.files) : file ∈ area.files := by
  obtain ⟨bench, hbench, -⟩ := perform_bench hperform
  cases hindex : device.simulator? with
  | none => exact hfile hindex
  | some index =>
      rcases Workshop.opens_perform hbench with hnone | ⟨given, hgiven, hnew⟩
      · rw [hopens] at hnone
        cases hnone
      · rw [hopens, List.singleton_inj, Prod.mk.injEq] at hgiven
        rw [hgiven.2, (hnew index hindex).1]
        exact h.newFiles _ le_rfl

/-- A granted file becomes a handle. -/
theorem grant (h : world.Fits area lent) {device : Device} {call : Call} {outcome : Outcome call}
    (hperform : world.perform device call = (outcome, after)) {handle : Handle} {due : Set Line}
    (hdeal : Deal False ⟨world, ∅⟩ ⟨after.openHandle handle, due⟩)
    (hopens : call.opens device outcome = [(device, handle.file)]) (hdevice : handle.device = device)
    (hfile : device.simulator? = none → handle.file ∈ area.files)
    (hoffsets : ∀ sim : Simulator, sim.reach call = handle.offsets)
    (hreach : ∀ index, device.simulator? = some index → ∀ offset ∈ handle.offsets,
      (index, offset) ∈ area.reach)
    (htarget : (Exchange.call device call outcome).target? = none) :
    world.StaysIn area lent (after.openHandle handle) := by
  have hasked : world.Confined area after := by
    apply h.confined_perform hperform
    · intro index hindex sim _ offset hmem
      rw [hoffsets] at hmem
      exact hreach index hindex offset hmem
    · rw [htarget]
      nofun
  have hhandles := handles_of_perform hperform
  refine h.deal hdeal (hasked.trans (confined_openHandle handle ?_)) fun id found hget => ?_
  · exact h.newHandles _ (congrArg Table.next hhandles).ge
  · change (after.handles.add handle).get? id = some found at hget
    rw [hhandles, Table.get?_add h.accord.fresh] at hget
    split at hget
    · obtain rfl := Option.some.inj hget
      exact Or.inl ⟨h.mem_files_of_granted hperform hopens hfile, hdevice ▸ hreach⟩
    · exact Or.inr ⟨found, hget, .refl found⟩

section Requests

variable {group : Group} {chip : Chip} {id : ChipId} (config : RequestConfig)

theorem requestValues (h : world.Fits area lent) (htakeable : world.Takeable group chip id)
    (hsize : group.size ≤ maxLines) {defaults : Option (List UInt8)}
    (hcount : group.checkCount? defaults = .ok ())
    (hlines : ∀ line ∈ group.lines, line ∈ area.lines)
    (hreach : ∀ index, chip.device.simulator? = some index → ∀ offset ∈ group.offsets,
      (index, offset) ∈ area.reach)
    (hfile : chip.device.simulator? = none → ∀ file, file ∈ area.files) :
    world.StaysIn area lent (world.requestValues chip.device group config defaults).2 := by
  rcases hperform : world.perform chip.device (.requestLines (linesRequest group config defaults))
    with ⟨error | file, mid⟩
  · rw [requestValues_refused hperform]
    exact h.ask hperform ⟨error, rfl⟩ trivial (fun index hindex _ _ => hreach index hindex) nofun
  · rw [requestValues_granted hperform]
    have hvalid := valid_linesHandle htakeable hsize hcount config chip.device file
    have hgrant : world.StaysIn area lent
        (mid.openHandle (linesHandle chip.device file group config defaults)) :=
      h.grant hperform (.take htakeable.toOnChip hvalid hperform) rfl rfl (fun hnone => hfile hnone file)
        (fun _ => rfl) hreach rfl
    obtain ⟨machine, -, rfl⟩ := perform_eq hperform
    refine (hgrant.trans (hgrant.fits.attachAll ?_ ?_)).note _
    · intro pair hpair
      obtain ⟨line, hmem, rfl⟩ := List.mem_map.mp hpair
      exact hlines line hmem
    · intro pair hpair
      obtain ⟨line, hmem, rfl⟩ := List.mem_map.mp hpair
      exact ⟨_, openHandle_found h.accord.fresh _, htakeable.toOnChip.device hmem⟩

theorem acquireEvents (h : world.Fits area lent) {lines : List Line}
    (hlines : ∀ line ∈ lines, line.chip = id) (hopen : world.openChip id = .ok chip)
    (hreach : ∀ index, chip.device.simulator? = some index → ∀ line ∈ lines,
      (index, line.offset) ∈ area.reach)
    (hfile : chip.device.simulator? = none → ∀ file, file ∈ area.files) (granted : List HandleId) :
    world.StaysIn area lent (world.acquireEvents chip.device config granted lines).2 := by
  induction lines generalizing world granted with
  | nil => exact .refl h
  | cons line rest ih =>
      have hline : world.openChip line.chip = .ok chip := by
        rw [hlines line List.mem_cons_self]
        exact hopen
      have hhere : ∀ index, chip.device.simulator? = some index → ∀ offset ∈ [line.offset],
          (index, offset) ∈ area.reach := by
        intro index hindex offset hmem
        rw [List.mem_singleton.mp hmem]
        exact hreach index hindex line List.mem_cons_self
      rcases hperform : world.perform chip.device (.requestEvent (eventRequest config line))
        with ⟨error | file, after⟩
      · rw [acquireEvents_refused hperform]
        exact h.ask hperform ⟨error, rfl⟩ trivial (fun index hindex _ _ => hhere index hindex) nofun
      · rw [acquireEvents_granted hperform]
        have hgrant : world.StaysIn area lent
            (after.openHandle (eventGrant chip.device config line file)) :=
          h.grant hperform (.listen hline hperform) rfl rfl (fun hnone => hfile hnone file)
            (fun _ => rfl) hhere rfl
        obtain ⟨machine, -, rfl⟩ := perform_eq hperform
        refine hgrant.trans (ih hgrant.fits ?_ hopen ?_ _)
        · exact fun other hother => hlines other (List.mem_cons_of_mem _ hother)
        · exact fun index hindex other hother =>
            hreach index hindex other (List.mem_cons_of_mem _ hother)

end Requests

/-! ### Letting go -/

theorem closeHandle (h : world.Fits area lent) {id : HandleId} (hid : id ∈ area.handles) :
    world.StaysIn area lent (world.closeHandle id) := by
  cases hget : world.handles.get? id with
  | none =>
      rw [World.closeHandle, hget]
      exact .refl h
  | some handle =>
      have hspans := h.spans id hid handle hget
      have hreleased : Bench.Confined area.reach area.files world.bench
          (Bench.releaseAt handle.device handle.file world.bench) := by
        refine Bench.confined_releaseAt h.accord.bench hspans.file ?_
        intro index hindex grant hgrant hfile offset hmem
        obtain ⟨own, hown, hbacked⟩ := h.accord.lending.backed id handle hget index hindex
        obtain ⟨sim, hsim, hgrant⟩ := Bench.mem_grants.mp hgrant
        rw [Bench.grants_of_eq hsim] at hown
        obtain rfl := (h.accord.bench.simulators index sim hsim).grant_eq_of_file hgrant hown
          (hfile.trans hbacked.file.symm)
        rw [hbacked.offsets] at hmem
        exact hspans.reach index hindex offset hmem
      have hhandles : (world.closeHandle id).handles = world.handles.erase id :=
        congrArg Ledger.handles (world.ledger_closeHandle id hget)
      have hconfined : world.Confined area (world.closeHandle id) := by
        rw [closeHandle_eq hget]
        refine
          { faces := rfl
            record := fun _ _ => rfl
            next_le := le_rfl
            handles := fun other hout => ?_
            streams := rfl
            tokens := rfl
            bench := hreleased.trans (Bench.confined_closeFile _ hspans.file)
            trace := ⟨[.release handle.device handle.file], rfl, fun exchange hmem => ?_⟩ }
        · refine (Table.get?_erase ..).trans (if_neg ?_)
          rintro rfl
          exact hout hid
        · rw [List.mem_singleton.mp hmem]
          intro target htarget
          cases htarget
      refine h.deal (.close hget) hconfined fun other found hfound => ?_
      rw [hhandles, Table.get?_erase] at hfound
      split at hfound
      · cases hfound
      · exact Or.inr ⟨found, hfound, .refl found⟩

theorem dropHandles (h : world.Fits area lent) {ids : List HandleId}
    (hids : ∀ id ∈ ids, id ∈ area.handles) :
    world.StaysIn area lent (world.dropHandles ids) := by
  induction ids generalizing world with
  | nil => exact .refl h
  | cons id rest ih =>
      have hrest : ∀ other ∈ rest, other ∈ area.handles := fun other hother =>
        hids other (List.mem_cons_of_mem _ hother)
      unfold World.dropHandles
      split
      · exact ih h hrest
      · have hdrop : world.StaysIn area lent (world.dropHandle id) := by
          unfold World.dropHandle
          split
          · exact .refl h
          · exact h.closeHandle (hids id List.mem_cons_self)
        exact hdrop.trans (ih hdrop.fits hrest)

theorem detachAll (h : world.Fits area lent) {lines : List Line}
    (hlines : ∀ line ∈ lines, line ∈ area.lines) :
    world.StaysIn area lent (world.detachAll lines).2 := by
  induction lines generalizing world with
  | nil => exact .refl h
  | cons line rest ih =>
      have hdetach : world.StaysIn area lent (world.detach line).2 :=
        h.dealSame (.pass (world.keeps_detach line))
          (confined_modifyLine (hlines line List.mem_cons_self) _) rfl
      exact hdetach.trans (ih hdetach.fits fun other hother =>
        hlines other (List.mem_cons_of_mem _ hother))

end Fits

theorem holds_of_mem_detachAll {σ : Type} {world : World σ} {lines : List Line} {id : HandleId}
    (h : id ∈ (world.detachAll lines).1) : ∃ line ∈ lines, world.ledger.Holds line id := by
  induction lines generalizing world with
  | nil => cases h
  | cons line rest ih =>
      rcases List.mem_append.mp h with hfirst | hrest
      · exact ⟨line, List.mem_cons_self, Option.mem_toList.mp hfirst⟩
      · obtain ⟨other, hother, hholds⟩ := ih hrest
        change (world.detach line).2.ledger.Holds other id at hholds
        rw [ledger_detach] at hholds
        exact ⟨other, List.mem_cons_of_mem _ hother, (Ledger.holds_of_holds_free hholds).1⟩

/-! ### What an operation on a group needs -/

/-- The members of the group are in the area, and so are the handles that the group covers. -/
structure Admits (area : Area) (world : World (Traced Bench)) (group : Group) : Prop where
  lines : ∀ line ∈ group.lines, line ∈ area.lines
  reach : ∀ line ∈ group.lines, ∀ index, world.IsOver line index →
    (index, line.offset) ∈ area.reach
  /-- Other devices may give any number to a new file. -/
  files : (∀ file, file ∈ area.files) ∨ ∀ line ∈ group.lines, ∃ index, world.IsOver line index
  covered : ∀ id handle, world.Covers group id handle →
    id ∈ area.handles ∧ (handle.device, handle.file) ∈ area.targets

namespace Admits

variable {group : Group} {chip : Chip} {id : ChipId}

theorem reach_of_onChip (h : Admits area world group) (honchip : world.OnChip group chip id) :
    ∀ index, chip.device.simulator? = some index → ∀ line ∈ group.lines,
      (index, line.offset) ∈ area.reach := fun index hindex line hmem =>
  h.reach line hmem index ⟨chip.device, honchip.device hmem, hindex⟩

theorem files_of_onChip (h : Admits area world group) (honchip : world.OnChip group chip id)
    (hnone : chip.device.simulator? = none) : ∀ file, file ∈ area.files := by
  refine h.files.resolve_right fun hover => ?_
  obtain ⟨line, hmem⟩ := List.exists_mem_of_ne_nil _ honchip.nonempty
  obtain ⟨index, device, hdevice, hindex⟩ := hover line hmem
  obtain rfl := Option.mem_unique hdevice (honchip.device hmem)
  rw [hnone] at hindex
  cases hindex

end Admits

namespace Fits

variable {group : Group}

/-! ### Requests as a whole -/

theorem requestEvents (h : world.Fits area lent) (hadmits : Admits area world group) {chip : Chip}
    {id : ChipId} (htakeable : world.Takeable group chip id) (config : RequestConfig) :
    world.StaysIn area lent (world.requestEvents chip.device group config).2 := by
  have honchip := htakeable.toOnChip
  have hacquire := h.acquireEvents config htakeable.members htakeable.isOpen
    (hadmits.reach_of_onChip honchip) (hadmits.files_of_onChip honchip) []
  obtain ⟨machine, log, files, hworld, hgranted, -, -⟩ :=
    world.acquireEvents_eq chip.device config [] group.lines
  have hnew : ∀ key ∈ List.range' world.handles.next files.length, key ∈ area.handles :=
    fun key hkey => h.newHandles key (List.mem_range'_1.mp hkey).1
  unfold World.requestEvents
  split
  · next line error granted mid hacquired =>
    rw [hacquired] at hacquire hgranted
    obtain rfl : granted = List.range' world.handles.next files.length := hgranted
    split
    · exact hacquire.trans (hacquire.fits.dropHandles hnew)
    · have hnoted := hacquire.note (.refusedEvent line.offset
        (List.range' world.handles.next files.length).length error)
      exact hnoted.trans (hnoted.fits.dropHandles hnew)
  · next granted mid hacquired =>
    rw [hacquired] at hacquire hworld hgranted
    obtain rfl : granted = List.range' world.handles.next files.length := hgranted
    refine (hacquire.trans (hacquire.fits.attachAll ?_ ?_)).note _
    · exact fun pair hpair => hadmits.lines _ (List.of_mem_zip hpair).1
    · intro pair hpair
      obtain ⟨-, file, hfound⟩ := eventGrants_found h.accord.fresh hpair
      rw [show mid = _ from hworld]
      exact ⟨_, hfound, honchip.device (List.of_mem_zip hpair).1⟩

theorem request (h : world.Fits area lent) (hadmits : Admits area world group)
    (hsize : group.size ≤ maxLines) (config : RequestConfig) (defaults : Option (List UInt8)) :
    world.StaysIn area lent (world.request group config defaults).2 := by
  unfold World.request
  split
  · exact h.fail _
  next hcheck =>
  unfold requestLocked
  split
  · exact h.fail _
  next chip htake =>
  obtain ⟨first, -, htakeable⟩ := takeable_of_checkTakeable htake
  have honchip := htakeable.toOnChip
  have htaken : world.StaysIn area lent
      (if config.type.isEvent then world.requestEvents chip.device group config
        else world.requestValues chip.device group config defaults).2 := by
    split
    · exact h.requestEvents hadmits htakeable config
    · refine h.requestValues config htakeable hsize (count_of_checkRequest hcheck) hadmits.lines
        (fun index hindex offset hmem => ?_) (hadmits.files_of_onChip honchip)
      obtain ⟨line, hline, rfl⟩ := List.mem_map.mp hmem
      exact hadmits.reach_of_onChip honchip index hindex line hline
  simp only
  split
  · exact htaken
  · exact htaken.trans (htaken.fits.updateAll hadmits.lines)

/-! ### Values -/

theorem fetchAll (h : world.Fits area lent) {held : List (HandleId × Handle)}
    (hfound : ∀ entry ∈ held, world.handles.get? entry.1 = some entry.2) :
    world.StaysIn area lent (world.fetchAll held).2 := by
  induction held generalizing world with
  | nil => exact .refl h
  | cons entry rest ih =>
      have hasked : ∀ {outcome : Outcome (.getValues entry.2.file _)} {after : World (Traced Bench)},
          world.perform entry.2.device (.getValues entry.2.file
            (List.replicate entry.2.offsets.length 0)) = (outcome, after) →
          world.StaysIn area lent after := fun hperform =>
        h.ask hperform trivial ⟨entry.1, entry.2, hfound entry List.mem_cons_self, rfl, rfl⟩
          (fun _ _ _ _ _ hmem => absurd hmem List.not_mem_nil) nofun
      unfold World.fetchAll
      simp only
      split
      · next hperform => exact hasked hperform
      · next hperform =>
        have hfirst := hasked hperform
        have hrest := ih hfirst.fits fun other hother => by
          rw [handles_of_perform hperform]
          exact hfound other (List.mem_cons_of_mem _ hother)
        split <;> next hfetch =>
          rw [hfetch] at hrest
          exact hfirst.trans hrest

theorem getValues (h : world.Fits area lent) (group : Group) :
    world.StaysIn area lent (world.getValues group).2 := by
  unfold World.getValues
  split
  · exact h.fail _
  · next held hheld =>
    have hfetch := h.fetchAll fun entry hentry =>
      found_of_handlesOf hheld entry (mem_distinctHandles hentry)
    split <;> next hfetched => rwa [hfetched] at hfetch

theorem setValues (h : world.Fits area lent) (hadmits : Admits area world group)
    (values : List UInt8) : world.StaysIn area lent (world.setValues group values).2 := by
  unfold World.setValues
  split
  · exact h.fail _
  next id handle ordered hplan =>
  obtain ⟨hcovers, hlength, hbits⟩ := planValues_ok hplan
  obtain ⟨hid, htarget⟩ := hadmits.covered id handle hcovers
  have hreach := h.reach_of_spans hid hcovers.found (.setValues handle.file ordered) fun _ => rfl
  unfold commitValues
  split
  · next error after hperform =>
    exact h.ask hperform ⟨error, rfl⟩ ⟨id, handle, hcovers.found, rfl, rfl⟩ hreach
      fun _ htargets => Option.mem_some.mp htargets ▸ htarget
  · next after hperform =>
    have hasked := h.confined_perform hperform hreach fun _ htargets =>
      Option.mem_some.mp htargets ▸ htarget
    have hhandles := handles_of_perform hperform
    refine h.deal (.drive hcovers.found hlength hbits hperform)
      (hasked.trans (confined_modifyHandle hid _)) fun key found hget => Or.inr ?_
    simp only [hhandles, Table.get?_modify] at hget
    split at hget
    · obtain ⟨old, hold, rfl⟩ := Option.map_eq_some_iff.mp hget
      exact ⟨old, hold, rfl, rfl, rfl, rfl⟩
    · exact ⟨found, hget, .refl found⟩

/-! ### Configurations -/

theorem setConfig (h : world.Fits area lent) (hsound : Desk.Sound ⟨world, 0⟩)
    (hadmits : Admits area world group) (type : RequestType) (flags : RequestFlags)
    (values : Option (List UInt8)) :
    world.StaysIn area lent (world.setConfig group type flags values).2 := by
  unfold World.setConfig
  split
  · exact h.fail _
  split
  · exact h.fail _
  next plan hplan =>
  obtain ⟨hcovers, -, hvalues⟩ := planConfig_ok hplan
  obtain ⟨hlength, hbits⟩ := hvalues (hsound.ledger.valid _ _ hcovers.found) hcovers.kind
  obtain ⟨chip, chipId, honchip⟩ := onChip_of_planConfig hplan
  obtain ⟨hid, htarget⟩ := hadmits.covered plan.id plan.handle hcovers
  have hreach := h.reach_of_spans hid hcovers.found
    (.setConfig plan.handle.file plan.flags plan.values) fun _ => rfl
  unfold commitConfig
  split
  · next error after hcommit =>
    split at hcommit
    · next error after hperform =>
      obtain ⟨-, rfl⟩ := Prod.mk.inj hcommit
      exact h.ask hperform ⟨error, rfl⟩ ⟨plan.id, plan.handle, hcovers.found, rfl, rfl⟩ hreach
        fun _ htargets => Option.mem_some.mp htargets ▸ htarget
    · cases (Prod.mk.inj hcommit).1
  · next after hcommit =>
    split at hcommit
    · cases (Prod.mk.inj hcommit).1
    · next mid hperform =>
      obtain ⟨-, rfl⟩ := Prod.mk.inj hcommit
      have hasked := h.confined_perform hperform hreach fun _ htargets =>
        Option.mem_some.mp htargets ▸ htarget
      have hhandles := handles_of_perform hperform
      have hconfigured : world.StaysIn area lent
          { mid with handles := mid.handles.modify plan.id (·.configured plan.flags plan.values) } := by
        refine h.deal (.configure honchip hcovers hlength hbits hperform)
          (hasked.trans (confined_modifyHandle hid _)) fun key found hget => Or.inr ?_
        simp only [hhandles, Table.get?_modify] at hget
        split at hget
        · obtain ⟨old, hold, rfl⟩ := Option.map_eq_some_iff.mp hget
          exact ⟨old, hold, rfl, rfl, rfl, rfl⟩
        · exact ⟨found, hget, .refl found⟩
      have hnoted := hconfigured.note (.reconfigured plan.handle.offsets plan.flags)
      exact hnoted.trans (hnoted.fits.updateAll hadmits.lines)

end Fits

end World

/-- **An operation on a group stays in any area that admits the group.** -/
theorem GroupOperation.staysIn {world : World (Traced Bench)} {area : Area}
    {lent : List (Device × FileId)} (h : world.Fits area lent) (hsound : Desk.Sound ⟨world, 0⟩)
    {group : Group} (hadmits : World.Admits area world group) (hsize : group.size ≤ maxLines)
    (operation : GroupOperation) : world.StaysIn area lent (operation.run group world).2 := by
  cases operation with
  | request config defaults => exact h.request hadmits hsize config defaults
  | getValues => exact h.getValues group
  | setValues values => exact h.setValues hadmits values
  | setConfig type flags values => exact h.setConfig hsound hadmits type flags values
  | setFlags flags =>
      change world.StaysIn area lent (world.setFlags group flags).2
      unfold World.setFlags
      split
      · exact h.fail _
      · exact h.setConfig hsound hadmits ..
  | setDirectionInput =>
      change world.StaysIn area lent (world.setDirectionInput group).2
      unfold World.setDirectionInput
      split
      · exact h.fail _
      · exact h.setConfig hsound hadmits ..
  | setDirectionOutput values =>
      change world.StaysIn area lent (world.setDirectionOutput group values).2
      unfold World.setDirectionOutput
      split
      · exact h.fail _
      · exact h.setConfig hsound hadmits ..

/-! ### Releases -/

theorem World.Fits.release {world : World (Traced Bench)} {area : Area}
    {lent : List (Device × FileId)} (h : world.Fits area lent) {group : Group}
    (hlines : ∀ line ∈ group.lines, line ∈ area.lines)
    (hheld : ∀ line ∈ group.lines, ∀ id, world.ledger.Holds line id → id ∈ area.handles) :
    world.StaysIn area lent (world.release group) := by
  have hdetach := h.detachAll hlines
  have hdrop := hdetach.trans (hdetach.fits.dropHandles fun id hid => by
    obtain ⟨line, hline, hholds⟩ := holds_of_mem_detachAll hid
    exact hheld line hline id hholds)
  unfold World.release
  simp only
  split
  · exact hdrop
  · have hnoted := hdrop.note (.released (world.detachAll group.lines).1.length group.offsets)
    split
    · exact hnoted.trans (hnoted.fits.updateAll hlines)
    · exact hnoted

/-! ### The area of a group -/

namespace World

variable {world : World (Traced Bench)} {group : Group}

/-- The members of a group, what it covers, and all that is new. -/
def ownArea (world : World (Traced Bench)) (group : Group) : Area where
  lines := {line | line ∈ group.lines}
  reach := {place | ∃ line ∈ group.lines, world.IsOver line place.1 ∧ line.offset = place.2}
  handles := {id | world.handles.next ≤ id ∨ ∃ handle, world.Covers group id handle}
  files := Set.univ
  targets := {target | ∃ id handle, world.Covers group id handle ∧
    target = (handle.device, handle.file)}

theorem admits_ownArea (world : World (Traced Bench)) (group : Group) :
    Admits (world.ownArea group) world group where
  lines := fun _ hmem => hmem
  reach := fun line hmem _ hover => ⟨line, hmem, hover, rfl⟩
  files := Or.inl Set.mem_univ
  covered := fun id handle hcovers => ⟨Or.inr ⟨handle, hcovers⟩, id, handle, hcovers, rfl⟩

/-- Every line that a covered handle serves is a member of the group. -/
theorem fits_ownArea {lent : List (Device × FileId)} (h : world.Accord lent) (group : Group) :
    world.Fits (world.ownArea group) lent where
  accord := h
  newHandles := fun _ => Or.inl
  newFiles := fun file _ => Set.mem_univ file
  spans := by
    rintro id (hnew | ⟨_, hcovers⟩) handle hget
    · exact absurd (Table.get?_lt h.fresh hget) (Nat.not_lt.mpr hnew)
    · obtain rfl := Option.mem_unique hcovers.found hget
      refine ⟨Set.mem_univ _, fun index hindex offset hmem => ?_⟩
      obtain ⟨line, hline, rfl⟩ := List.mem_map.mp (hcovers.complete offset hmem)
      have hholds := (handle?_eq_some.mp (hcovers.serves line hline)).1
      exact ⟨line, hline, ⟨_, (h.home line id hholds).2 _ hget, hindex⟩, rfl⟩

end World

namespace Workshop

variable {workshop : Workshop}

/-- **No operation leaves its group.** Whether it succeeds or not, the lines of simulated chips that
are not members stay as they are, and so does what is known of every line that is not a member. A
handle is not even written to if a line of it is missing from the group, or if a member is served by
another handle, or by none any more. -/
theorem confined_to_group {rule : Workshop → Act → Prop} (h : Reachable rule workshop) {group : Group}
    (hgroup : group.WellFormed) (operation : GroupOperation) :
    let after := (operation.run group workshop.world).2
    (∀ index offset,
      (∀ line ∈ group.lines, line.offset = offset → ¬ workshop.world.IsOver line index) →
      after.bench.line? index offset = workshop.world.bench.line? index offset) ∧
    (∀ line, line ∉ group.lines → after.record line = workshop.world.record line) ∧
    ∃ made, after.trace = workshop.world.trace ++ made ∧
      ∀ id handle index, workshop.world.handles.get? id = some handle →
        handle.device.simulator? = some index →
        ((∃ offset ∈ handle.offsets, offset ∉ group.offsets) ∨
          ∃ line ∈ group.lines, ¬ workshop.world.ledger.Holds line id) →
        ∀ exchange ∈ made, exchange.target? ≠ some (handle.device, handle.file) := by
  intro after
  have hsound := h.sound
  have hfits := World.fits_ownArea hsound.accord group
  have hstays := operation.staysIn hfits hsound.client.desk
    (workshop.world.admits_ownArea group) hgroup.size_le
  refine ⟨fun index offset hout => hstays.confined.bench.line? index offset ?_,
    hstays.confined.record, ?_⟩
  · rintro ⟨line, hmem, hover, hoffset⟩
    exact hout line hmem hoffset hover
  · obtain ⟨made, htrace, htargets⟩ := hstays.confined.trace
    refine ⟨made, htrace, fun id handle index hget hindex hpart exchange hmem htarget => ?_⟩
    obtain ⟨key, found, hcovers, hsame⟩ := htargets exchange hmem _ htarget
    obtain ⟨hdevice, hfile⟩ := Prod.mk.inj hsame
    -- one handle has the file, so it is the one that is covered
    obtain rfl := hsound.accord.lending.distinct id key handle found index hget hcovers.found
      hindex (hdevice ▸ hindex) hfile
    obtain rfl := Option.mem_unique hget hcovers.found
    rcases hpart with ⟨offset, hoffset, hmissing⟩ | ⟨line, hline, hnot⟩
    · exact hmissing (hcovers.complete offset hoffset)
    · exact hnot (World.handle?_eq_some.mp (hcovers.serves line hline)).1

/-- Two lines in one request, and each of them in a group of its own. -/
def pairOfOutputs : List Act :=
  let config : RequestConfig := { consumer := "pair", type := .output }
  [.deed (.addSimulator "gpiochip0" 2), .operation (.openChip (.simulator 0)),
    .operation (.getLines 0 [0, 1]), .operation (.getLines 0 [0]), .operation (.getLines 0 [1]),
    .operation (.onGroup (.request config none) ⟨[⟨0, 0⟩, ⟨0, 1⟩]⟩)]

theorem confined_to_half : ∃ (workshop : Workshop) (handle : Handle),
    Reachable Unruled workshop ∧ (⟨[⟨0, 0⟩]⟩ : Group).WellFormed ∧
    workshop.world.handles.get? 0 = some handle ∧
    ((GroupOperation.setValues [1]).run ⟨[⟨0, 0⟩]⟩ workshop.world).1 =
      .error (.invalid .partialRequest) ∧
    let after := ((GroupOperation.setValues [1]).run ⟨[⟨0, 0⟩]⟩ workshop.world).2
    after.bench.line? 0 1 = workshop.world.bench.line? 0 1 ∧
    after.record ⟨0, 1⟩ = workshop.world.record ⟨0, 1⟩ ∧
    ∃ made, after.trace = workshop.world.trace ++ made ∧
      ∀ exchange ∈ made, exchange.target? ≠ some (handle.device, handle.file) := by
  have hreachable : Reachable Unruled (({} : Workshop).actAll pairOfOutputs) :=
    Reachable.start.actAll (by decide)
  have hfound : ((({} : Workshop).actAll pairOfOutputs).world.handles.get? 0).isSome := by decide
  obtain ⟨handle, hget⟩ := Option.isSome_iff_exists.mp hfound
  have hgroup : (⟨[⟨0, 0⟩]⟩ : Group).WellFormed := Group.wellFormed_single ⟨0, 0⟩
  obtain ⟨hlines, hrecords, made, htrace, htargets⟩ :=
    confined_to_group hreachable hgroup (.setValues [1])
  have hhandle : ((({} : Workshop).actAll pairOfOutputs).world.handles.get? 0).elim none
      (·.device.simulator?) = some 0 := by decide
  have hoffsets : ((({} : Workshop).actAll pairOfOutputs).world.handles.get? 0).elim []
      (·.offsets) = [0, 1] := by decide
  rw [hget, Option.elim_some] at hhandle hoffsets
  refine ⟨_, handle, hreachable, hgroup, hget, by rfl, hlines 0 1 (by simp), hrecords _ (by simp),
    made, htrace, htargets 0 handle 0 hget hhandle (Or.inl ⟨1, ?_, by decide⟩)⟩
  rw [hoffsets]
  decide

end Workshop

end GpioLines
