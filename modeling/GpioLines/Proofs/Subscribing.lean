import GpioLines.Proofs.Listening
import GpioLines.Proofs.Representation

/-!
# A request starts to listen

A request for events is granted a new file for each line, and it is empty. From then on the file
belongs to the handle that the line is attached to, and the rest of the request, the grants of the
other lines and the refresh at the end, leaves it alone.
-/

namespace GpioLines.World

/-! ### Lines and their handles -/

section Slots

variable {σ : Type} [Machine σ]

theorem board_updateAll (world : World σ) (group : Group) :
    (world.updateAll group).board = world.board := by
  unfold updateAll
  generalize group.lines = lines
  induction lines generalizing world with
  | nil => rfl
  | cons line rest ih => exact (ih (world.update line)).trans (board_update world line)

end Slots

/-! ### The grants -/

variable {world after : World (Traced Bench)} {lent : List (Device × FileId)} {others : List FileId}
  {index : Nat} {config : RequestConfig}

theorem hears_listen (haccord : world.Accord lent) (hspares : world.Spares others) {device : Device}
    (hindex : device.simulator? = some index) {line : Line} {file : FileId}
    (hperform : world.perform device (.requestEvent (eventRequest config line)) = (.ok file, after)) :
    (after.openHandle (eventGrant device config line file)).Hears
      ⟨index, line.offset, file, config.type.edges, config.flags.settings.activeLow⟩
      world.handles.next others [] := by
  have htrace := trace_perform hperform
  have hopened := opened_perform hperform (List.mem_singleton_self (device, file))
  obtain ⟨bench, hbench, rfl⟩ := perform_bench hperform
  have hserves := Bench.Serves.of_requestEvent haccord.bench hspares.fresh hbench hindex
  have hget : ∀ key handle, (world.handles.add (eventGrant device config line file)).get? key =
      some handle → key = world.handles.next ∧ eventGrant device config line file = handle ∨
        world.handles.get? key = some handle := by
    intro key handle hget
    rw [Table.get?_add haccord.fresh] at hget
    split at hget
    · next hkey => exact Or.inl ⟨hkey, Option.some.inj hget⟩
    · exact Or.inr hget
  refine ⟨Nat.lt_succ_self _, fun handle hhandle => ?_, fun _ _ => hserves, ?_, ?_⟩
  · rcases hget _ handle hhandle with ⟨-, rfl⟩ | hold
    · rfl
    · rw [haccord.fresh.get?_next] at hold
      cases hold
  · intro hunclaimed _ key handle hhandle hfile
    rcases hget key handle hhandle with ⟨rfl, -⟩ | hold
    · rfl
    · -- the handles that were there have older numbers
      have hearlier : Unclaimed handle.file world.trace :=
        Unclaimed.mono (hfile ▸ hunclaimed) htrace
      have hlt := hspares.unused key handle hold hearlier
      rcases hopened with hclaimed | ⟨hnext, -⟩
      · exact absurd hunclaimed hclaimed
      · exact absurd (hfile.trans hnext) (Nat.ne_of_lt hlt)
  · intro hunclaimed _ hmem
    have hlt := hspares.gone file hmem (Unclaimed.mono hunclaimed htrace)
    rcases hopened with hclaimed | ⟨hnext, -⟩
    · exact hclaimed hunclaimed
    · exact absurd hnext (Nat.ne_of_lt hlt)

theorem hears_acquireEvents {chip : Chip} {id : ChipId}
    (hindex : chip.device.simulator? = some index) {lines : List Line}
    (hlines : ∀ line ∈ lines, line.chip = id) (hopen : world.openChip id = .ok chip)
    (haccord : world.Accord lent) (hspares : world.Spares others) {granted ids : List HandleId}
    (h : world.acquireEvents chip.device config granted lines = ((none, ids), after)) {line : Line}
    {key : HandleId} (hmem : (line, key) ∈ lines.zip (List.range' world.handles.next lines.length)) :
    ∃ file, after.Hears
      ⟨index, line.offset, file, config.type.edges, config.flags.settings.activeLow⟩ key others [] := by
  induction lines generalizing world granted with
  | nil => cases hmem
  | cons first rest ih =>
      rcases hperform : world.perform chip.device (.requestEvent (eventRequest config first))
        with ⟨error | file, mid⟩
      · rw [acquireEvents_refused hperform] at h
        cases (Prod.mk.inj (Prod.mk.inj h).1).1
      rw [acquireEvents_granted hperform] at h
      have hfirst := hears_listen haccord hspares hindex hperform
      have hchip : world.openChip first.chip = .ok chip := by
        rw [hlines first List.mem_cons_self]
        exact hopen
      have hdeal : Deal False ⟨world, ∅⟩
          ⟨mid.openHandle (eventGrant chip.device config first file), insert first ∅⟩ :=
        .listen hchip hperform
      have hothers : ∀ other ∈ rest, other.chip = id := fun other hother =>
        hlines other (List.mem_cons_of_mem _ hother)
      have hchips : mid.chips = world.chips ∧ mid.handles = world.handles := by
        obtain ⟨machine, -, rfl⟩ := perform_eq hperform
        exact ⟨rfl, rfl⟩
      have hopened : (mid.openHandle (eventGrant chip.device config first file)).openChip id =
          .ok chip := by
        have hsame : (mid.openHandle (eventGrant chip.device config first file)).chips =
            world.chips := hchips.1
        rw [← hopen, World.openChip, World.openChip, hsame]
      have hmid := hdeal.accord haccord
      rw [List.length_cons, List.range'_succ, List.zip_cons_cons] at hmem
      rcases List.mem_cons.mp hmem with heq | hmem
      · obtain ⟨rfl, rfl⟩ := Prod.mk.inj heq
        have hrest : ∃ due, Unread False
            ⟨mid.openHandle (eventGrant chip.device config line file), ∅⟩ ⟨after, due⟩ := by
          obtain ⟨due, hunread⟩ := unread_acquireEvents config hothers hopened hmid.fresh
            (granted ++ [mid.handles.next])
          rw [h] at hunread
          exact ⟨due, hunread⟩
        obtain ⟨due, hrest⟩ := hrest
        exact ⟨file, Unread.hears hrest hmid hfirst⟩
      · refine ih hothers hopened hmid (hdeal.spares haccord hspares) h ?_
        rw [← hchips.2] at hmem
        exact hmem

/-! ### The request -/

/-- What a request for events that is granted comes to. -/
theorem request_events (hevents : config.type.isEvent = true) {group : Group}
    {defaults : Option (List UInt8)} (h : world.request group config defaults = (.ok (), after)) :
    ∃ chip id granted mid, world.chipOf group = .ok chip ∧ world.Takeable group chip id ∧
      world.acquireEvents chip.device config [] group.lines = ((none, granted), mid) ∧
      after = ((mid.attachAll .events (group.lines.zip granted)).note
        (.requestedEvents group.offsets config.type.edges config.consumer)).updateAll group := by
  unfold request at h
  split at h
  · cases (Prod.mk.inj h).1
  unfold requestLocked at h
  split at h
  · cases (Prod.mk.inj h).1
  next chip hcheck =>
  obtain ⟨first, -, htakeable⟩ := takeable_of_checkTakeable hcheck
  simp only [hevents, if_true, requestEvents] at h
  rcases hacquire : world.acquireEvents chip.device config [] group.lines
    with ⟨⟨refused | refused, granted⟩, mid⟩
  · rw [hacquire] at h
    exact ⟨chip, first.chip, granted, mid, chipOf_of_checkTakeable hcheck, htakeable, hacquire,
      (Prod.mk.inj h).2.symm⟩
  · rw [hacquire] at h
    cases (Prod.mk.inj h).1

/-- **A request for events starts to listen.** The file of each of its lines is empty, and tells of
the edges that were asked for, seen as the flags of the request say. -/
theorem hears_request (haccord : world.Accord lent) (hspares : world.Spares others) {group : Group}
    {defaults : Option (List UInt8)} (hevents : config.type.isEvent = true)
    (hindex : ∀ chip ∈ (world.chipOf group).toOption, chip.device.simulator? = some index)
    (h : world.request group config defaults = (.ok (), after)) {line : Line}
    (hmem : line ∈ group.lines) {id : HandleId} (hholds : (after.slot line).handle? = some id) :
    ∃ file, after.Hears
      ⟨index, line.offset, file, config.type.edges, config.flags.settings.activeLow⟩ id others [] := by
  obtain ⟨chip, chipId, granted, mid, hchip, htakeable, hacquire, rfl⟩ := request_events hevents h
  obtain ⟨machine, log, files, hmid, hgranted, -, hall⟩ :=
    world.acquireEvents_eq chip.device config [] group.lines
  rw [hacquire] at hmid hgranted hall
  obtain rfl : granted = List.range' world.handles.next files.length := hgranted
  have hlength : files.length = group.lines.length := hall rfl
  obtain ⟨key, hkey⟩ : ∃ key, (line, key) ∈
      group.lines.zip (List.range' world.handles.next files.length) := by
    obtain ⟨place, hplace⟩ := List.mem_iff_getElem?.mp hmem
    have hlt := (List.getElem?_eq_some_iff.mp hplace).1
    refine ⟨world.handles.next + place, List.mem_iff_getElem?.mpr ⟨place, ?_⟩⟩
    rw [List.getElem?_zip_eq_some]
    exact ⟨hplace, by rw [List.getElem?_range' (hlength ▸ hlt), Nat.one_mul]⟩
  have hclosed : world.ledger.closed? line.chip = some false := by
    rw [htakeable.members line hmem]
    exact closed?_eq_false.mpr ⟨chip, htakeable.isOpen⟩
  have hattached : (mid.attachAll .events
      (group.lines.zip (List.range' world.handles.next files.length))).ledger.Holds line key := by
    refine holds_attachAll ?_ (?_ : mid.ledger.closed? line.chip = some false) hkey
    · rw [List.map_fst_zip (by rw [List.length_range', hlength])]
      exact htakeable.nodup
    · rw [show mid = _ from hmid]
      exact hclosed
  obtain rfl : key = id := by
    have hslot := congrArg (fun board => (board.slot line).handle?) (board_updateAll
      ((mid.attachAll .events (group.lines.zip (List.range' world.handles.next files.length))).note
        (.requestedEvents group.offsets config.type.edges config.consumer)) group)
    exact Option.some.inj ((hslot.trans hattached).symm.trans hholds)
  obtain ⟨file, hears⟩ := hears_acquireEvents
    (hindex chip (by rw [hchip]; rfl)) htakeable.members htakeable.isOpen haccord hspares hacquire
    (hlength ▸ hkey)
  -- what follows the grants does not come near the file
  have hattach : Unread False ⟨mid, ∅⟩ ⟨mid.attachAll .events
      (group.lines.zip (List.range' world.handles.next files.length)), ∅⟩ := by
    refine unread_attachAll fun pair hpair => ?_
    obtain ⟨-, file, hfound⟩ := eventGrants_found haccord.fresh hpair
    rw [show mid = _ from hmid]
    exact ⟨_, hfound, htakeable.toOnChip.device (List.of_mem_zip hpair).1⟩
  have hacquired : ∃ due, Unread False ⟨world, ∅⟩ ⟨mid, due⟩ := by
    obtain ⟨due, hunread⟩ := unread_acquireEvents config htakeable.members htakeable.isOpen
      haccord.fresh []
    rw [hacquire] at hunread
    exact ⟨due, hunread⟩
  obtain ⟨due, hacquired⟩ := hacquired
  have hmidAccord : mid.Accord lent := Deals.accord (Unread.deals hacquired) haccord
  exact ⟨file, Unread.hears ((hattach.trans (unread_note _)).trans (unread_updateAll group))
    hmidAccord hears⟩

end GpioLines.World
