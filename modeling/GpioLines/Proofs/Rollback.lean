import GpioLines.Proofs.Atomicity
import GpioLines.Proofs.Deeds
import GpioLines.Proofs.Replay

/-!
# What a refused request for events leaves behind

A request for events is granted member by member, and when a member is refused the ones before it are
released. The release of a line is all that is done to undo its request, and a device does not
remember how a line was configured before. So levels, consumers and marks are as before, on every line
of the chip, but the members that were granted stay what the request made of them: inputs with the
settings of the request.
-/

namespace GpioLines

/-! ### One line -/

namespace SimLine

/-- The line as it is once a request for events was granted. -/
def listening (config : RequestConfig) (line : SimLine) : SimLine :=
  (line.take config.consumer).applyFlags
    { config.flags.handleFlags config.type with input := true }

/-- The line as it is once it was released again. -/
def yielded (settings : Settings) (line : SimLine) : SimLine :=
  { line with flags := { line.flags with output := false, settings } }

theorem free_listening {config : RequestConfig} {line : SimLine} (h : line.Marked)
    (hfree : line.requested = false)
    (hinput : (config.flags.handleFlags config.type).output = false) :
    (line.listening config).free = line.yielded config.flags.settings := by
  have hused : line.flags.used = false := h.used ▸ hfree
  have hconsumer : line.consumer = none := h.unowned hfree
  obtain ⟨name, consumer, flags, level, requested, infoFails⟩ := line
  simp only at hused hconsumer hfree
  simp only [listening, yielded, take, applyFlags, free, hinput, hused, hconsumer, hfree,
    Bool.not_true, Bool.and_false, Bool.or_false]
  rfl

end SimLine

/-- A report of the line, before and after. -/
def LineInfo.yielded (settings : Settings) (info : LineInfo) : LineInfo :=
  { info with flags := { info.flags with output := false, settings } }

theorem SimLine.info_yielded (settings : Settings) (line : SimLine) (offset : Offset) :
    (line.yielded settings).info offset = (line.info offset).yielded settings := rfl

/-! ### One chip -/

/-- The lines of `given` were lent and given back, and configured in between. -/
structure Simulator.Yielded (given : List Offset) (settings : Settings) (sim after : Simulator) :
    Prop where
  lineInfo : ∀ offset, after.lineInfo offset =
    if offset ∈ given then (sim.lineInfo offset).map (·.yielded settings) else sim.lineInfo offset
  level : ∀ offset, after.level offset = sim.level offset
  grants : after.grants = sim.grants
  released : after.released = sim.released + given.length
  clock : after.clock = sim.clock

namespace Simulator

variable {index : Nat} {sim after : Simulator} {device : Device} {config : RequestConfig}

theorem lineInfo_congr (hfails : after.infoFails = sim.infoFails) {offset : Offset}
    (hline : after.line? offset = sim.line? offset) : after.lineInfo offset = sim.lineInfo offset := by
  rw [lineInfo, lineInfo, hfails, hline]

theorem lineInfo_yielded (hfails : after.infoFails = sim.infoFails) {offset : Offset}
    {settings : Settings}
    (hline : after.line? offset = (sim.line? offset).map (·.yielded settings)) :
    after.lineInfo offset = (sim.lineInfo offset).map (·.yielded settings) := by
  rw [lineInfo, lineInfo, hfails, hline]
  split
  · rfl
  · cases sim.line? offset with
    | none => rfl
    | some line =>
        simp only [Option.map_some, SimLine.info_yielded]
        change (if line.infoFails = true then _ else _) = _
        split <;> rfl

/-- What the chip keeps of the requests for events that it granted. -/
def eventGrants (config : RequestConfig) (lines : List Line) (files : List FileId) : List Grant :=
  List.zipWith (fun line file => ⟨file, [line.offset], some config.type.edges⟩) lines files

theorem files_eventGrants (config : RequestConfig) {lines : List Line} {files : List FileId}
    (hlength : files.length = lines.length) :
    (eventGrants config lines files).map (·.file) = files := by
  induction lines generalizing files with
  | nil => exact (List.eq_nil_of_length_eq_zero hlength).symm
  | cons line rest ih =>
      cases files with
      | nil => rfl
      | cons file files => exact congrArg (file :: ·) (ih (Nat.succ.inj hlength))

theorem offsets_eventGrants (config : RequestConfig) {lines : List Line} {files : List FileId}
    (hlength : files.length = lines.length) :
    (eventGrants config lines files).flatMap (·.offsets) = lines.map (·.offset) := by
  induction lines generalizing files with
  | nil => rfl
  | cons line rest ih =>
      cases files with
      | nil => cases hlength
      | cons file files => exact congrArg (line.offset :: ·) (ih (Nat.succ.inj hlength))

/-- One granted request for events. -/
theorem Exclusive.granted_event (h : sim.Exclusive) (hdevice : device.simulator? = some index)
    {line : Line} {file : FileId}
    (hmakes : Exchange.Makes index sim after
      (.call device (.requestEvent (World.eventRequest config line)) (.ok file))) :
    after.Exclusive ∧
      (∃ lines, after =
        { sim with lines, grants := sim.grants ++ eventGrants config [line] [file] }) ∧
      (config.flags.handleFlags config.type).output = false ∧
      (∃ found, sim.line? line.offset = some found ∧ found.requested = false) ∧
      ∀ offset, after.line? offset =
        if offset = line.offset then (sim.line? offset).map (·.listening config)
        else sim.line? offset := by
  rw [Exchange.Makes, if_pos hdevice] at hmakes
  obtain ⟨fresh, given, hfresh, hperform, hgiven⟩ := hmakes
  have hexclusive := h.perform hfresh (.requestEvent (World.eventRequest config line))
  rw [hperform] at hexclusive
  obtain ⟨hreply, hgranted⟩ := settle_eq_ok.mp hperform
  obtain rfl : file = fresh := (hgiven fun hnone => by cases hnone).trans hreply
  obtain ⟨hoffers, houtput, rfl⟩ := requestEvent_eq_ok hgranted
  have hmem := List.mem_singleton_self line.offset
  refine ⟨hexclusive, ?_, houtput, hoffers.free line.offset hmem, fun offset => ?_⟩
  · obtain ⟨taken, htaken, -⟩ := sim.modifyAll_eq (takes [line.offset] config.consumer)
    obtain ⟨lines, hlines, -⟩ := (sim.modifyAll (takes [line.offset] config.consumer)).modifyAll_eq
      (listens (World.eventRequest config line))
    refine ⟨lines, ?_⟩
    change { (sim.modifyAll (takes [line.offset] config.consumer)).modifyAll
      (listens (World.eventRequest config line)) with
      grants := sim.grants ++ eventGrants config [line] [file] : Simulator } = _
    rw [hlines, htaken]
  · change (((sim.modifyAll (takes [line.offset] config.consumer)).modifyAll
      (listens (World.eventRequest config line))).line? offset) = _
    split
    · next heq =>
      have hnodup : ((listens (World.eventRequest config line)).map (·.1)).Nodup :=
        List.nodup_singleton _
      subst heq
      have htaken : (sim.modifyAll (takes [line.offset] config.consumer)).line? line.offset =
          (sim.line? line.offset).map (·.take config.consumer) :=
        line?_takes hoffers.nodup hmem config.consumer
      refine (line?_modifyAll hnodup List.mem_cons_self).trans ?_
      refine (congrArg (Option.map _) htaken).trans ?_
      rw [Option.map_map]
      rfl
    · next hne =>
      have hout : offset ∉ [line.offset] := fun hin => hne (List.mem_singleton.mp hin)
      refine (line?_modifyAll_of_not_mem hout).trans (line?_modifyAll_of_not_mem ?_)
      rwa [map_fst_takes]

/-- The members are granted one by one, and each of them was free. -/
theorem Replays.grantings (hdevice : device.simulator? = some index) {lines : List Line}
    {files : List FileId} (hlength : files.length = lines.length) (h : sim.Exclusive)
    (hreplays : Replays index (World.grantings device config lines files) sim after) :
    after.Exclusive ∧
      (∃ changed, after =
        { sim with lines := changed, grants := sim.grants ++ eventGrants config lines files }) ∧
      (∀ line ∈ lines, (config.flags.handleFlags config.type).output = false ∧
        ∃ found, sim.line? line.offset = some found ∧ found.requested = false) ∧
      ∀ offset, after.line? offset =
        if offset ∈ lines.map (·.offset) then (sim.line? offset).map (·.listening config)
        else sim.line? offset := by
  induction lines generalizing sim files with
  | nil =>
      cases hreplays
      refine ⟨h, ⟨after.lines, ?_⟩, nofun, fun offset => rfl⟩
      simp only [eventGrants, List.zipWith_nil_left, List.append_nil]
  | cons line rest ih =>
      cases files with
      | nil => cases hlength
      | cons file files =>
          cases hreplays with
          | @cons _ _ _ mid _ hfirst hothers =>
              obtain ⟨hmid, ⟨first, hbase⟩, houtput, hfound, hlines⟩ := h.granted_event hdevice hfirst
              obtain ⟨hexclusive, ⟨changed, hafter⟩, hfree, hrest⟩ :=
                ih (Nat.succ.inj hlength) hmid hothers
              -- a member that was granted is not free any more, so it does not come again
              have hapart : ∀ other ∈ rest, other.offset ≠ line.offset := by
                intro other hother heq
                obtain ⟨-, found, hget, hnot⟩ := hfree other hother
                rw [hlines, if_pos heq] at hget
                obtain ⟨old, -, rfl⟩ := Option.map_eq_some_iff.mp hget
                cases hnot
              refine ⟨hexclusive, ⟨changed, ?_⟩, ?_, fun offset => ?_⟩
              · rw [hafter, hbase]
                simp only [eventGrants, List.zipWith_cons_cons, List.zipWith_nil_left,
                  List.append_assoc, List.singleton_append]
              · intro other hother
                rcases List.mem_cons.mp hother with rfl | hother
                · exact ⟨houtput, hfound⟩
                · have hget := hfree other hother
                  rwa [hlines, if_neg (hapart other hother)] at hget
              · rw [hrest, hlines, List.map_cons]
                by_cases hin : offset ∈ rest.map (·.offset)
                · obtain ⟨other, hother, rfl⟩ := List.mem_map.mp hin
                  rw [if_pos hin, if_pos (List.mem_cons_of_mem _ hin), if_neg (hapart other hother)]
                · by_cases heq : offset = line.offset
                  · rw [if_neg hin, if_pos heq, if_pos (heq ▸ List.mem_cons_self)]
                  · rw [if_neg hin, if_neg heq, if_neg]
                    exact fun hmem => (List.mem_cons.mp hmem).elim heq hin

/-- Grants that end one after the other free their lines and leave the rest alone. -/
theorem Replays.releases (hdevice : device.simulator? = some index) {kept ended : List Grant}
    (h : sim.Exclusive) (hgrants : sim.grants = kept ++ ended)
    (hreplays : Replays index (ended.map fun grant => .release device grant.file) sim after) :
    (∃ lines, after =
      { sim with lines, grants := kept, released := sim.released + ended.length }) ∧
      ∀ offset, after.line? offset =
        if offset ∈ ended.flatMap (·.offsets) then (sim.line? offset).map SimLine.free
        else sim.line? offset := by
  induction ended generalizing sim with
  | nil =>
      cases hreplays
      rw [List.append_nil] at hgrants
      exact ⟨⟨_, by rw [← hgrants]; rfl⟩, fun offset => rfl⟩
  | cons first rest ih =>
      cases hreplays with
      | @cons _ _ _ mid _ hfirst hothers =>
          have hmem : first ∈ sim.grants := hgrants ▸ List.mem_append_right _ List.mem_cons_self
          have hmid : mid = { sim.modifyAll (frees first.offsets) with
              grants := kept ++ rest, released := sim.released + 1 } := by
            rw [Exchange.Makes, if_pos hdevice] at hfirst
            have hfiles := h.files
            rw [hgrants, List.map_append, List.map_cons] at hfiles
            have hout := (List.nodup_middle.mp hfiles).notMem
            have hother : ∀ grant ∈ kept ++ rest, (grant.file != first.file) = true := by
              intro grant hgrant
              rw [bne_iff_ne]
              rintro heq
              refine hout (heq ▸ ?_)
              rw [← List.map_append]
              exact List.mem_map_of_mem hgrant
            have hfilter : sim.grants.filter (·.file != first.file) = kept ++ rest := by
              rw [hgrants, List.filter_append, List.filter_cons_of_neg (by simp),
                ← List.filter_append]
              exact List.filter_eq_self.mpr hother
            rcases sim.release_eq first.file with ⟨hnone, -⟩ | ⟨grant, -, -, hsome, heq⟩
            · rw [h.grant?_eq hmem] at hnone
              cases hnone
            · rw [h.grant?_eq hmem] at hsome
              obtain rfl := Option.some.inj hsome
              rw [hfirst, heq, hfilter]
          have hexclusive : mid.Exclusive := by
            rw [Exchange.Makes, if_pos hdevice] at hfirst
            exact hfirst ▸ h.release first.file
          obtain ⟨⟨lines, hafter⟩, hlines⟩ := ih hexclusive (by rw [hmid]) hothers
          have hline : ∀ offset, mid.line? offset =
              if offset ∈ first.offsets then (sim.line? offset).map SimLine.free
              else sim.line? offset := fun offset => by
            rw [hmid]
            exact line?_frees (h.nodup hmem) offset
          refine ⟨⟨lines, ?_⟩, fun offset => ?_⟩
          · obtain ⟨freed, hfreed, -⟩ := sim.modifyAll_eq (frees first.offsets)
            rw [hafter, hmid, hfreed]
            simp only [List.length_cons, Nat.add_assoc, Nat.add_comm 1]
          · rw [hlines, hline, List.flatMap_cons]
            by_cases hin : offset ∈ rest.flatMap (·.offsets)
            · -- no line is in two grants
              have hapart : offset ∉ first.offsets := by
                intro hfirst
                obtain ⟨grant, hgrant, hoffset⟩ := List.mem_flatMap.mp hin
                have hsplit := h.files
                have hin' : grant ∈ sim.grants :=
                  hgrants ▸ List.mem_append_right _ (List.mem_cons_of_mem _ hgrant)
                obtain rfl := h.grant_eq hin' hmem hoffset hfirst
                rw [hgrants, List.map_append, List.map_cons] at hsplit
                refine (List.nodup_middle.mp hsplit).notMem ?_
                rw [← List.map_append]
                exact List.mem_map_of_mem (List.mem_append_right _ hgrant)
              rw [if_pos hin, if_neg hapart, if_pos (List.mem_append_right _ hin)]
            · rw [if_neg hin]
              simp only [List.mem_append, hin, or_false]

/-- **A request for events that was refused, on the chip.** -/
theorem Replays.yielded (hdevice : device.simulator? = some index) {lines : List Line} {line : Line}
    {files : List FileId} {error : Error} (hlength : files.length = lines.length)
    (h : sim.Exclusive)
    (hreplays : Replays index (World.grantings device config lines files ++
      [.call device (.requestEvent (World.eventRequest config line)) (.error error)] ++
      files.map (.release device)) sim after) :
    sim.Yielded (lines.map (·.offset)) config.flags.settings after := by
  obtain ⟨refused, hreplays, hreleases⟩ := hreplays.of_append
  obtain ⟨granted, hgrantings, hrefusal⟩ := hreplays.of_append
  obtain rfl : refused = granted := by
    cases hrefusal with
    | cons hsame hnil =>
        cases hnil
        exact hsame
  obtain ⟨hexclusive, ⟨taken, hgranted⟩, hfree, htaken⟩ :=
    Replays.grantings hdevice hlength h hgrantings
  have hfiles : files.map (Exchange.release device) =
      (eventGrants config lines files).map fun grant => .release device grant.file := by
    conv_lhs => rw [← files_eventGrants config hlength, List.map_map]
    rfl
  rw [hfiles] at hreleases
  obtain ⟨⟨freed, hafter⟩, hfreed⟩ :=
    Replays.releases hdevice hexclusive (congrArg Simulator.grants hgranted) hreleases
  have hbase : ∃ changed, after =
      { sim with lines := changed, released := sim.released + lines.length } := by
    refine ⟨freed, ?_⟩
    rw [hafter, hgranted]
    simp only [eventGrants, List.length_zipWith, hlength, Nat.min_self]
  have hline : ∀ offset, after.line? offset =
      if offset ∈ lines.map (·.offset) then (sim.line? offset).map (·.yielded config.flags.settings)
      else sim.line? offset := by
    intro offset
    rw [hfreed, htaken, offsets_eventGrants config hlength]
    by_cases hin : offset ∈ lines.map (·.offset)
    · obtain ⟨member, hmember, rfl⟩ := List.mem_map.mp hin
      obtain ⟨hinput, found, hfound, hnot⟩ := hfree member hmember
      rw [if_pos hin, if_pos hin, if_pos hin, hfound]
      exact congrArg some
        (SimLine.free_listening (h.marked member.offset found hfound) hnot hinput)
    · rw [if_neg hin, if_neg hin, if_neg hin]
  obtain ⟨changed, hbase⟩ := hbase
  have hfails : after.infoFails = sim.infoFails := by rw [hbase]
  refine ⟨fun offset => ?_, fun offset => ?_, by rw [hbase], by rw [hbase, List.length_map],
    by rw [hbase]⟩
  · split
    · next hin => exact lineInfo_yielded hfails ((hline offset).trans (if_pos hin))
    · next hout => exact lineInfo_congr hfails ((hline offset).trans (if_neg hout))
  · rw [level, level, hline]
    split
    · cases sim.line? offset <;> rfl
    · rfl

end Simulator

/-! ### The whole bench -/

/-- One simulated chip has lent these lines and has them back; the others are as they were. -/
def Bench.Yielded (index : Nat) (given : List Line) (settings : Settings) (bench after : Bench) :
    Prop :=
  ∀ (other : Nat) (sim : Simulator), bench.simulators[other]? = some sim →
    ∃ changed, after.simulators[other]? = some changed ∧
      if other = index then sim.Yielded (given.map (·.offset)) settings changed else changed = sim

namespace Workshop

theorem device_of_mem_refused {device : Device} {config : RequestConfig} {lines : List Line}
    {line : Line} {files : List FileId} {error : Error} {exchange : Exchange}
    (h : exchange ∈ World.grantings device config lines files ++
      [.call device (.requestEvent (World.eventRequest config line)) (.error error)] ++
      files.map (.release device)) : exchange.device = device := by
  rcases List.mem_append.mp h with h | h
  · rcases List.mem_append.mp h with h | h
    · obtain ⟨index, hindex, rfl⟩ := List.mem_iff_getElem.mp h
      simp only [World.grantings, List.getElem_zipWith, Exchange.device]
    · rw [List.mem_singleton.mp h]
      rfl
  · obtain ⟨file, -, rfl⟩ := List.mem_map.mp h
    rfl

/-- **A refused request for events is undone but for the settings.** Every member before the refused
one is released again. Nothing else is seen of the request on any line of the chip: levels, consumers
and marks are as before, and so are the grants, while the count of ended ones has grown. But the
members that were granted for a moment are inputs with the settings of the request. -/
theorem yielded_of_refused {rule : Workshop → Act → Prop} {workshop : Workshop}
    (hreachable : Reachable rule workshop) {group : Group} {config : RequestConfig}
    {defaults : Option (List UInt8)}
    (hcan : workshop.Can (.operation (.onGroup (.request config defaults) group)))
    (hevents : config.type.isEvent = true) {index : Nat}
    (hdevice : ∀ chip ∈ (workshop.world.chipOf group).toOption, chip.device.simulator? = some index)
    {error : Error} {after : World (Traced Bench)}
    (hrun : (GroupOperation.request config defaults).run group workshop.world =
      (.error error, after)) :
    ∃ given : List Line,
      (given = [] ∨ ∃ refused rest, group.lines = given ++ refused :: rest) ∧
      workshop.world.bench.Yielded index given config.flags.settings after.bench := by
  have hsound := hreachable.sound
  have hgroup : group.WellFormed := hsound.client.groups group (hcan.1 group List.mem_cons_self)
  have hmoves : Moves _ ⟨workshop.world, 0⟩
      ⟨((GroupOperation.request config defaults).run group workshop.world).2, 0⟩ :=
    GroupOperation.moves hsound.client.desk hgroup.size_le
  obtain ⟨-, made, htrace, hreplayed⟩ := hmoves.follows hsound.accord.bench
  obtain ⟨refused, hrefused, hmade⟩ := (failsCleanly_run hsound.client.desk hrun).made
  rw [hrun] at htrace hreplayed
  obtain rfl : made = refused := List.append_cancel_left (htrace.symm.trans hrefused)
  rcases hmade with ⟨rfl, -⟩ | ⟨-, chip, hchip, hmade⟩
  · refine ⟨[], Or.inl rfl, fun other sim hsim => ?_⟩
    obtain ⟨changed, hchanged, hreplays⟩ := hreplayed.present other sim hsim
    cases hreplays
    refine ⟨sim, hchanged, ?_⟩
    split
    · exact ⟨fun _ => rfl, fun _ => rfl, rfl, rfl, rfl⟩
    · rfl
  · rw [if_pos hevents] at hmade
    obtain ⟨given, line, rest, files, hlines, hlength, rfl⟩ := hmade
    refine ⟨given, Or.inr ⟨line, rest, hlines⟩, fun other sim hsim => ?_⟩
    obtain ⟨changed, hchanged, hreplays⟩ := hreplayed.present other sim hsim
    refine ⟨changed, hchanged, ?_⟩
    have hbeneath := hdevice chip (by rw [hchip]; rfl)
    split
    · next heq =>
      subst heq
      exact hreplays.yielded hbeneath hlength (hsound.accord.bench.simulators other sim hsim)
    · next hne =>
      refine hreplays.elsewhere fun exchange hexchange => ?_
      rw [device_of_mem_refused hexchange, hbeneath]
      exact fun heq => hne (Option.some.inj heq).symm

/-- Line 0 has been an output and is free again, and somebody else holds line 1. -/
def formerOutput : List Act :=
  let config : RequestConfig := { consumer := "before", type := .output }
  [.deed (.addSimulator "gpiochip0" 2), .deed (.control 0 (.hog 1 "other")),
    .operation (.openChip (.simulator 0)), .operation (.getLines 0 [0, 1]),
    .operation (.single ⟨0, 0⟩), .operation (.onGroup (.request config none) ⟨[⟨0, 0⟩]⟩),
    .operation (.release ⟨[⟨0, 0⟩]⟩)]

def watchBoth : GroupOperation := .request { consumer := "watch", type := .eventBoth } none

theorem yielded_formerOutput :
    ∃ (workshop : Workshop) (after : World (Traced Bench)), Reachable Unruled workshop ∧
      watchBoth.run ⟨[⟨0, 0⟩, ⟨0, 1⟩]⟩ workshop.world =
        (.error (.call .requestEvent .busy), after) ∧
      ∃ given : List Line, (given = [] ∨ ∃ refused rest,
        ([⟨0, 0⟩, ⟨0, 1⟩] : List Line) = given ++ refused :: rest) ∧
      workshop.world.bench.Yielded 0 given {} after.bench := by
  have hreachable : Reachable Unruled (({} : Workshop).actAll formerOutput) :=
    Reachable.start.actAll (by decide)
  have hcan : (({} : Workshop).actAll formerOutput).Can
      (.operation (.onGroup watchBoth ⟨[⟨0, 0⟩, ⟨0, 1⟩]⟩)) := by decide
  have hrun : watchBoth.run ⟨[⟨0, 0⟩, ⟨0, 1⟩]⟩ (({} : Workshop).actAll formerOutput).world =
      (.error (.call .requestEvent .busy), _) := Prod.ext (by rfl) rfl
  have hdevice : ∀ chip ∈ ((({} : Workshop).actAll formerOutput).world.chipOf
      ⟨[⟨0, 0⟩, ⟨0, 1⟩]⟩).toOption, chip.device.simulator? = some 0 := by decide
  exact ⟨_, _, hreachable, hrun, yielded_of_refused hreachable hcan rfl hdevice hrun⟩

/-- The line was an output before the refused request, and is an input after it. -/
theorem reconfigured_formerOutput :
    ∃ (workshop : Workshop) (before after : LineInfo), workshop = ({} : Workshop).actAll formerOutput ∧
      Reachable Unruled workshop ∧
      workshop.Can (.operation (.onGroup watchBoth ⟨[⟨0, 0⟩, ⟨0, 1⟩]⟩)) ∧
      (workshop.world.perform (.simulator 0) (.lineInfo 0)).1 = .ok before ∧
      (watchBoth.run ⟨[⟨0, 0⟩, ⟨0, 1⟩]⟩ workshop.world).1 = .error (.call .requestEvent .busy) ∧
      (((watchBoth.run ⟨[⟨0, 0⟩, ⟨0, 1⟩]⟩ workshop.world).2).perform (.simulator 0) (.lineInfo 0)).1 =
        .ok after ∧
      before.flags.output = true ∧ after.flags.output = false := by
  have hreachable : Reachable Unruled (({} : Workshop).actAll formerOutput) :=
    Reachable.start.actAll (by decide)
  refine ⟨_, { offset := 0, flags := { output := true } }, { offset := 0 }, rfl, hreachable, ?_⟩
  decide

end Workshop

end GpioLines
