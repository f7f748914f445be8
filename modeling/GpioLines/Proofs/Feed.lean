import GpioLines.Proofs.Deeds
import GpioLines.Proofs.OpenFiles
import GpioLines.Proofs.Records

/-!
# What a listener is told

A simulated chip tells a listener of its line by writing records into the listener's file. It writes
one when a level is set from outside, if that is a change and the edge is subscribed, and nothing
else on the bench comes near the file: no call can configure a line that is listened to, a release
ends another grant, and every other record goes to another file. So the file holds what its listener
was told and has not read yet.
-/

namespace GpioLines

/-- A line of a simulated chip that is listened to, and the file that is told. -/
structure Feed where
  index : Nat
  offset : Offset
  file : FileId
  edges : EdgeFlags
  activeLow : Bool

/-- A change of level that was made from outside. -/
structure Change where
  offset : Offset
  level : Bool
deriving DecidableEq

namespace Feed

def grant (feed : Feed) : Grant := ⟨feed.file, [feed.offset], some feed.edges⟩

/-- Rising if the line is active after the change. -/
def edge (feed : Feed) (change : Change) : Edge := .into (change.level ^^ feed.activeLow)

/-- The feed is about the line that changes and subscribes to the edge. -/
def concerns (feed : Feed) (change : Change) : Bool :=
  change.offset == feed.offset && feed.edges.contains (feed.edge change)

def report? (feed : Feed) (clock : UInt64) (change : Change) : Option LineEvent :=
  if feed.concerns change then some ⟨clock, feed.edge change⟩ else none

end Feed

/-! ### One chip -/

/-- The event of this level on a line, by the clock of the chip after the change. -/
def Simulator.changed (sim : Simulator) (line : SimLine) (level : Bool) : LineEvent :=
  ⟨sim.clock + eventInterval, .into (level ^^ line.activeLow)⟩

namespace Simulator

variable {sim after : Simulator} {feed : Feed}

theorem setLevel_unchanged {offset : Offset} {level : Bool}
    (h : ∀ line ∈ sim.line? offset, line.level = level) : sim.setLevel offset level = (none, sim) := by
  unfold setLevel
  split
  · rfl
  · next line hline => rw [if_pos (h line hline)]

theorem setLevel_changed {offset : Offset} {level : Bool} {line : SimLine}
    (hline : sim.line? offset = some line) (hne : line.level ≠ level) :
    sim.setLevel offset level =
      (some (sim.changed line level),
        { sim.modifyLine offset ({ · with level }) with clock := sim.clock + eventInterval }) := by
  unfold setLevel
  rw [hline]
  simp only [if_neg hne]
  rfl

namespace Exclusive

theorem nodup_subscribers (h : sim.Exclusive) (offset : Offset) (edge : Edge) :
    (sim.subscribers offset edge).Nodup :=
  h.files.sublist (List.filter_sublist.map _)

theorem mem_subscribers (h : sim.Exclusive) (hgrant : feed.grant ∈ sim.grants) {offset : Offset}
    {edge : Edge} : feed.file ∈ sim.subscribers offset edge ↔
      offset = feed.offset ∧ feed.edges.contains edge = true := by
  unfold subscribers
  rw [List.mem_map]
  constructor
  · rintro ⟨found, hfound, hfile⟩
    obtain ⟨hmem, htold⟩ := List.mem_filter.mp hfound
    obtain rfl := h.grant_eq_of_file hmem hgrant hfile
    rw [Bool.and_eq_true, beq_iff_eq] at htold
    exact ⟨(Option.some.inj htold.2).symm, htold.1⟩
  · rintro ⟨rfl, hedge⟩
    refine ⟨feed.grant, List.mem_filter.mpr ⟨hgrant, ?_⟩, rfl⟩
    rw [Bool.and_eq_true, beq_iff_eq]
    exact ⟨hedge, rfl⟩

theorem not_mem_eventFiles (h : sim.Exclusive) (hgrant : feed.grant ∈ sim.grants) {offset : Offset}
    (hne : offset ≠ feed.offset) : feed.file ∉ sim.eventFiles offset := by
  unfold eventFiles
  rw [List.mem_map]
  rintro ⟨found, hfound, hfile⟩
  obtain ⟨hmem, htold⟩ := List.mem_filter.mp hfound
  obtain rfl := h.grant_eq_of_file hmem hgrant hfile
  rw [Bool.and_eq_true, beq_iff_eq] at htold
  exact hne (Option.some.inj htold.2).symm

/-- No call reaches a line that is listened to. -/
theorem not_mem_reach_of_events (h : sim.Exclusive) {fresh : FileId} {call : Call}
    {reply : call.Reply} (hperform : sim.perform fresh call = (.ok reply, after))
    (hgrant : feed.grant ∈ sim.grants) : feed.offset ∉ sim.reach call := by
  by_cases hother : call.file? = some feed.file
  · -- values and settings are refused through a file of events
    have hrefused : ∀ grant ∈ sim.grants, grant.file = feed.file → grant.edges ≠ none := by
      intro grant hmem hfile hnone
      rw [h.grant_eq_of_file hmem hgrant hfile] at hnone
      cases hnone
    cases call with
    | chipInfo | lineInfo | requestLines | requestEvent => cases hother
    | getValues => exact List.not_mem_nil
    | setValues file values =>
        obtain rfl := Option.some.inj hother
        obtain ⟨-, hset⟩ := settle_eq_ok.mp hperform
        obtain ⟨grant, hmem, hfile, hnone, -⟩ := setValues_eq_ok hset
        exact absurd hnone (hrefused grant hmem hfile)
    | setConfig file flags values =>
        obtain rfl := Option.some.inj hother
        obtain ⟨-, hset⟩ := settle_eq_ok.mp hperform
        obtain ⟨-, grant, hmem, hfile, hnone, -⟩ := setConfig_eq_ok hset
        exact absurd hnone (hrefused grant hmem hfile)
  · exact h.not_mem_reach hperform hgrant hother (List.mem_singleton_self _)

end Exclusive

end Simulator

/-! ### The whole bench -/

namespace Bench

variable {bench after : Bench} {feed : Feed} {bytes : List UInt8}

/-- The time on the clock of a simulated chip; zero as long as it is not there. -/
def clock (bench : Bench) (index : Nat) : UInt64 := (bench.simulators[index]?).elim 0 (·.clock)

/-- The change that setting a level comes to, if it is one. -/
def change? (bench : Bench) (index : Nat) (offset : Offset) (level : UInt8) : Option Change :=
  (bench.line? index offset).bind fun line =>
    if line.level = isActive level then none else some ⟨offset, isActive level⟩

theorem setLevel_unchanged {index : Nat} {offset : Offset} {level : UInt8}
    (h : bench.change? index offset level = none) : bench.setLevel index offset level = ([], bench) := by
  unfold setLevel
  split
  · rfl
  · next sim hsim =>
    rw [change?, line?_of_eq hsim, Option.bind_eq_none_iff] at h
    have hsame : ∀ line ∈ sim.line? offset, line.level = isActive level := by
      intro line hline
      by_contra hne
      have hnone := h line hline
      rw [if_neg hne] at hnone
      cases hnone
    obtain ⟨hlt, hget⟩ := List.getElem?_eq_some_iff.mp hsim
    rw [Simulator.setLevel_unchanged hsame]
    simp only [← hget, List.set_getElem_self]

theorem setLevel_changed {index : Nat} {offset : Offset} {level : UInt8} {change : Change}
    (h : bench.change? index offset level = some change) :
    change = ⟨offset, isActive level⟩ ∧ ∃ sim line mid, bench.simulators[index]? = some sim ∧
      sim.line? offset = some line ∧ mid.files = bench.files ∧
      mid.simulators = bench.simulators.set index
        { sim.modifyLine offset ({ · with level := isActive level }) with
          clock := sim.clock + Simulator.eventInterval } ∧
      bench.setLevel index offset level =
        Bench.deliver mid (sim.changed line (isActive level)).record (.undelivered offset)
          (sim.subscribers offset (sim.changed line (isActive level)).edge) := by
  rw [change?] at h
  obtain ⟨line, hline, h⟩ := Option.bind_eq_some_iff.mp h
  obtain ⟨sim, hsim, hline⟩ := Option.bind_eq_some_iff.mp hline
  split at h
  · cases h
  · next hne =>
    refine ⟨(Option.some.inj h).symm, sim, line,
      { bench with
        simulators := bench.simulators.set index
          { sim.modifyLine offset ({ · with level := isActive level }) with
            clock := sim.clock + Simulator.eventInterval } }, hsim, hline, rfl, rfl, ?_⟩
    rw [setLevel, hsim]
    simp only [Simulator.setLevel_changed hline hne]
    rfl

/-- The record of a change goes to the subscribers and to nobody else. -/
theorem setLevel_tells (hfresh : bench.files.Fresh) (hexclusive : bench.Exclusive) {index : Nat}
    {offset : Offset} {level : UInt8} {change : Change}
    (h : bench.change? index offset level = some change) :
    change = ⟨offset, isActive level⟩ ∧ ∃ sim line, bench.simulators[index]? = some sim ∧
      sim.line? offset = some line ∧
      bench.Touches (· ∈ sim.subscribers offset (sim.changed line (isActive level)).edge)
        (bench.setLevel index offset level).2 ∧
      ∀ file ∈ sim.subscribers offset (sim.changed line (isActive level)).edge, ∀ opened,
        bench.files.get? file = some opened →
        (bench.setLevel index offset level).2.files.get? file =
          some (opened.deliver (sim.changed line (isActive level)).record) := by
  obtain ⟨hchange, sim, line, mid, hsim, hline, hfiles, -, hset⟩ := setLevel_changed h
  rw [hset]
  refine ⟨hchange, sim, line, hsim, hline, ?_, fun file hmem opened hopened => ?_⟩
  · exact (touches_deliver mid _ _ _).of_files hfiles
  · rw [← hfiles] at hopened hfresh
    exact get?_deliver hfresh ((hexclusive.simulators index sim hsim).nodup_subscribers _ _) hmem
      hopened _ _

theorem touches_setLevel (bench : Bench) (index : Nat) (offset : Offset) (level : UInt8) :
    ∃ touched, bench.Touches touched (bench.setLevel index offset level).2 := by
  cases hchange : bench.change? index offset level with
  | none =>
      rw [setLevel_unchanged hchange]
      exact ⟨fun _ => False, .of_files_eq rfl⟩
  | some change =>
      obtain ⟨-, _, _, mid, -, -, hfiles, -, hset⟩ := setLevel_changed hchange
      rw [hset]
      exact ⟨_, (touches_deliver mid _ _ _).of_files hfiles⟩

theorem touches_inject (bench : Bench) (index : Nat) (offset : Offset) (injected : List UInt8) :
    ∃ touched, bench.Touches touched (bench.inject index offset injected).2 := by
  unfold inject
  split
  · exact ⟨fun _ => False, .of_files_eq rfl⟩
  · exact ⟨_, bench.touches_deliver injected (.uninjected offset) _⟩

/-- What a feed is told when a level is set. -/
def reports (feed : Feed) (bench : Bench) (index : Nat) (offset : Offset) (level : UInt8) :
    List LineEvent :=
  (if index = feed.index then (bench.change? index offset level).bind
    (feed.report? (bench.clock index + Simulator.eventInterval)) else none).toList

/-- The file of the feed holds these bytes, which its listener has not read. -/
structure Serves (feed : Feed) (bytes : List UInt8) (bench : Bench) : Prop where
  fresh : bench.files.Fresh
  pending : ∃ opened, bench.files.get? feed.file = some opened ∧ opened.source = .socket bytes true
  granted : feed.grant ∈ bench.grants feed.index
  polarity : (bench.line? feed.index feed.offset).map SimLine.activeLow = some feed.activeLow
  elsewhere : ∀ index ≠ feed.index, ∀ grant ∈ bench.grants index, grant.file ≠ feed.file

namespace Serves

theorem file_lt (h : bench.Serves feed bytes) : feed.file < bench.files.next := by
  obtain ⟨opened, hopened, -⟩ := h.pending
  exact Table.get?_lt h.fresh hopened

/-- A line that is listened to from now on. -/
theorem of_requestEvent (hexclusive : bench.Exclusive) (hfresh : bench.files.Fresh) {device : Device}
    {request : EventRequest} {file : FileId}
    (h : Bench.perform device (.requestEvent request) bench = (.ok file, after)) {index : Nat}
    (hindex : device.simulator? = some index) :
    after.Serves ⟨index, request.offset, file, request.edges, request.flags.settings.activeLow⟩ [] := by
  rcases perform_cases h with hpassed | ⟨reply, found, hreply, hgranted⟩
  · rcases hpassed.reason with hnowhere | ⟨error, herror⟩
    · rw [hindex] at hnowhere
      cases hnowhere
    · cases herror
  obtain rfl := Except.ok.inj hreply
  obtain rfl : found = index := Option.some.inj (hgranted.beneath.symm.trans hindex)
  have hfile : file = bench.files.next := by
    obtain ⟨sim, given, changed, -, hcall, hgiven, -⟩ := hgranted.answered
    exact (hgiven nofun).trans (Simulator.settle_eq_ok.mp hcall).1
  have hnext : after.files.next = bench.files.next + 1 := hgranted.next
  refine ⟨(touches_perform h).fresh hfresh, ?_, ?_, ?_, ?_⟩
  · rcases files_perform h with hsame | ⟨opened, hadded, hempty⟩
    · rw [hsame] at hnext
      omega
    · refine ⟨opened, ?_, ?_⟩
      · rw [hadded, hfile, Table.get?_add hfresh, if_pos rfl]
      · rw [hempty (by rw [hindex]; nofun)]
        rfl
  · rw [hgranted.grants, if_pos rfl, hfile]
    exact List.mem_append_right _ (List.mem_singleton_self _)
  · obtain ⟨-, line, -, hline⟩ := line?_requestEvent h hindex
    rw [hline]
    rfl
  · intro other hne grant hgrant
    rw [hgranted.grants, if_neg hne, List.append_nil] at hgrant
    rw [hfile]
    exact Nat.ne_of_lt (hexclusive.fresh other grant hgrant)

/-- The grants are as they were, and the file is not touched. -/
theorem of_beside {driven : Nat → Offset → Prop} {touched : FileId → Prop}
    (h : bench.Serves feed bytes) (hbeside : bench.Beside driven after)
    (hfiles : bench.Touches touched after) {more : List UInt8}
    (hpending : ∃ opened, after.files.get? feed.file = some opened ∧
      opened.source = .socket more true) : after.Serves feed more where
  fresh := hfiles.fresh h.fresh
  pending := hpending
  granted := by
    rw [hbeside.grants]
    exact h.granted
  polarity := by
    obtain ⟨line, hline, hlow⟩ := Option.map_eq_some_iff.mp h.polarity
    obtain ⟨changed, hchanged, halike, -⟩ := hbeside.line? hline
    rw [hchanged, Option.map_some, ← hlow]
    exact congrArg (some ·.activeLow) halike.settings
  elsewhere := by
    rw [hbeside.grants]
    exact h.elsewhere

/-- The file is not touched. -/
theorem of_others {driven : Nat → Offset → Prop} {touched : FileId → Prop}
    (h : bench.Serves feed bytes) (hbeside : bench.Beside driven after)
    (hfiles : bench.Touches touched after) (hnot : ¬ touched feed.file) :
    after.Serves feed bytes := by
  refine h.of_beside hbeside hfiles ?_
  rw [hfiles.others h.fresh feed.file h.file_lt hnot]
  exact h.pending

/-- No file is touched. -/
theorem of_files_eq (h : bench.Serves feed bytes) (hbeside : bench.Beside (fun _ _ => False) after)
    (hfiles : after.files = bench.files) : after.Serves feed bytes := by
  have htouches : bench.Touches (fun _ => False) after := .of_files_eq hfiles
  exact h.of_others hbeside htouches not_false

theorem perform (h : bench.Serves feed bytes) (hexclusive : bench.Exclusive) {device : Device}
    {call : Call} {outcome : Outcome call}
    (hperform : Bench.perform device call bench = (outcome, after)) : after.Serves feed bytes where
  fresh := (touches_perform hperform).fresh h.fresh
  pending := by
    rw [(touches_perform hperform).others h.fresh feed.file h.file_lt not_false]
    exact h.pending
  granted := mem_grants_perform hperform h.granted
  polarity := by
    have hkept := hexclusive.line?_perform hperform fun _ sim hsim given changed hcall =>
      (hexclusive.simulators feed.index sim hsim).not_mem_reach_of_events hcall
        (grants_of_eq hsim ▸ h.granted)
    rw [hkept]
    exact h.polarity
  elsewhere := by
    intro index hne grant hgrant
    rcases perform_cases hperform with hpassed | ⟨reply, found, -, hgranted⟩
    · rw [hpassed.grants] at hgrant
      exact h.elsewhere index hne grant hgrant
    · rw [hgranted.grants] at hgrant
      rcases List.mem_append.mp hgrant with hgrant | hnew
      · exact h.elsewhere index hne grant hgrant
      · split at hnew
        · rw [Call.file_of_mem_grants hnew]
          exact Nat.ne_of_gt h.file_lt
        · cases hnew

/-- Another file is released. -/
theorem releaseAt (h : bench.Serves feed bytes) (hexclusive : bench.Exclusive) {file : FileId}
    (hother : file ≠ feed.file) (device : Device) :
    (Bench.releaseAt device file bench).Serves feed bytes where
  fresh := (touches_releaseAt device file bench).fresh h.fresh
  pending := by
    rw [(touches_releaseAt device file bench).others h.fresh feed.file h.file_lt hother.symm]
    exact h.pending
  granted := mem_grants_releaseAt h.granted fun _ => hother.symm
  polarity := by
    have hkept : (Bench.releaseAt device file bench).line? feed.index feed.offset =
        bench.line? feed.index feed.offset :=
      hexclusive.line?_releaseAt_of_grant h.granted (fun _ => hother.symm) (List.mem_singleton_self _)
    rw [hkept]
    exact h.polarity
  elsewhere := by
    intro index hne grant hgrant
    obtain ⟨sim, hsim, hmem⟩ := mem_grants.mp hgrant
    rw [simulators_releaseAt] at hsim
    refine h.elsewhere index hne grant ?_
    split at hsim
    · obtain ⟨old, hold, rfl⟩ := Option.map_eq_some_iff.mp hsim
      refine mem_grants.mpr ⟨old, hold, ?_⟩
      rcases old.release_eq file with ⟨-, heq⟩ | ⟨_, -, -, -, heq⟩
      · rwa [heq] at hmem
      · rw [heq] at hmem
        exact List.mem_of_mem_filter hmem
    · exact mem_grants.mpr ⟨sim, hsim, hmem⟩

/-- Another file is closed. -/
theorem closeFile (h : bench.Serves feed bytes) {file : FileId} (hother : file ≠ feed.file) :
    (bench.closeFile file).Serves feed bytes := by
  have hbeside : bench.Beside (fun _ _ => False) (bench.closeFile file) := .of_filesOnly ⟨rfl, rfl⟩
  exact h.of_others hbeside (bench.touches_closeFile file) hother.symm

theorem readOther (h : bench.Serves feed bytes) {file : FileId} (hother : file ≠ feed.file)
    (limit : Nat) : (bench.read file limit).2.Serves feed bytes := by
  have hbeside : bench.Beside (fun _ _ => False) (bench.read file limit).2 :=
    .of_filesOnly (bench.filesOnly_read file limit)
  exact h.of_others hbeside (bench.touches_read file limit) hother.symm

/-- The listener reads. -/
theorem read (h : bench.Serves feed bytes) (limit : Nat) :
    (bench.read feed.file limit).2.Serves feed (bytes.drop limit) := by
  have hbeside : bench.Beside (fun _ _ => False) (bench.read feed.file limit).2 :=
    .of_filesOnly (bench.filesOnly_read feed.file limit)
  obtain ⟨opened, hopened, hsource⟩ := h.pending
  exact h.of_beside hbeside (bench.touches_read feed.file limit) (get?_read hopened hsource limit)

theorem watch (h : bench.Serves feed bytes) (file : FileId) :
    (bench.watch file).2.Serves feed bytes := by
  have hbeside : bench.Beside (fun _ _ => False) (bench.watch file).2 :=
    .of_filesOnly (bench.filesOnly_watch file)
  by_cases heq : file = feed.file
  · subst heq
    obtain ⟨opened, hopened, hsource⟩ := h.pending
    obtain ⟨changed, hchanged, hsame⟩ := get?_watch hopened
    exact h.of_beside hbeside (bench.touches_watch feed.file) ⟨changed, hchanged, hsame.trans hsource⟩
  · exact h.of_others hbeside (bench.touches_watch file) (Ne.symm heq)

theorem unwatch (h : bench.Serves feed bytes) (file : FileId) :
    (bench.modifyFile file OpenFile.unwatch).Serves feed bytes := by
  have hbeside : bench.Beside (fun _ _ => False) (bench.modifyFile file OpenFile.unwatch) :=
    .of_filesOnly ⟨rfl, rfl⟩
  refine h.of_beside hbeside (bench.touches_modifyFile file _) ?_
  obtain ⟨opened, hopened, hsource⟩ := h.pending
  rw [modifyFile, Table.get?_modify, hopened]
  split
  · exact ⟨opened.unwatch, rfl, hsource⟩
  · exact ⟨opened, rfl, hsource⟩

theorem inject (h : bench.Serves feed bytes) (hexclusive : bench.Exclusive) {index : Nat}
    {offset : Offset} (hother : ¬ (index = feed.index ∧ offset = feed.offset))
    (injected : List UInt8) : (bench.inject index offset injected).2.Serves feed bytes := by
  have hbeside : bench.Beside (fun _ _ => False) (bench.inject index offset injected).2 :=
    .of_filesOnly (bench.filesOnly_inject index offset injected)
  unfold Bench.inject at hbeside ⊢
  split at hbeside
  · exact h
  · next sim hsim =>
    refine h.of_others hbeside (bench.touches_deliver injected (.uninjected offset) _) ?_
    by_cases heq : index = feed.index
    · subst heq
      exact (hexclusive.simulators _ sim hsim).not_mem_eventFiles (grants_of_eq hsim ▸ h.granted)
        fun hoffset => hother ⟨rfl, hoffset⟩
    · intro hmem
      obtain ⟨grant, hgrant, hfile⟩ := List.mem_map.mp hmem
      exact h.elsewhere index heq grant
        (mem_grants.mpr ⟨sim, hsim, List.mem_of_mem_filter hgrant⟩) hfile

/-- **A change is reported once**, if it concerns the feed, with the time on the clock of the chip. -/
theorem setLevel (h : bench.Serves feed bytes) (hexclusive : bench.Exclusive) (index : Nat)
    (offset : Offset) (level : UInt8) : (bench.setLevel index offset level).2.Serves feed
      (bytes ++ (reports feed bench index offset level).flatMap LineEvent.record) := by
  have hbeside : bench.Beside (fun _ _ => True) (bench.setLevel index offset level).2 :=
    bench.beside_setLevel level trivial
  cases hchange : bench.change? index offset level with
  | none =>
      rw [setLevel_unchanged hchange, reports, hchange, Option.bind_none, ite_self, Option.toList_none,
        List.flatMap_nil, List.append_nil]
      exact h
  | some change =>
      obtain ⟨rfl, sim, line, hsim, hline, hfiles, htold⟩ := setLevel_tells h.fresh hexclusive hchange
      have hclock : bench.clock index = sim.clock := by rw [clock, hsim, Option.elim_some]
      by_cases hindex : index = feed.index
      · subst hindex
        have hgrant : feed.grant ∈ sim.grants := grants_of_eq hsim ▸ h.granted
        have hedge : offset = feed.offset →
            (sim.changed line (isActive level)).edge = feed.edge ⟨offset, isActive level⟩ := by
          rintro rfl
          have hpolarity := h.polarity
          rw [line?_of_eq hsim, hline] at hpolarity
          rw [Simulator.changed, Option.some.inj hpolarity, Feed.edge]
        have hconcerns : feed.file ∈ sim.subscribers offset (sim.changed line (isActive level)).edge ↔
            feed.concerns ⟨offset, isActive level⟩ = true := by
          rw [(hexclusive.simulators feed.index sim hsim).mem_subscribers hgrant, Feed.concerns,
            Bool.and_eq_true, beq_iff_eq]
          exact and_congr_right fun heq => by rw [hedge heq]
        rw [reports, if_pos rfl, hchange, Option.bind_some, hclock, Feed.report?]
        by_cases hmem : feed.concerns ⟨offset, isActive level⟩ = true
        · have hoffset : offset = feed.offset := by simpa using (Bool.and_eq_true_iff.mp hmem).1
          obtain ⟨opened, hopened, hsource⟩ := h.pending
          refine h.of_beside hbeside hfiles ⟨_, htold feed.file (hconcerns.mpr hmem) opened hopened, ?_⟩
          rw [if_pos hmem, Option.toList_some, List.flatMap_singleton, OpenFile.deliver, hsource,
            ← hedge hoffset]
          rfl
        · rw [if_neg hmem, Option.toList_none, List.flatMap_nil, List.append_nil]
          exact h.of_others hbeside hfiles fun htold => hmem (hconcerns.mp htold)
      · rw [reports, if_neg hindex, Option.toList_none, List.flatMap_nil, List.append_nil]
        refine h.of_others hbeside hfiles fun hmem => ?_
        obtain ⟨grant, hgrant, hfile⟩ := List.mem_map.mp hmem
        exact h.elsewhere index hindex grant
          (mem_grants.mpr ⟨sim, hsim, List.mem_of_mem_filter hgrant⟩) hfile

end Serves

end Bench

end GpioLines
