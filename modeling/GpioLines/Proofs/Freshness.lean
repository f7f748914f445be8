import GpioLines.Proofs.Deeds

/-!
# What is vouched for

A line that needs no update is vouched for: what it says of itself is what its device would say. The
operations of the library see to that by asking the device for the members of the group they are
called on. Where a single chip is alone on a simulated chip, nothing else reaches a line, with one
exception. A handle that closes frees every line of its request, and it may close in an operation on
some of them, with a stream, or in a request that gives up. The others are not asked for, so what was
reported of them has lapsed, and the library does not know.
-/

namespace GpioLines

/-! ### What a simulated chip tells -/

namespace Simulator

@[simp] theorem infoFails_modifyAll (sim : Simulator)
    (updates : List (Offset × (SimLine → SimLine))) :
    (sim.modifyAll updates).infoFails = sim.infoFails := by
  obtain ⟨lines, heq, -⟩ := sim.modifyAll_eq updates
  rw [heq]

theorem infoFails_perform (sim : Simulator) (fresh : FileId) (call : Call) :
    (sim.perform fresh call).2.infoFails = sim.infoFails := by
  rcases hperform : sim.perform fresh call with ⟨error | reply, after⟩
  · rw [perform_refused hperform]
  cases call with
  | chipInfo | lineInfo | getValues => exact congrArg infoFails (Prod.mk.inj hperform).2.symm
  | requestLines request =>
      obtain ⟨-, hgranted⟩ := settle_eq_ok.mp hperform
      obtain ⟨-, -, rfl⟩ := requestLines_eq_ok hgranted
      simp
  | requestEvent request =>
      obtain ⟨-, hgranted⟩ := settle_eq_ok.mp hperform
      obtain ⟨-, -, rfl⟩ := requestEvent_eq_ok hgranted
      simp
  | setValues file values =>
      obtain ⟨-, hset⟩ := settle_eq_ok.mp hperform
      obtain ⟨grant, -, -, -, -, rfl⟩ := setValues_eq_ok hset
      simp
  | setConfig file flags values =>
      obtain ⟨-, hset⟩ := settle_eq_ok.mp hperform
      obtain ⟨-, grant, -, -, -, rfl⟩ := setConfig_eq_ok hset
      simp

theorem infoFails_release (sim : Simulator) (file : FileId) :
    (sim.release file).infoFails = sim.infoFails := by
  rcases sim.release_eq file with ⟨-, heq⟩ | ⟨grant, -, -, -, heq⟩
  · rw [heq]
  · rw [heq]
    simp

end Simulator

namespace Bench

variable {bench after : Bench} {index : Nat} {offset : Offset} {info : LineInfo}

/-- Whether a simulated chip fails all queries for metadata; nothing if there is no such chip. -/
def infoFails? (bench : Bench) (index : Nat) : Option Bool :=
  (bench.simulators[index]?).map (·.infoFails)

/-- Asked for the metadata of a line, the simulated chip answers this. -/
structure Tells (bench : Bench) (index : Nat) (offset : Offset) (info : LineInfo) : Prop where
  answers : bench.infoFails? index = some false
  known : ∃ line, bench.line? index offset = some line ∧ line.infoFails = false ∧
    line.info offset = info

theorem tells_iff : bench.Tells index offset info ↔
    (perform (.simulator index) (.lineInfo offset) bench).1 = .ok info := by
  cases hsim : bench.simulators[index]? with
  | none =>
      simp only [perform, performSimulator, hsim]
      refine iff_of_false (fun h => ?_) fun htold => by cases htold
      have hanswers := h.answers
      rw [infoFails?, hsim] at hanswers
      cases hanswers
  | some sim =>
      have hanswer : (perform (.simulator index) (.lineInfo offset) bench).1 =
          (sim.lineInfo offset).mapError (.call .lineInfo ·) := by
        simp only [perform, performSimulator, hsim]
        rfl
      rw [hanswer, Simulator.lineInfo]
      constructor
      · rintro ⟨hanswers, line, hline, hfails, rfl⟩
        rw [infoFails?, hsim] at hanswers
        have hchip : sim.infoFails = false := Option.some.inj hanswers
        rw [line?_of_eq hsim] at hline
        simp [hchip, hline, hfails, Except.mapError]
      · intro htold
        split at htold
        · cases htold
        next hchip =>
        split at htold
        · cases htold
        next line hline =>
        split at htold
        · cases htold
        next hfails =>
        refine ⟨?_, line, (line?_of_eq hsim offset).trans hline, eq_false_of_ne_true hfails,
          Except.ok.inj htold⟩
        rw [infoFails?, hsim, Option.map_some, eq_false_of_ne_true hchip]

theorem Tells.of_info (h : bench.Tells index offset info)
    (hanswers : after.infoFails? = bench.infoFails?)
    (hline : ∀ line, bench.line? index offset = some line → ∃ changed,
      after.line? index offset = some changed ∧ changed.infoFails = line.infoFails ∧
        changed.info offset = line.info offset) : after.Tells index offset info := by
  obtain ⟨line, hknown, hfails, rfl⟩ := h.known
  obtain ⟨changed, hchanged, hsamefails, hsame⟩ := hline line hknown
  exact ⟨hanswers ▸ h.answers, changed, hchanged, hsamefails.trans hfails, hsame⟩

theorem Tells.of_line? (h : bench.Tells index offset info)
    (hanswers : after.infoFails? = bench.infoFails?)
    (hline : after.line? index offset = bench.line? index offset) : after.Tells index offset info :=
  h.of_info hanswers fun line hknown => ⟨line, hline.trans hknown, rfl, rfl⟩

theorem Tells.of_simulators (h : bench.Tells index offset info)
    (hsimulators : after.simulators = bench.simulators) : after.Tells index offset info := by
  refine h.of_line? ?_ (congrFun (congrFun (line?_eq_of_simulators_eq hsimulators) index) offset)
  funext other
  rw [infoFails?, infoFails?, hsimulators]

theorem infoFails?_perform {device : Device} {call : Call} {outcome : Outcome call}
    (h : perform device call bench = (outcome, after)) : after.infoFails? = bench.infoFails? := by
  funext index
  rcases perform_cases h with hpassed | ⟨reply, found, rfl, hgranted⟩
  · rw [infoFails?, infoFails?, hpassed.simulators]
  · obtain ⟨sim, given, changed, hsim, hcall, -, hafter⟩ := hgranted.answered
    have hsame := sim.infoFails_perform bench.files.next call
    rw [hcall] at hsame
    rw [infoFails?, infoFails?, hafter]
    split
    · next heq =>
      rw [heq, hsim]
      exact congrArg some hsame
    · rfl

theorem infoFails?_releaseAt (device : Device) (file : FileId) (bench : Bench) :
    (releaseAt device file bench).infoFails? = bench.infoFails? := by
  funext index
  rw [infoFails?, infoFails?, simulators_releaseAt]
  split
  · rw [Option.map_map]
    exact congrArg (bench.simulators[index]?).map (funext fun sim => sim.infoFails_release file)
  · rfl

/-- Of the lines that a call does not reach the same is told. -/
theorem Exclusive.tells_perform (h : bench.Exclusive) {device : Device} {call : Call}
    {outcome : Outcome call} (hperform : Bench.perform device call bench = (outcome, after))
    (htells : bench.Tells index offset info)
    (hout : ∀ sim : Simulator, bench.simulators[index]? = some sim → offset ∉ sim.reach call) :
    after.Tells index offset info :=
  htells.of_line? (infoFails?_perform hperform)
    (h.line?_perform hperform fun _ sim hsim _ _ _ => hout sim hsim)

/-- The file of a grant reaches the lines of that grant. -/
theorem Exclusive.reach_setConfig (h : bench.Exclusive) {grant : Grant}
    (hgrant : grant ∈ bench.grants index) {sim : Simulator}
    (hsim : bench.simulators[index]? = some sim) (flags : HandleFlags) (values : List UInt8) :
    sim.reach (.setConfig grant.file flags values) = grant.offsets := by
  rw [grants_of_eq hsim] at hgrant
  rw [Simulator.reach, (h.simulators index sim hsim).grant?_eq hgrant, Option.elim_some]

/-- To drive lines changes nothing that is told of any line. -/
theorem Exclusive.tells_setValues (h : bench.Exclusive) {grant : Grant}
    (hgrant : grant ∈ bench.grants index) {values : List UInt8}
    (hlength : values.length = grant.offsets.length)
    (hperform : Bench.perform (.simulator index) (.setValues grant.file values) bench =
      (.ok (), after))
    (htells : bench.Tells index offset info) : after.Tells index offset info := by
  by_cases hmem : offset ∈ grant.offsets
  · obtain ⟨position, hoffset⟩ := List.mem_iff_getElem?.mp hmem
    have hlt : position < values.length := by
      rw [hlength]
      exact (List.getElem?_eq_some_iff.mp hoffset).1
    obtain ⟨line, hline, -, hafter⟩ := h.line?_setValues hperform rfl hgrant hoffset
      (List.getElem?_eq_getElem hlt)
    refine htells.of_info (infoFails?_perform hperform) fun old hold => ?_
    obtain rfl := Option.mem_unique hline hold
    exact ⟨_, hafter, rfl, rfl⟩
  · refine h.tells_perform hperform htells fun sim hsim => ?_
    have hreach : sim.reach (.setValues grant.file values) = grant.offsets :=
      h.reach_setConfig hgrant hsim {} values
    rwa [hreach]

theorem Exclusive.tells_releaseAt (h : bench.Exclusive) {grant : Grant}
    (hgrant : grant ∈ bench.grants index) (hout : offset ∉ grant.offsets)
    (htells : bench.Tells index offset info) :
    (Bench.releaseAt (.simulator index) grant.file bench).Tells index offset info := by
  refine htells.of_line? (infoFails?_releaseAt ..) (h.line?_releaseAt _ _ fun _ found hfound hfile => ?_)
  obtain ⟨sim, hsim, hgrant⟩ := mem_grants.mp hgrant
  rw [grants_of_eq hsim] at hfound
  obtain rfl := (h.simulators index sim hsim).grant_eq_of_file hfound hgrant hfile
  exact hout

end Bench

/-! ### What has lapsed -/

/-- The answer lends a file, and with it the line. -/
def Call.Lends (file : FileId) (offset : Offset) : (call : Call) → Outcome call → Prop
  | .requestLines request, .ok granted => granted = file ∧ offset ∈ request.offsets
  | .requestEvent request, .ok granted => granted = file ∧ offset = request.offset
  | _, _ => False

def Exchange.Lends (device : Device) (file : FileId) (offset : Offset) : Exchange → Prop
  | .call lender asked outcome => lender = device ∧ asked.Lends file offset outcome
  | .release .. => False

/-- A file that the line was lent with was given back, and the device has not reported this of the
line since. -/
def Lapsed (trace : List Exchange) (device : Device) (offset : Offset) (info : LineInfo) : Prop :=
  ∃ before file after, trace = before ++ .release device file :: after ∧
    (∃ exchange ∈ before, exchange.Lends device file offset) ∧
    .call device (.lineInfo offset) (.ok info) ∉ after

theorem Lapsed.append {trace : List Exchange} {device : Device} {offset : Offset} {info : LineInfo}
    (h : Lapsed trace device offset info) {exchange : Exchange}
    (hne : exchange ≠ .call device (.lineInfo offset) (.ok info)) :
    Lapsed (trace ++ [exchange]) device offset info := by
  obtain ⟨before, file, after, rfl, hlent, hnot⟩ := h
  refine ⟨before, file, after ++ [exchange], by simp, hlent, ?_⟩
  rw [List.mem_append, List.mem_singleton, not_or]
  exact ⟨hnot, hne.symm⟩

theorem lapsed_release {trace : List Exchange} {device : Device} {file : FileId} {offset : Offset}
    (hlent : ∃ exchange ∈ trace, exchange.Lends device file offset) (info : LineInfo) :
    Lapsed (trace ++ [.release device file]) device offset info :=
  ⟨trace, file, [], rfl, hlent, List.not_mem_nil⟩

/-- The chip lent the lines of this handle with the file of the handle. -/
structure Handle.LentBy (handle : Handle) (index : Nat) (trace : List Exchange) : Prop where
  device : handle.device = .simulator index
  lines : ∀ offset ∈ handle.offsets, ∃ exchange ∈ trace,
    exchange.Lends (.simulator index) handle.file offset

theorem Handle.LentBy.of_subset {handle : Handle} {index : Nat} {trace more : List Exchange}
    (h : handle.LentBy index trace) (hsubset : trace ⊆ more) : handle.LentBy index more where
  device := h.device
  lines := by
    intro offset hoffset
    obtain ⟨exchange, hmem, hlends⟩ := h.lines offset hoffset
    exact ⟨exchange, hsubset hmem, hlends⟩

theorem Handle.LentBy.of_sameGrant {a b : Handle} {index : Nat} {trace : List Exchange}
    (h : b.LentBy index trace) (hsame : a.SameGrant b) : a.LentBy index trace := by
  obtain ⟨-, hdevice, hfile, hoffsets⟩ := hsame
  refine ⟨hdevice.trans h.device, ?_⟩
  rw [hoffsets, hfile]
  exact h.lines

/-! ### What the library is informed of -/

namespace World

section Vouched

variable {σ : Type} {world : World σ} {line : Line} {info : LineInfo}

theorem vouched_eq_some : world.vouched line = some info ↔
    (world.record line).upToDate = true ∧ (world.record line).info = info := by
  unfold vouched
  split <;> simp [*]

theorem exists_device_of_vouched (h : world.vouched line = some info) :
    ∃ device, world.board.device? line.chip = some device := by
  cases hchip : world.chips[line.chip]? with
  | none =>
      rw [vouched, record, hchip] at h
      cases h
  | some chip => exact ⟨chip.device, by simp only [board, hchip, Option.map_some]⟩

theorem vouched_modifyLine_of_ne {other : Line} (hne : other ≠ line) (f : LineRecord → LineRecord) :
    (world.modifyLine line f).vouched other = world.vouched other := by
  apply vouched_of_record_eq
  rw [record_modifyLine, if_neg fun h => hne h.1]

theorem vouched_attach (line : Line) (id : HandleId) (kind : HandleKind) :
    (world.attach line id kind).vouched = world.vouched := by
  funext other
  simp only [attach, vouched, record_modifyLine]
  split
  · next h =>
    rw [h.1]
    rfl
  · rfl

/-- A chip of which no line was ever touched has nothing that is vouched for. -/
theorem vouched_of_untouched (h : ∀ chip ∈ world.chips, chip.records = .empty) (line : Line) :
    world.vouched line = none := by
  have hrecord : world.record line = .initial line.offset := by
    rw [record]
    cases hchip : world.chips[line.chip]? with
    | none => rfl
    | some chip => rw [Option.elim_some, h chip (List.mem_of_getElem? hchip), LineRecords.get_empty]
  rw [vouched, hrecord]
  rfl

end Vouched

/-- What is vouched for of a line is what the simulated chip tells, or it has lapsed. -/
def Current (world : World (Traced Bench)) (index : Nat) (line : Line) : Prop :=
  ∀ info, world.vouched line = some info → world.bench.Tells index line.offset info ∨
    Lapsed world.trace (.simulator index) line.offset info

end World

/-- The library has a single chip open on a bench, and that on this simulated chip. What it vouches
for of lines that are not due is current. -/
structure Docket.Informed (docket : Docket (Traced Bench)) (index : Nat) : Prop where
  only : ∀ id device, docket.world.board.device? id = some device →
    id = 0 ∧ device = .simulator index
  lent : ∀ id handle, docket.world.handles.get? id = some handle →
    handle.LentBy index docket.world.trace
  current : ∀ line ∉ docket.due, docket.world.Current index line

namespace Docket.Informed

variable {world after : World (Traced Bench)} {due : Set Line} {index : Nat}
  {lent : List (Device × FileId)}

theorem chip_eq (h : Informed ⟨world, due⟩ index) {line : Line} {info : LineInfo}
    (hvouched : world.vouched line = some info) : line.chip = 0 := by
  obtain ⟨device, hdevice⟩ := World.exists_device_of_vouched hvouched
  exact (h.only line.chip device hdevice).1

theorem of_open (h : Informed ⟨world, due⟩ index) {id : ChipId} {chip : Chip}
    (hopen : world.openChip id = .ok chip) : id = 0 ∧ chip.device = .simulator index := by
  apply h.only id chip.device
  simp only [World.board, (World.openChip_eq_ok.mp hopen).1, Option.map_some]

/-- The grant behind a handle. -/
theorem backed (h : Informed ⟨world, due⟩ index) (haccord : world.Accord lent) {id : HandleId}
    {handle : Handle} (hget : world.handles.get? id = some handle) :
    handle.device = .simulator index ∧ ∃ grant ∈ world.bench.grants index, handle.Backed grant := by
  have hdevice := (h.lent id handle hget).device
  refine ⟨hdevice, haccord.lending.backed id handle hget index ?_⟩
  rw [hdevice]
  rfl

/-- No device is involved, and nothing is newly vouched for. -/
theorem of_simulators (h : Informed ⟨world, due⟩ index)
    (hsimulators : after.bench.simulators = world.bench.simulators)
    (htrace : after.trace = world.trace) (hhandles : after.handles = world.handles)
    (hdevice : after.board.device? = world.board.device?)
    (hvouched : ∀ line info, after.vouched line = some info → world.vouched line = some info) :
    Informed ⟨after, due⟩ index := by
  refine ⟨?_, ?_, fun line hline info hinfo => ?_⟩
  · rw [hdevice]
    exact h.only
  · rw [hhandles, htrace]
    exact h.lent
  · rw [htrace]
    exact (h.current line hline info (hvouched line info hinfo)).imp_left (·.of_simulators hsimulators)

/-- A call may change what is told of the lines that it makes due. -/
theorem call (h : Informed ⟨world, due⟩ index) {device : Device} {call : Call}
    {outcome : Outcome call} (hperform : world.perform device call = (outcome, after))
    (taken : Set Line) (hkeeps : ∀ line ∉ taken, line.chip = 0 → ∀ info,
      world.bench.Tells index line.offset info → after.bench.Tells index line.offset info) :
    Informed ⟨after, due ∪ taken⟩ index := by
  obtain ⟨bench, hbench, rfl⟩ := World.perform_bench hperform
  refine ⟨h.only, fun id handle hget => ?_, fun line hline info hinfo => ?_⟩
  · exact (h.lent id handle hget).of_subset (List.subset_append_left _ _)
  · rw [Set.mem_union, not_or] at hline
    have hkept := hkeeps line hline.2 (h.chip_eq hinfo) info
    rcases h.current line hline.1 info hinfo with htells | hlapsed
    · exact Or.inl (hkept htells)
    · by_cases hsame : Exchange.call device call outcome =
          .call (.simulator index) (.lineInfo line.offset) (.ok info)
      · cases hsame
        exact Or.inl (hkept (Bench.tells_iff.mpr (congrArg Prod.fst hbench)))
      · exact Or.inr (hlapsed.append hsame)

/-- A call that only asks, or that was refused. -/
theorem ask (h : Informed ⟨world, due⟩ index) {device : Device} {call : Call}
    {outcome : Outcome call} (hperform : world.perform device call = (outcome, after))
    (hasks : call.Asks ∨ ∃ error, outcome = .error error) : Informed ⟨after, due⟩ index := by
  rw [← Set.union_empty due]
  refine h.call hperform ∅ fun line _ _ info htells => ?_
  obtain ⟨bench, hbench, rfl⟩ := World.perform_bench hperform
  exact htells.of_simulators (Bench.simulators_asked hbench hasks)

/-- The record of a line is brought into line with the device, and the line is settled. -/
theorem settle (h : Informed ⟨world, due⟩ index) {line : Line} {f : LineRecord → LineRecord}
    (hcurrent : (world.modifyLine line f).Current index line) :
    Informed ⟨world.modifyLine line f, due \ {line}⟩ index := by
  refine ⟨?_, h.lent, fun other hother info hinfo => ?_⟩
  · rw [World.device?_modifyLine]
    exact h.only
  · by_cases heq : other = line
    · subst heq
      exact hcurrent info hinfo
    · rw [World.vouched_modifyLine_of_ne heq] at hinfo
      exact h.current other (fun hmem => hother ⟨hmem, heq⟩) info hinfo

theorem learn (h : Informed ⟨world, due⟩ index) {line : Line} {chip : Chip} {info : LineInfo}
    (hopen : world.openChip line.chip = .ok chip)
    (htold : world.perform chip.device (.lineInfo line.offset) = (.ok info, after)) :
    Informed ⟨after.modifyLine line (·.refreshed info), due \ {line}⟩ index := by
  refine (h.ask htold (Or.inl trivial)).settle fun found hfound => Or.inl ?_
  have hinfo := (World.vouched_eq_some.mp hfound).2
  rw [World.record_modifyLine_self ((World.openChip_of_perform htold).symm ▸ hopen)] at hinfo
  obtain rfl : info = found := hinfo
  obtain ⟨bench, hbench, rfl⟩ := World.perform_bench htold
  rw [(h.of_open hopen).2] at hbench
  have htells : world.bench.Tells index line.offset info :=
    Bench.tells_iff.mpr (congrArg Prod.fst hbench)
  exact htells.of_simulators (Bench.simulators_asked hbench (Or.inl trivial))

theorem doubt (h : Informed ⟨world, due⟩ index) {line : Line} {chip : Chip} {error : Error}
    (hopen : world.openChip line.chip = .ok chip)
    (htold : world.perform chip.device (.lineInfo line.offset) = (.error error, after)) :
    Informed ⟨after.modifyLine line (·.stale), due \ {line}⟩ index := by
  refine (h.ask htold (Or.inl trivial)).settle fun found hfound => ?_
  have hfresh := (World.vouched_eq_some.mp hfound).1
  rw [World.record_modifyLine_self ((World.openChip_of_perform htold).symm ▸ hopen)] at hfresh
  cases hfresh

theorem openHandle (h : Informed ⟨world, due⟩ index) (hfresh : world.handles.Fresh)
    {handle : Handle} (hlent : handle.LentBy index world.trace) :
    Informed ⟨world.openHandle handle, due⟩ index := by
  refine ⟨h.only, fun id found hget => ?_, h.current⟩
  change (world.handles.add handle).get? id = some found at hget
  rw [Table.get?_add hfresh] at hget
  split at hget
  · obtain rfl := Option.some.inj hget
    exact hlent
  · exact h.lent id found hget

theorem modifyHandle (h : Informed ⟨world, due⟩ index) (id : HandleId) {f : Handle → Handle}
    (hf : ∀ handle, (f handle).SameGrant handle) :
    Informed ⟨{ world with handles := world.handles.modify id f }, due⟩ index := by
  refine ⟨h.only, fun key found hget => ?_, h.current⟩
  change (world.handles.modify id f).get? key = some found at hget
  rw [Table.get?_modify] at hget
  split at hget
  · obtain ⟨old, hold, rfl⟩ := Option.map_eq_some_iff.mp hget
    exact (h.lent key old hold).of_sameGrant (hf old)
  · exact h.lent key found hget

/-- A request for values or for events is granted. -/
theorem grant (h : Informed ⟨world, due⟩ index) (haccord : world.Accord lent) (handle : Handle)
    {call : Call} {outcome : Outcome call}
    (hperform : world.perform handle.device call = (outcome, after)) (taken : Set Line)
    (hreach : ∀ line ∉ taken, line.chip = 0 → ∀ sim : Simulator, line.offset ∉ sim.reach call)
    (hdevice : handle.device = .simulator index)
    (hlends : ∀ offset ∈ handle.offsets, call.Lends handle.file offset outcome) :
    Informed ⟨after.openHandle handle, due ∪ taken⟩ index := by
  obtain ⟨bench, hbench, rfl⟩ := World.perform_bench hperform
  have hcalled := h.call hperform taken fun line hline hchip info htells =>
    haccord.bench.tells_perform hbench htells fun sim _ => hreach line hline hchip sim
  refine hcalled.openHandle haccord.fresh ⟨hdevice, fun offset hoffset => ?_⟩
  exact ⟨_, List.mem_append_right _ (List.mem_singleton_self _), hdevice, hlends offset hoffset⟩

theorem drive (h : Informed ⟨world, due⟩ index) (haccord : world.Accord lent) {id : HandleId}
    {handle : Handle} (hget : world.handles.get? id = some handle) {values : List UInt8}
    (hlength : values.length = handle.offsets.length)
    (hperform : world.perform handle.device (.setValues handle.file values) = (.ok (), after)) :
    Informed ⟨{ after with handles := after.handles.modify id (·.driven values) }, due⟩ index := by
  obtain ⟨hdevice, grant, hgrant, hbacked⟩ := h.backed haccord hget
  have hcalled : Informed ⟨after, due ∪ ∅⟩ index := h.call hperform ∅ fun line _ _ info htells => by
    obtain ⟨bench, hbench, rfl⟩ := World.perform_bench hperform
    rw [hdevice, ← hbacked.file] at hbench
    exact haccord.bench.tells_setValues hgrant (hbacked.offsets ▸ hlength) hbench htells
  rw [Set.union_empty] at hcalled
  exact hcalled.modifyHandle id fun _ => ⟨rfl, rfl, rfl, rfl⟩

theorem configure (h : Informed ⟨world, due⟩ index) (haccord : world.Accord lent) {group : Group}
    {chip : Chip} {chipId : ChipId} {id : HandleId} {handle : Handle} {flags : HandleFlags}
    {values : List UInt8} (honchip : world.OnChip group chip chipId)
    (hcovers : world.Covers group id handle)
    (hperform : world.perform handle.device (.setConfig handle.file flags values) = (.ok (), after)) :
    Informed ⟨{ after with handles := after.handles.modify id (·.configured flags values) },
      due ∪ {line | line ∈ group.lines}⟩ index := by
  obtain ⟨hid, -⟩ := h.of_open honchip.isOpen
  obtain ⟨-, grant, hgrant, hbacked⟩ := h.backed haccord hcovers.found
  have hcalled := h.call hperform {line | line ∈ group.lines} fun line hline hchip info htells => by
    obtain ⟨bench, hbench, rfl⟩ := World.perform_bench hperform
    refine haccord.bench.tells_perform hbench htells fun sim hsim hmem => ?_
    rw [← hbacked.file, haccord.bench.reach_setConfig hgrant hsim, hbacked.offsets] at hmem
    exact honchip.not_mem_offsets (hchip.trans hid.symm) hline (hcovers.complete line.offset hmem)
  exact hcalled.modifyHandle id fun _ => ⟨rfl, rfl, rfl, rfl⟩

/-- A handle closes: what was reported of its lines has lapsed. -/
theorem close (h : Informed ⟨world, due⟩ index) (haccord : world.Accord lent) {id : HandleId}
    {handle : Handle} (hget : world.handles.get? id = some handle) :
    Informed ⟨world.closeHandle id, due \ {line | line.offset ∈ handle.offsets}⟩ index := by
  obtain ⟨hdevice, grant, hgrant, hbacked⟩ := h.backed haccord hget
  have hlines := (h.lent id handle hget).lines
  rw [World.closeHandle_eq hget]
  refine ⟨h.only, fun key found hfound => ?_, fun line hline info hinfo => ?_⟩
  · change (world.handles.erase id).get? key = some found at hfound
    rw [Table.get?_erase] at hfound
    split at hfound
    · cases hfound
    · exact (h.lent key found hfound).of_subset (List.subset_append_left _ _)
  · change _ ∨ Lapsed (world.trace ++ [.release handle.device handle.file]) (.simulator index)
      line.offset info
    rw [hdevice]
    by_cases hmem : line.offset ∈ handle.offsets
    · exact Or.inr (lapsed_release (hlines line.offset hmem) info)
    · refine (h.current line (fun hdue => hline ⟨hdue, hmem⟩) info hinfo).imp (fun htells => ?_)
        fun hlapsed => hlapsed.append fun heq => by cases heq
      rw [← hbacked.file]
      exact (haccord.bench.tells_releaseAt hgrant (hbacked.offsets ▸ hmem) htells).of_simulators rfl

/-- No line was touched yet. -/
theorem of_untouched (h : Informed ⟨world, due⟩ index) (hhandles : after.handles = world.handles)
    (htrace : world.trace ⊆ after.trace)
    (honly : ∀ id device, after.board.device? id = some device → id = 0 ∧ device = .simulator index)
    (huntouched : ∀ chip ∈ after.chips, chip.records = .empty) :
    Informed ⟨after, due⟩ index := by
  refine ⟨honly, fun id handle hget => ?_, fun line _ info hinfo => ?_⟩
  · change after.handles.get? id = some handle at hget
    rw [hhandles] at hget
    exact (h.lent id handle hget).of_subset htrace
  · have hvouched : after.vouched line = some info := hinfo
    rw [World.vouched_of_untouched huntouched] at hvouched
    cases hvouched

theorem openChipOn (h : Informed ⟨world, due⟩ index) (hnone : world.chips = []) :
    Informed ⟨(world.openChipOn (.simulator index)).2, due⟩ index := by
  unfold World.openChipOn
  split
  · next error after hperform => exact h.ask hperform (Or.inl trivial)
  · next info after hperform =>
    obtain ⟨bench, -, rfl⟩ := World.perform_bench hperform
    refine h.of_untouched rfl (List.subset_append_left _ _) ?_ ?_
    · intro id device hdevice
      obtain ⟨chip, hchip, rfl⟩ := Option.map_eq_some_iff.mp hdevice
      change (world.chips ++ [Chip.ofInfo (.simulator index) info])[id]? = some chip at hchip
      rw [hnone, List.nil_append, List.getElem?_singleton] at hchip
      split at hchip
      · next hid =>
        obtain rfl := Option.some.inj hchip
        exact ⟨hid, rfl⟩
      · cases hchip
    · intro chip hchip
      change chip ∈ world.chips ++ [Chip.ofInfo (.simulator index) info] at hchip
      rw [hnone, List.nil_append] at hchip
      obtain rfl := List.mem_singleton.mp hchip
      rfl

end Docket.Informed

/-! ### Deal by deal -/

variable {adds : Prop} {before after : Docket (Traced Bench)} {lent : List (Device × FileId)}
  {index : Nat}

theorem Deal.informed (hdeal : Deal adds before after) (hadds : ¬ adds)
    (haccord : before.world.Accord lent) (h : before.Informed index) : after.Informed index := by
  cases hdeal with
  | pass hkeeps =>
      refine h.of_simulators ?_ ?_ hkeeps.handles hkeeps.device hkeeps.vouched
      · rw [World.bench, hkeeps.machine]
      · rw [World.trace, hkeeps.machine]
  | openChip allowed => exact absurd allowed hadds
  | @read world _ file size =>
      exact h.of_simulators (world.bench.filesOnly_read file size).simulators rfl rfl rfl fun _ _ => id
  | @watch world _ file =>
      exact h.of_simulators (world.bench.filesOnly_watch file).simulators rfl rfl rfl fun _ _ => id
  | unwatch => exact h.of_simulators rfl rfl rfl rfl fun _ _ => id
  | ask hquiet _ htold => exact h.ask htold hquiet.asks
  | learn hopen htold => exact h.learn hopen htold
  | doubt hopen htold => exact h.doubt hopen htold
  | @take world granted due group config defaults chip id file honchip _ hgranted =>
      obtain ⟨hid, hdevice⟩ := h.of_open honchip.isOpen
      have hreach : ∀ line ∉ {line | line ∈ group.lines}, line.chip = 0 → ∀ sim : Simulator,
          line.offset ∉ sim.reach (.requestLines (World.linesRequest group config defaults)) :=
        fun line hline hchip sim => honchip.not_mem_offsets (hchip.trans hid.symm) hline
      exact h.grant haccord (World.linesHandle chip.device file group config defaults) hgranted _ hreach
        hdevice fun offset hoffset => ⟨rfl, hoffset⟩
  | @listen world granted due line config chip file hopen hgranted =>
      obtain ⟨hid, hdevice⟩ := h.of_open hopen
      have hreach : ∀ other ∉ ({line} : Set Line), other.chip = 0 → ∀ sim : Simulator,
          other.offset ∉ sim.reach (.requestEvent (World.eventRequest config line)) := by
        intro other hother hchip sim hmem
        exact hother (Line.eq_of_offset (hchip.trans hid.symm) (List.mem_singleton.mp hmem))
      have hgrant := h.grant haccord (World.eventGrant chip.device config line file) hgranted {line}
        hreach hdevice fun offset hoffset => ⟨rfl, List.mem_singleton.mp hoffset⟩
      rwa [Set.union_singleton] at hgrant
  | attach =>
      refine h.of_simulators rfl rfl rfl (World.device?_modifyLine ..) fun line info hinfo => ?_
      rwa [World.vouched_attach] at hinfo
  | drive hfound hlength _ hdriven => exact h.drive haccord hfound hlength hdriven
  | configure honchip hcovers _ _ hconfigured =>
      exact h.configure haccord honchip hcovers hconfigured
  | close hfound => exact h.close haccord hfound

theorem Deals.informed (hdeals : Deals adds before after) (hadds : ¬ adds)
    (haccord : before.world.Accord lent) (h : before.Informed index) : after.Informed index := by
  induction hdeals with
  | refl => exact h
  | tail hdeals hdeal ih => exact hdeal.informed hadds (Deals.accord hdeals haccord) ih

/-! ### Alone on a simulated chip -/

namespace Workshop

variable {workshop : Workshop}

/-- One chip is opened, on this simulated chip, and from then on nothing is done beside the
library. -/
def Alone (index : Nat) (workshop : Workshop) : Act → Prop
  | .deed _ => workshop.world.chips.isEmpty = true
  | .operation (.openChip device) =>
    workshop.world.chips.isEmpty = true ∧ device = .simulator index
  | .operation _ => True

instance (index : Nat) (workshop : Workshop) : (act : Act) → Decidable (workshop.Alone index act)
  | .deed _ => inferInstanceAs (Decidable (workshop.world.chips.isEmpty = true))
  | .operation (.openChip device) =>
    inferInstanceAs (Decidable (workshop.world.chips.isEmpty = true ∧ device = .simulator index))
  | .operation (.closeChip _) | .operation (.getLine ..) | .operation (.getLines ..)
  | .operation (.getAllLines _) | .operation (.findLine ..) | .operation (.gather _)
  | .operation (.append ..) | .operation (.single _) | .operation (.onGroup ..)
  | .operation (.release _) | .operation (.refresh _) | .operation (.readEvent _)
  | .operation (.readEvents ..) | .operation (.openStream _) | .operation (.nextEvent _)
  | .operation (.dropStream _) | .operation .newToken | .operation (.cancel _)
  | .operation (.wait ..) => instDecidableTrue

theorem Reachable.informed {index : Nat} (h : Reachable (Alone index) workshop) :
    Docket.Informed ⟨workshop.world, ∅⟩ index := by
  induction h with
  | start => exact ⟨nofun, nofun, fun line _ info hinfo => by cases hinfo⟩
  | @act workshop act before hcan hallowed ih =>
      cases act with
      | deed deed =>
          have hnone : workshop.world.chips = [] := List.isEmpty_iff.mp hallowed
          obtain ⟨bench, more, log, hclient⟩ := (worked_work hcan).client_eq
          change Docket.Informed ⟨(workshop.work deed).client.world, ∅⟩ index
          rw [hclient]
          refine ih.of_untouched rfl (List.subset_append_left _ _) ih.only fun chip hchip => ?_
          change chip ∈ workshop.world.chips at hchip
          rw [hnone] at hchip
          cases hchip
      | operation operation =>
          by_cases hadds : operation.AddsChip
          · cases operation with
            | openChip device =>
                obtain ⟨hempty, rfl⟩ := hallowed
                exact ih.openChipOn (List.isEmpty_iff.mp hempty)
            | _ => cases hadds
          · have hsound := before.sound
            have hgroups : ∀ group ∈ operation.groups, group.WellFormed := fun group hgroup =>
              hsound.client.groups group (hcan.1 group hgroup)
            exact (operation.deals hsound.client.desk hgroups).informed hadds hsound.accord ih

end Workshop

end GpioLines
