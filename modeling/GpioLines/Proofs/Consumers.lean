import GpioLines.Proofs.Histories
import GpioLines.Proofs.Marks

/-!
# Who holds a line

A simulated chip marks a line that it grants as used, by the consumer that the request names. The
marks stay as long as the request holds the line: whoever drives, reconfigures or looks at it leaves
them alone, and nobody else is granted it. Only a hog, which marks a line from outside, writes over
them. Which consumer it was is told from the trace, so the marks can be compared with it.
-/

namespace GpioLines

/-! ### The marks of a line -/

/-- The line is marked as used by this consumer. One without a name is none. -/
structure SimLine.Bears (line : SimLine) (consumer : String) : Prop where
  used : line.flags.used = true
  consumer : line.consumer = if consumer = "" then none else some consumer

namespace SimLine

variable {line changed : SimLine} {consumer : String}

theorem bears_take (line : SimLine) (consumer : String) : (line.take consumer).Bears consumer :=
  ⟨rfl, rfl⟩

theorem Bears.of_marks (h : line.Bears consumer) (hmarks : changed.marks = line.marks) :
    changed.Bears consumer :=
  ⟨(congrArg Marks.used hmarks).trans h.used, (congrArg Marks.consumer hmarks).trans h.consumer⟩

theorem Bears.configure (h : line.Bears consumer) (flags : HandleFlags) (value : UInt8) :
    (line.configure flags value).Bears consumer :=
  h.of_marks (line.marks_configure flags value)

end SimLine

/-- A simulated chip has the line, and it is marked as used by this consumer. -/
def Bench.Bears (bench : Bench) (index : Nat) (offset : Offset) (consumer : String) : Prop :=
  ∃ line, bench.line? index offset = some line ∧ line.Bears consumer

theorem Bench.Bears.of_marks? {bench after : Bench} {index : Nat} {offset : Offset} {consumer : String}
    (h : bench.Bears index offset consumer)
    (hmarks : after.marks? index offset = bench.marks? index offset) :
    after.Bears index offset consumer := by
  obtain ⟨line, hline, hbears⟩ := h
  rw [Bench.marks?, Bench.marks?, hline, Option.map_some, Option.map_eq_some_iff] at hmarks
  obtain ⟨changed, hchanged, hmarks⟩ := hmarks
  exact ⟨changed, hchanged, hbears.of_marks hmarks⟩

/-! ### The consumer of a file -/

/-- The consumer that this file is granted to, if the exchange does so. -/
def Exchange.consumer? (device : Device) (file : FileId) : Exchange → Option String
  | .call party (.requestLines request) (.ok granted) =>
    if party = device ∧ granted = file then some request.consumer else none
  | .call party (.requestEvent request) (.ok granted) =>
    if party = device ∧ granted = file then some request.consumer else none
  | _ => none

/-- The consumer that a file was granted to. -/
def consumerOf (device : Device) (file : FileId) (trace : List Exchange) : Option String :=
  (trace.filterMap (Exchange.consumer? device file)).getLast?

section Traces

variable {device : Device} {file : FileId} {trace later made : List Exchange}

theorem Exchange.consumer?_of_not_settles {exchange : Exchange}
    (h : ¬ exchange.Settles device file) : exchange.consumer? device file = none := by
  cases exchange with
  | release => rfl
  | call party call outcome =>
      cases call <;> cases outcome
      case requestLines.ok | requestEvent.ok => exact if_neg h
      all_goals rfl

theorem consumerOf_append : consumerOf device file (trace ++ made) =
    (consumerOf device file made).or (consumerOf device file trace) := by
  rw [consumerOf, List.filterMap_append, List.getLast?_append]
  rfl

/-- What grants nothing of the file tells nothing of its consumer. -/
theorem consumerOf_append_of_none
    (h : ∀ exchange ∈ made, exchange.consumer? device file = none) :
    consumerOf device file (trace ++ made) = consumerOf device file trace := by
  rw [consumerOf_append, consumerOf, List.filterMap_eq_nil_iff.mpr h]
  rfl

theorem consumerOf_append_call {exchange : Exchange} (h : exchange.consumer? device file = none) :
    consumerOf device file (trace ++ [exchange]) = consumerOf device file trace :=
  consumerOf_append_of_none fun _ hmem => List.mem_singleton.mp hmem ▸ h

theorem Silent.consumerOf (h : Silent device file trace later) :
    consumerOf device file later = consumerOf device file trace := by
  obtain ⟨made, rfl, hsilent⟩ := h
  exact consumerOf_append_of_none fun exchange hmem =>
    Exchange.consumer?_of_not_settles (hsilent exchange hmem)

theorem consumerOf_append_of_some {exchange : Exchange} {consumer : String}
    (h : exchange.consumer? device file = some consumer) :
    consumerOf device file (trace ++ [exchange]) = some consumer := by
  have hmade : consumerOf device file [exchange] = some consumer := by
    rw [consumerOf, List.filterMap_cons, h]
    rfl
  rw [consumerOf_append, hmade]
  rfl

end Traces

/-! ### The lines of the open handles -/

/-- The lines of a handle bear the marks of the consumer that its file was granted to. -/
def World.Labels (world : World (Traced Bench)) (handle : Handle) (index : Nat) : Prop :=
  ∃ consumer, consumerOf handle.device handle.file world.trace = some consumer ∧
    ∀ offset ∈ handle.offsets, world.bench.Bears index offset consumer

/-- A call that grants nothing and leaves the marks of the lines leaves the handle labelled. -/
theorem World.Labels.called {before after : World (Traced Bench)} {handle : Handle} {index : Nat}
    (h : before.Labels handle index) {exchange : Exchange}
    (htrace : after.trace = before.trace ++ [exchange])
    (hgrants : exchange.consumer? handle.device handle.file = none)
    (hlines : ∀ offset ∈ handle.offsets, ∀ consumer, before.bench.Bears index offset consumer →
      after.bench.Bears index offset consumer) : after.Labels handle index := by
  obtain ⟨consumer, hconsumer, hmarks⟩ := h
  refine ⟨consumer, ?_, fun offset hmem => hlines offset hmem consumer (hmarks offset hmem)⟩
  rw [htrace]
  exact (consumerOf_append_call hgrants).trans hconsumer

def World.Labelled (world : World (Traced Bench)) : Prop :=
  ∀ id handle, world.handles.get? id = some handle →
    ∀ index, handle.device.simulator? = some index → world.Labels handle index

section Deals

variable {adds : Prop} {before after : Docket (Traced Bench)} {lent : List (Device × FileId)}

theorem Deal.labelled (hdeal : Deal adds before after) (haccord : before.world.Accord lent)
    (h : before.world.Labelled) : after.world.Labelled := by
  intro id handle hget index hindex
  have hsim : handle.device.simulator? ≠ none := by
    rw [hindex]
    nofun
  cases hdeal.fate haccord hget hsim with
  | kept found silent lines =>
      obtain ⟨consumer, hconsumer, hlines⟩ := h id handle found index hindex
      refine ⟨consumer, silent.consumerOf.trans hconsumer, fun offset hmem => ?_⟩
      rw [Bench.Bears, lines index hindex offset hmem]
      exact hlines offset hmem
  | @taken _ request _ hkind hvalid hoffsets _ hvalues told htrace =>
      have hlength := hvalid.values_length hkind
      refine ⟨request.consumer, ?_, fun offset hmem => ?_⟩
      · rw [htrace]
        exact consumerOf_append_of_some (if_pos ⟨rfl, rfl⟩)
      · obtain ⟨position, hposition⟩ := List.mem_iff_getElem?.mp hmem
        obtain ⟨value, hvalue, -⟩ := Bench.exists_bit hlength hvalid.bits hposition
        rw [hoffsets, hvalues] at hlength
        obtain ⟨-, line, -, hafter⟩ := Bench.line?_requestLines told hindex hlength
          (hoffsets ▸ hposition) (hvalues ▸ hvalue)
        exact ⟨_, hafter, (line.bears_take _).configure _ _⟩
  | @listened _ request _ _ hoffsets _ told htrace =>
      refine ⟨request.consumer, ?_, fun offset hmem => ?_⟩
      · rw [htrace]
        exact consumerOf_append_of_some (if_pos ⟨rfl, rfl⟩)
      · rw [hoffsets] at hmem
        obtain rfl := List.mem_singleton.mp hmem
        obtain ⟨-, line, -, hafter⟩ := Bench.line?_requestEvent told hindex
        exact ⟨_, hafter, (line.bears_take _).of_marks (SimLine.marks_applyFlags ..)⟩
  | @driven old values found hlength _ told htrace =>
      exact (h id old found index hindex).called htrace rfl fun offset _ consumer hbears =>
        hbears.of_marks? (haccord.bench.marks?_perform told fun _ => List.not_mem_nil)
  | @configured old flags values found hlength _ told htrace =>
      exact (h id old found index hindex).called htrace rfl fun offset _ consumer hbears =>
        hbears.of_marks? (haccord.bench.marks?_perform told fun _ => List.not_mem_nil)

theorem Deals.labelled (hdeals : Deals adds before after) (haccord : before.world.Accord lent)
    (h : before.world.Labelled) : after.world.Labelled := by
  induction hdeals with
  | refl => exact h
  | tail hdeals hdeal ih => exact hdeal.labelled (Deals.accord hdeals haccord) ih

end Deals

/-! ### Beside the library -/

namespace Workshop

variable {workshop : Workshop}

/-- No line is hogged that an open handle has. -/
def Unhogged (workshop : Workshop) : Act → Prop
  | .deed (.control index (.hog offset _)) => ∀ entry ∈ workshop.world.handles.entries,
    entry.2.device.simulator? = some index → offset ∉ entry.2.offsets
  | _ => True

instance (workshop : Workshop) : (act : Act) → Decidable (workshop.Unhogged act)
  | .deed (.control index (.hog offset _)) =>
    inferInstanceAs (Decidable (∀ entry ∈ workshop.world.handles.entries,
      entry.2.device.simulator? = some index → offset ∉ entry.2.offsets))
  | .operation _ | .deed (.addSimulator ..) | .deed (.addProbe ..) | .deed (.addFault ..)
  | .deed (.setAnswers _) | .deed (.control _ (.setName ..)) | .deed (.control _ (.failInfo _))
  | .deed (.control _ (.failInfoAt ..)) | .deed (.setLevel ..) | .deed (.inject ..)
  | .deed (.call ..) | .deed (.read ..) | .deed (.release ..) | .deed (.close ..) =>
    instDecidableTrue

theorem Unhogged.spares {chip : Nat} {control : Control}
    (h : workshop.Unhogged (.deed (.control chip control))) (hsound : workshop.client.Sound)
    {id : HandleId} {handle : Handle} (hget : workshop.world.handles.get? id = some handle)
    {index : Nat} (hindex : handle.device.simulator? = some index) {offset : Offset}
    (hmem : offset ∈ handle.offsets) : chip = index → ¬ control.Hogs offset := by
  rintro rfl
  cases control with
  | hog hogged consumer =>
      rintro rfl
      have hentry := hsound.desk.ledger.handles_ascending.mem_entries_iff.mpr hget
      exact h (id, handle) hentry hindex hmem
  | _ => exact not_false

theorem labelled_work (hsound : workshop.Sound) {deed : Deed} (hcan : workshop.CanWork deed)
    (hallowed : workshop.Unhogged (.deed deed)) (h : workshop.world.Labelled) :
    (workshop.work deed).world.Labelled := by
  have hworked := worked_work hcan
  intro id handle hget index hindex
  have hsim : handle.device.simulator? ≠ none := by
    rw [hindex]
    nofun
  have hheld : workshop.world.handles.get? id = some handle := hworked.handles ▸ hget
  have hsilent := hworked.silent hsound.accord hheld hsim
  obtain ⟨consumer, hconsumer, hlines⟩ := h id handle hheld index hindex
  refine ⟨consumer, hsilent.consumerOf.trans hconsumer, fun offset hmem => ?_⟩
  have hbears := hlines offset hmem
  have hlending := hsound.accord.lending
  obtain ⟨grant, hgrant, hfile, hoffsets, -⟩ := hlending.backed id handle hheld index hindex
  cases deed with
  | addSimulator name lineCount =>
      obtain ⟨line, hline, -⟩ := hbears
      exact (hlines offset hmem).of_marks? (Bench.marks?_addSimulator hline name lineCount)
  | addProbe | setAnswers | close => exact hbears
  | addFault device fault =>
      exact hbears.of_marks? (Bench.marks?_of_simulators (Bench.filesOnly_addFault ..).simulators)
  | inject chip other bytes =>
      exact hbears.of_marks? (Bench.marks?_of_simulators (Bench.filesOnly_inject ..).simulators)
  | read file limit =>
      exact hbears.of_marks? (Bench.marks?_of_simulators (Bench.filesOnly_read ..).simulators)
  | control chip control =>
      exact hbears.of_marks?
        (Bench.marks?_control (hallowed.spares hsound.client hheld hindex hmem))
  | setLevel chip other level => exact hbears.of_marks? (Bench.marks?_setLevel ..)
  | call device call =>
      rcases hperform : workshop.world.perform device call with ⟨outcome, last⟩
      have hafter : (workshop.work (.call device call)).world = last := by
        rw [work, Workshop.call, hperform]
        rfl
      obtain ⟨bench, hbench, rfl⟩ := World.perform_bench hperform
      rw [hafter]
      refine hbears.of_marks? (Bench.marks?_of_line?
        (hsound.accord.bench.line?_perform_of_grant hbench hgrant (fun hsame hnamed => ?_)
          (hoffsets ▸ hmem)))
      rw [hfile] at hnamed
      exact hlending.apart id handle hheld _ (hcan handle.file hnamed) index hindex hsame rfl
  | release device file =>
      refine hbears.of_marks? (Bench.marks?_of_line?
        (hsound.accord.bench.line?_releaseAt_of_grant hgrant (fun hsame heq => ?_)
          (hoffsets ▸ hmem)))
      exact hlending.apart id handle hheld _ hcan index hindex hsame (heq.symm.trans hfile)

/-- **The lines of every open handle bear the marks of its consumer.** -/
theorem Reachable.labelled (h : Reachable Unhogged workshop) : workshop.world.Labelled := by
  induction h with
  | start => exact fun id handle hget => by cases (hget : none = some handle)
  | @act workshop act before hcan hallowed ih =>
      have hsound := before.sound
      cases act with
      | operation operation =>
          have hgroups : ∀ group ∈ operation.groups, group.WellFormed := fun group hgroup =>
            hsound.client.groups group (hcan.1 group hgroup)
          exact (operation.deals hsound.client.desk hgroups).labelled hsound.accord ih
      | deed deed => exact labelled_work hsound hcan hallowed ih

end Workshop

end GpioLines
