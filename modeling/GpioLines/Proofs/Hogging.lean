import GpioLines.Proofs.Freshness
import GpioLines.Proofs.Granting
import GpioLines.Proofs.Marks
import GpioLines.Proofs.Timekeeping

/-!
# Lines that are hogged

A hog marks a line as if somebody held it, whether somebody does or not. While the marks stay, the
line is refused to everybody, so no grant is ever added that has it. A hog of a line that nobody holds
therefore stays for good. But a line that was granted before is still part of that grant, and the end
of the grant wipes the marks off all its lines, those of the hog included. So the marks of a hog last
exactly until the file that had the line is given back.
-/

namespace GpioLines

def Marks.hogged (consumer : String) : Marks := ⟨true, true, some consumer⟩

def Marks.free : Marks := ⟨false, false, none⟩

/-- The exchange grants a file that has the line. -/
def Exchange.Takes (index : Nat) (offset : Offset) : Exchange → Prop
  | .call device asked (.ok _) => device.simulator? = some index ∧ offset ∈ asked.wants
  | _ => False

/-- The exchange gives one of these files back. -/
def Exchange.Returns (index : Nat) (owners : List Grant) : Exchange → Prop
  | .release device file => device.simulator? = some index ∧ file ∈ owners.map (·.file)
  | .call .. => False

instance (index : Nat) (owners : List Grant) :
    (exchange : Exchange) → Decidable (exchange.Returns index owners)
  | .release device file =>
    inferInstanceAs (Decidable (device.simulator? = some index ∧ file ∈ owners.map (·.file)))
  | .call .. => instDecidableFalse

instance (offset : Offset) : (control : Control) → Decidable (control.Hogs offset)
  | .hog hogged _ => inferInstanceAs (Decidable (hogged = offset))
  | .setName .. | .failInfo _ | .failInfoAt .. => instDecidableFalse

/-! ### One chip -/

namespace Simulator

variable {sim after : Simulator} {offset : Offset} {consumer : String} {owners : List Grant}

/-- The line bears the marks of a hog, and these are the grants that have it. -/
structure Hogged (sim : Simulator) (offset : Offset) (consumer : String) (owners : List Grant) :
    Prop where
  marks : sim.marks? offset = some (.hogged consumer)
  owners : ∀ grant, grant ∈ owners ↔ grant ∈ sim.grants ∧ offset ∈ grant.offsets

/-- No call is granted the line, so none of its marks is written over. -/
theorem Hogged.perform (h : sim.Hogged offset consumer owners) (hsim : sim.Exclusive)
    {fresh : FileId} {call : Call} {reply : call.Reply}
    (hperform : sim.perform fresh call = (.ok reply, after)) :
    offset ∉ call.wants ∧ after.Hogged offset consumer owners := by
  have hout : offset ∉ call.wants := not_mem_wants hperform h.marks rfl
  refine ⟨hout, (hsim.marks?_perform hperform hout).trans h.marks, fun grant => ?_⟩
  rw [h.owners, (grants_perform hperform).1, List.mem_append, or_and_right]
  refine (or_iff_left ?_).symm
  rintro ⟨hnew, hmem⟩
  exact hout (Call.offsets_of_mem_grants hnew ▸ hmem)

theorem Hogged.release (h : sim.Hogged offset consumer owners) (hsim : sim.Exclusive)
    {file : FileId} (hother : file ∉ owners.map (·.file)) :
    (sim.release file).Hogged offset consumer owners := by
  have hapart : ∀ grant ∈ owners, grant.file ≠ file := by
    rintro grant hgrant rfl
    exact hother (List.mem_map_of_mem hgrant)
  refine ⟨(hsim.marks?_release fun grant hgrant hfile hmem => ?_).trans h.marks, fun grant => ?_⟩
  · exact hapart grant ((h.owners grant).mpr ⟨hgrant, hmem⟩) hfile
  · rcases sim.release_eq file with ⟨-, heq⟩ | ⟨_, -, -, -, heq⟩
    · rw [heq]
      exact h.owners grant
    · rw [heq, List.mem_filter, h.owners, bne_iff_ne, and_right_comm]
      refine (and_iff_left_of_imp fun hgrant => ?_).symm
      exact hapart grant ((h.owners grant).mpr hgrant)

/-- Along a trace in which none of the files is given back, the hog stays and the line is not
granted. -/
theorem Replays.hogged {index : Nat} {exchanges : List Exchange}
    (h : Replays index exchanges sim after) (hsim : sim.Exclusive)
    (hhogged : sim.Hogged offset consumer owners)
    (hkept : ∀ exchange ∈ exchanges, ¬ exchange.Returns index owners) :
    after.Hogged offset consumer owners ∧ ∀ exchange ∈ exchanges, ¬ exchange.Takes index offset := by
  induction h with
  | nil => exact ⟨hhogged, fun _ hmem => absurd hmem List.not_mem_nil⟩
  | @cons exchange rest sim mid after hfirst _ ih =>
      have hstep : mid.Exclusive ∧ mid.Hogged offset consumer owners ∧
          ¬ exchange.Takes index offset := by
        cases exchange with
        | call device asked outcome =>
            cases outcome with
            | error =>
                rw [show mid = sim from hfirst]
                exact ⟨hsim, hhogged, id⟩
            | ok reply =>
                rw [Exchange.Makes] at hfirst
                split at hfirst
                · obtain ⟨fresh, given, hfresh, hcall, -⟩ := hfirst
                  obtain ⟨hout, hmid⟩ := hhogged.perform hsim hcall
                  have hexclusive := hsim.perform hfresh asked
                  rw [hcall] at hexclusive
                  exact ⟨hexclusive, hmid, fun htakes => hout htakes.2⟩
                · next hnot =>
                  rw [hfirst]
                  exact ⟨hsim, hhogged, fun htakes => hnot htakes.1⟩
        | release device file =>
            rw [Exchange.Makes] at hfirst
            rw [hfirst]
            split
            · next hindex =>
              have hother : file ∉ owners.map (·.file) := fun hmem =>
                hkept _ List.mem_cons_self ⟨hindex, hmem⟩
              exact ⟨hsim.release file, hhogged.release hsim hother, id⟩
            · exact ⟨hsim, hhogged, id⟩
      obtain ⟨hmid, hhogged, hfirst⟩ := hstep
      obtain ⟨hafter, hrest⟩ := ih hmid hhogged fun other hother =>
        hkept other (List.mem_cons_of_mem _ hother)
      exact ⟨hafter, List.forall_mem_cons.mpr ⟨hfirst, hrest⟩⟩

end Simulator

/-! ### On a bench -/

namespace Bench

variable {bench after : Bench} {index : Nat} {offset : Offset} {consumer : String}
  {owners : List Grant}

/-- The grants of a simulated chip that have this line. -/
def ownersOf (bench : Bench) (index : Nat) (offset : Offset) : List Grant :=
  (bench.grants index).filter (offset ∈ ·.offsets)

/-- As for one simulated chip. -/
structure Hogged (bench : Bench) (index : Nat) (offset : Offset) (consumer : String)
    (owners : List Grant) : Prop where
  marks : bench.marks? index offset = some (.hogged consumer)
  owners : ∀ grant, grant ∈ owners ↔ grant ∈ bench.grants index ∧ offset ∈ grant.offsets

theorem hogged_of_eq {sim : Simulator} (h : bench.simulators[index]? = some sim) :
    bench.Hogged index offset consumer owners ↔ sim.Hogged offset consumer owners := by
  constructor
  · rintro ⟨hmarks, howners⟩
    rw [marks?_of_eq h] at hmarks
    rw [grants_of_eq h] at howners
    exact ⟨hmarks, howners⟩
  · rintro ⟨hmarks, howners⟩
    refine ⟨(marks?_of_eq h offset).trans hmarks, ?_⟩
    rwa [grants_of_eq h]

/-- The line is there, so its chip is. -/
theorem Hogged.exists_sim (h : bench.Hogged index offset consumer owners) :
    ∃ sim, bench.simulators[index]? = some sim ∧ sim.Hogged offset consumer owners := by
  obtain ⟨line, hline, -⟩ := Option.map_eq_some_iff.mp h.marks
  obtain ⟨sim, hsim, -⟩ := Option.bind_eq_some_iff.mp hline
  exact ⟨sim, hsim, (hogged_of_eq hsim).mp h⟩

theorem Hogged.congr (h : bench.Hogged index offset consumer owners)
    (hmarks : after.marks? index offset = bench.marks? index offset)
    (hgrants : after.grants index = bench.grants index) :
    after.Hogged index offset consumer owners :=
  ⟨hmarks.trans h.marks, hgrants ▸ h.owners⟩

theorem Hogged.replayed (h : bench.Hogged index offset consumer owners) (hbench : bench.Exclusive)
    {exchanges : List Exchange} (hreplayed : Replayed exchanges bench after)
    (hkept : ∀ exchange ∈ exchanges, ¬ exchange.Returns index owners) :
    after.Hogged index offset consumer owners ∧
      ∀ exchange ∈ exchanges, ¬ exchange.Takes index offset := by
  obtain ⟨sim, hsim, hhogged⟩ := h.exists_sim
  obtain ⟨changed, hchanged, hreplays⟩ := hreplayed.present index sim hsim
  obtain ⟨hafter, huntaken⟩ := hreplays.hogged (hbench.simulators index sim hsim) hhogged hkept
  exact ⟨(hogged_of_eq hchanged).mpr hafter, huntaken⟩

theorem hogged_hog {line : SimLine} (hline : bench.line? index offset = some line)
    (consumer : String) :
    (bench.modifySimulator index (Control.hog offset consumer).apply).Hogged index offset consumer
      (bench.ownersOf index offset) := by
  obtain ⟨sim, hsim, hline⟩ := Option.bind_eq_some_iff.mp hline
  have hafter : (bench.modifySimulator index (Control.hog offset consumer).apply).simulators[index]? =
      some (sim.hog offset consumer) := by
    rw [simulators_modifySimulator, if_pos rfl, hsim]
    rfl
  refine (hogged_of_eq hafter).mpr ⟨?_, fun grant => ?_⟩
  · rw [Simulator.marks?_hog, Simulator.marks?, hline]
    rfl
  · rw [Bench.ownersOf, grants_of_eq hsim, List.mem_filter, decide_eq_true_eq]
    rfl

/-! ### What a hogged line is good for -/

/-- The line cannot be had by any request that is acceptable otherwise, and its metadata tell of the
consumer whenever they can be read. -/
structure Unavailable (bench : Bench) (index : Nat) (offset : Offset) (consumer : String) : Prop where
  lines_busy : ∀ request : LinesRequest, offset ∈ request.offsets →
    request.offsets.length ≤ maxLines → Simulator.refuses request.flags = false →
    (∀ other ∈ request.offsets, ∃ line, bench.line? index other = some line) →
    (perform (.simulator index) (.requestLines request) bench).1 =
      .error (.call .requestLines .busy)
  event_busy : ∀ request : EventRequest, request.offset = offset → request.flags.output = false →
    Simulator.refuses request.flags = false →
    (perform (.simulator index) (.requestEvent request) bench).1 =
      .error (.call .requestEvent .busy)
  reported : bench.infoFails? index = some false →
    (∀ line ∈ bench.line? index offset, line.infoFails = false) →
    ∃ info, (perform (.simulator index) (.lineInfo offset) bench).1 = .ok info ∧
      info.used = true ∧ info.consumer = some consumer

theorem Hogged.not_vacant (h : bench.Hogged index offset consumer owners) :
    ¬ bench.Vacant index offset := by
  rintro ⟨line, hline, hfree⟩
  have hmarks := h.marks
  rw [marks?, hline] at hmarks
  have hrequested : line.requested = true := congrArg Marks.requested (Option.some.inj hmarks)
  exact absurd (hfree.symm.trans hrequested) Bool.false_ne_true

theorem Hogged.unavailable (h : bench.Hogged index offset consumer owners) :
    bench.Unavailable index offset consumer where
  lines_busy := by
    intro request hmem hlength hrules hpresent
    obtain ⟨sim, hsim, -⟩ := h.exists_sim
    have hcheck : sim.checkOffsets [] request.offsets = .error .busy := by
      have hthere : ∀ other ∈ request.offsets, ∃ line, sim.line? other = some line := by
        intro other hother
        obtain ⟨line, hline⟩ := hpresent other hother
        exact ⟨line, (line?_of_eq hsim other).symm.trans hline⟩
      refine (Simulator.checkOffsets_of_present hthere).resolve_left fun hok => h.not_vacant ?_
      obtain ⟨line, hline, hfree⟩ := (Simulator.offers_of_checkOffsets hok).1.free offset hmem
      exact ⟨line, (line?_of_eq hsim offset).trans hline, hfree⟩
    have hcan : ¬ (request.offsets.isEmpty || decide (maxLines < request.offsets.length)) = true := by
      simp [List.ne_nil_of_mem hmem, hlength]
    rw [perform_simulator_fst hsim]
    simp only [Simulator.perform, Simulator.requestLines, if_neg hcan, hrules, Bool.false_eq_true,
      if_false, hcheck]
    rfl
  event_busy := by
    rintro request rfl houtput hrules
    obtain ⟨sim, hsim, -⟩ := h.exists_sim
    obtain ⟨line, hline, -⟩ := Option.map_eq_some_iff.mp h.marks
    have hdecided := requestEvent_decided hsim houtput hrules ⟨line, hline⟩
    exact (hdecided.resolve_left fun hvacant => h.not_vacant hvacant.1).2
  reported := by
    intro hanswers hfails
    obtain ⟨line, hline, hmarks⟩ := Option.map_eq_some_iff.mp h.marks
    refine ⟨line.info offset, tells_iff.mp ⟨hanswers, line, hline, hfails line hline, rfl⟩, ?_, ?_⟩
    · exact congrArg Marks.used hmarks
    · exact congrArg Marks.consumer hmarks

/-- Once a file is given back that had the line, nobody is told to hold it. -/
theorem Hogged.freed (h : bench.Hogged index offset consumer owners) (hbench : bench.Exclusive)
    {device : Device} (hindex : device.simulator? = some index) {grant : Grant}
    (hgrant : grant ∈ owners) :
    (releaseAt device grant.file bench).marks? index offset = some .free := by
  obtain ⟨hlent, hmem⟩ := (h.owners grant).mp hgrant
  obtain ⟨line, hline, -⟩ := Option.map_eq_some_iff.mp h.marks
  rw [marks?, hbench.line?_releaseAt_of_mem hindex hlent hmem, hline]
  rfl

end Bench

/-! ### In a workshop -/

namespace Workshop

variable {workshop : Workshop} {index : Nat} {offset : Offset} {consumer : String}
  {owners : List Grant}

/-- The line is not hogged anew. -/
def SparesHog (index : Nat) (offset : Offset) (_ : Workshop) : Act → Prop
  | .deed (.control chip control) => chip = index → ¬ control.Hogs offset
  | _ => True

instance (index : Nat) (offset : Offset) (workshop : Workshop) :
    (act : Act) → Decidable (SparesHog index offset workshop act)
  | .deed (.control chip control) =>
    inferInstanceAs (Decidable (chip = index → ¬ control.Hogs offset))
  | .operation _ | .deed (.addSimulator ..) | .deed (.addProbe ..) | .deed (.addFault ..)
  | .deed (.setAnswers _) | .deed (.setLevel ..) | .deed (.inject ..) | .deed (.call ..)
  | .deed (.read ..) | .deed (.release ..) | .deed (.close ..) => instDecidableTrue

/-- Something has passed since. If it gave none of these files back, it left the hog and did not
grant the line. -/
def KeepsHog (before after : Workshop) (index : Nat) (offset : Offset) (consumer : String)
    (owners : List Grant) : Prop :=
  ∃ made, after.world.trace = before.world.trace ++ made ∧
    (before.world.bench.Hogged index offset consumer owners →
      (∀ exchange ∈ made, ¬ exchange.Returns index owners) →
      after.world.bench.Hogged index offset consumer owners ∧
        ∀ exchange ∈ made, ¬ exchange.Takes index offset)

theorem KeepsHog.refl (workshop : Workshop) :
    workshop.KeepsHog workshop index offset consumer owners := by
  refine ⟨[], (List.append_nil _).symm, fun hhogged _ => ⟨hhogged, ?_⟩⟩
  exact fun _ hmem => absurd hmem List.not_mem_nil

theorem KeepsHog.trans {mid after : Workshop} (h : workshop.KeepsHog mid index offset consumer owners)
    (hlater : mid.KeepsHog after index offset consumer owners) :
    workshop.KeepsHog after index offset consumer owners := by
  obtain ⟨first, hfirst, hmid⟩ := h
  obtain ⟨second, hsecond, hafter⟩ := hlater
  refine ⟨first ++ second, by rw [hsecond, hfirst, List.append_assoc], fun hhogged hkept => ?_⟩
  rw [List.forall_mem_append] at hkept
  obtain ⟨hstays, hearly⟩ := hmid hhogged hkept.1
  obtain ⟨hends, hlate⟩ := hafter hstays hkept.2
  exact ⟨hends, List.forall_mem_append.mpr ⟨hearly, hlate⟩⟩

theorem keepsHog_of_follows (h : workshop.Sound) {after : Workshop}
    (hfollows : workshop.world.Follows after.world) :
    workshop.KeepsHog after index offset consumer owners := by
  obtain ⟨-, made, htrace, hreplayed⟩ := hfollows
  exact ⟨made, htrace, fun hhogged => hhogged.replayed h.accord.bench hreplayed⟩

/-- What no simulated chip is told of leaves the grants, so it is a matter of the marks. -/
theorem keepsHog_of_marks? {after : Workshop} (htrace : after.world.trace = workshop.world.trace)
    (hgrants : after.world.bench.grants = workshop.world.bench.grants)
    (hmarks : workshop.world.bench.Hogged index offset consumer owners →
      after.world.bench.marks? index offset = workshop.world.bench.marks? index offset) :
    workshop.KeepsHog after index offset consumer owners := by
  refine ⟨[], by rw [htrace, List.append_nil], fun hhogged _ => ⟨?_, ?_⟩⟩
  · exact hhogged.congr (hmarks hhogged) (congrFun hgrants index)
  · exact fun _ hmem => absurd hmem List.not_mem_nil

theorem keepsHog_of_filesOnly {after : Workshop} (htrace : after.world.trace = workshop.world.trace)
    (hfiles : Bench.FilesOnly workshop.world.bench after.world.bench) :
    workshop.KeepsHog after index offset consumer owners :=
  keepsHog_of_marks? htrace hfiles.grants fun _ => Bench.marks?_of_simulators hfiles.simulators

theorem keepsHog_act (h : workshop.Sound) {act : Act} (hcan : workshop.Can act)
    (hspares : SparesHog index offset workshop act) :
    workshop.KeepsHog (workshop.act act) index offset consumer owners := by
  have hgrants : ∀ {bench : Bench}, workshop.world.bench.Beside (fun _ _ => True) bench →
      bench.grants = workshop.world.bench.grants := fun hbeside => hbeside.grants
  cases act with
  | operation operation => exact keepsHog_of_follows h (h.follows hcan)
  | deed deed =>
      cases deed with
      | addSimulator name lineCount =>
          refine keepsHog_of_marks? rfl (hgrants (Bench.beside_addSimulator ..)) fun hhogged => ?_
          obtain ⟨line, hline, -⟩ := Option.map_eq_some_iff.mp hhogged.marks
          exact Bench.marks?_addSimulator hline name lineCount
      | control chip control =>
          exact keepsHog_of_marks? rfl (hgrants (Bench.beside_control ..)) fun _ =>
            Bench.marks?_control hspares
      | setLevel chip driven level =>
          exact keepsHog_of_marks? rfl (hgrants (Bench.beside_setLevel _ level trivial)) fun _ =>
            Bench.marks?_setLevel ..
      | addProbe | setAnswers | close => exact keepsHog_of_filesOnly rfl ⟨rfl, rfl⟩
      | addFault device fault => exact keepsHog_of_filesOnly rfl (Bench.filesOnly_addFault ..)
      | inject chip driven bytes => exact keepsHog_of_filesOnly rfl (Bench.filesOnly_inject ..)
      | read file limit => exact keepsHog_of_filesOnly rfl (Bench.filesOnly_read ..)
      | call device call =>
          exact keepsHog_of_follows h (World.follows_perform h.accord.bench device call)
      | release device file =>
          exact keepsHog_of_follows h ⟨h.accord.bench.releaseAt device file, _, rfl,
            Bench.replayed_releaseAt device file workshop.world.bench⟩

theorem keepsHog_actAll (h : workshop.Sound) {script : List Act}
    (hcan : workshop.CanActAll (SparesHog index offset) script) :
    workshop.KeepsHog (workshop.actAll script) index offset consumer owners ∧
      (workshop.actAll script).Sound := by
  induction script generalizing workshop with
  | nil => exact ⟨.refl workshop, h⟩
  | cons act rest ih =>
      obtain ⟨hact, hallowed, hrest⟩ := hcan
      obtain ⟨hkeeps, hsound⟩ := ih (h.act hact) hrest
      exact ⟨(keepsHog_act h hact hallowed).trans hkeeps, hsound⟩

/-- What has become of a hog once this has passed: as long as no file is given back that had the line
before, nobody gets the line, and once one is given back, anybody can. -/
structure HogLasts (made : List Exchange) (after : Bench) (index : Nat) (offset : Offset)
    (consumer : String) (owners : List Grant) : Prop where
  unavailable : after.Unavailable index offset consumer
  untaken : ∀ exchange ∈ made, ¬ exchange.Takes index offset
  owned : ∀ grant ∈ after.grants index, offset ∈ grant.offsets → grant ∈ owners
  freed : ∀ grant ∈ owners, ∀ device : Device, device.simulator? = some index →
    (Bench.releaseAt device grant.file after).marks? index offset = some .free

/-- **A hog lasts until a file is given back that had the line before it.** Until then no request gets
the line, in whatever state the hog was placed and whatever is done on the bench but another hog of
the line. A line that nobody held stays hogged for good. -/
theorem hog_lasts {rule : Workshop → Act → Prop} (hreachable : Reachable rule workshop)
    {line : SimLine} (hline : workshop.world.bench.line? index offset = some line)
    (consumer : String) {script : List Act}
    (hcan : (workshop.act (.deed (.control index (.hog offset consumer)))).CanActAll
      (SparesHog index offset) script) :
    let owners := workshop.world.bench.ownersOf index offset
    let after := (workshop.act (.deed (.control index (.hog offset consumer)))).actAll script
    ∃ made, after.world.trace = workshop.world.trace ++ made ∧
      ((∀ exchange ∈ made, ¬ exchange.Returns index owners) →
        HogLasts made after.world.bench index offset consumer owners) := by
  have hsound : (workshop.act (.deed (.control index (.hog offset consumer)))).Sound :=
    hreachable.sound.act trivial
  obtain ⟨⟨made, htrace, hkeeps⟩, hafter⟩ := keepsHog_actAll hsound hcan
  refine ⟨made, htrace, fun hkept => ?_⟩
  obtain ⟨hhogged, huntaken⟩ := hkeeps (Bench.hogged_hog hline consumer) hkept
  exact
    { unavailable := hhogged.unavailable
      untaken := huntaken
      owned := fun grant hgrant hmem => (hhogged.owners grant).mpr ⟨hgrant, hmem⟩
      freed := fun grant hgrant device hindex => hhogged.freed hafter.accord.bench hindex hgrant }

/-- The library holds lines 0 and 1 of three, and line 1 is to be hogged. -/
def lentPair : List Act :=
  let output : RequestConfig := { consumer := "pair", type := .output }
  [.deed (.addSimulator "gpiochip0" 3), .operation (.openChip (.simulator 0)),
    .operation (.getLines 0 [1, 0]), .operation (.onGroup (.request output none) ⟨[⟨0, 1⟩, ⟨0, 0⟩]⟩),
    .operation (.getLines 0 [2, 1])]

/-- The pair stays lent while it is configured anew, a request for events is refused half way, and a
second chip comes and goes. -/
def keptPair : List Act :=
  let events : RequestConfig := { consumer := "events", type := .eventBoth }
  [.operation (.onGroup (.setFlags { settings := { activeLow := true } }) ⟨[⟨0, 1⟩, ⟨0, 0⟩]⟩),
    .operation (.onGroup (.request events none) ⟨[⟨0, 2⟩, ⟨0, 1⟩]⟩),
    .deed (.control 0 (.hog 2 "another")), .deed (.setLevel 0 1 1),
    .operation (.openChip (.simulator 0)), .operation (.getAllLines 1), .operation (.closeChip 1)]

theorem hog_lasts_keptPair : ∃ (workshop after : Workshop) (made : List Exchange),
    Reachable Unruled workshop ∧
      (workshop.act (.deed (.control 0 (.hog 1 "other")))).actAll keptPair = after ∧
      (workshop.world.bench.ownersOf 0 1).length = 1 ∧
      after.world.trace = workshop.world.trace ++ made ∧
      HogLasts made after.world.bench 0 1 "other" (workshop.world.bench.ownersOf 0 1) := by
  have hreachable : Reachable Unruled (({} : Workshop).actAll lentPair) :=
    Reachable.start.actAll (by decide)
  have hthere : ((({} : Workshop).actAll lentPair).world.bench.line? 0 1).isSome := by decide
  obtain ⟨line, hline⟩ := Option.isSome_iff_exists.mp hthere
  have hcan : ((({} : Workshop).actAll lentPair).act (.deed (.control 0 (.hog 1 "other")))).CanActAll
      (SparesHog 0 1) keptPair := by decide
  have hkept : ∀ exchange ∈ (((({} : Workshop).actAll lentPair).act
      (.deed (.control 0 (.hog 1 "other")))).actAll keptPair).world.trace,
      ¬ exchange.Returns 0 ((({} : Workshop).actAll lentPair).world.bench.ownersOf 0 1) := by decide
  obtain ⟨made, htrace, hlasts⟩ := hog_lasts hreachable hline "other" hcan
  refine ⟨_, _, made, hreachable, rfl, by decide, htrace, hlasts fun exchange hmem => ?_⟩
  exact hkept exchange (htrace ▸ List.mem_append_right _ hmem)

/-- A hog of a line that is lent is gone once the line is released: the line is granted again, and its
metadata tell of no consumer. -/
theorem hogged_lentLine : ∃ (workshop : Workshop) (script : List Act),
    let after := ((workshop.act (.deed (.control 0 (.hog 0 "other")))).actAll script).world.bench
    Reachable Unruled workshop ∧ (workshop.world.bench.line? 0 0).isSome ∧
      (workshop.act (.deed (.control 0 (.hog 0 "other")))).CanActAll (SparesHog 0 0) script ∧
      (Bench.perform (.simulator 0)
        (.requestLines { offsets := [0], flags := {}, values := [], consumer := "raw" }) after).1 =
          .ok 1 ∧
      (Bench.perform (.simulator 0) (.lineInfo 0) after).1 =
        .ok { offset := 0, flags := { output := true } } := by
  let output : RequestConfig := { consumer := "first", type := .output }
  have hreachable : Reachable Unruled (({} : Workshop).actAll
      [.deed (.addSimulator "gpiochip0" 2), .operation (.openChip (.simulator 0)),
        .operation (.getLine 0 0), .operation (.onGroup (.request output none) ⟨[⟨0, 0⟩]⟩)]) :=
    Reachable.start.actAll (by decide)
  exact ⟨_, [.operation (.release ⟨[⟨0, 0⟩]⟩)], hreachable, by decide, by decide, by decide,
    by decide⟩

end Workshop

end GpioLines
