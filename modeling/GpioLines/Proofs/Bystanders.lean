import GpioLines.Proofs.Contest
import GpioLines.Proofs.Deeds
import GpioLines.Proofs.Granting
import GpioLines.Proofs.Marks

/-!
# Bystanders of a contest

A contest for a line is fair as long as nobody else gets the line of the device. What a thread has the
device do in one step is little: a call for lines of its own group, a call about one line, or the
release of a file. On a simulated chip none of these takes a line that nobody holds, unless it is asked
for, and a release can only give lines back. So a free line can be contested whatever the other threads
do, as long as they ask for other lines and leave the chip open, and whoever sets levels outside.
-/

namespace GpioLines

/-! ### Errands -/

/-- The lines of its device that a job may ask to hold. -/
def Job.wants : Job → List Offset
  | .request demand => demand.group.offsets
  | .release _ | .close _ => []

section Errands

variable {σ : Type} [Machine σ]

/-- What one step of a thread has the machine do. -/
inductive Errand (job : Job) (before : σ) : σ → Prop
  | idle : Errand job before before
  | ask (device : Device) (call : Call) (mine : call.wants ⊆ job.wants) :
      Errand job before (Machine.perform device call before).2
  | giveBack (device : Device) (file : FileId) :
      Errand job before (Machine.release device file before)

variable {world : World σ} {job : Job}

theorem World.errand_perform (device : Device) {call : Call} (hmine : call.wants ⊆ job.wants) :
    Errand job world.machine (world.perform device call).2.machine :=
  .ask device call hmine

namespace World

theorem errand_update (line : Line) : Errand job world.machine (world.update line).machine := by
  have hrefresh : Errand job world.machine (world.refresh line).2.machine := by
    unfold refresh
    split
    · exact .idle
    · next chip _ =>
      have herrand : Errand job world.machine
          (world.perform chip.device (.lineInfo line.offset)).2.machine :=
        errand_perform chip.device (List.nil_subset job.wants)
      split
      all_goals
        next hperform =>
        rw [hperform] at herrand
        exact herrand
  unfold update
  split
  all_goals
    next h =>
    rw [h] at hrefresh
    exact hrefresh

theorem errand_letGo (shared : HandleId → Bool) (id : HandleId) (rest : List HandleId) :
    Errand job world.machine (world.letGo shared id rest).machine := by
  unfold letGo
  split
  · exact .idle
  · unfold dropHandle
    split
    · exact .idle
    · unfold closeHandle
      split
      · exact .idle
      · exact .giveBack _ _

end World

theorem Demand.errand {demand : Demand} {stage : Requesting} {taken : List Line}
    (h : stage.Sound demand.group world.board taken) (shared : HandleId → Bool) :
    Errand (.request demand) world.machine (demand.step shared world stage).2.1.machine := by
  cases stage with
  | start =>
      simp only [step]
      split <;> exact .idle
  | waiting => exact .idle
  | entered =>
      simp only [step]
      split <;> exact .idle
  | scanning device before rest =>
      cases rest with
      | nil => exact .idle
      | cons line rest =>
          simp only [step]
          split <;> exact .idle
  | asking device =>
      have herrand := @World.errand_perform _ _ world (.request demand) device
        (.requestLines (World.linesRequest demand.group demand.config demand.defaults))
        (List.Subset.refl demand.group.offsets)
      simp only [step]
      split
      all_goals
        next hperform =>
        rw [hperform] at herrand
        exact herrand
  | acquiring device granted rest =>
      cases rest with
      | nil => exact .idle
      | cons line rest =>
          obtain ⟨-, -, done, hsplit, -⟩ := h
          have hmember : line ∈ demand.group.lines :=
            hsplit ▸ List.mem_append_right done List.mem_cons_self
          have hmine : [line.offset] ⊆ demand.group.offsets :=
            List.cons_subset.mpr ⟨List.mem_map_of_mem hmember, List.nil_subset _⟩
          have herrand := @World.errand_perform _ _ world (.request demand) device
            (.requestEvent (World.eventRequest demand.config line)) hmine
          simp only [step]
          split
          · next hperform =>
            rw [hperform] at herrand
            split <;> exact herrand
          · next hperform =>
            rw [hperform] at herrand
            exact herrand
  | attaching pairs => cases pairs <;> exact .idle
  | undoing granted error =>
      cases granted with
      | nil => exact .idle
      | cons id rest => exact World.errand_letGo shared id rest
  | refreshing rest =>
      cases rest with
      | nil => exact .idle
      | cons line rest => exact World.errand_update line
  | finished outcome => exact .idle

theorem Group.errand (group : Group) (stage : Releasing) (shared : HandleId → Bool) :
    Errand job world.machine (group.releaseStep shared world stage).2.1.machine := by
  cases stage with
  | start | waiting | finished => exact .idle
  | detaching guarded held rest => cases rest <;> exact .idle
  | dropping guarded count held =>
      cases held with
      | nil =>
          simp only [releaseStep]
          split <;> exact .idle
      | cons id rest => exact World.errand_letGo shared id rest
  | refreshing rest =>
      cases rest with
      | nil => exact .idle
      | cons line rest => exact World.errand_update line

theorem World.errand_close (chip : ChipId) (stage : Closing) (shared : HandleId → Bool) :
    Errand job world.machine (world.closeStep chip shared stage).2.1.machine := by
  cases stage with
  | waiting | marked | finished => exact .idle
  | entered =>
      simp only [closeStep]
      split
      · exact .idle
      · split <;> exact .idle
  | invalidating name rest => cases rest <;> exact .idle
  | discarding name id rest => exact World.errand_letGo shared id []

/-- **A step of a thread asks for lines of its own job, if for any.** -/
theorem Thread.errand {thread : Thread} {taken : List Line} (h : thread.Sound world.board taken)
    (shared : HandleId → Bool) :
    Errand thread.job world.machine (thread.step shared world).2.1.machine := by
  cases thread with
  | request demand stage => exact Demand.errand h.2 shared
  | release group stage => exact group.errand stage shared
  | close chip stage => exact World.errand_close chip stage shared

end Errands

/-! ### Lines that nobody holds -/

namespace Bench

variable {bench after : Bench} {index : Nat} {offset : Offset}

theorem vacant_iff_marks? :
    bench.Vacant index offset ↔ (bench.marks? index offset).any (!·.requested) = true := by
  rw [Vacant, marks?]
  cases bench.line? index offset <;> simp [SimLine.marks]

/-- Nobody holds the line, and it is in no grant. -/
structure Spare (index : Nat) (offset : Offset) (bench : Bench) : Prop where
  exclusive : bench.Exclusive
  vacant : bench.Vacant index offset

namespace Spare

theorem of_marks? (h : bench.Spare index offset) (hexclusive : after.Exclusive)
    (hmarks : after.marks? index offset = bench.marks? index offset) : after.Spare index offset := by
  refine ⟨hexclusive, vacant_iff_marks?.mpr ?_⟩
  rw [hmarks]
  exact vacant_iff_marks?.mp h.vacant

theorem perform (h : bench.Spare index offset) (device : Device) {call : Call}
    (hout : offset ∉ call.wants) : (perform device call bench).2.Spare index offset :=
  h.of_marks? (h.exclusive.perform rfl) (h.exclusive.marks?_perform rfl fun _ => hout)

theorem release (h : bench.Spare index offset) (device : Device) (file : FileId) :
    (Machine.release device file bench).Spare index offset := by
  obtain ⟨line, hline, hfree⟩ := h.vacant
  have hnotin : ∀ grant ∈ bench.grants index, offset ∉ grant.offsets := by
    intro grant hgrant hmem
    obtain ⟨sim, hsim, hlent⟩ := mem_grants.mp hgrant
    obtain ⟨held, hheld, hrequested⟩ :=
      (h.exclusive.simulators index sim hsim).held grant hlent offset hmem
    rw [line?_of_eq hsim, hheld] at hline
    obtain rfl := Option.some.inj hline
    exact Bool.false_ne_true (hfree.symm.trans hrequested)
  have hkept : (releaseAt device file bench).line? index offset = bench.line? index offset :=
    h.exclusive.line?_releaseAt device file fun _ grant hgrant _ => hnotin grant hgrant
  exact h.of_marks? ((h.exclusive.releaseAt device file).filesOnly ⟨rfl, rfl⟩) (marks?_of_line? hkept)

theorem setLevel (h : bench.Spare index offset) (chip : Nat) (driven : Offset) (level : UInt8) :
    (bench.setLevel chip driven level).2.Spare index offset := by
  have hbeside : bench.Beside (fun _ _ => True) (bench.setLevel chip driven level).2 :=
    beside_setLevel bench level trivial
  exact h.of_marks? (hbeside.exclusive h.exclusive) (bench.marks?_setLevel chip driven level)

theorem errand {job : Job} (h : bench.Spare index offset) (herrand : Errand job bench after)
    (hout : offset ∉ job.wants) : after.Spare index offset := by
  cases herrand with
  | idle => exact h
  | ask device call hmine => exact h.perform device fun hmem => hout (hmine hmem)
  | giveBack device file => exact h.release device file

end Spare

end Bench

/-! ### Contests for lines of simulated chips -/

/-- The job asks for other lines of its device, and does not free this one. -/
def Job.Spares (line : Line) (job : Job) : Prop :=
  ¬ job.Covers line ∧ line.offset ∉ job.wants

theorem Demand.granted_of_spare {demand : Demand} {line : Line} {index : Nat} {bench : Bench}
    (h : bench.Spare index line.offset) (hlines : demand.group.lines = [line])
    (hrules : Simulator.refuses (demand.config.flags.handleFlags demand.config.type) = false) :
    demand.Granted (.simulator index) line bench := by
  obtain ⟨found, hfound, -⟩ := h.vacant
  obtain ⟨sim, hsim, -⟩ := Option.bind_eq_some_iff.mp hfound
  have hoffsets : demand.group.offsets = [line.offset] := by
    rw [Group.offsets, hlines, List.map_singleton]
  unfold Granted
  split
  · next hevent =>
    rcases @Bench.requestEvent_decided _ _ _ hsim (World.eventRequest demand.config line)
      (RequestFlags.output_handleFlags_of_isEvent _ hevent) hrules ⟨found, hfound⟩
      with ⟨-, hgranted⟩ | ⟨hheld, -⟩
    · exact ⟨_, hgranted⟩
    · exact absurd h.vacant hheld
  · have hasks : bench.Asks index demand.group.offsets := by
      rw [hoffsets]
      exact ⟨List.cons_ne_nil _ _, (by decide : 1 ≤ maxLines), List.nodup_singleton _,
        List.forall_mem_singleton.mpr ⟨found, hfound⟩⟩
    have hvacant : ∀ offset ∈ demand.group.offsets, bench.Vacant index offset := by
      rw [hoffsets]
      exact List.forall_mem_singleton.mpr h.vacant
    rcases @Bench.requestLines_decided _ _ _ hsim
      (World.linesRequest demand.group demand.config demand.defaults) hrules hasks
      with ⟨-, hgranted⟩ | ⟨hheld, -⟩
    · exact ⟨_, hgranted⟩
    · exact absurd hvacant hheld

namespace Crew

variable {env : Bench → Bench → Prop} {world : World Bench} {jobs : List Job}

/-- **A free line of a simulated chip can be contested.** The other threads do with their lines what
they like. -/
theorem contest_of_spare (hsound : (start world jobs).Sound) {line : Line} {chip : Chip} {index : Nat}
    (hchip : world.openChip line.chip = .ok chip) (hdevice : chip.device = .simulator index)
    (hfree : world.slot line = .free) (hspare : world.machine.Spare index line.offset)
    (hentrant : ∃ job ∈ jobs, job.Contends line)
    (haccepted : ∀ demand, .request demand ∈ jobs → demand.group.lines = [line] →
      world.checkRequest demand.group demand.config demand.defaults = .ok () ∧
        Simulator.refuses (demand.config.flags.handleFlags demand.config.type) = false)
    (hothers : ∀ job ∈ jobs, ¬ job.Contends line → job.Spares line)
    (henv : ∀ before after, env before after → before.Spare index line.offset →
      after.Spare index line.offset) :
    Contest env (Bench.Spare index line.offset) line world jobs where
  entrant := hentrant
  free := hfree
  ready := hspare
  accepted := fun demand hjob hlines => (haccepted demand hjob hlines).1
  granted := by
    intro demand found bench hjob hlines hfound hbench
    rw [hchip] at hfound
    obtain rfl := Except.ok.inj hfound
    rw [hdevice]
    exact Demand.granted_of_spare hbench hlines (haccepted demand hjob hlines).2
  bystander := fun job hjob hnot => (hothers job hjob hnot).1
  undisturbed := by
    intro crew i thread hrun hthread hnot hbench
    have hjob : thread.job ∈ jobs :=
      jobs_of_run hrun ▸ List.mem_map_of_mem (List.mem_of_getElem? hthread)
    have hstage := (Run.sound hrun hsound).threads i thread hthread
    exact hbench.errand (thread.errand hstage (crew.shares i)) (hothers thread.job hjob hnot).2
  elsewhere := henv

end Crew

end GpioLines
