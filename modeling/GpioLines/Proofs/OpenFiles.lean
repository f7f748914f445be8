import GpioLines.Proofs.Devices

/-!
# Every open file by itself

The files of a bench share one table, and whatever is done to a file is done under its number. A call
opens at most one file, and closes or changes none; a release, a read or a watch is about one file,
and a delivery about those that it names. So the user of a file need not look at what is done to the
others.
-/

namespace GpioLines.Bench

variable {bench mid after : Bench} {touched : FileId → Prop}

/-- Files may have been opened; of those that were there, only the `touched` ones have changed. -/
structure Touches (touched : FileId → Prop) (bench after : Bench) : Prop where
  fresh : bench.files.Fresh → after.files.Fresh
  next : bench.files.next ≤ after.files.next
  others : bench.files.Fresh → ∀ file < bench.files.next, ¬ touched file →
    after.files.get? file = bench.files.get? file

namespace Touches

theorem of_files_eq (h : after.files = bench.files) : bench.Touches touched after where
  fresh := fun hfresh => h ▸ hfresh
  next := h ▸ le_rfl
  others := fun _ _ _ _ => by rw [h]

theorem of_modify {file : FileId} {f : OpenFile → OpenFile}
    (h : after.files = bench.files.modify file f) : bench.Touches (· = file) after where
  fresh := fun hfresh => h ▸ hfresh.modify file f
  next := h ▸ le_rfl
  others := fun _ other _ hother => by rw [h, Table.get?_modify, if_neg hother]

theorem of_files (h : mid.Touches touched after) (hfiles : mid.files = bench.files) :
    bench.Touches touched after := by
  obtain ⟨hfresh, hnext, hothers⟩ := h
  rw [hfiles] at hfresh hnext hothers
  exact ⟨hfresh, hnext, hothers⟩

end Touches

theorem touches_modifyFile (bench : Bench) (file : FileId) (f : OpenFile → OpenFile) :
    bench.Touches (· = file) (bench.modifyFile file f) := .of_modify rfl

/-! ### Calls and releases -/

/-- A call opens one file or none; a simulated chip opens an empty one. -/
theorem files_perform {device : Device} {call : Call} {outcome : Outcome call}
    (h : perform device call bench = (outcome, after)) : after.files = bench.files ∨
      ∃ opened, after.files = bench.files.add opened ∧
        (device.simulator? ≠ none → opened = .fresh) := by
  induction device generalizing bench after outcome with
  | simulator index =>
      simp only [perform, performSimulator] at h
      split at h
      · exact Or.inl (congrArg Bench.files (Prod.mk.inj h).2).symm
      · next sim _ =>
        rcases hperform : sim.perform bench.files.next call with ⟨answer, changed⟩
        rw [hperform] at h
        obtain rfl := (Prod.mk.inj h).2
        cases call <;> cases answer
        case requestLines.ok | requestEvent.ok => exact Or.inr ⟨.fresh, rfl, fun _ => rfl⟩
        all_goals exact Or.inl rfl
  | character path =>
      have hrequest : ∀ (target : Target) (kind : CallKind) (buffer : List UInt8) (bench : Bench),
          (Kernel.request target kind buffer bench).2.files = bench.files ∨
            ∃ opened, (Kernel.request target kind buffer bench).2.files = bench.files.add opened := by
        intro target kind buffer bench
        simp only [Kernel.request]
        split
        · exact Or.inl rfl
        · exact Or.inl rfl
        · exact Or.inr ⟨_, rfl⟩
      have hfiles : after.files = bench.files ∨ ∃ opened, after.files = bench.files.add opened := by
        simp only [perform, CharacterDevice.perform] at h
        split at h
        · have hsame := hrequest call.target call.kind (Layout.buffer call) bench
          split at h
          all_goals
            next hanswer =>
            rw [hanswer] at hsame
            obtain rfl := (Prod.mk.inj h).2
            exact hsame
        · obtain rfl := (Prod.mk.inj h).2
          exact Or.inl rfl
      refine hfiles.imp_right fun hadded => ?_
      obtain ⟨opened, hopened⟩ := hadded
      exact ⟨opened, hopened, fun hsome => absurd rfl hsome⟩
  | probe index beneath ih =>
      unfold perform at h
      split at h
      · exact ih h
      · simp only at h
        split at h
        · obtain rfl := (Prod.mk.inj h).2
          exact Or.inl rfl
        · rcases hbeneath : perform beneath call _ with ⟨inner, mid⟩
          rw [hbeneath] at h
          have hmid := ih hbeneath
          cases inner with
          | error error =>
              obtain rfl := (Prod.mk.inj h).2
              exact hmid
          | ok inner =>
              obtain rfl := (Prod.mk.inj h).2
              exact hmid

theorem touches_perform {device : Device} {call : Call} {outcome : Outcome call}
    (h : perform device call bench = (outcome, after)) : bench.Touches (fun _ => False) after := by
  rcases files_perform h with hsame | ⟨opened, hadded, -⟩
  · exact .of_files_eq hsame
  · refine ⟨fun hfresh => hadded ▸ hfresh.add opened, hadded ▸ Nat.le_succ _, ?_⟩
    intro hfresh file hlt _
    rw [hadded, Table.get?_add hfresh, if_neg (Nat.ne_of_lt hlt)]

theorem files_releaseAt (device : Device) (file : FileId) (bench : Bench) :
    (releaseAt device file bench).files = bench.files ∨
      (releaseAt device file bench).files = bench.files.modify file OpenFile.disconnect := by
  induction device generalizing bench with
  | simulator index =>
      unfold releaseAt
      split
      · exact Or.inl rfl
      · simp only
        split
        · exact Or.inr rfl
        · exact Or.inl rfl
  | character path => exact Or.inl rfl
  | probe index beneath ih =>
      unfold releaseAt
      cases bench.probes[index]? with
      | none => exact ih bench
      | some probe => exact ih _

theorem touches_releaseAt (device : Device) (file : FileId) (bench : Bench) :
    bench.Touches (· = file) (releaseAt device file bench) := by
  rcases files_releaseAt device file bench with hsame | hhungUp
  · exact .of_files_eq hsame
  · exact .of_modify hhungUp

theorem touches_closeFile (bench : Bench) (file : FileId) :
    bench.Touches (· = file) (bench.closeFile file) where
  fresh := fun hfresh => hfresh.erase file
  next := le_rfl
  others := by
    intro _ other _ hother
    rw [closeFile, Table.get?_erase, if_neg hother]

/-! ### Readers -/

theorem read_eq {file : FileId} {opened : OpenFile} (h : bench.files.get? file = some opened)
    (limit : Nat) : bench.read file limit =
      ((opened.read limit).1, bench.modifyFile file fun _ => (opened.read limit).2) := by
  rw [read, h]

theorem touches_read (bench : Bench) (file : FileId) (limit : Nat) :
    bench.Touches (· = file) (bench.read file limit).2 := by
  cases hopened : bench.files.get? file with
  | none =>
      rw [read, hopened]
      exact .of_files_eq rfl
  | some opened =>
      rw [read_eq hopened]
      exact bench.touches_modifyFile file _

/-- A reader takes the bytes at the front. -/
theorem get?_read {file : FileId} {opened : OpenFile} {bytes : List UInt8}
    (hopened : bench.files.get? file = some opened) (hsource : opened.source = .socket bytes true)
    (limit : Nat) : ∃ changed, (bench.read file limit).2.files.get? file = some changed ∧
      changed.source = .socket (bytes.drop limit) true := by
  have hget : (bench.read file limit).2.files.get? file = some (opened.read limit).2 := by
    rw [read_eq hopened]
    refine (Table.get?_modify ..).trans ?_
    rw [if_pos rfl, hopened, Option.map_some]
  refine ⟨_, hget, ?_⟩
  rw [OpenFile.read, hsource]
  by_cases hempty : bytes = []
  · subst hempty
    exact hsource.trans (by rw [List.drop_nil])
  · have hnot : (bytes.isEmpty && true) = false := by simpa using hempty
    simp only [hnot, Bool.false_eq_true, if_false]

/-- What a reader finds: it waits, or has the bytes at the front. -/
theorem read_socket {file : FileId} {opened : OpenFile} {bytes : List UInt8}
    (hopened : bench.files.get? file = some opened) (hsource : opened.source = .socket bytes true)
    (limit : Nat) :
    bytes = [] ∧ ((bench.read file limit).1 = .blocked ∨
        (bench.read file limit).1 = .failed .wouldBlock) ∨
      bytes ≠ [] ∧ (bench.read file limit).1 = .bytes (bytes.take limit) := by
  rw [read_eq hopened, OpenFile.read, hsource]
  by_cases hempty : bytes = []
  · subst hempty
    refine Or.inl ⟨rfl, ?_⟩
    cases opened.nonblocking
    · exact Or.inl rfl
    · exact Or.inr rfl
  · have hnot : (bytes.isEmpty && true) = false := by simpa using hempty
    refine Or.inr ⟨hempty, ?_⟩
    simp only [hnot, Bool.false_eq_true, if_false]

theorem watch_eq {file : FileId} {opened : OpenFile} (h : bench.files.get? file = some opened) :
    bench.watch file = (opened.watch.1, bench.modifyFile file fun _ => opened.watch.2) := by
  rw [watch, h]

theorem touches_watch (bench : Bench) (file : FileId) :
    bench.Touches (· = file) (bench.watch file).2 := by
  cases hopened : bench.files.get? file with
  | none =>
      rw [watch, hopened]
      exact .of_files_eq rfl
  | some opened =>
      rw [watch_eq hopened]
      exact bench.touches_modifyFile file _

/-- Who watches a file does not read it. -/
theorem get?_watch {file : FileId} {opened : OpenFile} (hopened : bench.files.get? file = some opened) :
    ∃ changed, (bench.watch file).2.files.get? file = some changed ∧
      changed.source = opened.source := by
  refine ⟨opened.watch.2, ?_, ?_⟩
  · rw [watch_eq hopened]
    refine (Table.get?_modify ..).trans ?_
    rw [if_pos rfl, hopened, Option.map_some]
  · unfold OpenFile.watch
    simp only
    split <;> rfl

/-! ### Deliveries -/

theorem touches_deliver (bench : Bench) (bytes : List UInt8) (lost : Notice) (files : List FileId) :
    bench.Touches (· ∈ files) (bench.deliver bytes lost files).2 := by
  induction files generalizing bench with
  | nil => exact .of_files_eq rfl
  | cons file rest ih =>
      have hrest := ih (bench.modifyFile file (·.deliver bytes))
      have hboth : bench.Touches (· ∈ file :: rest)
          ((bench.modifyFile file (·.deliver bytes)).deliver bytes lost rest).2 := by
        refine ⟨fun hfresh => hrest.fresh (hfresh.modify file _), hrest.next, ?_⟩
        intro hfresh other hlt hnot
        rw [List.mem_cons, not_or] at hnot
        rw [hrest.others (hfresh.modify file _) other hlt hnot.2]
        exact (Table.get?_modify ..).trans (if_neg hnot.1)
      unfold deliver
      simp only
      split <;> exact hboth

theorem get?_deliver (hfresh : bench.files.Fresh) {files : List FileId} (hnodup : files.Nodup)
    {file : FileId} (hmem : file ∈ files) {opened : OpenFile}
    (hopened : bench.files.get? file = some opened) (bytes : List UInt8) (lost : Notice) :
    (bench.deliver bytes lost files).2.files.get? file = some (opened.deliver bytes) := by
  have hlt := Table.get?_lt hfresh hopened
  induction files generalizing bench with
  | nil => cases hmem
  | cons first rest ih =>
      rw [List.nodup_cons] at hnodup
      have hhere : (bench.modifyFile first (·.deliver bytes)).files.get? file =
          if file = first then some (opened.deliver bytes) else some opened := by
        refine (Table.get?_modify ..).trans ?_
        rw [hopened, Option.map_some]
      have hmore : ((bench.modifyFile first (·.deliver bytes)).deliver bytes lost rest).2.files.get?
          file = some (opened.deliver bytes) := by
        by_cases heq : file = first
        · subst heq
          have hothers := (touches_deliver (bench.modifyFile file (·.deliver bytes)) bytes lost
            rest).others (hfresh.modify file _) file hlt hnodup.1
          rw [hothers, hhere, if_pos rfl]
        · rw [if_neg heq] at hhere
          exact ih (hfresh.modify first _) hnodup.2 ((List.mem_cons.mp hmem).resolve_left heq) hhere hlt
      unfold deliver
      simp only
      split <;> exact hmore

end GpioLines.Bench
