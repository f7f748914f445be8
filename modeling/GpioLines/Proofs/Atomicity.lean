import GpioLines.Bench.State
import GpioLines.Proofs.LocalErrors
import GpioLines.Proofs.Reachability
import GpioLines.Proofs.Reading

/-!
# Failed operations change nothing

An operation on a group fails for one of two reasons. A check or a plan of the library refuses it, and
then nothing has been asked of any device. Or a device refuses a call, and then that call was the last
one that mattered: what came before it is undone, and nothing was remembered yet. The long case is a
request for events, whose members are granted one by one.
-/

namespace GpioLines

/-! ### What a device has open -/

/-- A view of the files that a machine has open. It keeps up with grants and releases, and a call that
fails leaves it as it was. -/
structure Accounts {σ : Type} [Machine σ] (opened : σ → Multiset (Device × FileId)) : Prop where
  perform : ∀ (device : Device) (call : Call) (machine : σ),
    opened (Machine.perform device call machine).2 = opened machine +
      (call.granted device (Machine.perform device call machine).1).map
        fun lease => (lease.device, lease.file)
  release : ∀ (device : Device) (file : FileId) (machine : σ),
    opened (Machine.release device file machine) = (opened machine).erase (device, file)

/-- The files granted and not yet released along a trace. -/
def lent (trace : List Exchange) : Multiset (Device × FileId) :=
  trace.foldl (fun files exchange => match exchange with
    | .call device call outcome =>
      files + (call.granted device outcome).map fun lease => (lease.device, lease.file)
    | .release device file => files.erase (device, file)) 0

/-- Under observation every machine has such a view: what the trace says is on loan. -/
theorem accounts_lent {σ : Type} [Machine σ] :
    Accounts fun traced : Traced σ => lent traced.trace where
  perform _ _ _ := List.foldl_append
  release _ _ _ := List.foldl_append

def Handle.name (handle : Handle) : Device × FileId := (handle.device, handle.file)

/-- This error is what some device answers to some call. -/
def Answers (σ : Type) [Machine σ] (error : Error) : Prop :=
  ∃ (device : Device) (call : Call) (machine : σ),
    (Machine.perform device call machine).1 = .error error

variable {σ : Type} [Machine σ]

namespace World

variable {world : World (Traced σ)}

theorem perform_traced {device : Device} {call : Call} {outcome : Outcome call}
    {after : World (Traced σ)} (h : world.perform device call = (outcome, after)) :
    ∃ machine : Traced σ, after = { world with machine } ∧
      machine.trace = world.machine.trace ++ [.call device call outcome] ∧
      (∀ error, outcome = .error error → Answers σ error) ∧
      ∀ opened : σ → Multiset (Device × FileId), Accounts opened →
        opened machine.machine = opened world.machine.machine +
          (call.granted device outcome).map fun lease => (lease.device, lease.file) := by
  obtain ⟨machine, hperform, rfl⟩ := perform_eq h
  obtain ⟨houtcome, hmachine⟩ := Prod.mk.inj hperform
  refine ⟨machine, rfl, ?_, ?_, ?_⟩
  · rw [← hmachine, ← houtcome]
  · intro error herror
    exact ⟨device, call, world.machine.machine, houtcome.trans herror⟩
  · intro opened haccounts
    rw [← hmachine, ← houtcome]
    exact haccounts.perform device call world.machine.machine

/-! ### Letting go of what nobody holds -/

theorem dropHandles_unheld {ids : List HandleId} {closing : List Handle} (htidy : world.Tidy)
    (hnodup : ids.Nodup) (hunheld : ∀ id ∈ ids, ¬ world.ledger.Held id)
    (hfound : ids.map world.handles.get? = closing.map some) :
    ∃ (machine : Traced σ) (log : Array Notice),
      world.dropHandles ids =
        { world with machine, log, handles := world.handles.eraseAll ids } ∧
      machine.trace = world.machine.trace ++
        closing.map (fun handle => .release handle.device handle.file) ∧
      ∀ opened : σ → Multiset (Device × FileId), Accounts opened →
        opened machine.machine = opened world.machine.machine - (closing.map Handle.name : List _) := by
  induction ids generalizing world closing with
  | nil =>
      obtain rfl : closing = [] := List.map_eq_nil_iff.mp hfound.symm
      refine ⟨world.machine, world.log, rfl, (List.append_nil _).symm, fun opened _ => ?_⟩
      exact (Multiset.sub_zero _).symm
  | cons id rest ih =>
      cases closing with
      | nil => cases hfound
      | cons handle more =>
          rw [List.nodup_cons] at hnodup
          obtain ⟨hget, hmore⟩ := List.cons.inj hfound
          have hdrop := dropHandle_of_not_held htidy (hunheld id List.mem_cons_self)
          have hkept : rest.map (world.handles.erase id).get? = more.map some := by
            rw [← hmore]
            apply List.map_congr_left
            intro key hkey
            rw [Table.get?_erase, if_neg fun heq : key = id => hnodup.1 (heq ▸ hkey)]
          have hsplit : world.dropHandles (id :: rest) = (world.dropHandle id).dropHandles rest := by
            rw [dropHandles, if_neg hnodup.1]
          rw [hsplit, hdrop, closeHandle_eq hget]
          obtain ⟨machine, log, hworld, htrace, hopened⟩ := @ih
            { world with
              machine := Machine.release handle.device handle.file world.machine
              handles := world.handles.erase id
              log := world.log.push (.closingHandle handle) }
            more (htidy.congr rfl rfl) hnodup.2
            (fun key hkey => hunheld key (List.mem_cons_of_mem _ hkey)) hkept
          refine ⟨machine, log, hworld, ?_, ?_⟩
          · rw [htrace, List.map_cons, List.append_cons]
            rfl
          · intro opened haccounts
            rw [hopened opened haccounts, List.map_cons, ← Multiset.cons_coe, Multiset.sub_cons]
            exact congrArg (· - _) (haccounts.release handle.device handle.file _)

/-! ### Requests for events that are refused -/

/-- What passes to and from a device while it grants event requests for these lines. -/
def grantings (device : Device) (config : RequestConfig) (lines : List Line)
    (files : List FileId) : List Exchange :=
  List.zipWith (fun line file => .call device (.requestEvent (eventRequest config line)) (.ok file))
    lines files

/-- The members before the refused one are granted, each in its turn. -/
theorem acquireEvents_failed {device : Device} {config : RequestConfig}
    {granted ids : List HandleId} {lines : List Line} {line : Line} {error : Error}
    {after : World (Traced σ)}
    (h : world.acquireEvents device config granted lines = ((some (line, error), ids), after)) :
    ∃ (taken rest : List Line) (files : List FileId) (machine : Traced σ) (log : Array Notice),
      lines = taken ++ line :: rest ∧ files.length = taken.length ∧
      ids = granted ++ List.range' world.handles.next files.length ∧
      after = { world with
        machine, log, handles := world.handles.addAll (eventGrants device config taken files) } ∧
      machine.trace = world.machine.trace ++ grantings device config taken files ++
        [.call device (.requestEvent (eventRequest config line)) (.error error)] ∧
      Answers σ error ∧
      ∀ opened : σ → Multiset (Device × FileId), Accounts opened →
        opened machine.machine =
          opened world.machine.machine + (files.map (device, ·) : List (Device × FileId)) := by
  induction lines generalizing world granted with
  | nil => cases h
  | cons first others ih =>
      rcases hperform : world.perform device (.requestEvent (eventRequest config first))
        with ⟨refusal | file, mid⟩
      · rw [acquireEvents_refused hperform] at h
        obtain ⟨machine, rfl, htrace, hanswers, hopened⟩ := perform_traced hperform
        obtain ⟨⟨⟨rfl, rfl⟩, rfl⟩, rfl⟩ : ((first = line ∧ refusal = error) ∧ granted = ids) ∧
            { world with machine } = after := by
          simpa using h
        refine ⟨[], others, [], machine, world.log, rfl, rfl, (List.append_nil _).symm, rfl, ?_,
          hanswers _ rfl, ?_⟩
        · rw [htrace]
          simp [grantings]
        · intro opened haccounts
          rw [hopened opened haccounts]
          rfl
      · rw [acquireEvents_granted hperform] at h
        obtain ⟨machine, rfl, htrace, -, hopened⟩ := perform_traced hperform
        obtain ⟨taken, rest, files, machine', log, rfl, hlength, rfl, rfl, htrace', hanswers,
          hopened'⟩ := ih h
        refine ⟨first :: taken, rest, file :: files, machine', log, rfl,
          congrArg (· + 1) hlength, ?_, rfl, ?_, hanswers, ?_⟩
        · rw [List.append_assoc]
          rfl
        · rw [htrace']
          change machine.trace ++ _ ++ _ = _
          rw [htrace, List.append_assoc world.machine.trace]
          rfl
        · intro opened haccounts
          rw [hopened' opened haccounts]
          change opened machine.machine + _ = _
          rw [hopened opened haccounts, Multiset.add_assoc]
          rfl

end World

/-! ### What a failure amounts to -/

/-- Nothing that the library keeps has changed: the chips with what they know of their lines, the
handles with what is remembered of them, and the streams. -/
structure World.Spared (before after : World σ) : Prop where
  chips : after.chips = before.chips
  handles : ∀ id, after.handles.get? id = before.handles.get? id
  streams : after.streams = before.streams
  leases : after.ledger.leases = before.ledger.leases

def Handle.reading (handle : Handle)
    (outcome : Outcome (.getValues handle.file (List.replicate handle.offsets.length 0))) :
    Exchange :=
  .call handle.device (.getValues handle.file (List.replicate handle.offsets.length 0)) outcome

/-- What passes to and from a device if it refuses an operation with this error. -/
def GroupOperation.Refused (world : World (Traced σ)) (group : Group) (error : Error)
    (made : List Exchange) : GroupOperation → Prop
  | .request config defaults => ∃ chip, world.chipOf group = .ok chip ∧
    if config.type.isEvent then
      ∃ taken line rest files, group.lines = taken ++ line :: rest ∧
        files.length = taken.length ∧
        made = World.grantings chip.device config taken files ++
          [.call chip.device (.requestEvent (World.eventRequest config line)) (.error error)] ++
          files.map (.release chip.device)
    else made =
      [.call chip.device (.requestLines (World.linesRequest group config defaults)) (.error error)]
  | .getValues => ∃ held read refused rest fetched, world.handlesOf group = .ok held ∧
    World.distinctHandles held = read ++ refused :: rest ∧
    List.Forall₂ (fun entry exchange => ∃ values, exchange = entry.2.reading (.ok values))
      read fetched ∧
    made = fetched ++ [refused.2.reading (.error error)]
  | .setValues values => ∃ id handle ordered,
    world.planValues group values = .ok (id, handle, ordered) ∧
    made = [.call handle.device (.setValues handle.file ordered) (.error error)]
  | .setConfig .. | .setFlags _ | .setDirectionInput | .setDirectionOutput _ =>
    ∃ device file flags values, made = [.call device (.setConfig file flags values) (.error error)]

/-- The operation failed with this error and left nothing behind. Either the library raised the
error and made no call at all, or a device gave it as its answer. -/
structure GroupOperation.FailsCleanly (operation : GroupOperation) (group : Group)
    (before : World (Traced σ)) (error : Error) (after : World (Traced σ)) : Prop where
  spared : before.Spared after
  opened : ∀ opened : σ → Multiset (Device × FileId), Accounts opened →
    opened after.machine.machine = opened before.machine.machine
  made : ∃ made, after.machine.trace = before.machine.trace ++ made ∧
    (made = [] ∧ error.isLocal = true ∨
      Answers σ error ∧ operation.Refused before group error made)

variable {world : World (Traced σ)} {operation : GroupOperation} {group : Group} {error : Error}
  {after : World (Traced σ)}

omit [Machine σ] in
theorem failed_inj {α : Type} {refusal error : Error} {mid last : World σ}
    (h : ((.error refusal, mid) : Except Error α × World σ) = (.error error, last)) :
    refusal = error ∧ mid = last := by
  obtain ⟨hrefusal, hmid⟩ := Prod.mk.inj h
  exact ⟨Except.error.inj hrefusal, hmid⟩

theorem failsCleanly_of_local (h : error.isLocal = true) :
    operation.FailsCleanly group world error (world.fail (α := Unit) error).2 where
  spared := ⟨rfl, fun _ => rfl, rfl, rfl⟩
  opened := fun _ _ => rfl
  made := ⟨[], (List.append_nil _).symm, Or.inl ⟨rfl, h⟩⟩

theorem failsCleanly_of_refusal {device : Device} {call : Call}
    (h : world.perform device call = (.error error, after))
    (hrefused : operation.Refused world group error [.call device call (.error error)]) :
    operation.FailsCleanly group world error after := by
  obtain ⟨machine, rfl, htrace, hanswers, hopened⟩ := World.perform_traced h
  refine ⟨⟨rfl, fun _ => rfl, rfl, rfl⟩, ?_, _, htrace, Or.inr ⟨hanswers _ rfl, hrefused⟩⟩
  intro opened haccounts
  rw [hopened opened haccounts, Call.granted_error, Multiset.map_zero, Multiset.add_zero]

omit [Machine σ] in
/-- Handles that were granted and given back again leave nothing behind but their keys. -/
theorem World.spared_of_regranted (hsound : Desk.Sound ⟨world, 0⟩) {grants : List Handle}
    {machine : Traced σ} {log : Array Notice} :
    world.Spared { world with
      machine, log
      handles := (world.handles.addAll grants).eraseAll
        (List.range' world.handles.next grants.length) } := by
  have hfresh : world.handles.Fresh := hsound.ledger.handles_fresh
  have hget : ∀ id, ((world.handles.addAll grants).eraseAll
      (List.range' world.handles.next grants.length)).get? id = world.handles.get? id := by
    intro id
    rw [Table.get?_eraseAll, Table.get?_addAll hfresh]
    by_cases hlt : id < world.handles.next
    · rw [if_pos hlt, if_neg]
      intro hmem
      have := (List.mem_range'_1.mp hmem).1
      omega
    · rw [if_neg hlt]
      have hnone : world.handles.get? id = none := by
        by_contra hsome
        obtain ⟨handle, hhandle⟩ := Option.ne_none_iff_exists'.mp hsome
        exact hlt (Table.get?_lt hfresh hhandle)
      rw [hnone]
      split
      · rfl
      · next hout =>
        apply List.getElem?_eq_none
        by_contra hin
        exact hout (List.mem_range'_1.mpr (by omega))
  refine ⟨rfl, hget, rfl, ?_⟩
  have hentries := Table.Ascending.entries_eq
    ((hsound.ledger.handles_ascending.addAll hfresh grants).eraseAll _)
    hsound.ledger.handles_ascending hget
  exact congrArg (fun entries => ((entries.map fun entry => entry.2.lease : List Lease) :
    Multiset Lease)) hentries

/-- Whatever was granted since, nobody holds it yet, so letting go of it releases every file. -/
theorem World.dropHandles_regranted (hsound : Desk.Sound ⟨world, 0⟩) (grants : List Handle)
    (machine : Traced σ) (log : Array Notice) :
    ∃ (machine' : Traced σ) (log' : Array Notice),
      World.dropHandles { world with machine, log, handles := world.handles.addAll grants }
          (List.range' world.handles.next grants.length) =
        { world with
          machine := machine', log := log'
          handles := (world.handles.addAll grants).eraseAll
            (List.range' world.handles.next grants.length) } ∧
      machine'.trace = machine.trace ++
        grants.map (fun handle => .release handle.device handle.file) ∧
      ∀ opened : σ → Multiset (Device × FileId), Accounts opened →
        opened machine'.machine = opened machine.machine - (grants.map Handle.name : List _) := by
  have hfresh : world.handles.Fresh := hsound.ledger.handles_fresh
  have hunheld : ∀ id ∈ List.range' world.handles.next grants.length, ¬ world.ledger.Held id := by
    intro id hmem hheld
    obtain ⟨handle, hget⟩ := hsound.ledger.held_open hheld
    have hlt : id < world.handles.next := Table.get?_lt hfresh hget
    have := (List.mem_range'_1.mp hmem).1
    omega
  obtain ⟨machine', log', hworld, htrace, hopened⟩ := @World.dropHandles_unheld σ _
    { world with machine, log, handles := world.handles.addAll grants }
    (List.range' world.handles.next grants.length) grants (hsound.tidy.congr rfl rfl)
    List.nodup_range' hunheld (Table.map_get?_addAll hfresh grants)
  exact ⟨machine', log', hworld, htrace, hopened⟩

theorem failsCleanly_requestEvents (hsound : Desk.Sound ⟨world, 0⟩) {chip : Chip}
    {config : RequestConfig} {defaults : Option (List UInt8)} (hchip : world.chipOf group = .ok chip)
    (hevents : config.type.isEvent = true)
    (h : world.requestEvents chip.device group config = (.error error, after)) :
    (GroupOperation.request config defaults).FailsCleanly group world error after := by
  unfold World.requestEvents at h
  split at h
  · next line refusal ids mid hacquire =>
    obtain ⟨taken, rest, files, machine, log, hlines, hlength, hids, rfl, htrace, hanswers,
      hopened⟩ := World.acquireEvents_failed hacquire
    obtain ⟨hrefusal, hafter⟩ := Prod.mk.inj h
    obtain rfl := Except.error.inj hrefusal
    -- with or without a note, this is the world that lets go of what was granted
    obtain ⟨log', hnoted⟩ : ∃ log', (if ids.isEmpty then
          ({ world with
            machine, log
            handles := world.handles.addAll
              (World.eventGrants chip.device config taken files) } : World (Traced σ))
        else World.note { world with
            machine, log
            handles := world.handles.addAll (World.eventGrants chip.device config taken files) }
          (.refusedEvent line.offset ids.length refusal)) =
        { world with
          machine, log := log'
          handles := world.handles.addAll (World.eventGrants chip.device config taken files) } := by
      split
      · exact ⟨log, rfl⟩
      · exact ⟨_, rfl⟩
    rw [hnoted, hids, List.nil_append,
      ← World.length_eventGrants chip.device config hlength.le] at hafter
    obtain ⟨machine', log'', hworld, htrace', hopened'⟩ := World.dropHandles_regranted hsound
      (World.eventGrants chip.device config taken files) machine log'
    rw [hworld] at hafter
    subst hafter
    refine ⟨World.spared_of_regranted hsound, ?_,
      World.grantings chip.device config taken files ++
        [.call chip.device (.requestEvent (World.eventRequest config line)) (.error refusal)] ++
        files.map (.release chip.device), ?_, Or.inr ⟨hanswers, ?_⟩⟩
    · intro opened haccounts
      have hnames : (World.eventGrants chip.device config taken files).map Handle.name =
          files.map (chip.device, ·) :=
        World.map_eventGrants chip.device config hlength.le Prod.mk
      rw [hopened' opened haccounts, hopened opened haccounts, hnames]
      exact Multiset.add_sub_cancel_right
    · rw [htrace', htrace, World.map_eventGrants chip.device config hlength.le Exchange.release,
        List.append_assoc world.machine.trace, List.append_assoc world.machine.trace]
    · refine ⟨chip, hchip, ?_⟩
      rw [if_pos hevents]
      exact ⟨taken, line, rest, files, hlines, hlength, rfl⟩
  · cases h

theorem failsCleanly_request (hsound : Desk.Sound ⟨world, 0⟩) {config : RequestConfig}
    {defaults : Option (List UInt8)}
    (h : world.request group config defaults = (.error error, after)) :
    (GroupOperation.request config defaults).FailsCleanly group world error after := by
  unfold World.request at h
  split at h
  · next refusal hcheck =>
    obtain ⟨rfl, rfl⟩ := failed_inj h
    exact failsCleanly_of_local (world.checkRequest_failsLocally group config defaults _ hcheck)
  · unfold World.requestLocked at h
    split at h
    · next refusal hcheck =>
      obtain ⟨rfl, rfl⟩ := failed_inj h
      exact failsCleanly_of_local (world.checkTakeable_failsLocally group _ hcheck)
    · next chip hcheck =>
      have hchip := World.chipOf_of_checkTakeable hcheck
      cases hevents : config.type.isEvent with
      | true =>
          rw [hevents] at h
          rcases hrequest : world.requestEvents chip.device group config with ⟨outcome, mid⟩
          simp only [if_true, hrequest] at h
          cases outcome with
          | error refusal =>
              obtain ⟨rfl, rfl⟩ := failed_inj h
              exact failsCleanly_requestEvents hsound hchip hevents hrequest
          | ok => cases (Prod.mk.inj h).1
      | false =>
          rw [hevents] at h
          rcases hperform : world.perform chip.device
            (.requestLines (World.linesRequest group config defaults)) with ⟨refusal | file, mid⟩
          · simp only [Bool.false_eq_true, if_false, World.requestValues_refused hperform] at h
            obtain ⟨rfl, rfl⟩ := failed_inj h
            refine failsCleanly_of_refusal hperform ⟨chip, hchip, ?_⟩
            rw [hevents]
            rfl
          · simp only [Bool.false_eq_true, if_false, World.requestValues_granted hperform] at h
            cases (Prod.mk.inj h).1

/-! ### Operations on requested lines -/

/-- Reads of the handles before the refused one succeed, and change nothing. -/
theorem fetchAll_failed {held : List (HandleId × Handle)}
    (h : world.fetchAll held = (.error error, after)) :
    ∃ (read rest : List (HandleId × Handle)) (refused : HandleId × Handle)
      (fetched : List Exchange) (machine : Traced σ),
      held = read ++ refused :: rest ∧ after = { world with machine } ∧
      List.Forall₂ (fun entry exchange => ∃ values, exchange = entry.2.reading (.ok values))
        read fetched ∧
      machine.trace =
        world.machine.trace ++ (fetched ++ [refused.2.reading (.error error)]) ∧
      Answers σ error ∧
      ∀ opened : σ → Multiset (Device × FileId), Accounts opened →
        opened machine.machine = opened world.machine.machine := by
  induction held generalizing world with
  | nil => cases (Prod.mk.inj h).1
  | cons entry rest ih =>
      obtain ⟨id, handle⟩ := entry
      unfold World.fetchAll at h
      simp only at h
      split at h
      · next refusal mid hperform =>
        obtain ⟨rfl, rfl⟩ := failed_inj h
        obtain ⟨machine, rfl, htrace, hanswers, hopened⟩ := World.perform_traced hperform
        refine ⟨[], rest, (id, handle), [], machine, rfl, rfl, .nil, htrace, hanswers _ rfl, ?_⟩
        intro opened haccounts
        rw [hopened opened haccounts, Call.granted_error, Multiset.map_zero, Multiset.add_zero]
      · next values mid hperform =>
        obtain ⟨machine, rfl, htrace, -, hopened⟩ := World.perform_traced hperform
        split at h
        · next refusal last hrest =>
          obtain ⟨rfl, rfl⟩ := failed_inj h
          obtain ⟨read, rest, refused, fetched, machine', rfl, rfl, hfetched, htrace', hanswers,
            hopened'⟩ := ih hrest
          refine ⟨(id, handle) :: read, rest, refused, handle.reading (.ok values) :: fetched,
            machine', rfl, rfl, .cons ⟨values, rfl⟩ hfetched, ?_, hanswers, ?_⟩
          · rw [htrace']
            change machine.trace ++ _ = _
            rw [htrace, List.append_assoc]
            rfl
          · intro opened haccounts
            rw [hopened' opened haccounts]
            exact (hopened opened haccounts).trans (Multiset.add_zero _)
        · cases (Prod.mk.inj h).1

theorem failsCleanly_getValues (hsound : Desk.Sound ⟨world, 0⟩)
    (h : GroupOperation.getValues.run group world = (.error error, after)) :
    GroupOperation.getValues.FailsCleanly group world error after := by
  simp only [GroupOperation.run, World.getValues] at h
  split at h
  · next refusal hheld =>
    obtain ⟨rfl, rfl⟩ := failed_inj h
    exact failsCleanly_of_local (world.handlesOf_failsLocally group _ hheld)
  · next held hheld =>
    split at h
    · next refusal mid hfetch =>
      obtain ⟨rfl, rfl⟩ := failed_inj h
      obtain ⟨read, rest, refused, fetched, machine, hdistinct, rfl, hfetched, htrace, hanswers,
        hopened⟩ := fetchAll_failed hfetch
      exact ⟨⟨rfl, fun _ => rfl, rfl, rfl⟩, hopened, _, htrace,
        Or.inr ⟨hanswers, held, read, refused, rest, fetched, hheld, hdistinct, hfetched, rfl⟩⟩
    · next fetched mid hfetch =>
      -- a read that fetched everything cannot fail any more
      obtain ⟨values, hvalues⟩ := World.picked_of_fetched hsound.ledger hheld hfetch
      rw [hvalues] at h
      cases (Prod.mk.inj h).1

theorem failsCleanly_setValues {values : List UInt8}
    (h : world.setValues group values = (.error error, after)) :
    (GroupOperation.setValues values).FailsCleanly group world error after := by
  unfold World.setValues at h
  split at h
  · next refusal hplan =>
    obtain ⟨rfl, rfl⟩ := failed_inj h
    exact failsCleanly_of_local (world.planValues_failsLocally group values _ hplan)
  · next id handle ordered hplan =>
    unfold World.commitValues at h
    split at h
    · next refusal mid hperform =>
      obtain ⟨rfl, rfl⟩ := failed_inj h
      exact failsCleanly_of_refusal hperform ⟨id, handle, ordered, hplan, rfl⟩
    · cases (Prod.mk.inj h).1

def GroupOperation.reconfigures : GroupOperation → Bool
  | .setConfig .. | .setFlags _ | .setDirectionInput | .setDirectionOutput _ => true
  | _ => false

omit [Machine σ] in
theorem refused_of_reconfigures (hoperation : operation.reconfigures = true) {device : Device}
    {file : FileId} {flags : HandleFlags} {values : List UInt8} :
    operation.Refused world group error
      [.call device (.setConfig file flags values) (.error error)] := by
  cases operation with
  | request | getValues | setValues => cases hoperation
  | setConfig | setFlags | setDirectionInput | setDirectionOutput =>
      exact ⟨device, file, flags, values, rfl⟩

theorem failsCleanly_setConfig (hoperation : operation.reconfigures = true) {type : RequestType}
    {flags : RequestFlags} {values : Option (List UInt8)}
    (h : world.setConfig group type flags values = (.error error, after)) :
    operation.FailsCleanly group world error after := by
  unfold World.setConfig at h
  split at h
  · next refusal hcheck =>
    obtain ⟨rfl, rfl⟩ := failed_inj h
    exact failsCleanly_of_local (World.checkConfig_failsLocally group type flags values _ hcheck)
  · split at h
    · next refusal hplan =>
      obtain ⟨rfl, rfl⟩ := failed_inj h
      exact failsCleanly_of_local (world.planConfig_failsLocally group type flags values _ hplan)
    · next plan hplan =>
      rcases hperform : world.perform plan.handle.device
        (.setConfig plan.handle.file plan.flags plan.values) with ⟨refusal | reply, mid⟩
      · rw [World.commitConfig, hperform] at h
        simp only at h
        obtain ⟨rfl, rfl⟩ := failed_inj h
        exact failsCleanly_of_refusal hperform (refused_of_reconfigures hoperation)
      · rw [World.commitConfig, hperform] at h
        cases (Prod.mk.inj h).1

theorem failsCleanly_of_lookup (hoperation : operation.reconfigures = true)
    {lookup : Except Error (HandleId × Handle)} (hlookup : FailsLocally lookup)
    (type : Handle → RequestType) (flags : Handle → RequestFlags) (values : Option (List UInt8))
    (h : (match lookup with
      | .error error => world.fail error
      | .ok (_, handle) => world.setConfig group (type handle) (flags handle) values) =
      (.error error, after)) : operation.FailsCleanly group world error after := by
  cases lookup with
  | error refusal =>
      obtain ⟨rfl, rfl⟩ := failed_inj h
      exact failsCleanly_of_local (hlookup _ rfl)
  | ok found => exact failsCleanly_setConfig hoperation h

theorem failsCleanly_run (hsound : Desk.Sound ⟨world, 0⟩)
    (h : operation.run group world = (.error error, after)) :
    operation.FailsCleanly group world error after := by
  cases operation with
  | request config defaults => exact failsCleanly_request hsound h
  | getValues => exact failsCleanly_getValues hsound h
  | setValues values => exact failsCleanly_setValues h
  | setConfig type flags values => exact failsCleanly_setConfig rfl h
  | setFlags flags =>
      exact failsCleanly_of_lookup rfl (world.valuesHandle_failsLocally group)
        (fun handle => handle.flags.direction) (fun _ => flags) none h
  | setDirectionInput =>
      exact failsCleanly_of_lookup rfl (world.valuesHandle_failsLocally group)
        (fun _ => .input) (fun handle => { settings := handle.flags.settings.withoutDrive }) none h
  | setDirectionOutput values =>
      have hlookup : FailsLocally (do group.checkCount values; world.valuesHandle group) :=
        .bind (group.checkCount_failsLocally values) fun _ _ => world.valuesHandle_failsLocally group
      exact failsCleanly_of_lookup rfl hlookup (fun _ => .output)
        (fun handle => handle.flags.requestFlags) (some values) h

/-- **Failed operations are atomic.** In every state that clients can bring about, an operation on a
group that fails leaves the library as it was and the device with the files it had. If the library
raised the error, no device was called; if a device gave it, the calls up to that one were made, and
what they had granted was released again. -/
theorem failsCleanly_of_reachable {env : Traced σ → Traced σ → Prop} {client : Client (Traced σ)}
    (hreachable : client.Reachable env)
    (h : operation.run group client.world = (.error error, after)) :
    operation.FailsCleanly group client.world error after ∧
      (error.isLocal = true → ¬ Answers σ error →
        after.machine.trace = client.world.machine.trace) := by
  have hclean := failsCleanly_run hreachable.sound.desk h
  refine ⟨hclean, fun _ hanswers => ?_⟩
  obtain ⟨made, htrace, hmade⟩ := hclean.made
  rcases hmade with ⟨rfl, -⟩ | ⟨hanswered, -⟩
  · rw [htrace, List.append_nil]
  · exact absurd hanswered hanswers

/-- A request for the events of three lines, of which somebody else holds the last. What is on loan is
the same before and after it. -/
theorem failsCleanly_hogged :
    ∃ (client : Client (Traced (Traced Bench))) (after : World (Traced (Traced Bench))),
      let watch : GroupOperation := .request { consumer := "watch", type := .eventBoth } none
      let group : Group := ⟨[⟨0, 0⟩, ⟨0, 2⟩, ⟨0, 1⟩]⟩
      client.Reachable (fun _ _ => True) ∧
      watch.run group client.world = (.error (.call .requestEvent .busy), after) ∧
      watch.FailsCleanly group client.world (.call .requestEvent .busy) after ∧
      lent after.machine.machine.trace = lent client.world.machine.machine.trace := by
  let bench : Bench := { simulators := [(Simulator.create "gpiochip0" 4).hog 1 "other"] }
  let client := (Client.start ⟨⟨bench, []⟩, []⟩ : Client (Traced (Traced Bench))).callAll
    [.openChip (.simulator 0), .getLines 0 [0, 2, 1]]
  have hreachable : client.Reachable fun _ _ => True := ⟨_, Client.run_callAll (by decide)⟩
  obtain ⟨after, hrun⟩ : ∃ after,
      (GroupOperation.request { consumer := "watch", type := .eventBoth } none).run
        ⟨[⟨0, 0⟩, ⟨0, 2⟩, ⟨0, 1⟩]⟩ client.world = (.error (.call .requestEvent .busy), after) :=
    ⟨_, Prod.ext (by rfl) rfl⟩
  clear_value client
  have hclean := (failsCleanly_of_reachable hreachable hrun).1
  exact ⟨client, after, hreachable, hrun, hclean, hclean.opened _ accounts_lent⟩

end GpioLines
