import GpioLines.Proofs.Locality

/-!
# Work elsewhere

A task on a group of one region leaves every other region of the simulated chip as it was. The other
region is mirrored from the state before as from the state after; only the numbers that are still to
be given out there have moved on, and the count of ended grants.
-/

namespace GpioLines

/-! ### What a chain of deals adds -/

/-- A call adds at most the grant that it is granted. -/
theorem Bench.mem_grants_of_perform {bench after : Bench} {device : Device} {call : Call}
    {outcome : Outcome call} (h : Bench.perform device call bench = (outcome, after)) {index : Nat}
    {grant : Grant} (hmem : grant ∈ after.grants index) : grant ∈ bench.grants index ∨
      device.simulator? = some index ∧ grant ∈ call.grants bench.files.next ∧
        ∃ reply, outcome = .ok reply := by
  rcases perform_cases h with hpassed | ⟨reply, found, rfl, hgranted⟩
  · exact Or.inl (hpassed.grants ▸ hmem)
  · rw [hgranted.grants] at hmem
    refine (List.mem_append.mp hmem).imp_right fun hnew => ?_
    split at hnew
    · next heq => exact ⟨heq ▸ hgranted.beneath, hnew, reply, rfl⟩
    · cases hnew

/-- A release ends what was granted under its file, and adds nothing. -/
theorem Bench.mem_grants_of_releaseAt {bench : Bench} {device : Device} {file : FileId} {index : Nat}
    {grant : Grant} (h : grant ∈ (releaseAt device file bench).grants index) :
    grant ∈ bench.grants index ∧ (device.simulator? = some index → grant.file ≠ file) := by
  rw [Bench.grants, simulators_releaseAt] at h
  split at h
  · cases hsim : bench.simulators[index]? with
    | none =>
        rw [hsim] at h
        cases h
    | some sim =>
        rw [hsim] at h
        rw [grants_of_eq hsim]
        change grant ∈ (sim.release file).grants at h
        rcases sim.release_eq file with ⟨hnone, heq⟩ | ⟨ended, -, -, -, heq⟩
        · rw [heq] at h
          exact ⟨h, fun _ => by simpa using List.find?_eq_none.mp hnone grant h⟩
        · rw [heq] at h
          obtain ⟨hmem, hother⟩ := List.mem_filter.mp h
          exact ⟨hmem, fun _ => by simpa using hother⟩
  · next hdevice => exact ⟨h, fun hindex => absurd hindex hdevice⟩

namespace World

/-- A grant that no handle stands for; somebody else was given its file. -/
def Loose (world : World (Traced Bench)) (index : Nat) (grant : Grant) : Prop :=
  grant ∈ world.bench.grants index ∧ ∀ id handle, world.handles.get? id = some handle →
    handle.device.simulator? = some index → handle.file ≠ grant.file

namespace Loose

variable {world after : World (Traced Bench)} {index : Nat} {grant : Grant}

theorem of_le (h : after.Loose index grant)
    (hgrants : grant ∈ after.bench.grants index → grant ∈ world.bench.grants index)
    (hhandles : ∀ id handle, world.handles.get? id = some handle → ∃ found,
      after.handles.get? id = some found ∧ handle.SameGrant found) : world.Loose index grant := by
  refine ⟨hgrants h.1, fun id handle hget hindex => ?_⟩
  obtain ⟨found, hfound, -, hdevice, hfile, -⟩ := hhandles id handle hget
  rw [hfile]
  exact h.2 id found hfound (hdevice ▸ hindex)

theorem of_eq (h : after.Loose index grant)
    (hgrants : after.bench.grants index = world.bench.grants index)
    (hhandles : after.handles = world.handles) : world.Loose index grant :=
  h.of_le (fun hmem => hgrants ▸ hmem) fun _ handle hget => ⟨handle, hhandles ▸ hget, .refl handle⟩

/-- A call that is granted no file adds no grant. -/
theorem mem_of_perform {device : Device} {call : Call} {outcome : Outcome call}
    (hperform : world.perform device call = (outcome, after))
    (hnone : ∀ fresh reply, outcome = .ok reply → call.grants fresh = [])
    (hmem : grant ∈ after.bench.grants index) : grant ∈ world.bench.grants index := by
  obtain ⟨bench, hbench, rfl⟩ := perform_bench hperform
  refine (Bench.mem_grants_of_perform hbench hmem).resolve_right ?_
  rintro ⟨-, hnew, reply, hreply⟩
  rw [hnone _ reply hreply] at hnew
  cases hnew

theorem of_perform {device : Device} {call : Call} {outcome : Outcome call}
    (hperform : world.perform device call = (outcome, after)) (h : after.Loose index grant)
    (hnone : ∀ fresh reply, outcome = .ok reply → call.grants fresh = []) :
    world.Loose index grant :=
  h.of_le (mem_of_perform hperform hnone) fun _ handle hget =>
    ⟨handle, handles_of_perform hperform ▸ hget, .refl handle⟩

/-- As `of_perform`, if then something else is remembered of a handle. -/
theorem of_modify {device : Device} {call : Call} {outcome : Outcome call}
    (hperform : world.perform device call = (outcome, after)) {id : HandleId} {f : Handle → Handle}
    (h : Loose { after with handles := after.handles.modify id f } index grant)
    (hnone : ∀ fresh reply, outcome = .ok reply → call.grants fresh = [])
    (hsame : ∀ handle : Handle, handle.SameGrant (f handle)) : world.Loose index grant := by
  refine h.of_le (fun hmem => mem_of_perform hperform hnone hmem) fun key handle hget => ?_
  rw [← handles_of_perform hperform] at hget
  refine ⟨_, Table.get?_modify_eq_some.mpr ⟨handle, hget, rfl⟩, ?_⟩
  split
  · exact hsame handle
  · exact .refl handle

/-- A call that is granted a file, which becomes a handle at once. -/
theorem of_grant {device : Device} {call : Call} {outcome : Outcome call}
    (hperform : world.perform device call = (outcome, after)) (hfresh : world.handles.Fresh)
    {handle : Handle} (hdevice : handle.device = device)
    (hopens : call.opens device outcome = [(device, handle.file)])
    (h : (after.openHandle handle).Loose index grant) : world.Loose index grant := by
  obtain ⟨bench, hbench, rfl⟩ := perform_bench hperform
  refine h.of_le (fun hmem => ?_) fun id found hget => ⟨found, ?_, .refl found⟩
  · refine (Bench.mem_grants_of_perform hbench hmem).resolve_right ?_
    rintro ⟨hindex, hnew, -⟩
    refine h.2 world.handles.next handle (openHandle_found hfresh handle) (hdevice ▸ hindex) ?_
    rcases Workshop.opens_perform hbench with hnothing | ⟨given, hgiven, hnext⟩
    · rw [hopens] at hnothing
      cases hnothing
    · rw [hopens, List.singleton_inj, Prod.mk.injEq] at hgiven
      rw [hgiven.2, (hnext index hindex).1, Call.file_of_mem_grants hnew]
  · refine (Table.get?_add hfresh handle id).trans ?_
    rw [if_neg (Table.get?_lt hfresh hget).ne, hget]

end Loose

end World

open World in
/-- Who has a file past the library had it before. -/
theorem Deal.loose {before after : Docket (Traced Bench)} {lent : List (Device × FileId)}
    (hdeal : Deal False before after) (haccord : before.world.Accord lent) {index : Nat}
    {grant : Grant} (h : after.world.Loose index grant) : before.world.Loose index grant := by
  cases hdeal with
  | pass hkeeps => exact h.of_eq (by rw [World.bench, hkeeps.machine]) hkeeps.handles
  | openChip hadds => exact hadds.elim
  | @read world _ file size =>
      exact h.of_eq (congrFun (world.bench.filesOnly_read file size).grants index) rfl
  | @watch world _ file =>
      exact h.of_eq (congrFun (world.bench.filesOnly_watch file).grants index) rfl
  | unwatch => exact h.of_eq rfl rfl
  | @ask _ _ _ _ call outcome hquiet _ htold =>
      refine h.of_perform htold fun fresh reply hreply => ?_
      subst hreply
      cases call with
      | chipInfo | lineInfo | getValues => rfl
      | requestLines | requestEvent | setValues | setConfig =>
          obtain ⟨error, hrefused⟩ := hquiet
          cases hrefused
  | learn _ htold | doubt _ htold =>
      exact .of_perform htold (h.of_eq rfl rfl) fun _ _ _ => rfl
  | take _ _ hgranted => exact .of_grant hgranted haccord.fresh rfl rfl h
  | listen _ hgranted => exact .of_grant hgranted haccord.fresh rfl rfl h
  | attach => exact h.of_eq rfl rfl
  | drive _ _ _ htold => exact .of_modify htold h (fun _ _ _ => rfl) fun _ => ⟨rfl, rfl, rfl, rfl⟩
  | configure _ _ _ _ htold =>
      exact .of_modify htold h (fun _ _ _ => rfl) fun _ => ⟨rfl, rfl, rfl, rfl⟩
  | @close world _ id handle hfound =>
      have hgrants : (world.closeHandle id).bench.grants =
          (Bench.releaseAt handle.device handle.file world.bench).grants := by
        rw [closeHandle_eq hfound]
        rfl
      have hhandles : (world.closeHandle id).handles = world.handles.erase id :=
        congrArg Ledger.handles (world.ledger_closeHandle id hfound)
      obtain ⟨hmem, hnone⟩ := h
      rw [hgrants] at hmem
      obtain ⟨hbefore, hother⟩ := Bench.mem_grants_of_releaseAt hmem
      refine ⟨hbefore, fun key found hget hindex => ?_⟩
      by_cases hkey : key = id
      · subst hkey
        obtain rfl := Option.mem_unique hfound hget
        exact (hother hindex).symm
      · exact hnone key found (hhandles ▸ Table.get?_erase_eq_some.mpr ⟨hkey, hget⟩) hindex

open World in
theorem Deals.loose {before after : Docket (Traced Bench)} {lent : List (Device × FileId)}
    (hdeals : Deals False before after) (haccord : before.world.Accord lent) {index : Nat}
    {grant : Grant} (h : after.world.Loose index grant) : before.world.Loose index grant := by
  induction hdeals with
  | refl => exact h
  | tail hdeals hdeal ih => exact ih (hdeal.loose (Deals.accord hdeals haccord) h)

open World in
theorem Deal.fresh_files {adds : Prop} {before after : Docket (Traced Bench)}
    (hdeal : Deal adds before after) (h : before.world.bench.files.Fresh) :
    after.world.bench.files.Fresh := by
  have hperform : ∀ {world after : World (Traced Bench)} {device : Device} {call : Call}
      {outcome : Outcome call}, world.perform device call = (outcome, after) →
      world.bench.files.Fresh → after.bench.files.Fresh := by
    intro world after device call outcome hperform h
    obtain ⟨bench, hbench, rfl⟩ := perform_bench hperform
    exact (Bench.touches_perform hbench).fresh h
  cases hdeal with
  | pass hkeeps => rwa [World.bench, hkeeps.machine]
  | openChip | attach => exact h
  | @unwatch world _ file => exact (world.bench.touches_modifyFile file OpenFile.unwatch).fresh h
  | @read world _ file size => exact (world.bench.touches_read file size).fresh h
  | @watch world _ file => exact (world.bench.touches_watch file).fresh h
  | ask _ _ htold => exact hperform htold h
  | learn _ htold | doubt _ htold | take _ _ htold | listen _ htold | drive _ _ _ htold
  | configure _ _ _ _ htold =>
      have hfresh := hperform htold h
      exact hfresh
  | @close world _ id handle hfound =>
      rw [show (world.closeHandle id).bench = _ from congrArg bench (closeHandle_eq hfound)]
      exact (Bench.touches_closeFile _ handle.file).fresh
        ((Bench.touches_releaseAt handle.device handle.file world.bench).fresh h)

theorem Deals.fresh_files {adds : Prop} {before after : Docket (Traced Bench)}
    (hdeals : Deals adds before after) (h : before.world.bench.files.Fresh) :
    after.world.bench.files.Fresh := by
  induction hdeals with
  | refl => exact h
  | tail _ hdeal ih => exact hdeal.fresh_files ih

/-! ### Work in a region -/

/-- What belongs to the region, and all that is new. -/
def Region.area (region : Region) (world : World (Traced Bench)) : Area where
  lines := {line | region.Lists world line}
  reach := {place | place.1 = region.index ∧ place.2 ∈ region.offsets}
  handles := {id | world.handles.next ≤ id ∨
    ∃ handle, world.handles.get? id = some handle ∧ region.Has handle}
  files := {file | world.bench.files.next ≤ file ∨
    ∃ id handle, world.handles.get? id = some handle ∧ region.Has handle ∧ handle.file = file}
  targets := Set.univ

namespace World

variable {world after : World (Traced Bench)} {region : Region} {lent : List (Device × FileId)}
  {group : Group}

theorem Fenced.fits (h : world.Fenced region lent) : world.Fits (region.area world) lent where
  accord := h.accord
  newHandles := fun _ => Or.inl
  newFiles := fun _ => Or.inl
  spans := by
    rintro id (hnew | ⟨_, hfound, hhas⟩) handle hget
    · exact absurd (Table.get?_lt h.accord.fresh hget) (Nat.not_lt.mpr hnew)
    · obtain rfl := Option.mem_unique hfound hget
      refine ⟨Or.inr ⟨id, _, hget, hhas, rfl⟩, fun index hindex offset hmem =>
        ⟨?_, hhas.2 offset hmem⟩⟩
      exact Option.some.inj (hindex.symm.trans hhas.simulator?)

theorem Fenced.admits (h : world.Fenced region lent)
    (hlines : ∀ line ∈ group.lines, region.Lists world line) :
    Admits (region.area world) world group where
  lines := hlines
  reach := by
    rintro line hline index ⟨device, hdevice, hindex⟩
    obtain rfl := Option.mem_unique hdevice (hlines line hline).1
    exact ⟨(Option.some.inj hindex).symm, (hlines line hline).2⟩
  files := Or.inr fun line hline => ⟨region.index, _, (hlines line hline).1, rfl⟩
  covered := fun _ handle hcovers =>
    ⟨Or.inr ⟨handle, hcovers.found, h.covered hlines hcovers⟩, Set.mem_univ _⟩

/-- What is done in a region. -/
structure WorksIn (region : Region) (lent : List (Device × FileId))
    (before after : World (Traced Bench)) : Prop where
  stays : before.StaysIn (region.area before) lent after
  desk : Desk.Sound ⟨after, 0⟩
  fresh : before.bench.files.Fresh → after.bench.files.Fresh
  /-- Every open handle belongs to the region, or is as it was before. -/
  handles : ∀ id handle, after.handles.get? id = some handle →
    region.Has handle ∨ ¬ region.Has handle ∧ before.handles.get? id = some handle
  loose : ∀ grant, after.Loose region.index grant → before.Loose region.index grant

/-- Within its fence a region stays fenced. -/
theorem StaysIn.fenced (hstays : world.StaysIn (region.area world) lent after)
    (h : world.Fenced region lent) (hdesk : Desk.Sound ⟨after, 0⟩) : after.Fenced region lent where
  desk := hdesk
  accord := hstays.fits.accord
  closed := by
    intro id handle hget hindex hmeets
    by_cases hid : id ∈ (region.area world).handles
    · exact fun offset hmem =>
        ((hstays.fits.spans id hid handle hget).reach region.index hindex offset hmem).2
    · rw [hstays.confined.handles id hid] at hget
      exact h.closed id handle hget hindex hmeets

theorem WorksIn.fenced (hworks : world.WorksIn region lent after) (h : world.Fenced region lent) :
    after.Fenced region lent :=
  hworks.stays.fenced h hworks.desk

theorem Fenced.worksIn (h : world.Fenced region lent)
    (hlines : ∀ line ∈ group.lines, region.Lists world line) {scope : Scope}
    (hscope : ∀ line ∈ scope.lines, line ∈ group.lines)
    (hstays : world.StaysIn (region.area world) lent after)
    (hmoves : Moves scope ⟨world, 0⟩ ⟨after, 0⟩) (hdeals : Deals False ⟨world, ∅⟩ ⟨after, ∅⟩) :
    world.WorksIn region lent after where
  stays := hstays
  desk := hmoves.sound h.desk
  fresh := hdeals.fresh_files
  loose := fun _ => hdeals.loose h.accord
  handles := by
    intro id handle hget
    have hdesk := hmoves.sound h.desk
    have hfenced := hstays.fenced h hdesk
    have hevolves := hmoves.evolves h.desk
    by_cases hhas : region.Has handle
    · exact Or.inl hhas
    refine Or.inr ⟨hhas, ?_⟩
    -- a handle that is new is held by a member of the group, so it belongs to the region
    have hold : id < world.handles.next := by
      by_contra hnew
      rcases (hdesk.kept id handle hget).resolve_right (Multiset.notMem_zero id) with
        ⟨line, hholds⟩ | ⟨entry, hentry, rfl⟩
      · rcases hevolves.holds line id hholds with hbefore | ⟨-, hasked⟩
        · exact hnew (h.accord.home line id hbefore).1
        · have hline : region.Lists after line := by
            rw [Region.Lists, hdeals.device?]
            exact hlines line (hscope line hasked)
          obtain ⟨found, hfound, hin⟩ := hfenced.has hline hholds
          obtain rfl := Option.mem_unique hget hfound
          exact hhas hin
      · have hentry : entry ∈ world.streams.entries := hstays.confined.streams ▸ hentry
        obtain ⟨found, hfound, -⟩ := h.desk.ledger.stream_open entry hentry
        exact hnew (Table.get?_lt h.accord.fresh hfound)
    refine (hstays.confined.handles id ?_).symm.trans hget
    rintro (hnew | ⟨found, hfound, hin⟩)
    · exact absurd hold (Nat.not_lt.mpr hnew)
    · rcases hevolves.handles id handle hget with ⟨old, hbefore, hsame⟩ | ⟨hnew, -⟩
      · obtain rfl := Option.mem_unique hfound hbefore
        exact hhas (hin.of_sameGrant hsame)
      · exact absurd hold (Nat.not_lt.mpr hnew)

end World

/-- **A task on a group of a region is work in the region.** -/
theorem GroupTask.worksIn {world : World (Traced Bench)} {region : Region}
    {lent : List (Device × FileId)} (h : world.Fenced region lent) {group : Group}
    (hgroup : group.WellFormed) (hlines : ∀ line ∈ group.lines, region.Lists world line)
    (task : GroupTask) : world.WorksIn region lent (task.perform group world).2 := by
  rcases task with operation | -
  · have hrun : (GroupTask.perform group world (.operate operation)).2 =
        (operation.run group world).2 := by
      cases operation <;> rfl
    rw [hrun]
    have hscope : ∀ line ∈ ((Operation.onGroup operation group).scope world).lines,
        line ∈ group.lines := by
      intro line hline
      cases operation with
      | request config defaults =>
          simp only [Operation.scope] at hline
          split at hline
          · exact hline
          · cases hline
      | getValues | setValues | setConfig | setFlags | setDirectionInput | setDirectionOutput =>
          cases hline
    exact h.worksIn hlines hscope
      (operation.staysIn h.fits h.desk (h.admits hlines) hgroup.size_le)
      (operation.moves h.desk hgroup.size_le) (operation.deals h.desk hgroup.size_le)
  · have hmoves : Moves { first := 0 } ⟨world, 0⟩ ⟨world.release group, 0⟩ :=
      World.moves_release group
    refine h.worksIn hlines (fun _ hline => absurd hline List.not_mem_nil)
      (h.fits.release hlines ?_) hmoves (World.deals_release group)
    intro line hline id hholds
    obtain ⟨handle, hget, hhas⟩ := h.has (hlines line hline) hholds
    exact Or.inr ⟨handle, hget, hhas⟩

/-! ### Work next to a region -/

/-- Two regions of one simulated chip without a common line. -/
structure Region.Apart (region other : Region) : Prop where
  index : other.index = region.index
  disjoint : ∀ offset ∈ region.offsets, offset ∉ other.offsets

namespace Region.Apart

variable {region other : Region}

theorem symm (h : region.Apart other) : other.Apart region :=
  ⟨h.index.symm, fun offset hmem hother => h.disjoint offset hother hmem⟩

theorem not_has (h : region.Apart other) {handle : Handle} (hvalid : handle.Valid)
    (hhas : region.Has handle) : ¬ other.Has handle := by
  intro hother
  obtain ⟨offset, hoffset⟩ := List.exists_mem_of_length_pos hvalid.pos
  exact h.disjoint offset (hhas.2 offset hoffset) (hother.2 offset hoffset)

end Region.Apart

/-- How many grants of a simulated chip have ended. -/
def Bench.released (bench : Bench) (index : Nat) : Nat :=
  (bench.simulators[index]?).elim 0 Simulator.released

/-- The numbers that are given out from now on have moved on. -/
def Renumbering.renew (numbers : Renumbering) (world later : World (Traced Bench)) : Renumbering where
  handle := GpioLines.renew numbers.handle world.handles.next later.handles.next
  file := GpioLines.renew numbers.file world.bench.files.next later.bench.files.next

namespace World

variable {region other : Region} {numbers : Renumbering} {gap : Int}
  {world after a b : World (Traced Bench)} {lent : List (Device × FileId)}

section Elsewhere

variable (hapart : region.Apart other) (hworks : world.WorksIn other lent after)

include hapart in
theorem not_mem_area_lines {line : Line} (hline : region.Lists world line) :
    line ∉ (other.area world).lines :=
  fun hother => hapart.disjoint _ hline.2 hother.2

theorem not_mem_area_handles (hfresh : world.handles.Fresh) {id : HandleId} {handle : Handle}
    (hget : world.handles.get? id = some handle) (hnot : ¬ other.Has handle) :
    id ∉ (other.area world).handles := by
  rintro (hnew | ⟨found, hfound, hother⟩)
  · exact absurd (Table.get?_lt hfresh hget) (Nat.not_lt.mpr hnew)
  · obtain rfl := Option.mem_unique hget hfound
    exact hnot hother

theorem not_mem_area_files (haccord : world.Accord lent) {id : HandleId} {handle : Handle}
    (hget : world.handles.get? id = some handle)
    (hindex : handle.device.simulator? = some other.index) (hnot : ¬ other.Has handle) :
    handle.file ∉ (other.area world).files := by
  rintro (hnew | ⟨key, found, hfound, hother, hfile⟩)
  · exact absurd (haccord.lending.file_lt haccord.bench hget hindex) (Nat.not_lt.mpr hnew)
  · obtain rfl := haccord.lending.distinct id key handle found other.index hget hfound hindex
      hother.simulator? hfile.symm
    obtain rfl := Option.mem_unique hget hfound
    exact hnot hother

theorem Loose.not_mem_area {grant : Grant} (h : world.Loose other.index grant)
    (haccord : world.Accord lent) : grant.file ∉ (other.area world).files := by
  rintro (hnew | ⟨id, handle, hget, hhas, hfile⟩)
  · exact absurd (haccord.bench.fresh _ grant h.1) (Nat.not_lt.mpr hnew)
  · exact h.2 id handle hget hhas.simulator? hfile

include hapart hworks in
theorem Fenced.elsewhere (h : world.Fenced region lent) : after.Fenced region lent where
  desk := hworks.desk
  accord := hworks.stays.fits.accord
  closed := by
    intro id handle hget hindex hmeets
    by_cases hid : id ∈ (other.area world).handles
    · obtain ⟨offset, hoffset, hmem⟩ := hmeets
      have hreach := (hworks.stays.fits.spans id hid handle hget).reach region.index hindex offset
        hoffset
      exact absurd hreach.2 (hapart.disjoint _ hmem)
    · rw [hworks.stays.confined.handles id hid] at hget
      exact h.closed id handle hget hindex hmeets

end Elsewhere

/-- A simulated chip that is only worked on keeps its make, and the lines that are out of reach. -/
theorem simulator_elsewhere (hapart : region.Apart other) (hworks : world.WorksIn other lent after)
    {sim : Simulator} (hsim : world.bench.simulators[region.index]? = some sim) :
    ∃ later, after.bench.simulators[region.index]? = some later ∧ later.make = sim.make ∧
      ∀ offset ∈ region.offsets, later.line? offset = sim.line? offset := by
  have hmake := hworks.stays.confined.bench.make region.index
  rw [hsim, Option.map_some] at hmake
  obtain ⟨later, hlater, hsame⟩ := Option.map_eq_some_iff.mp hmake
  refine ⟨later, hlater, hsame, fun offset hmem => ?_⟩
  have hline := hworks.stays.confined.bench.line? region.index offset fun hreach =>
    hapart.disjoint _ hmem hreach.2
  rwa [Bench.line?, Bench.line?, hsim, hlater] at hline

theorem released_of_eq {index : Nat} {sim : Simulator}
    (hsim : world.bench.simulators[index]? = some sim) :
    world.bench.released index = sim.released := by
  rw [Bench.released, hsim, Option.elim_some]

namespace Mirrors

variable (h : Mirrors region numbers gap a b) (hapart : region.Apart other)

include h hapart

/-- What a handle of the region has become is out of the area of the other region. -/
theorem not_mem_area (hb : b.Accord lent) (hsecond : Desk.Sound ⟨b, 0⟩) {id : HandleId}
    {handle : Handle} (hget : a.handles.get? id = some handle) (hhas : region.Has handle) :
    numbers.handle id ∉ (other.area b).handles ∧ numbers.file handle.file ∉ (other.area b).files := by
  have hmate := h.handle id handle hget hhas
  have hnot : ¬ other.Has (handle.renumber numbers) :=
    hapart.not_has (hsecond.ledger.valid _ _ hmate) hhas
  have hindex : (handle.renumber numbers).device.simulator? = some other.index :=
    hapart.index ▸ hhas.simulator?
  exact ⟨not_mem_area_handles hb.fresh hmate hnot, not_mem_area_files hb hmate hindex hnot⟩

theorem simulator_worked (hworks : b.WorksIn other lent after) :
    Option.Rel (Simulator.Mirrors region.offsets
        (gap + (after.bench.released region.index - b.bench.released region.index)))
      (a.bench.simulators[region.index]?) (after.bench.simulators[region.index]?) := by
  rcases h.simulator_cases with ⟨hnone, hnowhere⟩ | ⟨sim, twin, hsim, htwin, hmirrors⟩
  · have hmake := hworks.stays.confined.bench.make region.index
    rw [hnowhere, Option.map_none, Option.map_eq_none_iff] at hmake
    rw [hnone, hmake]
    exact .none
  · obtain ⟨later, hlater, hmake, hline⟩ := simulator_elsewhere hapart hworks htwin
    rw [hsim, hlater, released_of_eq hlater, released_of_eq htwin]
    refine .some ⟨hmake.trans hmirrors.make, fun offset hmem => ?_, ?_⟩
    · exact (hline offset hmem).trans (hmirrors.line? offset hmem)
    · have hreleased := hmirrors.released
      omega

/-- **Work in another region is not seen in the mirror.** -/
theorem elsewhere (ha : a.Accord lent) (hfirst : Desk.Sound ⟨a, 0⟩) (hb : b.Accord lent)
    (hsecond : Desk.Sound ⟨b, 0⟩) (hworks : b.WorksIn other lent after) :
    Mirrors region (numbers.renew a after)
      (gap + (after.bench.released region.index - b.bench.released region.index)) a after := by
  have hconfined := hworks.stays.confined
  have hhandle : ∀ id < a.handles.next, (numbers.renew a after).handle id = numbers.handle id :=
    fun _ hlt => renew_of_lt hlt
  have hfile : ∀ {id : HandleId} {handle : Handle}, a.handles.get? id = some handle →
      region.Has handle → (numbers.renew a after).file handle.file = numbers.file handle.file :=
    fun hget hhas => renew_of_lt (ha.lending.file_lt ha.bench hget hhas.simulator?)
  have hout : ∀ {id : HandleId} {handle : Handle}, a.handles.get? id = some handle →
      region.Has handle → numbers.handle id ∉ (other.area b).handles ∧
        numbers.file handle.file ∉ (other.area b).files :=
    fun hget hhas => h.not_mem_area hapart hb hsecond hget hhas
  exact
    { faces := hconfined.faces.trans h.faces
      record := by
        intro line hline
        rw [hconfined.record line (not_mem_area_lines hapart (h.lists_iff.mpr hline)),
          h.record line hline]
        exact LineRecord.renumber_congr fun id hid => (hhandle id (ha.home line id hid).1).symm
      streams := hconfined.streams.trans h.streams
      tokens := hconfined.tokens.trans h.tokens
      fixed := by
        intro entry hentry
        obtain ⟨found, hfound, -⟩ := hfirst.ledger.stream_open entry hentry
        exact (hhandle _ (Table.get?_lt ha.fresh hfound)).trans (h.fixed entry hentry)
      handles := h.handles.renew hconfined.next_le
      files := h.files.renew hconfined.bench.next_le
      handle := by
        intro id handle hget hhas
        rw [hhandle id (Table.get?_lt ha.fresh hget), hconfined.handles _ (hout hget hhas).1,
          h.handle id handle hget hhas, Handle.renumber_congr (hfile hget hhas)]
      onto := by
        intro id handle hget hhas
        have hvalid := hworks.desk.ledger.valid id handle hget
        obtain ⟨-, hbefore⟩ :=
          (hworks.handles id handle hget).resolve_left (hapart.not_has hvalid hhas)
        obtain ⟨key, found, hfound, hin, hkey⟩ := h.onto id handle hbefore hhas
        exact ⟨key, found, hfound, hin, (hhandle key (Table.get?_lt ha.fresh hfound)).trans hkey⟩
      grant := by
        intro id handle hget hhas grant hgrant hsame
        have hnumber := hfile hget hhas
        have hfiles := (hout hget hhas).2
        rw [← hsame] at hnumber hfiles
        rw [Grant.renumber_congr hnumber]
        exact (hconfined.bench.grants region.index _ hfiles).mpr
          (h.grant id handle hget hhas grant hgrant hsame)
      fresh := ⟨h.fresh.1, hworks.fresh h.fresh.2⟩
      opened := by
        intro id handle hget hhas
        rw [hfile hget hhas, hconfined.bench.opened _ (hout hget hhas).2]
        exact h.opened id handle hget hhas
      simulator := h.simulator_worked hapart hworks }

end Mirrors

end World

end GpioLines
