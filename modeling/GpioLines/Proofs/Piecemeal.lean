import GpioLines.Proofs.Finality
import GpioLines.Proofs.Polarity
import GpioLines.Proofs.Sharing

/-!
# Releasing piece by piece

Lines that were requested together can be released in any pieces: one by one, in overlapping groups,
together with other lines, and again after they were released. All that a release does to lines that
are served is to free their slots and to close the handles that nobody holds any more. So a sequence
of releases is known by the lines that it mentions: which handles it has closed is read off the end,
where a handle is open if and only if somebody holds it.
-/

namespace GpioLines

/-! ### Releases in a trace -/

def Exchange.released? : Exchange → Option (Device × FileId)
  | .release device file => some (device, file)
  | .call .. => none

/-- The files that were released along a trace, in order. -/
def releases (trace : List Exchange) : List (Device × FileId) := trace.filterMap Exchange.released?

theorem releases_append (earlier later : List Exchange) :
    releases (earlier ++ later) = releases earlier ++ releases later :=
  List.filterMap_append

def Handle.loan (handle : Handle) : Device × FileId := (handle.device, handle.file)

namespace Bench

variable {bench : Bench} {handle : Handle}

/-- The release of a handle frees its lines, and no others. -/
theorem line?_released (h : bench.Exclusive) (hbacked : bench.Backs handle) (index : Nat)
    (offset : Offset) :
    (handle.device.simulator? = some index ∧ offset ∈ handle.offsets →
      (releaseAt handle.device handle.file bench).line? index offset =
        (bench.line? index offset).map SimLine.free) ∧
    (¬ (handle.device.simulator? = some index ∧ offset ∈ handle.offsets) →
      (releaseAt handle.device handle.file bench).line? index offset = bench.line? index offset) := by
  constructor
  · rintro ⟨hindex, hmem⟩
    obtain ⟨grant, hgrant, hfile, hoffsets, -⟩ := hbacked index hindex
    rw [← hfile]
    exact h.line?_releaseAt_of_mem hindex hgrant (hoffsets ▸ hmem)
  · intro hout
    refine h.line?_releaseAt _ _ fun hindex grant hgrant hfile hmem => hout ⟨hindex, ?_⟩
    obtain ⟨backing, hbacking, hsame, hoffsets, -⟩ := hbacked index hindex
    obtain ⟨sim, hsim, hlent⟩ := mem_grants.mp hgrant
    rw [grants_of_eq hsim] at hbacking
    obtain rfl := (h.simulators index sim hsim).grant_eq_of_file hbacking hlent
      (hsame.trans hfile.symm)
    rwa [hoffsets] at hmem

end Bench

/-! ### What is given back -/

namespace World

/-- The world, for somebody who hears of releases only. -/
def hushed (world : World (Traced Bench)) : World (Traced Bench) :=
  { world with
    machine := { world.machine with trace := world.trace.filter (·.released?.isSome) } }

/-- A line of one of these handles. -/
def IsOf (closing : List (HandleId × Handle)) (index : Nat) (offset : Offset) : Prop :=
  ∃ entry ∈ closing, entry.2.device.simulator? = some index ∧ offset ∈ entry.2.offsets

/-- These lines were freed and these handles closed, each released once. -/
structure GivesBack (freed : Set Line) (closing : List (HandleId × Handle))
    (before after : World (Traced Bench)) : Prop where
  slot : ∀ line ∈ freed, after.slot line = .free
  others : ∀ line, line ∉ freed → after.slot line = before.slot line
  streams : after.streams = before.streams
  sheds : Sheds closing before.hushed after.hushed
  lines : ∀ index offset, IsOf closing index offset →
    after.bench.line? index offset = (before.bench.line? index offset).map SimLine.free
  rest : ∀ index offset, ¬ IsOf closing index offset →
    after.bench.line? index offset = before.bench.line? index offset

namespace GivesBack

variable {world mid after : World (Traced Bench)} {freed more : Set Line}
  {closing later : List (HandleId × Handle)} {lent : List (Device × FileId)}

theorem of_asked (h : world.Asked after) : GivesBack ∅ [] world after where
  slot := fun _ hmem => hmem.elim
  others := fun line _ => congrFun (congrArg Board.slot h.board) line
  streams := h.streams
  sheds := by
    refine .of_eq h.handles ?_
    obtain ⟨asked, htrace, hasks⟩ := h.trace
    have hnone : asked.filter (·.released?.isSome) = [] := by
      rw [List.filter_eq_nil_iff]
      intro exchange hmem
      obtain ⟨device, call, outcome, -, rfl⟩ := hasks exchange hmem
      exact Bool.false_ne_true
    change after.trace.filter _ = world.trace.filter _
    rw [htrace, List.filter_append, hnone, List.append_nil]
  lines := fun _ _ ⟨_, hmem, _⟩ => absurd hmem List.not_mem_nil
  rest := fun index offset _ =>
    congrFun (congrFun (Bench.line?_eq_of_simulators_eq h.simulators) index) offset

theorem trans (h : GivesBack freed closing world mid) (hlater : GivesBack more later mid after) :
    GivesBack (freed ∪ more) (closing ++ later) world after where
  slot := by
    intro line hmem
    by_cases hmore : line ∈ more
    · exact hlater.slot line hmore
    · rw [hlater.others line hmore]
      exact h.slot line (hmem.resolve_right hmore)
  others := by
    intro line hnot
    rw [hlater.others line fun hmem => hnot (Or.inr hmem)]
    exact h.others line fun hmem => hnot (Or.inl hmem)
  streams := hlater.streams.trans h.streams
  sheds := h.sheds.trans hlater.sheds
  lines := by
    rintro index offset ⟨entry, hmem, hentry⟩
    have hfree : ∀ line : Option SimLine,
        (line.map SimLine.free).map SimLine.free = line.map SimLine.free := by
      rintro (_ | line) <;> rfl
    by_cases hlines : IsOf later index offset
    · rw [hlater.lines index offset hlines]
      by_cases hfirst : IsOf closing index offset
      · rw [h.lines index offset hfirst, hfree]
      · rw [h.rest index offset hfirst]
    · rw [hlater.rest index offset hlines]
      rcases List.mem_append.mp hmem with hmem | hmem
      · exact h.lines index offset ⟨entry, hmem, hentry⟩
      · exact absurd ⟨entry, hmem, hentry⟩ hlines
  rest := by
    intro index offset hnot
    rw [hlater.rest index offset fun ⟨entry, hmem, hentry⟩ =>
      hnot ⟨entry, List.mem_append_right _ hmem, hentry⟩]
    exact h.rest index offset fun ⟨entry, hmem, hentry⟩ =>
      hnot ⟨entry, List.mem_append_left _ hmem, hentry⟩

theorem detach (world : World (Traced Bench)) (line : Line) :
    GivesBack {line} [] world (world.detach line).2 where
  slot := by
    rintro other rfl
    refine (congrFun (congrArg Ledger.slot (ledger_detach world other)) other).trans ?_
    exact Function.update_self ..
  others := by
    intro other hne
    refine (congrFun (congrArg Ledger.slot (ledger_detach world line)) other).trans ?_
    exact Function.update_of_ne hne ..
  streams := rfl
  sheds := .of_eq rfl rfl
  lines := fun _ _ ⟨_, hmem, _⟩ => absurd hmem List.not_mem_nil
  rest := fun _ _ _ => rfl

theorem detachAll (world : World (Traced Bench)) (lines : List Line) :
    GivesBack {line | line ∈ lines} [] world (world.detachAll lines).2 := by
  induction lines generalizing world with
  | nil =>
      have hnone : {line : Line | line ∈ []} = ∅ := by ext; simp
      rw [hnone]
      exact .of_asked (.of_eq rfl rfl rfl rfl)
  | cons line rest ih =>
      have hlines : {other | other ∈ line :: rest} = {line} ∪ {other | other ∈ rest} := by
        ext other
        simp
      rw [hlines]
      exact (detach world line).trans (ih (world.detach line).2)

theorem closeHandle (haccord : world.Accord lent) {id : HandleId} {handle : Handle}
    (hget : world.handles.get? id = some handle) :
    GivesBack ∅ [(id, handle)] world (world.closeHandle id) := by
  have hreleased := Bench.line?_released haccord.bench (haccord.lending.backed id handle hget)
  have hof : ∀ index offset, IsOf [(id, handle)] index offset ↔
      handle.device.simulator? = some index ∧ offset ∈ handle.offsets := by
    simp [IsOf]
  rw [closeHandle_eq hget]
  refine ⟨fun _ hmem => hmem.elim, fun _ _ => rfl, rfl, ⟨List.nodup_singleton id, ?_, ?_, ?_⟩,
    fun index offset hmem => (hreleased index offset).1 ((hof index offset).mp hmem),
    fun index offset hnot => (hreleased index offset).2 fun hmem =>
      hnot ((hof index offset).mpr hmem)⟩
  · intro entry hentry
    rw [List.mem_singleton.mp hentry]
    exact hget
  · intro key
    simp [hushed, Table.get?_erase]
  · change (world.trace ++ [Exchange.release handle.device handle.file]).filter _ = _
    rw [List.filter_append]
    rfl

theorem dropHandle (haccord : world.Accord lent) (id : HandleId) :
    ∃ closing, GivesBack ∅ closing world (world.dropHandle id) := by
  have hsame : ∃ closing, GivesBack ∅ closing world world := ⟨[], .of_asked (.of_eq rfl rfl rfl rfl)⟩
  unfold World.dropHandle
  split
  · exact hsame
  · cases hget : world.handles.get? id with
    | none =>
        rw [World.closeHandle, hget]
        exact hsame
    | some handle => exact ⟨_, closeHandle haccord hget⟩

theorem dropHandles (haccord : world.Accord lent) (ids : List HandleId) :
    ∃ closing, GivesBack ∅ closing world (world.dropHandles ids) := by
  induction ids generalizing world with
  | nil => exact ⟨[], .of_asked (.of_eq rfl rfl rfl rfl)⟩
  | cons id rest ih =>
      unfold World.dropHandles
      split
      · exact ih haccord
      · have hdeals : Deals False ⟨world, ∅⟩ ⟨world.dropHandle id, ∅⟩ := deals_dropHandle world id
        obtain ⟨first, hfirst⟩ := dropHandle haccord id
        obtain ⟨others, hothers⟩ := ih (Deals.accord hdeals haccord)
        have htrans := hfirst.trans hothers
        rw [Set.empty_union] at htrans
        exact ⟨_, htrans⟩

theorem release (haccord : world.Accord lent) (group : Group) :
    ∃ closing, GivesBack {line | line ∈ group.lines} closing world (world.release group) := by
  have hdeals : Deals False ⟨world, ∅⟩ ⟨(world.detachAll group.lines).2, ∅⟩ :=
    deals_detachAll group.lines
  obtain ⟨closing, hdrop⟩ :=
    dropHandles (Deals.accord hdeals haccord) (world.detachAll group.lines).1
  have hdropped := (detachAll world group.lines).trans hdrop
  have hmore : ∀ last, (((world.detachAll group.lines).2.dropHandles
      (world.detachAll group.lines).1).Asked last) →
      ∃ closing, GivesBack {line | line ∈ group.lines} closing world last := fun last hasked => by
    have htrans := hdropped.trans (.of_asked hasked)
    rw [Set.union_empty, Set.union_empty] at htrans
    exact ⟨_, htrans⟩
  unfold World.release
  simp only
  split
  · exact hmore _ (.of_eq rfl rfl rfl rfl)
  · split
    · exact hmore _ ((Asked.note ..).trans (.updateAll _ group))
    · exact hmore _ (.note ..)

/-- Which handles have closed is read off the lines that were freed. -/
theorem mem_iff (h : GivesBack freed closing world after) (hafter : Desk.Sound ⟨after, 0⟩)
    {id : HandleId} {handle : Handle} :
    (id, handle) ∈ closing ↔ world.handles.get? id = some handle ∧
      (∀ line, world.ledger.Holds line id → line ∈ freed) ∧
      ∀ entry ∈ world.streams.entries, entry.2 ≠ id := by
  have hholds : ∀ line, after.ledger.Holds line id ↔
      world.ledger.Holds line id ∧ line ∉ freed := by
    intro line
    change (after.slot line).handle? = some id ↔ (world.slot line).handle? = some id ∧ _
    by_cases hmem : line ∈ freed
    · simp [h.slot line hmem, hmem, Slot.handle?]
    · simp [h.others line hmem, hmem]
  have hentries : after.ledger.streams.entries = world.streams.entries :=
    congrArg Table.entries h.streams
  rw [h.sheds.mem_iff]
  refine and_congr_right fun _ => ?_
  constructor
  · intro hnone
    have hnot : ¬ after.ledger.Held id := fun hheld => by
      obtain ⟨found, hfound⟩ := hafter.ledger.held_open hheld
      exact Option.some_ne_none found (hfound.symm.trans hnone)
    refine ⟨fun line hline => ?_, fun entry hentry heq => hnot (Or.inr ⟨entry, ?_, heq⟩)⟩
    · by_contra hmem
      exact hnot (Or.inl ⟨line, (hholds line).mpr ⟨hline, hmem⟩⟩)
    · rwa [hentries]
  · rintro ⟨hlines, hstreams⟩
    by_contra hsome
    obtain ⟨found, hfound⟩ := Option.ne_none_iff_exists'.mp hsome
    rcases (hafter.kept id found hfound).resolve_right (Multiset.notMem_zero id) with
      ⟨line, hline⟩ | ⟨entry, hentry, heq⟩
    · obtain ⟨hold, hnot⟩ := (hholds line).mp hline
      exact hnot (hlines line hold)
    · exact hstreams entry (hentries ▸ hentry) heq

theorem releases_eq (h : GivesBack freed closing world after) :
    releases after.trace = releases world.trace ++ closing.map (·.2.loan) := by
  have hfilter : ∀ trace, releases (trace.filter (·.released?.isSome)) = releases trace := by
    intro trace
    rw [releases, List.filterMap_filter]
    refine List.filterMap_congr fun exchange _ => ?_
    cases exchange <;> rfl
  have htrace := congrArg releases h.sheds.trace
  rw [releases_append] at htrace
  have hclosing : releases (closing.map fun entry => .release entry.2.device entry.2.file) =
      closing.map (·.2.loan) := by
    rw [releases, List.filterMap_map, ← List.filterMap_eq_map]
    rfl
  calc releases after.trace
      _ = releases (after.trace.filter (·.released?.isSome)) := (hfilter _).symm
      _ = releases (world.trace.filter (·.released?.isSome)) ++ closing.map (·.2.loan) := by
        rw [← hclosing]
        exact htrace
      _ = releases world.trace ++ closing.map (·.2.loan) := by rw [hfilter]

/-- A file that the library has from a simulated chip belongs to one handle, so it is released as
often as this handle closes. -/
theorem count_releases (h : GivesBack freed closing world after) (haccord : world.Accord lent)
    {id : HandleId} {handle : Handle} (hget : world.handles.get? id = some handle) {index : Nat}
    (hindex : handle.device.simulator? = some index) :
    (releases after.trace).count handle.loan =
      (releases world.trace).count handle.loan + if (id, handle) ∈ closing then 1 else 0 := by
  have hsame : ∀ entry ∈ closing, (entry.2.loan == handle.loan) = true ↔ (entry.1 == id) = true := by
    intro entry hentry
    have hfound : world.handles.get? entry.1 = some entry.2 := h.sheds.found entry hentry
    rw [beq_iff_eq, beq_iff_eq]
    constructor
    · intro hloan
      obtain ⟨hdevice, hfile⟩ := Prod.mk.inj hloan
      exact haccord.lending.distinct _ _ _ _ index hfound hget (hdevice ▸ hindex) hindex hfile
    · intro hid
      rw [hid, hget] at hfound
      rw [Option.some.inj hfound]
  have hkey : id ∈ closing.map (·.1) ↔ (id, handle) ∈ closing := by
    constructor
    · intro hmem
      obtain ⟨entry, hentry, rfl⟩ := List.mem_map.mp hmem
      have hfound : world.handles.get? entry.1 = some entry.2 := h.sheds.found entry hentry
      obtain rfl := Option.mem_unique hfound hget
      exact hentry
    · exact fun hmem => List.mem_map.mpr ⟨_, hmem, rfl⟩
  have hcount : (closing.map (·.2.loan)).count handle.loan =
      if (id, handle) ∈ closing then 1 else 0 := by
    calc (closing.map (·.2.loan)).count handle.loan
        _ = closing.countP (·.2.loan == handle.loan) := List.countP_map ..
        _ = closing.countP (·.1 == id) := List.countP_congr hsame
        _ = (closing.map (·.1)).count id := by
          rw [List.count, List.countP_map]
          rfl
        _ = if id ∈ closing.map (·.1) then 1 else 0 := h.sheds.keys.count
        _ = if (id, handle) ∈ closing then 1 else 0 := if_congr hkey rfl rfl
  rw [h.releases_eq, List.count_append, hcount]

end GivesBack

/-! ### Several releases -/

/-- Releases groups one after the other. -/
def releaseAll (world : World (Traced Bench)) (groups : List Group) : World (Traced Bench) :=
  groups.foldl release world

variable {world : World (Traced Bench)} {lent : List (Device × FileId)}

theorem sound_releaseAll (hsound : Desk.Sound ⟨world, 0⟩) (groups : List Group) :
    Desk.Sound ⟨world.releaseAll groups, 0⟩ := by
  induction groups generalizing world with
  | nil => exact hsound
  | cons group rest ih =>
      have hmoves : Moves { first := 0 } ⟨world, 0⟩ ⟨world.release group, 0⟩ := moves_release group
      exact ih (hmoves.sound hsound)

theorem Accord.releaseAll (haccord : world.Accord lent) (groups : List Group) :
    (world.releaseAll groups).Accord lent := by
  induction groups generalizing world with
  | nil => exact haccord
  | cons group rest ih =>
      have hdeals : Deals False ⟨world, ∅⟩ ⟨world.release group, ∅⟩ := deals_release group
      exact ih (Deals.accord hdeals haccord)

theorem GivesBack.releaseAll (haccord : world.Accord lent) (groups : List Group) :
    ∃ closing, GivesBack {line | ∃ group ∈ groups, line ∈ group.lines} closing world
      (world.releaseAll groups) := by
  induction groups generalizing world with
  | nil =>
      have hnone : {line : Line | ∃ group ∈ ([] : List Group), line ∈ group.lines} = ∅ := by
        ext
        simp
      rw [hnone]
      exact ⟨[], .of_asked (.of_eq rfl rfl rfl rfl)⟩
  | cons group rest ih =>
      have hlines : {line : Line | ∃ other ∈ group :: rest, line ∈ other.lines} =
          {line | line ∈ group.lines} ∪ {line | ∃ other ∈ rest, line ∈ other.lines} := by
        ext
        simp
      obtain ⟨first, hfirst⟩ := GivesBack.release haccord group
      obtain ⟨others, hothers⟩ := ih (haccord.releaseAll [group])
      rw [hlines]
      exact ⟨_, hfirst.trans hothers⟩

/-! ### A request as a whole -/

/-- The lines of one request for values, or lines that are requested for events, which no stream
reads. -/
structure RequestedTogether (world : World (Traced Bench)) (group : Group) : Prop where
  served : (∃ id handle, world.Covers group id handle) ∨ ∀ line ∈ group.lines, ∃ id handle,
    world.handle? line = some (id, handle) ∧ handle.kind = .events
  unread : ∀ line ∈ group.lines, ∀ entry ∈ world.streams.entries,
    ¬ world.ledger.Holds line entry.2

/-- Releases that mention every line of the group have done to it what the release of the group
does: its lines are free, here and at the device, and each of its handles is released once. -/
structure ReleasesAlike (world : World (Traced Bench)) (group : Group) (groups : List Group) :
    Prop where
  states : ∀ line ∈ group.lines,
    (world.releaseAll groups).state line = .free ∧ (world.release group).state line = .free
  lines : ∀ line ∈ group.lines, ∀ index, world.IsOver line index →
    (world.releaseAll groups).bench.line? index line.offset =
      (world.release group).bench.line? index line.offset
  released : ∀ line ∈ group.lines, ∀ id handle, world.handle? line = some (id, handle) →
    (releases (world.releaseAll groups).trace).count handle.loan =
        (releases world.trace).count handle.loan + 1 ∧
      (releases (world.release group).trace).count handle.loan =
        (releases world.trace).count handle.loan + 1

/-- A release closes the handles whose last lines it frees, and no others. If it frees no line, it
does nothing. -/
structure ReleasesLast (world : World (Traced Bench)) (group : Group) : Prop where
  last : ∀ id handle, world.handles.get? id = some handle → ∀ index,
    handle.device.simulator? = some index → (∀ entry ∈ world.streams.entries, entry.2 ≠ id) →
    (∀ line, world.ledger.Holds line id → line ∈ group.lines) →
      (world.release group).handles.get? id = none ∧
      (releases (world.release group).trace).count handle.loan =
        (releases world.trace).count handle.loan + 1
  before : ∀ id handle, world.handles.get? id = some handle → ∀ index,
    handle.device.simulator? = some index → (∃ line, world.ledger.Holds line id ∧ line ∉ group.lines) →
      (world.release group).handles.get? id = some handle ∧
      (releases (world.release group).trace).count handle.loan =
        (releases world.trace).count handle.loan
  idle : (∀ line ∈ group.lines, world.isFree line = true) → world.Untouched (world.release group)

theorem releasesLast (hsound : Desk.Sound ⟨world, 0⟩) (haccord : world.Accord lent)
    (group : Group) : world.ReleasesLast group := by
  obtain ⟨closing, hgives⟩ := GivesBack.release haccord group
  have hafter : Desk.Sound ⟨world.release group, 0⟩ := sound_releaseAll hsound [group]
  refine ⟨fun id handle hget index hindex hstreams hall => ?_,
    fun id handle hget index hindex ⟨line, hholds, hnot⟩ => ?_, fun hfree =>
      untouched_release fun line hmem => isFree_iff.mp (hfree line hmem)⟩
  · have hmem : (id, handle) ∈ closing := (hgives.mem_iff hafter).mpr ⟨hget, hall, hstreams⟩
    refine ⟨(hgives.sheds.mem_iff.mp hmem).2, ?_⟩
    rw [hgives.count_releases haccord hget hindex, if_pos hmem]
  · have hnone : (id, handle) ∉ closing := fun hmem =>
      hnot (((hgives.mem_iff hafter).mp hmem).2.1 line hholds)
    refine ⟨?_, by rw [hgives.count_releases haccord hget hindex, if_neg hnone, Nat.add_zero]⟩
    have hkeeps := hgives.sheds.handles id
    rw [if_neg] at hkeeps
    · exact hkeeps.trans hget
    · intro hkey
      obtain ⟨entry, hentry, rfl⟩ := List.mem_map.mp hkey
      have hfound : world.handles.get? entry.1 = some entry.2 := hgives.sheds.found entry hentry
      obtain rfl := Option.mem_unique hfound hget
      exact hnone hentry

end World

namespace Workshop

variable {rule : Workshop → Act → Prop} {workshop : Workshop} {group : Group}

/-- Whatever a member of the group holds is held by members only. -/
theorem Sound.mem_of_holds (h : workshop.Sound) (htogether : workshop.world.RequestedTogether group)
    {line other : Line} (hmem : line ∈ group.lines) {id : HandleId}
    (hholds : workshop.world.ledger.Holds line id) (hother : workshop.world.ledger.Holds other id) :
    other ∈ group.lines := by
  rcases htogether.served with ⟨key, handle, hcovers⟩ | hevents
  · have hkey := (World.handle?_eq_some.mp (hcovers.serves line hmem)).1
    obtain rfl : key = id := Option.some.inj (hkey.symm.trans hholds)
    exact (h.holds_iff hcovers other).mp hother
  · obtain ⟨key, handle, hserved, hkind⟩ := hevents line hmem
    obtain ⟨hkey, hget⟩ := World.handle?_eq_some.mp hserved
    obtain rfl : key = id := Option.some.inj (hkey.symm.trans hholds)
    exact h.client.desk.ledger.line_eq hget hkind hholds hother ▸ hmem

theorem Sound.released (h : workshop.Sound) (htogether : workshop.world.RequestedTogether group)
    {freed : Set Line} {closing : List (HandleId × Handle)} {after : World (Traced Bench)}
    (hgives : World.GivesBack freed closing workshop.world after)
    (hafter : Desk.Sound ⟨after, 0⟩) (hfreed : ∀ line ∈ group.lines, line ∈ freed) {line : Line}
    (hmem : line ∈ group.lines) {id : HandleId} {handle : Handle}
    (hserved : workshop.world.handle? line = some (id, handle)) : (id, handle) ∈ closing := by
  obtain ⟨hholds, hget⟩ := World.handle?_eq_some.mp hserved
  refine (hgives.mem_iff hafter).mpr ⟨hget, fun other hother => ?_, fun entry hentry heq => ?_⟩
  · exact hfreed other (h.mem_of_holds htogether hmem hholds hother)
  · exact htogether.unread line hmem entry hentry (heq ▸ hholds)

theorem Sound.served (h : workshop.Sound) (htogether : workshop.world.RequestedTogether group)
    {line : Line} (hmem : line ∈ group.lines) {index : Nat}
    (hover : workshop.world.IsOver line index) : ∃ id handle,
      workshop.world.handle? line = some (id, handle) ∧ handle.device.simulator? = some index ∧
      line.offset ∈ handle.offsets := by
  obtain ⟨id, handle, hserved⟩ : ∃ id handle, workshop.world.handle? line = some (id, handle) := by
    rcases htogether.served with ⟨id, handle, hcovers⟩ | hevents
    · exact ⟨id, handle, hcovers.serves line hmem⟩
    · obtain ⟨id, handle, hserved, -⟩ := hevents line hmem
      exact ⟨id, handle, hserved⟩
  obtain ⟨hholds, hget⟩ := World.handle?_eq_some.mp hserved
  obtain ⟨found, hfound, -, hlisted⟩ := h.client.desk.ledger.slot_open line id hholds
  obtain rfl := Option.mem_unique hget hfound
  obtain ⟨device, hdevice, hindex⟩ := hover
  obtain rfl := Option.mem_unique hdevice ((h.accord.home line id hholds).2 handle hget)
  exact ⟨id, handle, hserved, hindex, hlisted⟩

/-- **However a request is cut up, releasing the pieces is releasing the whole.** Any releases that
mention every line of it, in any order, with repetitions and with other lines among them, leave its
lines as one release does, and each of its handles is released once, by the call that frees the last
line of it. A release that frees no line passes nothing to a device and changes nothing. -/
theorem releases_alike (h : Reachable rule workshop)
    (htogether : workshop.world.RequestedTogether group)
    (hover : ∀ line ∈ group.lines, ∃ index, workshop.world.IsOver line index) {groups : List Group}
    (hmentions : ∀ line ∈ group.lines, ∃ piece ∈ groups, line ∈ piece.lines) :
    workshop.world.ReleasesAlike group groups ∧
      ∀ earlier piece later, groups = earlier ++ piece :: later →
        (workshop.world.releaseAll earlier).ReleasesLast piece := by
  have hsound := h.sound
  have hdesk := hsound.client.desk
  obtain ⟨cut, hcut⟩ := World.GivesBack.releaseAll hsound.accord groups
  obtain ⟨closing, hwhole⟩ := World.GivesBack.release hsound.accord group
  have hcutSound := World.sound_releaseAll hdesk groups
  have hwholeSound : Desk.Sound ⟨workshop.world.release group, 0⟩ :=
    World.sound_releaseAll hdesk [group]
  have hclosed : ∀ line ∈ group.lines, ∀ id handle,
      workshop.world.handle? line = some (id, handle) → (id, handle) ∈ cut ∧ (id, handle) ∈ closing :=
    fun line hmem id handle hserved =>
      ⟨hsound.released htogether hcut hcutSound hmentions hmem hserved,
        hsound.released htogether hwhole hwholeSound (fun _ hline => hline) hmem hserved⟩
  refine ⟨⟨fun line hmem => ?_, fun line hmem index hindex => ?_,
    fun line hmem id handle hserved => ?_⟩, fun earlier piece later _ =>
      World.releasesLast (World.sound_releaseAll hdesk earlier) (hsound.accord.releaseAll earlier)
        piece⟩
  · exact ⟨congrArg Slot.state (hcut.slot line (hmentions line hmem)),
      congrArg Slot.state (hwhole.slot line hmem)⟩
  · obtain ⟨id, handle, hserved, hdevice, hlisted⟩ := hsound.served htogether hmem hindex
    obtain ⟨hincut, hinwhole⟩ := hclosed line hmem id handle hserved
    rw [hcut.lines index line.offset ⟨_, hincut, hdevice, hlisted⟩,
      hwhole.lines index line.offset ⟨_, hinwhole, hdevice, hlisted⟩]
  · obtain ⟨index, hindex⟩ := hover line hmem
    obtain ⟨key, found, hfound, hdevice, -⟩ := hsound.served htogether hmem hindex
    obtain ⟨rfl, rfl⟩ := Prod.mk.inj (Option.some.inj (hfound.symm.trans hserved))
    obtain ⟨hincut, hinwhole⟩ := hclosed line hmem key found hserved
    have hget := (World.handle?_eq_some.mp hserved).2
    rw [hcut.count_releases hsound.accord hget hdevice, if_pos hincut,
      hwhole.count_releases hsound.accord hget hdevice, if_pos hinwhole]
    exact ⟨rfl, rfl⟩

/-- Two lines in one request, and a third in another. -/
def pairAndThird : List Act :=
  let outputs : RequestConfig := { consumer := "pair", type := .output }
  let events : RequestConfig := { consumer := "third", type := .eventBoth }
  [.deed (.addSimulator "gpiochip0" 3), .operation (.openChip (.simulator 0)),
    .operation (.getLines 0 [0, 1]), .operation (.getLine 0 2),
    .operation (.onGroup (.request outputs none) ⟨[⟨0, 0⟩, ⟨0, 1⟩]⟩),
    .operation (.onGroup (.request events none) ⟨[⟨0, 2⟩]⟩)]

/-- The pair is released line by line, the first line twice and once with the third. -/
theorem releases_alike_pair : ∃ workshop : Workshop, Reachable Unruled workshop ∧
    workshop.world.RequestedTogether ⟨[⟨0, 0⟩, ⟨0, 1⟩]⟩ ∧
    workshop.world.ReleasesAlike ⟨[⟨0, 0⟩, ⟨0, 1⟩]⟩
      [⟨[⟨0, 0⟩]⟩, ⟨[⟨0, 2⟩, ⟨0, 0⟩]⟩, ⟨[⟨0, 1⟩]⟩] := by
  let workshop := ({} : Workshop).actAll pairAndThird
  have hreachable : Reachable Unruled workshop := Reachable.start.actAll (by decide)
  have hsome : (workshop.world.valuesHandle ⟨[⟨0, 0⟩, ⟨0, 1⟩]⟩).toOption.isSome = true := by decide
  obtain ⟨⟨id, handle⟩, hheld⟩ := Option.isSome_iff_exists.mp hsome
  have hhandle := eq_ok_of_mem_toOption (Option.mem_toList.mpr hheld)
  have htogether : workshop.world.RequestedTogether ⟨[⟨0, 0⟩, ⟨0, 1⟩]⟩ :=
    ⟨Or.inl ⟨id, handle, (World.covers_of_valuesHandle hhandle).2⟩, fun _ _ _ hentry => by
      cases hentry⟩
  have hover : ∀ line ∈ (⟨[⟨0, 0⟩, ⟨0, 1⟩]⟩ : Group).lines, ∃ index,
      workshop.world.IsOver line index := by
    intro line hmem
    have hchip : line.chip = 0 := by
      revert line
      decide
    exact ⟨0, .simulator 0, by rw [hchip]; rfl, rfl⟩
  exact ⟨workshop, hreachable, htogether,
    (releases_alike hreachable htogether hover (by decide)).1⟩

end Workshop

end GpioLines
