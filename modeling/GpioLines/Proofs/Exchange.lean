import GpioLines.Proofs.Apart

/-!
# Two orders of work

Somebody works in one region and somebody else in another, in either order. The two orders end in the
same state, except that the handles and files which each of them was granted come in the other order:
the numbers of the one that went first are in front. An exchange of two blocks of numbers leads from
the one end to the other.
-/

namespace GpioLines

/-! ### Blocks of numbers -/

/-- The numbers from `first` up to `mid` come after those from `mid` up to `last`. -/
def exchange (first mid last number : Nat) : Nat :=
  if number < first then number
  else if number < mid then number + (last - mid)
  else if number < last then number - (mid - first)
  else number

section Exchange

variable {first mid last number : Nat}

theorem exchange_of_lt (h : number < first) : exchange first mid last number = number :=
  if_pos h

/-- What is exchanged twice is where it was. -/
theorem exchange_exchange (hmid : first ≤ mid) (hlast : mid ≤ last) (number : Nat) :
    exchange first (first + (last - mid)) last (exchange first mid last number) = number := by
  unfold exchange
  split_ifs <;> omega

/-- The block in front is moved as if the other one had been there before. -/
theorem exchange_front (h : number < mid) :
    exchange first mid last number = renew id first (first + (last - mid)) number := by
  simp only [exchange, renew, id_eq]
  split_ifs <;> omega

/-- The block at the back is moved to where it would have been alone. -/
theorem exchange_back (hmid : first ≤ mid) (hlast : mid ≤ last)
    (h : number < first + (last - mid)) :
    exchange first mid last (renew id first mid number) = number := by
  simp only [exchange, renew, id_eq]
  split_ifs <;> omega

theorem renumbers_exchange (hmid : first ≤ mid) (hlast : mid ≤ last) :
    Renumbers (exchange first mid last) last last where
  injective := by
    intro a b heq
    rw [← exchange_exchange hmid hlast a, heq, exchange_exchange hmid hlast]
  below := by
    intro number hlt
    unfold exchange
    split_ifs <;> omega
  above := by
    intro count
    unfold exchange
    split_ifs <;> omega

end Exchange

theorem Bench.Exclusive.grant_eq_of_file {bench : Bench} (h : bench.Exclusive) {index : Nat}
    {a b : Grant} (ha : a ∈ bench.grants index) (hb : b ∈ bench.grants index)
    (hfile : a.file = b.file) : a = b := by
  obtain ⟨sim, hsim, ha⟩ := Bench.mem_grants.mp ha
  rw [Bench.grants_of_eq hsim] at hb
  exact (h.simulators index sim hsim).grant_eq_of_file ha hb hfile

theorem Simulator.Exclusive.nodup_grants {sim : Simulator} (h : sim.Exclusive) :
    sim.grants.Nodup :=
  List.Nodup.of_map _ h.files

namespace World.Mirrors

variable {region : Region} {numbers : Renumbering} {gap : Int} {a b : World (Traced Bench)}

theorem line? (h : Mirrors region numbers gap a b) {offset : Offset}
    (hmem : offset ∈ region.offsets) :
    b.bench.line? region.index offset = a.bench.line? region.index offset := by
  rw [Bench.line?, Bench.line?]
  rcases h.simulator_cases with ⟨hnone, hnowhere⟩ | ⟨sim, twin, hsim, htwin, hmirrors⟩
  · rw [hnone, hnowhere]
  · rw [hsim, htwin]
    exact hmirrors.line? offset hmem

theorem released (h : Mirrors region numbers gap a b) {sim : Simulator}
    (hsim : a.bench.simulators[region.index]? = some sim) :
    (b.bench.released region.index : Int) = a.bench.released region.index + gap := by
  rcases h.simulator_cases with ⟨hnone, -⟩ | ⟨own, twin, hown, htwin, hmirrors⟩
  · rw [hnone] at hsim
    cases hsim
  · rw [released_of_eq hown, released_of_eq htwin]
    exact hmirrors.released

end World.Mirrors

/-! ### The same under other numbers, all over -/

/-- Only the files of the grants differ, and the order of the grants. -/
structure Simulator.Renumbered (numbers : Renumbering) (sim other : Simulator) : Prop where
  make : other.make = sim.make
  line? : other.line? = sim.line?
  released : other.released = sim.released
  grants : other.grants.Perm (sim.grants.map (·.renumber numbers))

namespace World

/-- The library and a simulated chip are the same in both worlds, but for the numbers of handles and
files. The log and the trace tell the order of the work, and are not compared. -/
structure Renumbered (index : Nat) (numbers : Renumbering) (one two : World (Traced Bench)) :
    Prop where
  handles : Renumbers numbers.handle one.handles.next two.handles.next
  files : Renumbers numbers.file one.bench.files.next two.bench.files.next
  faces : two.chips.map Chip.face = one.chips.map Chip.face
  record : ∀ line, two.record line = (one.record line).renumber numbers
  streams : two.streams = one.streams
  tokens : two.tokens = one.tokens
  handle : ∀ id handle, one.handles.get? id = some handle →
    handle.device.simulator? = some index →
    two.handles.get? (numbers.handle id) = some (handle.renumber numbers)
  /-- Handles of other devices have their files from these devices. -/
  foreign : ∀ id handle, one.handles.get? id = some handle →
    handle.device.simulator? ≠ some index → two.handles.get? (numbers.handle id) = some handle
  closed : ∀ id, one.handles.get? id = none → two.handles.get? (numbers.handle id) = none
  /-- What waits in the files is the same, those that were lent past the library included. -/
  opened : ∀ grant ∈ one.bench.grants index,
    two.bench.files.get? (numbers.file grant.file) = one.bench.files.get? grant.file
  simulator : Option.Rel (Simulator.Renumbered numbers)
    (one.bench.simulators[index]?) (two.bench.simulators[index]?)

/-- How far the numbers have moved on by work that was done in between. -/
abbrev shift (world later : World (Traced Bench)) : Renumbering := Renumbering.same.renew world later

/-- What work in `region` led to on the `left`, and work in `other` on the `right`; each was then
followed by the work of the other. -/
structure TwoOrders (region other : Region) (lent : List (Device × FileId))
    (world left both right turned : World (Traced Bench)) : Prop where
  apart : region.Apart other
  fenced : world.Fenced region lent
  fencedOther : world.Fenced other lent
  first : world.WorksIn region lent left
  second : left.WorksIn other lent both
  firstTurned : world.WorksIn other lent right
  secondTurned : right.WorksIn region lent turned
  mirrors : Mirrors region (world.shift right)
    (right.bench.released region.index - world.bench.released region.index) left turned
  mirrorsOther : Mirrors other (world.shift left)
    (left.bench.released region.index - world.bench.released region.index) right both

namespace TwoOrders

variable {region other : Region} {lent : List (Device × FileId)}
  {world left both right turned : World (Traced Bench)}

theorem symm (h : TwoOrders region other lent world left both right turned) :
    TwoOrders other region lent world right turned left both where
  apart := h.apart.symm
  fenced := h.fencedOther
  fencedOther := h.fenced
  first := h.firstTurned
  second := h.secondTurned
  firstTurned := h.first
  secondTurned := h.second
  mirrors := h.apart.index ▸ h.mirrorsOther
  mirrorsOther := h.apart.index ▸ h.mirrors

/-! ### Numbers -/

/-- What was granted on the left comes after what was granted on the right. -/
def numbers (world left both : World (Traced Bench)) : Renumbering where
  handle := exchange world.handles.next left.handles.next both.handles.next
  file := exchange world.bench.files.next left.bench.files.next both.bench.files.next

section Numbers

variable (h : TwoOrders region other lent world left both right turned)

include h

theorem left_fenced : left.Fenced region lent := h.first.fenced h.fenced

theorem handles_le : world.handles.next ≤ left.handles.next ∧
    left.handles.next ≤ both.handles.next :=
  ⟨h.first.stays.confined.next_le, h.second.stays.confined.next_le⟩

theorem files_le : world.bench.files.next ≤ left.bench.files.next ∧
    left.bench.files.next ≤ both.bench.files.next :=
  ⟨h.first.stays.confined.bench.next_le, h.second.stays.confined.bench.next_le⟩

/-- As many handles are granted on the right as after the left. -/
theorem next_right : right.handles.next =
    world.handles.next + (both.handles.next - left.handles.next) := by
  have hlast : renew id world.handles.next left.handles.next right.handles.next = both.handles.next :=
    h.mirrorsOther.handles.apply_next
  have hright := h.symm.handles_le
  rw [renew, if_neg (Nat.not_lt.mpr hright.1)] at hlast
  omega

theorem files_right : right.bench.files.next =
    world.bench.files.next + (both.bench.files.next - left.bench.files.next) := by
  have hlast : renew id world.bench.files.next left.bench.files.next right.bench.files.next =
      both.bench.files.next := h.mirrorsOther.files.apply_next
  have hright := h.symm.files_le
  rw [renew, if_neg (Nat.not_lt.mpr hright.1)] at hlast
  omega

theorem next_turned : turned.handles.next = both.handles.next := by
  have hfirst := h.next_right
  have hsecond := h.symm.next_right
  have hleft := h.handles_le
  have hright := h.symm.handles_le
  omega

theorem files_turned : turned.bench.files.next = both.bench.files.next := by
  have hfirst := h.files_right
  have hsecond := h.symm.files_right
  have hleft := h.files_le
  have hright := h.symm.files_le
  omega

theorem handle_front {id : HandleId} (hlt : id < left.handles.next) :
    (numbers world left both).handle id = (world.shift right).handle id := by
  change exchange _ _ _ id = renew _ _ right.handles.next id
  rw [exchange_front hlt, h.next_right]
  rfl

theorem file_front {file : FileId} (hlt : file < left.bench.files.next) :
    (numbers world left both).file file = (world.shift right).file file := by
  change exchange _ _ _ file = renew _ _ right.bench.files.next file
  rw [exchange_front hlt, h.files_right]
  rfl

theorem handle_back {id : HandleId} (hlt : id < right.handles.next) :
    (numbers world left both).handle ((world.shift left).handle id) = id :=
  exchange_back h.handles_le.1 h.handles_le.2 (h.next_right ▸ hlt)

theorem file_back {file : FileId} (hlt : file < right.bench.files.next) :
    (numbers world left both).file ((world.shift left).file file) = file :=
  exchange_back h.files_le.1 h.files_le.2 (h.files_right ▸ hlt)

omit h in
theorem handle_old {id : HandleId} (hlt : id < world.handles.next) :
    (numbers world left both).handle id = id := exchange_of_lt hlt

omit h in
theorem file_old {file : FileId} (hlt : file < world.bench.files.next) :
    (numbers world left both).file file = file := exchange_of_lt hlt

theorem handle_turned (id : HandleId) :
    (numbers world right turned).handle ((numbers world left both).handle id) = id := by
  change exchange _ right.handles.next turned.handles.next (exchange _ _ _ id) = id
  rw [h.next_right, h.next_turned]
  exact exchange_exchange h.handles_le.1 h.handles_le.2 id

theorem file_turned (file : FileId) :
    (numbers world right turned).file ((numbers world left both).file file) = file := by
  change exchange _ right.bench.files.next turned.bench.files.next (exchange _ _ _ file) = file
  rw [h.files_right, h.files_turned]
  exact exchange_exchange h.files_le.1 h.files_le.2 file

end Numbers

/-! ### Lines -/

theorem record (h : TwoOrders region other lent world left both right turned) (line : Line) :
    turned.record line = (both.record line).renumber (numbers world left both) := by
  by_cases hline : region.Lists world line
  · -- on the left it was settled at once, and on the right it comes later
    have hleft := (lists_of_faces h.first.stays.confined.faces).mpr hline
    rw [h.mirrors.record line hleft,
      h.second.stays.confined.record line (not_mem_area_lines h.apart hleft)]
    exact LineRecord.renumber_congr fun id hid =>
      (h.handle_front (h.left_fenced.accord.home line id hid).1).symm
  by_cases hother : other.Lists world line
  · have hright := (lists_of_faces h.firstTurned.stays.confined.faces).mpr hother
    rw [h.mirrorsOther.record line hright, LineRecord.renumber_renumber,
      h.secondTurned.stays.confined.record line (not_mem_area_lines h.apart.symm hright)]
    exact (LineRecord.renumber_of_fixed fun id hid =>
      h.handle_back (h.symm.left_fenced.accord.home line id hid).1).symm
  · have hleft := mt (lists_of_faces h.first.stays.confined.faces).mp hother
    have hright := mt (lists_of_faces h.firstTurned.stays.confined.faces).mp hline
    rw [h.second.stays.confined.record line hleft, h.first.stays.confined.record line hline,
      h.secondTurned.stays.confined.record line hright,
      h.firstTurned.stays.confined.record line hother]
    exact (LineRecord.renumber_of_fixed fun id hid =>
      handle_old (h.fenced.accord.home line id hid).1).symm

/-! ### Handles -/

theorem handle_cases (h : TwoOrders region other lent world left both right turned) {id : HandleId}
    {handle : Handle} (hget : both.handles.get? id = some handle) :
    (region.Has handle ∧ ¬ other.Has handle ∧ left.handles.get? id = some handle) ∨
      (∃ key found, right.handles.get? key = some found ∧ other.Has found ∧ ¬ region.Has found ∧
        (world.shift left).handle key = id) ∨
      ¬ region.Has handle ∧ ¬ other.Has handle ∧ left.handles.get? id = some handle ∧
        world.handles.get? id = some handle := by
  rcases h.second.handles id handle hget with hother | ⟨hother, hleft⟩
  · obtain ⟨key, found, hfound, hhas, hkey⟩ := h.mirrorsOther.onto id handle hget hother
    have hvalid := h.firstTurned.desk.ledger.valid key found hfound
    exact Or.inr (Or.inl ⟨key, found, hfound, hhas, h.apart.symm.not_has hvalid hhas, hkey⟩)
  · rcases h.first.handles id handle hleft with hhas | ⟨hnot, hbefore⟩
    · exact Or.inl ⟨hhas, hother, hleft⟩
    · exact Or.inr (Or.inr ⟨hnot, hother, hleft, hbefore⟩)

/-- A handle, its file and its grants come out the same in the other order. -/
structure Turned (region : Region) (numbers : Renumbering) (both turned : World (Traced Bench))
    (id : HandleId) (handle : Handle) : Prop where
  held : turned.handles.get? (numbers.handle id) = some (handle.renumber numbers)
  opened : turned.bench.files.get? (numbers.file handle.file) = both.bench.files.get? handle.file
  grants : ∀ grant ∈ both.bench.grants region.index, grant.file = handle.file →
    grant.renumber numbers ∈ turned.bench.grants region.index

section Handle

variable {id : HandleId} {handle : Handle}
  (h : TwoOrders region other lent world left both right turned)

include h

/-- Granted on the left at once, and on the right under a number that has moved on. -/
theorem turned_front (hleft : left.handles.get? id = some handle) (hhas : region.Has handle)
    (hother : ¬ other.Has handle) :
    Turned region (numbers world left both) both turned id handle := by
  have haccord := h.left_fenced.accord
  have hlt := haccord.lending.file_lt haccord.bench hleft hhas.simulator?
  have hout := not_mem_area_files haccord hleft (h.apart.index ▸ hhas.simulator?) hother
  constructor
  · rw [h.handle_front (Table.get?_lt haccord.fresh hleft), Handle.renumber_congr (h.file_front hlt)]
    exact h.mirrors.handle id handle hleft hhas
  · rw [h.file_front hlt, h.mirrors.opened id handle hleft hhas,
      h.second.stays.confined.bench.opened _ hout]
  · intro grant hgrant hfile
    rw [Grant.renumber_congr (h.file_front (hfile ▸ hlt))]
    refine h.mirrors.grant id handle hleft hhas grant ?_ hfile
    exact (h.second.stays.confined.bench.grants _ grant (hfile ▸ hout)).mp hgrant

/-- Granted on the right at once, and on the left under a number that has moved on. -/
theorem turned_back (hright : right.handles.get? id = some handle) (hhas : other.Has handle)
    (hnot : ¬ region.Has handle) :
    Turned region (numbers world left both) both turned ((world.shift left).handle id)
      (handle.renumber (world.shift left)) := by
  have haccord := h.symm.left_fenced.accord
  have hindex : handle.device.simulator? = some region.index := h.apart.index ▸ hhas.simulator?
  have hlt := haccord.lending.file_lt haccord.bench hright hindex
  have hkey := not_mem_area_handles haccord.fresh hright hnot
  have hout := not_mem_area_files haccord hright hindex hnot
  have hfile : (numbers world left both).file ((world.shift left).file handle.file) = handle.file :=
    h.file_back hlt
  constructor
  · rw [h.handle_back (Table.get?_lt haccord.fresh hright), Handle.renumber_renumber,
      Handle.renumber_of_fixed hfile]
    exact (h.secondTurned.stays.confined.handles id hkey).trans hright
  · change turned.bench.files.get? ((numbers world left both).file
        ((world.shift left).file handle.file)) =
      both.bench.files.get? ((world.shift left).file handle.file)
    rw [hfile, h.mirrorsOther.opened id handle hright hhas]
    exact h.secondTurned.stays.confined.bench.opened _ hout
  · intro grant hgrant hsame
    -- the file has one grant, which is the one that was given on the right
    obtain ⟨own, hown, hbacked⟩ := haccord.lending.backed id handle hright _ hhas.simulator?
    have hmate := h.mirrorsOther.grant id handle hright hhas own hown hbacked.file
    rw [h.apart.index] at hmate hown
    have hfiles : grant.file = (own.renumber (world.shift left)).file :=
      hsame.trans (congrArg (world.shift left).file hbacked.file.symm)
    obtain rfl := h.second.stays.fits.accord.bench.grant_eq_of_file hgrant hmate hfiles
    rw [Grant.renumber_renumber, Grant.renumber_of_fixed (h.file_back (hbacked.file ▸ hlt))]
    exact (h.secondTurned.stays.confined.bench.grants _ own (hbacked.file ▸ hout)).mpr hown

/-- There before, and not touched in either order. -/
theorem turned_old (hbefore : world.handles.get? id = some handle)
    (hleft : left.handles.get? id = some handle)
    (hindex : handle.device.simulator? = some region.index) (hnot : ¬ region.Has handle)
    (hother : ¬ other.Has handle) :
    Turned region (numbers world left both) both turned id handle := by
  have haccord := h.fenced.accord
  have hlater := h.symm.left_fenced.accord
  have hlt := haccord.lending.file_lt haccord.bench hbefore hindex
  have hright : right.handles.get? id = some handle :=
    (h.firstTurned.stays.confined.handles id
      (not_mem_area_handles haccord.fresh hbefore hother)).trans hbefore
  have houtLeft := not_mem_area_files haccord hbefore hindex hnot
  have houtBoth := not_mem_area_files h.left_fenced.accord hleft (h.apart.index ▸ hindex) hother
  have houtRight := not_mem_area_files haccord hbefore (h.apart.index ▸ hindex) hother
  have houtTurned := not_mem_area_files hlater hright hindex hnot
  constructor
  · rw [handle_old (Table.get?_lt haccord.fresh hbefore), Handle.renumber_of_fixed (file_old hlt)]
    exact (h.secondTurned.stays.confined.handles id
      (not_mem_area_handles hlater.fresh hright hnot)).trans hright
  · rw [file_old hlt, h.secondTurned.stays.confined.bench.opened _ houtTurned,
      h.firstTurned.stays.confined.bench.opened _ houtRight,
      h.second.stays.confined.bench.opened _ houtBoth,
      h.first.stays.confined.bench.opened _ houtLeft]
  · intro grant hgrant hfile
    rw [← hfile] at hlt houtLeft houtBoth houtRight houtTurned
    rw [Grant.renumber_of_fixed (file_old hlt),
      h.secondTurned.stays.confined.bench.grants _ grant houtTurned,
      h.firstTurned.stays.confined.bench.grants _ grant houtRight,
      ← h.first.stays.confined.bench.grants _ grant houtLeft,
      ← h.second.stays.confined.bench.grants _ grant houtBoth]
    exact hgrant

/-- **No handle of the simulated chip tells the order.** -/
theorem turned_of_open (hget : both.handles.get? id = some handle)
    (hindex : handle.device.simulator? = some region.index) :
    Turned region (numbers world left both) both turned id handle := by
  rcases h.handle_cases hget with ⟨hhas, hother, hleft⟩ | ⟨key, found, hfound, hhas, hnot, rfl⟩ |
    ⟨hnot, hother, hleft, hbefore⟩
  · exact h.turned_front hleft hhas hother
  · obtain rfl := Option.mem_unique (h.mirrorsOther.handle key found hfound hhas) hget
    exact h.turned_back hfound hhas hnot
  · exact h.turned_old hbefore hleft hindex hnot hother

end Handle

/-- A handle of another device was there before, and is there still. -/
theorem foreign (h : TwoOrders region other lent world left both right turned) {id : HandleId}
    {handle : Handle} (hget : both.handles.get? id = some handle)
    (hindex : handle.device.simulator? ≠ some region.index) :
    turned.handles.get? ((numbers world left both).handle id) = some handle := by
  rcases h.handle_cases hget with ⟨hhas, -⟩ | ⟨key, found, hfound, hhas, -, rfl⟩ |
    ⟨hnot, hother, hleft, hbefore⟩
  · exact absurd hhas.simulator? hindex
  · obtain rfl := Option.mem_unique (h.mirrorsOther.handle key found hfound hhas) hget
    exact absurd (h.apart.index ▸ hhas.simulator?) hindex
  · have hright : right.handles.get? id = some handle :=
      (h.firstTurned.stays.confined.handles id
        (not_mem_area_handles h.fenced.accord.fresh hbefore hother)).trans hbefore
    rw [handle_old (Table.get?_lt h.fenced.accord.fresh hbefore)]
    exact (h.secondTurned.stays.confined.handles id
      (not_mem_area_handles h.symm.left_fenced.accord.fresh hright hnot)).trans hright

/-- What is open in the other order is open in this one. -/
theorem isSome (h : TwoOrders region other lent world left both right turned) {id : HandleId}
    {handle : Handle} (hget : both.handles.get? id = some handle) :
    (turned.handles.get? ((numbers world left both).handle id)).isSome := by
  by_cases hindex : handle.device.simulator? = some region.index
  · exact Option.isSome_of_eq_some (h.turned_of_open hget hindex).held
  · exact Option.isSome_of_eq_some (h.foreign hget hindex)

theorem closed (h : TwoOrders region other lent world left both right turned) {id : HandleId}
    (hget : both.handles.get? id = none) :
    turned.handles.get? ((numbers world left both).handle id) = none := by
  by_contra hopen
  obtain ⟨handle, hturned⟩ := Option.ne_none_iff_exists'.mp hopen
  have hboth := h.symm.isSome hturned
  rw [h.handle_turned, hget] at hboth
  cases hboth

/-! ### Grants -/

theorem grant (h : TwoOrders region other lent world left both right turned) {grant : Grant}
    (hgrant : grant ∈ both.bench.grants region.index) :
    grant.renumber (numbers world left both) ∈ turned.bench.grants region.index ∧
      turned.bench.files.get? ((numbers world left both).file grant.file) =
        both.bench.files.get? grant.file := by
  by_cases hstands : ∃ id handle, both.handles.get? id = some handle ∧
      handle.device.simulator? = some region.index ∧ handle.file = grant.file
  · obtain ⟨id, handle, hget, hindex, hfile⟩ := hstands
    have hturned := h.turned_of_open hget hindex
    exact ⟨hturned.grants grant hgrant hfile.symm, hfile ▸ hturned.opened⟩
  · -- it was given to somebody else, and both have let it be
    have hboth : both.Loose other.index grant :=
      h.apart.index.symm ▸ ⟨hgrant, fun id handle hget hindex hfile =>
        hstands ⟨id, handle, hget, hindex, hfile⟩⟩
    have hleft : left.Loose region.index grant := h.apart.index ▸ h.second.loose grant hboth
    have hbefore := h.first.loose grant hleft
    have haccord := h.fenced.accord
    have hlt := haccord.bench.fresh _ grant hbefore.1
    have houtLeft := hbefore.not_mem_area haccord
    have houtBoth := (h.apart.index ▸ hleft : left.Loose other.index grant).not_mem_area
      h.left_fenced.accord
    have houtRight := (h.apart.index ▸ hbefore : world.Loose other.index grant).not_mem_area haccord
    have houtTurned : grant.file ∉ (region.area right).files := by
      rintro (hnew | ⟨id, handle, hget, hhas, hfile⟩)
      · exact absurd hlt (Nat.not_lt.mpr (h.symm.files_le.1.trans hnew))
      · have hvalid := h.firstTurned.desk.ledger.valid id handle hget
        obtain ⟨-, hold⟩ := (h.firstTurned.handles id handle hget).resolve_left
          (h.apart.not_has hvalid hhas)
        exact hbefore.2 id handle hold hhas.simulator? hfile
    rw [Grant.renumber_of_fixed (file_old hlt), file_old hlt]
    refine ⟨?_, ?_⟩
    · rw [h.secondTurned.stays.confined.bench.grants _ grant houtTurned,
        h.firstTurned.stays.confined.bench.grants _ grant houtRight]
      exact hbefore.1
    · rw [h.secondTurned.stays.confined.bench.opened _ houtTurned,
        h.firstTurned.stays.confined.bench.opened _ houtRight,
        h.second.stays.confined.bench.opened _ houtBoth,
        h.first.stays.confined.bench.opened _ houtLeft]

/-! ### The simulated chip -/

theorem line? (h : TwoOrders region other lent world left both right turned) (offset : Offset) :
    turned.bench.line? region.index offset = both.bench.line? region.index offset := by
  have hout : ∀ {region : Region}, offset ∉ region.offsets → ∀ world : World (Traced Bench),
      (region.index, offset) ∉ (region.area world).reach := fun hnot _ hreach => hnot hreach.2
  by_cases hmem : offset ∈ region.offsets
  · rw [h.mirrors.line? hmem]
    have hboth := h.second.stays.confined.bench.line? _ _ (hout (h.apart.disjoint _ hmem) left)
    rw [h.apart.index] at hboth
    exact hboth.symm
  have hturned := h.secondTurned.stays.confined.bench.line? _ _ (hout hmem right)
  by_cases hother : offset ∈ other.offsets
  · have hboth := h.mirrorsOther.line? hother
    rw [h.apart.index] at hboth
    rw [hboth, hturned]
  · have hright := h.firstTurned.stays.confined.bench.line? _ _ (hout hother world)
    have hleft := h.first.stays.confined.bench.line? _ _ (hout hmem world)
    have hboth := h.second.stays.confined.bench.line? _ _ (hout hother left)
    rw [h.apart.index] at hright hboth
    rw [hturned, hright, hboth, hleft]

theorem make (h : TwoOrders region other lent world left both right turned) :
    (turned.bench.simulators[region.index]?).map Simulator.make =
      (both.bench.simulators[region.index]?).map Simulator.make := by
  rw [h.secondTurned.stays.confined.bench.make, h.firstTurned.stays.confined.bench.make,
    h.second.stays.confined.bench.make, h.first.stays.confined.bench.make]

theorem released (h : TwoOrders region other lent world left both right turned) {sim : Simulator}
    (hsim : both.bench.simulators[region.index]? = some sim) :
    turned.bench.released region.index = both.bench.released region.index := by
  have hmake : ∀ {region : Region} {before after : World (Traced Bench)} {sim : Simulator},
      before.WorksIn region lent after → ∀ index : Nat, after.bench.simulators[index]? = some sim →
      ∃ old, before.bench.simulators[index]? = some old := by
    intro region before after sim hworks index hsim
    have hsame := hworks.stays.confined.bench.make index
    rw [hsim, Option.map_some] at hsame
    obtain ⟨old, hold, -⟩ := Option.map_eq_some_iff.mp hsame.symm
    exact ⟨old, hold⟩
  have hsame := h.make
  rw [hsim, Option.map_some] at hsame
  obtain ⟨twin, htwin, -⟩ := Option.map_eq_some_iff.mp hsame
  obtain ⟨_, hleft⟩ := hmake h.second _ hsim
  obtain ⟨_, hright⟩ := hmake h.secondTurned _ htwin
  have hturned := h.mirrors.released hleft
  have hboth := h.mirrorsOther.released (h.apart.index.symm ▸ hright)
  rw [h.apart.index] at hboth
  omega

theorem simulator (h : TwoOrders region other lent world left both right turned) :
    Option.Rel (Simulator.Renumbered (numbers world left both))
      (both.bench.simulators[region.index]?) (turned.bench.simulators[region.index]?) := by
  have hmake := h.make
  have hline := h.line?
  have hgrants : ∀ grant, grant ∈ turned.bench.grants region.index ↔
      grant ∈ (both.bench.grants region.index).map (·.renumber (numbers world left both)) := by
    intro grant
    rw [List.mem_map]
    constructor
    · intro hturned
      refine ⟨_, h.apart.index ▸ (h.symm.grant (h.apart.index.symm ▸ hturned)).1, ?_⟩
      rw [Grant.renumber_renumber]
      exact Grant.renumber_of_fixed (h.symm.file_turned grant.file)
    · rintro ⟨old, hold, rfl⟩
      exact (h.grant hold).1
  cases hone : both.bench.simulators[region.index]? with
  | none =>
      rw [hone, Option.map_none, Option.map_eq_none_iff] at hmake
      rw [hmake]
      exact .none
  | some sim =>
      rw [hone, Option.map_some] at hmake
      obtain ⟨twin, htwo, hsame⟩ := Option.map_eq_some_iff.mp hmake
      rw [htwo]
      refine .some ⟨hsame, funext fun offset => ?_, ?_, ?_⟩
      · have hoffset := hline offset
        rwa [Bench.line?, Bench.line?, hone, htwo] at hoffset
      · rw [← released_of_eq htwo, ← released_of_eq hone]
        exact h.released hone
      · rw [Bench.grants_of_eq hone, Bench.grants_of_eq htwo] at hgrants
        have hfirst := (h.second.stays.fits.accord.bench.simulators _ sim hone).nodup_grants
        have hsecond := (h.secondTurned.stays.fits.accord.bench.simulators _ twin htwo).nodup_grants
        have hinjective := (renumbers_exchange h.files_le.1 h.files_le.2).injective
        refine (List.perm_ext_iff_of_nodup hsecond (hfirst.map ?_)).mpr hgrants
        exact Grant.renumber_injective hinjective

/-- **The two orders end in the same state, but for an exchange of numbers.** -/
theorem renumbered (h : TwoOrders region other lent world left both right turned) :
    Renumbered region.index (numbers world left both) both turned where
  handles := by
    rw [h.next_turned]
    exact renumbers_exchange h.handles_le.1 h.handles_le.2
  files := by
    rw [h.files_turned]
    exact renumbers_exchange h.files_le.1 h.files_le.2
  faces := by
    rw [h.secondTurned.stays.confined.faces, h.firstTurned.stays.confined.faces,
      h.second.stays.confined.faces, h.first.stays.confined.faces]
  record := h.record
  streams := by
    rw [h.secondTurned.stays.confined.streams, h.firstTurned.stays.confined.streams,
      h.second.stays.confined.streams, h.first.stays.confined.streams]
  tokens := by
    rw [h.secondTurned.stays.confined.tokens, h.firstTurned.stays.confined.tokens,
      h.second.stays.confined.tokens, h.first.stays.confined.tokens]
  handle := fun _ _ hget hindex => (h.turned_of_open hget hindex).held
  foreign := fun _ _ => h.foreign
  closed := fun _ => h.closed
  opened := fun _ hgrant => (h.grant hgrant).2
  simulator := h.simulator

end TwoOrders

end World

end GpioLines
