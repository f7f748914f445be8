import GpioLines.Proofs.LocalErrors
import GpioLines.Proofs.Queues
import GpioLines.Proofs.Reading
import GpioLines.Proofs.Sockets
import GpioLines.Proofs.Tokens

/-!
# What a wait reports

A wait looks at its lines once, and again after each act of the others until it ends. What a look
finds depends on the state of the workshop at that moment alone: whether the token was ever
cancelled, and which members have bytes to read. The first look that finds either ends the wait, and
tells of exactly the members that have bytes then.

The others set levels, inject bytes and cancel tokens. None of this changes which file a line is
served by, so the files that the wait was started with are those of its lines all the time. Who
releases the lines or closes their chip takes no file away from the wait; the files close after it.
-/

namespace GpioLines

/-! ### Looking until something is found -/

namespace World

section Await

variable {σ : Type} [Machine σ] {files : List (Line × FileId)} {token : Option TokenId}
  {limit : Option Duration} {world : World σ} {others : List (Intervention σ)}

/-- The wait goes on past the first so many of the others, unless it finds something before. -/
def Lasts (limit : Option Duration) (others : List (Intervention σ)) (count : Nat) : Prop :=
  count ≤ others.length ∧ ∀ other ∈ others.take count, ∀ last ∈ limit, other.moment ≤ last

omit [Machine σ] in
theorem lasts_zero : Lasts limit others 0 := ⟨Nat.zero_le _, nofun⟩

omit [Machine σ] in
theorem lasts_succ {other : Intervention σ} {count : Nat} :
    Lasts limit (other :: others) (count + 1) ↔
      (∀ last ∈ limit, other.moment ≤ last) ∧ Lasts limit others count := by
  simp only [Lasts, List.length_cons, Nat.add_le_add_iff_right, List.take_succ_cons,
    List.forall_mem_cons]
  exact and_left_comm

theorem await_cons_pending {other : Intervention σ}
    (hlook : world.look files token = .ok .pending) (hlast : ∀ last ∈ limit, other.moment ≤ last) :
    world.await files token limit (other :: others) =
      (other.act world).await files token limit others := by
  have hnot : limit.any (fun last => decide (last < other.moment)) = false := by
    cases limit with
    | none => rfl
    | some last => simpa using hlast last rfl
  rw [await, hlook]
  simp only [hnot, Bool.false_eq_true, if_false]

/-- The first look that finds something ends the wait. -/
theorem await_eq_look {count : Nat} (hlasts : Lasts limit others count)
    (hbefore : ∀ earlier < count,
      (world.actAll (others.take earlier)).look files token = .ok .pending)
    (hfound : (world.actAll (others.take count)).look files token ≠ .ok .pending) :
    (world.await files token limit others).1 =
      (world.actAll (others.take count)).look files token := by
  induction count generalizing world others with
  | zero =>
      rw [List.take_zero] at hfound ⊢
      change (world.await files token limit others).1 = world.look files token
      cases hlook : world.look files token with
      | error error => cases others <;> simp only [await, hlook]
      | ok polled =>
          cases polled with
          | pending => exact absurd hlook hfound
          | ready group => cases others <;> simp only [await, hlook]
  | succ count ih =>
      cases others with
      | nil => exact absurd hlasts.1 (Nat.not_succ_le_zero count)
      | cons other rest =>
          obtain ⟨hlast, hlasts⟩ := lasts_succ.mp hlasts
          have hfirst : world.look files token = .ok .pending := hbefore 0 (Nat.succ_pos count)
          rw [await_cons_pending hfirst hlast]
          exact ih hlasts (fun earlier hlt => hbefore (earlier + 1) (Nat.succ_lt_succ hlt)) hfound

/-- A wait in which no look finds anything ends with its time, if ever. -/
theorem await_eq_over (hnone : ∀ count, Lasts limit others count →
      (world.actAll (others.take count)).look files token = .ok .pending) :
    (world.await files token limit others).1 =
      .ok (if limit.isSome then .ready .empty else .pending) := by
  have hfirst : world.look files token = .ok .pending := hnone 0 lasts_zero
  induction others generalizing world with
  | nil => rw [await, hfirst]
  | cons other rest ih =>
      by_cases hlast : ∀ last ∈ limit, other.moment ≤ last
      · have hrest : ∀ count, Lasts limit rest count →
            ((other.act world).actAll (rest.take count)).look files token = .ok .pending :=
          fun count hlasts => hnone (count + 1) (lasts_succ.mpr ⟨hlast, hlasts⟩)
        rw [await_cons_pending hfirst hlast]
        exact ih hrest (hrest 0 lasts_zero)
      · push Not at hlast
        obtain ⟨last, rfl, hlt⟩ := hlast
        rw [await, hfirst]
        simp only [Option.any_some, hlt, decide_true, if_true, Option.isSome_some]

end Await

/-! ### The lines of a wait -/

section Lines

variable {σ : Type} {world : World σ} {group : Group} {line : Line}

/-- A wait can be for this line. -/
def CanWatch (world : World σ) (line : Line) : Prop :=
  world.isValid line = true ∧ world.state line = .requestedEvents

theorem isValid_iff : world.isValid line = true ↔ ∃ chip, world.openChip line.chip = .ok chip := by
  unfold isValid isOpen
  cases world.openChip line.chip with
  | error error => exact iff_of_false Bool.false_ne_true nofun
  | ok chip => exact iff_of_true rfl ⟨chip, rfl⟩

theorem canWatch_iff (hsound : world.ledger.Sound) : world.CanWatch line ↔
    world.isValid line = true ∧
      ∃ id handle, world.handle? line = some (id, handle) ∧ handle.kind = .events := by
  refine and_congr_right fun _ => ⟨fun hstate => ?_, ?_⟩
  · cases hslot : world.slot line with
    | free | values id =>
        rw [state, hslot] at hstate
        cases hstate
    | events id =>
        have hholds : world.ledger.Holds line id := congrArg Slot.handle? hslot
        obtain ⟨handle, hget, hholding, -⟩ := hsound.slot_open line id hholds
        refine ⟨id, handle, handle?_eq_some.mpr ⟨hholds, hget⟩, ?_⟩
        have hsame : Slot.events id = .holding id handle.kind := hslot.symm.trans hholding
        cases hkind : handle.kind with
        | events => rfl
        | values =>
            rw [hkind] at hsame
            cases hsame
  · rintro ⟨id, handle, hheld, hkind⟩
    obtain ⟨hholds, hget⟩ := handle?_eq_some.mp hheld
    obtain ⟨found, hfound, hholding, -⟩ := hsound.slot_open line id hholds
    obtain rfl := Option.mem_unique hget hfound
    have hslot : world.slot line = .holding id handle.kind := hholding
    rw [state, hslot, hkind]
    rfl

theorem waitFile_eq_ok {file : FileId} : world.waitFile line = .ok file ↔
    world.isValid line = true ∧ ∃ id handle, world.handle? line = some (id, handle) ∧
      handle.kind = .events ∧ handle.file = file := by
  rw [waitFile, bind_eq_ok, isValid_iff, ← exists_and_right]
  refine exists_congr fun chip => and_congr_right fun _ => ?_
  cases hheld : world.handle? line with
  | none => simp
  | some held =>
      obtain ⟨id, handle⟩ := held
      by_cases hkind : handle.kind = .events <;> simp [hkind]

theorem waitFile_fails (world : World σ) (line : Line) :
    FailsAs (∃ reason, · = Error.invalid reason) (world.waitFile line) := by
  unfold waitFile
  refine .bind (fun error herror => ⟨_, openChip_eq_error herror⟩) fun chip _ => ?_
  split
  · split
    · exact .ok _
    · exact .error ⟨_, rfl⟩
  · exact .error ⟨_, rfl⟩

/-- The files of a wait are those of its lines, one a member. -/
theorem waitFiles_eq_ok {files : List (Line × FileId)} (h : world.waitFiles group = .ok files) :
    files.map (·.1) = group.lines ∧ ∀ entry ∈ files, world.isValid entry.1 = true ∧
      ∃ id handle, world.handle? entry.1 = some (id, handle) ∧ handle.kind = .events ∧
        handle.file = entry.2 := by
  unfold waitFiles at h
  split at h
  · cases h
  have hfiles := forall₂_of_mapM h
  have hentry : ∀ line entry, (world.waitFile line).map (line, ·) = .ok entry →
      line = entry.1 ∧ world.waitFile line = .ok entry.2 := by
    intro line entry hmap
    cases hfile : world.waitFile line with
    | error error =>
        rw [hfile] at hmap
        cases hmap
    | ok file =>
        rw [hfile] at hmap
        obtain rfl := Except.ok.inj hmap
        exact ⟨rfl, rfl⟩
  constructor
  · refine (List.forall₂_eq_eq_eq ▸ List.forall₂_map_right_iff.mpr (hfiles.imp ?_) :
      group.lines = files.map (·.1)).symm
    exact fun line entry hmap => (hentry line entry hmap).1
  · intro entry hmem
    obtain ⟨line, -, hmap⟩ := (exists_of_forall₂ hfiles).2 entry hmem
    obtain ⟨rfl, hfile⟩ := hentry line entry hmap
    exact waitFile_eq_ok.mp hfile

theorem waitFiles_fails (world : World σ) (group : Group) :
    FailsAs (∃ reason, · = Error.invalid reason) (world.waitFiles group) := by
  unfold waitFiles
  split
  · exact .error ⟨_, rfl⟩
  · exact .mapM (fun line => .map (world.waitFile_fails line) _) _

theorem exists_waitFiles (hsound : world.ledger.Sound) :
    (∃ files, world.waitFiles group = .ok files) ↔
      group.lines ≠ [] ∧ ∀ line ∈ group.lines, world.CanWatch line := by
  constructor
  · rintro ⟨files, h⟩
    obtain ⟨hlines, hentries⟩ := waitFiles_eq_ok h
    constructor
    · intro hempty
      rw [waitFiles, hempty, List.isEmpty_nil, if_pos rfl] at h
      cases h
    · intro line hline
      rw [← hlines] at hline
      obtain ⟨entry, hentry, rfl⟩ := List.mem_map.mp hline
      obtain ⟨hvalid, id, handle, hheld, hkind, -⟩ := hentries entry hentry
      exact (canWatch_iff hsound).mpr ⟨hvalid, id, handle, hheld, hkind⟩
  · rintro ⟨hnonempty, hall⟩
    rw [waitFiles, if_neg (by simpa using hnonempty)]
    refine mapM_eq_ok fun line hline => ?_
    obtain ⟨hvalid, id, handle, hheld, hkind⟩ := (canWatch_iff hsound).mp (hall line hline)
    have hfile : world.waitFile line = .ok handle.file :=
      waitFile_eq_ok.mpr ⟨hvalid, id, handle, hheld, hkind, rfl⟩
    rw [hfile]
    exact ⟨_, rfl⟩

end Lines

/-! ### Lines that are given back meanwhile -/

section Retained

variable {σ : Type} {world mid after : World σ}

/-- The handles that waits refer to are all as they were. -/
structure Retains (before after : World σ) : Prop where
  waiting : after.waiting = before.waiting
  handles : ∀ id ∈ before.waiting, after.handles.get? id = before.handles.get? id

namespace Retains

theorem of_eq (hwaiting : after.waiting = world.waiting) (hhandles : after.handles = world.handles) :
    world.Retains after :=
  ⟨hwaiting, fun id _ => by rw [hhandles]⟩

theorem trans (h : world.Retains mid) (hlater : mid.Retains after) : world.Retains after :=
  ⟨hlater.waiting.trans h.waiting, fun id hid =>
    (hlater.handles id (h.waiting ▸ hid)).trans (h.handles id hid)⟩

theorem foldl {α : Type} {f : World σ → α → World σ} {items : List α}
    (h : ∀ item ∈ items, ∀ world : World σ, world.Retains (f world item)) (world : World σ) :
    world.Retains (items.foldl f world) := by
  induction items generalizing world with
  | nil => exact .of_eq rfl rfl
  | cons item rest ih =>
      have hfirst := h item List.mem_cons_self world
      exact hfirst.trans (ih (fun other hother => h other (List.mem_cons_of_mem _ hother)) _)

end Retains

theorem retains_note (world : World σ) (notice : Notice) : world.Retains (world.note notice) :=
  .of_eq rfl rfl

theorem retains_detachAll (lines : List Line) (world : World σ) :
    world.Retains (world.detachAll lines).2 := by
  induction lines generalizing world with
  | nil => exact .of_eq rfl rfl
  | cons line rest ih =>
      have hfirst : world.Retains (world.detach line).2 := .of_eq rfl rfl
      exact hfirst.trans (ih _)

variable [Machine σ]

/-- What a wait refers to is not closed. -/
theorem retains_dropHandle (world : World σ) (id : HandleId) : world.Retains (world.dropHandle id) := by
  unfold dropHandle
  split
  · exact .of_eq rfl rfl
  · next hfree =>
    have hnot : id ∉ world.waiting := by
      intro hmem
      refine hfree ?_
      rw [isHeld, List.contains_iff_mem.mpr hmem, Bool.or_true]
    unfold closeHandle
    split
    · exact .of_eq rfl rfl
    · refine ⟨rfl, fun other hother => ?_⟩
      exact (Table.get?_erase ..).trans (if_neg fun heq : other = id => hnot (heq ▸ hother))

theorem retains_dropHandles (ids : List HandleId) (world : World σ) :
    world.Retains (world.dropHandles ids) := by
  induction ids generalizing world with
  | nil => exact .of_eq rfl rfl
  | cons id rest ih =>
      rw [dropHandles]
      split
      · exact ih world
      · exact (retains_dropHandle world id).trans (ih _)

theorem retains_update (world : World σ) (line : Line) : world.Retains (world.update line) := by
  have hrefresh : world.Retains (world.refresh line).2 := by
    unfold refresh
    split
    · exact .of_eq rfl rfl
    · split
      all_goals
        next hperform =>
        obtain ⟨machine, -, rfl⟩ := perform_eq hperform
        exact .of_eq rfl rfl
  unfold update
  split
  · next h =>
    rw [h] at hrefresh
    exact hrefresh
  · next h =>
    rw [h] at hrefresh
    exact hrefresh.trans (retains_note ..)

/-- **Lines that are released while somebody waits for them keep their file open.** -/
theorem retains_release (world : World σ) (group : Group) : world.Retains (world.release group) := by
  have hdropped := (retains_detachAll group.lines world).trans
    (retains_dropHandles (world.detachAll group.lines).1 _)
  unfold release
  simp only
  split
  · exact hdropped
  · have hnoted := hdropped.trans (retains_note _
      (.released (world.detachAll group.lines).1.length group.offsets))
    split
    · exact hnoted.trans (.foldl (fun line _ world => retains_update world line) _)
    · exact hnoted

/-- As do lines of a chip that is closed. -/
theorem retains_closeChip (world : World σ) (id : ChipId) : world.Retains (world.closeChip id) := by
  have hinvalidate : ∀ (world : World σ) line, world.Retains (world.invalidate line) := by
    intro world line
    have hdetached : world.Retains ((world.detach line).2.modifyLine line (·.stale)) := .of_eq rfl rfl
    unfold invalidate
    simp only
    cases (world.detach line).1 with
    | none => exact hdetached
    | some id => exact hdetached.trans (retains_dropHandle _ id)
  unfold closeChip
  split
  · exact .of_eq rfl rfl
  · next chip _ =>
    split
    · exact .of_eq rfl rfl
    · have hclosed : world.Retains (world.markClosed id) := .of_eq rfl rfl
      have hinvalidated : ∀ lines : List Line,
          (world.markClosed id).Retains (lines.foldl invalidate (world.markClosed id)) :=
        fun _ => .foldl (fun line _ world => hinvalidate world line) _
      exact (hclosed.trans (hinvalidated _)).trans (retains_note _ (.closedChip chip.name))

/-- **A wait has its files to the end**, whoever gives back its lines meanwhile. -/
theorem handles_of_retained {others : List (Intervention σ)} {held : List HandleId}
    (h : ∀ other ∈ others,
      (∃ group, other.act = (·.release group)) ∨ ∃ chip, other.act = (·.closeChip chip))
    {id : HandleId} (hid : id ∈ held) :
    ((world.retain held).actAll others).handles.get? id = world.handles.get? id := by
  have hact : ∀ other ∈ others, ∀ world : World σ, world.Retains (other.act world) := by
    intro other hother world
    rcases h other hother with ⟨group, hact⟩ | ⟨chip, hact⟩
    · rw [hact]
      exact retains_release world group
    · rw [hact]
      exact retains_closeChip world chip
  have hretained : (world.retain held).Retains ((world.retain held).actAll others) := .foldl hact _
  exact hretained.handles id (List.mem_append_left _ hid)

/-- A line is released, and its chip closed, while somebody waits for it. The wait goes on to its end,
and then the file closes. -/
example :
    let group : Group := ⟨[⟨0, 1⟩]⟩
    let world := (({} : Workshop).actAll [.deed (.addSimulator "gpiochip0" 2),
      .operation (.openChip (.simulator 0)), .operation (.getLine 0 1),
      .operation (.onGroup (.request { consumer := "", type := .eventBoth } none) group)]).world
    let others : List (Intervention _) := [⟨1, (·.release group)⟩, ⟨2, (·.closeChip 0)⟩]
    (world.wait group none (some 3) others).1 = .ok (.ready .empty) ∧
      ((world.retain [0]).actAll others).handles.get? 0 = world.handles.get? 0 ∧
      (world.wait group none (some 3) others).2.handles.get? 0 = none := by
  decide

end Retained

end World

end GpioLines
