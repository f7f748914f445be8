import Mathlib.Data.Nat.Find
import GpioLines.Proofs.Delivery
import GpioLines.Proofs.Waiting

/-!
# Keeping vigil

A run of a workshop that ends in a wait, while others set levels, inject bytes and cancel tokens.
Every look of the wait sees the workshop as it is after so many of their acts, so what a look finds
is known from what holds of every reachable workshop: its listeners have their sockets, and its
tokens are cancelled if they ever were. The first look that finds anything decides what the wait
reports; before and after that it leaves everything as it is.
-/

namespace GpioLines

/-! ### Sockets and their readers -/

namespace Bench

theorem readiness_socket {bench : Bench} {file : FileId} {opened : OpenFile} {bytes : List UInt8}
    (hopened : bench.files.get? file = some opened) (hsource : opened.source = .socket bytes true) :
    bench.readiness file = .idle ↔ bytes = [] := by
  rw [readiness, hopened, Option.elim_some, OpenFile.readiness, hsource]
  cases bytes <;> simp

end Bench

namespace World

variable {world : World (Traced Bench)} {line : Line} {id : HandleId} {handle : Handle}

/-- The bytes that wait for a reader of the line. -/
def unread (world : World (Traced Bench)) (line : Line) : List UInt8 :=
  (world.handle? line).elim [] fun held => world.bench.queue held.2.file

/-- A reader of a socket finds a record, or the torn piece of one; if there is nothing, it would
have to wait. -/
theorem readEvent_socket (hvalid : world.isValid line = true)
    (hheld : world.handle? line = some (id, handle)) (hkind : handle.kind = .events)
    {opened : OpenFile} {bytes : List UInt8}
    (hopened : world.bench.files.get? handle.file = some opened)
    (hsource : opened.source = .socket bytes true) :
    (world.readEvent line).1 =
      if bytes = [] then (if opened.nonblocking then .error (.event .wouldBlock) else .ok .pending)
      else LineEvent.front bytes := by
  obtain ⟨chip, hchip⟩ := isValid_iff.mp hvalid
  have hserved : world.eventHandle line = .ok (id, handle) := by
    simp only [eventHandle, hchip, hheld]
    exact if_pos hkind
  have hread : ∀ outcome, (opened.read LineEvent.recordSize).1 = outcome →
      ∃ after, world.readFile handle.file LineEvent.recordSize = (outcome, after) := by
    intro outcome houtcome
    refine ⟨(world.readFile handle.file LineEvent.recordSize).2, Prod.ext ?_ rfl⟩
    exact (congrArg Prod.fst (Bench.read_eq hopened LineEvent.recordSize)).trans houtcome
  rw [OpenFile.read, hsource] at hread
  unfold readEvent
  rw [hserved]
  by_cases hempty : bytes = []
  · subst hempty
    cases hmode : opened.nonblocking with
    | false =>
        obtain ⟨after, hread⟩ := hread .blocked (by simp [hmode])
        simp only [hread, if_true, Bool.false_eq_true, if_false]
    | true =>
        obtain ⟨after, hread⟩ := hread (.failed .wouldBlock) (by simp [hmode])
        simp only [hread, if_true]
        rfl
  · obtain ⟨after, hread⟩ := hread (.bytes (bytes.take LineEvent.recordSize)) (by simp [hempty])
    simp only [hread, if_neg hempty, LineEvent.front]
    cases LineEvent.ofRecord? (bytes.take LineEvent.recordSize) with
    | none => rfl
    | some event => rfl

end World

/-! ### Disturbances -/

/-- What others do while a wait goes on. -/
inductive Disturbance where
  | setLevel (index : Nat) (offset : Offset) (level : UInt8)
  | inject (index : Nat) (offset : Offset) (bytes : List UInt8)
  | cancel (token : TokenId)

namespace Disturbance

def act : Disturbance → Act
  | .setLevel index offset level => .deed (.setLevel index offset level)
  | .inject index offset bytes => .deed (.inject index offset bytes)
  | .cancel token => .operation (.cancel token)

/-- What the act does to a world, whoever acts. -/
def onWorld (disturbance : Disturbance) (world : World (Traced Bench)) : World (Traced Bench) :=
  (({ client := { world } } : Workshop).act disturbance.act).world

variable {workshop : Workshop} (disturbance : Disturbance)

theorem world_act : (workshop.act disturbance.act).world = disturbance.onWorld workshop.world := by
  cases disturbance <;> rfl

theorem can (workshop : Workshop) : workshop.Can disturbance.act := by
  cases disturbance with
  | setLevel | inject => trivial
  | cancel => exact ⟨nofun, nofun⟩

theorem aloof (moment : Duration) : Intervention.Aloof ⟨moment, disturbance.onWorld⟩ where
  chips := fun world => by cases disturbance <;> rfl
  blind := fun world log waiting => by cases disturbance <;> exact ⟨_, rfl⟩

/-- The library goes on with the same lines and handles, and no device was called. -/
theorem onWorld_keeps (world : World (Traced Bench)) :
    (disturbance.onWorld world).chips = world.chips ∧
      (disturbance.onWorld world).handles = world.handles ∧
      (disturbance.onWorld world).trace = world.trace := by
  cases disturbance <;> exact ⟨rfl, rfl, rfl⟩

end Disturbance

/-! ### The run -/

structure Vigil where
  script : List Act
  group : Group
  token : Option TokenId := none
  timeout : Option Duration := none
  /-- With the moments at which they happen, counted from the start of the wait. -/
  others : List (Duration × Disturbance) := []

namespace Vigil

variable {vigil : Vigil} {count : Nat} {line : Line}

def start (vigil : Vigil) : Workshop := ({} : Workshop).actAll vigil.script

def acts (vigil : Vigil) (count : Nat) : List Act := (vigil.others.take count).map (·.2.act)

/-- The workshop after so many acts of the others. -/
def after (vigil : Vigil) (count : Nat) : Workshop := vigil.start.actAll (vigil.acts count)

def limit (vigil : Vigil) : Option Duration := vigil.timeout.filter Duration.hasEnd

def interventions (vigil : Vigil) : List (Intervention (Traced Bench)) :=
  vigil.others.map fun other => ⟨other.1, other.2.onWorld⟩

def wait (vigil : Vigil) : Except Error (Polled Group) × World (Traced Bench) :=
  vigil.start.world.wait vigil.group vigil.token vigil.timeout vigil.interventions

/-- The token was cancelled, before the wait or by one of the first so many acts. -/
def Cancelled (vigil : Vigil) (count : Nat) : Prop :=
  ∃ token ∈ vigil.token, ({} : Workshop).Cancels (vigil.script ++ vigil.acts count) token

/-- The line has unread bytes after so many acts. -/
def Pending (vigil : Vigil) (count : Nat) (line : Line) : Prop :=
  (vigil.after count).world.unread line ≠ []

/-- After so many acts there is something to report. -/
def Decided (vigil : Vigil) (count : Nat) : Prop :=
  vigil.Cancelled count ∨ ∃ line ∈ vigil.group.lines, vigil.Pending count line

/-- The first so many acts happen before the limit. -/
def InTime (vigil : Vigil) (count : Nat) : Prop :=
  count ≤ vigil.others.length ∧
    ∀ other ∈ vigil.others.take count, ∀ last ∈ vigil.limit, other.1 ≤ last

theorem actAll_interventions (workshop : Workshop) (others : List (Duration × Disturbance)) :
    (workshop.actAll (others.map (·.2.act))).world = workshop.world.actAll
      (others.map fun other => ⟨other.1, other.2.onWorld⟩) := by
  induction others generalizing workshop with
  | nil => rfl
  | cons other rest ih =>
      refine (ih _).trans ?_
      rw [other.2.world_act]
      rfl

theorem world_after (vigil : Vigil) (count : Nat) : (vigil.after count).world =
    vigil.start.world.actAll (vigil.interventions.take count) := by
  rw [after, acts, actAll_interventions, interventions, List.map_take]

theorem after_eq (vigil : Vigil) (count : Nat) :
    vigil.after count = ({} : Workshop).actAll (vigil.script ++ vigil.acts count) := by
  rw [Workshop.actAll, List.foldl_append]
  rfl

theorem canActAll (workshop : Workshop) (others : List (Duration × Disturbance)) :
    workshop.CanActAll Workshop.Unruled (others.map (·.2.act)) := by
  induction others generalizing workshop with
  | nil => trivial
  | cons other rest ih => exact ⟨other.2.can workshop, trivial, ih _⟩

theorem keeps (vigil : Vigil) (count : Nat) :
    (vigil.after count).world.chips = vigil.start.world.chips ∧
      (vigil.after count).world.handles = vigil.start.world.handles ∧
      (vigil.after count).world.trace = vigil.start.world.trace := by
  unfold after acts
  generalize vigil.others.take count = others
  generalize vigil.start = workshop
  induction others generalizing workshop with
  | nil => exact ⟨rfl, rfl, rfl⟩
  | cons other rest ih =>
      obtain ⟨hchips, hhandles, htrace⟩ := ih (workshop.act other.2.act)
      obtain ⟨hchips', hhandles', htrace'⟩ := other.2.onWorld_keeps workshop.world
      rw [other.2.world_act] at hchips hhandles htrace
      exact ⟨hchips.trans hchips', hhandles.trans hhandles', htrace.trans htrace'⟩

theorem handle?_after (vigil : Vigil) (count : Nat) (line : Line) :
    (vigil.after count).world.handle? line = vigil.start.world.handle? line := by
  obtain ⟨hchips, hhandles, -⟩ := vigil.keeps count
  simp only [World.handle?, World.slot, World.record, hchips, hhandles]

/-- The members are lines of simulated chips, and nobody else has the numbers of their files. -/
structure OnSimulators (vigil : Vigil) : Prop where
  can : ({} : Workshop).CanActAll Workshop.Unruled vigil.script
  group : vigil.group.WellFormed
  simulated : ∀ line ∈ vigil.group.lines, ∃ index, vigil.start.world.IsOver line index
  unclaimed : ∀ line ∈ vigil.group.lines, ∀ id handle,
    vigil.start.world.handle? line = some (id, handle) →
    Unclaimed handle.file vigil.start.world.trace

namespace OnSimulators

theorem reachable (h : vigil.OnSimulators) (count : Nat) :
    Workshop.Reachable Workshop.Unruled (vigil.after count) := by
  rw [after_eq]
  have hcan : ({} : Workshop).CanActAll Workshop.Unruled (vigil.script ++ vigil.acts count) :=
    Workshop.canActAll_append.mpr ⟨h.can, canActAll _ _⟩
  exact Workshop.Reachable.start.actAll hcan

theorem sound (h : vigil.OnSimulators) : vigil.start.Sound := (h.reachable 0).sound

/-- Each member has a socket, with its unread bytes in it. -/
theorem socket (h : vigil.OnSimulators) (hline : line ∈ vigil.group.lines) {id : HandleId}
    {handle : Handle} (hheld : vigil.start.world.handle? line = some (id, handle))
    (hkind : handle.kind = .events) (count : Nat) : ∃ opened,
      (vigil.after count).world.bench.files.get? handle.file = some opened ∧
      opened.source = .socket ((vigil.after count).world.unread line) true := by
  obtain ⟨hholds, hget⟩ := World.handle?_eq_some.mp hheld
  have hsim : handle.device.simulator? ≠ none := by
    obtain ⟨index, device, hdevice, hindex⟩ := h.simulated line hline
    obtain rfl := Option.mem_unique hdevice ((h.sound.accord.home line id hholds).2 handle hget)
    exact Option.ne_none_iff_exists'.mpr ⟨index, hindex⟩
  have hunclaimed := h.unclaimed line hline id handle hheld
  rw [← (vigil.keeps count).2.1] at hget
  rw [← (vigil.keeps count).2.2] at hunclaimed
  obtain ⟨opened, bytes, hopened, hsource⟩ :=
    (h.reachable count).socket hget hkind hsim hunclaimed
  refine ⟨opened, hopened, ?_⟩
  rw [World.unread, vigil.handle?_after, hheld, Option.elim_some, Bench.queue_eq hopened hsource,
    hsource]

end OnSimulators

theorem any_isCancelled_iff (h : vigil.OnSimulators) (count : Nat) :
    vigil.token.any (vigil.after count).world.isCancelled = true ↔ vigil.Cancelled count := by
  have hcan : ({} : Workshop).CanActAll Workshop.Unruled (vigil.script ++ vigil.acts count) :=
    Workshop.canActAll_append.mpr ⟨h.can, canActAll _ _⟩
  have hstart : Workshop.Reachable Workshop.Unruled {} := .start
  have hempty : ({} : Workshop).Sound := hstart.sound
  unfold Cancelled
  cases vigil.token with
  | none => exact iff_of_false Bool.false_ne_true nofun
  | some token =>
      have hnone : ¬ ({} : Workshop).world.isCancelled token = true := Bool.false_ne_true
      rw [Option.any_some, after_eq, Workshop.isCancelled_actAll hempty hcan, or_iff_right hnone]
      exact ⟨fun hcancels => ⟨token, rfl, hcancels⟩, fun ⟨_, hsome, hcancels⟩ =>
        Option.some.inj hsome ▸ hcancels⟩

/-! ### What the looks find -/

/-- The members that have unread bytes after so many acts, in group order. -/
def reported (vigil : Vigil) (count : Nat) : Group :=
  ⟨vigil.group.lines.filter fun line => decide ((vigil.after count).world.unread line ≠ [])⟩

theorem mem_reported : line ∈ (vigil.reported count).lines ↔
    line ∈ vigil.group.lines ∧ vigil.Pending count line := by
  rw [reported, List.mem_filter, decide_eq_true_eq, Pending]

theorem readyAmong_after (h : vigil.OnSimulators) {files : List (Line × FileId)}
    (hfiles : vigil.start.world.waitFiles vigil.group = .ok files) (count : Nat) :
    (vigil.after count).world.readyAmong files = vigil.reported count := by
  obtain ⟨hlines, hentries⟩ := World.waitFiles_eq_ok hfiles
  have hready : ∀ entry ∈ files,
      (Machine.readiness entry.2 (vigil.after count).world.machine != .idle) =
        decide ((vigil.after count).world.unread entry.1 ≠ []) := by
    intro entry hentry
    obtain ⟨-, id, handle, hheld, hkind, hfile⟩ := hentries entry hentry
    have hmember : entry.1 ∈ vigil.group.lines := hlines ▸ List.mem_map_of_mem hentry
    obtain ⟨opened, hopened, hsource⟩ := h.socket hmember hheld hkind count
    have hidle := Bench.readiness_socket hopened hsource
    rw [hfile] at hidle
    rw [Bool.eq_iff_iff, bne_iff_ne, decide_eq_true_eq]
    exact not_congr hidle
  rw [World.readyAmong, reported, ← hlines, List.filter_map, List.filter_congr hready]
  rfl

theorem look_cancelled (h : vigil.OnSimulators) (files : List (Line × FileId))
    (hcancelled : vigil.Cancelled count) :
    (vigil.after count).world.look files vigil.token = .error .cancelled := by
  rw [World.look, if_pos ((any_isCancelled_iff h count).mpr hcancelled)]

theorem look_after (h : vigil.OnSimulators) {files : List (Line × FileId)}
    (hfiles : vigil.start.world.waitFiles vigil.group = .ok files)
    (hcancelled : ¬ vigil.Cancelled count) :
    (vigil.after count).world.look files vigil.token =
      if (vigil.reported count).lines.isEmpty then .ok .pending
      else .ok (.ready (vigil.reported count)) := by
  rw [World.look, if_neg (mt (any_isCancelled_iff h count).mp hcancelled)]
  simp only [readyAmong_after h hfiles]

theorem look_eq_pending (h : vigil.OnSimulators) {files : List (Line × FileId)}
    (hfiles : vigil.start.world.waitFiles vigil.group = .ok files) (hnot : ¬ vigil.Decided count) :
    (vigil.after count).world.look files vigil.token = .ok .pending := by
  obtain ⟨hcancelled, hpending⟩ := not_or.mp hnot
  rw [look_after h hfiles hcancelled, if_pos]
  rw [List.isEmpty_iff, List.eq_nil_iff_forall_not_mem]
  exact fun line hline => hpending ⟨line, mem_reported.mp hline⟩

/-! ### What the wait reports -/

/-- Every member is requested for events, and there are members. -/
def Watchable (vigil : Vigil) : Prop :=
  vigil.group.lines ≠ [] ∧ ∀ line ∈ vigil.group.lines, vigil.start.world.CanWatch line

/-- The others act so often before the first look that finds something. -/
def DecidedAt (vigil : Vigil) (count : Nat) : Prop :=
  vigil.InTime count ∧ vigil.Decided count ∧ ∀ earlier < count, ¬ vigil.Decided earlier

theorem inTime_of_le {earlier : Nat} (h : vigil.InTime count) (hle : earlier ≤ count) :
    vigil.InTime earlier :=
  ⟨hle.trans h.1, fun other hother => h.2 other (List.take_subset_take_left _ hle hother)⟩

/-- Either a first look finds something or none does in time. -/
theorem decidedAt_or_not (vigil : Vigil) : (∃ count, vigil.DecidedAt count) ∨
    ∀ count, vigil.InTime count → ¬ vigil.Decided count := by
  classical
  by_cases hsome : ∃ count, vigil.InTime count ∧ vigil.Decided count
  · obtain ⟨hintime, hdecided⟩ := Nat.find_spec hsome
    refine Or.inl ⟨Nat.find hsome, hintime, hdecided, fun earlier hlt hearlier => ?_⟩
    exact Nat.find_min hsome hlt ⟨inTime_of_le hintime hlt.le, hearlier⟩
  · exact Or.inr fun count hintime hdecided => hsome ⟨count, hintime, hdecided⟩

theorem aloof_interventions (vigil : Vigil) : ∀ other ∈ vigil.interventions, other.Aloof := by
  intro other hother
  obtain ⟨entry, -, rfl⟩ := List.mem_map.mp hother
  exact entry.2.aloof entry.1

/-- A wait refers to the handles of its lines meanwhile, which no look takes notice of. -/
theorem look_retain (held : List HandleId) (files : List (Line × FileId)) :
    ((vigil.start.world.retain held).actAll (vigil.interventions.take count)).look files
      vigil.token = (vigil.after count).world.look files vigil.token := by
  obtain ⟨log, hacted⟩ := World.actAll_blind
    (fun other hother => vigil.aloof_interventions other (List.mem_of_mem_take hother))
    vigil.start.world vigil.start.world.log (held ++ vigil.start.world.waiting)
  rw [world_after, World.retain, show World.actAll _ (vigil.interventions.take count) = _ from hacted]
  rfl

theorem wait_of_watchable (h : vigil.OnSimulators) (hwatchable : vigil.Watchable) :
    ∃ files held, vigil.start.world.waitFiles vigil.group = .ok files ∧ vigil.wait.1 =
      ((vigil.start.world.retain held).await files vigil.token vigil.limit vigil.interventions).1 := by
  obtain ⟨files, hfiles⟩ := (World.exists_waitFiles h.sound.client.desk.ledger).mpr hwatchable
  refine ⟨files, vigil.group.lines.filterMap fun line => (vigil.start.world.slot line).handle?,
    hfiles, ?_⟩
  rw [wait, World.wait, hfiles]
  rfl

theorem lasts_iff : World.Lasts vigil.limit vigil.interventions count ↔ vigil.InTime count := by
  rw [World.Lasts, InTime, interventions, List.length_map, ← List.map_take, List.forall_mem_map]

theorem look_ne_pending (h : vigil.OnSimulators) {files : List (Line × FileId)}
    (hfiles : vigil.start.world.waitFiles vigil.group = .ok files) (hdecided : vigil.Decided count) :
    (vigil.after count).world.look files vigil.token ≠ .ok .pending := by
  by_cases hcancelled : vigil.Cancelled count
  · rw [look_cancelled h files hcancelled]
    nofun
  · obtain ⟨line, hline⟩ := hdecided.resolve_left hcancelled
    have hsome : ¬ (vigil.reported count).lines.isEmpty = true := by
      rw [List.isEmpty_iff]
      exact List.ne_nil_of_mem (mem_reported.mpr hline)
    rw [look_after h hfiles hcancelled, if_neg hsome]
    nofun

/-- The first look that finds something says what the wait reports. -/
theorem wait_eq_look (h : vigil.OnSimulators) (hwatchable : vigil.Watchable)
    (hdecided : vigil.DecidedAt count) :
    ∃ files, vigil.start.world.waitFiles vigil.group = .ok files ∧
      vigil.wait.1 = (vigil.after count).world.look files vigil.token := by
  obtain ⟨files, held, hfiles, hwait⟩ := wait_of_watchable h hwatchable
  obtain ⟨hintime, hfound, hfirst⟩ := hdecided
  refine ⟨files, hfiles, ?_⟩
  rw [hwait, ← look_retain held]
  refine World.await_eq_look (lasts_iff.mpr hintime) (fun earlier hlt => ?_) ?_
  · rw [look_retain]
    exact look_eq_pending h hfiles (hfirst earlier hlt)
  · rw [look_retain]
    exact look_ne_pending h hfiles hfound

theorem wait_eq_cancelled (h : vigil.OnSimulators) (hwatchable : vigil.Watchable)
    (hdecided : vigil.DecidedAt count) (hcancelled : vigil.Cancelled count) :
    vigil.wait.1 = .error .cancelled := by
  obtain ⟨files, -, hlook⟩ := wait_eq_look h hwatchable hdecided
  rw [hlook, look_cancelled h files hcancelled]

theorem wait_eq_reported (h : vigil.OnSimulators) (hwatchable : vigil.Watchable)
    (hdecided : vigil.DecidedAt count) (hcancelled : ¬ vigil.Cancelled count) :
    vigil.wait.1 = .ok (.ready (vigil.reported count)) := by
  obtain ⟨files, hfiles, hlook⟩ := wait_eq_look h hwatchable hdecided
  obtain ⟨line, hline⟩ := hdecided.2.1.resolve_left hcancelled
  rw [hlook, look_after h hfiles hcancelled, if_neg]
  rw [List.isEmpty_iff]
  exact List.ne_nil_of_mem (mem_reported.mpr hline)

theorem wait_eq_over (h : vigil.OnSimulators) (hwatchable : vigil.Watchable)
    (hnone : ∀ count, vigil.InTime count → ¬ vigil.Decided count) :
    vigil.wait.1 = .ok (if vigil.limit.isSome then .ready .empty else .pending) := by
  obtain ⟨files, held, hfiles, hwait⟩ := wait_of_watchable h hwatchable
  rw [hwait]
  refine World.await_eq_over fun count hlasts => ?_
  rw [look_retain]
  exact look_eq_pending h hfiles (hnone count (lasts_iff.mp hlasts))

/-- Nothing is consumed, and nothing but the log has changed beside what the others did. -/
theorem wait_world (vigil : Vigil) :
    ∃ log, vigil.wait.2 = { (vigil.after vigil.others.length).world with log } := by
  have hall : vigil.interventions.take vigil.others.length = vigil.interventions :=
    List.take_of_length_le (by rw [interventions, List.length_map])
  rw [world_after, hall]
  exact World.wait_world vigil.aloof_interventions ..

theorem wellFormed_reported (h : vigil.group.WellFormed) (count : Nat) :
    (vigil.reported count).WellFormed where
  size_le := (List.length_filter_le ..).trans h.size_le
  same_chip := fun a ha b hb =>
    h.same_chip a (List.mem_of_mem_filter ha) b (List.mem_of_mem_filter hb)

/-- Once it has begun, a wait fails in no way but by its token. -/
theorem wait_of_begun (h : vigil.OnSimulators) (hwatchable : vigil.Watchable) :
    vigil.wait.1 = .error .cancelled ∨ vigil.wait.1 = .ok .pending ∨
      ∃ group : Group, group.WellFormed ∧ vigil.wait.1 = .ok (.ready group) := by
  rcases vigil.decidedAt_or_not with ⟨count, hdecided⟩ | hnone
  · by_cases hcancelled : vigil.Cancelled count
    · exact Or.inl (wait_eq_cancelled h hwatchable hdecided hcancelled)
    · exact Or.inr (Or.inr ⟨_, wellFormed_reported h.group count,
        wait_eq_reported h hwatchable hdecided hcancelled⟩)
  · rw [wait_eq_over h hwatchable hnone]
    cases vigil.limit.isSome with
    | false => exact Or.inr (Or.inl rfl)
    | true => exact Or.inr (Or.inr ⟨_, Group.wellFormed_empty, rfl⟩)

theorem wait_invalid_iff (h : vigil.OnSimulators) :
    (∃ reason, vigil.wait.1 = .error (.invalid reason)) ↔ ¬ vigil.Watchable := by
  constructor
  · rintro ⟨reason, hreason⟩ hwatchable
    rcases wait_of_begun h hwatchable with hwait | hwait | ⟨group, -, hwait⟩
    all_goals
      rw [hwait] at hreason
      cases hreason
  · intro hnot
    rw [Watchable, ← World.exists_waitFiles h.sound.client.desk.ledger] at hnot
    rw [wait, World.wait]
    split
    · next error herror =>
      obtain ⟨reason, rfl⟩ := vigil.start.world.waitFiles_fails vigil.group error herror
      exact ⟨reason, rfl⟩
    · next files hfiles => exact absurd ⟨files, hfiles⟩ hnot

theorem wellFormed_wait (h : vigil.OnSimulators) {group : Group}
    (hgroup : vigil.wait.1 = .ok (.ready group)) : group.WellFormed := by
  have hwatchable : vigil.Watchable := by
    by_contra hnot
    obtain ⟨reason, hreason⟩ := (wait_invalid_iff h).mpr hnot
    rw [hreason] at hgroup
    cases hgroup
  rcases wait_of_begun h hwatchable with hwait | hwait | ⟨found, hfound, hwait⟩
  · rw [hwait] at hgroup
    cases hgroup
  · rw [hwait] at hgroup
    cases hgroup
  · rw [hwait] at hgroup
    obtain rfl := Polled.ready.inj (Except.ok.inj hgroup)
    exact hfound

/-- Reading a member later finds what the wait has found, if its socket is still as it was. -/
structure ReadsAs (vigil : Vigil) (count : Nat) (line : Line) (file : FileId)
    (later : World (Traced Bench)) : Prop where
  /-- A member that has unread bytes does not keep its reader waiting. -/
  ready : line ∈ (vigil.reported count).lines →
    (later.readEvent line).1 = .error (.event .ioFailure) ∨
      ∃ event, (later.readEvent line).1 = .ok (.ready event)
  /-- One that has none would, unless its handle is a non-blocking one. -/
  idle : line ∉ (vigil.reported count).lines →
    ∃ opened, later.bench.files.get? file = some opened ∧
      (later.readEvent line).1 =
        if opened.nonblocking then .error (.event .wouldBlock) else .ok .pending

theorem readsAs (h : vigil.OnSimulators) (hline : line ∈ vigil.group.lines)
    (hwatched : vigil.start.world.CanWatch line) (count : Nat) {id : HandleId} {handle : Handle}
    {later : World (Traced Bench)} (hheld : vigil.start.world.handle? line = some (id, handle))
    (hvalid : later.isValid line = true) (hlater : later.handle? line = some (id, handle))
    (hsame : later.bench.source? handle.file = (vigil.after count).world.bench.source? handle.file) :
    vigil.ReadsAs count line handle.file later := by
  obtain ⟨-, key, found, hfound, hkind⟩ :=
    (World.canWatch_iff h.sound.client.desk.ledger).mp hwatched
  obtain ⟨-, rfl⟩ := Prod.mk.inj (Option.some.inj (hheld.symm.trans hfound))
  obtain ⟨opened, hopened, hsource⟩ := h.socket hline hheld hkind count
  rw [Bench.source?, Bench.source?, hopened, Option.map_some, hsource] at hsame
  obtain ⟨mine, hmine, hmysource⟩ := Option.map_eq_some_iff.mp hsame
  have hread := World.readEvent_socket hvalid hlater hkind hmine hmysource
  refine ⟨fun hready => ?_, fun hidle => ⟨mine, hmine, ?_⟩⟩
  · rw [hread, if_neg (mem_reported.mp hready).2, LineEvent.front]
    cases LineEvent.ofRecord? ((vigil.after count).world.unread line |>.take LineEvent.recordSize) with
    | none => exact Or.inl rfl
    | some event => exact Or.inr ⟨event, rfl⟩
  · have hempty : (vigil.after count).world.unread line = [] := by
      by_contra hsome
      exact hidle (mem_reported.mpr ⟨hline, hsome⟩)
    rw [hread, if_pos hempty]

/-- What a wait comes to. -/
structure Reports (vigil : Vigil) : Prop where
  /-- The token has no say in whether the wait can begin. -/
  invalid : (∃ reason, vigil.wait.1 = .error (.invalid reason)) ↔
    vigil.group.lines = [] ∨ ∃ line ∈ vigil.group.lines,
      vigil.start.world.isValid line = false ∨ vigil.start.world.state line ≠ .requestedEvents
  /-- A cancelled token counts before all there is to read. -/
  cancelled : vigil.Watchable → ∀ count, vigil.DecidedAt count → vigil.Cancelled count →
    vigil.wait.1 = .error .cancelled
  /-- Otherwise the members that have unread bytes are reported. -/
  ready : vigil.Watchable → ∀ count, vigil.DecidedAt count → ¬ vigil.Cancelled count →
    vigil.wait.1 = .ok (.ready (vigil.reported count))
  /-- If nothing is found in time, the wait ends with no lines; without a limit it does not end. -/
  late : vigil.Watchable → (∀ count, vigil.InTime count → ¬ vigil.Decided count) →
    vigil.wait.1 = .ok (if vigil.limit.isSome then .ready .empty else .pending)
  world : ∃ log, vigil.wait.2 = { (vigil.after vigil.others.length).world with log }
  wellFormed : ∀ group, vigil.wait.1 = .ok (.ready group) → group.WellFormed
  reads : vigil.Watchable → ∀ count, ∀ line ∈ vigil.group.lines, ∀ id handle later,
    vigil.start.world.handle? line = some (id, handle) → later.isValid line = true →
    later.handle? line = some (id, handle) →
    later.bench.source? handle.file = (vigil.after count).world.bench.source? handle.file →
    vigil.ReadsAs count line handle.file later

/-- **A wait reports exactly the lines with pending events**, and leaves everything as it is. -/
theorem reports_pending (h : vigil.OnSimulators) : vigil.Reports where
  invalid := by
    rw [wait_invalid_iff h, Watchable, not_and_or, not_not]
    refine or_congr_right ?_
    push Not
    simp only [World.CanWatch, not_and_or, Bool.not_eq_true, ne_eq]
  cancelled := fun hwatchable _ => wait_eq_cancelled h hwatchable
  ready := fun hwatchable _ => wait_eq_reported h hwatchable
  late := wait_eq_over h
  world := vigil.wait_world
  wellFormed := fun _ hgroup => wellFormed_wait h hgroup
  reads := fun hwatchable count line hline _ _ _ hheld hvalid hlater hsame =>
    readsAs h hline (hwatchable.2 line hline) count hheld hvalid hlater hsame

/-- Of three lines one has an event; it is a member twice. The token is cancelled while the wait goes
on, which is over by then. -/
def lookout : Vigil where
  script :=
    [.deed (.addSimulator "gpiochip0" 3), .operation (.openChip (.simulator 0)),
      .operation (.getLines 0 [1, 0, 1]), .operation (.getLines 0 [0, 1]),
      .operation (.onGroup (.request { consumer := "", type := .eventBoth } none)
        ⟨[⟨0, 0⟩, ⟨0, 1⟩]⟩),
      .operation .newToken, .deed (.setLevel 0 1 1)]
  group := ⟨[⟨0, 1⟩, ⟨0, 0⟩, ⟨0, 1⟩]⟩
  token := some 0
  timeout := some 1000
  others := [(5, .cancel 0)]

theorem reports_lookout : lookout.wait.1 = .ok (.ready ⟨[⟨0, 1⟩, ⟨0, 1⟩]⟩) ∧
    (lookout.after 1).world.isCancelled 0 = true ∧
    ∃ log, lookout.wait.2 = { (lookout.after 1).world with log } := by
  have hopens : ∀ exchange ∈ lookout.start.world.trace, ∀ entry ∈ exchange.opens,
      entry.1.simulator? ≠ none := by decide
  have hsimulated : lookout.OnSimulators := by
    refine ⟨by decide, ⟨by decide, by decide⟩, fun line hline => ⟨0, .simulator 0, ?_, rfl⟩,
      fun line _ id handle _ exchange hexchange entry hentry _ =>
        hopens exchange hexchange entry hentry⟩
    rcases List.mem_cons.mp hline with rfl | hline
    · rfl
    rcases List.mem_cons.mp hline with rfl | hline
    · rfl
    · rw [List.mem_singleton.mp hline]
      rfl
  have hreports := reports_pending hsimulated
  have hwatchable : lookout.Watchable := by
    refine ⟨by decide, fun line hline => ?_⟩
    rcases List.mem_cons.mp hline with rfl | hline
    · exact ⟨rfl, rfl⟩
    rcases List.mem_cons.mp hline with rfl | hline
    · exact ⟨rfl, rfl⟩
    · rw [List.mem_singleton.mp hline]
      exact ⟨rfl, rfl⟩
  have hcancelled : ¬ lookout.Cancelled 0 :=
    mt (any_isCancelled_iff hsimulated 0).mpr (by decide)
  have hpending : lookout.Pending 0 ⟨0, 1⟩ := by
    unfold Pending
    decide
  have hdecided : lookout.DecidedAt 0 :=
    ⟨⟨Nat.zero_le _, nofun⟩, Or.inr ⟨⟨0, 1⟩, by decide, hpending⟩, nofun⟩
  refine ⟨?_, by decide, hreports.world⟩
  rw [hreports.ready hwatchable 0 hdecided hcancelled]
  decide

end Vigil

end GpioLines
