import GpioLines.Bench.State
import GpioLines.Proofs.Closing

/-!
# A closed chip stays closed

No move opens a chip again, so a chip that was closed is closed in every later state, and its lines
are free there. Every operation on a line or a group asks for the open chip before it asks anything of
a device. So none of them gets further than that, and all that is left to pass is the release of a
handle that a stream still held when the chip was closed.
-/

namespace GpioLines

variable {σ : Type}

/-! ### What operations answer -/

/-- The checks of the arguments that come before the chip is asked for. -/
def GroupOperation.checkArguments (group : Group) : GroupOperation → Except Error Unit
  | .setValues values | .setDirectionOutput values => group.checkCount values
  | .setConfig type flags values => World.checkConfig group type flags values
  | .request .. | .getValues | .setFlags _ | .setDirectionInput => .ok ()

/-- What an operation on lines of a closed chip is refused with. -/
def GroupOperation.refusal (operation : GroupOperation) (group : Group) : Error :=
  match operation.checkArguments group with
  | .error error => error
  | .ok _ => .invalid .chipClosed

namespace World

/-- Nothing has happened to any chip, line, handle, stream or device. -/
structure Untouched (before after : World σ) : Prop where
  machine : after.machine = before.machine
  handles : after.handles = before.handles
  streams : after.streams = before.streams
  tokens : after.tokens = before.tokens
  log : after.log = before.log
  closed? : after.ledger.closed? = before.ledger.closed?
  records : ∀ line, after.record line = before.record line

/-- What clients of a closed chip get from now on, whatever they do with its lines. -/
structure Finished [Machine σ] (id : ChipId) (world : World (Traced σ)) : Prop where
  lines : ∀ line, line.chip = id → world.state line = .free ∧ world.isValid line = false
  /-- Requests, access to values and reconfiguration. -/
  operations : ∀ (group : Group) (operation : GroupOperation), group.WellFormed →
    (∃ line ∈ group.lines, line.chip = id) →
    operation.run group world = world.fail (operation.refusal group)
  waits : ∀ (group : Group) (token : Option TokenId) (timeout : Option Duration)
    (others : List (Intervention (Traced σ))), group.WellFormed →
    (∃ line ∈ group.lines, line.chip = id) →
    world.wait group token timeout others = (.error (.invalid .chipClosed), world.actAll others)
  info : ∀ line, line.chip = id → world.info line = .error (.invalid .chipClosed)
  refresh : ∀ line, line.chip = id → world.refresh line = world.fail (.invalid .chipClosed)
  readEvent : ∀ line, line.chip = id → world.readEvent line = world.fail (.invalid .chipClosed)
  readEvents : ∀ line limit, line.chip = id →
    world.readEvents line limit = world.fail (.invalid .chipClosed)
  openStream : ∀ line, line.chip = id → world.openStream line = world.fail (.invalid .chipClosed)
  eventFile : ∀ line, line.chip = id → world.eventFile line = .error (.invalid .chipClosed)
  append : ∀ group line, line.chip = id →
    world.append group line = .error (.invalidArgument .closedChip)
  /-- Building a group fails at the line, unless it has failed before. -/
  groupOf : ∀ (before after : List Line) (line : Line), line.chip = id →
    world.groupOf (before ++ line :: after) =
      (world.groupOf before).bind fun _ => .error (.invalidArgument .closedChip)
  release : ∀ group : Group, group.WellFormed → (∃ line ∈ group.lines, line.chip = id) →
    world.Untouched (world.release group)

/-! ### Every operation asks for the open chip -/

theorem openChip_of_closed {world : World σ} {id : ChipId}
    (h : world.ledger.closed? id = some true) :
    world.openChip id = .error (.invalid .chipClosed) := by
  obtain ⟨chip, hchip, hclosed⟩ := Option.map_eq_some_iff.mp h
  simp only [openChip, hchip, hclosed, if_true]

section Closed

variable {world : World σ} {group : Group} {line : Line}

theorem chipOf_of_closed (hgroup : group.WellFormed) (hmem : line ∈ group.lines)
    (h : world.ledger.closed? line.chip = some true) :
    world.chipOf group = .error (.invalid .chipClosed) := by
  refine chipOf_of_not_isOpen hgroup (List.ne_nil_of_mem hmem) fun hopen => ?_
  have hline := hopen line hmem
  rw [isOpen, openChip_of_closed h] at hline
  cases hline

theorem handlesOf_of_closed (hgroup : group.WellFormed) (hmem : line ∈ group.lines)
    (h : world.ledger.closed? line.chip = some true) :
    world.handlesOf group = .error (.invalid .chipClosed) := by
  rw [handlesOf, chipOf_of_closed hgroup hmem h]
  rfl

theorem valuesHandle_of_closed (hgroup : group.WellFormed) (hmem : line ∈ group.lines)
    (h : world.ledger.closed? line.chip = some true) :
    world.valuesHandle group = .error (.invalid .chipClosed) := by
  rw [valuesHandle, handlesOf_of_closed hgroup hmem h]
  rfl

theorem eventHandle_of_closed (h : world.ledger.closed? line.chip = some true) :
    world.eventHandle line = .error (.invalid .chipClosed) := by
  rw [eventHandle, openChip_of_closed h]
  rfl

theorem waitFiles_of_closed (hgroup : group.WellFormed) (hmem : line ∈ group.lines)
    (h : world.ledger.closed? line.chip = some true) :
    world.waitFiles group = .error (.invalid .chipClosed) := by
  obtain ⟨first, rest, hlines⟩ := List.exists_cons_of_ne_nil (List.ne_nil_of_mem hmem)
  have hchip : first.chip = line.chip :=
    hgroup.same_chip first (hlines ▸ List.mem_cons_self) line hmem
  have hfile : world.waitFile first = .error (.invalid .chipClosed) := by
    rw [waitFile, hchip, openChip_of_closed h]
    rfl
  rw [waitFiles, hlines, List.isEmpty_cons, if_neg Bool.false_ne_true, List.mapM_cons, hfile]
  rfl

theorem append_of_closed (group : Group) (h : world.isValid line = false) :
    world.append group line = .error (.invalidArgument .closedChip) := by
  rw [append, h]
  rfl

variable [Machine σ]

theorem setConfig_of_closed (hgroup : group.WellFormed) (hmem : line ∈ group.lines)
    (h : world.ledger.closed? line.chip = some true) (type : RequestType) (flags : RequestFlags)
    (values : Option (List UInt8)) :
    world.setConfig group type flags values =
      world.fail ((GroupOperation.setConfig type flags values).refusal group) := by
  have hplan : world.planConfig group type flags values = .error (.invalid .chipClosed) := by
    rw [planConfig, chipOf_of_closed hgroup hmem h]
    rfl
  rw [setConfig, hplan, GroupOperation.refusal, GroupOperation.checkArguments]
  cases checkConfig group type flags values <;> rfl

theorem run_of_closed (hgroup : group.WellFormed) (hmem : line ∈ group.lines)
    (h : world.ledger.closed? line.chip = some true) (operation : GroupOperation) :
    operation.run group world = world.fail (operation.refusal group) := by
  have hvalues := valuesHandle_of_closed hgroup hmem h
  cases operation with
  | request config defaults =>
      rw [GroupOperation.run, request, checkRequest, chipOf_of_closed hgroup hmem h]
      rfl
  | getValues =>
      rw [GroupOperation.run, getValues, handlesOf_of_closed hgroup hmem h]
      rfl
  | setValues values =>
      rw [GroupOperation.run, setValues, planValues, hvalues, GroupOperation.refusal,
        GroupOperation.checkArguments]
      cases group.checkCount values <;> rfl
  | setConfig type flags values => exact setConfig_of_closed hgroup hmem h type flags values
  | setFlags flags =>
      rw [GroupOperation.run, setFlags, hvalues]
      rfl
  | setDirectionInput =>
      rw [GroupOperation.run, setDirectionInput, hvalues]
      rfl
  | setDirectionOutput values =>
      rw [GroupOperation.run, setDirectionOutput, hvalues, GroupOperation.refusal,
        GroupOperation.checkArguments]
      cases group.checkCount values <;> rfl

end Closed

/-! ### Releases that free nothing -/

theorem record_detach_of_free {world : World σ} {line : Line} (hfree : world.slot line = .free)
    (other : Line) : (world.detach line).2.record other = world.record other := by
  rw [detach, record_modifyLine]
  split
  · next h =>
    have hslot : (world.record line).slot = .free := hfree
    rw [h.1, LineRecord.withSlot, ← hslot]
  · rfl

theorem untouched_detachAll {world : World σ} {lines : List Line}
    (hfree : ∀ line ∈ lines, world.slot line = .free) :
    (world.detachAll lines).1 = [] ∧ world.Untouched (world.detachAll lines).2 := by
  induction lines generalizing world with
  | nil => exact ⟨rfl, rfl, rfl, rfl, rfl, rfl, rfl, fun _ => rfl⟩
  | cons line rest ih =>
      have hline := hfree line List.mem_cons_self
      have hrecord := fun other => record_detach_of_free hline other
      obtain ⟨hheld, hrest⟩ := @ih (world.detach line).2 fun other hother => by
        rw [slot, hrecord]
        exact hfree other (List.mem_cons_of_mem _ hother)
      have hnone : (world.detach line).1 = none := by
        rw [detach, hline]
        rfl
      refine ⟨?_, hrest.machine, hrest.handles, hrest.streams, hrest.tokens, hrest.log,
        hrest.closed?.trans (closed?_modifyLine world line _),
        fun other => (hrest.records other).trans (hrecord other)⟩
      change (world.detach line).1.toList ++ ((world.detach line).2.detachAll rest).1 = []
      rw [hnone, hheld]
      rfl

theorem untouched_release [Machine σ] {world : World σ} {group : Group}
    (hfree : ∀ line ∈ group.lines, world.slot line = .free) :
    world.Untouched (world.release group) := by
  obtain ⟨hheld, huntouched⟩ := untouched_detachAll hfree
  unfold release
  rcases hdetach : world.detachAll group.lines with ⟨held, after⟩
  rw [hdetach] at hheld huntouched
  obtain rfl : held = [] := hheld
  exact huntouched

theorem finished_of_closed [Machine σ] {world : World (Traced σ)} {id : ChipId}
    (h : world.ledger.closed? id = some true) (hidle : world.ledger.Idle) : Finished id world where
  lines := by
    rintro line rfl
    exact ⟨congrArg Slot.state (hidle line h), isValid_eq_false_of_closed h⟩
  operations := by
    rintro group operation hgroup ⟨line, hmem, rfl⟩
    exact run_of_closed hgroup hmem h operation
  waits := by
    rintro group token timeout others hgroup ⟨line, hmem, rfl⟩
    rw [wait, waitFiles_of_closed hgroup hmem h]
  info := by
    rintro line rfl
    rw [info, openChip_of_closed h]
    rfl
  refresh := by
    rintro line rfl
    rw [refresh, openChip_of_closed h]
  readEvent := by
    rintro line rfl
    rw [readEvent, eventHandle_of_closed h]
  readEvents := by
    rintro line limit rfl
    rw [readEvents, eventHandle_of_closed h]
  openStream := by
    rintro line rfl
    rw [openStream, eventHandle_of_closed h]
  eventFile := by
    rintro line rfl
    rw [eventFile, eventHandle_of_closed h]
    rfl
  append := by
    rintro group line rfl
    exact append_of_closed group (isValid_eq_false_of_closed h)
  groupOf := by
    rintro before after line rfl
    rw [groupOf, List.foldlM_append]
    refine congrArg ((world.groupOf before).bind ·) (funext fun group => ?_)
    rw [List.foldlM_cons, append_of_closed group (isValid_eq_false_of_closed h)]
    rfl
  release := by
    rintro group hgroup ⟨line, hmem, rfl⟩
    refine untouched_release fun other hother => hidle other ?_
    rw [hgroup.same_chip other hother line hmem]
    exact h

end World

/-! ### No move opens a chip again -/

variable [Machine σ] {scope : Scope}

theorem Move.closed? {before after : Desk σ} (hmove : Move scope before after) {id : ChipId}
    {closed : Bool} (h : before.world.ledger.closed? id = some closed) :
    after.world.ledger.closed? id = some closed := by
  cases hmove with
  | remark | read | watch | unwatch | call | grant | retune | forget | openStream | closeStream =>
      exact h
  | retouch | attach | detach =>
      rw [← h]
      exact congrFun (World.closed?_modifyLine ..) id
  | @drop world _ key =>
      rw [← h]
      exact congrFun (World.ledger_of_chips_eq (world.chips_dropHandle key)).1 id
  | openChip =>
      obtain ⟨chip, hchip, hclosed⟩ := Option.map_eq_some_iff.mp h
      have hlt := (List.getElem?_eq_some_iff.mp hchip).1
      exact Option.map_eq_some_iff.mpr
        ⟨chip, (List.getElem?_append_left hlt).trans hchip, hclosed⟩

theorem Moves.closed? {before after : Desk σ} (hmoves : Moves scope before after) {id : ChipId}
    {closed : Bool} (h : before.world.ledger.closed? id = some closed) :
    after.world.ledger.closed? id = some closed := by
  induction hmoves with
  | refl => exact h
  | tail _ hmove ih => exact hmove.closed? ih

omit [Machine σ] in
/-- An operation begins with at most a mark, and marks stay. -/
theorem Operation.closed?_begin {world : World σ} (operation : Operation) {id : ChipId}
    (h : world.ledger.closed? id = some true) :
    (operation.begin world).ledger.closed? id = some true := by
  cases operation with
  | closeChip other =>
      simp only [Operation.begin]
      split
      · next hopen =>
        rw [World.closed?_markClosed]
        split
        · rw [hopen]
          rfl
        · exact h
      · exact h
  | _ => exact h

namespace Client

variable {env : σ → σ → Prop} {client later : Client σ} {id : ChipId}

theorem Sound.closed?_call (hsound : client.Sound) {operation : Operation}
    (hcan : client.CanCall operation) (h : client.world.ledger.closed? id = some true) :
    (client.call operation).world.ledger.closed? id = some true := by
  have hmoves := Operation.moves hsound.desk fun group hgroup =>
    hsound.groups group (hcan.1 group hgroup)
  exact Moves.closed? hmoves (operation.closed?_begin h)

theorem Run.closed? (hrun : Run env client later) (hreachable : client.Reachable env)
    (h : client.world.ledger.closed? id = some true) :
    later.Reachable env ∧ later.world.ledger.closed? id = some true := by
  induction hrun with
  | refl => exact ⟨hreachable, h⟩
  | tail _ hstep ih =>
      obtain ⟨⟨machine, hrun⟩, hclosed⟩ := ih
      refine ⟨⟨machine, hrun.tail hstep⟩, ?_⟩
      cases hstep with
      | call hcan => exact (Reachable.sound ⟨machine, hrun⟩).closed?_call hcan hclosed
      | outside => exact hclosed

end Client

/-! ### Nothing passes any more -/

/-- The operation is on lines of this chip, alone or in a group, or on a stream. -/
def Operation.IsAbout (id : ChipId) : Operation → Prop
  | .onGroup _ group | .release group | .wait group _ _ => ∃ line ∈ group.lines, line.chip = id
  | .gather lines => ∃ line ∈ lines, line.chip = id
  | .append _ line | .single line | .refresh line | .readEvent line | .readEvents line _
  | .openStream line => line.chip = id
  | .nextEvent _ | .dropStream _ => True
  | .openChip _ | .closeChip _ | .getLine .. | .getLines .. | .getAllLines _ | .findLine ..
  | .newToken | .cancel _ => False

namespace World

/-- The handles that were closed are ones that a stream has held, and no stream is new. -/
structure Dwindles (closing : List (HandleId × Handle)) (before after : World (Traced σ)) :
    Prop where
  sheds : Sheds closing before after
  held : ∀ entry ∈ closing, ∃ stream, before.streams.get? stream = some entry.1
  streams : ∀ stream key, after.streams.get? stream = some key →
    before.streams.get? stream = some key

namespace Dwindles

variable {world mid after : World (Traced σ)}

omit [Machine σ] in
theorem of_eq (hhandles : after.handles = world.handles)
    (htrace : after.machine.trace = world.machine.trace) (hstreams : after.streams = world.streams) :
    Dwindles [] world after :=
  ⟨.of_eq hhandles htrace, fun _ hentry => absurd hentry List.not_mem_nil,
    fun stream key hget => by rwa [hstreams] at hget⟩

omit [Machine σ] in
theorem trans {earlier later : List (HandleId × Handle)} (h : Dwindles earlier world mid)
    (hlater : Dwindles later mid after) : Dwindles (earlier ++ later) world after := by
  refine ⟨h.sheds.trans hlater.sheds, fun entry hentry => ?_, fun stream key hget =>
    h.streams stream key (hlater.streams stream key hget)⟩
  rcases List.mem_append.mp hentry with hentry | hentry
  · exact h.held entry hentry
  · obtain ⟨stream, hget⟩ := hlater.held entry hentry
    exact ⟨stream, h.streams stream entry.1 hget⟩

omit [Machine σ] in
theorem fail (world : World (Traced σ)) (error : Error) :
    Dwindles [] world (world.fail (α := Unit) error).2 :=
  .of_eq rfl rfl rfl

theorem nextEvent (world : World (Traced σ)) (stream : StreamId) :
    Dwindles [] world (world.nextEvent stream).2 := by
  have hread : ∀ (file : FileId) (size : Nat) (outcome : ReadOutcome) (read : World (Traced σ)),
      world.readFile file size = (outcome, read) → Dwindles [] world read := by
    intro file size outcome read h
    rw [← (Prod.mk.inj h).2]
    exact .of_eq rfl rfl rfl
  unfold World.nextEvent
  split
  · exact .of_eq rfl rfl rfl
  · split
    · exact .of_eq rfl rfl rfl
    · split
      · next h => exact hread _ _ _ _ h
      · next h =>
        split
        · exact hread _ _ _ _ h
        · exact (hread _ _ _ _ h).trans (.of_eq rfl rfl rfl)
      · next h =>
        split
        · exact (hread _ _ _ _ h).trans (.of_eq rfl rfl rfl)
        · exact hread _ _ _ _ h

theorem dropStream (world : World (Traced σ)) (stream : StreamId) :
    ∃ closing, Dwindles closing world (world.dropStream stream) := by
  cases hfound : world.streamHandle? stream with
  | none =>
      rw [World.dropStream, hfound]
      exact ⟨[], .of_eq rfl rfl rfl⟩
  | some held =>
      obtain ⟨id, handle⟩ := held
      rw [World.dropStream, hfound]
      have hget : world.streams.get? stream = some id := by
        obtain ⟨key, hkey, hheld⟩ := Option.bind_eq_some_iff.mp hfound
        obtain ⟨found, -, heq⟩ := Option.map_eq_some_iff.mp hheld
        rw [hkey, (Prod.mk.inj heq).1]
      obtain ⟨closing, hsheds, hclosing⟩ := Sheds.dropHandle
        { world with
          machine := Machine.unwatch handle.file world.machine
          streams := world.streams.erase stream } id
      refine ⟨closing, ⟨hsheds.keys, hsheds.found, hsheds.handles, hsheds.trace⟩,
        fun entry hentry => ⟨stream, ?_⟩, fun other key hother => ?_⟩
      · rw [hclosing entry hentry]
        exact hget
      · simp only [streams_dropHandle, Table.get?_erase] at hother
        split at hother
        · cases hother
        · exact hother

end Dwindles

end World

theorem Operation.dwindles {world : World (Traced σ)} {operation : Operation} {id : ChipId}
    (h : World.Finished id world) (hgroups : ∀ group ∈ operation.groups, group.WellFormed)
    (habout : operation.IsAbout id) :
    ∃ closing, World.Dwindles closing world (operation.run world).2 := by
  cases operation with
  | openChip | closeChip | getLine | getLines | getAllLines | findLine | newToken | cancel =>
      exact habout.elim
  | gather | append | single => exact ⟨[], .of_eq rfl rfl rfl⟩
  | onGroup operation group =>
      have hrun := h.operations group operation (hgroups group List.mem_cons_self) habout
      rw [Operation.run, hrun]
      exact ⟨[], .fail world _⟩
  | release group =>
      have huntouched := h.release group (hgroups group List.mem_cons_self) habout
      exact ⟨[], .of_eq huntouched.handles (congrArg Traced.trace huntouched.machine)
        huntouched.streams⟩
  | refresh line =>
      rw [Operation.run, h.refresh line habout]
      exact ⟨[], .fail world _⟩
  | readEvent line =>
      rw [Operation.run, h.readEvent line habout]
      exact ⟨[], .fail world _⟩
  | readEvents line limit =>
      rw [Operation.run, h.readEvents line limit habout]
      exact ⟨[], .fail world _⟩
  | openStream line =>
      rw [Operation.run, h.openStream line habout]
      exact ⟨[], .fail world _⟩
  | nextEvent stream => exact ⟨[], .nextEvent world stream⟩
  | dropStream stream => exact World.Dwindles.dropStream world stream
  | wait group token timeout =>
      rw [Operation.run, h.waits group token timeout [] (hgroups group List.mem_cons_self) habout]
      exact ⟨[], .of_eq rfl rfl rfl⟩

namespace Client

variable {client : Client (Traced σ)} {id : ChipId}

theorem Sound.finished (hsound : client.Sound) (h : client.world.ledger.closed? id = some true) :
    World.Finished id client.world :=
  World.finished_of_closed h hsound.idle

theorem Sound.dwindles (hsound : client.Sound) (h : client.world.ledger.closed? id = some true)
    {script : List Operation} (hcan : client.CanCallAll script)
    (habout : ∀ operation ∈ script, operation.IsAbout id) :
    ∃ closing, World.Dwindles closing client.world (client.callAll script).world := by
  induction script generalizing client with
  | nil => exact ⟨[], .of_eq rfl rfl rfl⟩
  | cons operation rest ih =>
      obtain ⟨first, hfirst⟩ := operation.dwindles (hsound.finished h)
        (fun group hgroup => hsound.groups group (hcan.1.1 group hgroup))
        (habout operation List.mem_cons_self)
      obtain ⟨others, hothers⟩ := ih (hsound.call hcan.1) (hsound.closed?_call hcan.1 h) hcan.2
        fun other hother => habout other (List.mem_cons_of_mem _ hother)
      exact ⟨first ++ others, hfirst.trans hothers⟩

/-- **Closing a chip is complete and final.** Every line of the chip is free, invalid and in need of
an update, and the handles that nobody else held are released; other chips keep what they have. In
every later state the lines are free and invalid and all operations on them are refused. As long as
nothing but such operations is called, nothing passes but the release of handles that streams held. -/
theorem retired_of_reachable {env : Traced σ → Traced σ → Prop} (hreachable : client.Reachable env)
    (hopen : client.world.isOpen id = true) :
    World.Retired id client.world (client.call (.closeChip id)).world ∧
      ∀ later, Run env (client.call (.closeChip id)) later →
        World.Finished id later.world ∧
        ∀ script, later.CanCallAll script → (∀ operation ∈ script, operation.IsAbout id) →
          ∃ closing, World.Dwindles closing later.world (later.callAll script).world := by
  have hfalse : client.world.ledger.closed? id = some false := by
    cases hchip : client.world.openChip id with
    | error error =>
        rw [World.isOpen, hchip] at hopen
        cases hopen
    | ok chip => exact World.closed?_eq_false.mpr ⟨chip, hchip⟩
  have hretired := World.retired_closeChip hreachable.sound.desk hfalse
  refine ⟨hretired, fun later hlater => ?_⟩
  obtain ⟨machine, hrun⟩ := hreachable
  have hcan : client.CanCall (.closeChip id) :=
    ⟨fun _ hmem => absurd hmem List.not_mem_nil, fun _ hmem => absurd hmem List.not_mem_nil⟩
  obtain ⟨hreachable, hclosed⟩ := hlater.closed? ⟨machine, hrun.tail (.call hcan)⟩ hretired.closed
  have hsound := hreachable.sound
  exact ⟨hsound.finished hclosed, fun script hscript => hsound.dwindles hclosed hscript⟩

/-- Two chips over one device. The first has a pair of lines requested for values, and a line
requested for events that a stream reads. -/
def twoChips : List Operation :=
  let values : RequestConfig := { consumer := "values", type := .output }
  let events : RequestConfig := { consumer := "events", type := .eventBoth }
  [.openChip (.simulator 0), .openChip (.simulator 0), .getLines 0 [0, 1], .getLine 0 2,
    .getLine 1 3, .onGroup (.request values none) ⟨[⟨0, 0⟩, ⟨0, 1⟩]⟩,
    .onGroup (.request events none) ⟨[⟨0, 2⟩]⟩, .onGroup (.request values none) ⟨[⟨1, 3⟩]⟩,
    .openStream ⟨0, 2⟩]

theorem retired_twoChips :
    ∃ client : Client (Traced Bench), client.Reachable (fun _ _ => True) ∧
      client.world.isOpen 0 = true ∧
      client.world.HeldBeyond 0 1 ∧ client.world.HeldBeyond 0 2 ∧
      (client.world.slot ⟨0, 0⟩).handle? = some 0 ∧
      World.Retired 0 client.world (client.call (.closeChip 0)).world ∧
      ∀ later, Run (fun _ _ => True) (client.call (.closeChip 0)) later →
        World.Finished 0 later.world ∧
        ∀ script, later.CanCallAll script → (∀ operation ∈ script, operation.IsAbout 0) →
          ∃ closing, World.Dwindles closing later.world (later.callAll script).world := by
  let bench : Bench := { simulators := [Simulator.create "gpiochip0" 4] }
  let client := (start ⟨bench, []⟩ : Client (Traced Bench)).callAll twoChips
  have hreachable : client.Reachable (fun _ _ => True) := ⟨_, run_callAll (by decide)⟩
  have hopen : client.world.isOpen 0 = true := by decide
  exact ⟨client, hreachable, hopen, Or.inr ⟨0, by decide⟩, Or.inl ⟨⟨1, 3⟩, by decide, by decide⟩,
    by decide, retired_of_reachable hreachable hopen⟩

end Client

end GpioLines
