import GpioLines.Proofs.Operations
import GpioLines.World.Request

/-!
# Requests, releases and closing as chains of moves

These are the operations that take lines and give them back. A request owns what it is granted until
the lines hold it, so in the end either every granted handle is held by its lines, or the request
lets go of all of them again. A release and the closing of a chip own what they detach until it is
dropped.
-/

namespace GpioLines.World

variable {σ : Type} {scope : Scope} {world : World σ} {owned : Multiset HandleId}

/-! ### Attaching -/

/-- A line that an operation may attach to a handle it was granted. All lines are on one chip. -/
structure Attachable (world : World σ) (scope : Scope) (owned : Multiset HandleId) (chip : ChipId)
    (kind : HandleKind) (line : Line) (id : HandleId) : Prop where
  onChip : line.chip = chip
  free : world.slot line = .free
  asked : line ∈ scope.lines
  taken : scope.first ≤ id
  owns : id ∈ owned
  found : ∃ handle, world.handles.get? id = some handle ∧ handle.kind = kind ∧
    line.offset ∈ handle.offsets
  holders : ∀ other, world.ledger.Holds other id → other.chip = chip

def attachAll (world : World σ) (kind : HandleKind) (pairs : List (Line × HandleId)) : World σ :=
  pairs.foldl (fun world pair => world.attach pair.1 pair.2 kind) world

theorem attachAll_cons (kind : HandleKind) (pair : Line × HandleId)
    (rest : List (Line × HandleId)) :
    world.attachAll kind (pair :: rest) =
      (world.attach pair.1 pair.2 kind).attachAll kind rest := rfl

theorem slot_attachAll_of_not_mem {kind : HandleKind} {pairs : List (Line × HandleId)} {line : Line}
    (h : line ∉ pairs.map (·.1)) : (world.attachAll kind pairs).slot line = world.slot line := by
  induction pairs generalizing world with
  | nil => rfl
  | cons pair rest ih =>
      rw [List.map_cons, List.mem_cons, not_or] at h
      rw [attachAll_cons, ih h.2, attach, slot_withSlot, if_neg]
      exact fun hline => h.1 hline.1

/-- A line that occurs once gets the slot it was meant to get. -/
theorem slot_attachAll {kind : HandleKind} {pairs : List (Line × HandleId)}
    (hnodup : (pairs.map (·.1)).Nodup) {closed : Bool} {line : Line} {id : HandleId}
    (hchip : world.ledger.closed? line.chip = some closed) (hmem : (line, id) ∈ pairs) :
    (world.attachAll kind pairs).slot line = .holding id kind := by
  induction pairs generalizing world with
  | nil => cases hmem
  | cons pair rest ih =>
      rw [List.map_cons, List.nodup_cons] at hnodup
      rw [attachAll_cons]
      rcases List.mem_cons.mp hmem with rfl | hmem
      · rw [slot_attachAll_of_not_mem hnodup.1, attach, slot_withSlot,
          if_pos ⟨rfl, lt_length_of_closed? hchip⟩]
      · refine ih hnodup.2 ?_ hmem
        rw [attach, closed?_modifyLine]
        exact hchip

theorem holds_attachAll {kind : HandleKind} {pairs : List (Line × HandleId)}
    (hnodup : (pairs.map (·.1)).Nodup) {closed : Bool} {line : Line} {id : HandleId}
    (hchip : world.ledger.closed? line.chip = some closed) (hmem : (line, id) ∈ pairs) :
    (world.attachAll kind pairs).ledger.Holds line id := by
  change (World.slot _ line).handle? = some id
  rw [slot_attachAll hnodup hchip hmem, Slot.handle?_holding]

/-! ### What a request asks for and gets -/

/-- One initial value for each line, each a bit. -/
theorem initialValues_bits {group : Group} {defaults : Option (List UInt8)}
    (hcount : group.checkCount? defaults = .ok ()) (config : RequestConfig) :
    (initialValues group config defaults).length = group.size ∧
      ∀ value ∈ initialValues group config defaults, IsBit value := by
  have hzeros : (List.replicate group.size (0 : UInt8)).length = group.size ∧
      ∀ value ∈ List.replicate group.size (0 : UInt8), IsBit value :=
    ⟨List.length_replicate, fun value hvalue => Or.inl (List.eq_of_mem_replicate hvalue)⟩
  unfold initialValues
  split
  · next values =>
    split
    · have hlength : values.length = group.size := by
        simpa [Group.checkCount?, Group.checkCount] using hcount
      refine ⟨List.length_map .. |>.trans hlength, ?_⟩
      intro value hvalue
      obtain ⟨given, -, rfl⟩ := List.mem_map.mp hvalue
      exact isBit_normalize given
    · exact hzeros
  · exact hzeros

theorem count_of_checkRequest {group : Group} {config : RequestConfig}
    {defaults : Option (List UInt8)} (h : world.checkRequest group config defaults = .ok ()) :
    group.checkCount? defaults = .ok () := by
  rw [checkRequest, bind_eq_ok] at h
  obtain ⟨-, -, h⟩ := h
  rw [bind_eq_ok] at h
  exact h.elim fun _ h => h.2

/-- What a request may take: the group once it has succeeded, and before that any handle of the
right kind. -/
structure Allows (scope : Scope) (world : World σ) (group : Group) (config : RequestConfig)
    (outcome : Except Error Unit) : Prop where
  first : scope.first ≤ world.handles.next
  lines : outcome = .ok () → ∀ line ∈ group.lines, line ∈ scope.lines
  values : config.type.isEvent = false → ∀ handle : Handle, handle.kind = .values →
    handle.offsets = group.offsets → scope.grants handle
  events : config.type.isEvent = true → ∀ handle : Handle, handle.kind = .events →
    scope.grants handle

def linesRequest (group : Group) (config : RequestConfig) (defaults : Option (List UInt8)) :
    LinesRequest where
  offsets := group.offsets
  flags := config.flags.handleFlags config.type
  values := initialValues group config defaults
  consumer := config.consumer

def linesHandle (device : Device) (file : FileId) (group : Group) (config : RequestConfig)
    (defaults : Option (List UInt8)) : Handle where
  kind := .values
  device
  file
  offsets := group.offsets
  flags := config.flags.handleFlags config.type
  values := initialValues group config defaults

theorem valid_linesHandle {chip : Chip} {id : ChipId} {group : Group}
    (htakeable : world.Takeable group chip id) (hsize : group.size ≤ maxLines)
    {defaults : Option (List UInt8)} (hcount : group.checkCount? defaults = .ok ())
    (config : RequestConfig) (device : Device) (file : FileId) :
    (linesHandle device file group config defaults).Valid := by
  obtain ⟨hlength, hbits⟩ := initialValues_bits hcount config
  have hoffsets : group.offsets.length = group.size := List.length_map ..
  exact
    { nodup := htakeable.nodup_offsets htakeable.nodup
      pos := by
        rw [linesHandle, hoffsets]
        exact List.length_pos_iff.mpr htakeable.nonempty
      size_le := hoffsets.trans_le hsize
      known := rfl
      single := nofun
      values_length := fun _ => hlength.trans hoffsets.symm
      bits := hbits }

theorem openHandle_found (hfresh : world.handles.Fresh) (handle : Handle) :
    (world.openHandle handle).handles.get? world.handles.next = some handle :=
  (Table.get?_add hfresh handle _).trans (if_pos rfl)

def eventRequest (config : RequestConfig) (line : Line) : EventRequest where
  offset := line.offset
  flags := config.flags.handleFlags config.type
  edges := config.type.edges
  consumer := config.consumer

def eventGrant (device : Device) (config : RequestConfig) (line : Line) (file : FileId) : Handle where
  kind := .events
  device
  file
  offsets := [line.offset]
  flags := config.flags.handleFlags config.type
  values := []

theorem valid_eventGrant (device : Device) (config : RequestConfig) (line : Line) (file : FileId) :
    (eventGrant device config line file).Valid where
  nodup := List.nodup_singleton _
  pos := Nat.one_pos
  size_le := (by decide : 1 ≤ maxLines)
  known := rfl
  single := fun _ => rfl
  values_length := nofun
  bits := fun _ hvalue => absurd hvalue List.not_mem_nil

def eventGrants (device : Device) (config : RequestConfig) (lines : List Line)
    (files : List FileId) : List Handle :=
  (lines.zip files).map fun granted => eventGrant device config granted.1 granted.2

theorem length_eventGrants (device : Device) (config : RequestConfig) {lines : List Line}
    {files : List FileId} (hlength : files.length ≤ lines.length) :
    (eventGrants device config lines files).length = files.length := by
  rw [eventGrants, List.length_map, List.length_zip]
  omega

theorem map_eventGrants {α : Type} (device : Device) (config : RequestConfig) {lines : List Line}
    {files : List FileId} (hlength : files.length ≤ lines.length) (f : Device → FileId → α) :
    (eventGrants device config lines files).map (fun handle => f handle.device handle.file) =
      files.map (f device) := by
  have hfiles : (lines.zip files).map (·.2) = files := List.map_snd_zip hlength
  calc (eventGrants device config lines files).map (fun handle => f handle.device handle.file)
      = ((lines.zip files).map (·.2)).map (f device) := by
        rw [eventGrants, List.map_map, List.map_map]
        rfl
    _ = files.map (f device) := by rw [hfiles]

/-- The handles that were granted last have the keys that the lines are attached to. -/
theorem eventGrants_found {device : Device} {config : RequestConfig} {lines : List Line}
    {files : List FileId} {handles : Table Handle} (hfresh : handles.Fresh) {line : Line}
    {id : HandleId} (hmem : (line, id) ∈ lines.zip (List.range' handles.next files.length)) :
    handles.next ≤ id ∧ ∃ file, (handles.addAll (eventGrants device config lines files)).get? id =
      some (eventGrant device config line file) := by
  obtain ⟨index, hindex⟩ := List.mem_iff_getElem?.mp hmem
  obtain ⟨hline, hid⟩ := List.getElem?_zip_eq_some.mp hindex
  obtain ⟨hlt, rfl⟩ : index < files.length ∧ id = handles.next + index := by
    have := List.getElem?_eq_some_iff.mp hid
    simpa [eq_comm] using this
  refine ⟨Nat.le_add_right _ _, files[index], ?_⟩
  have hgranted : (lines.zip files)[index]? = some (line, files[index]) :=
    List.getElem?_zip_eq_some.mpr ⟨hline, List.getElem?_eq_getElem hlt⟩
  rw [Table.get?_addAll hfresh, if_neg (by omega), Nat.add_sub_cancel_left, eventGrants,
    List.getElem?_map, hgranted]
  rfl

/-! ### Taking lines -/

variable [Machine σ]

theorem moves_attachAll {kind : HandleKind} {chip : ChipId} {pairs : List (Line × HandleId)}
    (hopen : world.ledger.closed? chip = some false) (hnodup : (pairs.map (·.1)).Nodup)
    (hpairs : ∀ pair ∈ pairs, world.Attachable scope owned chip kind pair.1 pair.2) :
    Moves scope ⟨world, owned⟩ ⟨world.attachAll kind pairs, owned⟩ := by
  induction pairs generalizing world with
  | nil => exact .refl
  | cons pair rest ih =>
      rw [List.map_cons, List.nodup_cons] at hnodup
      obtain ⟨line, id⟩ := pair
      have hline := hpairs _ List.mem_cons_self
      obtain ⟨handle, hfound, rfl, hlisted⟩ := hline.found
      have hlineOpen : world.ledger.closed? line.chip = some false := by
        rw [hline.onChip]
        exact hopen
      have hattach : Move scope ⟨world, owned⟩ ⟨world.attach line id handle.kind, owned⟩ := by
        refine .attach hline.owns hline.taken hline.asked hlineOpen hline.free hfound hlisted ?_
        intro other hholds
        rw [hline.onChip]
        exact hline.holders other hholds
      refine .head hattach (ih ?_ hnodup.2 ?_)
      · rw [ledger_attach hlineOpen]
        exact hopen
      · intro other hother
        have hold := hpairs other (List.mem_cons_of_mem _ hother)
        have hne : other.1 ≠ line := fun heq =>
          hnodup.1 (List.mem_map.mpr ⟨other, hother, heq⟩)
        refine
          { onChip := hold.onChip
            free := ?_
            asked := hold.asked
            taken := hold.taken
            owns := hold.owns
            found := hold.found
            holders := ?_ }
        · rw [attach, slot_withSlot, if_neg fun heq => hne heq.1]
          exact hold.free
        · intro holder hholds
          rw [ledger_attach hlineOpen, Ledger.holds_withSlot] at hholds
          split at hholds
          · next heq =>
            rw [heq]
            exact hline.onChip
          · exact hold.holders holder hholds

/-! ### Letting go -/

/-- A reference to a handle that someone else holds goes unnoticed. -/
theorem moves_drop_of_held (htidy : world.Tidy) {id : HandleId} (hheld : world.ledger.Held id)
    (howns : id ∈ owned) : Moves scope ⟨world, owned⟩ ⟨world, owned.erase id⟩ := by
  by_cases hagain : id ∈ owned.erase id
  · exact .single (.forget hagain)
  · have hdrop : Move scope ⟨world, owned⟩ ⟨world.dropHandle id, owned.erase id⟩ :=
      .drop howns hagain
    rw [dropHandle_of_held htidy hheld] at hdrop
    exact .single hdrop

theorem moves_dropAll_of_held (htidy : world.Tidy) {ids : List HandleId}
    (hheld : ∀ id ∈ ids, world.ledger.Held id) :
    Moves scope ⟨world, (ids : Multiset HandleId)⟩ ⟨world, 0⟩ := by
  induction ids with
  | nil => exact .refl
  | cons id rest ih =>
      have hfirst : Moves scope ⟨world, ((id :: rest : List HandleId) : Multiset HandleId)⟩
          ⟨world, ((id :: rest : List HandleId) : Multiset HandleId).erase id⟩ :=
        moves_drop_of_held htidy (hheld id List.mem_cons_self)
          (Multiset.mem_coe.mpr List.mem_cons_self)
      rw [Multiset.coe_erase, List.erase_cons_head] at hfirst
      exact hfirst.trans (ih fun other hother => hheld other (List.mem_cons_of_mem _ hother))

theorem moves_dropHandles (ids : List HandleId) :
    Moves scope ⟨world, (ids : Multiset HandleId)⟩ ⟨world.dropHandles ids, 0⟩ := by
  induction ids generalizing world with
  | nil => exact .refl
  | cons id rest ih =>
      have herase : ((id :: rest : List HandleId) : Multiset HandleId).erase id = rest := by
        rw [Multiset.coe_erase, List.erase_cons_head]
      unfold dropHandles
      split
      · next hagain =>
        have hforget : Move scope ⟨world, ((id :: rest : List HandleId) : Multiset HandleId)⟩
            ⟨world, ((id :: rest : List HandleId) : Multiset HandleId).erase id⟩ := by
          refine .forget ?_
          rw [herase]
          exact Multiset.mem_coe.mpr hagain
        rw [herase] at hforget
        exact .head hforget ih
      · next hlast =>
        have hdrop : Move scope ⟨world, ((id :: rest : List HandleId) : Multiset HandleId)⟩
            ⟨world.dropHandle id, ((id :: rest : List HandleId) : Multiset HandleId).erase id⟩ := by
          refine .drop (Multiset.mem_coe.mpr List.mem_cons_self) ?_
          rw [herase]
          exact fun hmem => hlast (Multiset.mem_coe.mp hmem)
        rw [herase] at hdrop
        exact .head hdrop ih

/-! ### Requests -/

/-- Lines are attached to the handles that were granted for them, and the operation lets go of these
handles, which the lines hold now. -/
theorem moves_take {kind : HandleKind} {chip : ChipId} {ids : List HandleId}
    {pairs : List (Line × HandleId)} (hsound : Desk.Sound ⟨world, (ids : Multiset HandleId)⟩)
    (hopen : world.ledger.closed? chip = some false) (hnodup : (pairs.map (·.1)).Nodup)
    (hpairs : ∀ pair ∈ pairs, world.Attachable scope ids chip kind pair.1 pair.2)
    (hused : ∀ id ∈ ids, ∃ line, (line, id) ∈ pairs) :
    Moves scope ⟨world, (ids : Multiset HandleId)⟩ ⟨world.attachAll kind pairs, 0⟩ := by
  have hattach := moves_attachAll hopen hnodup hpairs
  refine hattach.trans (moves_dropAll_of_held (hattach.sound hsound).tidy fun id hid => ?_)
  obtain ⟨line, hmem⟩ := hused id hid
  have hline : world.ledger.closed? line.chip = some false := by
    rw [(hpairs _ hmem).onChip]
    exact hopen
  exact Or.inl ⟨line, holds_attachAll hnodup hline hmem⟩

theorem requestValues_refused {device : Device} {group : Group} {config : RequestConfig}
    {defaults : Option (List UInt8)} {error : Error} {after : World σ}
    (h : world.perform device (.requestLines (linesRequest group config defaults)) =
      (.error error, after)) :
    world.requestValues device group config defaults = (.error error, after) := by
  rw [linesRequest] at h
  rw [requestValues, h]

theorem requestValues_granted {device : Device} {group : Group} {config : RequestConfig}
    {defaults : Option (List UInt8)} {file : FileId} {after : World σ}
    (h : world.perform device (.requestLines (linesRequest group config defaults)) =
      (.ok file, after)) :
    world.requestValues device group config defaults =
      (.ok (), ((after.openHandle (linesHandle device file group config defaults)).attachAll .values
        (group.lines.map (·, after.handles.next))).note
          (.requestedValues group.offsets config.consumer)) := by
  rw [linesRequest] at h
  rw [requestValues, h, attachAll, List.foldl_map]
  rfl

theorem moves_requestValues (hsound : Desk.Sound ⟨world, 0⟩) {device : Device} {group : Group}
    {chip : Chip} {id : ChipId} (htakeable : world.Takeable group chip id)
    (hsize : group.size ≤ maxLines) {config : RequestConfig} {defaults : Option (List UInt8)}
    (hcount : group.checkCount? defaults = .ok ()) (hvalues : config.type.isEvent = false)
    (hscope : Allows scope world group config
      (world.requestValues device group config defaults).1) :
    Moves scope ⟨world, 0⟩ ⟨(world.requestValues device group config defaults).2, 0⟩ := by
  have hbits := (initialValues_bits hcount config).2
  rcases hperform : world.perform device (.requestLines (linesRequest group config defaults))
    with ⟨error | file, after⟩
  · rw [requestValues_refused hperform]
    exact moves_of_perform hperform hbits rfl
  · rw [requestValues_granted hperform] at hscope ⊢
    have hvalid := valid_linesHandle htakeable hsize hcount config device file
    have hgrant : Move scope ⟨world, 0⟩
        ⟨(world.perform device (.requestLines (linesRequest group config defaults))).2.openHandle
          (linesHandle device file group config defaults), world.handles.next ::ₘ 0⟩ := by
      refine .grant hbits ?_ hvalid (hscope.values hvalues _ rfl rfl)
      rw [hperform]
      rfl
    rw [hperform] at hgrant
    have hopened := hgrant.sound hsound
    obtain ⟨machine, -, rfl⟩ := perform_eq hperform
    have hchip : world.ledger.closed? id = some false :=
      closed?_eq_false.mpr ⟨chip, htakeable.isOpen⟩
    refine (Relation.ReflTransGen.head hgrant (moves_take hopened hchip ?_ ?_ ?_)).trans
      (moves_note _)
    · rw [List.map_map]
      simpa [Function.comp_def] using htakeable.nodup
    · intro pair hpair
      obtain ⟨line, hmem, rfl⟩ := List.mem_map.mp hpair
      exact
        { onChip := htakeable.members line hmem
          free := htakeable.free line hmem
          asked := hscope.lines rfl line hmem
          taken := hscope.first
          owns := Multiset.mem_coe.mpr (List.mem_singleton_self _)
          found := ⟨_, openHandle_found hsound.ledger.handles_fresh _, rfl,
            List.mem_map.mpr ⟨line, hmem, rfl⟩⟩
          holders := fun other hholds =>
            absurd (Or.inl ⟨other, hholds⟩) hsound.ledger.not_held_next }
    · intro key hkey
      obtain ⟨line, hmem⟩ := List.exists_mem_of_ne_nil _ htakeable.nonempty
      rw [List.mem_singleton] at hkey
      exact ⟨line, List.mem_map.mpr ⟨line, hmem, hkey ▸ rfl⟩⟩

/-! ### Requests for events -/

theorem acquireEvents_refused {device : Device} {config : RequestConfig} {granted : List HandleId}
    {line : Line} {rest : List Line} {error : Error} {after : World σ}
    (h : world.perform device (.requestEvent (eventRequest config line)) = (.error error, after)) :
    world.acquireEvents device config granted (line :: rest) =
      ((some (line, error), granted), after) := by
  rw [eventRequest] at h
  rw [acquireEvents, h]

theorem acquireEvents_granted {device : Device} {config : RequestConfig} {granted : List HandleId}
    {line : Line} {rest : List Line} {file : FileId} {after : World σ}
    (h : world.perform device (.requestEvent (eventRequest config line)) = (.ok file, after)) :
    world.acquireEvents device config granted (line :: rest) =
      (after.openHandle (eventGrant device config line file)).acquireEvents device config
        (granted ++ [after.handles.next]) rest := by
  rw [eventRequest] at h
  rw [acquireEvents, h]
  rfl

/-- The members are granted a handle each, in order, until one is refused or there are no more. -/
theorem acquireEvents_eq (world : World σ) (device : Device) (config : RequestConfig)
    (granted : List HandleId) (lines : List Line) :
    ∃ machine log files,
      (world.acquireEvents device config granted lines).2 =
        { world with
          machine, log, handles := world.handles.addAll (eventGrants device config lines files) } ∧
      (world.acquireEvents device config granted lines).1.2 =
        granted ++ List.range' world.handles.next files.length ∧
      files.length ≤ lines.length ∧
      ((world.acquireEvents device config granted lines).1.1 = none →
        files.length = lines.length) := by
  induction lines generalizing world granted with
  | nil =>
      exact ⟨world.machine, world.log, [], rfl, (List.append_nil granted).symm, le_rfl, fun _ => rfl⟩
  | cons line rest ih =>
      rcases hperform : world.perform device (.requestEvent (eventRequest config line))
        with ⟨error | file, after⟩
      · obtain ⟨machine, -, rfl⟩ := perform_eq hperform
        rw [acquireEvents_refused hperform]
        exact ⟨machine, world.log, [], rfl, (List.append_nil granted).symm, Nat.zero_le _, nofun⟩
      · obtain ⟨machine, -, rfl⟩ := perform_eq hperform
        rw [acquireEvents_granted hperform]
        obtain ⟨machine', log, files, hworld, hgranted, hle, hall⟩ :=
          ih (World.openHandle { world with machine } (eventGrant device config line file))
            (granted ++ [world.handles.next])
        refine ⟨machine', log, file :: files, ?_, ?_, Nat.succ_le_succ hle,
          fun hnone => congrArg (· + 1) (hall hnone)⟩
        · rw [hworld]
          rfl
        · rw [hgranted, List.append_assoc]
          rfl

theorem moves_acquireEvents (world : World σ) (device : Device) (config : RequestConfig)
    (granted : List HandleId) (lines : List Line)
    (hgrants : ∀ handle : Handle, handle.kind = .events → scope.grants handle) :
    Moves scope ⟨world, (granted : Multiset HandleId)⟩
      ⟨(world.acquireEvents device config granted lines).2,
        ((world.acquireEvents device config granted lines).1.2 : Multiset HandleId)⟩ := by
  induction lines generalizing world granted with
  | nil => exact .refl
  | cons line rest ih =>
      rcases hperform : world.perform device (.requestEvent (eventRequest config line))
        with ⟨error | file, after⟩
      · rw [acquireEvents_refused hperform]
        exact moves_of_perform hperform trivial rfl
      · rw [acquireEvents_granted hperform]
        have hgrant : Move scope ⟨world, (granted : Multiset HandleId)⟩
            ⟨(world.perform device (.requestEvent (eventRequest config line))).2.openHandle
              (eventGrant device config line file),
              world.handles.next ::ₘ (granted : Multiset HandleId)⟩ := by
          refine .grant trivial ?_ (valid_eventGrant device config line file) (hgrants _ rfl)
          rw [hperform]
          rfl
        obtain ⟨machine, -, rfl⟩ := perform_eq hperform
        have howned : world.handles.next ::ₘ (granted : Multiset HandleId) =
            ((granted ++ [world.handles.next] : List HandleId) : Multiset HandleId) := by
          rw [Multiset.cons_coe, Multiset.coe_eq_coe]
          exact (List.perm_append_singleton _ _).symm
        rw [hperform, howned] at hgrant
        exact .head hgrant (ih ..)

theorem moves_requestEvents (hsound : Desk.Sound ⟨world, 0⟩) {device : Device} {group : Group}
    {chip : Chip} {id : ChipId} (htakeable : world.Takeable group chip id) {config : RequestConfig}
    (hevents : config.type.isEvent = true)
    (hscope : Allows scope world group config (world.requestEvents device group config).1) :
    Moves scope ⟨world, 0⟩ ⟨(world.requestEvents device group config).2, 0⟩ := by
  have hacquire := moves_acquireEvents world device config [] group.lines (hscope.events hevents)
  obtain ⟨machine, log, files, hworld, hgranted, -, hall⟩ :=
    world.acquireEvents_eq device config [] group.lines
  unfold requestEvents at hscope ⊢
  split
  · next line error granted after h =>
    rw [h] at hacquire
    split
    · exact hacquire.trans (moves_dropHandles granted)
    · exact (hacquire.trans (moves_note _)).trans (moves_dropHandles granted)
  · next granted after h =>
    rw [h] at hacquire hworld hgranted hall
    have hlength := hall rfl
    obtain rfl : granted = List.range' world.handles.next files.length := hgranted
    subst hworld
    have htaken : ∀ pair ∈ group.lines.zip (List.range' world.handles.next files.length),
        world.handles.next ≤ pair.2 ∧ ∃ file,
          (world.handles.addAll (eventGrants device config group.lines files)).get? pair.2 =
            some (eventGrant device config pair.1 file) :=
      fun pair hpair => eventGrants_found hsound.ledger.handles_fresh hpair
    have hchip : world.ledger.closed? id = some false :=
      closed?_eq_false.mpr ⟨chip, htakeable.isOpen⟩
    refine (hacquire.trans (moves_take (hacquire.sound hsound) hchip ?_ ?_ ?_)).trans
      (moves_note _)
    · rw [List.map_fst_zip (by simp [hlength])]
      exact htakeable.nodup
    · intro pair hpair
      have hmem := (List.of_mem_zip hpair).1
      obtain ⟨hnew, file, hfound⟩ := htaken pair hpair
      exact
        { onChip := htakeable.members _ hmem
          free := htakeable.free _ hmem
          asked := by
            rw [h] at hscope
            exact hscope.lines rfl _ hmem
          taken := hscope.first.trans hnew
          owns := Multiset.mem_coe.mpr (List.of_mem_zip hpair).2
          found := ⟨_, hfound, rfl, List.mem_singleton_self _⟩
          holders := by
            intro other hholds
            obtain ⟨handle, hget⟩ := hsound.ledger.held_open (Or.inl ⟨other, hholds⟩)
            have hold : pair.2 < world.handles.next :=
              Table.get?_lt hsound.ledger.handles_fresh hget
            exact absurd hold (Nat.not_lt.mpr hnew) }
    · intro key hkey
      obtain ⟨index, hindex⟩ := List.mem_iff_getElem?.mp hkey
      have hlt : index < group.lines.length := by
        have := (List.getElem?_eq_some_iff.mp hindex).1
        rw [List.length_range'] at this
        omega
      refine ⟨group.lines[index], List.mem_iff_getElem?.mpr ⟨index, ?_⟩⟩
      exact List.getElem?_zip_eq_some.mpr ⟨List.getElem?_eq_getElem hlt, hindex⟩

/-! ### Requests as a whole -/

theorem moves_requestLocked (hsound : Desk.Sound ⟨world, 0⟩) {group : Group}
    (hsize : group.size ≤ maxLines) {config : RequestConfig} {defaults : Option (List UInt8)}
    (hcount : group.checkCount? defaults = .ok ())
    (hscope : Allows scope world group config (world.requestLocked group config defaults).1) :
    Moves scope ⟨world, 0⟩ ⟨(world.requestLocked group config defaults).2, 0⟩ := by
  unfold requestLocked at hscope ⊢
  split
  · exact moves_fail _
  · next chip hcheck =>
    rw [hcheck] at hscope
    obtain ⟨first, -, htakeable⟩ := takeable_of_checkTakeable hcheck
    have htaken : Moves scope ⟨world, 0⟩
        ⟨(if config.type.isEvent then world.requestEvents chip.device group config
          else world.requestValues chip.device group config defaults).2, 0⟩ := by
      cases hevents : config.type.isEvent with
      | true =>
          rw [hevents] at hscope
          refine moves_requestEvents hsound htakeable hevents ⟨hscope.first, fun hok => ?_,
            hscope.values, hscope.events⟩
          apply hscope.lines
          simp only [if_true, hok]
      | false =>
          rw [hevents] at hscope
          refine moves_requestValues hsound htakeable hsize hcount hevents ⟨hscope.first,
            fun hok => ?_, hscope.values, hscope.events⟩
          apply hscope.lines
          simp only [Bool.false_eq_true, if_false, hok]
    simp only
    split
    · exact htaken
    · exact htaken.trans (moves_updateAll group)

theorem moves_request (hsound : Desk.Sound ⟨world, 0⟩) {group : Group}
    (hsize : group.size ≤ maxLines) {config : RequestConfig} {defaults : Option (List UInt8)}
    (hscope : Allows scope world group config (world.request group config defaults).1) :
    Moves scope ⟨world, 0⟩ ⟨(world.request group config defaults).2, 0⟩ := by
  unfold request at hscope ⊢
  split
  · exact moves_fail _
  · next hcheck =>
    rw [hcheck] at hscope
    exact moves_requestLocked hsound hsize (count_of_checkRequest hcheck) hscope

end GpioLines.World
