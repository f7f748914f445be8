import GpioLines.Proofs.Client

/-!
# What holds of every client

Groups are well formed because nothing else is ever given to a client. Worlds are sound because each
operation is a chain of moves, with the closing of a chip as the one that begins with a mark.
-/

namespace GpioLines

/-! ### Groups -/

theorem Group.WellFormed.sublist {group part : Group} (h : group.WellFormed)
    (hpart : part.lines.Sublist group.lines) : part.WellFormed where
  size_le := hpart.length_le.trans h.size_le
  same_chip := fun a ha b hb => h.same_chip a (hpart.subset ha) b (hpart.subset hb)

theorem eq_ok_of_mem_toOption {ε α : Type} {outcome : Except ε α} {value : α}
    (h : value ∈ outcome.toOption.toList) : outcome = .ok value := by
  cases outcome with
  | error error => cases h
  | ok found => rw [List.mem_singleton.mp h]

namespace World

variable {σ : Type} {world : World σ}

theorem wellFormed_append {group grown : Group} {line : Line}
    (h : world.append group line = .ok grown) (hgroup : group.WellFormed) : grown.WellFormed := by
  have hpush : group.size < maxLines → (∀ other ∈ group.lines, other.chip = line.chip) →
      (group.push line).WellFormed := by
    intro hsize hchip
    refine ⟨?_, ?_⟩
    · simp only [Group.size, Group.push, List.length_append, List.length_singleton]
      exact hsize
    · have hall : ∀ other ∈ (group.push line).lines, other.chip = line.chip := by
        intro other hother
        rcases List.mem_append.mp hother with hother | hother
        · exact hchip other hother
        · rw [List.mem_singleton.mp hother]
      intro a ha b hb
      rw [hall a ha, hall b hb]
  unfold append at h
  split at h
  · cases h
  · split at h
    · cases h
    · next hsize =>
      have hsize := Nat.not_le.mp hsize
      split at h
      · next first hfirst =>
        split at h
        · next hchip =>
          obtain rfl := Except.ok.inj h
          apply hpush hsize
          intro other hother
          rw [← hchip]
          exact hgroup.same_chip other hother first (List.mem_of_head? hfirst)
        · cases h
      · next hnone =>
        obtain rfl := Except.ok.inj h
        apply hpush hsize
        intro other hother
        rw [List.head?_eq_none_iff.mp hnone] at hother
        cases hother

theorem wellFormed_groupOf {lines : List Line} {group : Group}
    (h : world.groupOf lines = .ok group) : group.WellFormed :=
  foldlM_keeps (fun _ _ _ _ hgrown hold => wellFormed_append hgrown hold) h Group.wellFormed_empty

theorem waitFiles_lines {group : Group} {files : List (Line × FileId)}
    (h : world.waitFiles group = .ok files) : files.map (·.1) = group.lines := by
  unfold waitFiles at h
  split at h
  · cases h
  · have heq : List.Forall₂ (fun line entry => line = entry.1) group.lines files := by
      refine (forall₂_of_mapM h).imp fun line entry hentry => ?_
      cases hfile : world.waitFile line with
      | error error => simp [hfile, Except.map] at hentry
      | ok file =>
          rw [hfile] at hentry
          exact (congrArg Prod.fst (Except.ok.inj hentry))
    rw [← List.forall₂_map_right_iff, List.forall₂_eq_eq_eq] at heq
    exact heq.symm

variable [Machine σ]

theorem wellFormed_getLinesInto {id : ChipId} {offsets : List Offset} {group grown : Group}
    (h : (world.getLinesInto id group offsets).1 = .ok grown) (hgroup : group.WellFormed) :
    grown.WellFormed := by
  induction offsets generalizing world group with
  | nil =>
      obtain rfl := Except.ok.inj h
      exact hgroup
  | cons offset rest ih =>
      unfold getLinesInto at h
      split at h
      · cases h
      · split at h
        · cases h
        · next happend => exact ih h (wellFormed_append happend hgroup)

/-- A look that finds something finds the lines that are ready. -/
theorem ready_of_look {files : List (Line × FileId)} {token : Option TokenId} {ready : Group}
    (h : world.look files token = .ok (.ready ready)) : ready = world.readyAmong files := by
  unfold look at h
  split at h
  · cases h
  · simp only at h
    split at h
    · cases h
    · exact (Polled.ready.inj (Except.ok.inj h)).symm

/-- A wait reports what one look finds, or nothing. -/
theorem ready_of_await {files : List (Line × FileId)} {token : Option TokenId}
    {limit : Option Duration} {others : List (Intervention σ)} {ready : Group}
    (h : (world.await files token limit others).1 = .ok (.ready ready)) :
    ready = .empty ∨ ∃ later : World σ, ready = later.readyAmong files := by
  induction others generalizing world with
  | nil =>
      unfold await at h
      split at h
      · cases h
      · next hlook =>
        obtain rfl := Polled.ready.inj (Except.ok.inj h)
        exact Or.inr ⟨world, ready_of_look hlook⟩
      · have h := Except.ok.inj h
        split at h
        · exact Or.inl (Polled.ready.inj h).symm
        · cases h
  | cons other rest ih =>
      unfold await at h
      split at h
      · cases h
      · next hlook =>
        obtain rfl := Polled.ready.inj (Except.ok.inj h)
        exact Or.inr ⟨world, ready_of_look hlook⟩
      · split at h
        · exact Or.inl (Polled.ready.inj (Except.ok.inj h)).symm
        · exact ih h

/-- The lines that are ready are lines of the group, in its order. -/
theorem sublist_wait {group ready : Group} {token : Option TokenId} {timeout : Option Duration}
    {others : List (Intervention σ)}
    (h : (world.wait group token timeout others).1 = .ok (.ready ready)) :
    ready.lines.Sublist group.lines := by
  unfold wait at h
  split at h
  · cases h
  next files hfiles =>
  rw [← waitFiles_lines hfiles]
  rcases ready_of_await h with rfl | ⟨later, rfl⟩
  · exact List.nil_sublist _
  · exact List.filter_sublist.map _

end World

variable {σ : Type} {world : World σ}

/-! ### Marks -/

/-- The world that an operation begins in: a chip that is to be closed is marked. -/
def Operation.begin (world : World σ) : Operation → World σ
  | .closeChip chip =>
    if world.ledger.closed? chip = some false then world.markClosed chip else world
  | _ => world

/-- The mark of a chip is all that an operation begins with. -/
theorem Operation.ledger_begin (operation : Operation) (world : World σ) :
    ∃ closed?, (operation.begin world).ledger = { world.ledger with closed? } := by
  cases operation with
  | closeChip chip =>
      simp only [Operation.begin]
      split
      · exact ⟨_, World.ledger_markClosed chip⟩
      · exact ⟨_, rfl⟩
  | _ => exact ⟨_, rfl⟩

theorem Operation.machine_begin (operation : Operation) (world : World σ) :
    (operation.begin world).machine = world.machine := by
  cases operation with
  | closeChip chip =>
      simp only [Operation.begin]
      split <;> rfl
  | _ => rfl

theorem Operation.sound_begin (hsound : Desk.Sound ⟨world, 0⟩) (operation : Operation) :
    Desk.Sound ⟨operation.begin world, 0⟩ := by
  cases operation with
  | closeChip chip =>
      simp only [Operation.begin]
      split
      · exact World.sound_markClosed hsound chip
      · exact hsound
  | _ => exact hsound

/-! ### Sound clients -/

namespace Client

structure Sound (client : Client σ) : Prop where
  desk : Desk.Sound ⟨client.world, 0⟩
  idle : client.world.ledger.Idle
  groups : ∀ group ∈ client.groups, group.WellFormed

theorem sound_start (machine : σ) : (start machine).Sound := by
  have hnothing : ∀ line id, ¬ (start machine).world.ledger.Holds line id := by
    intro line id hholds
    cases (hholds : none = some id)
  have hnone : ∀ id handle, (start machine).world.handles.get? id ≠ some handle := by
    intro id handle hget
    cases hget
  exact
    { desk :=
        { tidy := ⟨fun _ hmem => absurd hmem List.not_mem_nil, rfl⟩
          ledger :=
            { handles_fresh := Table.fresh_empty
              handles_ascending := Table.ascending_empty
              streams_fresh := Table.fresh_empty
              streams_ascending := Table.ascending_empty
              slot_open := fun line id hholds => absurd hholds (hnothing line id)
              one_chip := fun a _ id hholds => absurd hholds (hnothing a id)
              stream_open := fun _ hmem => absurd hmem List.not_mem_nil
              valid := fun id handle hget => absurd hget (hnone id handle) }
          owned_open := fun id howned => absurd howned (Multiset.notMem_zero id)
          kept := fun id handle hget => absurd hget (hnone id handle) }
      idle := fun _ _ => rfl
      groups := fun _ hmem => absurd hmem List.not_mem_nil }

theorem Sound.withMachine {client : Client σ} (h : client.Sound) (machine : σ) :
    (client.withMachine machine).Sound :=
  ⟨⟨h.desk.tidy.congr rfl rfl, h.desk.ledger, h.desk.owned_open, h.desk.kept⟩, h.idle, h.groups⟩

/-- A key that was not in use yet is held by nobody. -/
theorem Sound.not_holds {client : Client σ} (h : client.Sound) {line : Line} {id : HandleId}
    (hnew : client.world.handles.next ≤ id) : ¬ client.world.ledger.Holds line id := by
  intro hholds
  obtain ⟨handle, hget⟩ := h.desk.ledger.held_open (Or.inl ⟨line, hholds⟩)
  have hold : id < client.world.handles.next := Table.get?_lt h.desk.ledger.handles_fresh hget
  exact absurd hold (Nat.not_lt.mpr hnew)

/-- A values handle is held by a line, for streams read events only. -/
theorem Sound.exists_holder {client : Client σ} (h : client.Sound) {id : HandleId} {handle : Handle}
    (hget : client.world.handles.get? id = some handle) (hkind : handle.kind = .values) :
    ∃ line, client.world.ledger.Holds line id := by
  rcases h.desk.kept id handle hget with (hline | ⟨entry, hentry, rfl⟩) | howned
  · exact hline
  · obtain ⟨found, hfound, hevents⟩ := h.desk.ledger.stream_open entry hentry
    obtain rfl := Option.mem_unique hget hfound
    rw [hkind] at hevents
    cases hevents
  · exact absurd howned (Multiset.notMem_zero id)

end Client

/-! ### Operations -/

variable [Machine σ]

theorem Operation.wellFormed_given {operation : Operation}
    (hgroups : ∀ group ∈ operation.groups, group.WellFormed) :
    ∀ group ∈ (operation.run world).1, group.WellFormed := by
  intro group hmem
  cases operation with
  | openChip | closeChip | findLine | onGroup | release | refresh | readEvent | readEvents
  | openStream | nextEvent | dropStream | newToken | cancel => cases hmem
  | single line =>
      rw [List.mem_singleton.mp hmem]
      exact Group.wellFormed_single line
  | getLine chip offset =>
      obtain ⟨line, -, rfl⟩ := List.mem_map.mp hmem
      exact Group.wellFormed_single line
  | getLines chip offsets =>
      exact World.wellFormed_getLinesInto (eq_ok_of_mem_toOption hmem)
        Group.wellFormed_empty
  | getAllLines chip =>
      exact World.wellFormed_getLinesInto (eq_ok_of_mem_toOption hmem)
        Group.wellFormed_empty
  | gather lines =>
      exact World.wellFormed_groupOf (eq_ok_of_mem_toOption hmem)
  | append old line =>
      exact World.wellFormed_append (eq_ok_of_mem_toOption hmem)
        (hgroups old (List.mem_singleton_self old))
  | wait old token timeout =>
      simp only [Operation.run] at hmem
      split at hmem
      · next ready hready =>
        rw [List.mem_singleton.mp hmem]
        exact (hgroups old (List.mem_singleton_self old)).sublist (World.sublist_wait hready)
      · cases hmem

/-- What an operation may take. Only a request takes anything. -/
def Operation.scope (world : World σ) : Operation → Scope
  | .onGroup (.request config defaults) group =>
    { first := world.handles.next
      lines := if (world.request group config defaults).1.isOk then group.lines else []
      grants := fun handle =>
        if config.type.isEvent then handle.kind = .events
        else handle.kind = .values ∧ handle.offsets = group.offsets }
  | _ => { first := world.handles.next }

theorem GroupOperation.moves (hsound : Desk.Sound ⟨world, 0⟩) {operation : GroupOperation}
    {group : Group} (hsize : group.size ≤ maxLines) :
    Moves ((Operation.onGroup operation group).scope world) ⟨world, 0⟩
      ⟨(operation.run group world).2, 0⟩ := by
  cases operation with
  | request config defaults =>
      refine World.moves_request hsound hsize ⟨le_rfl, ?_, ?_, ?_⟩
      · intro hok line hline
        simp only [Operation.scope, hok]
        exact hline
      · intro hvalues handle hkind hoffsets
        simp only [Operation.scope, hvalues]
        exact ⟨hkind, hoffsets⟩
      · intro hevents handle hkind
        simp only [Operation.scope, hevents]
        exact hkind
  | getValues => exact World.moves_getValues hsound group
  | setValues values => exact World.moves_setValues hsound group values
  | setConfig type flags values => exact World.moves_setConfig hsound group type flags values
  | setFlags flags => exact World.moves_setFlags hsound group flags
  | setDirectionInput => exact World.moves_setDirectionInput hsound group
  | setDirectionOutput values => exact World.moves_setDirectionOutput hsound group values

/-- **Every operation is a chain of moves.** -/
theorem Operation.moves (hsound : Desk.Sound ⟨world, 0⟩) {operation : Operation}
    (hgroups : ∀ group ∈ operation.groups, group.WellFormed) :
    Moves (operation.scope world) ⟨operation.begin world, 0⟩ ⟨(operation.run world).2, 0⟩ := by
  cases operation with
  | openChip device => exact World.moves_openChipOn device
  | closeChip chip =>
      simp only [Operation.begin]
      split
      · next hopen => exact World.moves_closeChip hopen
      · next hclosed =>
        simp only [Operation.run, World.closeChip_of_closed hclosed]
        exact .refl
  | getLine chip offset => exact World.moves_getLine chip offset
  | getLines chip offsets => exact World.moves_getLines chip offsets
  | getAllLines chip => exact World.moves_getLines chip _
  | findLine chip name => exact World.moves_findLine chip name
  | gather | append | single => exact .refl
  | onGroup operation group =>
      exact operation.moves hsound (hgroups group (List.mem_singleton_self group)).size_le
  | release group => exact World.moves_release group
  | refresh line => exact World.moves_refresh line
  | readEvent line => exact World.moves_readEvent line
  | readEvents line limit => exact World.moves_readEvents line limit
  | openStream line => exact World.moves_openStream line
  | nextEvent stream => exact World.moves_nextEvent stream
  | dropStream stream => exact World.moves_dropStream stream
  | newToken => exact .single (.remark world.log _)
  | cancel token => exact .single (.remark world.log _)
  | wait group token timeout => exact World.moves_wait group token timeout

theorem Operation.idle (hsound : Desk.Sound ⟨world, 0⟩) {operation : Operation}
    (hgroups : ∀ group ∈ operation.groups, group.WellFormed) (h : world.ledger.Idle) :
    (operation.run world).2.ledger.Idle := by
  cases operation with
  | closeChip chip => exact World.idle_closeChip h chip
  | _ => exact Moves.idle (Operation.moves hsound hgroups) h

/-! ### Clients -/

namespace Client

theorem Sound.call {client : Client σ} (h : client.Sound) {operation : Operation}
    (hcan : client.CanCall operation) : (client.call operation).Sound := by
  have hgroups : ∀ group ∈ operation.groups, group.WellFormed := fun group hgroup =>
    h.groups group (hcan.1 group hgroup)
  refine ⟨?_, operation.idle h.desk hgroups h.idle, ?_⟩
  · exact (Operation.moves h.desk hgroups).sound (operation.sound_begin h.desk)
  · intro group hgroup
    rcases List.mem_append.mp hgroup with hgroup | hgroup
    · exact h.groups group hgroup
    · exact Operation.wellFormed_given hgroups group hgroup

theorem Step.sound {env : σ → σ → Prop} {before after : Client σ} (hstep : Step env before after)
    (h : before.Sound) : after.Sound := by
  cases hstep with
  | call hcan => exact h.call hcan
  | outside => exact h.withMachine _

/-- **Every reachable client is sound.** -/
theorem Reachable.sound {env : σ → σ → Prop} {client : Client σ} (h : client.Reachable env) :
    client.Sound := by
  obtain ⟨machine, hrun⟩ := h
  induction hrun with
  | refl => exact sound_start machine
  | tail _ hstep ih => exact hstep.sound ih

end Client

end GpioLines
