import GpioLines.Bench.State
import GpioLines.Proofs.Reachability

/-!
# Lines, handles and requests fit together

A sound ledger says that every reference makes sense. What it cannot say is where a handle came
from: that is a fact about the run. Since moves attach lines of their own scope only, whoever holds
a values handle got it in the request that the handle was granted to, and that request cannot be one
that failed.
-/

namespace GpioLines

/-- Flags without unknown bits are written with named bits only. -/
theorem HandleFlags.truncate_toBits {flags : HandleFlags} (h : flags.unknown = 0) :
    handleFlagNames.truncate flags.toBits = flags.toBits := by
  obtain ⟨input, output, ⟨a, b, c, d, e, f⟩, unknown⟩ := flags
  obtain rfl : unknown = 0 := h
  revert input output a b c d e f
  decide

variable {σ : Type}

namespace World

variable {world : World σ} [Machine σ]

theorem takeable_of_request {group : Group} {config : RequestConfig}
    {defaults : Option (List UInt8)} (h : (world.request group config defaults).1 = .ok ()) :
    ∃ chip id, world.Takeable group chip id := by
  unfold request at h
  split at h
  · cases h
  · unfold requestLocked at h
    split at h
    · cases h
    · next chip hcheck =>
      obtain ⟨first, -, htakeable⟩ := takeable_of_checkTakeable hcheck
      exact ⟨chip, first.chip, htakeable⟩

end World

namespace Client

variable [Machine σ] {env : σ → σ → Prop} {client later : Client σ}

/-! ### Where a values handle comes from -/

/-- The client requested a group for values, and this handle was granted to that request. -/
def GrantedTo (env : σ → σ → Prop) (client : Client σ) (id : HandleId) (group : Group) : Prop :=
  ∃ (earlier : Client σ) (config : RequestConfig) (defaults : Option (List UInt8)),
    earlier.Reachable env ∧ group ∈ earlier.groups ∧ config.type.isEvent = false ∧
      (earlier.world.request group config defaults).1 = .ok () ∧
      earlier.world.handles.get? id = none ∧
      ((earlier.call (.onGroup (.request config defaults) group)).world.handles.get? id).isSome ∧
      Run env (earlier.call (.onGroup (.request config defaults) group)) client

theorem GrantedTo.step {id : HandleId} {group : Group} (h : client.GrantedTo env id group)
    (hstep : Step env client later) : later.GrantedTo env id group := by
  obtain ⟨earlier, config, defaults, hreachable, hgroup, hvalues, hok, hnone, hsome, hrun⟩ := h
  exact ⟨earlier, config, defaults, hreachable, hgroup, hvalues, hok, hnone, hsome,
    hrun.tail hstep⟩

/-- The handle lists the lines of the request it was granted to, and only these hold it. -/
def Traceable (env : σ → σ → Prop) (client : Client σ) (id : HandleId) (handle : Handle) : Prop :=
  ∃ group, client.GrantedTo env id group ∧ handle.offsets = group.offsets ∧ group.lines.Nodup ∧
    ∀ line, client.world.ledger.Holds line id → line ∈ group.lines

theorem Sound.evolves (h : client.Sound) {operation : Operation}
    (hcan : client.CanCall operation) :
    Ledger.Evolves (operation.scope client.world) client.world.ledger
      (client.call operation).world.ledger := by
  have hmoves := Operation.moves h.desk fun group hgroup => h.groups group (hcan.1 group hgroup)
  obtain ⟨closed?, hbegin⟩ := operation.ledger_begin client.world
  have hevolves := Moves.evolves hmoves (operation.sound_begin h.desk)
  have hsame : Ledger.Evolves (operation.scope client.world) client.world.ledger
      (operation.begin client.world).ledger := by
    rw [hbegin]
    exact .of_eq rfl rfl
  exact hsame.trans hevolves

/-- A handle that was open already is still held by lines of its request only. -/
theorem Traceable.call (h : client.Sound) {operation : Operation} (hcan : client.CanCall operation)
    {id : HandleId} {handle old : Handle} (hold : client.world.handles.get? id = some old)
    (hsame : handle.SameGrant old) (htraceable : client.Traceable env id old) :
    (client.call operation).Traceable env id handle := by
  obtain ⟨group, hgranted, hoffsets, hnodup, hholders⟩ := htraceable
  refine ⟨group, hgranted.step (.call hcan), hsame.2.2.2.trans hoffsets, hnodup, ?_⟩
  intro line hholds
  rcases (h.evolves hcan).holds line id hholds with hholds | ⟨hnew, -⟩
  · exact hholders line hholds
  · have hlt := Table.get?_lt h.desk.ledger.handles_fresh hold
    have hfirst : (operation.scope client.world).first = client.world.handles.next := by
      cases operation with
      | onGroup operation group => cases operation <;> rfl
      | _ => rfl
    rw [hfirst] at hnew
    exact absurd hlt (Nat.not_lt.mpr hnew)

/-- A values handle that a call has opened was granted to the group that the call requested. -/
theorem traceable_of_new (hreachable : client.Reachable env) {operation : Operation}
    (hcan : client.CanCall operation) {id : HandleId} {handle sought : Handle}
    (hget : (client.call operation).world.handles.get? id = some handle)
    (hkind : handle.kind = .values) (hnew : client.world.handles.next ≤ id)
    (hgrants : (operation.scope client.world).grants sought) (hsame : handle.SameGrant sought) :
    (client.call operation).Traceable env id handle := by
  have hsound := hreachable.sound
  obtain ⟨holder, hholder⟩ := (hsound.call hcan).exists_holder hget hkind
  have htaken : ∀ line, (client.call operation).world.ledger.Holds line id →
      line ∈ (operation.scope client.world).lines := by
    intro line hholds
    rcases (hsound.evolves hcan).holds line id hholds with hbefore | hafter
    · exact absurd hbefore (hsound.not_holds hnew)
    · exact hafter.2
  cases operation with
  | onGroup operation group =>
      cases operation with
      | request config defaults =>
          simp only [Operation.scope] at hgrants htaken
          cases hevents : config.type.isEvent with
          | true =>
              rw [hevents, if_pos rfl, ← hsame.1, hkind] at hgrants
              cases hgrants
          | false =>
              rw [hevents, if_neg Bool.false_ne_true] at hgrants
              cases houtcome : (client.world.request group config defaults).1 with
              | error error =>
                  rw [houtcome] at htaken
                  cases htaken holder hholder
              | ok =>
                  rw [houtcome] at htaken
                  obtain ⟨_, _, htakeable⟩ := World.takeable_of_request houtcome
                  refine ⟨group, ⟨client, config, defaults, hreachable, ?_, hevents, houtcome, ?_,
                    ?_, .refl⟩, hsame.2.2.2.trans hgrants.2, htakeable.nodup, htaken⟩
                  · exact hcan.1 group (List.mem_singleton_self group)
                  · by_contra hsome
                    obtain ⟨found, hfound⟩ := Option.ne_none_iff_exists'.mp hsome
                    have hold : id < client.world.handles.next :=
                      Table.get?_lt hsound.desk.ledger.handles_fresh hfound
                    exact absurd hold (Nat.not_lt.mpr hnew)
                  · exact Option.isSome_iff_exists.mpr ⟨handle, hget⟩
      | _ => cases hgrants
  | _ => cases hgrants

theorem traceable (h : client.Reachable env) {id : HandleId} {handle : Handle}
    (hget : client.world.handles.get? id = some handle) (hkind : handle.kind = .values) :
    client.Traceable env id handle := by
  obtain ⟨machine, hrun⟩ := h
  induction hrun generalizing id handle with
  | refl => cases hget
  | @tail before after hrun hstep ih =>
      have hbefore : before.Reachable env := ⟨machine, hrun⟩
      cases hstep with
      | outside hchange =>
          obtain ⟨group, hgranted, hrest⟩ := ih hget hkind
          exact ⟨group, hgranted.step (.outside hchange), hrest⟩
      | call hcan =>
          rcases (hbefore.sound.evolves hcan).handles id handle hget with
            ⟨old, hold, hsame⟩ | ⟨hnew, sought, hgrants, hsame⟩
          · exact (ih hold (hsame.1.symm.trans hkind)).call hbefore.sound hcan hold hsame
          · exact traceable_of_new hbefore hcan hget hkind hnew hgrants hsame

/-! ### The joint invariant -/

/-- Slots, handles and the requests they come from fit together. -/
structure Represents (env : σ → σ → Prop) (client : Client σ) : Prop where
  values_slot : ∀ line id, client.world.slot line = .values id →
    ∃ handle, client.world.handles.get? id = some handle ∧ handle.kind = .values
  events_slot : ∀ line id, client.world.slot line = .events id →
    ∃ handle, client.world.handles.get? id = some handle ∧ handle.kind = .events
  listed : ∀ line id handle, client.world.handle? line = some (id, handle) →
    handle.offsets.count line.offset = 1 ∧ handle.offsets.Nodup ∧
      1 ≤ handle.offsets.length ∧ handle.offsets.length ≤ maxLines
  events_alone : ∀ id handle, client.world.handles.get? id = some handle →
    handle.kind = .events → (∃ offset, handle.offsets = [offset]) ∧
      ∀ a b, client.world.ledger.Holds a id → client.world.ledger.Holds b id → a = b
  values_shared : ∀ id handle, client.world.handles.get? id = some handle →
    handle.kind = .values → ∃ group, client.GrantedTo env id group ∧
      handle.offsets = group.offsets ∧ group.lines.Nodup ∧
      (∀ a b, client.world.ledger.Holds a id → client.world.ledger.Holds b id →
        a.chip = b.chip) ∧
      ∀ line, client.world.ledger.Holds line id → line ∈ group.lines
  remembered : ∀ id handle, client.world.handles.get? id = some handle →
    handle.kind = .values → handle.values.length = handle.offsets.length ∧
      (∀ value ∈ handle.values, value = 0 ∨ value = 1) ∧
      handleFlagNames.truncate handle.flags.toBits = handle.flags.toBits

/-- **Representation.** Whatever clients do, in whatever order and whatever their devices answer,
lines, handles and requests fit together. -/
theorem represents_of_reachable (h : client.Reachable env) : client.Represents env := by
  have hledger := h.sound.desk.ledger
  have hslot : ∀ line id kind, client.world.slot line = .holding id kind →
      ∃ handle, client.world.handles.get? id = some handle ∧ handle.kind = kind := by
    intro line id kind hholding
    have hheld : client.world.ledger.slot line = .holding id kind := hholding
    obtain ⟨handle, hget, hkind, -⟩ := hledger.slot_open line id (by
      rw [Ledger.Holds, hheld, Slot.handle?_holding])
    refine ⟨handle, hget, ?_⟩
    rw [hheld] at hkind
    cases kind <;> cases hhandle : handle.kind <;> rw [hhandle] at hkind <;> first | rfl | cases hkind
  refine
    { values_slot := fun line id => hslot line id .values
      events_slot := fun line id => hslot line id .events
      listed := ?_
      events_alone := ?_
      values_shared := ?_
      remembered := ?_ }
  · intro line id handle hhandle
    obtain ⟨hholds, hget⟩ := World.handle?_eq_some.mp hhandle
    obtain ⟨found, hfound, -, hmem⟩ := hledger.slot_open line id hholds
    obtain rfl := Option.mem_unique hget hfound
    have hvalid := hledger.valid id handle hget
    exact ⟨List.count_eq_one_of_mem hvalid.nodup hmem, hvalid.nodup, hvalid.pos, hvalid.size_le⟩
  · intro id handle hget hkind
    have hsingle := (hledger.valid id handle hget).single hkind
    exact ⟨List.length_eq_one_iff.mp hsingle, fun a b => hledger.line_eq hget hkind⟩
  · intro id handle hget hkind
    obtain ⟨group, hgranted, hoffsets, hnodup, hholders⟩ := traceable h hget hkind
    exact ⟨group, hgranted, hoffsets, hnodup, fun a b => hledger.one_chip a b id, hholders⟩
  · intro id handle hget hkind
    have hvalid := hledger.valid id handle hget
    exact ⟨hvalid.values_length hkind, hvalid.bits, HandleFlags.truncate_toBits hvalid.known⟩

/-- Two lines of a simulated chip, requested together as outputs, of which one is given back. -/
def sharing : List Operation :=
  [.openChip (.simulator 0), .getLines 0 [2, 0],
    .onGroup (.request { consumer := "sharing", type := .output } (some [5, 0])) ⟨[⟨0, 2⟩, ⟨0, 0⟩]⟩,
    .single ⟨0, 0⟩, .release ⟨[⟨0, 0⟩]⟩]

theorem represents_sharing :
    ∃ client : Client Bench, client.Reachable (fun _ _ => True) ∧
      client.world.slot ⟨0, 2⟩ = .values 0 ∧ client.world.slot ⟨0, 0⟩ = .free ∧
      client.Represents fun _ _ => True := by
  have hreachable : Reachable (fun _ _ => True)
      ((start ({ simulators := [.create "gpiochip0" 4] } : Bench)).callAll sharing) :=
    ⟨_, run_callAll (by decide)⟩
  exact ⟨_, hreachable, by decide, by decide, represents_of_reachable hreachable⟩

end Client

end GpioLines
