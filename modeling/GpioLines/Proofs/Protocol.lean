import GpioLines.Bench.State
import GpioLines.Proofs.Reachability

/-!
# The protocol is kept

The library keeps no account of its own of what a device has granted and what it was given back:
the leases that run are those of the open handles. Each move changes both sides together, so along
every run the trace stays lawful, and what runs between operations can be read off the lines and
the streams.
-/

namespace GpioLines

namespace Ledger

variable {ledger : Ledger}

theorem leases_modify (hordered : ledger.handles.Ascending) {id : HandleId} {f : Handle → Handle}
    (hf : ∀ handle, ledger.handles.get? id = some handle → (f handle).SameGrant handle) :
    { ledger with handles := ledger.handles.modify id f }.leases = ledger.leases := by
  apply congrArg Multiset.ofList
  simp only [Table.modify, List.map_map]
  apply List.map_congr_left
  intro entry hentry
  obtain ⟨key, handle⟩ := entry
  simp only [Function.comp]
  by_cases hkey : key = id
  · subst hkey
    rw [if_pos (beq_self_eq_true key)]
    exact (hf handle (hordered.mem_entries_iff.mp hentry)).lease_eq
  · rw [if_neg (by simpa using hkey)]

theorem leases_erase (hordered : ledger.handles.Ascending) {id : HandleId} {handle : Handle}
    (hget : ledger.handles.get? id = some handle) :
    { ledger with handles := ledger.handles.erase id }.leases = ledger.leases.erase handle.lease :=
  hordered.map_erase hget Handle.lease

end Ledger

variable {σ : Type} [Machine σ] {scope : Scope}

/-! ### Move by move -/

/-- The trace of the machine is lawful, and the leases that run are those of the open handles. -/
def Desk.Lawful (desk : Desk (Traced σ)) : Prop :=
  GpioLines.Lawful desk.world.machine.trace desk.world.ledger.leases

theorem Desk.Lawful.dropHandle {world : World (Traced σ)} {owned : Multiset HandleId}
    (hsound : Desk.Sound ⟨world, owned⟩) (h : Desk.Lawful ⟨world, owned⟩) (id : HandleId) :
    GpioLines.Lawful (world.dropHandle id).machine.trace (world.dropHandle id).ledger.leases := by
  unfold World.dropHandle
  split
  · exact h
  · cases hget : world.handles.get? id with
    | none =>
        rw [World.closeHandle, hget]
        exact h
    | some handle =>
        have hleases : (world.closeHandle id).ledger.leases =
            world.ledger.leases.erase handle.lease := by
          rw [world.ledger_closeHandle id hget]
          exact Ledger.leases_erase hsound.ledger.handles_ascending hget
        have htrace : (world.closeHandle id).machine.trace =
            world.machine.trace ++ [.release handle.device handle.file] := by
          rw [World.closeHandle, hget]
          rfl
        rw [hleases, htrace]
        exact .release h (hsound.lease_mem hget)

theorem Move.lawful {before after : Desk (Traced σ)} (hmove : Move scope before after)
    (hsound : before.Sound) (h : before.Lawful) : after.Lawful := by
  cases hmove with
  | remark | read | watch | unwatch | forget | openStream | closeStream => exact h
  | @call world _ device call hpermitted hungranted =>
      have hcall := GpioLines.Lawful.call (world.perform device call).1 h hpermitted
      rw [hungranted, Multiset.add_zero] at hcall
      exact hcall
  | @grant world _ device call handle hpermitted hgranted =>
      have hcall := GpioLines.Lawful.call (world.perform device call).1 h hpermitted
      rw [hgranted, ← Ledger.leases_add] at hcall
      exact hcall
  | @retune world _ id f hvalid =>
      have hleases : { world.ledger with handles := world.handles.modify id f }.leases =
          world.ledger.leases :=
        Ledger.leases_modify hsound.ledger.handles_ascending fun handle hget => (hvalid handle hget).1
      refine (?_ : GpioLines.Lawful world.machine.trace
        { world.ledger with handles := world.handles.modify id f }.leases)
      rw [hleases]
      exact h
  | retouch | attach | detach | openChip => exact h
  | @drop world _ id => exact h.dropHandle hsound id

theorem Moves.lawful {before after : Desk (Traced σ)} (hmoves : Moves scope before after)
    (hsound : before.Sound) (h : before.Lawful) : after.Lawful := by
  induction hmoves with
  | refl => exact h
  | tail hmoves hmove ih => exact hmove.lawful (Moves.sound hmoves hsound) ih

/-! ### Run by run -/

namespace Client

variable {client : Client (Traced σ)}

/-- The client started on a machine that nothing had passed to or from yet, and between its calls
nothing passes. -/
def Observed (client : Client (Traced σ)) : Prop :=
  ∃ machine : σ, Run Traced.Unseen (start { machine }) client

theorem Observed.reachable (h : client.Observed) : client.Reachable Traced.Unseen := by
  obtain ⟨machine, hrun⟩ := h
  exact ⟨{ machine }, hrun⟩

theorem Observed.lawful (h : client.Observed) : Desk.Lawful ⟨client.world, 0⟩ := by
  obtain ⟨machine, hrun⟩ := h
  induction hrun with
  | refl => exact .start
  | @tail before after hrun hstep ih =>
      have hsound : before.Sound := Reachable.sound ⟨_, hrun⟩
      cases hstep with
      | outside hunseen =>
          refine (?_ : GpioLines.Lawful _ before.world.ledger.leases)
          rw [show (before.withMachine _).world.machine.trace = before.world.machine.trace from hunseen]
          exact ih
      | @call operation hcan =>
          have hmoves := Operation.moves hsound.desk fun group hgroup =>
            hsound.groups group (hcan.1 group hgroup)
          apply Moves.lawful hmoves (operation.sound_begin hsound.desk)
          obtain ⟨closed?, hledger⟩ := operation.ledger_begin before.world
          have hmachine := operation.machine_begin before.world
          refine (?_ : GpioLines.Lawful (operation.begin before.world).machine.trace
            (operation.begin before.world).ledger.leases)
          rw [hledger, hmachine]
          exact ih

/-- An event request that is refused at its second line, and one that a stream outlives. -/
def listening : List Operation :=
  let config : RequestConfig := { consumer := "listening", type := .eventBoth }
  [.openChip (.simulator 0), .getLines 0 [0, 1], .onGroup (.request config none) ⟨[⟨0, 0⟩, ⟨0, 1⟩]⟩,
    .single ⟨0, 0⟩, .onGroup (.request config none) ⟨[⟨0, 0⟩]⟩, .openStream ⟨0, 0⟩,
    .release ⟨[⟨0, 0⟩]⟩]

end Client

end GpioLines
