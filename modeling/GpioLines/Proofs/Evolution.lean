import GpioLines.Proofs.Move

/-!
# What moves leave as it was

A chain of moves only ever attaches lines of its scope, to handles that it was granted itself. So
whoever holds a handle afterwards held it before or took it in between, and an open handle is still
what it was when it was granted. No move attaches a line of a closed chip, so lines of closed chips
stay free.
-/

namespace GpioLines

/-! ### Holders and handles -/

structure Ledger.Evolves (scope : Scope) (before after : Ledger) : Prop where
  next_le : before.handles.next ≤ after.handles.next
  holds : ∀ line id, after.Holds line id →
    before.Holds line id ∨ scope.first ≤ id ∧ line ∈ scope.lines
  handles : ∀ id handle, after.handles.get? id = some handle →
    (∃ old, before.handles.get? id = some old ∧ handle.SameGrant old) ∨
      before.handles.next ≤ id ∧ ∃ sought, scope.grants sought ∧ handle.SameGrant sought

namespace Ledger.Evolves

variable {scope : Scope} {a b c : Ledger}

theorem refl (scope : Scope) (a : Ledger) : Evolves scope a a where
  next_le := le_rfl
  holds := fun _ _ hholds => Or.inl hholds
  handles := fun _ handle hget => Or.inl ⟨handle, hget, .refl handle⟩

theorem of_eq (hslot : b.slot = a.slot) (hhandles : b.handles = a.handles) : Evolves scope a b where
  next_le := by rw [hhandles]
  holds := fun line id hholds => Or.inl (by rwa [Holds, hslot] at hholds)
  handles := fun id handle hget => Or.inl ⟨handle, hhandles ▸ hget, .refl handle⟩

theorem trans (hab : Evolves scope a b) (hbc : Evolves scope b c) : Evolves scope a c := by
  refine ⟨hab.next_le.trans hbc.next_le, ?_, ?_⟩
  · intro line id hholds
    rcases hbc.holds line id hholds with hholds | htaken
    · exact hab.holds line id hholds
    · exact Or.inr htaken
  · intro id handle hget
    rcases hbc.handles id handle hget with ⟨old, hold, hsame⟩ | ⟨hnew, hsought⟩
    · rcases hab.handles id old hold with ⟨older, holder, holds⟩ | ⟨hnew, sought, hgrants, holds⟩
      · exact Or.inl ⟨older, holder, hsame.trans holds⟩
      · exact Or.inr ⟨hnew, sought, hgrants, hsame.trans holds⟩
    · exact Or.inr ⟨hab.next_le.trans hnew, hsought⟩

theorem addHandle (hfresh : a.handles.Fresh) {handle : Handle} (hgrants : scope.grants handle) :
    Evolves scope a { a with handles := a.handles.add handle } := by
  refine ⟨Nat.le_succ _, fun line id hholds => Or.inl hholds, ?_⟩
  intro id found hget
  simp only [Table.get?_add hfresh] at hget
  split at hget
  · next hnew =>
    obtain rfl := Option.some.inj hget
    exact Or.inr ⟨hnew.ge, handle, hgrants, .refl handle⟩
  · exact Or.inl ⟨found, hget, .refl found⟩

theorem modifyHandle {id : HandleId} {f : Handle → Handle}
    (hf : ∀ handle, a.handles.get? id = some handle → (f handle).SameGrant handle) :
    Evolves scope a { a with handles := a.handles.modify id f } := by
  refine ⟨le_rfl, fun line key hholds => Or.inl hholds, ?_⟩
  intro key found hget
  simp only [Table.get?_modify] at hget
  split at hget
  · next hkey =>
    obtain ⟨old, hold, rfl⟩ := Option.map_eq_some_iff.mp hget
    exact Or.inl ⟨old, hold, hf old (hkey ▸ hold)⟩
  · exact Or.inl ⟨found, hget, .refl found⟩

theorem eraseHandle (id : HandleId) :
    Evolves scope a { a with handles := a.handles.erase id } := by
  refine ⟨le_rfl, fun line key hholds => Or.inl hholds, ?_⟩
  intro key found hget
  simp only [Table.get?_erase] at hget
  split at hget
  · cases hget
  · exact Or.inl ⟨found, hget, .refl found⟩

theorem attach {line : Line} {id : HandleId} (htaken : scope.first ≤ id)
    (hasked : line ∈ scope.lines) (kind : HandleKind) :
    Evolves scope a (a.withSlot line (.holding id kind)) := by
  refine ⟨le_rfl, ?_, fun key found hget => Or.inl ⟨found, hget, .refl found⟩⟩
  intro other key hholds
  rw [holds_withSlot] at hholds
  split at hholds
  · next hother =>
    rw [Slot.handle?_holding] at hholds
    obtain rfl := Option.some.inj hholds
    exact Or.inr ⟨htaken, hother ▸ hasked⟩
  · exact Or.inl hholds

theorem free (line : Line) : Evolves scope a (a.withSlot line .free) := by
  refine ⟨le_rfl, ?_, fun key found hget => Or.inl ⟨found, hget, .refl found⟩⟩
  intro other key hholds
  exact Or.inl (holds_of_holds_free hholds).1

end Ledger.Evolves

variable {σ : Type} [Machine σ] {scope : Scope}

theorem World.evolves_dropHandle (world : World σ) (id : HandleId) :
    Ledger.Evolves scope world.ledger (world.dropHandle id).ledger := by
  unfold dropHandle
  split
  · exact .refl scope _
  · cases hget : world.handles.get? id with
    | none =>
        rw [closeHandle, hget]
        exact .refl scope _
    | some handle =>
        rw [world.ledger_closeHandle id hget]
        exact .eraseHandle id

theorem Move.evolves {before after : Desk σ} (hmove : Move scope before after)
    (h : before.Sound) : Ledger.Evolves scope before.world.ledger after.world.ledger := by
  cases hmove with
  | remark | read | watch | unwatch | call | forget | openStream | closeStream =>
      exact .of_eq rfl rfl
  | grant _ _ _ hsought => exact .addHandle h.ledger.handles_fresh hsought
  | retune hvalid => exact .modifyHandle fun handle hget => (hvalid handle hget).1
  | @retouch world _ line _ hkeeps =>
      rw [world.ledger_modifyLine line hkeeps]
      exact .refl scope _
  | attach _ htaken hasked hopen =>
      rw [World.ledger_attach hopen]
      exact .attach htaken hasked _
  | @detach world _ line =>
      rw [world.ledger_detach line]
      exact .free line
  | @drop world _ id => exact world.evolves_dropHandle id
  | @openChip world _ device info =>
      obtain ⟨_, hledger⟩ := world.ledger_openChip device info
      rw [hledger]
      exact .of_eq rfl rfl

/-- **What a chain of moves leaves as it was.** -/
theorem Moves.evolves {before after : Desk σ} (hmoves : Moves scope before after)
    (h : before.Sound) : Ledger.Evolves scope before.world.ledger after.world.ledger := by
  induction hmoves with
  | refl => exact .refl scope _
  | tail hmoves hmove ih => exact ih.trans (hmove.evolves (Moves.sound hmoves h))

/-! ### Closed chips -/

/-- Nothing of a closed chip is held. -/
def Ledger.Idle (ledger : Ledger) : Prop :=
  ∀ line, ledger.closed? line.chip = some true → ledger.slot line = .free

theorem Ledger.Idle.of_le {before after : Ledger} (h : before.Idle)
    (hclosed : ∀ id, after.closed? id = some true → before.closed? id = some true)
    (hslot : ∀ line, before.slot line = .free → after.slot line = .free) : after.Idle :=
  fun line hline => hslot line (h line (hclosed line.chip hline))

theorem Move.idle {before after : Desk σ} (hmove : Move scope before after)
    (h : before.world.ledger.Idle) : after.world.ledger.Idle := by
  cases hmove with
  | remark | read | watch | unwatch | call | grant | retune | forget | openStream | closeStream =>
      exact h
  | @retouch world _ line _ hkeeps =>
      rw [world.ledger_modifyLine line hkeeps]
      exact h
  | @attach world _ line id handle _ _ _ hopen =>
      rw [World.ledger_attach hopen]
      intro other hother
      have hne : other ≠ line := by
        rintro rfl
        have hclosed : world.ledger.closed? other.chip = some true := hother
        rw [hopen] at hclosed
        cases hclosed
      simp only [Ledger.withSlot, Function.update_apply, if_neg hne]
      exact h other hother
  | @detach world _ line =>
      rw [world.ledger_detach line]
      refine h.of_le (fun _ hclosed => hclosed) fun other hfree => ?_
      simp only [Ledger.withSlot, Function.update_apply]
      split
      · rfl
      · exact hfree
  | @drop world _ id =>
      obtain ⟨hclosed, hslot⟩ := World.ledger_of_chips_eq (world.chips_dropHandle id)
      refine h.of_le (fun chip hchip => ?_) fun line hfree => ?_
      · rwa [hclosed] at hchip
      · rwa [hslot]
  | @openChip world _ device info =>
      refine h.of_le (fun chip hchip => ?_) fun line hfree => ?_
      · obtain ⟨found, hget, hclosed⟩ := Option.map_eq_some_iff.mp hchip
        simp only at hget
        rw [List.getElem?_append] at hget
        split at hget
        · exact Option.map_eq_some_iff.mpr ⟨found, hget, hclosed⟩
        · have hmem := List.mem_of_getElem? hget
          rw [List.mem_singleton] at hmem
          subst hmem
          cases hclosed
      · exact (congrFun (world.slot_openChip device info) line).trans hfree

theorem Moves.idle {before after : Desk σ} (hmoves : Moves scope before after)
    (h : before.world.ledger.Idle) : after.world.ledger.Idle := by
  induction hmoves with
  | refl => exact h
  | tail _ hmove ih => exact hmove.idle ih

end GpioLines
