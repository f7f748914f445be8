import GpioLines.Proofs.Containment
import GpioLines.Proofs.Finality

/-!
# Who cancels

A token is cancelled by its own operation and by nothing else: no other operation of the library and
nothing that is done on the bench changes any token. A token that was cancelled stays so, and one
that is made later is another token. So whether a token is cancelled tells whether it ever was.
-/

namespace GpioLines

namespace World

/-! ### Operations that leave the tokens alone -/

section Tokens

variable {σ : Type} [Machine σ] {world : World σ}

theorem tokens_of_perform {device : Device} {call : Call} {outcome : Outcome call} {after : World σ}
    (h : world.perform device call = (outcome, after)) : after.tokens = world.tokens := by
  obtain ⟨machine, -, rfl⟩ := perform_eq h
  rfl

theorem tokens_refresh (line : Line) : (world.refresh line).2.tokens = world.tokens := by
  unfold refresh
  split
  · rfl
  next chip _ =>
  rcases hperform : world.perform chip.device (.lineInfo line.offset) with ⟨outcome, after⟩
  have hafter := tokens_of_perform hperform
  cases outcome with
  | error error => exact hafter
  | ok info => exact hafter

theorem tokens_getLine (id : ChipId) (offset : Offset) :
    (world.getLine id offset).2.tokens = world.tokens := by
  unfold getLine
  split
  · rfl
  split
  · rcases hrefresh : world.refresh ⟨id, offset⟩ with ⟨outcome, after⟩
    have hafter := world.tokens_refresh ⟨id, offset⟩
    simp only [hrefresh] at hafter ⊢
    cases outcome with
    | error error => exact hafter
    | ok told => exact hafter
  · rfl

theorem tokens_getLinesInto (id : ChipId) (group : Group) (offsets : List Offset) :
    (world.getLinesInto id group offsets).2.tokens = world.tokens := by
  induction offsets generalizing world group with
  | nil => rfl
  | cons offset rest ih =>
      have hline := world.tokens_getLine id offset
      unfold getLinesInto
      rcases hresult : world.getLine id offset with ⟨outcome, after⟩
      rw [hresult] at hline
      cases outcome with
      | error error => exact hline
      | ok line =>
          simp only
          split
          · exact hline
          · exact (ih _).trans hline

theorem tokens_openChipOn (device : Device) :
    (world.openChipOn device).2.tokens = world.tokens := by
  unfold openChipOn
  rcases hperform : world.perform device .chipInfo with ⟨outcome, after⟩
  have hafter := tokens_of_perform hperform
  cases outcome with
  | error error => exact hafter
  | ok info => exact hafter

theorem tokens_findAmong (chip : Chip) (name : String) (offsets : List Offset) :
    (world.findAmong chip name offsets).2.tokens = world.tokens := by
  induction offsets generalizing world with
  | nil => rfl
  | cons offset rest ih =>
      unfold findAmong
      rcases hperform : world.perform chip.device (.lineInfo offset) with ⟨outcome, after⟩
      have hafter := tokens_of_perform hperform
      cases outcome with
      | error error => exact ih.trans hafter
      | ok info =>
          simp only
          split
          · exact hafter
          · exact ih.trans hafter

theorem tokens_findLine (id : ChipId) (name : String) :
    (world.findLine id name).2.tokens = world.tokens := by
  unfold findLine
  split
  · rfl
  · exact tokens_findAmong ..

theorem tokens_closeChip (id : ChipId) : (world.closeChip id).tokens = world.tokens := by
  unfold closeChip
  split
  · rfl
  · split
    · rfl
    · exact (framed_invalidateAll _ _).2.1

theorem tokens_dropStream (stream : StreamId) : (world.dropStream stream).tokens = world.tokens := by
  unfold dropStream
  split
  · rfl
  · exact tokens_dropHandle ..

theorem tokens_readEvent (line : Line) : (world.readEvent line).2.tokens = world.tokens := by
  unfold readEvent
  split
  · rfl
  next handle _ =>
  unfold readFile
  rcases Machine.read handle.file LineEvent.recordSize world.machine with ⟨outcome, machine⟩
  cases outcome with
  | blocked => rfl
  | failed => rfl
  | bytes =>
      simp only
      split <;> rfl

theorem tokens_readEvents (line : Line) (limit : Nat) :
    (world.readEvents line limit).2.tokens = world.tokens := by
  unfold readEvents
  split
  · rfl
  next handle _ =>
  simp only
  split
  · rfl
  unfold readFile
  rcases Machine.read handle.file _ world.machine with ⟨outcome, machine⟩
  cases outcome with
  | blocked => rfl
  | failed => rfl
  | bytes =>
      simp only
      split <;> rfl

theorem tokens_openStream (line : Line) : (world.openStream line).2.tokens = world.tokens := by
  unfold openStream
  split
  · rfl
  · split <;> rfl

theorem tokens_nextEvent (stream : StreamId) :
    (world.nextEvent stream).2.tokens = world.tokens := by
  unfold nextEvent
  split
  · rfl
  next handle _ =>
  split
  · rfl
  unfold readFile
  rcases Machine.read handle.file LineEvent.recordSize world.machine with ⟨outcome, machine⟩
  cases outcome with
  | blocked => rfl
  | failed =>
      simp only
      split <;> rfl
  | bytes =>
      simp only
      split <;> rfl

theorem tokens_wait (group : Group) (token : Option TokenId) (timeout : Option Duration) :
    (world.wait group token timeout []).2.tokens = world.tokens := by
  obtain ⟨log, hwait⟩ := world.wait_alone group token timeout
  rw [hwait]

theorem tokens_updateAll (group : Group) : (world.updateAll group).tokens = world.tokens := by
  unfold updateAll
  generalize group.lines = lines
  induction lines generalizing world with
  | nil => rfl
  | cons line rest ih =>
      rw [List.foldl_cons, ih]
      unfold update
      rcases hrefresh : world.refresh line with ⟨outcome, after⟩
      have hafter := world.tokens_refresh line
      rw [hrefresh] at hafter
      cases outcome with
      | error error => exact hafter
      | ok told => exact hafter

omit [Machine σ] in
theorem tokens_detachAll (lines : List Line) :
    (world.detachAll lines).2.tokens = world.tokens := by
  induction lines generalizing world with
  | nil => rfl
  | cons line rest ih => exact ih

theorem tokens_dropHandles (ids : List HandleId) :
    (world.dropHandles ids).tokens = world.tokens := by
  induction ids generalizing world with
  | nil => rfl
  | cons id rest ih =>
      unfold dropHandles
      split
      · exact ih
      · exact ih.trans (world.tokens_dropHandle id)

theorem tokens_release (group : Group) : (world.release group).tokens = world.tokens := by
  have hdropped := (world.detachAll group.lines).2.tokens_dropHandles (world.detachAll group.lines).1
  have hdropped := hdropped.trans (world.tokens_detachAll group.lines)
  unfold release
  simp only
  split
  · exact hdropped
  · split
    · exact (tokens_updateAll group).trans hdropped
    · exact hdropped

end Tokens

end World

/-- What an operation makes of the tokens. -/
def Operation.tokens (tokens : List Bool) : Operation → List Bool
  | .newToken => tokens ++ [false]
  | .cancel token => tokens.set token true
  | _ => tokens

theorem Operation.tokens_run {world : World (Traced Bench)} {lent : List (Device × FileId)}
    (haccord : world.Accord lent) (hsound : Desk.Sound ⟨world, 0⟩) {operation : Operation}
    (hgroups : ∀ group ∈ operation.groups, group.WellFormed) :
    (operation.run world).2.tokens = operation.tokens world.tokens := by
  cases operation with
  | openChip device => exact World.tokens_openChipOn device
  | closeChip chip => exact World.tokens_closeChip chip
  | getLine chip offset => exact World.tokens_getLine chip offset
  | getLines chip offsets => exact World.tokens_getLinesInto chip .empty offsets
  | getAllLines chip => exact World.tokens_getLinesInto chip .empty _
  | findLine chip name => exact World.tokens_findLine chip name
  | onGroup operation group =>
      have hsize := (hgroups group (List.mem_singleton_self group)).size_le
      have hstays := operation.staysIn (World.fits_ownArea haccord group) hsound
        (world.admits_ownArea group) hsize
      exact hstays.confined.tokens
  | release group => exact World.tokens_release group
  | refresh line => exact World.tokens_refresh line
  | readEvent line => exact World.tokens_readEvent line
  | readEvents line limit => exact World.tokens_readEvents line limit
  | openStream line => exact World.tokens_openStream line
  | nextEvent stream => exact World.tokens_nextEvent stream
  | dropStream stream => exact World.tokens_dropStream stream
  | wait group token timeout => exact World.tokens_wait group token timeout
  | gather | append | single | newToken | cancel => rfl

/-! ### Histories -/

namespace Workshop

variable {workshop : Workshop}

theorem tokens_act (h : workshop.Sound) {act : Act} (hcan : workshop.Can act) :
    (workshop.act act).world.tokens = match act with
      | .operation operation => operation.tokens workshop.world.tokens
      | .deed _ => workshop.world.tokens := by
  cases act with
  | operation operation =>
      exact Operation.tokens_run h.accord h.client.desk fun group hgroup =>
        h.client.groups group (hcan.1 group hgroup)
  | deed deed =>
      obtain ⟨bench, more, log, hclient⟩ := (worked_work hcan).client_eq
      change (workshop.work deed).client.world.tokens = _
      rw [hclient]

theorem isCancelled_act (h : workshop.Sound) {act : Act} (hcan : workshop.Can act)
    (token : TokenId) : (workshop.act act).world.isCancelled token = true ↔
      workshop.world.isCancelled token = true ∨
        act = .operation (.cancel token) ∧ token < workshop.world.tokens.length := by
  have htokens := tokens_act h hcan
  unfold World.isCancelled
  rw [htokens]
  rcases act with operation | deed
  · cases operation with
    | newToken =>
        simp only [Operation.tokens, List.getElem?_append, Act.operation.injEq, reduceCtorEq,
          false_and, or_false]
        split
        · rfl
        · next hnew =>
          rw [List.getElem?_eq_none (Nat.not_lt.mp hnew)]
          rcases hplace : token - workshop.world.tokens.length with _ | place <;> simp
    | cancel cancelled =>
        simp only [Operation.tokens, List.getElem?_set, Act.operation.injEq, Operation.cancel.injEq]
        by_cases heq : cancelled = token
        · subst heq
          by_cases hlt : cancelled < workshop.world.tokens.length
          · simp [hlt]
          · simp [hlt]
        · simp [heq]
    | _ => simp [Operation.tokens]
  · simp

/-- In a run from here on the token is cancelled, some time after it was made. -/
def Cancels (workshop : Workshop) (script : List Act) (token : TokenId) : Prop :=
  ∃ earlier later, script = earlier ++ .operation (.cancel token) :: later ∧
    token < (workshop.actAll earlier).world.tokens.length

theorem not_cancels_nil {token : TokenId} : ¬ workshop.Cancels [] token := by
  rintro ⟨earlier, later, hscript, -⟩
  cases earlier <;> cases hscript

theorem cancels_cons {act : Act} {rest : List Act} {token : TokenId} :
    workshop.Cancels (act :: rest) token ↔
      act = .operation (.cancel token) ∧ token < workshop.world.tokens.length ∨
        (workshop.act act).Cancels rest token := by
  constructor
  · rintro ⟨earlier, later, hscript, hmade⟩
    cases earlier with
    | nil => exact Or.inl ⟨(List.cons.inj hscript).1, hmade⟩
    | cons first earlier =>
        obtain ⟨rfl, hrest⟩ := List.cons.inj hscript
        exact Or.inr ⟨earlier, later, hrest, hmade⟩
  · rintro (⟨rfl, hmade⟩ | ⟨earlier, later, rfl, hmade⟩)
    · exact ⟨[], rest, rfl, hmade⟩
    · exact ⟨act :: earlier, later, rfl, hmade⟩

/-- **A token is cancelled if and only if it was ever cancelled.** -/
theorem isCancelled_actAll {rule : Workshop → Act → Prop} (h : workshop.Sound) {script : List Act}
    (hcan : workshop.CanActAll rule script) (token : TokenId) :
    (workshop.actAll script).world.isCancelled token = true ↔
      workshop.world.isCancelled token = true ∨ workshop.Cancels script token := by
  induction script generalizing workshop with
  | nil => exact (or_iff_left not_cancels_nil).symm
  | cons act rest ih =>
      obtain ⟨hact, -, hrest⟩ := hcan
      calc ((workshop.act act).actAll rest).world.isCancelled token = true
          ↔ (workshop.act act).world.isCancelled token = true ∨
              (workshop.act act).Cancels rest token := ih (h.act hact) hrest
        _ ↔ (workshop.world.isCancelled token = true ∨ act = .operation (.cancel token) ∧
              token < workshop.world.tokens.length) ∨ (workshop.act act).Cancels rest token :=
            or_congr_left (isCancelled_act h hact token)
        _ ↔ workshop.world.isCancelled token = true ∨ workshop.Cancels (act :: rest) token := by
            rw [or_assoc, cancels_cons]

end Workshop

end GpioLines
