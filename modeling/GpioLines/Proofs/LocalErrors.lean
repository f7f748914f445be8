import GpioLines.Proofs.Groups

/-!
# Errors of the library itself

Of the errors an operation on a group ends with, five kinds are raised by the library, before it
asks any device. All checks and plans fail with one of these five only.
-/

namespace GpioLines

/-- The library raises errors of this kind by itself. -/
def Error.isLocal : Error → Bool
  | .invalidArgument _ | .crossChip | .busy _ | .permissionDenied _ | .invalid _ => true
  | _ => false

/-- If this fails, then with an error of this kind. -/
def FailsAs {α : Type} (kind : Error → Prop) (outcome : Except Error α) : Prop :=
  ∀ error, outcome = .error error → kind error

namespace FailsAs

variable {α β : Type} {kind : Error → Prop}

theorem ok (value : α) : FailsAs kind (.ok value) := nofun

theorem error {error : Error} (h : kind error) : FailsAs kind (.error error : Except Error α) := by
  intro found hfound
  rw [← Except.error.inj hfound]
  exact h

theorem of_eq_ok {outcome : Except Error α} (h : ∃ value, outcome = .ok value) :
    FailsAs kind outcome := by
  obtain ⟨value, rfl⟩ := h
  exact ok value

theorem bind {x : Except Error α} {f : α → Except Error β} (hx : FailsAs kind x)
    (hf : ∀ value, x = .ok value → FailsAs kind (f value)) : FailsAs kind (x >>= f) := by
  intro error herror
  rcases bind_eq_error.mp herror with herror | ⟨value, hvalue, herror⟩
  · exact hx error herror
  · exact hf value hvalue error herror

theorem map {x : Except Error α} (hx : FailsAs kind x) (f : α → β) : FailsAs kind (x.map f) := by
  cases x with
  | error error => exact .error (hx error rfl)
  | ok value => exact ok _

theorem mapM {f : α → Except Error β} (hf : ∀ item, FailsAs kind (f item)) (items : List α) :
    FailsAs kind (items.mapM f) := by
  induction items with
  | nil => exact ok []
  | cons item rest ih =>
      rw [List.mapM_cons]
      exact bind (hf item) fun _ _ => bind ih fun _ _ => ok _

theorem foldlM {f : β → α → Except Error β} (hf : ∀ start item, FailsAs kind (f start item))
    (start : β) (items : List α) : FailsAs kind (items.foldlM f start) := by
  induction items generalizing start with
  | nil => exact ok start
  | cons item rest ih =>
      rw [List.foldlM_cons]
      exact bind (hf start item) fun next _ => ih next

end FailsAs

/-- If this fails, then with an error of the library itself. -/
abbrev FailsLocally {α : Type} (outcome : Except Error α) : Prop := FailsAs (·.isLocal = true) outcome

/-! ### Groups, flags and values -/

theorem Group.checkCount_failsLocally (group : Group) (values : List UInt8) :
    FailsLocally (group.checkCount values) := by
  unfold checkCount
  split
  · exact .ok ()
  · exact .error rfl

theorem Group.checkCount?_failsLocally (group : Group) (values : Option (List UInt8)) :
    FailsLocally (group.checkCount? values) := by
  cases values with
  | none => exact .ok ()
  | some values => exact group.checkCount_failsLocally values

theorem RequestFlags.validate_failsLocally (flags : RequestFlags) :
    FailsLocally flags.validate := by
  unfold validate
  split
  · exact .error rfl
  · split
    · exact .error rfl
    · exact .ok ()

theorem Group.inRequestOrder_failsLocally (group : Group) (handle : Handle)
    (values : List UInt8) : FailsLocally (group.inRequestOrder handle values) := by
  refine .foldlM (fun ordered entry => ?_) _ _
  obtain ⟨offset, value⟩ := entry
  simp only
  split
  · exact .ok _
  · exact .error rfl

namespace World

variable {σ : Type} (world : World σ)

/-! ### Checks -/

theorem openChip_failsLocally (id : ChipId) : FailsLocally (world.openChip id) := by
  intro error herror
  rw [openChip_eq_error herror]
  rfl

theorem chipOf_failsLocally (group : Group) : FailsLocally (world.chipOf group) := by
  unfold chipOf
  split
  · exact .error rfl
  · refine .bind (world.openChip_failsLocally _) fun chip _ => ?_
    split
    · exact .error rfl
    · exact .ok chip

theorem handlesOf_failsLocally (group : Group) : FailsLocally (world.handlesOf group) := by
  refine .bind (world.chipOf_failsLocally group) fun _ _ => .mapM (fun line => ?_) _
  unfold handleOf
  split
  · exact .ok _
  · exact .error rfl

theorem valuesHandle_failsLocally (group : Group) : FailsLocally (world.valuesHandle group) := by
  refine .bind (world.handlesOf_failsLocally group) fun held _ => ?_
  split
  · exact .error rfl
  · split
    · exact .error rfl
    · split
      · exact .error rfl
      · split
        · exact .error rfl
        · exact .ok _

theorem checkRequest_failsLocally (group : Group) (config : RequestConfig)
    (defaults : Option (List UInt8)) : FailsLocally (world.checkRequest group config defaults) :=
  .bind (world.chipOf_failsLocally group) fun _ _ =>
    .bind config.flags.validate_failsLocally fun _ _ => group.checkCount?_failsLocally defaults

theorem checkTakeable_failsLocally (group : Group) : FailsLocally (world.checkTakeable group) := by
  refine .bind (world.chipOf_failsLocally group) fun chip _ => ?_
  split
  · exact .error rfl
  · exact .ok chip

/-! ### Plans -/

theorem planValues_failsLocally (group : Group) (values : List UInt8) :
    FailsLocally (world.planValues group values) :=
  .bind (group.checkCount_failsLocally values) fun _ _ =>
    .bind (world.valuesHandle_failsLocally group) fun _ _ =>
      .bind (group.inRequestOrder_failsLocally _ values) fun _ _ => .ok _

theorem checkConfig_failsLocally (group : Group) (type : RequestType) (flags : RequestFlags)
    (values : Option (List UInt8)) : FailsLocally (checkConfig group type flags values) := by
  unfold checkConfig
  split
  · exact .error rfl
  · exact .bind flags.validate_failsLocally fun _ _ => group.checkCount?_failsLocally values

theorem planConfig_failsLocally (group : Group) (type : RequestType) (flags : RequestFlags)
    (values : Option (List UInt8)) : FailsLocally (world.planConfig group type flags values) := by
  refine .bind (world.chipOf_failsLocally group) fun _ _ =>
    .bind (world.valuesHandle_failsLocally group) fun held _ => ?_
  simp only
  split
  · split
    · exact .bind (group.inRequestOrder_failsLocally _ _) fun _ _ => .ok _
    · exact .ok _
  · exact .ok _

end World

end GpioLines
