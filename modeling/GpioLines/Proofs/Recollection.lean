import GpioLines.Proofs.Granting
import GpioLines.Proofs.Histories

/-!
# What a handle recalls

Two things are told of every open handle for values. Its settings were accepted by the chip, so they
go together; and its values are those that its lines were last driven with. Neither is lost when the
lines are turned into inputs: the settings that only an output can have are dropped, and the values
are of no use until the lines are outputs again, but they stay.
-/

namespace GpioLines

/-! ### Settings that go together -/

/-- At most one drive and at most one bias. -/
structure Settings.Consistent (settings : Settings) : Prop where
  drives : settings.bothDrives = false
  biases : settings.biasCount ≤ 1

namespace Settings.Consistent

variable {settings : Settings}

theorem of_accepted {flags : HandleFlags} (h : Simulator.refuses flags = false) :
    flags.settings.Consistent := by
  simp only [Simulator.refuses, Bool.or_eq_false_iff, decide_eq_false_iff_not, Nat.not_lt] at h
  exact ⟨h.1.1.1.2, h.2⟩

theorem withoutDrive (h : settings.Consistent) : settings.withoutDrive.Consistent := ⟨rfl, h.biases⟩

theorem validate (h : settings.Consistent) : RequestFlags.validate { settings } = .ok () := by
  rw [RequestFlags.validate, if_neg (by simp [h.drives]), if_neg (Nat.not_lt.mpr h.biases)]

theorem of_validate {flags : RequestFlags} (h : flags.validate = .ok ()) :
    flags.settings.Consistent := by
  rw [RequestFlags.validate] at h
  split at h
  · cases h
  next hdrives =>
  split at h
  · cases h
  next hbiases => exact ⟨eq_false_of_ne_true hdrives, Nat.not_lt.mp hbiases⟩

theorem accepted_output (h : settings.Consistent) :
    Simulator.refuses (RequestFlags.handleFlags { settings } .output) = false :=
  (Simulator.refuses_handleFlags h.drives h.biases).mpr ⟨fun _ => rfl, fun _ => nofun⟩

theorem accepted_input (h : settings.Consistent) :
    Simulator.refuses (RequestFlags.handleFlags { settings := settings.withoutDrive } .input) =
      false :=
  (Simulator.refuses_handleFlags h.withoutDrive.drives h.withoutDrive.biases).mpr
    ⟨fun hdrive => absurd hdrive Bool.false_ne_true, fun _ => nofun⟩

end Settings.Consistent

/-- The settings of a values handle. -/
def Handle.Settled (_ : List Exchange) (handle : Handle) : Prop :=
  handle.kind = .values → handle.flags.settings.Consistent

theorem Handle.tale_settled : Tale Settled where
  silent := fun _ h => h
  fate := by
    intro before after id handle hfate hsim htold hkind
    obtain ⟨index, hindex⟩ := Option.ne_none_iff_exists'.mp hsim
    cases hfate with
    | kept found => exact htold handle found (.refl handle) hkind
    | taken _ _ _ _ hflags _ told =>
        obtain ⟨sim, given, changed, -, hperform, -⟩ := Bench.answered_ok told hindex
        have hgranted := Simulator.requestLines_eq_ok (Simulator.settle_eq_ok.mp hperform).2
        exact hflags ▸ .of_accepted hgranted.2.1
    | listened _ hevents => exact nomatch hevents.symm.trans hkind
    | @driven old _ found => exact htold old found ⟨rfl, rfl, rfl, rfl⟩ hkind
    | configured found _ _ told =>
        obtain ⟨sim, given, changed, -, hperform, -⟩ := Bench.answered_ok told hindex
        have hset := Simulator.setConfig_eq_ok (Simulator.settle_eq_ok.mp hperform).2
        exact .of_accepted hset.1

/-! ### Values that were driven -/

/-- What the lines of a file are driven with, after one more exchange. A file that is newly granted
has driven nothing yet, unless the request was for outputs. -/
def Exchange.drive (device : Device) (file : FileId) (last : Option (List UInt8)) :
    Exchange → Option (List UInt8)
  | .call party (.requestLines request) (.ok granted) =>
    if party = device ∧ granted = file then
      (if request.flags.output then some request.values else none)
    else last
  | .call party (.setValues written values) (.ok _) =>
    if party = device ∧ written = file then some values else last
  | .call party (.setConfig written flags values) (.ok _) =>
    if party = device ∧ written = file ∧ flags.output then some values else last
  | _ => last

/-- The values that the lines of a file were last driven with. -/
def lastDriven (device : Device) (file : FileId) (trace : List Exchange) : Option (List UInt8) :=
  trace.foldl (Exchange.drive device file) none

variable {device : Device} {file : FileId} {trace later : List Exchange}

theorem Exchange.drive_of_not_settles {exchange : Exchange} (h : ¬ exchange.Settles device file)
    (last : Option (List UInt8)) : exchange.drive device file last = last := by
  cases exchange with
  | release => rfl
  | call party call outcome =>
      cases call <;> cases outcome
      case requestLines.ok | setValues.ok => exact if_neg h
      case setConfig.ok => exact if_neg fun hboth => h ⟨hboth.1, hboth.2.1⟩
      all_goals rfl

theorem Silent.lastDriven (h : Silent device file trace later) :
    lastDriven device file later = lastDriven device file trace :=
  h.foldl (fun _ hsilent last => Exchange.drive_of_not_settles hsilent last) none

theorem lastDriven_append (exchange : Exchange) : lastDriven device file (trace ++ [exchange]) =
    exchange.drive device file (lastDriven device file trace) := by
  rw [lastDriven, List.foldl_append]
  rfl

/-- A values handle has the values that its lines were last driven with, if they ever were. -/
def Handle.Recalls (trace : List Exchange) (handle : Handle) : Prop :=
  handle.kind = .values → ∀ values, lastDriven handle.device handle.file trace = some values →
    handle.values = values

theorem Handle.tale_recalls : Tale Recalls where
  silent := by
    intro trace later handle hsilent h hkind values hlast
    rw [hsilent.lastDriven] at hlast
    exact h hkind values hlast
  fate := by
    intro before after id handle hfate hsim htold hkind values hlast
    cases hfate with
    | kept found silent =>
        rw [silent.lastDriven] at hlast
        exact htold handle found (.refl handle) hkind values hlast
    | @taken request _ _ _ _ _ _ hvalues _ htrace =>
        rw [htrace, lastDriven_append, Exchange.drive, if_pos ⟨rfl, rfl⟩] at hlast
        split at hlast
        · exact hvalues.trans (Option.some.inj hlast)
        · cases hlast
    | listened _ hevents => exact nomatch hevents.symm.trans hkind
    | @driven old written found _ _ _ htrace =>
        change GpioLines.lastDriven old.device old.file after.trace = some values at hlast
        rw [htrace, lastDriven_append, Exchange.drive, if_pos ⟨rfl, rfl⟩] at hlast
        exact Option.some.inj hlast
    | @configured old flags written found _ _ _ htrace =>
        change GpioLines.lastDriven old.device old.file after.trace = some values at hlast
        rw [htrace, lastDriven_append, Exchange.drive] at hlast
        by_cases houtput : flags.output = true
        · rw [if_pos ⟨rfl, rfl, houtput⟩] at hlast
          rw [Handle.configured, ← Option.some.inj hlast]
          exact if_pos houtput
        · rw [if_neg fun hboth => houtput hboth.2.2] at hlast
          have hold := htold old found ⟨rfl, rfl, rfl, rfl⟩ hkind values hlast
          rw [Handle.configured, ← hold]
          exact if_neg houtput

end GpioLines
