import Mathlib.Algebra.GroupWithZero.Nat
import Mathlib.Data.Multiset.Filter
import GpioLines.Handle
import GpioLines.Machine

/-!
# The protocol of the device boundary

A device that grants a request lends a file. The lease starts with the grant and ends with the
release, and in between the file may be read, driven and reconfigured, always for all lines of the
request at once. What makes a sequence of calls lawful is said here once, about the calls alone: the
library does not occur.

A device may hand out one number twice, as far as anything is assumed of it. So the leases that run
are counted, and a release ends one of them.
-/

namespace GpioLines

/-- The values that may cross the boundary towards a device. -/
def IsBit (value : UInt8) : Prop := value = 0 ∨ value = 1

theorem isBit_normalize (value : UInt8) : IsBit (normalize value) := by
  unfold normalize ofActive
  split
  · exact Or.inr rfl
  · exact Or.inl rfl

theorem IsBit.normalize_eq {value : UInt8} (h : IsBit value) : normalize value = value := by
  rcases h with rfl | rfl <;> rfl

/-- A file on loan: who granted it, and for how many lines. -/
structure Lease where
  device : Device
  file : FileId
  size : Nat
deriving DecidableEq

def Handle.lease (handle : Handle) : Lease := ⟨handle.device, handle.file, handle.offsets.length⟩

namespace Call

/-- The call is in order while these leases run. -/
def Permitted (device : Device) (leases : Multiset Lease) : Call → Prop
  | .chipInfo | .lineInfo _ | .requestEvent _ => True
  | .requestLines request => ∀ value ∈ request.values, IsBit value
  | .getValues file buffer => ⟨device, file, buffer.length⟩ ∈ leases
  | .setValues file values | .setConfig file _ values =>
    ⟨device, file, values.length⟩ ∈ leases ∧ ∀ value ∈ values, IsBit value

/-- The leases that start with the answer to a call. -/
def granted (device : Device) : (call : Call) → Outcome call → Multiset Lease
  | .requestLines request, .ok file => {⟨device, file, request.offsets.length⟩}
  | .requestEvent _, .ok file => {⟨device, file, 1⟩}
  | _, _ => 0

@[simp] theorem granted_error (device : Device) (call : Call) (error : Error) :
    granted device call (.error error) = 0 := by
  cases call <;> rfl

end Call

inductive Exchange where
  | call (device : Device) (call : Call) (outcome : Outcome call)
  | release (device : Device) (file : FileId)

/-- The exchanges were in order one by one, and these leases run at the end of them. -/
inductive Lawful : List Exchange → Multiset Lease → Prop
  | start : Lawful [] 0
  | call {trace : List Exchange} {leases : Multiset Lease} {device : Device} {call : Call}
      (outcome : Outcome call) (before : Lawful trace leases)
      (permitted : call.Permitted device leases) :
      Lawful (trace ++ [.call device call outcome]) (leases + call.granted device outcome)
  | release {trace : List Exchange} {leases : Multiset Lease} {lease : Lease}
      (before : Lawful trace leases) (runs : lease ∈ leases) :
      Lawful (trace ++ [.release lease.device lease.file]) (leases.erase lease)

/-- What an exchange needs of the leases that run when it happens. -/
def Exchange.InOrder (leases : Multiset Lease) : Exchange → Prop
  | .call device asked _ => asked.Permitted device leases
  | .release device file => ∃ lease ∈ leases, lease.device = device ∧ lease.file = file

def Exchange.grants (device : Device) (file : FileId) : Exchange → Nat
  | .call granter asked outcome =>
    ((asked.granted granter outcome).map fun lease => (lease.device, lease.file)).count (device, file)
  | .release .. => 0

def Exchange.releases (device : Device) (file : FileId) : Exchange → Nat
  | .call .. => 0
  | .release holder released => if (holder, released) = (device, file) then 1 else 0

/-- A machine together with what has passed between it and the library so far. -/
structure Traced (σ : Type) where
  machine : σ
  trace : List Exchange := []

namespace Traced

variable {σ : Type}

/-- The machine changes and nothing passes between it and the library. -/
def withMachine (traced : Traced σ) (machine : σ) : Traced σ := { traced with machine }

/-- Calls and releases are written down; whatever else is done passes unseen. -/
instance [Machine σ] : Machine (Traced σ) where
  perform device call traced :=
    let (outcome, machine) := Machine.perform device call traced.machine
    (outcome, { machine, trace := traced.trace ++ [.call device call outcome] })
  release device file traced :=
    { machine := Machine.release device file traced.machine
      trace := traced.trace ++ [.release device file] }
  read file size traced :=
    let (outcome, machine) := Machine.read file size traced.machine
    (outcome, traced.withMachine machine)
  readiness file traced := Machine.readiness file traced.machine
  watch file traced :=
    let (outcome, machine) := Machine.watch file traced.machine
    (outcome, traced.withMachine machine)
  unwatch file traced := traced.withMachine (Machine.unwatch file traced.machine)

/-- The machine changes by itself, and nothing passes between it and the library. -/
def Unseen (before after : Traced σ) : Prop := after.trace = before.trace

end Traced

end GpioLines
