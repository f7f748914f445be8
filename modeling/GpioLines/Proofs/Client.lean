import GpioLines.Proofs.Returning
import GpioLines.World.Reconfigure

/-!
# Clients

A client of the library calls operations in any order, with the lines and groups that earlier
operations gave it, on any number of chips. In between the machine may change by itself, as far as
`env` lets it. Everything a client can come to see is a reachable state of this system.
-/

namespace GpioLines

/-! ### Operations -/

inductive GroupOperation where
  | request (config : RequestConfig) (defaults : Option (List UInt8))
  | getValues
  | setValues (values : List UInt8)
  | setConfig (type : RequestType) (flags : RequestFlags) (values : Option (List UInt8))
  | setFlags (flags : RequestFlags)
  | setDirectionInput
  | setDirectionOutput (values : List UInt8)

inductive Operation where
  | openChip (device : Device)
  | closeChip (chip : ChipId)
  | getLine (chip : ChipId) (offset : Offset)
  | getLines (chip : ChipId) (offsets : List Offset)
  | getAllLines (chip : ChipId)
  | findLine (chip : ChipId) (name : String)
  | gather (lines : List Line)
  | append (group : Group) (line : Line)
  | single (line : Line)
  | onGroup (operation : GroupOperation) (group : Group)
  | release (group : Group)
  | refresh (line : Line)
  | readEvent (line : Line)
  | readEvents (line : Line) (limit : Nat)
  | openStream (line : Line)
  | nextEvent (stream : StreamId)
  | dropStream (stream : StreamId)
  | newToken
  | cancel (token : TokenId)
  | wait (group : Group) (token : Option TokenId) (timeout : Option Duration)

namespace Operation

def groups : Operation → List Group
  | .append group _ | .onGroup _ group | .release group | .wait group _ _ => [group]
  | _ => []

def lines : Operation → List Line
  | .gather lines => lines
  | .append _ line | .single line | .refresh line | .readEvent line | .readEvents line _
  | .openStream line => [line]
  | _ => []

end Operation

variable {σ : Type} [Machine σ]

/-- Whether the operation succeeded, and the world it leaves behind. -/
def GroupOperation.run (group : Group) (world : World σ) :
    GroupOperation → Except Error Unit × World σ
  | .request config defaults => world.request group config defaults
  | .getValues =>
    let (outcome, world) := world.getValues group
    (outcome.map fun _ => (), world)
  | .setValues values => world.setValues group values
  | .setConfig type flags values => world.setConfig group type flags values
  | .setFlags flags => world.setFlags group flags
  | .setDirectionInput => world.setDirectionInput group
  | .setDirectionOutput values => world.setDirectionOutput group values

/-- The groups that an operation gives, and the world it leaves behind. -/
def Operation.run (world : World σ) : Operation → List Group × World σ
  | .openChip device => ([], (world.openChipOn device).2)
  | .closeChip chip => ([], world.closeChip chip)
  | .getLine chip offset =>
    let (outcome, world) := world.getLine chip offset
    (outcome.toOption.toList.map .single, world)
  | .getLines chip offsets =>
    let (outcome, world) := world.getLines chip offsets
    (outcome.toOption.toList, world)
  | .getAllLines chip =>
    let (outcome, world) := world.getAllLines chip
    (outcome.toOption.toList, world)
  | .findLine chip name => ([], (world.findLine chip name).2)
  | .gather lines => ((world.groupOf lines).toOption.toList, world)
  | .append group line => ((world.append group line).toOption.toList, world)
  | .single line => ([.single line], world)
  | .onGroup operation group => ([], (operation.run group world).2)
  | .release group => ([], world.release group)
  | .refresh line => ([], (world.refresh line).2)
  | .readEvent line => ([], (world.readEvent line).2)
  | .readEvents line limit => ([], (world.readEvents line limit).2)
  | .openStream line => ([], (world.openStream line).2)
  | .nextEvent stream => ([], (world.nextEvent stream).2)
  | .dropStream stream => ([], world.dropStream stream)
  | .newToken => ([], world.newToken)
  | .cancel token => ([], world.cancel token)
  | .wait group token timeout =>
    let (outcome, world) := world.wait group token timeout []
    (match outcome with
      | .ok (.ready group) => [group]
      | _ => [], world)

/-! ### Runs -/

/-- A world, and the groups that a client of it was given so far. -/
structure Client (σ : Type) where
  world : World σ
  groups : List Group := []

namespace Client

def start (machine : σ) : Client σ := { world := { machine } }

/-- The client was given this line, alone or in a group. -/
def Knows (client : Client σ) (line : Line) : Prop := ∃ group ∈ client.groups, line ∈ group.lines

def CanCall (client : Client σ) (operation : Operation) : Prop :=
  (∀ group ∈ operation.groups, group ∈ client.groups) ∧ ∀ line ∈ operation.lines, client.Knows line

instance (client : Client σ) (operation : Operation) : Decidable (client.CanCall operation) :=
  inferInstanceAs (Decidable ((∀ group ∈ operation.groups, group ∈ client.groups) ∧
    ∀ line ∈ operation.lines, ∃ group ∈ client.groups, line ∈ group.lines))

def call (client : Client σ) (operation : Operation) : Client σ :=
  let (given, world) := operation.run client.world
  ⟨world, client.groups ++ given⟩

def withMachine (client : Client σ) (machine : σ) : Client σ :=
  { client with world := { client.world with machine } }

inductive Step (env : σ → σ → Prop) : Client σ → Client σ → Prop
  | call {client : Client σ} {operation : Operation} (can : client.CanCall operation) :
      Step env client (client.call operation)
  | outside {client : Client σ} {machine : σ} (change : env client.world.machine machine) :
      Step env client (client.withMachine machine)

abbrev Run (env : σ → σ → Prop) (before after : Client σ) : Prop :=
  Relation.ReflTransGen (Step env) before after

def Reachable (env : σ → σ → Prop) (client : Client σ) : Prop :=
  ∃ machine, Run env (start machine) client

/-! ### Scripts -/

def callAll (client : Client σ) (script : List Operation) : Client σ := script.foldl call client

def CanCallAll (client : Client σ) : List Operation → Prop
  | [] => True
  | operation :: rest => client.CanCall operation ∧ (client.call operation).CanCallAll rest

instance decidableCanCallAll (client : Client σ) :
    (script : List Operation) → Decidable (client.CanCallAll script)
  | [] => instDecidableTrue
  | operation :: rest =>
    have := decidableCanCallAll (client.call operation) rest
    inferInstanceAs (Decidable (_ ∧ _))

theorem run_callAll {env : σ → σ → Prop} {client : Client σ} {script : List Operation}
    (hcan : client.CanCallAll script) : Run env client (client.callAll script) := by
  induction script generalizing client with
  | nil => exact .refl
  | cons operation rest ih => exact .head (.call hcan.1) (ih hcan.2)

end Client

end GpioLines
