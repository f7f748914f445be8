import GpioLines.World.Events

/-!
# Waiting for events

A wait ends as soon as a line of the group has something to read, or its token is cancelled, or its
time is over. It consumes nothing: the lines it reports are those that a read would not keep waiting.

While a wait goes on, other parties act. Each of them acts at a moment of its own, as a function on
the world, and the wait looks again after each until its time is over. So that the files it looks at
stay open whatever the others do, a wait refers to the handles of its lines itself until it ends.
-/

namespace GpioLines

abbrev Duration := Nat

namespace Duration

def ofMicroseconds (count : Nat) : Duration := count * 1000

/-- The longest span that can be named: seconds that fill 64 bits, and almost another one. -/
def longest : Duration := 18446744073709551616000000000 - 1

/-- The clock counts seconds in a signed 64-bit word. A span that leads beyond the last of them has
no end, and waiting for it is waiting without a limit. -/
def hasEnd (span : Duration) : Bool := decide (span / 1000000000 < 9223372036854775808)

end Duration

structure Intervention (σ : Type) where
  /-- Counted from the start of the wait. -/
  moment : Duration
  act : World σ → World σ

namespace World

variable {σ : Type}

/-! ### Cancel tokens -/

/-- Makes a token, under the identity `world.tokens.length`. -/
def newToken (world : World σ) : World σ := { world with tokens := world.tokens ++ [false] }

/-- A token stays cancelled. -/
def cancel (world : World σ) (token : TokenId) : World σ :=
  { world with tokens := world.tokens.set token true }

def isCancelled (world : World σ) (token : TokenId) : Bool := (world.tokens[token]?).getD false

/-! ### Waits -/

def waitFile (world : World σ) (line : Line) : Except Error FileId := do
  let _ ← world.openChip line.chip
  match world.handle? line with
  | some (_, handle) =>
    if handle.kind = .events then .ok handle.file else .error (.invalid .notRequestedForEvents)
  | none => .error (.invalid .notRequestedForEvents)

def waitFiles (world : World σ) (group : Group) : Except Error (List (Line × FileId)) :=
  if group.lines.isEmpty then .error (.invalid .nothingToWaitOn)
  else group.lines.mapM fun line => (world.waitFile line).map (line, ·)

variable [Machine σ]

def readyAmong (world : World σ) (files : List (Line × FileId)) : Group :=
  ⟨(files.filter fun entry => Machine.readiness entry.2 world.machine != .idle).map (·.1)⟩

/-- Looks once. A cancelled token counts before anything there is to read. -/
def look (world : World σ) (files : List (Line × FileId)) (token : Option TokenId) :
    Except Error (Polled Group) :=
  if token.any world.isCancelled then .error .cancelled
  else
    let ready := world.readyAmong files
    if ready.lines.isEmpty then .ok .pending else .ok (.ready ready)

def actAll (world : World σ) (others : List (Intervention σ)) : World σ :=
  others.foldl (fun world other => other.act world) world

/-- Looks, lets the next of the others act, and looks again until the wait ends. The others come in
the order of their moments; those who have not acted by then are given back. A wait whose limit is
before the next moment ends with no lines. One without a limit stays pending once nobody else will
act. -/
def await (files : List (Line × FileId)) (token : Option TokenId) (limit : Option Duration)
    (world : World σ) : List (Intervention σ) →
      Except Error (Polled Group) × World σ × List (Intervention σ)
  | [] =>
    match world.look files token with
    | .error error => (.error error, world, [])
    | .ok (.ready group) => (.ok (.ready group), world.note (.ready group.size files.length), [])
    | .ok .pending => (.ok (if limit.isSome then .ready .empty else .pending), world, [])
  | other :: rest =>
    match world.look files token with
    | .error error => (.error error, world, other :: rest)
    | .ok (.ready group) =>
      (.ok (.ready group), world.note (.ready group.size files.length), other :: rest)
    | .ok .pending =>
      if limit.any (· < other.moment) then (.ok (.ready .empty), world, other :: rest)
      else await files token limit (other.act world) rest

/-- A wait refers to these handles from now on. -/
def retain (world : World σ) (held : List HandleId) : World σ :=
  { world with waiting := held ++ world.waiting }

/-- A wait refers to these handles no longer, so one that nobody else refers to closes. -/
def relinquish (world : World σ) (held : List HandleId) : World σ :=
  { world with waiting := held.foldl List.erase world.waiting }.dropHandles held

/-- Waits for the lines of a group. The others who have not acted when it ends act all the same. -/
def wait (world : World σ) (group : Group) (token : Option TokenId) (timeout : Option Duration)
    (others : List (Intervention σ)) : Except Error (Polled Group) × World σ :=
  match world.waitFiles group with
  | .error error => (.error error, world.actAll others)
  | .ok files =>
    let held := group.lines.filterMap fun line => (world.slot line).handle?
    let (outcome, world, rest) :=
      (world.retain held).await files token (timeout.filter Duration.hasEnd) others
    (outcome, (world.relinquish held).actAll rest)

end World

end GpioLines
