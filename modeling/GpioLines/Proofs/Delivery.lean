import GpioLines.Proofs.Attention
import GpioLines.Proofs.Sharing
import GpioLines.Proofs.Subscribing

/-!
# Every edge is delivered once

Whatever is done in a workshop after a line was requested for events, by the library, past it and from
outside: the events that were received through the handle and those that wait in its file are together
the changes of the line that were subscribed to, each of them once, in order, and stamped with its
place among all changes of the chip. One step moves events from the changes to the file or from the
file to the reader, and the rest is induction on the script.
-/

namespace GpioLines

namespace Feed

/-- The event of the change that has this number on its chip, if the feed is told of it. -/
def event? (feed : Feed) (numbered : Change × Nat) : Option LineEvent :=
  feed.report? (Simulator.eventInterval * UInt64.ofNat numbered.2) numbered.1

/-- The events are the changes that the feed subscribes to: each once, in order, rising if the line is
active after it, and with a time that tells its number. -/
structure Told (feed : Feed) (numbered : List (Change × Nat)) (events : List LineEvent) : Prop where
  each : events.map (fun event => (event.timestamp.toNat, event.edge)) =
    (numbered.filter (feed.concerns ·.1)).map
      fun (change, number) => (1500000000 * number, feed.edge change)
  increasing : events.Pairwise (·.timestamp < ·.timestamp)
  seconds : ∀ event ∈ events,
    event.seconds * 1000000000 + event.nanoseconds = event.timestamp.toNat

theorem event?_timestamp {feed : Feed} {numbered : Change × Nat} {event : LineEvent}
    (h : feed.event? numbered = some event) :
    event.timestamp = Simulator.eventInterval * UInt64.ofNat numbered.2 := by
  rw [event?, report?] at h
  split at h
  · rw [← Option.some.inj h]
  · cases h

theorem told_filterMap (feed : Feed) {numbered : List (Change × Nat)}
    (hbound : ∀ entry ∈ numbered, 1500000000 * entry.2 < 2 ^ 64)
    (hordered : numbered.Pairwise (·.2 < ·.2)) : feed.Told numbered (numbered.filterMap feed.event?) := by
  have htime : ∀ entry ∈ numbered,
      (Simulator.eventInterval * UInt64.ofNat entry.2).toNat = 1500000000 * entry.2 := by
    intro entry hentry
    have hlt := hbound entry hentry
    rw [UInt64.toNat_mul, UInt64.toNat_ofNat']
    change 1500000000 * (entry.2 % 2 ^ 64) % 2 ^ 64 = _
    omega
  refine ⟨?_, ?_, fun event _ => ?_⟩
  · rw [List.map_filterMap, ← List.filterMap_eq_map, List.filterMap_filter]
    refine List.filterMap_congr fun entry hentry => ?_
    rw [event?, report?]
    split
    · rw [Option.map_some, htime entry hentry]
      rfl
    · rfl
  · refine List.pairwise_filterMap.mpr (hordered.imp_of_mem fun {a b} ha hb hlt => ?_)
    intro first hfirst second hsecond
    rw [UInt64.lt_iff_toNat_lt, event?_timestamp hfirst, event?_timestamp hsecond, htime a ha,
      htime b hb]
    omega
  · rw [LineEvent.seconds, LineEvent.nanoseconds, Nat.mul_comm]
    exact Nat.div_add_mod ..

end Feed

namespace Workshop

variable {workshop : Workshop} {feed : Feed} {id : HandleId} {pending : List LineEvent}

/-! ### A whole script -/

/-- What a feed is told of along a script. -/
def reportsAll (feed : Feed) (workshop : Workshop) : List Act → List LineEvent
  | [] => []
  | act :: rest => workshop.reports feed act ++ (workshop.act act).reportsAll feed rest

/-- The events that are returned along a script to those who read them through this handle. -/
def receivesAll (id : HandleId) (workshop : Workshop) : List Act → List LineEvent
  | [] => []
  | act :: rest => workshop.receives id act ++ (workshop.act act).receivesAll id rest

theorem canActAll_append {rule : Workshop → Act → Prop} {script others : List Act} :
    workshop.CanActAll rule (script ++ others) ↔
      workshop.CanActAll rule script ∧ (workshop.actAll script).CanActAll rule others := by
  induction script generalizing workshop with
  | nil => exact (iff_of_eq (true_and _)).symm
  | cons act rest ih =>
      rw [List.cons_append, CanActAll, CanActAll, ih, and_assoc, and_assoc]
      rfl

theorem trace_actAll {rule : Workshop → Act → Prop} (h : workshop.Sound) {script : List Act}
    (hcan : workshop.CanActAll rule script) :
    workshop.world.trace ⊆ (workshop.actAll script).world.trace := by
  induction script generalizing workshop with
  | nil => exact List.Subset.refl _
  | cons act rest ih =>
      exact List.Subset.trans (trace_act h hcan.1) (ih (h.act hcan.1) hcan.2.2)

/-- What was pending and what was reported are what was received and what is pending. -/
theorem hears_actAll (h : workshop.Sound) {script : List Act}
    (hcan : workshop.CanActAll (Untampered feed.index feed.offset) script)
    (hunclaimed : Unclaimed feed.file (workshop.actAll script).world.trace)
    (hears : workshop.world.Hears feed id workshop.outside (pending.flatMap LineEvent.record)) :
    ∃ rest, pending ++ workshop.reportsAll feed script = workshop.receivesAll id script ++ rest ∧
      (workshop.actAll script).world.Hears feed id (workshop.actAll script).outside
        (rest.flatMap LineEvent.record) := by
  induction script generalizing workshop pending with
  | nil => exact ⟨pending, List.append_nil pending, hears⟩
  | cons act others ih =>
      have hearlier := hunclaimed.mono (trace_actAll h hcan)
      obtain ⟨mid, hmid, hears⟩ := hears_act h hcan.1 hcan.2.1 hearlier hears
      obtain ⟨rest, hrest, hears⟩ := ih (h.act hcan.1) hcan.2.2 hunclaimed hears
      refine ⟨rest, ?_, hears⟩
      calc pending ++ workshop.reportsAll feed (act :: others)
          = (pending ++ workshop.reports feed act) ++ (workshop.act act).reportsAll feed others :=
            (List.append_assoc ..).symm
        _ = workshop.receives id act ++ (mid ++ (workshop.act act).reportsAll feed others) := by
            rw [hmid, List.append_assoc]
        _ = workshop.receivesAll id (act :: others) ++ rest := by
            rw [hrest, receivesAll, List.append_assoc]

/-- The reports along a script are those of its changes, numbered on from those before it. -/
theorem reportsAll_eq {rule : Workshop → Act → Prop} (h : workshop.Sound) {script : List Act}
    (hcan : workshop.CanActAll rule script) {before : Nat}
    (hclock : workshop.world.bench.clock feed.index =
      Simulator.eventInterval * UInt64.ofNat before) :
    workshop.reportsAll feed script =
      ((workshop.changes feed.index script).zipIdx (before + 1)).filterMap feed.event? := by
  induction script generalizing workshop before with
  | nil => rfl
  | cons act rest ih =>
      have hafter := clock_act h hcan.1 feed.index
      rw [hclock] at hafter
      rw [reportsAll, changes, reports, hclock]
      cases hchange : workshop.change? feed.index act with
      | none =>
          rw [hchange, if_neg (by simp), UInt64.add_zero] at hafter
          rw [ih (h.act hcan.1) hcan.2.2 hafter]
          rfl
      | some change =>
          have hnext : Simulator.eventInterval * UInt64.ofNat before + Simulator.eventInterval =
              Simulator.eventInterval * UInt64.ofNat (before + 1) := by
            rw [UInt64.ofNat_add, UInt64.mul_add]
            exact congrArg _ (UInt64.mul_one _).symm
          rw [hchange, Option.isSome_some, if_pos rfl, hnext] at hafter
          rw [ih (h.act hcan.1) hcan.2.2 hafter, hnext, Option.bind_some, Option.toList_some,
            List.singleton_append, List.zipIdx_cons, List.filterMap_cons, Feed.event?]
          cases feed.report? (Simulator.eventInterval * UInt64.ofNat (before + 1)) change <;> rfl

end Workshop

/-! ### From the request on -/

/-- A run in which lines are requested for events. -/
structure Watch where
  earlier : List Act
  group : Group
  config : RequestConfig
  defaults : Option (List UInt8) := none
  later : List Act

namespace Watch

def request (watch : Watch) : Act :=
  .operation (.onGroup (.request watch.config watch.defaults) watch.group)

def before (watch : Watch) : Workshop := ({} : Workshop).actAll watch.earlier

def requested (watch : Watch) : Workshop := watch.before.act watch.request

def final (watch : Watch) : Workshop := watch.requested.actAll watch.later

/-- What the request of a line subscribes to. -/
def feed (watch : Watch) (index : Nat) (offset : Offset) (file : FileId) : Feed :=
  ⟨index, offset, file, watch.config.type.edges, watch.config.flags.settings.activeLow⟩

/-- How often the levels of a chip were changed up to the request. -/
def changesBefore (watch : Watch) (index : Nat) : Nat :=
  (({} : Workshop).changes index (watch.earlier ++ [watch.request])).length

/-- The changes of a chip after the request, numbered among all changes of the chip. -/
def numbered (watch : Watch) (index : Nat) : List (Change × Nat) :=
  (watch.requested.changes index watch.later).zipIdx (watch.changesBefore index + 1)

theorem requested_eq (watch : Watch) :
    ({} : Workshop).actAll (watch.earlier ++ [watch.request]) = watch.requested := by
  rw [Workshop.actAll, List.foldl_append]
  rfl

theorem pairwise_numbered (watch : Watch) (index : Nat) :
    (watch.numbered index).Pairwise (·.2 < ·.2) := by
  have hrange : ((watch.numbered index).map (·.2)).Pairwise (· < ·) := by
    rw [numbered, List.zipIdx_map_snd]
    exact List.pairwise_lt_range'
  exact List.pairwise_map.mp hrange

/-- **Every edge is delivered once**, as long as the handle of its line is open and nothing is
injected. -/
theorem delivered_once (watch : Watch) {index : Nat} {line : Line} {id : HandleId} {handle : Handle}
    (hearlier : ({} : Workshop).CanActAll Workshop.Unruled (watch.earlier ++ [watch.request]))
    (hlater : watch.requested.CanActAll (Workshop.Untampered index line.offset) watch.later)
    (hevents : watch.config.type.isEvent = true)
    (hgranted : (watch.before.world.request watch.group watch.config watch.defaults).1 = .ok ())
    (hmem : line ∈ watch.group.lines) (hover : watch.before.world.IsOver line index)
    (hheld : watch.requested.world.handle? line = some (id, handle))
    (hopen : (watch.final.world.handles.get? id).isSome)
    (hunclaimed : Unclaimed handle.file watch.final.world.trace)
    (hbound : 1500000000 * (watch.changesBefore index +
      (watch.requested.changes index watch.later).length) < 2 ^ 64) :
    ∃ pending opened, watch.final.world.bench.files.get? handle.file = some opened ∧
      opened.source = .socket (List.flatMap LineEvent.record pending) true ∧
      (watch.feed index line.offset handle.file).Told (watch.numbered index)
        (watch.requested.receivesAll id watch.later ++ pending) := by
  have hempty : Workshop.Reachable Workshop.Unruled {} := .start
  have hcanAll := Workshop.canActAll_append.mp hearlier
  have hbefore : Workshop.Reachable Workshop.Unruled watch.before :=
    hempty.actAll hcanAll.1
  have hrequested : Workshop.Reachable Workshop.Unruled watch.requested := by
    rw [← watch.requested_eq]
    exact hempty.actAll hearlier
  have hrun : watch.before.world.request watch.group watch.config watch.defaults =
      (.ok (), watch.requested.world) := Prod.ext hgranted rfl
  obtain ⟨hholds, hget⟩ := World.handle?_eq_some.mp hheld
  -- the request starts to listen
  have hindex : ∀ chip ∈ (watch.before.world.chipOf watch.group).toOption,
      chip.device.simulator? = some index := by
    obtain ⟨chip, chipId, -, -, hchip, htakeable, -⟩ := World.request_events hevents hrun
    obtain ⟨device, hdevice, hindex⟩ := hover
    obtain rfl := Option.mem_unique hdevice (htakeable.toOnChip.device hmem)
    intro found hfound
    rw [hchip] at hfound
    obtain rfl := Option.some.inj hfound
    exact hindex
  obtain ⟨file, hears⟩ := World.hears_request hbefore.sound.accord hbefore.spares hevents hindex hrun
    hmem hholds
  obtain rfl : handle.file = file := hears.file handle hget
  -- and hears all that follows
  have hstart : watch.requested.world.Hears (watch.feed index line.offset handle.file) id
      watch.requested.outside (List.flatMap LineEvent.record []) := hears
  obtain ⟨pending, hpending, hfinal⟩ :=
    Workshop.hears_actAll hrequested.sound hlater hunclaimed hstart
  obtain ⟨opened, hopened, hsource⟩ := (hfinal.serves hunclaimed hopen).pending
  refine ⟨pending, opened, hopened, hsource, ?_⟩
  have hclock := Workshop.clock_actAll hempty.sound hearlier index
  rw [watch.requested_eq] at hclock
  have hstarted : watch.requested.world.bench.clock index =
      Simulator.eventInterval * UInt64.ofNat (watch.changesBefore index) :=
    hclock.trans (UInt64.zero_add _)
  have hreports : watch.requested.receivesAll id watch.later ++ pending =
      (watch.numbered index).filterMap (watch.feed index line.offset handle.file).event? :=
    hpending.symm.trans (Workshop.reportsAll_eq hrequested.sound hlater hstarted)
  rw [hreports]
  refine Feed.told_filterMap _ (fun entry hentry => ?_) (watch.pairwise_numbered index)
  have hlt := (List.mem_zipIdx hentry).2.1
  omega

/-- Two lines are watched for both edges, active low, and a third line changes too. The events of the
second one are read one by one, by a stream and in a batch. -/
def blinking : Watch where
  earlier :=
    [.deed (.addSimulator "gpiochip0" 3), .operation (.openChip (.simulator 0)),
      .operation (.getLines 0 [0, 1]), .operation (.single ⟨0, 1⟩), .deed (.setLevel 0 2 1)]
  group := ⟨[⟨0, 0⟩, ⟨0, 1⟩]⟩
  config :=
    { consumer := "watch", type := .eventBoth, flags := { settings := { activeLow := true } } }
  later :=
    [.deed (.setLevel 0 1 1), .deed (.setLevel 0 1 7), .deed (.setLevel 0 0 1),
      .operation (.readEvent ⟨0, 1⟩), .deed (.setLevel 0 1 0), .deed (.setLevel 0 1 1),
      .operation (.openStream ⟨0, 1⟩), .operation (.nextEvent 0), .deed (.inject 0 0 [1, 2, 3]),
      .operation (.readEvents ⟨0, 1⟩ 5), .operation (.readEvents ⟨0, 0⟩ 5), .deed (.setLevel 0 1 0)]

theorem delivered_blinking : ∃ handle pending opened,
    blinking.requested.world.handle? ⟨0, 1⟩ = some (1, handle) ∧
    blinking.requested.receivesAll 1 blinking.later =
      [⟨3000000000, .falling⟩, ⟨6000000000, .rising⟩, ⟨7500000000, .falling⟩] ∧
    blinking.final.world.bench.files.get? handle.file = some opened ∧
    opened.source = .socket (List.flatMap LineEvent.record pending) true ∧
    (blinking.feed 0 1 handle.file).Told (blinking.numbered 0)
      (blinking.requested.receivesAll 1 blinking.later ++ pending) := by
  have hheld : blinking.requested.world.handle? ⟨0, 1⟩ = some (1, _) := rfl
  have hover : blinking.before.world.IsOver ⟨0, 1⟩ 0 := ⟨.simulator 0, rfl, rfl⟩
  obtain ⟨pending, opened, hopened, hsource, htold⟩ := delivered_once blinking (by decide)
    (by decide) rfl (by rfl) (by decide) hover hheld (by decide) (by decide) (by decide)
  exact ⟨_, pending, opened, hheld, by decide, hopened, hsource, htold⟩

end Watch

end GpioLines
