import GpioLines.Proofs.Fields
import GpioLines.Proofs.Freshness
import GpioLines.Proofs.Setups

/-!
# Reported metadata

A line passes what it is asked for through three words that order the switches in different ways: the
flags of the request, those of the handle, and those of the report. What the line says of itself in
the end is still what it was asked for, switch by switch, with the consumer of the request that holds
it. Where the chip does not answer, the line goes on saying what it said, and needs an update.
-/

namespace GpioLines

/-! ### From word to word -/

/-- The word of a line once a device has applied the flags of a handle word to it. The mark and the
direction are those of the line, unless the flags name a direction. The bits of the settings are copied
from where they stand. -/
def InfoFlags.copy (line handle : UInt32) : UInt32 :=
  let kept := line &&& 0x3
  let directed :=
    if hasBit handle 1 then kept ||| 0x2 else if hasBit handle 0 then kept &&& ~~~0x2 else kept
  directed ||| handle &&& 0xFC

theorem InfoFlags.toBits_and_three (flags : InfoFlags) :
    flags.toBits &&& 0x3 = bitIf flags.used 0 ||| bitIf flags.output 1 := by
  obtain ⟨used, output, a, b, c, d, e, f⟩ := flags
  revert used output a b c d e f
  decide

/-- **Switches that are taken over by name are bits that are copied.** -/
theorem SimLine.toBits_applyFlags (line : SimLine) {flags : HandleFlags} (h : flags.WellFormed) :
    (line.applyFlags flags).flags.toBits = InfoFlags.copy line.flags.toBits flags.toBits := by
  have hread := HandleFlags.ofBits_toBits_unknown h
  have hinput : hasBit flags.toBits 0 = flags.input := congrArg HandleFlags.input hread
  have houtput : hasBit flags.toBits 1 = flags.output := congrArg HandleFlags.output hread
  have hsettings : flags.toBits &&& 0xFC = flags.settings.handleBits := by
    rw [← Settings.handleBits_ofHandleBits]
    exact congrArg (·.settings.handleBits) hread
  have hdirection : ∀ used was input output : Bool,
      bitIf used 0 ||| bitIf (output || (was && !input)) 1 =
        if output then (bitIf used 0 ||| bitIf was 1) ||| 0x2
        else if input then (bitIf used 0 ||| bitIf was 1) &&& ~~~0x2
        else bitIf used 0 ||| bitIf was 1 := by
    decide
  rw [InfoFlags.copy, hinput, houtput, hsettings, InfoFlags.toBits_and_three, ← hdirection]
  rfl

theorem SimLine.toBits_take (line : SimLine) (consumer : String) :
    (line.take consumer).flags.toBits = line.flags.toBits ||| 0x1 := by
  simp only [take]
  obtain ⟨used, output, a, b, c, d, e, f⟩ := line.flags
  revert used output a b c d e f
  decide

theorem SimLine.output_of_direction {a b : SimLine} (h : a.direction = b.direction) :
    a.flags.output = b.flags.output := by
  rw [direction, direction] at h
  cases ha : a.flags.output <;> cases hb : b.flags.output <;> simp [ha, hb] at h ⊢

/-- A line that was set up has the flags that its device has applied. -/
theorem SimLine.SetUp.flags_eq {was now : SimLine} {type : RequestType} {settings : Settings}
    {consumer : String} (h : was.SetUp now type settings consumer) :
    now.flags =
      ((was.take consumer).applyFlags (RequestFlags.handleFlags { settings } type)).flags := by
  have houtput := output_of_direction
    (h.direction.trans (direction_applyFlags (was.take consumer) { settings } type).symm)
  calc now.flags = ⟨now.flags.used, now.flags.output, now.flags.settings⟩ := rfl
    _ = ⟨true, now.flags.output, settings⟩ := by rw [h.marks.used, h.settings]
    _ = ((was.take consumer).applyFlags (RequestFlags.handleFlags { settings } type)).flags := by
      rw [houtput]
      rfl

/-- The word of a report is copied together from the word of the line, marked as used, and the word of
the request. -/
theorem SimLine.SetUp.toBits {was now : SimLine} {type : RequestType} {settings : Settings}
    {consumer : String} (h : was.SetUp now type settings consumer) :
    now.flags.toBits = InfoFlags.copy (was.flags.toBits ||| 0x1)
      (RequestFlags.handleFlags { settings } type).toBits := by
  have hknown : (RequestFlags.handleFlags { settings } type).WellFormed := UInt32.zero_and
  rw [h.flags_eq, toBits_applyFlags _ hknown, toBits_take]

/-- The report has the bits of a request, each at its own place. -/
structure LineInfo.Repeats (info : LineInfo) (word : UInt32) : Prop where
  activeLow : hasBit info.flags.toBits 2 = hasBit word 0
  openDrain : hasBit info.flags.toBits 3 = hasBit word 1
  openSource : hasBit info.flags.toBits 4 = hasBit word 2
  biasDisable : hasBit info.flags.toBits 7 = hasBit word 3
  biasPullDown : hasBit info.flags.toBits 6 = hasBit word 4
  biasPullUp : hasBit info.flags.toBits 5 = hasBit word 5

/-- The bits that a request does not know are not among them. -/
theorem LineInfo.repeats_of_settings {info : LineInfo} {word : UInt32}
    (h : (RequestFlags.ofBits word).settings = info.flags.settings) : info.Repeats word := by
  have hsettings : Settings.ofHandleBits info.flags.toBits = (RequestFlags.ofBits word).settings :=
    (congrArg InfoFlags.settings info.flags.ofBits_toBits).trans h.symm
  obtain ⟨hlow, hdrain, hsource, hdisable, hdown, hup⟩ := Settings.mk.inj hsettings
  exact ⟨hlow, hdrain, hsource, hdisable, hdown, hup⟩

/-! ### What a report says -/

/-- The report says of a line what it was asked for: by a request of this type for this consumer, with
these settings, when it had the direction `was`. -/
structure LineInfo.Describes (info : LineInfo) (type : RequestType) (was : Direction)
    (settings : Settings) (consumer : String) : Prop where
  used : info.used = true
  direction : info.direction = type.directionFrom was
  switches : info.flags.settings = settings
  /-- If the settings were read from a word, its bits are in the word of the report. -/
  bits : ∀ word, (RequestFlags.ofBits word).settings = settings → info.Repeats word
  activeLow : info.activeLow = settings.activeLow
  openDrain : info.drive = .openDrain ↔ settings.openDrain = true
  openSource : info.drive = .openSource ↔ settings.openSource = true
  pushPull : info.drive = .pushPull ↔ settings.openDrain = false ∧ settings.openSource = false
  disabled : info.bias = .disabled ↔ settings.biasDisable = true
  pullUp : info.bias = .pullUp ↔ settings.biasPullUp = true
  pullDown : info.bias = .pullDown ↔ settings.biasPullDown = true
  unknown : info.bias = .unknown ↔
    settings.biasDisable = false ∧ settings.biasPullUp = false ∧ settings.biasPullDown = false
  /-- A consumer without a name is none. -/
  consumer : info.consumer = if consumer = "" then none else some consumer

/-- Of settings that go together none is hidden by another. -/
theorem Settings.Consistent.selects {settings : Settings} (h : settings.Consistent) :
    ((settings.drive = .openDrain ↔ settings.openDrain = true) ∧
      (settings.drive = .openSource ↔ settings.openSource = true) ∧
      (settings.drive = .pushPull ↔ settings.openDrain = false ∧ settings.openSource = false)) ∧
    ((settings.bias = .disabled ↔ settings.biasDisable = true) ∧
      (settings.bias = .pullUp ↔ settings.biasPullUp = true) ∧
      (settings.bias = .pullDown ↔ settings.biasPullDown = true) ∧
      (settings.bias = .unknown ↔ settings.biasDisable = false ∧ settings.biasPullUp = false ∧
        settings.biasPullDown = false)) := by
  obtain ⟨hdrives, hbiases⟩ := h
  obtain ⟨low, drain, source, disable, down, up⟩ := settings
  revert low drain source disable down up
  decide

theorem SimLine.SetUp.describes {was now : SimLine} {type : RequestType} {settings : Settings}
    {consumer : String} (h : was.SetUp now type settings consumer) (hconsistent : settings.Consistent)
    (offset : Offset) : (now.info offset).Describes type was.direction settings consumer := by
  obtain ⟨⟨hdrain, hsource, hpushPull⟩, hdisabled, hup, hdown, hunknown⟩ := hconsistent.selects
  obtain rfl := h.settings
  exact
    { used := h.marks.used
      direction := h.direction
      switches := rfl
      bits := fun word hword => LineInfo.repeats_of_settings hword
      activeLow := rfl
      openDrain := hdrain
      openSource := hsource
      pushPull := hpushPull
      disabled := hdisabled
      pullUp := hup
      pullDown := hdown
      unknown := hunknown
      consumer := h.marks.consumer }

namespace World

variable {before after : World (Traced Bench)} {index : Nat} {line : Line} {type : RequestType}
  {settings : Settings} {consumer : String}

/-- What a line says of itself after an operation that has set it up. -/
structure Reports (before after : World (Traced Bench)) (index : Nat) (line : Line)
    (type : RequestType) (settings : Settings) (consumer : String) : Prop where
  /-- If the chip tells of the line, it says what it was asked for. -/
  told : ∀ info, after.bench.answer index line.offset = .ok info →
    after.info line = .ok info ∧ after.needsUpdate line = false ∧
      ∃ was, before.bench.line? index line.offset = some was ∧
        info.Describes type was.direction settings consumer ∧
        info.flags.toBits = InfoFlags.copy (was.flags.toBits ||| 0x1)
          (RequestFlags.handleFlags { settings } type).toBits
  /-- If not, it says what it said before. -/
  untold : ∀ error, after.bench.answer index line.offset = .error error →
    after.info line = before.info line ∧ after.needsUpdate line = true
  held : after.HeldFor line consumer

theorem SetsUp.reports (h : before.SetsUp after index line type settings consumer) :
    before.Reports after index line type settings consumer where
  told := by
    intro info hanswer
    obtain ⟨hinfo, hupdate⟩ := h.refreshed.told info hanswer
    obtain ⟨was, now, hwas, hnow, hsetup⟩ := h.lines
    obtain ⟨found, hfound, -, rfl⟩ := (Bench.tells_iff.mpr hanswer).known
    obtain rfl := Option.mem_unique hnow hfound
    exact ⟨hinfo, hupdate, was, hwas, hsetup.describes h.consistent line.offset, hsetup.toBits⟩
  untold := h.refreshed.untold
  held := h.held

end World

/-! ### Every state of a workshop -/

/-- The operation sets lines up, and asks for them in the end. -/
def GroupOperation.asks : GroupOperation → Bool
  | .request .. | .setConfig .. | .setFlags _ | .setDirectionInput | .setDirectionOutput _ => true
  | .getValues | .setValues _ => false

/-- An operation that fails has not come to ask for any line. -/
theorem GroupOperation.unasked {operation : GroupOperation} (hasks : operation.asks = true)
    {world after : World (Traced Bench)} {group : Group} {error : Error}
    (h : operation.run group world = (.error error, after)) : world.Unasked after := by
  cases operation with
  | getValues | setValues => cases hasks
  | request config defaults => exact World.unasked_request h
  | setConfig type flags values => exact World.unasked_setConfig h
  | setFlags flags =>
      change world.setFlags group flags = (.error error, after) at h
      unfold World.setFlags at h
      split at h
      · obtain ⟨-, rfl⟩ := Prod.mk.inj h
        exact .of_machine_eq rfl
      · exact World.unasked_setConfig h
  | setDirectionInput =>
      change world.setDirectionInput group = (.error error, after) at h
      unfold World.setDirectionInput at h
      split at h
      · obtain ⟨-, rfl⟩ := Prod.mk.inj h
        exact .of_machine_eq rfl
      · exact World.unasked_setConfig h
  | setDirectionOutput values =>
      change world.setDirectionOutput group values = (.error error, after) at h
      unfold World.setDirectionOutput at h
      split at h
      · obtain ⟨-, rfl⟩ := Prod.mk.inj h
        exact .of_machine_eq rfl
      · exact World.unasked_setConfig h

namespace Workshop

variable {workshop : Workshop} {group : Group} {index : Nat}

/-- What the lines of a group say of themselves after whatever has set them up. -/
structure ReportsAsAsked (workshop : Workshop) (group : Group) (index : Nat) : Prop where
  request : ∀ config defaults after,
    workshop.world.request group config defaults = (.ok (), after) → ∀ line ∈ group.lines,
      workshop.world.Reports after index line config.type config.flags.settings config.consumer
  /-- The consumer is that of the request that holds the line. -/
  reconfiguration : ∀ (operation : GroupOperation) type select after,
    operation.reconfigures? = some (type, select) →
    operation.run group workshop.world = (.ok (), after) → ∀ line ∈ group.lines, ∃ was consumer,
      workshop.world.bench.line? index line.offset = some was ∧
      workshop.world.HeldFor line consumer ∧
      workshop.world.Reports after index line type (select was.flags.settings) consumer
  /-- No metadata that is missing makes an operation fail, since one that fails has asked for none. -/
  failure : ∀ (operation : GroupOperation) error after, operation.asks = true →
    operation.run group workshop.world = (.error error, after) → workshop.world.Unasked after

/-- **Reported metadata is what was asked for**, in every state that a workshop can come to in which
no line was hogged that a request holds. -/
theorem reports_as_asked (h : Reachable Unhogged workshop) (hgroup : group.WellFormed)
    (hdevice : ∀ line ∈ group.lines,
      workshop.world.board.device? line.chip = some (.simulator index)) :
    workshop.ReportsAsAsked group index where
  request := by
    intro config defaults after hrequest line hmem
    cases hevents : config.type.isEvent with
    | true => exact (h.setsUp_events hdevice hmem hgroup hevents hrequest).reports
    | false =>
        exact (World.setsUp_values hevents hdevice h.sound.accord.fresh hrequest hmem).reports
  reconfiguration := by
    intro operation type select after hoperation hrun line hmem
    obtain ⟨was, consumer, hwas, hheld, hsetsUp⟩ := h.setsUp_reconfigured hdevice hmem hoperation hrun
    exact ⟨was, consumer, hwas, hheld, hsetsUp.reports⟩
  failure := fun _ _ _ hasks hrun => GroupOperation.unasked hasks hrun

/-- Two outputs of a lamp, one of which the chip does not tell of any more. -/
def dimmedLamp : List Act :=
  let lamp : RequestConfig := { consumer := "lamp", type := .output, flags := .ofBits 0x112 }
  let both : Group := ⟨[⟨0, 2⟩, ⟨0, 0⟩]⟩
  [.deed (.addSimulator "gpiochip0" 3), .deed (.control 0 (.hog 1 "kernel")),
    .operation (.openChip (.simulator 0)), .operation (.getLines 0 [2, 0]),
    .operation (.onGroup (.request lamp (some [1, 0])) both), .deed (.control 0 (.failInfoAt 2 true))]

/-- Both requests have a bit that is not known. The lines are seen inverted from the second on: one of
them says so, and the other goes on saying what the first has asked for. -/
theorem reports_dimmedLamp : ∃ workshop after info, Reachable Unhogged workshop ∧
    workshop.world.setFlags ⟨[⟨0, 2⟩, ⟨0, 0⟩]⟩ (.ofBits 0x821) = (.ok (), after) ∧
    (after.info ⟨0, 0⟩ = .ok info ∧ after.needsUpdate ⟨0, 0⟩ = false ∧ info.direction = .output ∧
      info.activeLow = true ∧ info.drive = .pushPull ∧ info.bias = .pullUp ∧
      info.consumer = some "lamp" ∧ info.Repeats 0x821) ∧
    after.info ⟨0, 2⟩ = workshop.world.info ⟨0, 2⟩ ∧ after.needsUpdate ⟨0, 2⟩ = true := by
  let group : Group := ⟨[⟨0, 2⟩, ⟨0, 0⟩]⟩
  let workshop := ({} : Workshop).actAll dimmedLamp
  let after := (workshop.world.setFlags group (.ofBits 0x821)).2
  have hreachable : Reachable Unhogged workshop := Reachable.start.actAll (by decide)
  have hreports : workshop.ReportsAsAsked group 0 :=
    reports_as_asked hreachable ⟨by decide, by decide⟩ (by decide)
  have hset : (workshop.world.setFlags group (.ofBits 0x821)).1 = .ok () := by decide
  have hlines := hreports.reconfiguration (.setFlags (.ofBits 0x821)) _ _ after rfl (Prod.ext hset rfl)
  -- the first line is told of
  have hanswer : after.bench.answer 0 0 = .ok { offset := 0, consumer := some "lamp", flags := {
      used := true, output := true, settings := { activeLow := true, biasPullUp := true } } } := by
    decide
  obtain ⟨_, _, -, -, hfirst⟩ := hlines ⟨0, 0⟩ (by decide)
  obtain ⟨hinfo, hupdate, was, -, hdescribes, -⟩ := hfirst.told _ hanswer
  have hfails : (after.bench.answer 0 2).toOption = none := by decide
  obtain ⟨error, herror⟩ : ∃ error, after.bench.answer 0 2 = .error error := by
    cases hother : after.bench.answer 0 2 with
    | error error => exact ⟨error, rfl⟩
    | ok info =>
        rw [hother] at hfails
        cases hfails
  obtain ⟨_, _, -, -, hsecond⟩ := hlines ⟨0, 2⟩ (by decide)
  exact ⟨workshop, after, _, hreachable, Prod.ext hset rfl,
    ⟨hinfo, hupdate, rfl, hdescribes.activeLow, hdescribes.pushPull.mpr ⟨rfl, rfl⟩,
      hdescribes.pullUp.mpr rfl, rfl, hdescribes.bits 0x821 rfl⟩, hsecond.untold error herror⟩

end Workshop

end GpioLines
