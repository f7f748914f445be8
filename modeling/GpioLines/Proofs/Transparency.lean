import GpioLines.Proofs.Hosting

/-!
# A character device cannot be told from the chip behind it

A character device over a kernel that keeps a simulated chip answers each call as the chip itself
does. The values of a call arrive filled up to the width of their field, and a chip that reads no
further than a file has lines does not notice (`relayed_setValues` and its neighbours); the answer is
read back from the fields it was written to. A session is a run of such calls: the answers are the
same one by one, and so is the chip at the end (`character_device_transparent`).

Texts and flags have to fit their fields, and values that are passed on a file have to be as many as
the file has lines. Each call leaves a chip of which the same holds.
-/

namespace GpioLines

open Bytes

/-! ### What a chip shows -/

/-- The texts of a line have room in their fields; one that is there is not empty. -/
structure SimLine.Portable (line : SimLine) : Prop where
  name : ∀ name ∈ line.name, name ≠ "" ∧ Label.Fits name
  consumer : ∀ consumer ∈ line.consumer, consumer ≠ "" ∧ Label.Fits consumer

namespace Simulator

structure Portable (sim : Simulator) : Prop where
  name : Label.Fits sim.name
  label : Label.Fits (sim.name ++ "-sim")
  lines : ∀ offset line, sim.line? offset = some line → line.Portable
  grants : ∀ grant ∈ sim.grants, grant.offsets.length ≤ maxLines

/-- Values that are passed on a file are as many as the file has lines. -/
def Suits (sim : Simulator) : Call → Prop
  | .getValues file buffer => ∀ grant ∈ sim.grant? file, buffer.length = grant.offsets.length
  | .setValues file values => ∀ grant ∈ sim.grant? file, values.length = grant.offsets.length
  | _ => True

/-- The chip answers the call that arrives as it answers the call that was made, and the answer that
is read back is its own. -/
inductive Relayed (sim : Simulator) (fresh : FileId) (call : Call) : Prop where
  | granted {reply : call.Reply} {carried : call.carried.Reply} {after : Simulator}
      (made : sim.perform fresh call = (.ok reply, after))
      (arrived : sim.perform fresh call.carried = (.ok carried, after))
      (read : Layout.reply (HostingKernel.encode (Layout.buffer call) call.carried carried) call =
        reply)
  | refused {errno : Errno} {after : Simulator}
      (made : sim.perform fresh call = (.error (.call call.kind errno), after))
      (arrived : sim.perform fresh call.carried = (.error (.call call.kind errno), after))

variable {sim : Simulator} {fresh : FileId}

/-! ### The chip and its lines are described -/

@[simp] theorem length_textField (text : String) :
    (HostingKernel.textField text).length = Label.width := length_fit ..

theorem fields_chipInfo (buffer : List UInt8) (info : ChipInfo) :
    let answer := HostingKernel.encode buffer .chipInfo info
    field 0 Label.width answer = HostingKernel.textField info.name ∧
      field 32 Label.width answer = HostingKernel.textField info.label ∧
      word32 64 answer = info.lineCount := by
  have hend : ofWord32 info.lineCount = ofWord32 info.lineCount ++ [] := (List.append_nil _).symm
  simp (disch := simp [Label.width]) only [HostingKernel.encode, List.append_assoc, field_append,
    word32_append, length_textField, Label.width, Nat.reduceSub]
  refine ⟨field_append_left _ (length_textField _), field_append_left _ (length_textField _), ?_⟩
  rw [hend, word32_ofWord32]

theorem fields_lineInfo (buffer : List UInt8) (offset : Offset) (info : LineInfo) :
    let answer := HostingKernel.encode buffer (.lineInfo offset) info
    word32 4 answer = info.flags.toBits ∧
      field 8 Label.width answer = HostingKernel.textField (info.name.getD "") ∧
      field 40 Label.width answer = HostingKernel.textField (info.consumer.getD "") := by
  have hend : ∀ text, HostingKernel.textField text = HostingKernel.textField text ++ [] :=
    fun _ => (List.append_nil _).symm
  simp (disch := simp [Label.width]) only [HostingKernel.encode, List.append_assoc, field_append,
    word32_append, length_textField, length_ofWord32, Label.width, Nat.reduceSub]
  refine ⟨word32_ofWord32 .., field_append_left _ (length_textField _), ?_⟩
  exact (congrArg (field 0 32) (hend _)).trans (field_append_left _ (length_textField _))

theorem labelAt_of_field {text : String} (h : Label.Fits text) {start : Nat} {answer : List UInt8}
    (hfield : field start Label.width answer = HostingKernel.textField text) :
    Layout.labelAt start answer = if text = "" then none else some text := by
  rw [Layout.labelAt, hfield, HostingKernel.textField, Label.text?_fit h]

/-- The text of a chip may be empty: without a text it is read as the empty one. -/
theorem getD_labelAt {text : String} (h : Label.Fits text) {start : Nat} {answer : List UInt8}
    (hfield : field start Label.width answer = HostingKernel.textField text) :
    (Layout.labelAt start answer).getD "" = text := by
  rw [labelAt_of_field h hfield]
  split
  · next hempty => exact hempty.symm
  · rfl

/-- The text of a line may be missing, but not empty. -/
theorem labelAt_getD {text : Option String} (h : ∀ some ∈ text, some ≠ "" ∧ Label.Fits some)
    {start : Nat} {answer : List UInt8}
    (hfield : field start Label.width answer = HostingKernel.textField (text.getD "")) :
    Layout.labelAt start answer = text := by
  cases text with
  | none => exact labelAt_of_field ⟨by decide, by decide⟩ hfield
  | some text =>
      obtain ⟨hsome, hfits⟩ := h text rfl
      rw [labelAt_of_field hfits hfield, if_neg hsome]

theorem relayed_chipInfo (h : sim.Portable) : sim.Relayed fresh .chipInfo := by
  refine .granted rfl rfl ?_
  obtain ⟨hname, hlabel, hcount⟩ := fields_chipInfo (Layout.buffer .chipInfo)
    ⟨sim.name, sim.name ++ "-sim", UInt32.ofNat sim.lines.size⟩
  simp only [Layout.reply, Call.carried, getD_labelAt h.name hname, getD_labelAt h.label hlabel,
    hcount]

theorem relayed_lineInfo (h : sim.Portable) (offset : Offset) :
    sim.Relayed fresh (.lineInfo offset) := by
  cases hinfo : sim.lineInfo offset with
  | error errno =>
      have hperform : sim.perform fresh (.lineInfo offset) = (.error (.call .lineInfo errno), sim) := by
        rw [perform, hinfo]
        rfl
      exact .refused hperform hperform
  | ok info =>
      have hperform : sim.perform fresh (.lineInfo offset) = (.ok info, sim) := by
        rw [perform, hinfo]
        rfl
      refine .granted hperform hperform ?_
      obtain ⟨line, hline, rfl⟩ : ∃ line, sim.line? offset = some line ∧ info = line.info offset := by
        unfold lineInfo at hinfo
        split at hinfo
        · cases hinfo
        · split at hinfo
          · cases hinfo
          · next line hline =>
            split at hinfo
            · cases hinfo
            · exact ⟨line, hline, (Except.ok.inj hinfo).symm⟩
      obtain ⟨hname, hconsumer⟩ := h.lines offset line hline
      obtain ⟨hflagsWord, hnameField, hconsumerField⟩ :=
        fields_lineInfo (Layout.buffer (.lineInfo offset)) offset (line.info offset)
      simp only [Layout.reply, Call.carried, hflagsWord, InfoFlags.ofBits_toBits,
        labelAt_getD hname hnameField, labelAt_getD hconsumer hconsumerField]
      rfl

/-! ### Requests -/

/-- Values that fill their field configure the lines as they do on their own. -/
theorem configureAll_valuesField {offsets : List Offset} (h : offsets.length ≤ maxLines)
    (sim : Simulator) (flags : HandleFlags) (values : List UInt8) :
    sim.configureAll offsets flags (Layout.valuesField values) =
      sim.configureAll offsets flags values := by
  rw [configureAll, Layout.valuesField, fit_fit h, configureAll]

/-- What is settled alike for two calls of one kind is relayed, if the reply gets back. -/
theorem relayed_settle {call : Call} {reply : call.Reply} {carried : call.carried.Reply}
    {result : Except Errno Simulator}
    (made : sim.perform fresh call = sim.settle reply result)
    (arrived : sim.perform fresh call.carried = sim.settle carried result)
    (read : Layout.reply (HostingKernel.encode (Layout.buffer call) call.carried carried) call =
      reply) : sim.Relayed fresh call := by
  cases result with
  | ok after => exact .granted made arrived read
  | error errno =>
      refine .refused made (arrived.trans ?_)
      cases call <;> rfl

theorem relayed_requestLines {request : LinesRequest} (hcount : request.offsets.length ≤ maxLines)
    (hfresh : fresh < 2 ^ 32) : sim.Relayed fresh (.requestLines request) := by
  have hsame : sim.requestLines fresh { request with values := Layout.valuesField request.values } =
      sim.requestLines fresh request := by
    simp only [requestLines, configureAll_valuesField hcount]
  refine relayed_settle rfl (by rw [← hsame]; rfl) ?_
  have hroom : 360 ≤ (Layout.buffer (.requestLines request)).length := by
    rw [Layout.length_buffer, Call.kind, CallKind.bufferSize]
    decide
  change (word32 360 (overwrite 360 (ofNat 4 fresh) _)).toNat = fresh
  rw [word32_overwrite fresh hroom, UInt32.toNat_ofNat_of_lt' hfresh]

theorem relayed_requestEvent (request : EventRequest) (hfresh : fresh < 2 ^ 32) :
    sim.Relayed fresh (.requestEvent request) := by
  refine relayed_settle rfl rfl ?_
  have hroom : 44 ≤ (Layout.buffer (.requestEvent request)).length := by
    rw [Layout.length_buffer, Call.kind, CallKind.bufferSize]
    decide
  change (word32 44 (overwrite 44 (ofNat 4 fresh) _)).toNat = fresh
  rw [word32_overwrite fresh hroom, UInt32.toNat_ofNat_of_lt' hfresh]

/-! ### Values -/

theorem fill_of_le {buffer values : List UInt8} (h : buffer.length ≤ values.length) :
    (Buffer.fill buffer values).1 = values.take buffer.length := by
  change values.take buffer.length ++ buffer.drop values.length = _
  rw [List.drop_of_length_le h, List.append_nil]

/-- Values that fill a buffer fill it as well when they come out of a wider one. -/
theorem fill_relayed {buffer values : List UInt8} (hlength : values.length = buffer.length)
    (hroom : buffer.length ≤ maxLines) :
    (Buffer.fill buffer
      ((Buffer.fill (Layout.valuesField []) values).1.take maxLines)).1 =
        (Buffer.fill buffer values).1 := by
  have hwide : (Layout.valuesField []).length = maxLines := Layout.length_valuesField []
  have hall : (Buffer.fill (Layout.valuesField []) values).1.length = maxLines :=
    (Buffer.fill (Layout.valuesField []) values).2.trans hwide
  have hbytes : (Buffer.fill (Layout.valuesField []) values).1 =
      values.take (Layout.valuesField []).length ++ (Layout.valuesField []).drop values.length := rfl
  have hvalues : values.length ≤ (Layout.valuesField []).length := by
    rw [hlength, hwide]
    exact hroom
  rw [List.take_of_length_le (Nat.le_of_eq hall),
    fill_of_le (Nat.le_trans hroom (Nat.le_of_eq hall.symm)), fill_of_le (Nat.le_of_eq hlength.symm),
    hbytes, List.take_of_length_le hvalues, ← hlength, List.take_left, List.take_length]

theorem relayed_getValues (h : sim.Portable) {file : FileId} {buffer : List UInt8}
    (hsuits : ∀ grant ∈ sim.grant? file, buffer.length = grant.offsets.length) :
    sim.Relayed fresh (.getValues file buffer) := by
  cases hgrant : sim.grant? file with
  | none =>
      have hperform : ∀ buffer, sim.perform fresh (.getValues file buffer) =
          (.error (.call .getValues .badFile), sim) := by
        intro buffer
        rw [perform, getValues, hgrant]
        rfl
      exact .refused (hperform _) (hperform _)
  | some grant =>
      have hperform : ∀ buffer, sim.perform fresh (.getValues file buffer) =
          (.ok (Buffer.fill buffer (grant.offsets.map sim.value)), sim) := by
        intro buffer
        rw [perform, getValues, hgrant]
        rfl
      refine .granted (hperform _) (hperform _) ?_
      have hlength : (grant.offsets.map sim.value).length = buffer.length := by
        rw [List.length_map, hsuits grant hgrant]
      have hroom : buffer.length ≤ maxLines := by
        rw [hsuits grant hgrant]
        exact h.grants grant (List.mem_of_find?_eq_some hgrant)
      apply Subtype.ext
      exact fill_relayed hlength hroom

theorem zip_valuesField {offsets : List Offset} {values : List UInt8}
    (hlength : values.length = offsets.length) (hroom : offsets.length ≤ maxLines) :
    offsets.zip (Layout.valuesField values) = offsets.zip values := by
  rw [Layout.valuesField, fit_of_le (Nat.le_trans (Nat.le_of_eq hlength) hroom)]
  conv_lhs => rw [← List.append_nil offsets]
  rw [List.zip_append hlength.symm, List.zip_nil_left, List.append_nil]

theorem relayed_setValues (h : sim.Portable) {file : FileId} {values : List UInt8}
    (hsuits : ∀ grant ∈ sim.grant? file, values.length = grant.offsets.length) :
    sim.Relayed fresh (.setValues file values) := by
  have hsame : sim.setValues file (Layout.valuesField values) = sim.setValues file values := by
    cases hgrant : sim.grant? file with
    | none => simp only [setValues, valuesGrant, hgrant]
    | some grant =>
        have hzip := zip_valuesField (hsuits grant hgrant)
          (h.grants grant (List.mem_of_find?_eq_some hgrant))
        simp only [setValues, valuesGrant, hgrant]
        split
        · rfl
        · next found hfound =>
          split at hfound
          · cases hfound
          · obtain rfl := Except.ok.inj hfound
            rw [hzip]
  exact relayed_settle rfl (by rw [← hsame]; rfl) rfl

theorem relayed_setConfig (h : sim.Portable) (file : FileId) (flags : HandleFlags)
    (values : List UInt8) : sim.Relayed fresh (.setConfig file flags values) := by
  have hsame : sim.setConfig file flags (Layout.valuesField values) =
      sim.setConfig file flags values := by
    unfold setConfig
    split
    · rfl
    · split
      · rfl
      · next grant hgrant =>
        rw [configureAll_valuesField (h.grants grant (valuesGrant_eq_ok hgrant).1)]
  exact relayed_settle rfl (by rw [← hsame]; rfl) rfl

/-! ### One call -/

theorem relayed (h : sim.Portable) (hfresh : fresh < 2 ^ 32) {call : Call}
    (hcarry : CharacterDevice.canCarry call) (hsuits : sim.Suits call) : sim.Relayed fresh call := by
  cases call with
  | chipInfo => exact relayed_chipInfo h
  | lineInfo offset => exact relayed_lineInfo h offset
  | requestLines request =>
      exact relayed_requestLines (by simpa using (Bool.and_eq_true_iff.mp hcarry).2) hfresh
  | requestEvent request => exact relayed_requestEvent request hfresh
  | getValues file buffer => exact relayed_getValues h hsuits
  | setValues file values => exact relayed_setValues h hsuits
  | setConfig file flags values => exact relayed_setConfig h file flags values

/-- What has no room in a request is refused by the chip as well. -/
theorem perform_of_not_canCarry {call : Call} (h : CharacterDevice.canCarry call = false) :
    sim.perform fresh call = (.error (.call call.kind .invalid), sim) := by
  cases call with
  | requestLines request =>
      have hrefused : (request.offsets.isEmpty || decide (maxLines < request.offsets.length)) = true := by
        simp only [CharacterDevice.canCarry, Bool.and_eq_false_iff, Bool.not_eq_false',
          decide_eq_false_iff_not, Nat.not_le] at h
        simpa only [Bool.or_eq_true, decide_eq_true_eq] using h
      simp only [perform, requestLines, hrefused, ↓reduceIte]
      rfl
  | chipInfo | lineInfo | requestEvent | getValues | setValues | setConfig => cases h

/-- A character device over the chip answers a call as the chip does, and leaves the same chip. -/
theorem perform_hosted (h : sim.Portable) (hfresh : fresh < 2 ^ 32) {call : Call}
    (hcall : call.Portable) (hsuits : sim.Suits call) :
    CharacterDevice.perform call (⟨sim, fresh⟩ : HostingKernel) =
      ((sim.perform fresh call).1, ⟨(sim.perform fresh call).2, fresh⟩) := by
  cases hcarry : CharacterDevice.canCarry call with
  | false =>
      rw [perform_of_not_canCarry hcarry, CharacterDevice.perform, hcarry]
      rfl
  | true =>
      simp only [CharacterDevice.perform, hcarry, ↓reduceIte, Kernel.request,
        Layout.decode_buffer hcarry hcall]
      cases relayed h hfresh hcarry hsuits with
      | granted made arrived read => simp only [made, arrived, read]
      | refused made arrived =>
          simp only [made, arrived]
          rfl

/-! ### What a call leaves -/

theorem Portable.modifyLine (h : sim.Portable) {f : SimLine → SimLine} (offset : Offset)
    (hf : ∀ line : SimLine, line.Portable → (f line).Portable) :
    (sim.modifyLine offset f).Portable := by
  refine ⟨h.name, h.label, ?_, h.grants⟩
  intro other line hline
  rw [line?_modifyLine] at hline
  split at hline
  · obtain ⟨old, hold, rfl⟩ := Option.map_eq_some_iff.mp hline
    exact hf old (h.lines other old hold)
  · exact h.lines other line hline

theorem Portable.modifyAll (h : sim.Portable) {updates : List (Offset × (SimLine → SimLine))}
    (hf : ∀ update ∈ updates, ∀ line : SimLine, line.Portable → (update.2 line).Portable) :
    (sim.modifyAll updates).Portable := by
  induction updates generalizing sim with
  | nil => exact h
  | cons update rest ih =>
      exact ih (h.modifyLine update.1 (hf update List.mem_cons_self)) fun other hother =>
        hf other (List.mem_cons_of_mem _ hother)

theorem portable_take {consumer : String} (h : Label.Fits consumer) {line : SimLine}
    (hline : line.Portable) : (line.take consumer).Portable := by
  refine ⟨hline.name, ?_⟩
  intro other hother
  simp only [SimLine.take] at hother
  split at hother
  · cases hother
  · next hsome =>
    obtain rfl := Option.some.inj hother
    exact ⟨hsome, h⟩

theorem portable_configure (flags : HandleFlags) (value : UInt8) {line : SimLine}
    (h : line.Portable) : (line.configure flags value).Portable := by
  unfold SimLine.configure
  split <;> exact ⟨h.name, h.consumer⟩

/-- A request takes lines and changes their settings; its file serves as many as it names. -/
theorem Portable.granted (h : sim.Portable) {offsets : List Offset} {consumer : String}
    {updates : List (Offset × (SimLine → SimLine))} {grant : Grant} (hconsumer : Label.Fits consumer)
    (hf : ∀ update ∈ updates, ∀ line : SimLine, line.Portable → (update.2 line).Portable)
    (hgrant : grant.offsets.length ≤ maxLines) :
    Portable { (sim.modifyAll (takes offsets consumer)).modifyAll updates with
      grants := sim.grants ++ [grant] } := by
  have htaken : (sim.modifyAll (takes offsets consumer)).Portable := by
    apply h.modifyAll
    intro update hupdate line hline
    obtain ⟨offset, -, rfl⟩ := List.mem_map.mp hupdate
    exact portable_take hconsumer hline
  have hdone := htaken.modifyAll hf
  refine ⟨hdone.name, hdone.label, hdone.lines, ?_⟩
  intro other hother
  rcases List.mem_append.mp hother with hother | hother
  · exact h.grants other hother
  · rwa [List.mem_singleton.mp hother]

theorem Portable.configures (h : sim.Portable) (offsets : List Offset) (flags : HandleFlags)
    (values : List UInt8) : (sim.modifyAll (configures offsets flags values)).Portable := by
  apply h.modifyAll
  intro update hupdate line hline
  obtain ⟨entry, -, rfl⟩ := List.mem_map.mp hupdate
  exact portable_configure flags _ hline

theorem Portable.perform (h : sim.Portable) {call : Call} (hcall : call.Portable) :
    (sim.perform fresh call).2.Portable := by
  rcases hperform : sim.perform fresh call with ⟨error | reply, after⟩
  · rw [perform_refused hperform]
    exact h
  cases call with
  | chipInfo | lineInfo | getValues =>
      obtain rfl := (Prod.mk.inj hperform).2
      exact h
  | requestLines request =>
      obtain ⟨-, hgranted⟩ := settle_eq_ok.mp hperform
      have hcount : request.offsets.length ≤ maxLines := by
        unfold requestLines at hgranted
        split at hgranted
        · cases hgranted
        · next hroom =>
          simp only [Bool.or_eq_true, decide_eq_true_eq, not_or, Nat.not_lt] at hroom
          exact hroom.2
      obtain ⟨-, -, rfl⟩ := requestLines_eq_ok hgranted
      refine h.granted hcall.2 ?_ hcount
      intro update hupdate line hline
      obtain ⟨entry, -, rfl⟩ := List.mem_map.mp hupdate
      exact portable_configure _ _ hline
  | requestEvent request =>
      obtain ⟨-, hgranted⟩ := settle_eq_ok.mp hperform
      obtain ⟨-, -, rfl⟩ := requestEvent_eq_ok hgranted
      refine h.granted hcall.2.2 ?_ (by decide : 1 ≤ maxLines)
      intro update hupdate line hline
      obtain rfl := List.mem_singleton.mp hupdate
      exact ⟨hline.name, hline.consumer⟩
  | setValues file values =>
      obtain ⟨-, hset⟩ := settle_eq_ok.mp hperform
      obtain ⟨grant, -, -, -, -, rfl⟩ := setValues_eq_ok hset
      apply h.modifyAll
      intro update hupdate line hline
      obtain ⟨entry, -, rfl⟩ := List.mem_map.mp hupdate
      exact ⟨hline.name, hline.consumer⟩
  | setConfig file flags values =>
      obtain ⟨-, hset⟩ := settle_eq_ok.mp hperform
      obtain ⟨-, grant, -, -, -, rfl⟩ := setConfig_eq_ok hset
      exact h.configures ..

theorem Portable.release (h : sim.Portable) (file : FileId) : (sim.release file).Portable := by
  rcases sim.release_eq file with ⟨-, heq⟩ | ⟨grant, -, -, -, heq⟩
  · rw [heq]
    exact h
  · have hfreed : (sim.modifyAll (frees grant.offsets)).Portable := by
      apply h.modifyAll
      intro update hupdate line hline
      obtain ⟨offset, -, rfl⟩ := List.mem_map.mp hupdate
      exact ⟨hline.name, nofun⟩
    rw [heq]
    exact ⟨hfreed.name, hfreed.label, hfreed.lines, fun other hother =>
      h.grants other (List.mem_filter.mp hother).1⟩

end Simulator

/-! ### Sessions -/

/-- What a client does with a chip: a call, with the number for the file it may be granted, or it is
done with a file, which it gives back and closes. -/
inductive Use where
  | call (fresh : FileId) (call : Call)
  | finish (file : FileId)
deriving Repr

abbrev Answer := (call : Call) × Outcome call

/-- With the chip itself. Closing a file that was given back changes nothing. -/
def Simulator.use (sim : Simulator) : Use → List Answer × Simulator
  | .call fresh call => ([⟨call, (sim.perform fresh call).1⟩], (sim.perform fresh call).2)
  | .finish file => ([], sim.release file)

/-- Through the character device. Giving a file back is no request, but closing it frees its lines. -/
def HostingKernel.use (kernel : HostingKernel) : Use → List Answer × HostingKernel
  | .call fresh call =>
    let (outcome, kernel) := CharacterDevice.perform call { kernel with fresh }
    ([⟨call, outcome⟩], kernel)
  | .finish file => ([], kernel.close file)

def Simulator.useAll (sim : Simulator) : List Use → List Answer × Simulator
  | [] => ([], sim)
  | use :: rest => ((sim.use use).1 ++ ((sim.use use).2.useAll rest).1, ((sim.use use).2.useAll rest).2)

def HostingKernel.useAll (kernel : HostingKernel) : List Use → List Answer × HostingKernel
  | [] => ([], kernel)
  | use :: rest =>
    ((kernel.use use).1 ++ ((kernel.use use).2.useAll rest).1, ((kernel.use use).2.useAll rest).2)

/-- The call fits its buffer and the file it is made on, and the number of a file fits its word. -/
def Simulator.CanUse (sim : Simulator) : Use → Prop
  | .call fresh call => fresh < 2 ^ 32 ∧ call.Portable ∧ sim.Suits call
  | .finish _ => True

def Simulator.CanUseAll (sim : Simulator) : List Use → Prop
  | [] => True
  | use :: rest => sim.CanUse use ∧ (sim.use use).2.CanUseAll rest

theorem Simulator.Portable.use {sim : Simulator} (h : sim.Portable) {use : Use}
    (hcan : sim.CanUse use) : (sim.use use).2.Portable := by
  cases use with
  | call fresh call => exact h.perform hcan.2.1
  | finish file => exact h.release file

theorem HostingKernel.use_hosted {kernel : HostingKernel} (h : kernel.chip.Portable) {use : Use}
    (hcan : kernel.chip.CanUse use) :
    (kernel.use use).1 = (kernel.chip.use use).1 ∧
      (kernel.use use).2.chip = (kernel.chip.use use).2 := by
  cases use with
  | call fresh call =>
      obtain ⟨hfresh, hcall, hsuits⟩ := hcan
      have hperform := Simulator.perform_hosted h hfresh hcall hsuits
      simp only [HostingKernel.use, hperform]
      exact ⟨rfl, rfl⟩
  | finish file => exact ⟨rfl, rfl⟩

theorem HostingKernel.useAll_hosted {uses : List Use} {kernel : HostingKernel}
    (h : kernel.chip.Portable) (hcan : kernel.chip.CanUseAll uses) :
    (kernel.useAll uses).1 = (kernel.chip.useAll uses).1 ∧
      (kernel.useAll uses).2.chip = (kernel.chip.useAll uses).2 := by
  induction uses generalizing kernel with
  | nil => exact ⟨rfl, rfl⟩
  | cons use rest ih =>
      obtain ⟨hcan, hrest⟩ := hcan
      obtain ⟨hanswers, hchip⟩ := use_hosted h hcan
      have hafter : (kernel.use use).2.chip.Portable := hchip ▸ h.use hcan
      rw [← hchip] at hrest
      obtain ⟨hanswersRest, hchipRest⟩ := ih hafter hrest
      rw [hchip] at hanswersRest hchipRest
      exact ⟨congrArg₂ (· ++ ·) hanswers hanswersRest, hchipRest⟩

/-! ### Which chips and uses these are -/

instance (text : String) : Decidable (Label.Fits text) :=
  decidable_of_iff ((Text.toBytes text).length < Label.width ∧ 0 ∉ Text.toBytes text)
    ⟨fun h => ⟨h.1, h.2⟩, fun h => ⟨h.short, h.nonzero⟩⟩

instance : (call : Call) → Decidable call.Portable
  | .requestLines request =>
    inferInstanceAs (Decidable (request.flags.unknown &&& _ = 0 ∧ Label.Fits request.consumer))
  | .requestEvent request =>
    inferInstanceAs (Decidable (request.flags.unknown &&& _ = 0 ∧ request.edges.unknown &&& _ = 0 ∧
      Label.Fits request.consumer))
  | .setConfig _ flags _ => inferInstanceAs (Decidable (flags.unknown &&& _ = 0))
  | .chipInfo | .lineInfo _ | .getValues .. | .setValues .. => isTrue trivial

instance (sim : Simulator) : (call : Call) → Decidable (sim.Suits call)
  | .getValues file buffer =>
    inferInstanceAs (Decidable (∀ grant ∈ sim.grant? file, buffer.length = grant.offsets.length))
  | .setValues file values =>
    inferInstanceAs (Decidable (∀ grant ∈ sim.grant? file, values.length = grant.offsets.length))
  | .chipInfo | .lineInfo _ | .requestLines _ | .requestEvent _ | .setConfig .. => isTrue trivial

instance (sim : Simulator) : (use : Use) → Decidable (sim.CanUse use)
  | .call fresh call =>
    inferInstanceAs (Decidable (fresh < 2 ^ 32 ∧ call.Portable ∧ sim.Suits call))
  | .finish _ => isTrue trivial

instance decidableCanUseAll : (uses : List Use) → (sim : Simulator) → Decidable (sim.CanUseAll uses)
  | [], _ => isTrue trivial
  | use :: rest, sim =>
    have := decidableCanUseAll rest (sim.use use).2
    inferInstanceAs (Decidable (sim.CanUse use ∧ (sim.use use).2.CanUseAll rest))

namespace Simulator

theorem portable_create {name : String} (hname : Label.Fits name) (hlabel : Label.Fits (name ++ "-sim"))
    (lineCount : UInt32) : (create name lineCount).Portable where
  name := hname
  label := hlabel
  lines := by
    intro offset line hline
    obtain ⟨-, rfl⟩ := Array.getElem?_eq_some_iff.mp hline
    simp only [create, Array.getElem_replicate]
    exact ⟨nofun, nofun⟩
  grants := nofun

theorem Portable.setName {sim : Simulator} (h : sim.Portable) {name : String} (hsome : name ≠ "")
    (hname : Label.Fits name) (offset : Offset) : (sim.setName offset name).Portable := by
  refine h.modifyLine offset fun line hline => ⟨?_, hline.consumer⟩
  intro other hother
  obtain rfl := Option.some.inj hother
  exact ⟨hsome, hname⟩

theorem Portable.hog {sim : Simulator} (h : sim.Portable) {consumer : String} (hsome : consumer ≠ "")
    (hconsumer : Label.Fits consumer) (offset : Offset) : (sim.hog offset consumer).Portable := by
  refine h.modifyLine offset fun line hline => ⟨hline.name, ?_⟩
  intro other hother
  obtain rfl := Option.some.inj hother
  exact ⟨hsome, hconsumer⟩

end Simulator

/-- **A character device over a simulated chip is that chip.** Whatever a client does, and whichever
numbers its files get, it is answered alike and leaves the chip alike. Over any kernel, a request
without lines or with too many is refused and never gets there. -/
theorem character_device_transparent {sim : Simulator} (h : sim.Portable) {uses : List Use}
    (hcan : sim.CanUseAll uses) (fresh : FileId) :
    ((⟨sim, fresh⟩ : HostingKernel).useAll uses).1 = (sim.useAll uses).1 ∧
      ((⟨sim, fresh⟩ : HostingKernel).useAll uses).2.chip = (sim.useAll uses).2 ∧
      ∀ {κ : Type} [Kernel κ] (kernel : κ) (request : LinesRequest),
        request.offsets = [] ∨ maxLines < request.offsets.length →
        CharacterDevice.perform (.requestLines request) kernel =
          (.error (.call .requestLines .invalid), kernel) := by
  obtain ⟨hanswers, hchip⟩ := @HostingKernel.useAll_hosted uses ⟨sim, fresh⟩ h hcan
  refine ⟨hanswers, hchip, ?_⟩
  intro κ _ kernel request hbad
  have hcarry : CharacterDevice.canCarry (.requestLines request) = false := by
    rw [CharacterDevice.canCarry, Bool.and_eq_false_iff]
    exact hbad.imp (by simp) (by simp)
  rw [CharacterDevice.perform, hcarry]
  rfl

/-- A chip with a named line and one that is held. -/
def namedChip : Simulator := ((Simulator.create "gpiochip0" 4).setName 2 "LED0").hog 3 "kernel"

/-- Every call there is, two of them refused, and both files given back in the end. -/
def everyCall : List Use :=
  [.call 5 .chipInfo, .call 5 (.lineInfo 2), .call 5 (.lineInfo 4),
    .call 5 (.requestLines ⟨[2, 0], { output := true, unknown := 0x100 }, [1, 0], "lamp"⟩),
    .call 6 (.requestEvent ⟨1, { input := true }, { rising := true }, "button"⟩),
    .call 7 (.requestLines ⟨[], {}, [], ""⟩), .call 7 (.setValues 5 [0, 1]),
    .call 7 (.getValues 5 [0, 0]), .call 7 (.setConfig 5 { input := true } []), .finish 5,
    .call 7 (.getValues 5 []), .finish 6]

theorem transparent_everyCall :
    namedChip.Portable ∧ namedChip.CanUseAll everyCall ∧
      ((⟨namedChip, 0⟩ : HostingKernel).useAll everyCall).1 = (namedChip.useAll everyCall).1 := by
  have hchip : namedChip.Portable :=
    ((Simulator.portable_create (by decide) (by decide) 4).setName (by decide) (by decide) 2).hog
      (by decide) (by decide) 3
  have hcan : namedChip.CanUseAll everyCall := by decide
  exact ⟨hchip, hcan, (character_device_transparent hchip hcan 0).1⟩

end GpioLines
