import GpioLines.Kernel.CharacterDevice
import GpioLines.Proofs.Fields

/-!
# A kernel that keeps a simulated chip

Behind a character device stands a kernel, and a kernel that keeps a simulated chip can be written
down: it takes each buffer apart by its layout, lets the chip answer, and writes the answer back into
the buffer. It is written without regard to how the buffers come about. That it finds in each buffer
the call that was laid out in it is what has to be proved (`decode_buffer`), field by field: a label
ends at its zero byte, a list of offsets after as many words as there are lines, and values fill the
width of their field.
-/

namespace GpioLines

open Bytes

/-! ### The kernel -/

/-- A kernel with a chip, and the number it gives to the file that it opens next. -/
structure HostingKernel where
  chip : Simulator
  fresh : FileId
deriving Repr

namespace HostingKernel

def textAt (start : Nat) (buffer : List UInt8) : String :=
  Text.ofBytes ((field start Label.width buffer).takeWhile (· != 0))

def textField (text : String) : List UInt8 := fit Label.width (Text.toBytes text)

/-- The words at the front of a request, as many as the request says it has lines. -/
def offsetsIn (buffer : List UInt8) : List Offset :=
  (List.range (word32 356 buffer).toNat).map fun i => word32 (4 * i) buffer

/-- The call that a buffer stands for. Files of the chip and of a request know different calls. -/
def decode : Target → CallKind → List UInt8 → Option Call
  | .chip, .chipInfo, _ => some .chipInfo
  | .chip, .lineInfo, buffer => some (.lineInfo (word32 0 buffer))
  | .chip, .requestLines, buffer =>
    some (.requestLines
      { offsets := offsetsIn buffer
        flags := HandleFlags.ofBits (word32 256 buffer)
        values := field 260 maxLines buffer
        consumer := textAt 324 buffer })
  | .chip, .requestEvent, buffer =>
    some (.requestEvent
      { offset := word32 0 buffer
        flags := HandleFlags.ofBits (word32 4 buffer)
        edges := EdgeFlags.ofBits (word32 8 buffer)
        consumer := textAt 12 buffer })
  | .handle file, .getValues, buffer => some (.getValues file (field 0 maxLines buffer))
  | .handle file, .setValues, buffer => some (.setValues file (field 0 maxLines buffer))
  | .handle file, .setConfig, buffer =>
    some (.setConfig file (HandleFlags.ofBits (word32 0 buffer)) (field 4 maxLines buffer))
  | _, _, _ => none

/-- The buffer with the answer in it. -/
def encode (buffer : List UInt8) : (call : Call) → call.Reply → List UInt8
  | .chipInfo, info => textField info.name ++ textField info.label ++ ofWord32 info.lineCount
  | .lineInfo _, info =>
    ofWord32 info.offset ++ ofWord32 info.flags.toBits ++ textField (info.name.getD "") ++
      textField (info.consumer.getD "")
  | .requestLines _, file => overwrite 360 (ofNat 4 file) buffer
  | .requestEvent _, file => overwrite 44 (ofNat 4 file) buffer
  | .getValues .., values => values.1
  | .setValues .., _ => buffer
  | .setConfig .., _ => buffer

instance : Kernel HostingKernel where
  request target kind buffer kernel :=
    match decode target kind buffer with
    | none => (.error .notTypewriter, kernel)
    | some call =>
      match kernel.chip.perform kernel.fresh call with
      | (.ok reply, chip) => (.ok (encode buffer call reply), { kernel with chip })
      | (.error error, chip) => (.error (error.errno?.getD .ioFailure), { kernel with chip })

/-- Closing the file of a request is what frees its lines. -/
def close (kernel : HostingKernel) (file : FileId) : HostingKernel :=
  { kernel with chip := kernel.chip.release file }

end HostingKernel

/-! ### What gets through -/

/-- The flags of the call are those of a word, and its texts have room in their fields. -/
def Call.Portable : Call → Prop
  | .requestLines request => request.flags.WellFormed ∧ Label.Fits request.consumer
  | .requestEvent request =>
    request.flags.WellFormed ∧ request.edges.WellFormed ∧ Label.Fits request.consumer
  | .setConfig _ flags _ => flags.WellFormed
  | _ => True

/-- The call as it arrives: values fill the width of their field. -/
def Call.carried : Call → Call
  | .requestLines request =>
    .requestLines { request with values := Layout.valuesField request.values }
  | .getValues file _ => .getValues file (Layout.valuesField [])
  | .setValues file values => .setValues file (Layout.valuesField values)
  | .setConfig file flags values => .setConfig file flags (Layout.valuesField values)
  | call => call

theorem Label.textAt_field {text : String} (h : Fits text) {start : Nat} {buffer : List UInt8}
    (hfield : Bytes.field start width buffer = field text) :
    HostingKernel.textAt start buffer = text := by
  rw [HostingKernel.textAt, hfield, field_eq h, takeWhile_fit (Nat.le_of_lt h.short) h.nonzero,
    Text.ofBytes_toBytes]

namespace Layout

@[simp] theorem length_valuesField (values : List UInt8) : (valuesField values).length = 64 :=
  length_fit ..

@[simp] theorem length_offsetsField (offsets : List Offset) : (offsetsField offsets).length = 256 :=
  length_fit ..

/-- Offsets that have room are found again, followed by zeros. -/
theorem offsetsField_eq {offsets : List Offset} (h : offsets.length ≤ maxLines) :
    ∃ zeros, offsetsField offsets = offsets.flatMap ofWord32 ++ zeros := by
  refine ⟨_, fit_of_le ?_⟩
  rw [length_flatMap_ofWord32]
  exact Nat.mul_le_mul_left 4 h

/-! ### The fields of a request for lines -/

variable (request : LinesRequest)

theorem flags_linesRequest : word32 256 (linesRequest request) = request.flags.toBits := by
  simp (disch := simp) only [linesRequest, List.append_assoc, word32_append, length_offsetsField,
    Nat.sub_self, word32_ofWord32]

theorem values_linesRequest :
    field 260 maxLines (linesRequest request) = valuesField request.values := by
  simp (disch := simp) only [linesRequest, List.append_assoc, field_append, length_offsetsField,
    length_ofWord32, Nat.reduceSub]
  exact field_append_left _ (length_valuesField _)

theorem consumer_linesRequest :
    field 324 Label.width (linesRequest request) = Label.field request.consumer := by
  simp (disch := simp) only [linesRequest, List.append_assoc, field_append, length_offsetsField,
    length_ofWord32, length_valuesField, Nat.reduceSub]
  exact field_append_left _ (Label.length_field _)

theorem count_linesRequest :
    word32 356 (linesRequest request) = UInt32.ofNat request.offsets.length := by
  simp (disch := simp [Label.width]) only [linesRequest, List.append_assoc, word32_append,
    length_offsetsField, length_ofWord32, length_valuesField, Label.length_field, Label.width,
    Nat.reduceSub]
  exact word32_ofWord32 ..

theorem offsetsIn_linesRequest {request : LinesRequest} (h : request.offsets.length ≤ maxLines) :
    HostingKernel.offsetsIn (linesRequest request) = request.offsets := by
  have hcount : (UInt32.ofNat request.offsets.length).toNat = request.offsets.length :=
    UInt32.toNat_ofNat_of_lt' (Nat.lt_of_le_of_lt h (by decide))
  obtain ⟨zeros, hzeros⟩ := offsetsField_eq h
  rw [HostingKernel.offsetsIn, count_linesRequest, hcount, linesRequest, hzeros]
  simp only [List.append_assoc]
  exact words_of_flatMap ..

/-! ### The fields of the other buffers -/

theorem offset_lineInfo (offset : Offset) : word32 0 (lineInfo offset) = offset := by
  rw [lineInfo, fit_of_le (by simp), word32_ofWord32]

theorem fields_eventRequest (request : EventRequest) :
    word32 0 (eventRequest request) = request.offset ∧
      word32 4 (eventRequest request) = request.flags.toBits ∧
      word32 8 (eventRequest request) = request.edges.toBits ∧
      field 12 Label.width (eventRequest request) = Label.field request.consumer := by
  simp (disch := simp) only [eventRequest, List.append_assoc, word32_append, field_append,
    length_ofWord32, Nat.reduceSub, word32_ofWord32, true_and]
  exact field_append_left _ (Label.length_field _)

theorem fields_config (flags : HandleFlags) (values : List UInt8) :
    word32 0 (config flags values) = flags.toBits ∧
      field 4 maxLines (config flags values) = valuesField values := by
  simp (disch := simp) only [config, List.append_assoc, field_append, length_ofWord32,
    Nat.reduceSub, word32_ofWord32, true_and]
  exact field_append_left _ (length_valuesField _)

theorem field_valuesField (values : List UInt8) :
    field 0 maxLines (valuesField values) = valuesField values := by
  exact List.take_of_length_le (Nat.le_of_eq (length_valuesField values))

/-- **The kernel finds in a buffer the call that was laid out in it.** -/
theorem decode_buffer {call : Call} (hfits : CharacterDevice.canCarry call) (h : call.Portable) :
    HostingKernel.decode call.target call.kind (buffer call) = some call.carried := by
  cases call with
  | chipInfo => rfl
  | lineInfo offset =>
      simp only [HostingKernel.decode, Call.target, Call.kind, buffer, offset_lineInfo, Call.carried]
  | requestLines request =>
      obtain ⟨hflags, hconsumer⟩ := h
      have hcount : request.offsets.length ≤ maxLines := by
        simpa using (Bool.and_eq_true_iff.mp hfits).2
      simp only [HostingKernel.decode, Call.target, Call.kind, buffer, Call.carried,
        offsetsIn_linesRequest hcount, flags_linesRequest, values_linesRequest,
        HandleFlags.ofBits_toBits_unknown hflags,
        Label.textAt_field hconsumer (consumer_linesRequest request)]
  | requestEvent request =>
      obtain ⟨hflags, hedges, hconsumer⟩ := h
      obtain ⟨hoffset, hflagsWord, hedgesWord, hlabel⟩ := fields_eventRequest request
      simp only [HostingKernel.decode, Call.target, Call.kind, buffer, Call.carried, hoffset,
        hflagsWord, hedgesWord, HandleFlags.ofBits_toBits_unknown hflags,
        EdgeFlags.ofBits_toBits hedges, Label.textAt_field hconsumer hlabel]
  | getValues file values =>
      simp only [HostingKernel.decode, Call.target, Call.kind, buffer, Call.carried,
        field_valuesField]
  | setValues file values =>
      simp only [HostingKernel.decode, Call.target, Call.kind, buffer, Call.carried,
        field_valuesField]
  | setConfig file flags values =>
      obtain ⟨hword, hvalues⟩ := fields_config flags values
      simp only [HostingKernel.decode, Call.target, Call.kind, buffer, Call.carried, hword, hvalues,
        HandleFlags.ofBits_toBits_unknown h]

end Layout

end GpioLines
