import Mathlib.Data.Nat.Bitwise
import GpioLines.Kernel.Layout
import GpioLines.Proofs.Records
import GpioLines.Proofs.SimulatedLines
import GpioLines.Proofs.Utf8

/-!
# What a field holds is read back

A request buffer is its fields one after the other, each of fixed width. So a reader that knows the
widths finds every field again, and what it makes of the bytes is what was written: words and lists of
words, values filled up with zeros, texts that end in a zero byte, and flags, the unknown ones
included.
-/

namespace GpioLines

namespace Bytes

/-! ### Fields one after the other -/

/-- A field behind the first piece is a field of what follows. -/
theorem field_append {start : Nat} {piece : List UInt8} (width : Nat) (rest : List UInt8)
    (h : piece.length ≤ start) :
    field start width (piece ++ rest) = field (start - piece.length) width rest := by
  obtain ⟨more, rfl⟩ := Nat.exists_eq_add_of_le h
  rw [Nat.add_sub_cancel_left, field_append_right width more rest rfl]

theorem word32_append {start : Nat} {piece : List UInt8} (rest : List UInt8)
    (h : piece.length ≤ start) :
    word32 start (piece ++ rest) = word32 (start - piece.length) rest := by
  rw [word32, field_append 4 rest h, word32]

theorem word32_ofNat_append (n : Nat) (rest : List UInt8) :
    word32 0 (ofNat 4 n ++ rest) = UInt32.ofNat n := by
  rw [word32, field_append_left rest (length_ofNat 4 n), toNat_ofNat]
  exact UInt32.toNat_inj.mp (by simp only [UInt32.toNat_ofNat']; omega)

theorem word32_overwrite {start : Nat} (n : Nat) {bytes : List UInt8} (h : start ≤ bytes.length) :
    word32 start (overwrite start (ofNat 4 n) bytes) = UInt32.ofNat n := by
  have hlength : (bytes.take start).length = start := List.length_take_of_le h
  rw [overwrite, List.append_assoc, word32_append _ (Nat.le_of_eq hlength), hlength, Nat.sub_self,
    word32_ofNat_append]

/-! ### Filling up -/

theorem fit_of_le {width : Nat} {bytes : List UInt8} (h : bytes.length ≤ width) :
    fit width bytes = bytes ++ List.replicate (width - bytes.length) 0 := by
  rw [fit, List.take_of_length_le h]

theorem take_fit {count width : Nat} (h : count ≤ width) (bytes : List UInt8) :
    (fit width bytes).take count = fit count bytes := by
  apply List.ext_getElem
  · simp [Nat.min_eq_left h]
  · intro i hi hi'
    simp only [fit, List.getElem_take, List.getElem_append, List.length_take, List.getElem_replicate]
    simp only [List.length_take, length_fit] at hi
    split <;> split <;> first | rfl | omega

/-- What has room in the narrower field is the same in the wider one. -/
theorem fit_fit {count width : Nat} (h : count ≤ width) (bytes : List UInt8) :
    fit count (fit width bytes) = fit count bytes := by
  rw [fit, take_fit h, length_fit, Nat.sub_eq_zero_of_le h, List.replicate_zero, List.append_nil]

/-! ### Lists of words -/

theorem words_of_flatMap (words : List UInt32) (rest : List UInt8) :
    ((List.range words.length).map fun i => word32 (4 * i) (words.flatMap ofWord32 ++ rest)) =
      words := by
  induction words with
  | nil => rfl
  | cons word words ih =>
      rw [List.length_cons, List.range_succ_eq_map, List.map_cons, List.map_map, List.flatMap_cons,
        List.append_assoc, Nat.mul_zero, word32_ofWord32]
      refine congrArg (word :: ·) (Eq.trans (List.map_congr_left fun i _ => ?_) ih)
      have hbehind : (ofWord32 word).length ≤ 4 * (i + 1) := by
        rw [length_ofWord32]
        omega
      rw [Function.comp_apply, word32_append _ hbehind, length_ofWord32, Nat.mul_succ,
        Nat.add_sub_cancel]

theorem length_flatMap_ofWord32 (words : List UInt32) :
    (words.flatMap ofWord32).length = 4 * words.length := by
  induction words with
  | nil => rfl
  | cons word words ih =>
      rw [List.flatMap_cons, List.length_append, ih, length_ofWord32, List.length_cons, Nat.mul_succ,
        Nat.add_comm]

end Bytes

/-! ### Texts -/

namespace Label

/-- The text has room in a field, and ends at the zero byte behind it. -/
structure Fits (text : String) : Prop where
  short : (Text.toBytes text).length < width
  nonzero : 0 ∉ Text.toBytes text

theorem takeWhile_fit {bytes : List UInt8} (hshort : bytes.length ≤ width) (hnonzero : 0 ∉ bytes) :
    (Bytes.fit width bytes).takeWhile (· != 0) = bytes := by
  have hall : ∀ byte ∈ bytes, (byte != 0) = true := by
    intro byte hbyte
    rw [bne_iff_ne]
    rintro rfl
    exact hnonzero hbyte
  rw [Bytes.fit_of_le hshort, List.takeWhile_append_of_pos hall]
  cases width - bytes.length with
  | zero => exact List.append_nil _
  | succ count => exact List.append_nil _

theorem field_eq {text : String} (h : Fits text) : field text = Bytes.fit width (Text.toBytes text) := by
  rw [field, List.take_of_length_le (Nat.le_sub_one_of_lt h.short)]

theorem toBytes_eq_nil {text : String} : Text.toBytes text = [] ↔ text = "" := by
  constructor
  · intro h
    rw [← Text.ofBytes_toBytes text, h]
    rfl
  · rintro rfl
    rfl

/-- A field with a text gives it back; the empty text is none. -/
theorem text?_fit {text : String} (h : Fits text) :
    text? (Bytes.fit width (Text.toBytes text)) = if text = "" then none else some text := by
  have hcontent : content (Bytes.fit width (Text.toBytes text)) = Text.toBytes text := by
    rw [content, List.take_of_length_le (Nat.le_of_eq (Bytes.length_fit ..)),
      takeWhile_fit (Nat.le_of_lt h.short) h.nonzero]
  simp only [text?, hcontent, List.isEmpty_iff, toBytes_eq_nil, Text.ofBytes_toBytes]

end Label

/-! ### Flags -/

theorem hasBit_or (a b : UInt32) (position : Nat) :
    hasBit (a ||| b) position = (hasBit a position || hasBit b position) := by
  rw [hasBit, UInt32.toNat_or, Nat.testBit_or, hasBit, hasBit]

theorem hasBit_and (a b : UInt32) (position : Nat) :
    hasBit (a &&& b) position = (hasBit a position && hasBit b position) := by
  rw [hasBit, UInt32.toNat_and, Nat.testBit_and, hasBit, hasBit]

theorem bitIf_hasBit (word : UInt32) {position : Nat} (h : position < 32) :
    bitIf (hasBit word position) position = word &&& bitIf true position := by
  have hbit : ∀ place < 32, (bitIf true place).toNat = 2 ^ place := by decide
  rw [← UInt32.toNat_inj, UInt32.toNat_and, hbit position h, Nat.and_two_pow, hasBit]
  cases word.toNat.testBit position with
  | false => simp [bitIf]
  | true => rw [hbit position h, Bool.toNat_true, Nat.one_mul]

theorem and_or_and (word a b : UInt32) : word &&& a ||| word &&& b = word &&& (a ||| b) := by
  rw [← UInt32.toBitVec_inj]
  exact BitVec.and_or_distrib_left.symm

/-- To read the settings of a word and write them again is to mask the word. -/
theorem Settings.handleBits_ofHandleBits (word : UInt32) :
    (ofHandleBits word).handleBits = word &&& 0xFC := by
  have hbit : ∀ place < 32, bitIf (hasBit word place) place = word &&& bitIf true place :=
    fun _ => bitIf_hasBit word
  simp only [handleBits, ofHandleBits, hbit, Nat.reduceLT, and_or_and]
  rfl

/-- Bits of no name hide none that have one. -/
theorem hasBit_or_of_disjoint {word known : UInt32} (named : UInt32) (h : word &&& known = 0)
    {position : Nat} (hknown : hasBit known position = true) :
    hasBit (named ||| word) position = hasBit named position := by
  have hnone := hasBit_and word known position
  rw [h, hknown, Bool.and_true, hasBit, UInt32.toNat_zero, Nat.zero_testBit] at hnone
  rw [hasBit_or, ← hnone, Bool.or_false]

/-- Masking off the named bits leaves the others, as long as no bit is of both kinds. -/
theorem or_and_not {named word known : UInt32} (hnamed : named &&& ~~~known = 0)
    (h : word &&& known = 0) : (named ||| word) &&& ~~~known = word := by
  rw [← UInt32.toBitVec_inj] at hnamed h ⊢
  apply BitVec.eq_of_getLsbD_eq
  intro i hi
  have hnone := congrArg (BitVec.getLsbD · i) hnamed
  have hother := congrArg (BitVec.getLsbD · i) h
  simp only [UInt32.toBitVec_and, UInt32.toBitVec_or, UInt32.toBitVec_not, BitVec.getLsbD_and,
    BitVec.getLsbD_or, BitVec.getLsbD_not, hi, decide_true, Bool.true_and] at hnone hother ⊢
  revert hnone hother
  cases named.toBitVec.getLsbD i <;> cases word.toBitVec.getLsbD i <;>
    cases known.toBitVec.getLsbD i <;> simp

/-- The unknown bits of a word are those that have no name. -/
def HandleFlags.WellFormed (flags : HandleFlags) : Prop :=
  flags.unknown &&& handleFlagNames.known = 0

def EdgeFlags.WellFormed (edges : EdgeFlags) : Prop :=
  edges.unknown &&& edgeFlagNames.known = 0

theorem HandleFlags.ofBits_toBits_unknown {flags : HandleFlags} (h : flags.WellFormed) :
    ofBits flags.toBits = flags := by
  obtain ⟨input, output, settings, unknown⟩ := flags
  have hnamed := ofBits_toBits input output settings
  have hword : toBits ⟨input, output, settings, unknown⟩ =
      toBits ⟨input, output, settings, 0⟩ ||| unknown := by
    simp only [toBits, UInt32.or_zero]
  have hknown : ∀ position < 8, hasBit handleFlagNames.known position = true := by decide
  have hbit : ∀ position < 8, hasBit (toBits ⟨input, output, settings, 0⟩ ||| unknown) position =
      hasBit (toBits ⟨input, output, settings, 0⟩) position :=
    fun position hposition => hasBit_or_of_disjoint _ h (hknown position hposition)
  rw [hword, ofBits, or_and_not (congrArg HandleFlags.unknown hnamed) h]
  simp only [Settings.ofHandleBits, hbit, Nat.reduceLT]
  simp only [ofBits, Settings.ofHandleBits, HandleFlags.mk.injEq] at hnamed ⊢
  exact ⟨hnamed.1, hnamed.2.1, hnamed.2.2.1, trivial⟩

theorem EdgeFlags.ofBits_toBits {edges : EdgeFlags} (h : edges.WellFormed) :
    ofBits edges.toBits = edges := by
  obtain ⟨rising, falling, unknown⟩ := edges
  have hread : ∀ rising falling, ofBits (toBits ⟨rising, falling, 0⟩) = ⟨rising, falling, 0⟩ := by
    decide
  have hnamed := hread rising falling
  have hword : toBits ⟨rising, falling, unknown⟩ = toBits ⟨rising, falling, 0⟩ ||| unknown := by
    simp only [toBits, UInt32.or_zero]
  have hknown : ∀ position < 2, hasBit edgeFlagNames.known position = true := by decide
  have hbit : ∀ position < 2, hasBit (toBits ⟨rising, falling, 0⟩ ||| unknown) position =
      hasBit (toBits ⟨rising, falling, 0⟩) position :=
    fun position hposition => hasBit_or_of_disjoint _ h (hknown position hposition)
  rw [hword, ofBits, or_and_not (congrArg EdgeFlags.unknown hnamed) h]
  simp only [hbit, Nat.reduceLT]
  simp only [ofBits, EdgeFlags.mk.injEq] at hnamed ⊢
  exact ⟨hnamed.1, hnamed.2.1, trivial⟩

end GpioLines
