import GpioLines.Text.Utf8

/-!
# Text survives its bytes

The reader of bytes that may not be text gives back every text it is shown. Each character is read
from its own one to four bytes, whatever follows them, and leaves the reader at a boundary again
(`readUtf8_encodeChar`). The bounds that the first byte sets for the second are where the cases
differ: they hold for a character of that many bytes because it is not a surrogate, not beyond the
last code point and not one that fewer bytes suffice for.
-/

namespace GpioLines.Text

/-! ### Bytes where a character begins -/

theorem firstByte_one : ∀ n < 0x80, firstByte (UInt8.ofNat n) = ([Char.ofNat n], .boundary) := by
  decide

theorem firstByte_two : ∀ n < 0x20, 2 ≤ n →
    firstByte (UInt8.ofNat (n + 0xC0)) = ([], .inside 1 0x80 0xBF n) := by
  decide

theorem firstByte_three : ∀ n < 0x10, firstByte (UInt8.ofNat (n + 0xE0)) =
    ([], .inside 2 (if n = 0 then 0xA0 else 0x80) (if n = 0xD then 0x9F else 0xBF) n) := by
  decide

theorem firstByte_four : ∀ n < 5, firstByte (UInt8.ofNat (n + 0xF0)) =
    ([], .inside 3 (if n = 0 then 0x90 else 0x80) (if n = 4 then 0x8F else 0xBF) n) := by
  decide

/-! ### Bytes inside a character -/

theorem nextByte_inside {low high : UInt8} {tail : Nat} (due bits : Nat) (htail : tail < 64)
    (hlow : low.toNat ≤ tail + 0x80) (hhigh : tail + 0x80 ≤ high.toNat) :
    nextByte (.inside due low high bits) (UInt8.ofNat (tail + 0x80)) =
      if due ≤ 1 then ([Char.ofNat (bits * 64 + tail)], .boundary)
      else ([], .inside (due - 1) 0x80 0xBF (bits * 64 + tail)) := by
  have hbyte : (UInt8.ofNat (tail + 0x80)).toNat = tail + 0x80 :=
    UInt8.toNat_ofNat_of_lt' (Nat.lt_of_lt_of_le (Nat.add_lt_add_right htail _) (by decide))
  have hwithin : low ≤ UInt8.ofNat (tail + 0x80) ∧ UInt8.ofNat (tail + 0x80) ≤ high := by
    rw [UInt8.le_iff_toNat_le, UInt8.le_iff_toNat_le, hbyte]
    exact ⟨hlow, hhigh⟩
  simp only [nextByte, if_pos hwithin, hbyte, Nat.add_sub_cancel]

/-- Behind the second byte the bounds are those of any byte inside a character. -/
theorem nextByte_tail {tail : Nat} (due bits : Nat) (htail : tail < 64) :
    nextByte (.inside due 0x80 0xBF bits) (UInt8.ofNat (tail + 0x80)) =
      if due ≤ 1 then ([Char.ofNat (bits * 64 + tail)], .boundary)
      else ([], .inside (due - 1) 0x80 0xBF (bits * 64 + tail)) :=
  nextByte_inside due bits htail (Nat.le_add_left ..) (Nat.add_le_add_right (Nat.le_of_lt_succ htail) _)

/-! ### Characters and texts -/

theorem readUtf8_cons (state : Utf8State) (byte : UInt8) (rest : List UInt8) :
    readUtf8 state (byte :: rest) =
      (nextByte state byte).1 ++ readUtf8 (nextByte state byte).2 rest := by
  cases state <;> rfl

theorem readUtf8_two {lead last : Nat} (hlead : lead < 0x20) (hlong : 2 ≤ lead) (hlast : last < 64)
    (rest : List UInt8) :
    readUtf8 .boundary (UInt8.ofNat (lead + 0xC0) :: UInt8.ofNat (last + 0x80) :: rest) =
      Char.ofNat (lead * 64 + last) :: readUtf8 .boundary rest := by
  simp only [readUtf8_cons, nextByte.eq_1, firstByte_two lead hlead hlong, nextByte_tail 1 _ hlast,
    Nat.le_refl, ↓reduceIte, List.nil_append, List.cons_append]

/-- With a first byte of no bits the second one has some high ones; behind `0xED` it has not, or the
character were a surrogate. -/
theorem readUtf8_leadThree {lead second : Nat} (hlead : lead < 0x10) (hsecond : second < 64)
    (hlong : lead = 0 → 0x20 ≤ second) (hvalid : lead = 0xD → second < 0x20) (rest : List UInt8) :
    readUtf8 .boundary (UInt8.ofNat (lead + 0xE0) :: UInt8.ofNat (second + 0x80) :: rest) =
      readUtf8 (.inside 1 0x80 0xBF (lead * 64 + second)) rest := by
  have hlow : (if lead = 0 then 0xA0 else 0x80 : UInt8).toNat ≤ second + 0x80 := by
    split
    · next hzero => exact Nat.add_le_add_right (hlong hzero) 0x80
    · exact Nat.le_add_left ..
  have hhigh : second + 0x80 ≤ (if lead = 0xD then 0x9F else 0xBF : UInt8).toNat := by
    split
    · next hsurrogate => exact Nat.le_of_lt_succ (Nat.add_lt_add_right (hvalid hsurrogate) 0x80)
    · exact Nat.le_of_lt_succ (Nat.add_lt_add_right hsecond 0x80)
  simp only [readUtf8_cons, nextByte.eq_1, firstByte_three lead hlead,
    nextByte_inside 2 _ hsecond hlow hhigh, Nat.reduceLeDiff, Nat.reduceSub, ↓reduceIte,
    List.nil_append]

theorem readUtf8_three {lead second last : Nat} (hlead : lead < 0x10) (hsecond : second < 64)
    (hlong : lead = 0 → 0x20 ≤ second) (hvalid : lead = 0xD → second < 0x20) (hlast : last < 64)
    (rest : List UInt8) :
    readUtf8 .boundary (UInt8.ofNat (lead + 0xE0) :: UInt8.ofNat (second + 0x80) ::
        UInt8.ofNat (last + 0x80) :: rest) =
      Char.ofNat ((lead * 64 + second) * 64 + last) :: readUtf8 .boundary rest := by
  simp only [readUtf8_leadThree hlead hsecond hlong hvalid, readUtf8_cons, nextByte_tail 1 _ hlast,
    Nat.le_refl, ↓reduceIte, List.nil_append, List.cons_append]

theorem readUtf8_leadFour {lead second : Nat} (hlead : lead < 5) (hsecond : second < 64)
    (hlong : lead = 0 → 0x10 ≤ second) (hvalid : lead = 4 → second < 0x10) (rest : List UInt8) :
    readUtf8 .boundary (UInt8.ofNat (lead + 0xF0) :: UInt8.ofNat (second + 0x80) :: rest) =
      readUtf8 (.inside 2 0x80 0xBF (lead * 64 + second)) rest := by
  have hlow : (if lead = 0 then 0x90 else 0x80 : UInt8).toNat ≤ second + 0x80 := by
    split
    · next hzero => exact Nat.add_le_add_right (hlong hzero) 0x80
    · exact Nat.le_add_left ..
  have hhigh : second + 0x80 ≤ (if lead = 4 then 0x8F else 0xBF : UInt8).toNat := by
    split
    · next hbeyond => exact Nat.le_of_lt_succ (Nat.add_lt_add_right (hvalid hbeyond) 0x80)
    · exact Nat.le_of_lt_succ (Nat.add_lt_add_right hsecond 0x80)
  simp only [readUtf8_cons, nextByte.eq_1, firstByte_four lead hlead,
    nextByte_inside 3 _ hsecond hlow hhigh, Nat.reduceLeDiff, Nat.reduceSub, ↓reduceIte,
    List.nil_append]

theorem readUtf8_four {lead second third last : Nat} (hlead : lead < 5) (hsecond : second < 64)
    (hlong : lead = 0 → 0x10 ≤ second) (hvalid : lead = 4 → second < 0x10) (hthird : third < 64)
    (hlast : last < 64) (rest : List UInt8) :
    readUtf8 .boundary (UInt8.ofNat (lead + 0xF0) :: UInt8.ofNat (second + 0x80) ::
        UInt8.ofNat (third + 0x80) :: UInt8.ofNat (last + 0x80) :: rest) =
      Char.ofNat (((lead * 64 + second) * 64 + third) * 64 + last) :: readUtf8 .boundary rest := by
  simp only [readUtf8_leadFour hlead hsecond hlong hvalid, readUtf8_cons, nextByte_tail 2 _ hthird,
    nextByte_tail 1 _ hlast, Nat.reduceLeDiff, Nat.reduceSub, ↓reduceIte, List.nil_append,
    List.cons_append]

theorem readUtf8_encodeChar (char : Char) (rest : List UInt8) :
    readUtf8 .boundary (String.utf8EncodeChar char ++ rest) = char :: readUtf8 .boundary rest := by
  have hvalid : char.val.toNat < 0xD800 ∨ 0xDFFF < char.val.toNat ∧ char.val.toNat < 0x110000 :=
    char.valid
  have hchar : Char.ofNat char.val.toNat = char := Char.ofNat_toNat char
  unfold String.utf8EncodeChar
  generalize char.val.toNat = code at hvalid hchar
  have hlast : code % 64 < 64 := Nat.mod_lt _ (by decide)
  have hthird : code / 64 % 64 < 64 := Nat.mod_lt _ (by decide)
  dsimp only
  -- One case for each number of bytes; the digits of the code to base 64 give it back.
  split
  · next hone =>
    rw [List.cons_append, List.nil_append, readUtf8_cons, nextByte, firstByte_one code (by omega),
      hchar, List.cons_append, List.nil_append]
  split
  · next htwo =>
    have hbits : code / 64 % 32 * 64 + code % 64 = code := by omega
    refine (readUtf8_two (by omega) (by omega) hlast rest).trans ?_
    rw [hbits, hchar]
  split
  · next hthree =>
    have hbits : (code / 4096 % 16 * 64 + code / 64 % 64) * 64 + code % 64 = code := by omega
    refine (readUtf8_three (by omega) hthird (by omega) (by omega) hlast rest).trans ?_
    rw [hbits, hchar]
  · next hfour =>
    have hsecond : code / 4096 % 64 < 64 := Nat.mod_lt _ (by decide)
    have hbits : ((code / 262144 % 8 * 64 + code / 4096 % 64) * 64 + code / 64 % 64) * 64 +
        code % 64 = code := by omega
    refine (readUtf8_four (by omega) hsecond (by omega) (by omega) hthird hlast rest).trans ?_
    rw [hbits, hchar]

/-- **A text is read back from its bytes.** -/
theorem ofBytes_toBytes (text : String) : ofBytes (toBytes text) = text := by
  have hread : ∀ chars : List Char,
      readUtf8 .boundary (chars.flatMap String.utf8EncodeChar) = chars := by
    intro chars
    induction chars with
    | nil => rfl
    | cons char rest ih => rw [List.flatMap_cons, readUtf8_encodeChar, ih]
  rw [ofBytes, toBytes, hread, String.ofList_toList]

end GpioLines.Text
