import GpioLines.Proofs.Fields

/-!
# Labels that are cut

A field has room for thirty-one bytes of a label and ends it with a zero byte, so what a field gives
back depends on two cuts. One is at the first NUL of the label, because no other character has a zero
byte in it (`takeWhile_encoded`). The other is behind thirty-one bytes, wherever that is: the whole
characters before it are read as they are, and a character that it divides leaves some of its bytes,
which are read as one replacement character (`readUtf8_take`).
-/

namespace GpioLines

namespace Text

/-! ### Characters that are cut -/

/-- Some bytes of a character, from the first one on but not all of them, are no character. -/
theorem readUtf8_cut {char : Char} {count : Nat} (hpos : 0 < count)
    (hlt : count < (String.utf8EncodeChar char).length) :
    readUtf8 .boundary ((String.utf8EncodeChar char).take count) = [replacement] := by
  have hvalid : char.val.toNat < 0xD800 ∨ 0xDFFF < char.val.toNat ∧ char.val.toNat < 0x110000 :=
    char.valid
  revert hlt
  unfold String.utf8EncodeChar
  generalize char.val.toNat = code at hvalid
  have hthird : code / 64 % 64 < 64 := Nat.mod_lt _ (by decide)
  dsimp only
  split
  · intro hlt
    rw [List.length_singleton] at hlt
    omega
  split
  · next htwo =>
    intro hlt
    obtain rfl : count = 1 := by simp only [List.length_cons, List.length_nil] at hlt; omega
    simp only [List.take_succ_cons, List.take_zero, readUtf8_cons, nextByte.eq_1,
      firstByte_two (code / 64 % 32) (by omega) (by omega), readUtf8, List.nil_append]
  split
  · next hthree =>
    intro hlt
    obtain rfl | rfl : count = 1 ∨ count = 2 := by
      simp only [List.length_cons, List.length_nil] at hlt
      omega
    · simp only [List.take_succ_cons, List.take_zero, readUtf8_cons, nextByte.eq_1,
        firstByte_three (code / 4096 % 16) (by omega), readUtf8, List.nil_append]
    · simp only [List.take_succ_cons, List.take_zero]
      rw [readUtf8_leadThree (by omega) hthird (by omega) (by omega), readUtf8]
  · next hfour =>
    have hsecond : code / 4096 % 64 < 64 := Nat.mod_lt _ (by decide)
    intro hlt
    obtain rfl | rfl | rfl : count = 1 ∨ count = 2 ∨ count = 3 := by
      simp only [List.length_cons, List.length_nil] at hlt
      omega
    · simp only [List.take_succ_cons, List.take_zero, readUtf8_cons, nextByte.eq_1,
        firstByte_four (code / 262144 % 8) (by omega), readUtf8, List.nil_append]
    · simp only [List.take_succ_cons, List.take_zero]
      rw [readUtf8_leadFour (by omega) hsecond (by omega) (by omega), readUtf8]
    · simp only [List.take_succ_cons, List.take_zero]
      rw [readUtf8_leadFour (by omega) hsecond (by omega) (by omega), readUtf8_cons,
        nextByte_tail 2 _ hthird]
      rfl

/-! ### Texts that are cut -/

/-- How many bytes these characters have. -/
def size (chars : List Char) : Nat := (chars.flatMap String.utf8EncodeChar).length

/-- The characters at the front that so many bytes have room for. -/
def whole (room : Nat) : List Char → List Char
  | [] => []
  | char :: rest =>
    if char.utf8Size ≤ room then char :: whole (room - char.utf8Size) rest else []

@[simp] theorem size_nil : size [] = 0 := rfl

@[simp] theorem size_cons (char : Char) (rest : List Char) :
    size (char :: rest) = char.utf8Size + size rest := by
  rw [size, List.flatMap_cons, List.length_append, String.length_utf8EncodeChar, size]

theorem size_append (front rest : List Char) : size (front ++ rest) = size front + size rest := by
  rw [size, List.flatMap_append, List.length_append, size, size]

theorem utf8ByteSize_ofList (chars : List Char) : (String.ofList chars).utf8ByteSize = size chars := by
  rw [← String.size_toByteArray, String.toByteArray_ofList, List.utf8Encode, List.size_toByteArray,
    size]

theorem size_toList (text : String) : size text.toList = text.utf8ByteSize := by
  rw [← utf8ByteSize_ofList, String.ofList_toList]

theorem whole_prefix (room : Nat) (chars : List Char) : whole room chars <+: chars := by
  induction chars generalizing room with
  | nil => exact List.prefix_rfl
  | cons char rest ih =>
      rw [whole]
      split
      · exact List.cons_prefix_cons.mpr ⟨rfl, ih _⟩
      · exact List.nil_prefix

theorem size_whole_le (room : Nat) (chars : List Char) : size (whole room chars) ≤ room := by
  induction chars generalizing room with
  | nil => exact Nat.zero_le room
  | cons char rest ih =>
      rw [whole]
      split
      · next hfits =>
        have hrest := ih (room - char.utf8Size)
        rw [size_cons]
        omega
      · exact Nat.zero_le room

/-- Whatever else has room at the front is part of it. -/
theorem prefix_whole {room : Nat} {front chars : List Char} (hfront : front <+: chars)
    (hfits : size front ≤ room) : front <+: whole room chars := by
  induction chars generalizing room front with
  | nil =>
      rw [List.prefix_nil.mp hfront]
      exact List.nil_prefix
  | cons char rest ih =>
      rcases List.prefix_cons_iff.mp hfront with rfl | ⟨more, rfl, hmore⟩
      · exact List.nil_prefix
      · rw [size_cons] at hfits
        rw [whole, if_pos (by omega)]
        exact List.cons_prefix_cons.mpr ⟨rfl, ih hmore (by omega)⟩

/-- **What is read of a text that is cut**: the whole characters before the cut, and one replacement
character if it leaves a part of another one. -/
theorem readUtf8_take (room : Nat) (chars : List Char) :
    readUtf8 .boundary ((chars.flatMap String.utf8EncodeChar).take room) =
      whole room chars ++
        if size (whole room chars) < min room (size chars) then [replacement] else [] := by
  induction chars generalizing room with
  | nil => simp [whole, readUtf8]
  | cons char rest ih =>
      have hlength := String.length_utf8EncodeChar char
      rw [List.flatMap_cons, List.take_append, hlength, whole]
      by_cases hfits : char.utf8Size ≤ room
      · rw [if_pos hfits, List.take_of_length_le (le_of_eq_of_le hlength hfits), readUtf8_encodeChar,
          ih, List.cons_append]
        have hcut : size (whole (room - char.utf8Size) rest) < min (room - char.utf8Size) (size rest) ↔
            size (char :: whole (room - char.utf8Size) rest) < min room (size (char :: rest)) := by
          rw [size_cons, size_cons]
          omega
        simp only [hcut]
      · rw [if_neg hfits, Nat.sub_eq_zero_of_le (by omega), List.take_zero, List.append_nil,
          List.nil_append, size_nil, size_cons]
        by_cases hroom : room = 0
        · subst hroom
          simp [readUtf8]
        · rw [readUtf8_cut (by omega) (by omega), if_pos (by omega)]

/-! ### Zero bytes -/

theorem encodeChar_nul : String.utf8EncodeChar '\x00' = [0] := by decide

/-- Only a NUL has a zero byte. -/
theorem zero_not_mem_encodeChar {char : Char} (h : char ≠ '\x00') :
    0 ∉ String.utf8EncodeChar char := by
  have hcode : char.val.toNat ≠ 0 := by
    intro hzero
    exact h (Char.ext (UInt32.toNat_inj.mp hzero))
  unfold String.utf8EncodeChar
  generalize char.val.toNat = code at hcode
  have hbyte : ∀ n, 0 < n → n < 256 → (0 : UInt8) ≠ UInt8.ofNat n := by
    intro n hpos hlt hzero
    have htoNat := congrArg UInt8.toNat hzero
    rw [UInt8.toNat_ofNat_of_lt' hlt] at htoNat
    exact Nat.ne_of_lt hpos htoNat
  dsimp only
  split
  · simp only [List.mem_singleton]
    exact hbyte _ (by omega) (by omega)
  split
  · simp only [List.mem_cons, List.not_mem_nil, or_false, not_or]
    exact ⟨hbyte _ (by omega) (by omega), hbyte _ (by omega) (by omega)⟩
  split
  · simp only [List.mem_cons, List.not_mem_nil, or_false, not_or]
    exact ⟨hbyte _ (by omega) (by omega), hbyte _ (by omega) (by omega),
      hbyte _ (by omega) (by omega)⟩
  · simp only [List.mem_cons, List.not_mem_nil, or_false, not_or]
    exact ⟨hbyte _ (by omega) (by omega), hbyte _ (by omega) (by omega),
      hbyte _ (by omega) (by omega), hbyte _ (by omega) (by omega)⟩

/-- The bytes before the first zero byte are those of the characters before the first NUL. -/
theorem takeWhile_encoded (chars : List Char) :
    (chars.flatMap String.utf8EncodeChar).takeWhile (· != 0) =
      (chars.takeWhile (· != '\x00')).flatMap String.utf8EncodeChar := by
  induction chars with
  | nil => rfl
  | cons char rest ih =>
      rw [List.flatMap_cons]
      by_cases hnul : char = '\x00'
      · subst hnul
        rw [encodeChar_nul, List.takeWhile_cons_of_neg (by decide)]
        rfl
      · have hnonzero : ∀ byte ∈ String.utf8EncodeChar char, (byte != 0) = true := by
          intro byte hbyte
          rw [bne_iff_ne]
          rintro rfl
          exact zero_not_mem_encodeChar hnul hbyte
        have hkept : (char != '\x00') = true := bne_iff_ne.mpr hnul
        rw [List.takeWhile_append_of_pos hnonzero, ih, List.takeWhile_cons, if_pos hkept,
          List.flatMap_cons]

end Text

namespace Label

/-- How many bytes of text a field has room for; one more ends them. -/
def room : Nat := width - 1

def beforeNul (text : String) : String := String.ofList (text.toList.takeWhile (· != '\x00'))

/-- Nothing stands before the first NUL. -/
def Blank (text : String) : Prop := text = "" ∨ text.toList.head? = some '\x00'

/-- The longest part of whole characters at the front of a text that so many bytes have room for. -/
structure LongestFront (count : Nat) (text front : String) : Prop where
  leads : ∃ rest, text = front ++ rest
  fits : front.utf8ByteSize ≤ count
  longest : ∀ other rest, text = other ++ rest → other.utf8ByteSize ≤ count →
    ∃ more, front = other ++ more

/-- What becomes of a text in a field. -/
structure Carries (text : String) : Prop where
  written : field text =
    Bytes.overwrite 0 ((Text.toBytes text).take room) (List.replicate width 0)
  ended : (field text)[room]? = some 0
  none_iff : text? (field text) = none ↔ Blank text
  short : ¬ Blank text → (beforeNul text).utf8ByteSize ≤ room →
    text? (field text) = some (beforeNul text)
  /-- A cut is inside a character unless it is at a valid position. -/
  long : room < (beforeNul text).utf8ByteSize → ∃ front,
    LongestFront room (beforeNul text) front ∧
      text? (field text) = some (if (⟨room⟩ : String.Pos.Raw).IsValid (beforeNul text) then front
        else front ++ "\uFFFD")

/-- What a field is read as, whatever its bytes are. -/
structure ReadAlone (field : List UInt8) : Prop where
  within : ∀ behind, text? (field ++ behind) = text? field
  ended : ∀ front back, field = front ++ 0 :: back → 0 ∉ front →
    text? field = if front = [] then none else some (Text.ofBytes front)
  full : 0 ∉ field → text? field = some (Text.ofBytes field)

/-! ### Texts -/

theorem blank_iff {text : String} : Blank text ↔ beforeNul text = "" := by
  rw [Blank, beforeNul, String.ofList_eq_empty_iff, ← String.toList_eq_nil_iff]
  cases text.toList with
  | nil => simp
  | cons char rest => simp [List.takeWhile_cons]

theorem toBytes_beforeNul (text : String) :
    Text.toBytes (beforeNul text) = (Text.toBytes text).takeWhile (· != 0) := by
  rw [Text.toBytes, Text.toBytes, beforeNul, String.toList_ofList, Text.takeWhile_encoded]

theorem length_toBytes (text : String) : (Text.toBytes text).length = text.utf8ByteSize :=
  Text.size_toList text

theorem longestFront_whole (count : Nat) (text : String) :
    LongestFront count text (String.ofList (Text.whole count text.toList)) where
  leads := by
    obtain ⟨rest, hrest⟩ := Text.whole_prefix count text.toList
    refine ⟨String.ofList rest, ?_⟩
    rw [← String.ofList_append, hrest, String.ofList_toList]
  fits := by
    rw [Text.utf8ByteSize_ofList]
    exact Text.size_whole_le count text.toList
  longest := by
    intro other rest htext hfits
    have hfront : other.toList <+: text.toList := ⟨rest.toList, by rw [htext, String.toList_append]⟩
    rw [← Text.size_toList] at hfits
    obtain ⟨more, hmore⟩ := Text.prefix_whole hfront hfits
    refine ⟨String.ofList more, ?_⟩
    rw [← hmore, String.ofList_append, String.ofList_toList]

/-- A cut is at a valid position exactly if the whole characters before it fill it up to there. -/
theorem isValid_iff (count : Nat) (text : String) :
    (⟨count⟩ : String.Pos.Raw).IsValid text ↔ Text.size (Text.whole count text.toList) = count := by
  rw [String.Pos.Raw.isValid_iff_exists_append]
  constructor
  · rintro ⟨front, rest, rfl, hcount⟩
    have hsize : Text.size front.toList = count := by
      rw [Text.size_toList]
      exact (congrArg String.Pos.Raw.byteIdx hcount).symm
    have hfront : front.toList <+: (front ++ rest).toList :=
      ⟨rest.toList, String.toList_append.symm⟩
    obtain ⟨more, hmore⟩ := Text.prefix_whole hfront (Nat.le_of_eq hsize)
    have hle := Text.size_whole_le count (front ++ rest).toList
    rw [← hmore, Text.size_append] at hle ⊢
    omega
  · intro hsize
    obtain ⟨⟨rest, hrest⟩, -, -⟩ := longestFront_whole count text
    refine ⟨_, rest, hrest, ?_⟩
    rw [String.rawEndPos, Text.utf8ByteSize_ofList, hsize]

/-! ### Fields -/

theorem takeWhile_padded (bytes : List UInt8) (count : Nat) :
    (bytes ++ List.replicate count 0).takeWhile (· != 0) = bytes.takeWhile (· != 0) := by
  rw [List.takeWhile_append, List.takeWhile_replicate]
  split
  · next hall =>
    rw [if_neg (by decide), List.append_nil]
    exact ((List.takeWhile_prefix _).eq_of_length hall).symm
  · rfl

/-- A field is filled up with zeros, of which there is one at least. -/
theorem field_eq_padded (text : String) : field text = (Text.toBytes text).take room ++
    List.replicate (width - ((Text.toBytes text).take room).length) 0 := by
  have hroom : ((Text.toBytes text).take room).length ≤ width :=
    Nat.le_trans (List.length_take_le ..) (Nat.sub_le width 1)
  rw [field, ← room, Bytes.fit_of_le hroom]

/-- What a field holds of a text is what stands before its first NUL, as far as there is room. -/
theorem content_field (text : String) :
    content (field text) = (Text.toBytes (beforeNul text)).take room := by
  calc content (field text)
      = (field text).takeWhile (· != 0) := by
        rw [content, List.take_of_length_le (Nat.le_of_eq (length_field text))]
    _ = ((Text.toBytes text).take room).takeWhile (· != 0) := by
        rw [field_eq_padded, takeWhile_padded]
    _ = (Text.toBytes (beforeNul text)).take room := by
        rw [toBytes_beforeNul, List.take_takeWhile]

theorem text?_field (text : String) :
    text? (field text) = if beforeNul text = "" then none
      else some (String.ofList
        (Text.readUtf8 .boundary ((Text.toBytes (beforeNul text)).take room))) := by
  have hempty : (Text.toBytes (beforeNul text)).take room = [] ↔ beforeNul text = "" := by
    rw [List.take_eq_nil_iff, toBytes_eq_nil]
    exact or_iff_right (by decide)
  simp only [text?, content_field, List.isEmpty_iff, hempty, Text.ofBytes]

theorem carries (text : String) : Carries text where
  written := by
    rw [field_eq_padded, Bytes.overwrite, List.take_zero, List.nil_append, Nat.zero_add,
      List.drop_replicate]
  ended := by
    have hroom : ((Text.toBytes text).take room).length ≤ room := List.length_take_le ..
    have hwidth : room < width := by decide
    rw [field_eq_padded, List.getElem?_append_right hroom, List.getElem?_replicate,
      if_pos (by omega)]
  none_iff := by
    rw [text?_field, blank_iff]
    split
    · next hblank => exact iff_of_true rfl hblank
    · next hblank => exact iff_of_false (Option.some_ne_none _) hblank
  short := by
    intro hblank hshort
    rw [← length_toBytes] at hshort
    rw [text?_field, if_neg (mt blank_iff.mpr hblank), List.take_of_length_le hshort]
    exact congrArg some (Text.ofBytes_toBytes (beforeNul text))
  long := by
    intro hlong
    generalize ht : beforeNul text = t at hlong
    have hblank : t ≠ "" := by
      rintro rfl
      cases hlong
    have hcut : Text.size (Text.whole room t.toList) < min room (Text.size t.toList) ↔
        ¬ (⟨room⟩ : String.Pos.Raw).IsValid t := by
      have hle := Text.size_whole_le room t.toList
      rw [isValid_iff, Text.size_toList]
      omega
    refine ⟨_, longestFront_whole room t, ?_⟩
    rw [text?_field, ht, if_neg hblank, Text.toBytes, Text.readUtf8_take]
    simp only [hcut]
    by_cases hvalid : (⟨room⟩ : String.Pos.Raw).IsValid t
    · rw [if_neg (not_not_intro hvalid), if_pos hvalid, List.append_nil]
    · rw [if_pos hvalid, if_neg hvalid, String.ofList_append]
      rfl

/-! ### Fields of any bytes -/

theorem text?_of_length {field : List UInt8} (h : field.length = width) (behind : List UInt8) :
    text? (field ++ behind) = if field.takeWhile (· != 0) = [] then none
      else some (Text.ofBytes (field.takeWhile (· != 0))) := by
  simp only [text?, content, List.take_left' h, List.isEmpty_iff]

theorem readAlone {field : List UInt8} (h : field.length = width) : ReadAlone field := by
  have hread : text? field = if field.takeWhile (· != 0) = [] then none
      else some (Text.ofBytes (field.takeWhile (· != 0))) := by
    rw [← text?_of_length h [], List.append_nil]
  have hnonzero : ∀ {bytes : List UInt8}, 0 ∉ bytes → ∀ byte ∈ bytes, (byte != 0) = true := by
    intro bytes hbytes byte hbyte
    rw [bne_iff_ne]
    rintro rfl
    exact hbytes hbyte
  refine ⟨fun behind => (text?_of_length h behind).trans hread.symm, ?_, ?_⟩
  · intro front back heq hfront
    have hbefore : field.takeWhile (· != 0) = front := by
      rw [heq, List.takeWhile_append_of_pos (hnonzero hfront)]
      exact List.append_nil front
    rw [hread, hbefore]
  · intro hfull
    have hall : (field ++ []).takeWhile (· != 0) = field ++ [].takeWhile (· != 0) :=
      List.takeWhile_append_of_pos (hnonzero hfull)
    rw [List.append_nil, List.takeWhile_nil, List.append_nil] at hall
    have hne : field ≠ [] := List.ne_nil_of_length_pos (h ▸ (by decide : 0 < width))
    rw [hread, hall, if_neg hne]

/-- **A label survives its field up to two cuts**, the one at its first NUL and the one behind the
room of the field. Whatever a field holds, what is read of it depends on nothing but its own bytes
before the first zero byte. -/
theorem label_survives (text : String) (bytes : Buffer width) :
    Carries text ∧ ReadAlone bytes.val :=
  ⟨carries text, readAlone bytes.property⟩

/-- The last of eight characters of four bytes each is cut, and nothing is left of what follows the
NUL. -/
theorem label_survives_smileys : let label := "🙂🙂🙂🙂🙂🙂🙂🙂\x00🙂"
    ¬ Blank label ∧ room < (beforeNul label).utf8ByteSize ∧
    ∃ front, LongestFront room (beforeNul label) front ∧
      text? (field label) = some (if (⟨room⟩ : String.Pos.Raw).IsValid (beforeNul label) then front
        else front ++ "\uFFFD") := by
  have hlong : room < (beforeNul "🙂🙂🙂🙂🙂🙂🙂🙂\x00🙂").utf8ByteSize := by decide
  have hkept := (label_survives "🙂🙂🙂🙂🙂🙂🙂🙂\x00🙂" ⟨List.replicate width 0, rfl⟩).1
  refine ⟨?_, hlong, hkept.long hlong⟩
  rw [blank_iff]
  decide

example : text? (field "🙂🙂🙂🙂🙂🙂🙂🙂\x00🙂") = some "🙂🙂🙂🙂🙂🙂🙂\uFFFD" := by decide

end Label

end GpioLines
