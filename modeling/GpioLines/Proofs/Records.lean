import Mathlib.Algebra.Group.Nat.Defs
import GpioLines.Event

/-!
# Records there and back

The bytes of a file are the records of its events one after the other. A reader that takes whole
records from the front gets the first events, all of them and as they were written, and what is left
are the records of the others.
-/

namespace GpioLines

namespace Bytes

theorem toNat_ofNat (width n : Nat) : toNat (ofNat width n) = n % 256 ^ width := by
  induction width generalizing n with
  | zero => rw [ofNat, toNat, Nat.pow_zero, Nat.mod_one]
  | succ width ih =>
      have hsplit : n % 256 ^ (width + 1) = n % 256 + 256 * (n / 256 % 256 ^ width) := by
        rw [Nat.pow_succ', Nat.mod_mul]
      rw [ofNat, toNat, ih, UInt8.toNat_ofNat', hsplit]

theorem toNat_ofNat_of_lt {width n : Nat} (h : n < 256 ^ width) : toNat (ofNat width n) = n := by
  rw [toNat_ofNat, Nat.mod_eq_of_lt h]

/-- A field that begins behind the first piece. -/
theorem field_append_right {start : Nat} {piece : List UInt8} (width more : Nat)
    (rest : List UInt8) (h : piece.length = start) :
    field (start + more) width (piece ++ rest) = field more width rest := by
  rw [field, field, ← h, List.drop_length_add_append]

theorem field_append_left {width : Nat} {piece : List UInt8} (rest : List UInt8)
    (h : piece.length = width) : field 0 width (piece ++ rest) = piece := by
  rw [field, List.drop_zero, List.take_left' h]

end Bytes

namespace LineEvent

/-! ### One record -/

theorem number_lt (edge : Edge) : edge.number < 256 ^ 4 := by
  cases edge <;> decide

theorem ofRecord?_append (event : LineEvent) (rest : List UInt8) :
    ofRecord? (event.record ++ rest) = some event := by
  have hlong : ¬ (event.record ++ rest).length < recordSize := by
    rw [List.length_append, length_record]
    exact Nat.not_lt.mpr (Nat.le_add_right _ _)
  have htime : Bytes.field 0 8 (event.record ++ rest) = Bytes.ofNat 8 event.timestamp.toNat := by
    rw [record, List.append_assoc, List.append_assoc]
    exact Bytes.field_append_left _ (Bytes.length_ofNat ..)
  have hedge : Bytes.field 8 4 (event.record ++ rest) = Bytes.ofNat 4 event.edge.number := by
    rw [record, List.append_assoc, List.append_assoc]
    exact (Bytes.field_append_right 4 0 _ (Bytes.length_ofNat ..)).trans
      (Bytes.field_append_left _ (Bytes.length_ofNat ..))
  have hbound : event.timestamp.toNat < 256 ^ 8 := event.timestamp.toNat_lt
  rw [ofRecord?, if_neg hlong, htime, hedge, Bytes.toNat_ofNat_of_lt hbound,
    Bytes.toNat_ofNat_of_lt (number_lt event.edge), UInt64.ofNat_toNat, Edge.ofNumber_number]

/-! ### Records one after the other -/

theorem length_flatMap_record (events : List LineEvent) :
    (events.flatMap record).length = recordSize * events.length := by
  induction events with
  | nil => rfl
  | cons event rest ih =>
      rw [List.flatMap_cons, List.length_append, ih, length_record, List.length_cons, Nat.mul_succ,
        Nat.add_comm]

theorem take_flatMap_record (count : Nat) (events : List LineEvent) :
    (events.flatMap record).take (recordSize * count) = (events.take count).flatMap record := by
  induction events generalizing count with
  | nil => rw [List.take_nil, List.flatMap_nil, List.take_nil]
  | cons event rest ih =>
      cases count with
      | zero => rw [Nat.mul_zero, List.take_zero, List.take_zero, List.flatMap_nil]
      | succ count =>
          have hlength : event.record.length = recordSize := length_record event
          rw [List.flatMap_cons, Nat.mul_succ, Nat.add_comm, ← hlength,
            List.take_length_add_append, hlength, ih, List.take_succ_cons, List.flatMap_cons]

theorem drop_flatMap_record (count : Nat) (events : List LineEvent) :
    (events.flatMap record).drop (recordSize * count) = (events.drop count).flatMap record := by
  have hbytes := List.take_append_drop (recordSize * count) (events.flatMap record)
  have hevents : (events.take count).flatMap record ++ (events.drop count).flatMap record =
      events.flatMap record := by
    rw [← List.flatMap_append, List.take_append_drop]
  rw [take_flatMap_record] at hbytes
  exact List.append_cancel_left (hbytes.trans hevents.symm)

/-- **What was recorded is what is read.** -/
theorem ofRecords?_flatMap {events : List LineEvent} (h : events ≠ []) :
    ofRecords? (events.flatMap record) = some events := by
  have hwhole : ¬ ((events.flatMap record).length = 0 ∨
      (events.flatMap record).length % recordSize ≠ 0) := by
    have hpos := List.length_pos_iff.mpr h
    rw [length_flatMap_record, Nat.mul_mod_right]
    simp only [recordSize]
    omega
  have hcount : (events.flatMap record).length / recordSize = events.length := by
    rw [length_flatMap_record]
    exact Nat.mul_div_cancel_left _ (by decide)
  rw [ofRecords?, if_neg hwhole, hcount]
  clear hwhole hcount h
  induction events with
  | nil => rfl
  | cons event rest ih =>
      -- the other records are found where they would be without the first one
      have hothers : ∀ i, Bytes.field (recordSize * (i + 1)) recordSize
          (event.record ++ rest.flatMap record) =
          Bytes.field (recordSize * i) recordSize (rest.flatMap record) := fun i => by
        rw [Nat.mul_succ, Nat.add_comm]
        exact Bytes.field_append_right _ _ _ (length_record event)
      have hfirst : ofRecord? (Bytes.field (recordSize * 0) recordSize
          (event.record ++ rest.flatMap record)) = some event := by
        rw [Nat.mul_zero, Bytes.field_append_left _ (length_record event)]
        exact List.append_nil event.record ▸ ofRecord?_append event []
      rw [List.length_cons, List.range_succ_eq_map, List.mapM_cons, List.mapM_map, List.flatMap_cons,
        hfirst]
      simp only [Function.comp_def, Nat.succ_eq_add_one, hothers, ih]
      rfl

end LineEvent

end GpioLines
