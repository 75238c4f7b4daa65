import Mathlib.Data.Nat.Init
import Mathlib.Tactic.Common
import Mathlib.Tactic.Ring

/-!
Numbers as bytes, most significant first, and records of fixed-width fields packed one after
another. A field is found again at the sum of the widths before it, whatever follows the record.
-/

namespace Solonpad.BigEndian

abbrev Bytes := List UInt8

/-- The low `width` bytes of a number. -/
def spell : Nat → Nat → Bytes
  | 0, _ => []
  | width + 1, n => UInt8.ofNat (n / 256 ^ width) :: spell width n

def value : Bytes → Nat
  | [] => 0
  | byte :: rest => byte.toNat * 256 ^ rest.length + value rest

def slice (start width : Nat) (bytes : Bytes) : Bytes := (bytes.drop start).take width

attribute [local grind =] spell value slice

variable {start width : Nat}

theorem slice_cons {bytes : Bytes} (within : start < bytes.length) (width : Nat) :
    slice start (width + 1) bytes = bytes[start] :: slice (start + 1) width bytes := by
  rw [slice, List.drop_eq_getElem_cons within, List.take_succ_cons]
  rfl

theorem slice_length {bytes : Bytes} (within : start + width ≤ bytes.length) :
    (slice start width bytes).length = width := by
  rw [slice, List.length_take, List.length_drop]
  omega

@[simp]
theorem spell_length (width n : Nat) : (spell width n).length = width := by
  induction width with
  | zero => rfl
  | succ width ih => rw [spell, List.length_cons, ih]

/-- What is read back is the number, as far as its bytes hold it. -/
theorem value_spell (width n : Nat) : value (spell width n) = n % 256 ^ width := by
  induction width with
  | zero => simp [spell, value, Nat.mod_one]
  | succ width ih =>
    have split : n % 256 ^ (width + 1) = n % 256 ^ width + 256 ^ width * (n / 256 ^ width % 256) := by
      rw [Nat.pow_succ, Nat.mod_mul]
    have byte : (UInt8.ofNat (n / 256 ^ width)).toNat = n / 256 ^ width % 256 := UInt8.toNat_ofNat'
    rw [spell, value, ih, spell_length, byte, split, Nat.mul_comm, Nat.add_comm]

theorem value_spell_fits {n : Nat} (fits : n < 256 ^ width) : value (spell width n) = n := by
  rw [value_spell, Nat.mod_eq_of_lt fits]

/-! Packed records. -/

/-- Fields by width and number. -/
abbrev Fields := List (Nat × Nat)

def packed : Fields → Bytes
  | [] => []
  | (width, n) :: rest => spell width n ++ packed rest

def extent (fields : Fields) : Nat := (fields.map Prod.fst).sum

@[simp]
theorem packed_length (fields : Fields) : (packed fields).length = extent fields := by
  induction fields with
  | nil => rfl
  | cons field rest ih =>
    rw [packed, List.length_append, spell_length, ih]
    simp [extent]

theorem packed_append (front back : Fields) : packed (front ++ back) = packed front ++ packed back := by
  induction front with
  | nil => rfl
  | cons field rest ih => rw [List.cons_append, packed, packed, ih, List.append_assoc]

/-- A field of a packed record, wherever the bytes go on. -/
theorem slice_packed (front back : Fields) (width n : Nat) (tail : Bytes) :
    slice (extent front) width (packed (front ++ (width, n) :: back) ++ tail) = spell width n := by
  have start : (packed front).length = extent front := packed_length front
  have own : (spell width n).length = width := spell_length width n
  rw [packed_append, packed, slice, List.append_assoc, List.append_assoc, List.drop_left' start,
    List.take_left' own]

theorem read_packed {fields front back : Fields} {n : Nat} (tail : Bytes)
    (same : fields = front ++ (width, n) :: back) (place : extent front = start) (fits : n < 256 ^ width) :
    value (slice start width (packed fields ++ tail)) = n := by
  rw [same, ← place, slice_packed, value_spell_fits fits]

theorem slice_tail (fields : Fields) (tail : Bytes) : (packed fields ++ tail).drop (extent fields) = tail :=
  List.drop_left' (packed_length fields)

end Solonpad.BigEndian
