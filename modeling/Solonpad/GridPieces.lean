import Mathlib.Algebra.Order.Floor.Div
import Mathlib.Tactic.Common

/-!
Amounts cut into near-equal pieces of whole units. Rounding down to the unit and rounding up to it are each
characterised by one equivalence over the multiples of the unit, and so is the size of a piece: it is the least
multiple of which `count` cover the amount. What is left after one piece then needs no larger piece than before.
-/

namespace Solonpad.GridPieces

variable {unit amount count size : Nat}

def down (unit amount : Nat) : Nat := amount - amount % unit

def up (unit amount : Nat) : Nat := down unit (amount + unit - 1)

/-- The size of `count` near-equal pieces. -/
def piece (unit count amount : Nat) : Nat := up unit (amount ⌈/⌉ count)

theorem down_eq : down unit amount = unit * (amount / unit) := by
  unfold down
  have split := Nat.div_add_mod amount unit
  omega

theorem down_dvd : unit ∣ down unit amount := ⟨amount / unit, down_eq⟩

theorem down_le : down unit amount ≤ amount := Nat.sub_le ..

theorem lt_down_add (whole : 0 < unit) : amount < down unit amount + unit := by
  unfold down
  have small := Nat.mod_lt amount whole
  omega

theorem down_sub (grid : unit ∣ size) (within : size ≤ amount) :
    down unit (amount - size) = down unit amount - size := by
  obtain ⟨steps, rfl⟩ := grid
  rw [down_eq, down_eq, Nat.sub_mul_div, Nat.mul_sub]

/-- Rounding down keeps the multiples below. -/
theorem le_down_iff (whole : 0 < unit) (grid : unit ∣ size) : size ≤ down unit amount ↔ size ≤ amount := by
  obtain ⟨steps, rfl⟩ := grid
  rw [down_eq]
  constructor
  · intro below
    exact below.trans (Nat.mul_div_le amount unit)
  · intro below
    exact Nat.mul_le_mul_left unit ((Nat.le_div_iff_mul_le whole).mpr (by rwa [Nat.mul_comm]))

theorem up_dvd : unit ∣ up unit amount := down_dvd

/-- Rounding up keeps the multiples above. -/
theorem up_le_iff (whole : 0 < unit) (grid : unit ∣ size) : up unit amount ≤ size ↔ amount ≤ size := by
  obtain ⟨steps, rfl⟩ := grid
  have next : unit * (steps + 1) = unit * steps + unit := Nat.mul_succ ..
  have apart : unit * (steps + 1) ≤ down unit (amount + unit - 1) ↔ unit * (steps + 1) ≤ amount + unit - 1 :=
    le_down_iff whole (Nat.dvd_mul_right unit (steps + 1))
  rw [next] at apart
  constructor
  · intro below
    by_contra above
    have reached := apart.mpr (by omega)
    unfold up at below
    omega
  · intro above
    by_contra below
    have grown : unit * steps + unit ≤ up unit amount := by
      obtain ⟨other, same⟩ : unit ∣ up unit amount := up_dvd
      rw [same] at below ⊢
      rw [← next]
      exact Nat.mul_le_mul_left unit (Nat.lt_of_mul_lt_mul_left (Nat.lt_of_not_le below))
    have reached := apart.mp grown
    omega

theorem piece_dvd : unit ∣ piece unit count amount := up_dvd

/-- A piece is the least multiple of the unit of which `count` cover the amount. -/
theorem piece_le_iff (whole : 0 < unit) (some_ : 0 < count) (grid : unit ∣ size) :
    piece unit count amount ≤ size ↔ amount ≤ count * size := by
  rw [piece, up_le_iff whole grid, ceilDiv_le_iff_le_mul some_]

theorem le_count_piece (whole : 0 < unit) (some_ : 0 < count) : amount ≤ count * piece unit count amount :=
  (piece_le_iff whole some_ piece_dvd).mp (Nat.le_refl _)

/-- What one piece leaves needs no larger pieces. -/
theorem piece_rest (whole : 0 < unit) (some_ : 0 < count) :
    piece unit count (amount - piece unit (count + 1) amount) ≤ piece unit (count + 1) amount := by
  rw [piece_le_iff whole some_ piece_dvd]
  have covers : amount ≤ (count + 1) * piece unit (count + 1) amount := le_count_piece whole (Nat.succ_pos count)
  rw [Nat.succ_mul] at covers
  omega

end Solonpad.GridPieces
