import Mathlib.Algebra.BigOperators.Ring.Finset
import Mathlib.Algebra.Order.BigOperators.Group.Finset
import Mathlib.Tactic.Common

/-!
A total split into fixed shares of a base, lot by lot. Every share keeps the fraction it could not
take in `carry`, so what it has taken is the floor of its part of the whole total: it does not
matter how the total came in lots. The fractions of all shares together back whole units.
-/

namespace Solonpad.CarriedSplit

variable {base share total taken carry : ℕ}

/-- What a share takes of one lot, and the fraction it keeps. -/
def lot (base share amount carry : ℕ) : ℕ × ℕ :=
  let numerator := amount % base * share + carry
  (amount / base * share + numerator / base, numerator % base)

theorem lot_exact (base share amount carry : ℕ) :
    (lot base share amount carry).1 * base + (lot base share amount carry).2 =
      amount * share + carry := by
  have whole := Nat.div_add_mod amount base
  have part := Nat.div_add_mod (amount % base * share + carry) base
  calc
    (amount / base * share + (amount % base * share + carry) / base) * base +
        (amount % base * share + carry) % base
      = base * (amount / base) * share + (base * ((amount % base * share + carry) / base) +
        (amount % base * share + carry) % base) := by
      rw [Nat.add_mul, Nat.mul_comm base (amount / base), Nat.mul_right_comm,
        Nat.mul_comm base ((amount % base * share + carry) / base), Nat.add_assoc]
    _ = (base * (amount / base) + amount % base) * share + carry := by
      rw [part, Nat.add_mul, Nat.add_assoc]
    _ = amount * share + carry := by rw [whole]

/-- A share's books: what it took of the total and what it carries. -/
structure Exact (base share total taken carry : ℕ) : Prop where
  balanced : taken * base + carry = total * share
  small : carry < base

theorem Exact.zero (positive : 0 < base) : Exact base share 0 0 0 :=
  ⟨by simp, positive⟩

theorem Exact.lot (exact : Exact base share total taken carry) (amount : ℕ) :
    Exact base share (total + amount) (taken + (lot base share amount carry).1)
      (CarriedSplit.lot base share amount carry).2 := by
  constructor
  · have moved := lot_exact base share amount carry
    have before := exact.balanced
    rw [Nat.add_mul, Nat.add_mul]
    omega
  · exact Nat.mod_lt _ (Nat.zero_lt_of_lt exact.small)

theorem Exact.floor (exact : Exact base share total taken carry) : taken = total * share / base := by
  have positive := Nat.zero_lt_of_lt exact.small
  rw [← exact.balanced, Nat.mul_comm, Nat.mul_add_div positive, Nat.div_eq_of_lt exact.small]
  rfl

/-! All shares of one base. -/

variable {ι : Type*} [Fintype ι] {shares takens carries : ι → ℕ}

theorem sum_exact (whole : ∑ index, shares index = base)
    (exact : ∀ index, Exact base (shares index) total (takens index) (carries index)) :
    (∑ index, takens index) * base + ∑ index, carries index = total * base := by
  calc
    (∑ index, takens index) * base + ∑ index, carries index
      = ∑ index, (takens index * base + carries index) := by
      rw [Finset.sum_mul, ← Finset.sum_add_distrib]
    _ = ∑ index, total * shares index := Finset.sum_congr rfl (fun index _ => (exact index).balanced)
    _ = total * base := by rw [← Finset.mul_sum, whole]

/-- The fractions add up to whole units, and those are all that no share has taken. -/
theorem sum_carries (positive : 0 < base) (whole : ∑ index, shares index = base)
    (exact : ∀ index, Exact base (shares index) total (takens index) (carries index)) :
    base ∣ ∑ index, carries index ∧
      ∑ index, takens index + (∑ index, carries index) / base = total := by
  have sums := sum_exact whole exact
  have divides : base ∣ ∑ index, carries index :=
    (Nat.dvd_add_right (Nat.dvd_mul_left base _)).mp (sums ▸ Nat.dvd_mul_left base total)
  refine ⟨divides, ?_⟩
  obtain ⟨units, same⟩ := divides
  rw [same, Nat.mul_div_cancel_left units positive]
  rw [same, Nat.mul_comm base units, ← Nat.add_mul] at sums
  exact Nat.eq_of_mul_eq_mul_right positive sums

end Solonpad.CarriedSplit
