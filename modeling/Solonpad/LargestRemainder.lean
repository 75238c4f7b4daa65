import Mathlib.Algebra.GroupWithZero.Nat
import Mathlib.Algebra.Order.BigOperators.Group.List
import Mathlib.Data.Multiset.Sort
import Mathlib.Order.Lattice
import Mathlib.Tactic.Common

/-!
Largest remainders. The floors of a raw amount's shares and their remainders make up the whole amount, so
fewer units are left than there are shares; and who is largest in a linear order, so many of them, does not
depend on how the candidates are listed.
-/

namespace Solonpad.LargestRemainder

/-! What is left of the floors. -/

section Floors

variable (raw total : Nat) (weights : List Nat)

/-- Floors and remainders together are the whole. -/
theorem whole : total * (weights.map fun weight => raw * weight / total).sum +
    (weights.map fun weight => raw * weight % total).sum = raw * weights.sum := by
  induction weights with
  | nil => simp
  | cons weight rest ih =>
    have split := Nat.div_add_mod (raw * weight) total
    simp only [List.map_cons, List.sum_cons, Nat.mul_add]
    omega

variable {weights}

theorem floors_le (positive : 0 < weights.sum) : (weights.map fun weight => raw * weight / weights.sum).sum ≤ raw := by
  have exact := whole raw weights.sum weights
  refine Nat.le_of_mul_le_mul_left ?_ positive
  rw [Nat.mul_comm weights.sum raw]
  omega

theorem remainders_lt (positive : 0 < total) (some_ : weights ≠ []) :
    (weights.map fun weight => raw * weight % total).sum < total * weights.length := by
  induction weights with
  | nil => exact absurd rfl some_
  | cons weight rest ih =>
    have small := Nat.mod_lt (raw * weight) positive
    simp only [List.map_cons, List.sum_cons, List.length_cons, Nat.mul_succ]
    by_cases last : rest = []
    · subst last
      simpa using small
    · have later := ih last
      omega

/-- Fewer units are left than there are shares. -/
theorem left_lt (positive : 0 < weights.sum) :
    raw - (weights.map fun weight => raw * weight / weights.sum).sum < weights.length := by
  have exact := whole raw weights.sum weights
  have covered := floors_le raw positive
  have some_ : weights ≠ [] := by
    rintro rfl
    exact Nat.lt_irrefl 0 positive
  have small := remainders_lt raw weights.sum positive some_
  refine Nat.lt_of_mul_lt_mul_left (a := weights.sum) ?_
  rw [Nat.mul_sub, Nat.mul_comm weights.sum raw]
  omega

end Floors

/-! Who is largest. -/

variable {α : Type*} [LinearOrder α]

/-- Candidates above all others come first when all are sorted. -/
theorem sort_append {chosen left : Multiset α} (above : ∀ a ∈ chosen, ∀ b ∈ left, b ≤ a) :
    (chosen + left).sort (· ≥ ·) = chosen.sort (· ≥ ·) ++ left.sort (· ≥ ·) := by
  refine List.Perm.eq_of_pairwise' (Multiset.pairwise_sort ..) ?_ ?_
  · rw [List.pairwise_append]
    refine ⟨Multiset.pairwise_sort .., Multiset.pairwise_sort .., fun a first b second => ?_⟩
    exact above a ((Multiset.mem_sort (· ≥ ·)).mp first) b ((Multiset.mem_sort (· ≥ ·)).mp second)
  · rw [← Multiset.coe_eq_coe, ← Multiset.coe_add]
    simp only [Multiset.sort_eq]

/-- The same candidates have the same largest, so many of them. -/
theorem chosen_unique {chosen left others rest : Multiset α} (same : chosen + left = others + rest)
    (count : chosen.card = others.card) (above : ∀ a ∈ chosen, ∀ b ∈ left, b ≤ a)
    (beyond : ∀ a ∈ others, ∀ b ∈ rest, b ≤ a) : chosen = others := by
  have sorted : chosen.sort (· ≥ ·) ++ left.sort (· ≥ ·) = others.sort (· ≥ ·) ++ rest.sort (· ≥ ·) := by
    rw [← sort_append above, same, sort_append beyond]
  have lengths : (chosen.sort (· ≥ ·)).length = (others.sort (· ≥ ·)).length := by
    rw [Multiset.length_sort, Multiset.length_sort, count]
  have first := (List.append_inj sorted lengths).1
  rw [← Multiset.sort_eq chosen (· ≥ ·), first, Multiset.sort_eq]

end Solonpad.LargestRemainder
