import Mathlib.Algebra.BigOperators.Finprod
import Mathlib.Algebra.Order.BigOperators.Group.Finset
import Mathlib.Tactic.Common

/-!
A total kept beside a table of entries. `Totals entry total` says that only
finitely many entries are nonzero and that `total` is their sum, so a table may
be indexed by any type, an unbounded one included. One rewritten entry moves the
total by the difference of the two values; that rule is all a ledger needs.
-/

open scoped Function

namespace Solonpad.RunningTotal

variable {ι α : Type*} {left right entry : ι → ℕ} {total other : ℕ}

structure Totals (entry : ι → ℕ) (total : ℕ) : Prop where
  finite : (Function.support entry).Finite
  sum_eq : ∑ᶠ index, entry index = total

theorem Totals.zero : Totals (fun _ : ι => 0) 0 :=
  ⟨by simp [Function.support], by simp⟩

theorem Totals.of_eq (sums : Totals left total) (entries : ∀ index, right index = left index)
    (same : other = total) : Totals right other := by
  obtain rfl : right = left := funext entries
  exact same ▸ sums

theorem Totals.unique (first : Totals entry total) (second : Totals entry other) : total = other :=
  first.sum_eq.symm.trans second.sum_eq

/-- A finite set that holds every nonzero entry computes the total. -/
theorem Totals.eq_sum (sums : Totals entry total) (keys : Finset ι)
    (covered : ∀ index, entry index ≠ 0 → index ∈ keys) : total = ∑ index ∈ keys, entry index := by
  rw [← sums.sum_eq]
  exact finsum_eq_sum_of_support_subset entry (fun index nonzero => covered index nonzero)

theorem Totals.of_sum (keys : Finset ι) (covered : ∀ index, entry index ≠ 0 → index ∈ keys) :
    Totals entry (∑ index ∈ keys, entry index) :=
  ⟨keys.finite_toSet.subset (fun index nonzero => covered index nonzero),
    finsum_eq_sum_of_support_subset entry (fun index nonzero => covered index nonzero)⟩

theorem Totals.entry_le (sums : Totals entry total) (index : ι) : entry index ≤ total := by
  rw [← sums.sum_eq]
  exact single_le_finsum index sums.finite (fun _ => Nat.zero_le _)

theorem Totals.le (lesser : Totals left total) (greater : Totals right other)
    (below : ∀ index, left index ≤ right index) : total ≤ other := by
  have inside : ∀ index, right index ≠ 0 → index ∈ greater.finite.toFinset := by simp
  have covered : ∀ index, left index ≠ 0 → index ∈ greater.finite.toFinset := by
    intro index nonzero
    have := below index
    exact inside index (by omega)
  calc
    total = ∑ index ∈ greater.finite.toFinset, left index := lesser.eq_sum _ covered
    _ ≤ ∑ index ∈ greater.finite.toFinset, right index := Finset.sum_le_sum (fun index _ => below index)
    _ = other := (greater.eq_sum _ inside).symm

/-- A table below another has a total below it. -/
theorem Totals.below (sums : Totals right total) (under : ∀ index, left index ≤ right index) :
    ∃ other, Totals left other ∧ other ≤ total := by
  have finite : (Function.support left).Finite := by
    apply sums.finite.subset
    intro index nonzero
    have := under index
    simp only [Function.mem_support] at nonzero ⊢
    omega
  have rest : Totals left (∑ᶠ index, left index) := ⟨finite, rfl⟩
  exact ⟨_, rest, rest.le sums under⟩

/-- Totals of two tables add up to the total of their sum. -/
theorem Totals.add (first : Totals left total) (second : Totals right other) :
    Totals (fun index => left index + right index) (total + other) := by
  constructor
  · apply (first.finite.union second.finite).subset
    intro index nonzero
    by_contra outside
    simp only [Set.mem_union, Function.mem_support, not_or, not_not] at outside nonzero
    omega
  · rw [finsum_add_distrib first.finite second.finite, first.sum_eq, second.sum_eq]

/-- Entries that all scale by one factor scale their total. -/
theorem Totals.scale (sums : Totals entry total) (factor : ℕ) :
    Totals (fun index => entry index * factor) (total * factor) := by
  constructor
  · apply sums.finite.subset
    intro index nonzero zero
    rw [Function.mem_support, zero, Nat.zero_mul] at nonzero
    exact nonzero rfl
  · rw [← finsum_mul' _ _ sums.finite, sums.sum_eq]

/-- Entries that are each divided, rounding down, have at most the divided total. -/
theorem Totals.divide (sums : Totals entry total) (divisor : ℕ) :
    ∃ other, Totals (fun index => entry index / divisor) other ∧ other * divisor ≤ total := by
  obtain ⟨other, part, -⟩ := sums.below fun index => Nat.div_le_self (entry index) divisor
  exact ⟨other, part, (part.scale divisor).le sums fun index => Nat.div_mul_le_self ..⟩

/-- A table that splits in two splits its total. -/
theorem Totals.split {whole : ι → ℕ} (sums : Totals whole total) (part : Totals right other)
    (parts : ∀ index, left index + right index = whole index) : ∃ rest, Totals left rest ∧ rest + other = total := by
  have finite : (Function.support left).Finite := by
    apply sums.finite.subset
    intro index nonzero
    have := parts index
    simp only [Function.mem_support] at nonzero ⊢
    omega
  have rest : Totals left (∑ᶠ index, left index) := ⟨finite, rfl⟩
  exact ⟨_, rest, ((rest.add part).of_eq (fun index => (parts index).symm) rfl).unique sums⟩

variable [DecidableEq ι]

/-- A finite carrier of all nonzero entries that also holds one chosen index. -/
theorem Totals.carrier (sums : Totals entry total) (key : ι) :
    ∃ keys : Finset ι, key ∈ keys ∧ ∀ index, entry index ≠ 0 → index ∈ keys :=
  ⟨insert key sums.finite.toFinset, Finset.mem_insert_self _ _, fun index nonzero => by simp [nonzero]⟩

theorem Totals.update (sums : Totals entry total) (key : ι) (value : ℕ) :
    Totals (Function.update entry key value) (total - entry key + value) := by
  obtain ⟨keys, inside, covered⟩ := sums.carrier key
  have extended : ∀ index, Function.update entry key value index ≠ 0 → index ∈ keys := by
    intro index nonzero
    by_cases same : index = key
    · exact same ▸ inside
    · rw [Function.update_of_ne same] at nonzero
      exact covered index nonzero
  refine (Totals.of_sum keys extended).of_eq (fun _ => rfl) ?_
  rw [sums.eq_sum keys covered, Finset.sum_update_of_mem inside,
    Finset.sum_eq_add_sum_sdiff_singleton_of_mem inside entry]
  omega

theorem Totals.credit (sums : Totals entry total) (key : ι) (amount : ℕ) :
    Totals (Function.update entry key (entry key + amount)) (total + amount) := by
  have held := sums.entry_le key
  exact (sums.update key _).of_eq (fun _ => rfl) (by omega)

theorem Totals.debit (sums : Totals entry total) (key : ι) (amount : ℕ) (covered : amount ≤ entry key) :
    Totals (Function.update entry key (entry key - amount)) (total - amount) := by
  have held := sums.entry_le key
  exact (sums.update key _).of_eq (fun _ => rfl) (by omega)

theorem Totals.single (key : ι) (value : ℕ) : Totals (fun index => if key = index then value else 0) value := by
  refine (Totals.zero.update key value).of_eq ?_ (Nat.zero_add value).symm
  intro index
  by_cases same : key = index
  · subst same
    simp
  · simp [same, Function.update_of_ne (Ne.symm same)]

/-- Entries that differ under one key only move the total by the difference there. -/
theorem Totals.moved (sums : Totals left total) (key : ι) (others : ∀ index, index ≠ key → right index = left index)
    (moved : other + left key = total + right key) : Totals right other := by
  have held := sums.entry_le key
  refine (sums.update key (right key)).of_eq ?_ (by omega)
  intro index
  by_cases same : index = key
  · subst same
    simp
  · simp [others index same, same]

/-- The total after a change under one key, with the two entries that make the difference. -/
theorem Totals.changed {left right : ι → ℕ} {total : ℕ} (sums : Totals left total) (key : ι)
    (others : ∀ index, index ≠ key → right index = left index) :
    ∃ other, Totals right other ∧ other + left key = total + right key := by
  have held := sums.entry_le key
  have balanced : total - left key + right key + left key = total + right key := by omega
  exact ⟨_, sums.moved key others balanced, balanced⟩

/-- The same for a change under some keys. -/
theorem Totals.changed_list (sums : Totals left total) (keys : List ι) (distinct : keys.Nodup)
    (others : ∀ index, index ∉ keys → right index = left index) :
    ∃ other, Totals right other ∧ other + (keys.map left).sum = total + (keys.map right).sum := by
  induction keys generalizing left total with
  | nil => exact ⟨total, sums.of_eq (fun index => others index List.not_mem_nil) rfl, rfl⟩
  | cons key rest ih =>
    obtain ⟨fresh, distinct⟩ := List.nodup_cons.mp distinct
    obtain ⟨middle, first, moved⟩ := @Totals.changed _ _ left (Function.update left key (right key)) _ sums key
      fun index apart => Function.update_of_ne apart ..
    obtain ⟨other, last, rest_moved⟩ := ih first distinct fun index outside => by
      by_cases same : index = key
      · subst same
        rw [Function.update_self]
      · rw [Function.update_of_ne same, others index (by simp [same, outside])]
    refine ⟨other, last, ?_⟩
    have unseen : rest.map (Function.update left key (right key)) = rest.map left := by
      refine List.map_congr_left fun index member => Function.update_of_ne ?_ ..
      rintro rfl
      exact fresh member
    rw [Function.update_self] at moved
    rw [unseen] at rest_moved
    simp only [List.map_cons, List.sum_cons]
    omega

/-- Rewriting the record under one key moves a total over the records by the
difference that record makes. -/
theorem Totals.rewrite {table after : ι → α} (worth : ι → α → ℕ)
    (sums : Totals (fun index => worth index (table index)) total) (key : ι) (record : α)
    (rewritten : after = Function.update table key record)
    (moved : other + worth key (table key) = total + worth key record) :
    Totals (fun index => worth index (after index)) other := by
  subst rewritten
  refine sums.moved key (fun index ne => ?_) ?_
  · rw [Function.update_of_ne ne]
  · rw [Function.update_self]
    exact moved

end Solonpad.RunningTotal
