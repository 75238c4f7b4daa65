import Mathlib.Algebra.BigOperators.Group.List.Basic
import Mathlib.Tactic.Ring
import Solonpad.Checkpoints

/-!
A counter that every admitted index shares. Indices are admitted in order, so a payment counts for
the ones up to a bound; where the bound grew since the last payment, a mark keeps the new bound with
the counter's value. An index reads the counter from the first mark that admits it, and that is the
sum of the payments made since it was admitted.
-/

namespace Solonpad.AdmittedCredit

open Checkpoints

/-- A payment of `worth` to each index up to `bound`. -/
structure Payment where
  bound : Nat
  worth : Nat
  deriving DecidableEq

/-- What the payments that pass a test are worth together. -/
def worthOf (paid : List Payment) (test : Nat → Bool) : Nat :=
  ((paid.filter fun p => test p.bound).map Payment.worth).sum

theorem worthOf_snoc (paid : List Payment) (p : Payment) (test : Nat → Bool) :
    worthOf (paid ++ [p]) test = worthOf paid test + if test p.bound = true then p.worth else 0 := by
  by_cases passed : test p.bound = true <;> simp [worthOf, List.filter_append, passed]

theorem worthOf_cons (p : Payment) (paid : List Payment) (test : Nat → Bool) :
    worthOf (p :: paid) test = (if test p.bound = true then p.worth else 0) + worthOf paid test := by
  by_cases passed : test p.bound = true <;> simp [worthOf, passed]

theorem worthOf_congr {paid : List Payment} {test other : Nat → Bool}
    (same : ∀ p ∈ paid, test p.bound = other p.bound) : worthOf paid test = worthOf paid other := by
  unfold worthOf
  rw [List.filter_congr same]

theorem worthOf_none {paid : List Payment} {test : Nat → Bool}
    (fails : ∀ p ∈ paid, test p.bound = false) : worthOf paid test = 0 := by
  have nothing : paid.filter (fun p => test p.bound) = [] := by
    apply List.filter_eq_nil_iff.mpr
    intro p member passed
    rw [fails p member] at passed
    cases passed
  rw [worthOf, nothing]
  rfl

/-- A test and its complement share the whole. -/
theorem worthOf_split (paid : List Payment) (limit : Nat) :
    worthOf paid (fun bound => decide (bound < limit)) + worthOf paid (fun bound => decide (limit ≤ bound)) =
      worthOf paid fun _ => true := by
  induction paid with
  | nil => rfl
  | cons p rest ih =>
    simp only [worthOf_cons, decide_eq_true_eq, if_true]
    by_cases below : p.bound < limit
    · rw [if_pos below, if_neg (Nat.not_le.mpr below)]
      omega
    · rw [if_neg below, if_pos (Nat.not_lt.mp below)]
      omega

theorem sum_admitted (p : Payment) (indices : List Nat) :
    (indices.map fun i => if decide (i ≤ p.bound) = true then p.worth else 0).sum =
      p.worth * indices.countP fun i => decide (i ≤ p.bound) := by
  induction indices with
  | nil => simp
  | cons i rest ih =>
    rw [List.map_cons, List.sum_cons, ih, List.countP_cons]
    by_cases admitted : decide (i ≤ p.bound) = true
    · rw [if_pos admitted, if_pos admitted]
      ring
    · rw [if_neg admitted, if_neg admitted]
      ring

/-- Summed over some indices, each payment counts for the ones it admits. -/
theorem sum_worthOf (paid : List Payment) (indices : List Nat) :
    (indices.map fun i => worthOf paid fun bound => decide (i ≤ bound)).sum =
      (paid.map fun p => p.worth * indices.countP fun i => decide (i ≤ p.bound)).sum := by
  induction paid with
  | nil => simp [worthOf]
  | cons p rest ih =>
    simp only [worthOf_cons, List.map_cons, List.sum_cons, List.sum_map_add]
    rw [sum_admitted, ih]

/-! Marks. -/

variable {α : Type*} (upper start : α → Nat)

/-- The first mark that admits an index, by bisection. -/
def admitting (marks : List α) (i : Nat) : Option α :=
  marks[passing (fun mark => decide (upper mark < i)) marks]?

/-- What an index is worth: the counter since its mark. -/
def creditOf (marks : List α) (counter i : Nat) : Nat :=
  match admitting upper marks i with
  | none => 0
  | some mark => counter - start mark

/-- The marks against the payments: bounds rise to the last one, each payment was made at a mark's
bound, and a mark keeps what was paid before it. -/
structure Tracks (marks : List α) (counter bound : Nat) (paid : List Payment) : Prop where
  rising : marks.Pairwise fun earlier later => upper earlier < upper later
  within : ∀ mark ∈ marks, upper mark ≤ bound
  total : counter = worthOf paid fun _ => true
  starts : ∀ mark ∈ marks, start mark = worthOf paid fun b => decide (b < upper mark)
  covered : ∀ p ∈ paid, ∃ mark ∈ marks, upper mark = p.bound
  current : bound = 0 ∨ ∃ mark ∈ marks, upper mark = bound

variable {upper start} {marks : List α} {counter bound : Nat} {paid : List Payment}

theorem Tracks.empty : Tracks upper start [] 0 0 [] where
  rising := .nil
  within := fun _ member => by cases member
  total := rfl
  starts := fun _ member => by cases member
  covered := fun _ member => by cases member
  current := .inl rfl

/-- The bound rises: a new mark starts at the counter. -/
theorem Tracks.mark (tracks : Tracks upper start marks counter bound paid) {new : α}
    (rises : bound < upper new) (starts : start new = counter) :
    Tracks upper start (marks ++ [new]) counter (upper new) paid where
  rising := by
    apply List.pairwise_append.mpr
    refine ⟨tracks.rising, List.pairwise_singleton _ _, ?_⟩
    intro earlier member later only
    rw [List.mem_singleton.mp only]
    exact Nat.lt_of_le_of_lt (tracks.within earlier member) rises
  within := by
    intro mark member
    rcases List.mem_append.mp member with older | only
    · exact Nat.le_of_lt (Nat.lt_of_le_of_lt (tracks.within mark older) rises)
    · rw [List.mem_singleton.mp only]
  total := tracks.total
  starts := by
    intro mark member
    rcases List.mem_append.mp member with older | only
    · exact tracks.starts mark older
    · rw [List.mem_singleton.mp only, starts, tracks.total]
      -- every payment so far was made below the new bound
      apply worthOf_congr
      intro p paid_p
      obtain ⟨mark, known, same⟩ := tracks.covered p paid_p
      have below := tracks.within mark known
      exact (decide_eq_true (by omega)).symm
  covered := by
    intro p member
    obtain ⟨mark, known, same⟩ := tracks.covered p member
    exact ⟨mark, List.mem_append_left _ known, same⟩
  current := .inr ⟨new, List.mem_append_right _ (List.mem_singleton_self _), rfl⟩

/-- A payment at the current bound. -/
theorem Tracks.pay (tracks : Tracks upper start marks counter bound paid) (positive : bound ≠ 0)
    (worth : Nat) : Tracks upper start marks (counter + worth) bound (paid ++ [⟨bound, worth⟩]) where
  rising := tracks.rising
  within := tracks.within
  total := by
    rw [worthOf_snoc, if_pos rfl, ← tracks.total]
  starts := by
    intro mark member
    have below := tracks.within mark member
    rw [worthOf_snoc, if_neg (by simpa using below), Nat.add_zero]
    exact tracks.starts mark member
  covered := by
    intro p member
    rcases List.mem_append.mp member with older | only
    · exact tracks.covered p older
    · rw [List.mem_singleton.mp only]
      exact tracks.current.resolve_left positive
  current := tracks.current

theorem Tracks.falling (tracks : Tracks upper start marks counter bound paid) (i : Nat) :
    Falling (fun mark => decide (upper mark < i)) marks := by
  apply tracks.rising.imp
  intro earlier later below passed
  have := of_decide_eq_true passed
  exact decide_eq_true (by omega)

theorem Tracks.start_le (tracks : Tracks upper start marks counter bound paid) {mark : α}
    (member : mark ∈ marks) : start mark ≤ counter := by
  have whole := worthOf_split paid (upper mark)
  rw [← tracks.starts mark member, ← tracks.total] at whole
  omega

/-- Bisection over the marks is the naive replay of the payments. -/
theorem Tracks.creditOf_eq (tracks : Tracks upper start marks counter bound paid) (i : Nat) :
    creditOf upper start marks counter i = worthOf paid fun b => decide (i ≤ b) := by
  obtain ⟨inside, split⟩ := passing_spec (tracks.falling i)
  unfold creditOf admitting
  generalize passing (fun mark => decide (upper mark < i)) marks = low at inside split
  cases found : marks[low]? with
  | none =>
    -- no mark admits the index, so no payment does
    have beyond := List.getElem?_eq_none_iff.mp found
    symm
    apply worthOf_none
    intro p member
    obtain ⟨mark, known, same⟩ := tracks.covered p member
    obtain ⟨j, below, rfl⟩ := List.mem_iff_getElem.mp known
    have passed := of_decide_eq_true ((split j below).mpr (by omega))
    exact decide_eq_false (by omega)
  | some mark =>
    obtain ⟨low_lt, at_low⟩ := List.getElem?_eq_some_iff.mp found
    have member : mark ∈ marks := List.mem_of_getElem? found
    have admits : i ≤ upper mark := by
      have fails := mt (split low low_lt).mp (Nat.lt_irrefl low)
      rw [at_low, decide_eq_true_eq] at fails
      omega
    have counted : worthOf paid (fun b => decide (i ≤ b)) =
        worthOf paid fun b => decide (upper mark ≤ b) := by
      apply worthOf_congr
      intro p paid_p
      obtain ⟨other, known, same⟩ := tracks.covered p paid_p
      obtain ⟨j, below, rfl⟩ := List.mem_iff_getElem.mp known
      rw [← same, decide_eq_decide]
      constructor
      · intro reaches
        have later : low ≤ j := by
          by_contra earlier
          have passed := of_decide_eq_true ((split j below).mpr (by omega))
          omega
        rcases Nat.lt_or_eq_of_le later with after | rfl
        · have order := List.pairwise_iff_getElem.mp tracks.rising low j low_lt below after
          rw [at_low] at order
          omega
        · rw [at_low]
      · intro reaches
        omega
    have whole := worthOf_split paid (upper mark)
    rw [← tracks.starts mark member, ← tracks.total] at whole
    simp only [counted]
    omega

end Solonpad.AdmittedCredit
