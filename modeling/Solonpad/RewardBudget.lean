import Solonpad.RewardWeights

/-!
Where the money of the reward token goes. In each epoch what the events paid out, the dust and the
live remainders are the epoch's budget; and what was credited so far is in the budgets or still in
the carry. A distribution moves its amount, rounding included; a frozen remainder becomes dust.
-/

namespace Solonpad.RewardToken

open Checked CarryStream RunningTotal Eligibility
open Chain (Address)

/-- What the events of an epoch paid all accounts. -/
def paidIn (credits : List Credited) (epoch : Nat) : Nat :=
  (credits.map fun event => if event.epoch = epoch then event.delta * event.denominator else 0).sum

def budgetIn (credits : List Credited) (epoch : Nat) : Nat :=
  (credits.map fun event => if event.epoch = epoch then event.amount else 0).sum

@[simp]
theorem paidIn_cons (event : Credited) (rest : List Credited) (epoch : Nat) :
    paidIn (event :: rest) epoch =
      (if event.epoch = epoch then event.delta * event.denominator else 0) + paidIn rest epoch := rfl

@[simp]
theorem budgetIn_cons (event : Credited) (rest : List Credited) (epoch : Nat) :
    budgetIn (event :: rest) epoch =
      (if event.epoch = epoch then event.amount else 0) + budgetIn rest epoch := rfl

/-- The remainders that still belong to an epoch's index. -/
def State.liveRemainder (s : State) (epoch : Nat) : Nat :=
  if s.indexEpoch = epoch then s.indexRemainder + s.carryIndexRemainder else 0

structure Kept (s : State) : Prop where
  weights : ∀ event ∈ s.credits, Totals event.weight event.denominator ∧ event.denominator ≠ 0
  epochs : ∀ e, paidIn s.credits e + s.epochDust27 e + s.liveRemainder e = s.epochBudget e * precision
  budgets : ∀ e, s.epochBudget e = budgetIn s.credits e
  covered : s.carry.released ≤ s.carry.deposited

/-- What was credited is in the budgets or in the carry. -/
def Balanced (s : State) : Prop :=
  ∃ spent, Totals s.epochBudget spent ∧ s.totalCredited = spent + s.carry.held

variable {s after : State} {cut : Option Nat} {now : Nat}

theorem Kept.same (kept : Kept s) (credits : after.credits = s.credits) (dust : after.epochDust27 = s.epochDust27)
    (live : after.liveRemainder = s.liveRemainder) (budget : after.epochBudget = s.epochBudget)
    (covered : after.carry.released ≤ after.carry.deposited) : Kept after := by
  obtain ⟨weights, epochs, budgets, _⟩ := kept
  constructor
  · rwa [credits]
  · rwa [credits, dust, live, budget]
  · rwa [budget, credits]
  · exact covered

theorem Balanced.same (balanced : Balanced s) (budget : after.epochBudget = s.epochBudget)
    (total : after.totalCredited = s.totalCredited) (carry : after.carry = s.carry) : Balanced after := by
  obtain ⟨spent, sums, eq⟩ := balanced
  exact ⟨spent, by rwa [budget], by rw [total, carry, eq]⟩

theorem freeze_live (s : State) (epoch : Nat) : s.freezeRemainders.liveRemainder epoch = 0 := by
  simp [State.liveRemainder, State.freezeRemainders]

theorem freeze_dust (s : State) (epoch : Nat) :
    s.freezeRemainders.epochDust27 epoch = s.epochDust27 epoch + s.liveRemainder epoch := by
  simp only [State.freezeRemainders, State.liveRemainder]
  by_cases same : s.indexEpoch = epoch
  · subst same
    simp
  · simp [same, Function.update_of_ne (Ne.symm same)]

theorem Kept.frozen (kept : Kept s) : Kept s.freezeRemainders := by
  obtain ⟨weights, epochs, budgets, covered⟩ := kept
  refine ⟨weights, ?_, budgets, covered⟩
  intro e
  have before := epochs e
  rw [freeze_live, freeze_dust]
  simp only [State.freezeRemainders]
  omega

/-- With no live remainder the index may move to another epoch. -/
theorem Kept.turned (kept : Kept s) (epoch : Nat) : Kept { s.freezeRemainders with indexEpoch := epoch } := by
  have frozen := kept.frozen
  refine frozen.same rfl rfl ?_ rfl frozen.covered
  funext e
  rw [freeze_live]
  simp [State.liveRemainder, State.freezeRemainders]

/-- Only the bookkeeping of remainders and assets differs. -/
def Prepares (s mid : State) : Prop :=
  mid = { s with
    epochDust27 := mid.epochDust27
    indexRemainder := mid.indexRemainder
    carryIndexRemainder := mid.carryIndexRemainder
    lastDenominator := mid.lastDenominator
    indexEpoch := mid.indexEpoch
    epochAsset := mid.epochAsset }

theorem Kept.prepare (kept : Kept s) (denominator epoch : Nat) :
    Kept (prepare s denominator epoch) ∧ Prepares s (prepare s denominator epoch) ∧
      (prepare s denominator epoch).indexEpoch = epoch := by
  have first : Kept (if denominator ≠ s.lastDenominator then
      { s.freezeRemainders with lastDenominator := denominator } else s) ∧
      Prepares s (if denominator ≠ s.lastDenominator then
        { s.freezeRemainders with lastDenominator := denominator } else s) := by
    by_cases same : denominator ≠ s.lastDenominator
    · rw [if_pos same]
      exact ⟨kept.frozen.same rfl rfl rfl rfl kept.covered, rfl⟩
    · rw [if_neg same]
      exact ⟨kept, rfl⟩
  rw [RewardToken.prepare]
  generalize (if denominator ≠ s.lastDenominator then
    { s.freezeRemainders with lastDenominator := denominator } else s) = mid at first
  obtain ⟨kept, prepares⟩ := first
  simp only
  by_cases other : mid.indexEpoch ≠ epoch
  · rw [if_pos other]
    refine ⟨kept.turned epoch, ?_, rfl⟩
    rw [Prepares, prepares]
    rfl
  · rw [if_neg other]
    exact ⟨kept, prepares, not_not.mp other⟩

theorem stampAsset_ok {epoch : Nat} (done : stampAsset s epoch = .ok after) :
    after = { s with epochAsset := after.epochAsset } := by
  simp only [stampAsset, ite_ok, bind_ok, require_ok, pure_ok] at done
  rcases done with ⟨_, ⟨_, _, _, _, _, rfl⟩ | ⟨_, _, _, _, _, rfl⟩⟩ | ⟨_, rfl⟩
  · rfl
  · rfl
  · rfl

/-- A distribution is the index step after its bookkeeping. -/
theorem distribute_ok {amount : Nat} {fromCarry : Bool} (kept : Kept s)
    (done : distribute s cut now amount fromCarry = .ok after) :
    ∃ mid, Prepares s mid ∧ Kept mid ∧ mid.indexEpoch = now / day ∧ s.effectiveEligible cut now ≠ 0 ∧
      after = credit mid cut now (s.effectiveEligible cut now) amount fromCarry := by
  simp only [distribute, bind_ok, require_ok, pure_ok] at done
  obtain ⟨mid, stamped, _, positive, rfl⟩ := done
  obtain ⟨held, prepares, epoch⟩ := kept.prepare (s.effectiveEligible cut now) (now / day)
  have same := stampAsset_ok stamped
  refine ⟨mid, ?_, ?_, ?_, positive, rfl⟩
  · rw [Prepares, same, prepares]
  · rw [same]
    exact held.same rfl rfl rfl rfl held.covered
  · rw [same]
    exact epoch

/-- The index step gives out its numerator but for the remainder. -/
theorem numerator_split (numerator denominator : Nat) :
    numerator / denominator * denominator + numerator % denominator = numerator := by
  rw [Nat.mul_comm]
  exact Nat.div_add_mod numerator denominator

/-- In its epoch a distribution pays its amount: what the step gave out and what it left over. -/
theorem credit_epoch {denominator : Nat} (epoch : s.indexEpoch = now / day) (amount : Nat) (fromCarry : Bool)
    (e : Nat) (before : paidIn s.credits e + s.epochDust27 e + s.liveRemainder e = s.epochBudget e * precision) :
    paidIn (credit s cut now denominator amount fromCarry).credits e +
      (credit s cut now denominator amount fromCarry).epochDust27 e +
      (credit s cut now denominator amount fromCarry).liveRemainder e =
        (credit s cut now denominator amount fromCarry).epochBudget e * precision := by
  simp only [RewardToken.credit, paidIn_cons, State.liveRemainder, epoch] at before ⊢
  generalize precision = unit at before ⊢
  by_cases same : now / day = e
  · subst same
    simp only [if_true, Function.update_self, Nat.add_mul] at before ⊢
    cases fromCarry with
    | true =>
      have out := numerator_split (amount * unit + s.carryIndexRemainder) denominator
      simp only [if_true]
      omega
    | false =>
      have out := numerator_split (amount * unit + s.indexRemainder) denominator
      simp only [Bool.false_eq_true, if_false]
      omega
  · simp only [same, if_false, Function.update_of_ne (Ne.symm same)] at before ⊢
    omega

theorem Kept.credit (kept : Kept s) {denominator : Nat} (positive : denominator ≠ 0)
    (sums : Totals (s.effectiveWeight cut now) denominator) (epoch : s.indexEpoch = now / day)
    (amount : Nat) (fromCarry : Bool) : Kept (credit s cut now denominator amount fromCarry) := by
  obtain ⟨weights, epochs, budgets, covered⟩ := kept
  constructor
  · intro event member
    rcases List.mem_cons.mp member with rfl | older
    · exact ⟨sums, positive⟩
    · exact weights event older
  · intro e
    exact credit_epoch epoch amount fromCarry e (epochs e)
  · intro e
    have before := budgets e
    simp only [RewardToken.credit, budgetIn_cons]
    by_cases same : now / day = e
    · subst same
      rw [Function.update_self, if_pos rfl, before, Nat.add_comm]
    · rw [Function.update_of_ne (Ne.symm same), if_neg same, before, Nat.zero_add]
  · rwa [credit_carry]

/-- A distribution adds its amount to the budgets, and leaves carry and total. -/
theorem credit_budget {spent : Nat} (sums : Totals s.epochBudget spent) (denominator amount : Nat)
    (fromCarry : Bool) : Totals (credit s cut now denominator amount fromCarry).epochBudget (spent + amount) :=
  sums.credit (now / day) amount

end Solonpad.RewardToken
