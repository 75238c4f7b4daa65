import Solonpad.DyadicTree
import Solonpad.RunningTotal

/-!
A roll of weights that may expire. Before a switch every weight counts and one total is their sum;
after it a weight counts while it is of the new generation and its expiry lies ahead, and a tree
over expiries answers the sum of those at any time. The switch itself touches no account: each
account is brought to the new generation when it is next looked at.
-/

namespace Solonpad.ExpiringWeights

open Checked DyadicTree RunningTotal

structure Roll (α : Type) where
  modeGeneration : Nat
  accountGeneration : α → Nat
  accountExpiry : α → Nat
  expiryWeights : Tree
  eligible : α → Nat
  totalEligible : Nat

variable {α : Type}

def Roll.empty : Roll α := ⟨0, fun _ => 0, fun _ => 0, fun _ => 0, fun _ => 0, 0⟩

/-- The denominator at a time: `on` once the switch has passed. -/
def Roll.effective (r : Roll α) (on : Bool) (now : Nat) : Nat :=
  if on = true then suffixSum 32 r.expiryWeights now else r.totalEligible

/-- What counts of one account. -/
def Roll.weight (r : Roll α) (on : Bool) (now : Nat) (a : α) : Nat :=
  if on = true then
    if r.accountGeneration a = 1 ∧ now < r.accountExpiry a then r.eligible a else 0
  else r.eligible a

def Roll.switch (r : Roll α) : Roll α := { r with totalEligible := 0, modeGeneration := 1 }

variable {ε : Type} [DecidableEq α]

/-- An account's weight leaves the tree and the total. -/
def Roll.retire (r : Roll α) (account : α) (amount : Nat) : Tx ε (Roll α) := do
  let tree ← DyadicTree.sub 32 r.expiryWeights (r.accountExpiry account) amount
  let total ← Checked.sub r.totalEligible amount
  pure { r with expiryWeights := tree, totalEligible := total }

/-- An account enters the current generation without a weight. -/
def Roll.cleared (r : Roll α) (account : α) : Roll α :=
  { r with
    eligible := Function.update r.eligible account 0
    accountGeneration := Function.update r.accountGeneration account r.modeGeneration
    accountExpiry := Function.update r.accountExpiry account 0 }

/-- A weight goes from its value to `next`. -/
def Roll.reweigh (r : Roll α) (account : α) (next : Nat) : Tx ε (Roll α) := do
  let previous := r.eligible account
  let total ← Checked.sub (r.totalEligible + next) previous
  let expiry := r.accountExpiry account
  let tree ← if r.modeGeneration = 1 ∧ previous ≠ 0 then
      DyadicTree.sub 32 r.expiryWeights expiry previous
    else pure r.expiryWeights
  let tree := if r.modeGeneration = 1 ∧ next ≠ 0 then DyadicTree.add 32 tree expiry next else tree
  pure { r with
    eligible := Function.update r.eligible account next
    totalEligible := total
    expiryWeights := tree }

/-! What the totals stand for. -/

/-- What an account adds to the tree's sum beyond a time. -/
def Roll.expiring (r : Roll α) (t : Nat) (a : α) : Nat :=
  if r.accountGeneration a = 1 ∧ t < r.accountExpiry a then r.eligible a else 0

structure Weighed (r : Roll α) (on : Bool) : Prop where
  mode : r.modeGeneration = 0 ∨ r.modeGeneration = 1 ∧ on = true
  generation : ∀ a, r.accountGeneration a ≤ r.modeGeneration
  whole : r.modeGeneration = 0 → Totals r.eligible r.totalEligible
  expiring : ∀ t, Totals (r.expiring t) (suffixSum 32 r.expiryWeights t)
  small : ∀ a, r.accountExpiry a < 2 ^ 32

variable {r after : Roll α} {on : Bool} {account : α}

omit [DecidableEq α] in
theorem Weighed.empty (on : Bool) : Weighed (Roll.empty : Roll α) on := by
  refine ⟨.inl rfl, fun _ => le_rfl, fun _ => Totals.zero, ?_, fun _ => Nat.two_pow_pos 32⟩
  intro t
  exact Totals.zero.of_eq (fun a => by simp [Roll.expiring, Roll.empty]) (suffixSum_empty t)

omit [DecidableEq α] in
theorem Weighed.generation_le (weighed : Weighed r on) (a : α) : r.accountGeneration a ≤ 1 := by
  have low := weighed.generation a
  rcases weighed.mode with zero | ⟨one, _⟩ <;> omega

omit [DecidableEq α] in
/-- The denominator is the sum of the weights that count. -/
theorem Weighed.totals (weighed : Weighed r on) (now : Nat) : Totals (r.weight on now) (r.effective on now) := by
  unfold Roll.effective
  by_cases switched : on = true
  · rw [if_pos switched]
    refine (weighed.expiring now).of_eq (fun a => ?_) rfl
    rw [Roll.weight, if_pos switched]
    rfl
  · rw [if_neg switched]
    have zero : r.modeGeneration = 0 := by
      rcases weighed.mode with zero | ⟨_, some⟩
      · exact zero
      · exact absurd some switched
    refine (weighed.whole zero).of_eq (fun a => ?_) rfl
    rw [Roll.weight, if_neg switched]

omit [DecidableEq α] in
theorem Weighed.switched (weighed : Weighed r true) (zero : r.modeGeneration = 0) : Weighed r.switch true := by
  obtain ⟨_, generation, _, expiring, small⟩ := weighed
  refine ⟨.inr ⟨rfl, rfl⟩, ?_, ?_, expiring, small⟩
  · intro a
    have := generation a
    simp only [Roll.switch]
    omega
  · intro wrong
    cases wrong

omit [DecidableEq α] in
/-- Before it acts, the switch may come on. -/
theorem Weighed.later (weighed : Weighed r on) {also : Bool} (still : on = true → also = true) : Weighed r also := by
  obtain ⟨mode, generation, whole, expiring, small⟩ := weighed
  refine ⟨?_, generation, whole, expiring, small⟩
  rcases mode with zero | ⟨one, switched⟩
  · exact .inl zero
  · exact .inr ⟨one, still switched⟩

/-- One account's weight, generation or expiry moves, and the totals with it. -/
theorem Weighed.moved (weighed : Weighed r on) (a : α) (mode : after.modeGeneration = r.modeGeneration)
    (others : ∀ b, b ≠ a → after.eligible b = r.eligible b ∧
      after.accountGeneration b = r.accountGeneration b ∧ after.accountExpiry b = r.accountExpiry b)
    (generation : after.accountGeneration a ≤ r.modeGeneration) (small : after.accountExpiry a < 2 ^ 32)
    (total : r.modeGeneration = 0 →
      after.totalEligible + r.eligible a = r.totalEligible + after.eligible a)
    (tree : ∀ t, suffixSum 32 after.expiryWeights t + r.expiring t a =
      suffixSum 32 r.expiryWeights t + after.expiring t a) : Weighed after on := by
  constructor
  · rw [mode]
    exact weighed.mode
  · intro b
    rw [mode]
    by_cases same : b = a
    · rwa [same]
    · rw [(others b same).2.1]
      exact weighed.generation b
  · intro zero
    rw [mode] at zero
    exact (weighed.whole zero).moved a (fun b ne => (others b ne).1) (total zero)
  · intro t
    refine (weighed.expiring t).moved a (fun b ne => ?_) (tree t)
    obtain ⟨eligible, generation, expiry⟩ := others b ne
    rw [Roll.expiring, Roll.expiring, eligible, generation, expiry]
  · intro b
    by_cases same : b = a
    · rwa [same]
    · rw [(others b same).2.2]
      exact weighed.small b

omit [DecidableEq α] in
theorem retire_ok {amount : Nat} (weighed : Weighed r on)
    (done : r.retire account amount = (.ok after : Tx ε (Roll α))) :
    (∀ t, suffixSum 32 r.expiryWeights t = suffixSum 32 after.expiryWeights t +
      if t < r.accountExpiry account then amount else 0) ∧ amount ≤ r.totalEligible ∧
    after = { r with
      expiryWeights := after.expiryWeights, totalEligible := r.totalEligible - amount } := by
  simp only [Roll.retire, bind_ok, sub_ok, pure_ok] at done
  obtain ⟨tree, subbed, _, ⟨covered, rfl⟩, rfl⟩ := done
  have small := weighed.small account
  exact ⟨fun t => suffixSum_gains (sub_gains 32 small subbed) small t, covered, rfl⟩

/-- Once its weight is out of the tree, an account of the new generation may be cleared. -/
theorem Weighed.retired (weighed : Weighed r on) (mode : r.modeGeneration = 1)
    (generation : r.accountGeneration account = 1)
    (done : r.retire account (r.eligible account) = (.ok after : Tx ε (Roll α))) :
    Weighed (after.cleared account) on := by
  obtain ⟨tree, _, rest⟩ := retire_ok weighed done
  refine weighed.moved account ?_ ?_ ?_ ?_ ?_ ?_
  · rw [rest]
    rfl
  · intro b ne
    rw [rest]
    simp [Roll.cleared, Function.update_of_ne ne]
  · rw [rest]
    simp [Roll.cleared]
  · simp [Roll.cleared]
  · intro zero
    omega
  · intro t
    have moved := tree t
    simp only [Roll.expiring, Roll.cleared, Function.update_self, generation, true_and, ite_self,
      Nat.add_zero]
    omega

/-- A weight of an older generation counts nowhere, so it may be dropped. -/
theorem Weighed.migrated (weighed : Weighed r on) (old : r.accountGeneration account ≠ r.modeGeneration) :
    Weighed (r.cleared account) on := by
  have low := weighed.generation account
  have one : r.modeGeneration = 1 := by
    rcases weighed.mode with zero | ⟨one, _⟩ <;> omega
  refine weighed.moved account rfl ?_ ?_ ?_ ?_ ?_
  · intro b ne
    simp [Roll.cleared, Function.update_of_ne ne]
  · simp [Roll.cleared]
  · simp [Roll.cleared]
  · intro zero
    omega
  · intro t
    have idle : r.accountGeneration account ≠ 1 := by omega
    simp [Roll.expiring, Roll.cleared, idle]

/-- An idle account may get an expiry. -/
theorem Weighed.qualified (weighed : Weighed r on) (idle : r.eligible account = 0) {expiry : Nat}
    (small : expiry < 2 ^ 32) :
    Weighed { r with accountExpiry := Function.update r.accountExpiry account expiry } on := by
  refine weighed.moved account rfl ?_ (weighed.generation account) ?_ ?_ ?_
  · intro b ne
    simp [Function.update_of_ne ne]
  · simpa using small
  · intro _
    rfl
  · intro t
    simp [Roll.expiring, idle]

/-- An account of the current generation takes a new weight. -/
theorem Weighed.reweighed {next : Nat} (weighed : Weighed r on)
    (generation : r.accountGeneration account = r.modeGeneration)
    (done : r.reweigh account next = (.ok after : Tx ε (Roll α))) :
    Weighed after on ∧ after = { r with
      eligible := Function.update r.eligible account next
      totalEligible := after.totalEligible
      expiryWeights := after.expiryWeights } := by
  have small := weighed.small account
  have split : ∃ tree, r.eligible account ≤ r.totalEligible + next ∧
      (r.modeGeneration = 1 → ∀ t, suffixSum 32 tree t +
        (if t < r.accountExpiry account then r.eligible account else 0) =
          suffixSum 32 r.expiryWeights t) ∧
      (r.modeGeneration ≠ 1 → tree = r.expiryWeights) ∧
      after = { r with
        eligible := Function.update r.eligible account next
        totalEligible := r.totalEligible + next - r.eligible account
        expiryWeights := if r.modeGeneration = 1 ∧ next ≠ 0 then
          DyadicTree.add 32 tree (r.accountExpiry account) next else tree } := by
    simp only [Roll.reweigh, bind_ok, sub_ok, ite_ok, pure_ok] at done
    obtain ⟨_, ⟨covered, rfl⟩, ⟨⟨one, _⟩, tree, subbed, rfl⟩ | ⟨other, tree, rfl, rfl⟩⟩ := done
    · refine ⟨tree, covered, ?_, fun ne => absurd one ne, rfl⟩
      intro _ t
      exact (suffixSum_gains (sub_gains 32 small subbed) small t).symm
    · refine ⟨_, covered, ?_, fun _ => rfl, rfl⟩
      intro one t
      have zero : r.eligible account = 0 := by
        by_contra some
        exact other ⟨one, some⟩
      simp [zero]
  obtain ⟨tree, covered, out, kept, rfl⟩ := split
  refine ⟨weighed.moved account rfl ?_ ?_ small ?_ ?_, rfl⟩
  · intro b ne
    simp [Function.update_of_ne ne]
  · exact generation ▸ le_rfl
  · intro _
    simp only [Function.update_self]
    omega
  · intro t
    simp only [Roll.expiring, Function.update_self, generation]
    by_cases one : r.modeGeneration = 1
    · have left := out one t
      simp only [one, true_and] at left ⊢
      by_cases some : next = 0
      · simp only [some, ne_eq, not_true_eq_false, if_false, ite_self, Nat.add_zero]
        exact left
      · have grown := suffixSum_gains (add_gains 32 small tree next) small t
        simp only [ne_eq, some, not_false_eq_true, if_true]
        omega
    · simp only [one, false_and, if_false, kept one]

/-- A withdrawn account loses its whole weight. -/
theorem Weighed.withdrawn {tree : Tree} {total expiry : Nat} (weighed : Weighed r on)
    (generation : r.accountGeneration account = r.modeGeneration)
    (out : r.modeGeneration = 1 → DyadicTree.sub 32 r.expiryWeights (r.accountExpiry account)
      (r.eligible account) = (.ok tree : Tx ε Tree))
    (kept : r.modeGeneration ≠ 1 → tree = r.expiryWeights) (covered : total + r.eligible account = r.totalEligible)
    (small : expiry < 2 ^ 32) :
    Weighed { r with
      expiryWeights := tree
      eligible := Function.update r.eligible account 0
      totalEligible := total
      accountExpiry := Function.update r.accountExpiry account expiry } on := by
  have own := weighed.small account
  refine weighed.moved account rfl ?_ ?_ ?_ ?_ ?_
  · intro b ne
    simp [Function.update_of_ne ne]
  · exact generation ▸ le_rfl
  · simpa using small
  · intro _
    simp only [Function.update_self]
    omega
  · intro t
    simp only [Roll.expiring, Function.update_self, generation, ite_self, Nat.add_zero]
    by_cases one : r.modeGeneration = 1
    · have left := suffixSum_gains (sub_gains 32 own (out one)) own t
      simp only [one, true_and] at left ⊢
      omega
    · simp only [one, false_and, if_false, kept one, Nat.add_zero]

end Solonpad.ExpiringWeights
