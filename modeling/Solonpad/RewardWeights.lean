import Solonpad.RewardReplay

/-!
Weights and totals of the reward token. In default B the total is the sum of all weights; in mode A
the expiry tree answers, for every time, the sum of the weights that expire beyond it. So the
denominator of a distribution is the sum of the weights that count at it. One rule moves one
account's weight; retiring, qualifying and reweighing are instances of it.
-/

namespace Solonpad.RewardToken

open Checked DyadicTree RunningTotal
open Chain (Address)

/-- What an account adds to the tree's sum beyond a time. -/
def State.expiring (s : State) (t : Nat) (account : Address) : Nat :=
  if s.accountGeneration account = 1 ∧ t < s.accountExpiry account then s.eligible account else 0

structure Weighed (s : State) (cut : Option Nat) : Prop where
  mode : s.modeGeneration = 0 ∨ s.modeGeneration = 1 ∧ cut.isSome = true
  generation : ∀ a, s.accountGeneration a ≤ s.modeGeneration
  whole : s.modeGeneration = 0 → Totals s.eligible s.totalEligible
  expiring : ∀ t, Totals (s.expiring t) (suffixSum 32 s.expiryWeights t)
  narrow : ∀ a, s.eligible a ≤ supply
  small : ∀ a, s.accountExpiry a < 2 ^ 32
  alive : ∀ a, s.accountGeneration a = 1 → s.accountExpiry a = 0 → s.eligible a = 0
  fixed : s.token.totalSupply = supply

variable {s after : State} {cut : Option Nat} {now : Nat} {account : Address}

theorem Weighed.same (weighed : Weighed s cut) (mode : after.modeGeneration = s.modeGeneration)
    (generation : after.accountGeneration = s.accountGeneration)
    (expiry : after.accountExpiry = s.accountExpiry) (eligible : after.eligible = s.eligible)
    (total : after.totalEligible = s.totalEligible) (tree : after.expiryWeights = s.expiryWeights)
    (token : after.token.totalSupply = s.token.totalSupply) : Weighed after cut := by
  have sums : ∀ t, after.expiring t = s.expiring t := by
    intro t
    funext a
    rw [State.expiring, State.expiring, generation, expiry, eligible]
  obtain ⟨mode', generation', whole, expiring, narrow, small, alive, fixed⟩ := weighed
  constructor
  · rwa [mode]
  · rwa [generation, mode]
  · rwa [mode, eligible, total]
  · intro t
    rw [sums, tree]
    exact expiring t
  · rwa [eligible]
  · rwa [expiry]
  · rwa [generation, expiry, eligible]
  · rwa [token]

theorem Weighed.generation_le (weighed : Weighed s cut) (a : Address) : s.accountGeneration a ≤ 1 := by
  have low := weighed.generation a
  rcases weighed.mode with zero | ⟨one, _⟩ <;> omega

/-- The denominator is the sum of the weights that count. -/
theorem Weighed.totals (weighed : Weighed s cut) (now : Nat) :
    Totals (s.effectiveWeight cut now) (s.effectiveEligible cut now) := by
  unfold State.effectiveEligible
  by_cases on : cut.isSome = true
  · rw [if_pos on]
    refine (weighed.expiring now).of_eq (fun a => ?_) rfl
    rw [State.effectiveWeight, if_pos on]
    rfl
  · rw [if_neg on]
    have zero : s.modeGeneration = 0 := by
      rcases weighed.mode with zero | ⟨_, some⟩
      · exact zero
      · exact absurd some on
    refine (weighed.whole zero).of_eq (fun a => ?_) rfl
    rw [State.effectiveWeight, if_neg on]

/-- What counts of an account is the weight of its last point, if that one still counts. -/
theorem Weighed.weighs (weighed : Weighed s cut) (current : ∀ a, CurrentAt s a) (a : Address) :
    s.effectiveWeight cut now a = match (s.accountHistory a).getLast? with
      | none => 0
      | some p => open Classical in if p.counts cut now then p.weight else 0 := by
  have low := weighed.generation_le a
  cases last : (s.accountHistory a).getLast? with
  | none =>
    have idle := (current a).unseen (List.getLast?_eq_none_iff.mp last)
    simp [State.effectiveWeight, idle]
  | some p =>
    have weight := (current a).weight p last
    have generation := (current a).generation p last
    have until_ := (current a).validUntil p last
    simp only [weight]
    by_cases idle : s.eligible a = 0
    · simp [State.effectiveWeight, idle]
    · have alive := weighed.alive a
      rw [State.effectiveWeight]
      cases cut with
      | none =>
        have zero : s.modeGeneration = 0 := by
          rcases weighed.mode with zero | ⟨_, some⟩
          · exact zero
          · cases some
        have old := weighed.generation a
        have counts : p.counts none now := ⟨fun _ => rfl, fun one => by omega⟩
        simp [counts]
      | some start =>
        have cases : s.accountGeneration a = 0 ∨ s.accountGeneration a = 1 := by omega
        simp only [Option.isSome_some, if_true]
        rcases cases with zero | one
        · have dead : ¬ p.counts (some start) now := by
            intro counts
            cases counts.1 (by rw [generation, zero])
          simp [zero, dead]
        · have expiry := until_ idle (by rw [generation, one])
          have finite : s.accountExpiry a ≠ 0 := fun none => idle (alive one none)
          have same : p.counts (some start) now ↔ now < s.accountExpiry a := by
            constructor
            · intro counts
              have := counts.2 (by rw [generation, one])
              omega
            · intro inside
              exact ⟨fun wrong => by omega, fun _ => .inr (by omega)⟩
          simp only [one, true_and, same]

/-! One account's weight. -/

/-- One account's weight, generation or expiry moves, and the totals with it. -/
theorem Weighed.moved (weighed : Weighed s cut) (a : Address)
    (mode : after.modeGeneration = s.modeGeneration)
    (token : after.token.totalSupply = s.token.totalSupply)
    (others : ∀ b, b ≠ a → after.eligible b = s.eligible b ∧
      after.accountGeneration b = s.accountGeneration b ∧ after.accountExpiry b = s.accountExpiry b)
    (generation : after.accountGeneration a ≤ s.modeGeneration)
    (narrow : after.eligible a ≤ supply) (small : after.accountExpiry a < 2 ^ 32)
    (alive : after.accountGeneration a = 1 → after.accountExpiry a = 0 → after.eligible a = 0)
    (total : s.modeGeneration = 0 →
      after.totalEligible + s.eligible a = s.totalEligible + after.eligible a)
    (tree : ∀ t, suffixSum 32 after.expiryWeights t + s.expiring t a =
      suffixSum 32 s.expiryWeights t + after.expiring t a) : Weighed after cut := by
  constructor
  · rw [mode]
    exact weighed.mode
  · intro b
    rw [mode]
    by_cases same : b = a
    · rwa [same]
    · rw [(others b same).2.1]
      exact weighed.generation b
  · intro zero
    rw [mode] at zero
    exact (weighed.whole zero).moved a (fun b ne => (others b ne).1) (total zero)
  · intro t
    refine (weighed.expiring t).moved a (fun b ne => ?_) (tree t)
    obtain ⟨eligible, generation, expiry⟩ := others b ne
    rw [State.expiring, State.expiring, eligible, generation, expiry]
  · intro b
    by_cases same : b = a
    · rwa [same]
    · rw [(others b same).1]
      exact weighed.narrow b
  · intro b
    by_cases same : b = a
    · rwa [same]
    · rw [(others b same).2.2]
      exact weighed.small b
  · intro b
    by_cases same : b = a
    · rwa [same]
    · rw [(others b same).1, (others b same).2.1, (others b same).2.2]
      exact weighed.alive b
  · rw [token]
    exact weighed.fixed

/-- An account's weight leaves the tree. -/
theorem retire_ok {amount : Nat} (weighed : Weighed s cut) (done : retire s account amount = .ok after) :
    (∀ t, suffixSum 32 s.expiryWeights t = suffixSum 32 after.expiryWeights t +
      if t < s.accountExpiry account then amount else 0) ∧ amount ≤ s.totalEligible ∧
    after = { s with
      expiryWeights := after.expiryWeights, totalEligible := s.totalEligible - amount } := by
  simp only [retire, bind_ok, sub_ok, pure_ok] at done
  obtain ⟨tree, subbed, _, ⟨covered, rfl⟩, rfl⟩ := done
  have small := weighed.small account
  exact ⟨fun t => suffixSum_gains (sub_gains 32 small subbed) small t, covered, rfl⟩

/-- Once an account's weight is out of the tree it may be set to zero. -/
theorem Weighed.retired (weighed : Weighed s cut) (mode : s.modeGeneration = 1)
    (generation : s.accountGeneration account = 1) (done : retire s account (s.eligible account) = .ok after)
    (expiry : Nat) (small : expiry < 2 ^ 32) :
    Weighed { after with
      eligible := Function.update after.eligible account 0
      accountGeneration := Function.update after.accountGeneration account s.modeGeneration
      accountExpiry := Function.update after.accountExpiry account expiry } cut := by
  obtain ⟨tree, _, rest⟩ := retire_ok weighed done
  have eligible : after.eligible = s.eligible := by rw [rest]
  have generations : after.accountGeneration = s.accountGeneration := by rw [rest]
  have expiries : after.accountExpiry = s.accountExpiry := by rw [rest]
  refine weighed.moved account ?_ ?_ ?_ ?_ ?_ ?_ ?_ ?_ ?_
  · rw [rest]
  · rw [rest]
  · intro b ne
    simp [Function.update_of_ne ne, eligible, generations, expiries]
  · simp
  · simp
  · simpa using small
  · simp
  · intro zero
    omega
  · intro t
    have moved := tree t
    simp only [State.expiring, Function.update_self, generation, true_and, ite_self, Nat.add_zero]
    omega

/-- A weight of an older generation counts nowhere, so it may be dropped. -/
theorem Weighed.migrated (weighed : Weighed s cut) (old : s.accountGeneration account ≠ s.modeGeneration) :
    Weighed { s with
      eligible := Function.update s.eligible account 0
      accountGeneration := Function.update s.accountGeneration account s.modeGeneration
      accountExpiry := Function.update s.accountExpiry account 0 } cut := by
  have low := weighed.generation account
  have one : s.modeGeneration = 1 := by
    rcases weighed.mode with zero | ⟨one, _⟩ <;> omega
  refine weighed.moved account rfl rfl ?_ ?_ ?_ ?_ ?_ ?_ ?_
  · intro b ne
    simp [Function.update_of_ne ne]
  · simp
  · simp
  · simp
  · simp
  · intro zero
    omega
  · intro t
    have idle : s.accountGeneration account ≠ 1 := by omega
    simp [State.expiring, idle]

/-- Mode A starts with no weight. -/
theorem Weighed.switch (weighed : Weighed s cut) (on : cut.isSome = true) (zero : s.modeGeneration = 0) :
    Weighed { s with totalEligible := 0, modeGeneration := 1 } cut := by
  obtain ⟨_, generation, _, expiring, narrow, small, alive, fixed⟩ := weighed
  constructor
  · exact .inr ⟨rfl, on⟩
  · intro a
    have := generation a
    simp only
    omega
  · intro wrong
    cases wrong
  · exact expiring
  · exact narrow
  · exact small
  · exact alive
  · exact fixed

/-- An idle account may get an expiry. -/
theorem Weighed.qualified (weighed : Weighed s cut) (idle : s.eligible account = 0) {expiry : Nat}
    (small : expiry < 2 ^ 32) :
    Weighed { s with accountExpiry := Function.update s.accountExpiry account expiry } cut := by
  refine weighed.moved account rfl rfl ?_ (weighed.generation account) (weighed.narrow account) ?_ ?_ ?_ ?_
  · intro b ne
    simp [Function.update_of_ne ne]
  · simpa using small
  · intro _ _
    exact idle
  · intro _
    rfl
  · intro t
    simp [State.expiring, idle]

theorem reweighTree_ok {previous next : Nat} {tree : Tree} (weighed : Weighed s cut)
    (done : reweighTree s account previous next = .ok tree) (t : Nat) :
    suffixSum 32 tree t + (if t < s.accountExpiry account then previous else 0) =
      suffixSum 32 s.expiryWeights t + if t < s.accountExpiry account then next else 0 := by
  have small := weighed.small account
  have first : ∃ middle, (if next ≠ 0 then DyadicTree.add 32 middle (s.accountExpiry account) next
      else middle) = tree ∧
      suffixSum 32 middle t + (if t < s.accountExpiry account then previous else 0) =
        suffixSum 32 s.expiryWeights t := by
    simp only [reweighTree, bind_ok, ite_ok, pure_ok] at done
    rcases done with ⟨_, middle, subbed, grown⟩ | ⟨none, _, rfl, grown⟩
    · exact ⟨middle, grown, (suffixSum_gains (sub_gains 32 small subbed) small t).symm⟩
    · have zero : previous = 0 := by simpa using none
      exact ⟨s.expiryWeights, grown, by simp [zero]⟩
  obtain ⟨middle, rfl, first⟩ := first
  have second : suffixSum 32 (if next ≠ 0 then DyadicTree.add 32 middle (s.accountExpiry account) next
      else middle) t = suffixSum 32 middle t + if t < s.accountExpiry account then next else 0 := by
    by_cases some : next = 0
    · simp [some]
    · rw [if_pos some]
      exact suffixSum_gains (add_gains 32 small middle next) small t
  rw [second]
  omega

/-- An account of the current generation takes a new weight. -/
theorem Weighed.reweighed {next total : Nat} {tree : Tree} (weighed : Weighed s cut)
    (generation : s.accountGeneration account = s.modeGeneration) (narrow : next ≤ supply)
    (alive : s.modeGeneration = 1 → s.accountExpiry account = 0 → next = 0)
    (covered : s.eligible account ≤ s.totalEligible + next) (sums : total = s.totalEligible + next - s.eligible account)
    (grown : s.modeGeneration = 1 → reweighTree s account (s.eligible account) next = .ok tree)
    (kept : s.modeGeneration ≠ 1 → tree = s.expiryWeights)
    (eligible : after.eligible = Function.update s.eligible account next) (totalEligible : after.totalEligible = total)
    (weights : after.expiryWeights = tree) (mode : after.modeGeneration = s.modeGeneration)
    (generations : after.accountGeneration = s.accountGeneration) (expiry : after.accountExpiry = s.accountExpiry)
    (token : after.token = s.token) : Weighed after cut := by
  refine weighed.moved account mode (by rw [token]) ?_ ?_ ?_ ?_ ?_ ?_ ?_
  · intro b ne
    rw [eligible, Function.update_of_ne ne, generations, expiry]
    exact ⟨rfl, rfl, rfl⟩
  · rw [generations, generation]
  · rwa [eligible, Function.update_self]
  · rw [expiry]
    exact weighed.small account
  · rw [eligible, Function.update_self, generations, expiry, generation]
    exact alive
  · intro _
    rw [eligible, Function.update_self, totalEligible, sums]
    omega
  · intro t
    rw [State.expiring, State.expiring, eligible, Function.update_self, generations, expiry, weights]
    by_cases one : s.modeGeneration = 1
    · have moved := reweighTree_ok weighed (grown one) t
      simp only [generation, one, true_and]
      exact moved
    · rw [kept one, generation]
      simp only [one, false_and, if_false]

end Solonpad.RewardToken
