import Solonpad.RewardMoves

/-!
Who holds weight in the reward token. An account's weight is its balance or nothing, excluded
accounts have none, the total is what the current policy generation holds, and every node of the
expiry tree is the sum of the weights that expire below it. One rule moves one account's weight;
each move of a call is an instance of it.
-/

namespace Solonpad.RewardToken

open Checked DyadicTree RunningTotal Eligibility
open Chain (Address)

variable {c : Config} {k : Controller} {env : Env} {governance : Address}
variable {s mid after : State} {told : List Tell} {pending : Address → Prop}

/-- An account's weight, where it is one of the current policy generation. -/
def State.currentWeight (s : State) (a : Address) : Nat :=
  if s.accountGeneration a = s.modeGeneration then s.eligible a else 0

/-- What an account adds to the node of a depth that stands over the expiries `m`. -/
def State.nodeWeight (s : State) (depth m : Nat) (a : Address) : Nat :=
  if s.accountGeneration a = 1 ∧ s.accountExpiry a / 2 ^ (32 - depth) = m then s.eligible a else 0

/-- `pending` are the accounts whose balance has moved and whose weight is still to follow. -/
structure Census (c : Config) (s : State) (pending : Address → Prop) : Prop where
  mode : s.modeGeneration ≤ 1
  generation : ∀ a, s.accountGeneration a ≤ s.modeGeneration
  balance : ∀ a, ¬ pending a → s.eligible a = 0 ∨ s.eligible a = s.token.balanceOf a
  excluded : ∀ a, c.excluded a = true → s.eligible a = 0
  counted : Totals s.currentWeight s.totalEligible
  nodes : ∀ depth, 0 < depth → depth ≤ 32 → ∀ m, m < 2 ^ depth →
    Totals (s.nodeWeight depth m) (s.expiryWeights (2 ^ depth + m))

theorem Census.same (census : Census c s pending) (same : Same s after) : Census c after pending := by
  obtain ⟨mode, generation, balance, excluded, counted, nodes⟩ := census
  constructor
  · rwa [same.mode]
  · rwa [same.generation, same.mode]
  · intro a settled
    rw [same.eligible, same.token]
    exact balance a settled
  · rwa [same.eligible]
  · refine counted.of_eq (fun a => ?_) same.total
    rw [State.currentWeight, State.currentWeight, same.generation, same.mode, same.eligible]
  · intro depth positive low m below
    refine (nodes depth positive low m below).of_eq (fun a => ?_) (by rw [same.tree])
    rw [State.nodeWeight, State.nodeWeight, same.generation, same.expiry, same.eligible]

/-- One account's weight, generation or expiry moves, and the total and the tree with it. -/
theorem Census.moved (census : Census c s pending) (account : Address) (token : after.token = s.token)
    (mode : after.modeGeneration = s.modeGeneration)
    (others : ∀ a, a ≠ account → after.eligible a = s.eligible a ∧
      after.accountGeneration a = s.accountGeneration a ∧ after.accountExpiry a = s.accountExpiry a)
    (generation : after.accountGeneration account ≤ s.modeGeneration)
    (balance : ¬ pending account → after.eligible account = 0 ∨ after.eligible account = s.token.balanceOf account)
    (excluded : c.excluded account = true → after.eligible account = 0)
    (total : after.totalEligible + s.currentWeight account = s.totalEligible + after.currentWeight account)
    (tree : ∀ depth, 0 < depth → depth ≤ 32 → ∀ m, m < 2 ^ depth →
      after.expiryWeights (2 ^ depth + m) + s.nodeWeight depth m account =
        s.expiryWeights (2 ^ depth + m) + after.nodeWeight depth m account) :
    Census c after pending := by
  constructor
  · rw [mode]
    exact census.mode
  · intro a
    rw [mode]
    by_cases own : a = account
    · rwa [own]
    · rw [(others a own).2.1]
      exact census.generation a
  · intro a settled
    rw [token]
    by_cases own : a = account
    · subst own
      exact balance settled
    · rw [(others a own).1]
      exact census.balance a settled
  · intro a out
    by_cases own : a = account
    · subst own
      exact excluded out
    · rw [(others a own).1]
      exact census.excluded a out
  · refine census.counted.moved account (fun a ne => ?_) total
    obtain ⟨eligible, generation, _⟩ := others a ne
    rw [State.currentWeight, State.currentWeight, eligible, generation, mode]
  · intro depth positive low m below
    refine (census.nodes depth positive low m below).moved account (fun a ne => ?_)
      (tree depth positive low m below)
    obtain ⟨eligible, generation, expiry⟩ := others a ne
    rw [State.nodeWeight, State.nodeWeight, eligible, generation, expiry]

/-- A weight that is not of mode A is in no node. -/
theorem nodeWeight_old {account : Address} (old : s.accountGeneration account ≠ 1) (depth m : Nat) :
    s.nodeWeight depth m account = 0 := if_neg (fun both => old both.1)

/-- Before mode A the tree is empty. -/
theorem Census.empty_tree (census : Census c s pending) (fresh : ∀ a, s.accountGeneration a ≠ 1) {depth : Nat}
    (positive : 0 < depth) (low : depth ≤ 32) {m : Nat} (below : m < 2 ^ depth) : s.expiryWeights (2 ^ depth + m) = 0 :=
  (census.nodes depth positive low m below).unique
    (Totals.zero.of_eq (fun a => nodeWeight_old (fresh a) depth m) rfl)

/-- What a node gains by an update of one expiry. -/
theorem node_gains {tree other : Tree} {value amount : Nat} (gains : Gains 32 tree other value amount)
    {depth : Nat} (positive : 0 < depth) (low : depth ≤ 32) {m : Nat} (below : m < 2 ^ depth) :
    other (2 ^ depth + m) = tree (2 ^ depth + m) +
      if value / 2 ^ (32 - depth) = m then amount else 0 := gains depth positive low m below

theorem Move.census (move : Move c k env s told after) (census : Census c s pending) : Census c after pending := by
  cases move with
  | frame same => exact census.same same
  | switch zero fresh =>
    obtain ⟨_, _, balance, excluded, _, nodes⟩ := census
    refine ⟨le_rfl, fun a => ?_, balance, excluded, Totals.zero.of_eq (fun a => ?_) rfl, nodes⟩
    · simp only [fresh a]
      exact Nat.zero_le 1
    · simp [State.currentWeight, fresh a]
  | migrate account one old =>
    refine census.moved account rfl rfl ?_ ?_ ?_ ?_ ?_ ?_
    · intro a ne
      simp [Function.update_of_ne ne]
    · simp
    · simp
    · simp
    · simp [State.currentWeight, old, one]
    · intro depth _ _ m _
      simp [State.nodeWeight, old]
  | retire account tree one generation expired gains covered =>
    refine census.moved account rfl rfl ?_ ?_ ?_ ?_ ?_ ?_
    · intro a ne
      simp [Function.update_of_ne ne]
    · simp
    · simp
    · simp
    · simp [State.currentWeight, generation, one, Nat.sub_add_cancel covered]
    · intro depth positive low m below
      have node := node_gains gains positive low below
      simp only [State.nodeWeight, Function.update_self, generation, true_and, ite_self, Nat.add_zero]
      omega
  | qualify account expiry idle small qualifies set mode =>
    refine census.moved account rfl rfl ?_ (census.generation account) ?_ ?_ ?_ ?_
    · intro a ne
      simp [Function.update_of_ne ne]
    · exact fun _ => .inl idle
    · exact fun _ => idle
    · simp [State.currentWeight]
    · intro depth _ _ m _
      simp [State.nodeWeight, idle]
  | weigh account next tree generation fair earns covered grown kept pointed =>
    obtain ⟨_, _, _, rfl⟩ := pointed
    refine census.moved account rfl rfl ?_ (census.generation account) ?_ ?_ ?_ ?_
    · intro a ne
      simp [Function.update_of_ne ne]
    · intro _
      simpa using fair
    · intro out
      simp only [Function.update_self]
      rcases earns with none | held | qualifies
      · exact none
      · exact absurd (census.excluded account out) held
      · rw [qualifies.open_] at out
        cases out
    · simp only [State.currentWeight, generation, Function.update_self, if_true]
      omega
    · intro depth positive low m below
      simp only [State.nodeWeight, Function.update_self]
      by_cases one : s.modeGeneration = 1
      · obtain ⟨middle, out, into⟩ := grown one
        have first := node_gains out positive low below
        have second := node_gains into positive low below
        simp only [generation, one, true_and]
        omega
      · rw [kept one, generation]
        simp only [one, false_and, if_false]
  | withdraw account tree generation gains covered =>
    refine census.moved account rfl rfl ?_ (census.generation account) ?_ ?_ ?_ ?_
    · intro a ne
      simp [Function.update_of_ne ne]
    · simp
    · simp
    · simp [State.currentWeight, generation, Nat.sub_add_cancel covered]
    · intro depth positive low m below
      have node := node_gains gains positive low below
      simp only [State.nodeWeight, Function.update_self, ite_self, Nat.add_zero]
      by_cases one : s.accountGeneration account = 1
      · simp only [one, true_and]
        omega
      · -- in default B the tree is empty, so nothing could leave it
        have fresh : ∀ a, s.accountGeneration a ≠ 1 := by
          intro a
          have := census.generation a
          have := census.mode
          have := census.generation account
          omega
        have empty := census.empty_tree fresh positive low below
        simp only [one, false_and, if_false]
        omega
  | point account known pointed =>
    obtain ⟨_, _, _, rfl⟩ := pointed
    exact ⟨census.mode, census.generation, census.balance, census.excluded, census.counted,
      census.nodes⟩

theorem Moves.census (moves : Moves c k env s told after) (census : Census c s pending) : Census c after pending := by
  induction moves with
  | refl => exact census
  | tail _ move ih => exact move.census ih

/-- After a whole call no account's weight is still to follow. -/
theorem Passes.census (passes : Passes c k env s told after) (census : Census c s (fun _ => False)) :
    Census c after (fun _ => False) := by
  cases passes with
  | moves moves => exact moves.census census
  | transfers sender receiver first token others second settled =>
    rename_i released moved
    have early := first.census census
    have between : Census c moved (fun a => a = sender ∨ a = receiver) := by
      obtain ⟨mode, generation, balance, excluded, counted, nodes⟩ := early
      rw [token]
      refine ⟨mode, generation, fun a apart => ?_, excluded, counted, nodes⟩
      rw [not_or] at apart
      simp only [others a apart.1 apart.2]
      exact balance a id
    obtain ⟨mode, generation, balance, excluded, counted, nodes⟩ := second.census between
    refine ⟨mode, generation, fun a _ => ?_, excluded, counted, nodes⟩
    by_cases side : a = sender ∨ a = receiver
    · rcases settled a side with out | none | held
      · exact .inl (excluded a out)
      · exact .inl none
      · rw [second.token]
        exact .inr held
    · exact balance a side

/-! Runs. -/

theorem turn_census {sys next : System} (turn : Turn c governance sys next) (whole : Whole sys)
    (census : Census c sys.token (fun _ => False)) : Census c next.token (fun _ => False) := by
  cases turn with
  | wait | govern => exact census
  | call env call order taken =>
    obtain ⟨_, _, passes⟩ := step_passes (whole.sound.wait order) taken
    exact passes.census census

theorem start_census (c : Config) (k : Controller) (now : Nat) : Census c (start c k now).token (fun _ => False) := by
  refine ⟨Nat.zero_le 1, fun _ => le_rfl, fun _ _ => .inl rfl, fun _ _ => rfl, ?_, ?_⟩
  · apply Totals.zero.of_eq _ rfl
    intro a
    simp [State.currentWeight, start, deployed]
  · intro depth _ _ m _
    apply Totals.zero.of_eq _ rfl
    intro a
    exact nodeWeight_old Nat.zero_ne_one depth m

theorem run_census {k : Controller} {now : Nat} {sys : System}
    (reached : Run c governance (start c k now) sys) : Census c sys.token (fun _ => False) := by
  induction reached with
  | refl => exact start_census c k now
  | tail earlier turn ih => exact turn_census turn (run_whole earlier (start_whole c k now)).1 ih

/-- An account's weight is its balance or nothing, the total is the weight of the current policy
generation, a node of the expiry tree holds the weights that expire below it, and so the
denominator is, now and at any later time without a call, the sum of the weights that count. -/
theorem weights_counted {k : Controller} {now : Nat} {sys : System}
    (reached : Run c governance (start c k now) sys) :
    (∀ a, c.excluded a = false →
      sys.token.eligible a = 0 ∨ sys.token.eligible a = sys.token.token.balanceOf a) ∧
    (∀ a, c.excluded a = true → sys.token.eligible a = 0) ∧
    Totals sys.token.currentWeight sys.token.totalEligible ∧
    (∀ depth, 0 < depth → depth ≤ 32 → ∀ m, m < 2 ^ depth →
      Totals (sys.token.nodeWeight depth m) (sys.token.expiryWeights (2 ^ depth + m))) ∧
    ∀ t, sys.now ≤ t → Totals (sys.token.effectiveWeight (sys.token.cutoff sys.controller t) t)
      (sys.token.effectiveEligible (sys.token.cutoff sys.controller t) t) := by
  obtain ⟨_, _, balance, excluded, counted, nodes⟩ := run_census reached
  refine ⟨fun a _ => balance a id, excluded, counted, nodes, ?_⟩
  intro t order
  have whole := (run_whole reached (start_whole c k now)).1
  exact (whole.sound.wait order).weighed.totals t

theorem weights_counted_two : ∃ sys, Run sample 9 (start sample .empty 100) sys ∧
    sys.token.eligible 11 = 4 * 10 ^ 18 ∧ Totals sys.token.currentWeight sys.token.totalEligible := by
  obtain ⟨sys, reached, passed⟩ := Run.of_calls (c := sample) 9 .empty 100 twoHolders
    (fun sys => decide (sys.token.eligible 11 = 4 * 10 ^ 18)) (by decide)
  exact ⟨sys, reached, of_decide_eq_true passed, (weights_counted reached).2.2.1⟩

end Solonpad.RewardToken
