import Solonpad.RewardRuns

/-!
What the reward token's calls do to weights, histories and participants, as a chain of small moves,
and what they tell the eligibility registry on the way: an account that starts earning in mode A
binds the token for itself, one whose weight ends unbinds it. Each internal function is read once;
every rule about holders is then a case analysis over the moves.
-/

namespace Solonpad.RewardToken

open Checked Checkpoints CarryStream DyadicTree RunningTotal Eligibility
open Chain (Address Token)

variable {s mid after : State} {cut : Option Nat} {now : Nat}

/-! The token's calls of the registry. -/

inductive Tell where
  | bind (account : Address)
  | unbind (account : Address)
  deriving DecidableEq, Repr

def syncAccountTells (s : State) (now : Nat) (account : Address) : List Tell :=
  if s.accountGeneration account = s.modeGeneration ∧ s.modeGeneration = 1 ∧
      s.eligible account ≠ 0 ∧ s.accountExpiry account ≤ now then [.unbind account] else []

def qualifyTells (c : Config) (s : State) (k : Controller) (env : Env) (account : Address) :
    List Tell :=
  if s.setup.eligibilityController = true ∧ s.modeGeneration ≠ 0 ∧
      (qualify c s k env account).1 = true then [.bind account] else []

def setWeightTells (s : State) (account : Address) (next : Nat) : List Tell :=
  if s.modeGeneration = 1 ∧ next = 0 then [.unbind account] else []

def reweighTells (c : Config) (s : State) (k : Controller) (cut : Option Nat) (env : Env)
    (account : Address) (newBalance : Nat) : Tx (List Tell) := do
  let synced := syncAccountTells s env.now account
  let s ← syncAccount s cut env.now account
  let previous := s.eligible account
  let asks := newBalance ≠ 0 ∧ previous = 0
  let (earns, s') := if newBalance = 0 then (false, s)
    else if previous ≠ 0 then (true, s) else qualify c s k env account
  let next := if earns then newBalance else 0
  pure (synced ++ (if asks then qualifyTells c s k env account else []) ++
    if next = previous then [] else setWeightTells s' account next)

def updateTells (c : Config) (s : State) (k : Controller) (cut : Option Nat) (env : Env)
    (sender receiver : Address) (amount : Nat) : Tx (List Tell) :=
  if sender = receiver ∨ amount = 0 then pure []
  else do
    let s ← releaseCarry s cut env.now
    let s ← moveBalance s sender receiver amount
    let (s, first) ← if c.excluded sender = false then do
        let told ← reweighTells c s k cut env sender (s.token.balanceOf sender)
        let s ← reweigh c s k cut env sender (s.token.balanceOf sender)
        pure (s, told)
      else pure (s, [])
    if c.excluded receiver = false then do
      let told ← reweighTells c s k cut env receiver (s.token.balanceOf receiver)
      pure (first ++ told)
    else pure first

def syncEligibilityTells (c : Config) (s : State) (k : Controller) (cut : Option Nat) (env : Env)
    (account : Address) : Tx (List Tell) := do
  let s ← releaseCarry s cut env.now
  reweighTells c s k cut env account (s.token.balanceOf account)

def onEligibilityChangeTells (s : State) (cut : Option Nat) (env : Env) (account : Address) :
    Tx (List Tell) := do
  let s ← releaseCarry s cut env.now
  pure (syncAccountTells s env.now account ++ [.unbind account])

/-- What one call of the token asks of the registry, in order. -/
def tells (c : Config) (s : State) (k : Controller) (env : Env) (call : Call) : Tx (List Tell) :=
  let cut := s.cutoff k env.now
  match call with
  | .transfer sender receiver amount => updateTells c s k cut env sender receiver amount
  | .syncEligibility account => syncEligibilityTells c s k cut env account
  | .onEligibilityChange account => onEligibilityChangeTells s cut env account
  | _ => pure []

/-! Moves. -/

/-- Nothing that says who holds weight differs. -/
structure Same (s after : State) : Prop where
  token : after.token = s.token
  eligible : after.eligible = s.eligible
  generation : after.accountGeneration = s.accountGeneration
  expiry : after.accountExpiry = s.accountExpiry
  mode : after.modeGeneration = s.modeGeneration
  total : after.totalEligible = s.totalEligible
  tree : after.expiryWeights = s.expiryWeights
  participants : after.participants = s.participants
  history : after.accountHistory = s.accountHistory

/-- The account may start earning now. -/
structure Qualifies (c : Config) (s : State) (k : Controller) (env : Env) (account : Address) :
    Prop where
  open_ : c.excluded account = false
  ordinary : s.setup.eligibilityController = true → k.systemVaultMask account = 0
  allowed : s.setup.eligibilityController = true → s.modeGeneration ≠ 0 →
    deliveryAllowed s k env account
      (if s.setup.settlementKind = 1 then s.setup.quote else s.setup.defaultRewardAsset) ∧
    (env.registry.credentials account).assetMask &&& s.setup.requiredAssetMask =
      s.setup.requiredAssetMask ∧ env.registry.bindable account = true

/-- A new point of an account's history, at this time. -/
def Pointed (now : Nat) (account : Address) (s after : State) : Prop :=
  ∃ point : AccountPoint, point.time = now ∧ point.weight = s.eligible account % 2 ^ 128 ∧
    after = { s with
      accountHistory := Function.update s.accountHistory account
        (record AccountPoint.time (s.accountHistory account) point) }

inductive Move (c : Config) (k : Controller) (env : Env) : State → List Tell → State → Prop where
  | frame {s after : State} (same : Same s after) : Move c k env s [] after
  | switch {s : State} (zero : s.modeGeneration = 0) (fresh : ∀ a, s.accountGeneration a = 0) :
      Move c k env s [] { s with totalEligible := 0, modeGeneration := 1 }
  | migrate {s : State} (account : Address) (one : s.modeGeneration = 1)
      (old : s.accountGeneration account = 0) :
      Move c k env s [] { s with
        eligible := Function.update s.eligible account 0
        accountGeneration := Function.update s.accountGeneration account s.modeGeneration
        accountExpiry := Function.update s.accountExpiry account 0 }
  /-- The weight ended with its credential. -/
  | retire {s : State} (account : Address) (tree : Tree) (one : s.modeGeneration = 1)
      (generation : s.accountGeneration account = 1) (expired : s.accountExpiry account ≤ env.now)
      (gains : Gains 32 tree s.expiryWeights (s.accountExpiry account) (s.eligible account))
      (covered : s.eligible account ≤ s.totalEligible) :
      Move c k env s [.unbind account] { s with
        eligible := Function.update s.eligible account 0
        accountGeneration := Function.update s.accountGeneration account s.modeGeneration
        accountExpiry := Function.update s.accountExpiry account 0
        expiryWeights := tree
        totalEligible := s.totalEligible - s.eligible account }
  | qualify {s : State} (account : Address) (expiry : Nat) (idle : s.eligible account = 0)
      (small : expiry < 2 ^ 32) (qualifies : Qualifies c s k env account)
      (set : s.setup.eligibilityController = true) (mode : s.modeGeneration ≠ 0) :
      Move c k env s [.bind account] { s with
        accountExpiry := Function.update s.accountExpiry account expiry }
  | weigh {s after : State} (account : Address) (next : Nat) (tree : Tree)
      (generation : s.accountGeneration account = s.modeGeneration)
      (fair : next = 0 ∨ next = s.token.balanceOf account)
      (earns : next = 0 ∨ s.eligible account ≠ 0 ∨ Qualifies c s k env account)
      (covered : s.eligible account ≤ s.totalEligible + next)
      (grown : s.modeGeneration = 1 → ∃ middle,
        Gains 32 middle s.expiryWeights (s.accountExpiry account) (s.eligible account) ∧
        Gains 32 middle tree (s.accountExpiry account) next)
      (kept : s.modeGeneration ≠ 1 → tree = s.expiryWeights)
      (pointed : Pointed env.now account { s with
        eligible := Function.update s.eligible account next
        totalEligible := s.totalEligible + next - s.eligible account
        expiryWeights := tree
        participants := if s.accountHistory account = [] then s.participants ++ [(account, env.now)]
          else s.participants } after) :
      Move c k env s (setWeightTells s account next) after
  /-- The registry withdrew the credential. -/
  | withdraw {s : State} (account : Address) (tree : Tree)
      (generation : s.accountGeneration account = s.modeGeneration)
      (gains : Gains 32 tree s.expiryWeights (s.accountExpiry account) (s.eligible account))
      (covered : s.eligible account ≤ s.totalEligible) :
      Move c k env s [.unbind account] { s with
        eligible := Function.update s.eligible account 0
        expiryWeights := tree
        totalEligible := s.totalEligible - s.eligible account }
  | point {s after : State} (account : Address) (seen : s.accountHistory account ≠ [])
      (pointed : Pointed env.now account s after) : Move c k env s [] after

/-- A chain of moves and what it told the registry. -/
inductive Moves (c : Config) (k : Controller) (env : Env) : State → List Tell → State → Prop where
  | refl (s : State) : Moves c k env s [] s
  | tail {s mid after : State} {early late : List Tell} (first : Moves c k env s early mid)
      (move : Move c k env mid late after) : Moves c k env s (early ++ late) after

variable {c : Config} {k : Controller} {env : Env} {early late told : List Tell}
  {amount next sender receiver : Nat} {account : Address}

theorem Moves.one (move : Move c k env s told after) : Moves c k env s told after := by
  have none : Moves c k env s [] s := .refl s
  have chain := none.tail move
  rwa [List.nil_append] at chain

theorem Moves.trans (first : Moves c k env s early mid) (second : Moves c k env mid late after) :
    Moves c k env s (early ++ late) after := by
  induction second with
  | refl => rwa [List.append_nil]
  | tail _ move ih =>
    rw [← List.append_assoc]
    exact ih.tail move

theorem Moves.frame (same : Same s after) : Moves c k env s [] after := .one (.frame same)

/-- A part of the call before or after that tells the registry nothing. -/
theorem Moves.then (first : Moves c k env s told mid) (second : Moves c k env mid [] after) :
    Moves c k env s told after := by
  have chain := first.trans second
  rwa [List.append_nil] at chain

/-! Index and carry. -/

theorem Settles.same (settles : Settles s after) : Same s after := by
  obtain ⟨rest, _⟩ := settles
  constructor <;> rw [rest]

theorem Prepares.same (prepares : Prepares s mid) : Same s mid := by
  rw [Prepares] at prepares
  constructor <;> rw [prepares]

theorem credit_participants (denominator amount : Nat) (fromCarry : Bool) :
    (credit s cut now denominator amount fromCarry).participants = s.participants := by
  unfold credit
  rfl

theorem distribute_same {fromCarry : Bool} (kept : Kept s)
    (done : distribute s cut now amount fromCarry = .ok after) : Same s after := by
  obtain ⟨mid, prepares, _, _, _, rfl⟩ := distribute_ok kept done
  obtain ⟨token, eligible, generation, expiry, mode, total, tree, participants, history⟩ :=
    prepares.same
  constructor
  · rw [credit_token, token]
  · rw [credit_eligible, eligible]
  · rw [credit_generation, generation]
  · rw [credit_expiry, expiry]
  · rw [credit_mode, mode]
  · rw [credit_totalEligible, total]
  · rw [credit_tree, tree]
  · rw [credit_participants, participants]
  · rw [credit_history, history]

/-- Mode A begins with every account's weight in the generation before. -/
theorem syncMode_moves (weighed : Weighed s cut) (done : syncMode s cut now = .ok after) :
    Moves c k env s [] after := by
  simp only [syncMode, ite_ok, bind_ok, pure_ok] at done
  rcases done with ⟨⟨_, zero⟩, ⟨carry, _⟩, _, rfl⟩ | ⟨_, rfl⟩
  · have fresh : ∀ a, s.accountGeneration a = 0 := by
      intro a
      have := weighed.generation a
      omega
    apply (Moves.one (.switch zero fresh)).then
    apply Moves.frame
    exact ⟨rfl, rfl, rfl, rfl, rfl, rfl, rfl, rfl, rfl⟩
  · exact .refl s

theorem releaseCarry_moves (sound : Sound s cut now) (done : releaseCarry s cut now = .ok after) :
    Moves c k env s [] after := by
  simp only [releaseCarry, bind_ok, ite_ok, pure_ok] at done
  obtain ⟨mid, synced, ⟨carry, amount⟩, checked, done⟩ := done
  obtain ⟨first, _⟩ := syncMode_through sound synced
  apply (syncMode_moves sound.weighed synced).then
  obtain ⟨covered, _⟩ := checkpoint_ok checked first.sound.kept.covered
  have moved : Sound { mid with carry := carry } cut now := first.sound.books rfl covered
  have same : Same mid { mid with carry := carry } := ⟨rfl, rfl, rfl, rfl, rfl, rfl, rfl, rfl, rfl⟩
  rcases done with ⟨_, done⟩ | ⟨_, rfl⟩
  · exact (Moves.frame same).then (.frame (distribute_same moved.kept done))
  · exact .frame same

theorem onFeeCredit_moves {pool kind : Nat} {quote : Address} (sound : Sound s cut env.now)
    (done : onFeeCredit c s cut env pool quote kind amount = .ok after) : Moves c k env s [] after := by
  simp only [onFeeCredit, bind_ok, require_ok] at done
  obtain ⟨_, _, _, _, mid, synced, done⟩ := done
  obtain ⟨first, _⟩ := syncMode_through sound synced
  apply (syncMode_moves sound.weighed synced).then
  simp only [ite_ok, bind_ok, pure_ok] at done
  rcases done with ⟨_, _, rfl, rfl⟩ | ⟨_, released, done, last, paid, rfl⟩
  · apply Moves.frame
    exact ⟨rfl, rfl, rfl, rfl, rfl, rfl, rfl, rfl, rfl⟩
  · have second := releaseCarry_through first.sound done
    apply (releaseCarry_moves first.sound done).then
    apply (Moves.frame (distribute_same second.sound.kept paid)).then
    apply Moves.frame
    exact ⟨rfl, rfl, rfl, rfl, rfl, rfl, rfl, rfl, rfl⟩

/-! Weights. -/

theorem save_pointed (saved : save s cut now account = .ok after) : Pointed now account s after := by
  simp only [save, bind_ok, pure_ok] at saved
  obtain ⟨_, _, rfl⟩ := saved
  exact ⟨_, rfl, rfl, rfl⟩

theorem retire_gains (weighed : Weighed s cut) (done : retire s account amount = .ok after) :
    Gains 32 after.expiryWeights s.expiryWeights (s.accountExpiry account) amount ∧
      amount ≤ s.totalEligible ∧ after = { s with
        expiryWeights := after.expiryWeights, totalEligible := s.totalEligible - amount } := by
  simp only [retire, bind_ok, sub_ok, pure_ok] at done
  obtain ⟨tree, subbed, _, ⟨covered, rfl⟩, rfl⟩ := done
  exact ⟨sub_gains 32 (weighed.small account) subbed, covered, rfl⟩

/-- Saving, or leaving alone an account that has no history. -/
theorem resave_moves (done : s.accountHistory account ≠ [] ∧
    save s cut env.now account = .ok after ∨ s.accountHistory account = [] ∧ s = after) :
    Moves c k env s [] after := by
  rcases done with ⟨seen, saved⟩ | ⟨_, rfl⟩
  · exact .one (.point account seen (save_pointed saved))
  · exact .refl s

theorem syncAccount_moves (weighed : Weighed s cut) (done : syncAccount s cut env.now account = .ok after) :
    Moves c k env s (syncAccountTells s env.now account) after := by
  simp only [syncAccount, ite_ok, pure_ok, bind_ok, not_not] at done
  rcases done with ⟨due, ⟨⟨same, held⟩, mid, retired, done⟩ | ⟨stays, mid, rfl, done⟩⟩ | ⟨idle, rfl⟩
  · obtain ⟨gains, covered, rest⟩ := retire_gains weighed retired
    have one : s.modeGeneration = 1 ∧ s.accountExpiry account ≤ env.now := by
      rcases due with other | ⟨one, _, expired⟩
      · exact absurd same other
      · exact ⟨one, expired⟩
    rw [syncAccountTells, if_pos ⟨same, one.1, held, one.2⟩]
    generalize mid.expiryWeights = tree at rest gains
    subst rest
    exact (Moves.one (.retire account tree one.1 (same.trans one.1) one.2 gains covered)).then
      (resave_moves done)
  · have old : s.accountGeneration account ≠ s.modeGeneration := by
      intro same
      rcases due with other | ⟨_, held, _⟩
      · exact other same
      · exact stays ⟨same, held⟩
    have low := weighed.generation account
    have one : s.modeGeneration = 1 := by
      rcases weighed.mode with zero | ⟨one, _⟩ <;> omega
    rw [syncAccountTells, if_neg (fun both => old both.1)]
    have zero : s.accountGeneration account = 0 := by omega
    exact (Moves.one (.migrate account one zero)).then (resave_moves done)
  · rw [syncAccountTells, if_neg (fun both => idle (.inr both.2))]
    exact .refl s

theorem qualify_moves {earns : Bool} (idle : s.eligible account = 0)
    (done : qualify c s k env account = (earns, after)) :
    Moves c k env s (qualifyTells c s k env account) after ∧
      (earns = true → Qualifies c s k env account) := by
  have asked := done
  simp only [qualify, ite_eq_iff, Prod.mk.injEq, Bool.not_eq_true] at done
  rw [qualifyTells, asked]
  rcases done with ⟨_, rfl, rfl⟩ | ⟨included, ⟨unset, rfl, rfl⟩ | ⟨set, ⟨_, rfl, rfl⟩ | ⟨unmasked, ⟨zero, rfl, rfl⟩ |
    ⟨mode, ⟨_, rfl, rfl⟩ | ⟨allowed, ⟨_, rfl, rfl⟩ | ⟨bindable, rfl, rfl⟩⟩⟩⟩⟩⟩
  · rw [if_neg (by simp)]
    exact ⟨.refl s, fun no => by cases no⟩
  · rw [if_neg (by simp [unset])]
    refine ⟨.refl s, fun _ => ⟨included, fun on => ?_, fun on => ?_⟩⟩
    · rw [unset] at on
      cases on
    · rw [unset] at on
      cases on
  · rw [if_neg (by simp)]
    exact ⟨.refl s, fun no => by cases no⟩
  · rw [if_neg (by simp [zero])]
    exact ⟨.refl s, fun _ => ⟨included, fun _ => not_not.mp unmasked, fun _ nonzero => absurd zero nonzero⟩⟩
  · rw [if_neg (by simp)]
    exact ⟨.refl s, fun no => by cases no⟩
  · rw [if_neg (by simp)]
    exact ⟨.refl s, fun no => by cases no⟩
  · have on : s.setup.eligibilityController = true := by simpa using set
    rw [not_or, not_not, not_not] at allowed
    have qualifies : Qualifies c s k env account :=
      ⟨included, fun _ => not_not.mp unmasked, fun _ _ => ⟨allowed.1, allowed.2, by simpa using bindable⟩⟩
    rw [if_pos ⟨on, mode, rfl⟩]
    exact ⟨.one (.qualify account _ idle (env.registry.credentials account).validUntil.toNat_lt
      qualifies on mode), fun _ => qualifies⟩

theorem reweighTree_gains {previous : Nat} {tree : Tree} (weighed : Weighed s cut)
    (done : reweighTree s account previous next = .ok tree) :
    ∃ middle, Gains 32 middle s.expiryWeights (s.accountExpiry account) previous ∧
      Gains 32 middle tree (s.accountExpiry account) next := by
  have small := weighed.small account
  have none : ∀ tree : Tree, Gains 32 tree tree (s.accountExpiry account) 0 := by
    intro tree depth _ _ m _
    rw [ite_self, Nat.add_zero]
  have grown : ∀ middle : Tree, Gains 32 middle
      (if next ≠ 0 then DyadicTree.add 32 middle (s.accountExpiry account) next else middle)
      (s.accountExpiry account) next := by
    intro middle
    by_cases zero : next = 0
    · rw [if_neg (not_not.mpr zero), zero]
      exact none middle
    · rw [if_pos zero]
      exact add_gains 32 small middle next
  simp only [reweighTree, bind_ok, ite_ok, pure_ok] at done
  rcases done with ⟨_, middle, subbed, rfl⟩ | ⟨zero, middle, rfl, rfl⟩
  · exact ⟨middle, sub_gains 32 small subbed, grown middle⟩
  · rw [not_not.mp zero]
    exact ⟨_, none _, grown _⟩

theorem Qualifies.frozen (qualifies : Qualifies c s k env account) : Qualifies c s.freezeRemainders k env account :=
  ⟨qualifies.open_, qualifies.ordinary, qualifies.allowed⟩

theorem setWeight_moves (weighed : Weighed s cut) (generation : s.accountGeneration account = s.modeGeneration)
    (fair : next = 0 ∨ next = s.token.balanceOf account)
    (earns : next = 0 ∨ s.eligible account ≠ 0 ∨ Qualifies c s k env account)
    (done : setWeight s cut env.now account next = .ok after) :
    Moves c k env s (setWeightTells s account next) after := by
  have weigh : ∀ tree, s.eligible account ≤ s.totalEligible + next →
      (s.modeGeneration = 1 → reweighTree s account (s.eligible account) next = .ok tree) →
      (s.modeGeneration ≠ 1 → tree = s.expiryWeights) → ∀ last,
      save { s.freezeRemainders with
        eligible := Function.update s.eligible account next
        totalEligible := s.totalEligible + next - s.eligible account
        expiryWeights := tree
        participants := if s.accountHistory account = [] then s.participants ++ [(account, env.now)]
          else s.participants } cut env.now account = .ok last →
      Moves c k env s (setWeightTells s account next) last := by
    intro tree covered grown kept last saved
    have same : Same s s.freezeRemainders := ⟨rfl, rfl, rfl, rfl, rfl, rfl, rfl, rfl, rfl⟩
    have frozen : Weighed s.freezeRemainders cut := weighed.same rfl rfl rfl rfl rfl rfl rfl
    have move : Move c k env s.freezeRemainders (setWeightTells s account next) last :=
      .weigh account next tree generation fair (earns.imp_right (Or.imp_right Qualifies.frozen))
        covered (fun one => reweighTree_gains frozen (grown one)) kept (save_pointed saved)
    exact (Moves.frame same).trans (.one move)
  simp only [setWeight, bind_ok, sub_ok, ite_ok, pure_ok] at done
  obtain ⟨_, ⟨covered, rfl⟩, ⟨one, tree, grown, saved⟩ | ⟨other, tree, rfl, saved⟩⟩ := done
  · exact weigh tree covered (fun _ => grown) (fun ne => absurd one ne) _ saved
  · exact weigh _ covered (fun one => absurd one other) (fun _ => rfl) _ saved

theorem Move.token (move : Move c k env s told after) : after.token = s.token := by
  cases move with
  | frame same => exact same.token
  | point _ _ pointed =>
    obtain ⟨_, _, _, rfl⟩ := pointed
    rfl
  | weigh _ _ _ _ _ _ _ _ _ pointed =>
    obtain ⟨_, _, _, rfl⟩ := pointed
    rfl
  | _ => rfl

theorem Moves.token (moves : Moves c k env s told after) : after.token = s.token := by
  induction moves with
  | refl => rfl
  | tail _ move ih => rw [move.token, ih]

theorem setWeight_eligible (done : setWeight s cut now account next = .ok after) : after.eligible account = next := by
  simp only [setWeight, bind_ok, sub_ok, ite_ok, pure_ok] at done
  obtain ⟨_, _, ⟨_, _, _, saved⟩ | ⟨_, _, _, saved⟩⟩ := done
  all_goals
    obtain ⟨_, _, _, rfl⟩ := save_pointed saved
    simp

/-- The last part of a reweighing, once it is known what the account may have. -/
theorem settle_moves (weighed : Weighed s cut) (generation : s.accountGeneration account = s.modeGeneration)
    (fair : next = 0 ∨ next = s.token.balanceOf account)
    (earns : next = 0 ∨ s.eligible account ≠ 0 ∨ Qualifies c s k env account)
    (done : (if next = s.eligible account then pure s else setWeight s cut env.now account next) = .ok after) :
    Moves c k env s (if next = s.eligible account then [] else setWeightTells s account next) after ∧
      after.eligible account = next := by
  simp only [ite_ok, pure_ok] at done
  rcases done with ⟨same, rfl⟩ | ⟨differs, done⟩
  · rw [if_pos same]
    exact ⟨.refl s, same.symm⟩
  · rw [if_neg differs]
    exact ⟨setWeight_moves weighed generation fair earns done, setWeight_eligible done⟩

theorem reweigh_moves (sound : Sound s cut env.now) (linked : cut = s.cutoff k env.now)
    (done : reweigh c s k cut env account (s.token.balanceOf account) = .ok after) :
    ∃ told, reweighTells c s k cut env account (s.token.balanceOf account) = .ok told ∧
      Moves c k env s told after ∧
      (after.eligible account = 0 ∨ after.eligible account = s.token.balanceOf account) := by
  simp only [reweigh, bind_ok] at done
  obtain ⟨mid, synced, done⟩ := done
  obtain ⟨first, generation⟩ := syncAccount_through sound synced
  have moves : Moves c k env s _ mid := syncAccount_moves sound.weighed synced
  have token := moves.token
  have linked' := first.linked linked
  simp only [reweighTells, bind_ok, synced, pure_ok, Except.ok.injEq, exists_eq_left']
  generalize held : s.token.balanceOf account = balance at done ⊢
  rw [← token] at held
  by_cases empty : balance = 0
  · simp only [if_pos empty, Bool.false_eq_true, if_false] at done ⊢
    obtain ⟨last, own⟩ := settle_moves first.sound.weighed generation (.inl rfl) (.inl rfl) done
    rw [if_neg (fun asks => asks.1 empty), List.append_nil]
    exact ⟨moves.trans last, .inl own⟩
  · by_cases earning : mid.eligible account ≠ 0
    · simp only [if_neg empty, if_pos earning, if_true] at done ⊢
      obtain ⟨last, own⟩ := settle_moves first.sound.weighed generation (.inr held.symm)
        (.inr (.inl earning)) done
      rw [if_neg (fun asks => earning asks.2), List.append_nil]
      exact ⟨moves.trans last, .inr own⟩
    · have idle := not_not.mp earning
      simp only [if_neg empty, if_neg earning] at done ⊢
      rw [if_pos ⟨empty, idle⟩]
      cases asked : qualify c mid k env account with
      | mk earns asked_ =>
        rw [asked] at done
        obtain ⟨second, qualifies⟩ := qualify_moves idle asked
        have through := qualify_through first.sound linked' idle asked
        obtain ⟨same, _⟩ := qualify_expiry first.sound.weighed linked' asked
        have kept : asked_.accountGeneration = mid.accountGeneration ∧
            asked_.modeGeneration = mid.modeGeneration ∧ asked_.eligible = mid.eligible ∧
            asked_.setup = mid.setup := by
          rcases same with rfl | ⟨_, _, rfl⟩
          · exact ⟨rfl, rfl, rfl, rfl⟩
          · exact ⟨rfl, rfl, rfl, rfl⟩
        have still : (if earns = true then balance else 0) = 0 ∨
            Qualifies c asked_ k env account := by
          by_cases earn : earns = true
          · right
            obtain ⟨open_, ordinary, allowed⟩ := qualifies earn
            refine ⟨open_, ?_, ?_⟩
            · rwa [kept.2.2.2]
            · rw [kept.2.2.2, kept.2.1]
              intro set mode
              have known := allowed set mode
              simp only [deliveryAllowed, kept.2.2.2] at known ⊢
              exact known
          · exact .inl (if_neg earn)
        simp only at done ⊢
        rw [← kept.2.2.1] at done
        obtain ⟨last, own⟩ := settle_moves through.sound.weighed
          (by rw [kept.1, kept.2.1, generation]) (by
            rw [second.token, held]
            by_cases earn : earns = true
            · exact .inr (if_pos earn)
            · exact .inl (if_neg earn)) (still.imp_right .inr) done
        rw [← kept.2.2.1]
        refine ⟨(moves.trans second).trans last, ?_⟩
        rw [own]
        by_cases earn : earns = true
        · exact .inr (if_pos earn)
        · exact .inl (if_neg earn)

/-! No account's weight moves but the one the call is about. -/

theorem save_eligible (saved : save s cut now account = .ok after) : after.eligible = s.eligible := by
  obtain ⟨_, _, _, rfl⟩ := save_pointed saved
  rfl

theorem syncAccount_others {other : Address} (ne : other ≠ account)
    (done : syncAccount s cut now account = .ok after) : after.eligible other = s.eligible other := by
  simp only [syncAccount, retire, ite_ok, pure_ok, bind_ok] at done
  rcases done with ⟨_, ⟨_, _, ⟨_, _, _, _, rfl⟩, ⟨_, saved⟩ | ⟨_, rfl⟩⟩ |
    ⟨_, _, rfl, ⟨_, saved⟩ | ⟨_, rfl⟩⟩⟩ | ⟨_, rfl⟩
  · rw [save_eligible saved]
    exact Function.update_of_ne ne _ _
  · exact Function.update_of_ne ne _ _
  · rw [save_eligible saved]
    exact Function.update_of_ne ne _ _
  · exact Function.update_of_ne ne _ _
  · rfl

theorem qualify_weights {earns : Bool} (done : qualify c s k env account = (earns, after)) :
    after.eligible = s.eligible := by
  simp only [qualify, ite_eq_iff, Prod.mk.injEq] at done
  rcases done with ⟨_, _, rfl⟩ | ⟨_, ⟨_, _, rfl⟩ | ⟨_, ⟨_, _, rfl⟩ | ⟨_, ⟨_, _, rfl⟩ |
    ⟨_, ⟨_, _, rfl⟩ | ⟨_, ⟨_, _, rfl⟩ | ⟨_, _, rfl⟩⟩⟩⟩⟩⟩ <;> rfl

theorem setWeight_others {other : Address} (ne : other ≠ account)
    (done : setWeight s cut now account next = .ok after) : after.eligible other = s.eligible other := by
  simp only [setWeight, bind_ok, sub_ok, ite_ok, pure_ok] at done
  obtain ⟨_, _, ⟨_, _, _, saved⟩ | ⟨_, _, _, saved⟩⟩ := done
  all_goals
    rw [save_eligible saved]
    exact Function.update_of_ne ne _ _

theorem reweigh_others {account other balance : Nat} (ne : other ≠ account)
    (done : reweigh c s k cut env account balance = .ok after) : after.eligible other = s.eligible other := by
  simp only [reweigh, bind_ok] at done
  obtain ⟨mid, synced, done⟩ := done
  rw [← syncAccount_others ne synced]
  generalize asked : (if balance = 0 then (false, mid) else if mid.eligible account ≠ 0 then
    (true, mid) else qualify c mid k env account) = answer at done
  obtain ⟨earns, last⟩ := answer
  have same : last.eligible = mid.eligible := by
    simp only [ite_eq_iff, Prod.mk.injEq] at asked
    rcases asked with ⟨_, _, rfl⟩ | ⟨_, ⟨_, _, rfl⟩ | ⟨_, asked⟩⟩
    · rfl
    · rfl
    · exact qualify_weights asked
  simp only [ite_ok, pure_ok] at done
  rw [← same]
  rcases done with ⟨_, rfl⟩ | ⟨_, set⟩
  · rfl
  · exact setWeight_others ne set

/-! Calls. -/

/-- A transfer to oneself or of nothing moves no balance. -/
theorem moveBalance_idle (idle : sender = receiver ∨ amount = 0)
    (done : moveBalance s sender receiver amount = .ok after) : after = s := by
  have same : ∀ token, s.token.transfer sender receiver amount = .ok token → token = s.token := by
    intro token moved
    have supply := Chain.transfer_supply _ _ _ _ _ moved
    simp only [Token.transfer, ite_eq_iff] at moved
    rcases moved with ⟨_, no⟩ | ⟨_, ⟨_, no⟩ | ⟨_, moved⟩⟩
    · cases no
    · cases no
    · split at moved
      · next covered =>
        cases moved
        have balances : (Token.credit (Token.debit s.token sender amount covered) receiver
            amount).balanceOf = s.token.balanceOf := by
          funext a
          simp only [Token.credit, Token.debit]
          rcases idle with rfl | rfl
          · by_cases own : a = sender
            · subst own
              simp only [Function.update_self]
              omega
            · rw [Function.update_of_ne own, Function.update_of_ne own]
          · simp only [Nat.sub_zero, Nat.add_zero, Function.update_eq_self]
        exact Token.same balances supply
      · cases moved
  unfold moveBalance at done
  split at done
  · next token moved =>
    cases done
    rw [same token moved]
  · cases done

theorem moveBalance_others (done : moveBalance s sender receiver amount = .ok after) :
    after = { s with token := after.token } ∧
      ∀ a, a ≠ sender → a ≠ receiver → after.token.balanceOf a = s.token.balanceOf a := by
  unfold moveBalance at done
  split at done
  · next token moved =>
    cases done
    refine ⟨rfl, ?_⟩
    intro a first second
    simp only [Token.transfer, ite_eq_iff] at moved
    rcases moved with ⟨_, no⟩ | ⟨_, ⟨_, no⟩ | ⟨_, moved⟩⟩
    · cases no
    · cases no
    · split at moved
      · cases moved
        simp only [Token.credit, Token.debit]
        rw [Function.update_of_ne second, Function.update_of_ne first]
      · cases moved
  · cases done

/-- A call is a chain of moves; a transfer moves two balances within it, and the weights of both
accounts follow unless they never earn. -/
inductive Passes (c : Config) (k : Controller) (env : Env) (s : State) : List Tell → State → Prop where
  | moves {told : List Tell} {after : State} (moves : Moves c k env s told after) :
      Passes c k env s told after
  | transfers {told : List Tell} {released moved after : State} (sender receiver : Address)
      (first : Moves c k env s [] released) (token : moved = { released with token := moved.token })
      (others : ∀ a, a ≠ sender → a ≠ receiver →
        moved.token.balanceOf a = released.token.balanceOf a)
      (second : Moves c k env moved told after)
      (settled : ∀ a, a = sender ∨ a = receiver → c.excluded a = true ∨ after.eligible a = 0 ∨
        after.eligible a = moved.token.balanceOf a) : Passes c k env s told after

/-- One side of a transfer. -/
theorem side_moves (sound : Sound s cut env.now) (linked : cut = s.cutoff k env.now)
    (done : c.excluded account = false ∧
        reweigh c s k cut env account (s.token.balanceOf account) = .ok after ∨
      ¬ c.excluded account = false ∧ s = after) :
    ∃ told, (if c.excluded account = false then
        reweighTells c s k cut env account (s.token.balanceOf account) else .ok []) = .ok told ∧
      Moves c k env s told after ∧ Through cut env.now s after ∧
      (∀ other, other ≠ account → after.eligible other = s.eligible other) ∧
      (c.excluded account = true ∨ after.eligible account = 0 ∨
        after.eligible account = s.token.balanceOf account) := by
  rcases done with ⟨open_, weighed⟩ | ⟨closed, rfl⟩
  · obtain ⟨told, asked, moves, settled⟩ := reweigh_moves sound linked weighed
    rw [if_pos open_]
    exact ⟨told, asked, moves, reweigh_through sound linked (sound.balance_le account) weighed,
      fun other ne => reweigh_others ne weighed, .inr settled⟩
  · rw [if_neg closed]
    refine ⟨[], rfl, .refl s, .refl sound, fun _ _ => rfl, .inl ?_⟩
    simpa using closed

theorem update_passes (sound : Sound s cut env.now) (linked : cut = s.cutoff k env.now)
    (done : update c s k cut env sender receiver amount = .ok after) :
    ∃ told, updateTells c s k cut env sender receiver amount = .ok told ∧
      Passes c k env s told after := by
  by_cases idle : sender = receiver ∨ amount = 0
  · rw [update, if_pos idle] at done
    rw [updateTells, if_pos idle]
    rw [moveBalance_idle idle done]
    exact ⟨[], rfl, .moves (.refl s)⟩
  · simp only [update, if_neg idle, bind_ok, ite_ok, pure_ok] at done
    obtain ⟨released, release, moved, move, done⟩ := done
    have first := releaseCarry_through sound release
    have second := first.trans (moveBalance_through first.sound move)
    have sides : ∃ paid, (c.excluded sender = false ∧
          reweigh c moved k cut env sender (moved.token.balanceOf sender) = .ok paid ∨
        ¬ c.excluded sender = false ∧ moved = paid) ∧ (c.excluded receiver = false ∧
          reweigh c paid k cut env receiver (paid.token.balanceOf receiver) = .ok after ∨
        ¬ c.excluded receiver = false ∧ paid = after) := by
      rcases done with ⟨open_, paid, weighed, done⟩ | ⟨closed, paid, rfl, done⟩
      · exact ⟨paid, .inl ⟨open_, weighed⟩, done⟩
      · exact ⟨_, .inr ⟨closed, rfl⟩, done⟩
    obtain ⟨paid, paying, done⟩ := sides
    obtain ⟨told, asked, early, third, untouched, own⟩ :=
      side_moves second.sound (second.linked linked) paying
    have whole := second.trans third
    obtain ⟨told', asked', later, _, untouched', own'⟩ :=
      side_moves whole.sound (whole.linked linked) done
    obtain ⟨same, others⟩ := moveBalance_others move
    have token := early.token
    have apart : sender ≠ receiver := fun eq => idle (.inl eq)
    have tail : (if c.excluded receiver = false then do
        let told' ← reweighTells c paid k cut env receiver (paid.token.balanceOf receiver)
        pure (told ++ told')
      else pure told : Tx (List Tell)) = .ok (told ++ told') := by
      by_cases open_ : c.excluded receiver = false
      · rw [if_pos open_] at asked' ⊢
        simp only [asked', bind_ok, pure_ok, Except.ok.injEq, exists_eq_left']
      · rw [if_neg open_] at asked' ⊢
        cases asked'
        rw [List.append_nil]
        rfl
    refine ⟨told ++ told', ?_, .transfers sender receiver (releaseCarry_moves sound release) same
      others (early.trans later) ?_⟩
    · rw [updateTells, if_neg idle]
      rcases paying with ⟨open_, weighed⟩ | ⟨closed, rfl⟩
      · rw [if_pos open_] at asked
        simp only [bind_ok, release, move, if_pos open_, asked, weighed, pure_ok, Except.ok.injEq,
          exists_eq_left']
        exact tail
      · rw [if_neg closed] at asked
        cases asked
        simp only [bind_ok, release, move, if_neg closed, pure_ok, Except.ok.injEq, exists_eq_left']
        exact tail
    · rintro a (rfl | rfl)
      · rw [untouched' _ apart]
        exact own
      · rw [token] at own'
        exact own'

theorem onEligibilityChange_moves (sound : Sound s cut env.now)
    (done : onEligibilityChange s k cut env account = .ok after) :
    ∃ told, onEligibilityChangeTells s cut env account = .ok told ∧ Moves c k env s told after := by
  simp only [onEligibilityChange, bind_ok, ite_ok, require_ok, pure_ok] at done
  obtain ⟨_, _, released, release, synced, sync, done⟩ := done
  have first := releaseCarry_through sound release
  obtain ⟨second, generation⟩ := syncAccount_through first.sound sync
  have start : Moves c k env s [] released := releaseCarry_moves sound release
  have chain : Moves c k env s _ synced := start.trans (syncAccount_moves first.sound.weighed sync)
  simp only [onEligibilityChangeTells, bind_ok, release, pure_ok, Except.ok.injEq, exists_eq_left']
  apply chain.trans
  rcases done with ⟨held, mid, retired, saved⟩ | ⟨idle, rfl⟩
  · have frozen : Weighed synced.freezeRemainders cut :=
      second.sound.weighed.same rfl rfl rfl rfl rfl rfl rfl
    obtain ⟨gains, covered, rest⟩ := retire_gains frozen retired
    have same : Same synced synced.freezeRemainders :=
      ⟨rfl, rfl, rfl, rfl, rfl, rfl, rfl, rfl, rfl⟩
    have seen : synced.accountHistory account ≠ [] :=
      fun empty => held ((second.sound.current account).unseen empty)
    generalize mid.expiryWeights = tree at rest gains
    subst rest
    have last : Moves c k env synced [.unbind account] _ :=
      (Moves.frame same).trans (.one (.withdraw account tree generation gains covered))
    apply last.then
    exact .one (.point account seen (save_pointed saved))
  · have none := not_not.mp idle
    have still : Gains 32 synced.expiryWeights synced.expiryWeights (synced.accountExpiry account)
        (synced.eligible account) := by
      intro depth _ _ m _
      rw [none, ite_self, Nat.add_zero]
    have move : Move c k env synced [.unbind account] _ := .withdraw account synced.expiryWeights
      generation still (by rw [none]; exact Nat.zero_le _)
    apply (Moves.one move).then
    apply Moves.frame
    refine ⟨rfl, ?_, rfl, rfl, rfl, ?_, rfl, rfl, rfl⟩
    · rw [← none, Function.update_eq_self]
    · rw [none, Nat.sub_zero]

theorem syncEligibility_moves (sound : Sound s cut env.now) (linked : cut = s.cutoff k env.now)
    (done : syncEligibility c s k cut env account = .ok after) :
    ∃ told, syncEligibilityTells c s k cut env account = .ok told ∧ Moves c k env s told after := by
  simp only [syncEligibility, bind_ok] at done
  obtain ⟨released, release, weighed⟩ := done
  have first := releaseCarry_through sound release
  obtain ⟨told, asked, moves, _⟩ := reweigh_moves first.sound (first.linked linked) weighed
  refine ⟨told, ?_, (releaseCarry_moves sound release).trans moves⟩
  simp only [syncEligibilityTells, bind_ok, release, Except.ok.injEq, exists_eq_left']
  exact asked

/-- Every call is such a chain, and tells the registry what `tells` says. -/
theorem step_passes {call : Call} (sound : Sound s (s.cutoff k env.now) env.now)
    (done : step c s k env call = .ok after) :
    ∃ told, tells c s k env call = .ok told ∧ Passes c k env s told after := by
  have plain : ∀ {told}, tells c s k env call = .ok told → Moves c k env s told after →
      ∃ told, tells c s k env call = .ok told ∧ Passes c k env s told after :=
    fun asked moves => ⟨_, asked, .moves moves⟩
  cases call with
  | transfer sender receiver amount => exact update_passes sound rfl done
  | syncEligibility account =>
    obtain ⟨told, asked, moves⟩ := syncEligibility_moves sound rfl done
    exact ⟨told, asked, .moves moves⟩
  | onEligibilityChange account =>
    obtain ⟨told, asked, moves⟩ := onEligibilityChange_moves sound done
    exact ⟨told, asked, .moves moves⟩
  | onFeeCredit pool quote kind amount => exact plain rfl (onFeeCredit_moves sound done)
  | releaseCarry => exact plain rfl (releaseCarry_moves sound done)
  | configureEligibility =>
    apply plain rfl
    simp only [step, configureEligibility, bind_ok, require_ok, pure_ok] at done
    obtain ⟨_, _, _, _, _, _, rfl⟩ := done
    exact .frame ⟨rfl, rfl, rfl, rfl, rfl, rfl, rfl, rfl, rfl⟩
  | stageCredit account epochs asset =>
    apply plain rfl
    simp only [step, stageCredit, bind_ok, require_ok, ite_ok, pure_ok] at done
    obtain ⟨_, _, _, _, _, _, released, release, _, _, done⟩ := done
    apply (releaseCarry_moves sound release).then
    rcases done with ⟨_, _, _, rfl⟩ | ⟨_, rfl⟩
    · exact .frame ⟨rfl, rfl, rfl, rfl, rfl, rfl, rfl, rfl, rfl⟩
    · exact .frame ⟨rfl, rfl, rfl, rfl, rfl, rfl, rfl, rfl, rfl⟩
  | claim epochs assets =>
    apply plain rfl
    simp only [step, claim, bind_ok, require_ok, ite_ok, pure_ok] at done
    obtain ⟨_, _, released, release, _, _, done⟩ := done
    apply (releaseCarry_moves sound release).then
    rcases done with ⟨_, rfl⟩ | ⟨_, claimed⟩
    · exact .refl _
    · exact .frame (claimAssets_settles assets released claimed).same
  | configureAssetSchedule | configureRounds | declareEpochRewardPolicy | configurePayout | configurePool
  | setDefaultRewardAsset | declareEpochAsset | checkpointExpiry | deliver | sealReward =>
    exact plain rfl (.frame (settings_settle _ done trivial).same)

end Solonpad.RewardToken
