import Solonpad.SolonStaking

/-!
The staking contract is solvent. In units of a reward's 18 decimals, what all accounts have accrued,
what still streams and what is idle is never more than the reserve: a checkpoint only moves what
streamed to the accounts, rounding down, and what an account settles is rounded down again.
-/

namespace Solonpad.SolonStaking

open Checked RunningTotal Transition
open Chain (Address)

/-- What an account has accrued, before its settlement rounds it. -/
def accrued (s : State) (account : Address) : Nat :=
  s.stakedOf account * (s.rewardPerTokenStored - s.userRewardPerTokenPaid account) + unit * s.rewards account

/-- What is not accrued yet, since the last update. -/
def unaccrued (s : State) : Nat := unflowedRewards s s.lastUpdateTime + s.idleRewards

structure Solvent (s : State) : Prop where
  stakes : Totals s.stakedOf s.totalStaked
  paid : ∀ account, s.userRewardPerTokenPaid account ≤ s.rewardPerTokenStored
  covered : ∃ total, Totals (accrued s) total ∧ total + unit * unaccrued s ≤ unit * s.rewardReserve
  backed : s.totalStaked + s.rewardReserve ≤ s.balance

variable {s after : State} {now : Nat} {account : Address} {env : Env} {amount : Nat}

theorem deployed_solvent (owner stakeCap now balance : Nat) : Solvent (deployed owner stakeCap now balance) where
  stakes := Totals.zero
  paid _ := Nat.le_refl _
  covered := by
    refine ⟨0, Totals.zero.of_eq (fun account => ?_) rfl, ?_⟩
    · simp [accrued, deployed]
    · simp [unaccrued, unflowedRewards, Lane.rest, deployed]
  backed := Nat.zero_le _

/-- A step on no account, which does not add to what is not accrued more than to the reserve. -/
theorem Solvent.kept (solvent : Solvent s) (stakes : after.stakedOf = s.stakedOf)
    (total : after.totalStaked = s.totalStaked) (stored : after.rewardPerTokenStored = s.rewardPerTokenStored)
    (paid : after.userRewardPerTokenPaid = s.userRewardPerTokenPaid) (rewards : after.rewards = s.rewards)
    (moved : unaccrued after + s.rewardReserve ≤ unaccrued s + after.rewardReserve)
    (backed : after.totalStaked + after.rewardReserve ≤ after.balance) : Solvent after := by
  refine ⟨by rw [stakes, total]; exact solvent.stakes, by rw [stored, paid]; exact solvent.paid, ?_, backed⟩
  obtain ⟨sum, sums, covered⟩ := solvent.covered
  refine ⟨sum, sums.of_eq (fun account => ?_) rfl, ?_⟩
  · rw [accrued, accrued, stakes, stored, paid, rewards]
  · have scaled := Nat.mul_le_mul_left unit moved
    simp only [Nat.mul_add] at scaled
    omega

/-- A step on one account, by what it accrued before and after. -/
theorem Solvent.moved (solvent : Solvent s) (account : Address) (stakes : Totals after.stakedOf after.totalStaked)
    (paid : ∀ other, after.userRewardPerTokenPaid other ≤ after.rewardPerTokenStored)
    (others : ∀ other, other ≠ account → accrued after other = accrued s other) (rest : unaccrued after = unaccrued s)
    (moved : accrued after account + unit * s.rewardReserve ≤ accrued s account + unit * after.rewardReserve)
    (backed : after.totalStaked + after.rewardReserve ≤ after.balance) : Solvent after := by
  refine ⟨stakes, paid, ?_, backed⟩
  obtain ⟨sum, sums, covered⟩ := solvent.covered
  obtain ⟨other, changed, difference⟩ := sums.changed account others
  refine ⟨other, changed, ?_⟩
  rw [rest]
  omega

/-! Streams. -/

theorem flow_rest (l : Lane) {last now : Nat} (later : last ≤ now) : l.flow last now + l.rest now = l.rest last := by
  unfold Lane.flow Lane.rest
  rw [← Nat.add_mul]
  congr 1
  omega

theorem pending_unflowed (later : s.lastUpdateTime ≤ now) :
    pendingFlow s now + unflowedRewards s now = unflowedRewards s s.lastUpdateTime := by
  have buyback := flow_rest (s.lanes .buyback) later
  have genesis := flow_rest (s.lanes .genesis) later
  unfold pendingFlow unflowedRewards
  omega

theorem flow_now (l : Lane) (now : Nat) : l.flow now now = 0 := by
  unfold Lane.flow
  rw [Nat.sub_eq_zero_of_le (Nat.min_le_left ..), Nat.zero_mul]

theorem flowed_pending (s : State) (now : Nat) : pendingFlow (flowed s now) now = 0 := by
  simp only [pendingFlow, flowed, flow_now]

theorem flowed_stored (s : State) (now : Nat) :
    (flowed s now).rewardPerTokenStored = rewardPerToken s now := rfl

theorem flowed_perToken (s : State) (now : Nat) :
    rewardPerToken (flowed s now) now = (flowed s now).rewardPerTokenStored := by
  rw [rewardPerToken, flowed_pending]
  simp

theorem flowed_earned (s : State) (now : Nat) (account : Address) :
    earned (flowed s now) now account = earned s now account := by
  rw [earned, flowed_perToken, flowed_stored]
  rfl

/-- What streams goes to the accounts, or is idle. -/
theorem flowed_solvent (later : s.lastUpdateTime ≤ now) (solvent : Solvent s) : Solvent (flowed s now) := by
  have streams := pending_unflowed later
  by_cases none : s.totalStaked = 0
  · refine solvent.kept rfl rfl ?_ rfl rfl ?_ solvent.backed
    · simp [flowed, none]
    · simp only [unaccrued, unflowedRewards, flowed, none, if_pos] at streams ⊢
      omega
  · obtain ⟨sum, sums, covered⟩ := solvent.covered
    generalize increment : pendingFlow s now * unit / s.totalStaked = step
    have stored : (flowed s now).rewardPerTokenStored = s.rewardPerTokenStored + step := by
      simp only [flowed, if_neg none, increment]
    refine ⟨solvent.stakes, ?_, ⟨sum + s.totalStaked * step, ?_, ?_⟩, solvent.backed⟩
    · intro account
      rw [stored]
      exact (solvent.paid account).trans (Nat.le_add_right ..)
    · refine (sums.add (solvent.stakes.scale step)).of_eq (fun account => ?_) rfl
      have paid := solvent.paid account
      rw [accrued, accrued, stored]
      show s.stakedOf account * (s.rewardPerTokenStored + step - s.userRewardPerTokenPaid account) +
        unit * s.rewards account = _
      rw [Nat.sub_add_comm paid, Nat.mul_add]
      omega
    · have floor : s.totalStaked * step ≤ pendingFlow s now * unit := by
        rw [← increment]
        exact Nat.mul_div_le ..
      have rest : unaccrued (flowed s now) = unflowedRewards s now + s.idleRewards := by
        simp only [unaccrued, flowed, if_neg none]
        rfl
      rw [rest]
      show _ ≤ unit * s.rewardReserve
      rw [unaccrued, ← streams] at covered
      simp only [Nat.mul_add] at covered ⊢
      rw [Nat.mul_comm _ unit] at floor
      omega

theorem checkpoint_last (s : State) (now : Nat) (account : Address) :
    (checkpoint s now account).lastUpdateTime = now := by
  unfold checkpoint
  split <;> rfl

theorem checkpoint_paid (s : State) (now : Nat) (some_ : account ≠ 0) :
    (checkpoint s now account).userRewardPerTokenPaid account =
      (checkpoint s now account).rewardPerTokenStored := by
  simp [checkpoint, some_]

theorem checkpoint_rewards (s : State) (now : Nat) (some_ : account ≠ 0) :
    (checkpoint s now account).rewards account = earned s now account := by
  simp [checkpoint, some_, flowed_earned]

theorem checkpoint_solvent (account : Address) (later : s.lastUpdateTime ≤ now) (solvent : Solvent s) :
    Solvent (checkpoint s now account) := by
  have streamed := flowed_solvent later solvent
  unfold checkpoint
  by_cases none : account = 0
  · simpa only [if_pos none] using streamed
  · simp only [if_neg none]
    refine streamed.moved account streamed.stakes ?_ ?_ rfl ?_ streamed.backed
    · intro other
      by_cases same : other = account
      · subst same
        simp
      · simpa only [Function.update_of_ne same] using streamed.paid other
    · intro other apart
      simp only [accrued, Function.update_of_ne apart]
    · have floor := Nat.mul_div_le ((flowed s now).stakedOf account *
        ((flowed s now).rewardPerTokenStored - (flowed s now).userRewardPerTokenPaid account)) unit
      simp only [accrued, Function.update_self, Nat.sub_self, Nat.mul_zero, earned, flowed_perToken,
        Nat.mul_add]
      omega

/-! Payments. -/

theorem entry_covered (solvent : Solvent s) (account : Address) : s.rewards account ≤ s.rewardReserve := by
  obtain ⟨sum, sums, covered⟩ := solvent.covered
  have entry := sums.entry_le account
  have below : unit * s.rewards account ≤ unit * s.rewardReserve := by
    unfold accrued at entry
    omega
  exact Nat.le_of_mul_le_mul_left below (by decide)

/-- What is paid is all that is owed, and the contract has it. -/
theorem pay_full (account : Address) (solvent : Solvent s) (transfers : env.transfers = true) :
    ∃ after, pay s env account = .ok (after, s.rewards account) := by
  have enough := entry_covered solvent account
  have backed := solvent.backed
  have full : (if s.rewards account < s.rewardReserve then s.rewards account else s.rewardReserve) =
      s.rewards account := by
    split <;> omega
  unfold pay
  simp only [full]
  by_cases none : s.rewards account = 0
  · exact ⟨s, by rw [if_pos none, none]; rfl⟩
  · rw [if_neg none, sub, if_pos (by omega)]
    simp only [require, transfers, if_true]
    exact ⟨_, rfl⟩

theorem pay_solvent {paid : Nat} (taken : pay s env account = .ok (after, paid)) (solvent : Solvent s) :
    Solvent after := by
  have enough := entry_covered solvent account
  have backed := solvent.backed
  have full : (if s.rewards account < s.rewardReserve then s.rewards account else s.rewardReserve) =
      s.rewards account := by
    split <;> omega
  simp only [pay, full, ite_ok, bind_ok, require_ok, pure_ok, sub_ok] at taken
  rcases taken with ⟨_, same⟩ | ⟨_, balance, ⟨_, rfl⟩, _, _, same⟩
  · obtain ⟨rfl, _⟩ := Prod.mk.inj same
    exact solvent
  · obtain ⟨rfl, _⟩ := Prod.mk.inj same
    refine solvent.moved account solvent.stakes solvent.paid ?_ rfl ?_ ?_
    · intro other apart
      simp only [accrued, Function.update_of_ne apart]
    · have scaled := Nat.mul_le_mul_left unit enough
      simp only [accrued, Function.update_self, Nat.sub_self, Nat.mul_zero, Nat.mul_sub]
      omega
    · show s.totalStaked + (s.rewardReserve - s.rewards account) ≤ s.balance - s.rewards account
      omega

theorem pay_stakes {paid : Nat} (taken : pay s env account = .ok (after, paid)) : after.stakedOf = s.stakedOf := by
  simp only [pay, ite_ok, bind_ok, require_ok, pure_ok, sub_ok] at taken
  rcases taken with ⟨_, same⟩ | ⟨_, balance, _, _, _, same⟩
  · rw [(Prod.mk.inj same).1]
  · rw [← (Prod.mk.inj same).1]

/-! Stakers' calls. -/

/-- Stake added to a settled account, against coin that arrived or rewards it gave up. -/
theorem staked_solvent (account : Address) (amount reward : Nat) (solvent : Solvent s)
    (settled : s.userRewardPerTokenPaid account = s.rewardPerTokenStored)
    (gives : reward ≤ s.rewards account) (backed : s.totalStaked + amount + s.rewardReserve ≤ s.balance + reward) :
    Solvent { s with
      rewards := Function.update s.rewards account (s.rewards account - reward)
      rewardReserve := s.rewardReserve - reward
      totalStaked := s.totalStaked + amount
      stakedOf := Function.update s.stakedOf account (s.stakedOf account + amount) } := by
  have enough := entry_covered solvent account
  refine solvent.moved account (solvent.stakes.credit account amount) solvent.paid ?_ rfl ?_ ?_
  · intro other apart
    simp only [accrued, Function.update_of_ne apart]
  · have rewarded := Nat.mul_le_mul_left unit gives
    have reserved := Nat.mul_le_mul_left unit (gives.trans enough)
    simp only [accrued, settled, Function.update_self, Nat.sub_self, Nat.mul_zero, Nat.mul_sub]
    omega
  · show s.totalStaked + amount + (s.rewardReserve - reward) ≤ s.balance
    omega

theorem stake_solvent (taken : stake s env amount = .ok after) (later : s.lastUpdateTime ≤ env.now)
    (caller : env.sender ≠ 0) (solvent : Solvent s) : Solvent after := by
  simp only [stake, pull, bind_ok, require_ok, pure_ok] at taken
  obtain ⟨_, _, _, _, _, _, middle, ⟨_, _, rfl⟩, rfl⟩ := taken
  have settled := checkpoint_solvent env.sender later solvent
  have richer : Solvent { checkpoint s env.now env.sender with
      balance := (checkpoint s env.now env.sender).balance + env.received } :=
    settled.kept rfl rfl rfl rfl rfl (Nat.le_refl _) (Nat.le_add_right_of_le settled.backed)
  have added := staked_solvent env.sender env.received 0 richer (checkpoint_paid s env.now caller)
    (Nat.zero_le _) (by
      have backed := settled.backed
      show (checkpoint s env.now env.sender).totalStaked + env.received +
        (checkpoint s env.now env.sender).rewardReserve ≤
          (checkpoint s env.now env.sender).balance + env.received + 0
      omega)
  simpa only [Nat.sub_zero, Function.update_eq_self] using added

theorem settle_solvent (later : s.lastUpdateTime ≤ env.now) (solvent : Solvent s) :
    Solvent (settle s env) ∧ (settle s env).stakedOf = s.stakedOf := by
  have settled := checkpoint_solvent env.sender later solvent
  have stakes : (checkpoint s env.now env.sender).stakedOf = s.stakedOf := by
    unfold checkpoint
    split <;> rfl
  unfold settle
  split
  · dsimp only
    split
    · next after paid tried =>
      obtain ⟨_, taken⟩ := (attempted_some _ _ _).mp tried
      exact ⟨pay_solvent taken settled, (pay_stakes taken).trans stakes⟩
    · exact ⟨settled, stakes⟩
  · exact ⟨solvent, rfl⟩

theorem unstake_solvent (taken : unstake s env amount = .ok after) (later : s.lastUpdateTime ≤ env.now)
    (solvent : Solvent s) : Solvent after := by
  simp only [unstake, bind_ok, require_ok, pure_ok, sub_ok] at taken
  obtain ⟨_, ⟨_, part⟩, totalStaked, ⟨_, rfl⟩, balance, ⟨_, rfl⟩, _, _, rfl⟩ := taken
  obtain ⟨settled, stakes⟩ := settle_solvent later solvent
  have backed := settled.backed
  have entry := settled.stakes.entry_le env.sender
  rw [← stakes] at part ⊢
  refine settled.moved env.sender (settled.stakes.debit env.sender amount part) settled.paid ?_ rfl ?_ ?_
  · intro other apart
    simp only [accrued, Function.update_of_ne apart]
  · have less := Nat.mul_le_mul_right ((settle s env).rewardPerTokenStored -
      (settle s env).userRewardPerTokenPaid env.sender) (Nat.sub_le ((settle s env).stakedOf env.sender) amount)
    simp only [accrued, Function.update_self]
    omega
  · show (settle s env).totalStaked - amount + (settle s env).rewardReserve ≤ (settle s env).balance - amount
    omega

theorem compound_solvent (taken : compound s env = .ok after) (later : s.lastUpdateTime ≤ env.now)
    (caller : env.sender ≠ 0) (solvent : Solvent s) : Solvent after := by
  simp only [compound, bind_ok, require_ok, pure_ok] at taken
  obtain ⟨_, _, _, _, _, _, _, _, rfl⟩ := taken
  have settled := checkpoint_solvent env.sender later solvent
  have backed := settled.backed
  have added := staked_solvent env.sender ((checkpoint s env.now env.sender).rewards env.sender) _ settled
    (checkpoint_paid s env.now caller) (Nat.le_refl _) (by omega)
  simpa only [Nat.sub_self] using added

/-! Funding. -/

/-- A period that starts streams all it is given, or leaves it idle. -/
theorem startPeriod_solvent {lane : LaneId} (taken : startPeriod s now lane amount = .ok after)
    (last : s.lastUpdateTime = now) (stakes : Totals s.stakedOf s.totalStaked)
    (paid : ∀ account, s.userRewardPerTokenPaid account ≤ s.rewardPerTokenStored)
    (covered : ∃ total, Totals (accrued s) total ∧ total + unit * (unaccrued s + amount) ≤ unit * s.rewardReserve)
    (backed : s.totalStaked + s.rewardReserve ≤ s.balance) : Solvent after := by
  simp only [startPeriod, bind_ok, require_ok, pure_ok] at taken
  obtain ⟨_, _, _, _, rfl⟩ := taken
  refine ⟨stakes, paid, ?_, backed⟩
  obtain ⟨sum, sums, enough⟩ := covered
  refine ⟨sum, sums, ?_⟩
  generalize whole : amount + (s.lanes lane).rest now = total at *
  have streams : unaccrued { s with
      lanes := Function.update s.lanes lane ⟨total / lane.duration, now + lane.duration⟩
      idleRewards := s.idleRewards + (total - total / lane.duration * lane.duration) } =
      unaccrued s + amount := by
    have fits : total / lane.duration * lane.duration ≤ total := Nat.div_mul_le_self ..
    have fresh : Lane.rest ⟨total / lane.duration, now + lane.duration⟩ now =
        total / lane.duration * lane.duration := by
      rw [Lane.rest, Nat.add_sub_cancel_left, Nat.mul_comm]
    cases lane with
    | buyback =>
      simp only [unaccrued, unflowedRewards, last, Function.update_self, fresh,
        Function.update_of_ne (show LaneId.genesis ≠ LaneId.buyback by decide)]
      omega
    | genesis =>
      simp only [unaccrued, unflowedRewards, last, Function.update_self, fresh,
        Function.update_of_ne (show LaneId.buyback ≠ LaneId.genesis by decide)]
      omega
  rw [streams]
  exact enough

/-- Coin that arrived is injected after a checkpoint. -/
theorem injected_solvent {lane : LaneId} {middle : State} (later : s.lastUpdateTime ≤ env.now)
    (pulled : pull (checkpoint s env.now 0) env = .ok middle)
    (taken : inject middle env.now lane env.received = .ok after) (solvent : Solvent s) : Solvent after := by
  simp only [pull, bind_ok, require_ok, pure_ok] at pulled
  obtain ⟨_, _, rfl⟩ := pulled
  have settled := checkpoint_solvent 0 later solvent
  refine startPeriod_solvent taken (checkpoint_last ..) settled.stakes settled.paid ?_ ?_
  · obtain ⟨sum, sums, covered⟩ := settled.covered
    refine ⟨sum, sums, ?_⟩
    show sum + unit * (unaccrued (checkpoint s env.now 0) + env.received) ≤
      unit * ((checkpoint s env.now 0).rewardReserve + env.received)
    rw [Nat.mul_add, Nat.mul_add]
    omega
  · have backed := settled.backed
    show (checkpoint s env.now 0).totalStaked + ((checkpoint s env.now 0).rewardReserve + env.received) ≤
      (checkpoint s env.now 0).balance + env.received
    omega

theorem reallocateIdle_solvent (taken : reallocateIdle s env = .ok after) (later : s.lastUpdateTime ≤ env.now)
    (solvent : Solvent s) : Solvent after := by
  simp only [reallocateIdle, bind_ok, require_ok] at taken
  obtain ⟨_, _, _, _, taken⟩ := taken
  have settled := checkpoint_solvent 0 later solvent
  refine startPeriod_solvent taken (checkpoint_last ..) settled.stakes settled.paid ?_ settled.backed
  obtain ⟨sum, sums, covered⟩ := settled.covered
  exact ⟨sum, sums, covered⟩

/-! Runs. -/

/-- A step on figures that no account's rewards depend on. -/
theorem Solvent.aside (solvent : Solvent s) (stakes : after.stakedOf = s.stakedOf)
    (total : after.totalStaked = s.totalStaked) (stored : after.rewardPerTokenStored = s.rewardPerTokenStored)
    (paid : after.userRewardPerTokenPaid = s.userRewardPerTokenPaid) (rewards : after.rewards = s.rewards)
    (unmoved : unaccrued after = unaccrued s) (reserve : after.rewardReserve = s.rewardReserve)
    (balance : s.balance ≤ after.balance) : Solvent after := by
  refine solvent.kept stakes total stored paid rewards (by rw [unmoved, reserve]) ?_
  rw [total, reserve]
  exact solvent.backed.trans balance

theorem step_solvent {t : Step} (taken : step s t = .ok after) (obeyed : timely s t) (solvent : Solvent s) :
    Solvent after := by
  obtain ⟨env, action⟩ := t
  obtain ⟨later, caller⟩ := obeyed
  cases action with
  | setDistributor d =>
    simp only [step, setDistributor, bind_ok, require_ok, pure_ok] at taken
    obtain ⟨_, _, rfl⟩ := taken
    exact solvent.aside rfl rfl rfl rfl rfl rfl rfl (Nat.le_refl _)
  | setStakeCap cap =>
    simp only [step, setStakeCap, bind_ok, require_ok, pure_ok] at taken
    obtain ⟨_, _, rfl⟩ := taken
    exact solvent.aside rfl rfl rfl rfl rfl rfl rfl (Nat.le_refl _)
  | setPaused paused =>
    simp only [step, setPaused, bind_ok, require_ok, pure_ok] at taken
    obtain ⟨_, _, rfl⟩ := taken
    exact solvent.aside rfl rfl rfl rfl rfl rfl rfl (Nat.le_refl _)
  | transferOwnership newOwner =>
    simp only [step, transferOwnership, bind_ok, require_ok, pure_ok] at taken
    obtain ⟨_, _, rfl⟩ := taken
    exact solvent.aside rfl rfl rfl rfl rfl rfl rfl (Nat.le_refl _)
  | acceptOwnership =>
    simp only [step, acceptOwnership, bind_ok, require_ok, pure_ok] at taken
    obtain ⟨_, _, rfl⟩ := taken
    exact solvent.aside rfl rfl rfl rfl rfl rfl rfl (Nat.le_refl _)
  | stake amount => exact stake_solvent taken later caller solvent
  | unstake amount => exact unstake_solvent taken later solvent
  | claim =>
    simp only [step, claim, bind_ok, pure_ok] at taken
    obtain ⟨⟨paid, amount⟩, taken, rfl⟩ := taken
    exact pay_solvent taken (checkpoint_solvent env.sender later solvent)
  | compound => exact compound_solvent taken later caller solvent
  | notifyBuyback amount =>
    simp only [step, notifyBuyback, bind_ok, require_ok] at taken
    obtain ⟨_, _, _, _, _, _, middle, pulled, taken⟩ := taken
    exact injected_solvent later pulled taken solvent
  | seedGenesis amount =>
    simp only [step, seedGenesis, bind_ok, require_ok] at taken
    obtain ⟨_, _, _, _, _, _, _, _, middle, pulled, taken⟩ := taken
    have seeded : Solvent { s with genesisSeeded := true } :=
      solvent.aside rfl rfl rfl rfl rfl rfl rfl (Nat.le_refl _)
    exact injected_solvent (s := { s with genesisSeeded := true }) later pulled taken seeded
  | reallocateIdle => exact reallocateIdle_solvent taken later solvent
  | donated amount =>
    cases taken
    exact solvent.aside rfl rfl rfl rfl rfl rfl rfl (Nat.le_add_right ..)

/-- Steps at times that do not go back, by accounts. -/
def Reached (start s : State) : Prop :=
  Reachable (restrict (fun before t after => step before t = .ok after) timely) start s

/-- What is owed at a time, and that a payment then pays all of it. -/
structure Solvency (s : State) (now : Nat) : Prop where
  /-- With nothing staked, what streamed since the last update is idle. -/
  rewards : ∃ total, Totals (earned s now) total ∧
    total + unflowedRewards s now + (flowed s now).idleRewards ≤ s.rewardReserve
  backed : s.totalStaked + s.rewardReserve ≤ s.balance
  payments : ∀ env account, account ≠ 0 → env.transfers = true →
    ∃ after, pay (checkpoint s now account) env account = .ok (after, earned s now account)

theorem solvent_earned (later : s.lastUpdateTime ≤ now) (solvent : Solvent s) : ∃ total,
    Totals (earned s now) total ∧
      total + unflowedRewards s now + (flowed s now).idleRewards ≤ s.rewardReserve := by
  obtain ⟨sum, sums, covered⟩ := (flowed_solvent later solvent).covered
  obtain ⟨total, parts, fits⟩ := sums.divide unit
  refine ⟨total, parts.of_eq (fun account => ?_) rfl, ?_⟩
  · rw [← flowed_earned, earned, flowed_perToken, accrued, Nat.add_mul_div_left _ _ (by decide)]
  · have scaled : unit * (total + unaccrued (flowed s now)) ≤ unit * s.rewardReserve := by
      rw [Nat.mul_add, Nat.mul_comm unit total]
      exact (Nat.add_le_add_right fits _).trans covered
    have whole := Nat.le_of_mul_le_mul_left scaled (by decide)
    rw [Nat.add_assoc]
    exact whole

/-- In every reachable state, at every time from the last update on. -/
theorem staking_solvent (owner stakeCap start balance : Nat) (s : State)
    (reached : Reached (deployed owner stakeCap start balance) s) (now : Nat)
    (later : s.lastUpdateTime ≤ now) : Solvency s now := by
  have solvent : Solvent s := by
    apply reached.invariant
    · exact deployed_solvent owner stakeCap start balance
    · intro before t after solvent taken
      exact step_solvent taken.2 taken.1 solvent
  refine ⟨solvent_earned later solvent, solvent.backed, ?_⟩
  intro env account some_ transfers
  have full := pay_full account (checkpoint_solvent account later solvent) transfers
  rwa [checkpoint_rewards s now some_] at full

/-! The genesis pool with one staker, who leaves half of its stake later without a settlement. -/

def minute (now sender received : Nat) (checkpoints : Bool) : Env :=
  ⟨sender, now, received, true, checkpoints, true⟩

def sampleSteps : List Step :=
  [⟨minute 0 1 minNotify true, .seedGenesis minNotify⟩, ⟨minute 60 5 100 true, .stake 100⟩,
    ⟨minute 90 5 0 false, .unstake 50⟩]

/-- Its last two minutes of rewards are its own; the first was idle. -/
def sampleHolds (s : State) : Bool :=
  decide (s.lastUpdateTime ≤ 180 ∧ s.totalStaked = 50 ∧
    earned s 180 5 = 120 * (minNotify / LaneId.genesis.duration))

theorem sample_reached : ∃ s, Reached (deployed 1 (10 ^ 30) 0 0) s ∧ sampleHolds s = true :=
  run_passes step timely sampleSteps (deployed 1 (10 ^ 30) 0 0) sampleHolds (by decide)

theorem staking_solvent_later : ∃ s : State, sampleHolds s = true ∧ Solvency s 180 := by
  obtain ⟨s, reached, holds⟩ := sample_reached
  have later := (of_decide_eq_true holds).1
  exact ⟨s, holds, staking_solvent 1 (10 ^ 30) 0 0 s reached 180 later⟩

end Solonpad.SolonStaking
