import Solonpad.RewardRuns

/-!
What a reward token keeps of the days that have ended. Only a seal writes the mark of a sealed epoch, and it sets it;
and the budget of an ended day stays as it is.
-/

namespace Solonpad.RewardToken

open Checked CarryStream Eligibility
open Chain (Address)

variable {c : Config} {governance : Address} {k : Controller} {env : Env} {s mid after : State}
  {cut : Option Nat} {now : Nat} {amount epoch : Nat} {account receiver asset : Address} {epochs : List Nat}

/-! Calls that leave the payouts alone. -/

/-- The marks of sealed epochs are those of before. -/
structure Unmarked (s after : State) : Prop where
  same : after.payouts.rewardSealed = s.payouts.rewardSealed

theorem Unmarked.refl (s : State) : Unmarked s s := ⟨rfl⟩

theorem Unmarked.trans (first : Unmarked s mid) (second : Unmarked mid after) : Unmarked s after :=
  ⟨second.same.trans first.same⟩

theorem syncMode_unmarked (done : syncMode s cut now = .ok after) : Unmarked s after := by
  simp only [syncMode, ite_ok, bind_ok, pure_ok] at done
  rcases done with ⟨_, _, _, rfl⟩ | ⟨_, rfl⟩
  · exact ⟨rfl⟩
  · exact ⟨rfl⟩

theorem prepare_unmarked (s : State) (denominator epoch : Nat) : Unmarked s (prepare s denominator epoch) := by
  unfold prepare
  by_cases moved : denominator ≠ s.lastDenominator
  · rw [if_pos moved]
    simp only
    split
    · exact ⟨rfl⟩
    · exact ⟨rfl⟩
  · rw [if_neg moved]
    simp only
    split
    · exact ⟨rfl⟩
    · exact ⟨rfl⟩

theorem credit_unmarked (s : State) (cut : Option Nat) (now denominator amount : Nat) (fromCarry : Bool) :
    Unmarked s (credit s cut now denominator amount fromCarry) := by
  unfold credit
  exact ⟨rfl⟩

theorem distribute_unmarked {fromCarry : Bool} (done : distribute s cut now amount fromCarry = .ok after) :
    Unmarked s after := by
  simp only [distribute, bind_ok, require_ok, pure_ok] at done
  obtain ⟨mid, stamped, _, _, rfl⟩ := done
  have prepared := prepare_unmarked s (s.effectiveEligible cut now) (now / day)
  have same : Unmarked (prepare s (s.effectiveEligible cut now) (now / day)) mid := by
    rw [stampAsset_ok stamped]
    exact ⟨rfl⟩
  exact (prepared.trans same).trans (credit_unmarked mid cut now _ amount fromCarry)

theorem releaseCarry_unmarked (done : releaseCarry s cut now = .ok after) : Unmarked s after := by
  simp only [releaseCarry, bind_ok, ite_ok, pure_ok] at done
  obtain ⟨mid, synced, ⟨carry, amount⟩, _, done⟩ := done
  have first := syncMode_unmarked synced
  have second : Unmarked mid { mid with carry := carry } := ⟨rfl⟩
  rcases done with ⟨_, done⟩ | ⟨_, rfl⟩
  · exact (first.trans second).trans (distribute_unmarked done)
  · exact first.trans second

theorem onFeeCredit_unmarked {pool kind : Nat} {quote : Address}
    (done : onFeeCredit c s cut env pool quote kind amount = .ok after) : Unmarked s after := by
  simp only [onFeeCredit, bind_ok, require_ok, ite_ok, pure_ok] at done
  obtain ⟨_, _, _, _, mid, synced, ⟨_, _, rfl, rfl⟩ | ⟨_, released, done, last, paid, rfl⟩⟩ := done
  · exact ⟨(syncMode_unmarked synced).same⟩
  · have first := (syncMode_unmarked synced).trans (releaseCarry_unmarked done)
    exact ⟨(first.trans (distribute_unmarked paid)).same⟩

theorem save_unmarked (done : save s cut now account = .ok after) : Unmarked s after := by
  simp only [save, bind_ok, pure_ok] at done
  obtain ⟨_, _, rfl⟩ := done
  exact ⟨rfl⟩

theorem retire_unmarked (done : retire s account amount = .ok after) : Unmarked s after := by
  simp only [retire, bind_ok, pure_ok] at done
  obtain ⟨_, _, _, _, rfl⟩ := done
  exact ⟨rfl⟩

/-- Saving, or leaving alone an account that has no history. -/
theorem resave_unmarked {seen : Prop}
    (done : seen ∧ save s cut now account = .ok after ∨ ¬ seen ∧ s = after) : Unmarked s after := by
  rcases done with ⟨_, saved⟩ | ⟨_, rfl⟩
  · exact save_unmarked saved
  · exact ⟨rfl⟩

theorem syncAccount_unmarked (done : syncAccount s cut now account = .ok after) : Unmarked s after := by
  simp only [syncAccount, ite_ok, bind_ok, pure_ok] at done
  rcases done with ⟨_, ⟨_, mid, retired, done⟩ | ⟨_, mid, rfl, done⟩⟩ | ⟨_, rfl⟩
  · exact (retire_unmarked retired).trans ⟨(resave_unmarked done).same⟩
  · exact ⟨(resave_unmarked done).same⟩
  · exact ⟨rfl⟩

theorem qualify_unmarked {earns : Bool} (done : qualify c s k env account = (earns, after)) : Unmarked s after := by
  unfold qualify at done
  simp only at done
  repeat' split at done
  all_goals
    cases done
    exact ⟨rfl⟩

theorem setWeight_unmarked {next : Nat} (done : setWeight s cut now account next = .ok after) : Unmarked s after := by
  simp only [setWeight, bind_ok, ite_ok] at done
  obtain ⟨_, _, ⟨_, _, _, saved⟩ | ⟨_, _, _, saved⟩⟩ := done
  · exact ⟨(save_unmarked saved).same⟩
  · exact ⟨(save_unmarked saved).same⟩

theorem reweigh_unmarked {newBalance : Nat} (done : reweigh c s k cut env account newBalance = .ok after) :
    Unmarked s after := by
  simp only [reweigh, bind_ok] at done
  obtain ⟨mid, synced, done⟩ := done
  have first := syncAccount_unmarked synced
  generalize chosen : (if newBalance = 0 then (false, mid)
    else if mid.eligible account ≠ 0 then (true, mid) else qualify c mid k env account) = pair at done
  obtain ⟨earns, weighed⟩ := pair
  have second : Unmarked mid weighed := by
    split at chosen
    · cases chosen
      exact ⟨rfl⟩
    · split at chosen
      · cases chosen
        exact ⟨rfl⟩
      · exact qualify_unmarked chosen
  simp only [ite_ok, pure_ok] at done
  rcases done with ⟨_, rfl⟩ | ⟨_, set⟩
  · exact first.trans second
  · exact (first.trans second).trans (setWeight_unmarked set)

theorem moveBalance_unmarked {sender : Address} (done : moveBalance s sender receiver amount = .ok after) :
    Unmarked s after := by
  unfold moveBalance at done
  split at done
  · cases done
    exact ⟨rfl⟩
  · cases done

theorem update_unmarked {sender : Address} (done : update c s k cut env sender receiver amount = .ok after) :
    Unmarked s after := by
  simp only [update, ite_ok, bind_ok, pure_ok] at done
  rcases done with ⟨_, moved⟩ | ⟨_, released, carried, paid, moved, done⟩
  · exact moveBalance_unmarked moved
  · have first := (releaseCarry_unmarked carried).trans (moveBalance_unmarked moved)
    have second : ∃ weighed, Unmarked paid weighed ∧ (c.excluded receiver = false ∧
        reweigh c weighed k cut env receiver (weighed.token.balanceOf receiver) = .ok after ∨
        ¬ c.excluded receiver = false ∧ weighed = after) := by
      rcases done with ⟨_, weighed, left, done⟩ | ⟨_, weighed, rfl, done⟩
      · exact ⟨weighed, reweigh_unmarked left, done⟩
      · exact ⟨_, .refl _, done⟩
    obtain ⟨weighed, second, ⟨_, done⟩ | ⟨_, rfl⟩⟩ := second
    · exact (first.trans second).trans (reweigh_unmarked done)
    · exact first.trans second

theorem onEligibilityChange_unmarked (done : onEligibilityChange s k cut env account = .ok after) :
    Unmarked s after := by
  simp only [onEligibilityChange, bind_ok, require_ok, ite_ok, pure_ok] at done
  obtain ⟨_, _, released, carried, mid, synced, done⟩ := done
  have first := (releaseCarry_unmarked carried).trans (syncAccount_unmarked synced)
  rcases done with ⟨_, last, retired, saved⟩ | ⟨_, rfl⟩
  · have second : Unmarked mid mid.freezeRemainders := ⟨rfl⟩
    exact ((first.trans second).trans (retire_unmarked retired)).trans ⟨(save_unmarked saved).same⟩
  · exact first

/-! Payouts and settings. -/

theorem collect_unmarked (epochs : List Nat) {p paid : Payouts} {payment sum : Nat}
    (done : collect s cut account asset epochs p payment = .ok (paid, sum)) : paid.rewardSealed = p.rewardSealed := by
  induction epochs generalizing p payment with
  | nil =>
    cases done
    rfl
  | cons epoch rest ih =>
    simp only [collect, ite_ok, bind_ok] at done
    rcases done with ⟨_, done⟩ | ⟨_, _, _, _, _, done⟩
    · exact ih done
    · have later := ih done
      exact later

theorem stageCredit_unmarked (done : stageCredit s cut env account epochs asset = .ok after) : Unmarked s after := by
  simp only [stageCredit, bind_ok, require_ok, ite_ok, pure_ok] at done
  obtain ⟨_, _, _, _, _, _, released, carried, ⟨payouts, payment⟩, collected, done⟩ := done
  have paid := (collect_unmarked epochs collected).trans (releaseCarry_unmarked carried).same
  rcases done with ⟨_, _, _, rfl⟩ | ⟨_, rfl⟩
  · exact ⟨paid⟩
  · exact ⟨paid⟩

theorem claimAssets_unmarked (assets : List Address)
    (done : claimAssets k cut env epochs assets s = .ok after) : Unmarked s after := by
  induction assets generalizing s with
  | nil =>
    cases done
    exact ⟨rfl⟩
  | cons asset rest ih =>
    simp only [claimAssets, bind_ok, require_ok, ite_ok] at done
    obtain ⟨_, _, ⟨payouts, payment⟩, collected, done⟩ := done
    have paid := collect_unmarked epochs collected
    rcases done with ⟨_, _, _, done⟩ | ⟨_, done⟩
    · exact ⟨(ih done).same.trans paid⟩
    · exact ⟨(ih done).same.trans paid⟩

theorem claim_unmarked {assets : List Address} (done : claim s k cut env epochs assets = .ok after) :
    Unmarked s after := by
  simp only [claim, bind_ok, require_ok, ite_ok, pure_ok] at done
  obtain ⟨_, _, released, carried, _, _, ⟨_, rfl⟩ | ⟨_, done⟩⟩ := done
  · exact releaseCarry_unmarked carried
  · exact (releaseCarry_unmarked carried).trans (claimAssets_unmarked assets done)

theorem includeRewardAsset_unmarked (done : includeRewardAsset s k asset = .ok after) : Unmarked s after := by
  simp only [includeRewardAsset, ite_ok, bind_ok, require_ok, pure_ok] at done
  rcases done with ⟨_, rfl⟩ | ⟨_, _, _, ⟨_, _, _, rfl⟩ | ⟨_, rfl⟩⟩
  · exact ⟨rfl⟩
  · exact ⟨rfl⟩
  · exact ⟨rfl⟩

theorem includeAll_unmarked {self : Address} (policies : List (Address × PurchasePolicy))
    (done : includeAll k env self policies s = .ok after) : Unmarked s after := by
  induction policies generalizing s with
  | nil =>
    cases done
    exact ⟨rfl⟩
  | cons policy rest ih =>
    simp only [includeAll, bind_ok, require_ok] at done
    obtain ⟨_, _, mid, included, done⟩ := done
    exact (includeRewardAsset_unmarked included).trans (ih done)

/-! Turns. -/

theorem step_sealed {call : Call} (done : step c s k env call = .ok after)
    (sealed : s.payouts.rewardSealed epoch = true) : after.payouts.rewardSealed epoch = true := by
  have kept : ∀ unmarked : Unmarked s after, after.payouts.rewardSealed epoch = true := by
    intro unmarked
    rw [unmarked.same]
    exact sealed
  cases call with
  | sealReward own cohort =>
    simp only [step, sealReward, bind_ok, require_ok, pure_ok] at done
    obtain ⟨_, ⟨_, _, _, _, _, _, _, _, _, _, _, _, rfl⟩, rfl⟩ := done
    by_cases same : epoch = own
    · subst same
      exact Function.update_self ..
    · exact (Function.update_of_ne same ..).trans sealed
  | onFeeCredit pool quote kind amount => exact kept (onFeeCredit_unmarked done)
  | releaseCarry => exact kept (releaseCarry_unmarked done)
  | transfer sender receiver amount => exact kept (update_unmarked done)
  | syncEligibility account =>
    simp only [step, syncEligibility, bind_ok] at done
    obtain ⟨released, carried, done⟩ := done
    exact kept ((releaseCarry_unmarked carried).trans (reweigh_unmarked done))
  | onEligibilityChange account => exact kept (onEligibilityChange_unmarked done)
  | stageCredit account epochs asset => exact kept (stageCredit_unmarked done)
  | claim epochs assets => exact kept (claim_unmarked done)
  | checkpointExpiry time =>
    simp only [step, checkpointExpiry, bind_ok, require_ok, ite_ok, pure_ok] at done
    obtain ⟨_, _, ⟨_, _, _, rfl⟩ | ⟨_, rfl⟩⟩ := done
    · exact sealed
    · exact sealed
  | deliver own asset amount =>
    simp only [step, deliver, bind_ok, require_ok, pure_ok] at done
    obtain ⟨_, _, _, _, _, _, _, _, rfl⟩ := done
    exact sealed
  | configureAssetSchedule schedule =>
    simp only [step, configureAssetSchedule, bind_ok, require_ok] at done
    obtain ⟨_, _, _, _, _, _, done⟩ := done
    exact kept ⟨(includeAll_unmarked schedule.policies done).same⟩
  | configureRounds manager policy =>
    simp only [step, configureRounds, bind_ok, require_ok, pure_ok] at done
    obtain ⟨_, _, _, _, rfl⟩ := done
    exact sealed
  | declareEpochRewardPolicy own asset policy =>
    simp only [step, declareEpochRewardPolicy, bind_ok, require_ok, pure_ok] at done
    obtain ⟨_, _, _, _, mid, included, rfl⟩ := done
    exact kept ⟨(includeRewardAsset_unmarked included).same⟩
  | configurePayout payout =>
    simp only [step, configurePayout, bind_ok, require_ok, pure_ok] at done
    obtain ⟨_, _, _, _, rfl⟩ := done
    exact sealed
  | configureEligibility =>
    simp only [step, configureEligibility, bind_ok, require_ok, pure_ok] at done
    obtain ⟨_, _, _, _, _, _, rfl⟩ := done
    exact sealed
  | configurePool pool quote kind =>
    simp only [step, configurePool, bind_ok, require_ok] at done
    obtain ⟨_, _, _, _, done⟩ := done
    exact kept ⟨(includeRewardAsset_unmarked done).same⟩
  | setDefaultRewardAsset asset =>
    simp only [step, setDefaultRewardAsset, bind_ok, require_ok, pure_ok] at done
    obtain ⟨_, _, _, _, rfl⟩ := done
    exact sealed
  | declareEpochAsset own asset =>
    simp only [step, declareEpochAsset, bind_ok, require_ok, pure_ok] at done
    obtain ⟨_, _, _, _, _, _, mid, included, rfl⟩ := done
    exact kept ⟨(includeRewardAsset_unmarked included).same⟩

theorem turn_sealed {sys next : System} (turn : Turn c governance sys next)
    (sealed : sys.token.payouts.rewardSealed epoch = true) : next.token.payouts.rewardSealed epoch = true := by
  cases turn with
  | wait | govern => exact sealed
  | call env call order taken => exact step_sealed taken sealed

/-- A day that has ended keeps its budget. -/
theorem turn_frozen {sys next : System} (turn : Turn c governance sys next) (whole : Whole sys)
    (ended : (epoch + 1) * day ≤ sys.now) : next.token.epochBudget epoch = sys.token.epochBudget epoch := by
  obtain ⟨whole', later⟩ := turn_whole turn whole
  rw [whole.sound.kept.budgets, whole'.sound.kept.budgets]
  exact (later.frozen ended (fun event member => (whole'.sound.indexed.dated event member).2) 0).2

end Solonpad.RewardToken
