import Solonpad.CapacitySums

/-!
Which faults a call of the capacity controller can end in. From an exact state no
subtraction underflows. The five operations a cross-chain result depends on then
always succeed for the hub, except that a sum of raw shares or of unreviewed
dollars may leave 256 bits.
-/

namespace Solonpad.Capacity

open Checked Chain RunningTotal Transition

variable {Key : Type} {s : State Key}

def Underflow (fault : Fault StockError) : Prop := fault = .underflow

theorem unreviewedFull_covered (exact : Exact s) (lane usd : Nat) : Avoids Underflow (unreviewedFull s lane usd) := by
  have reward := exact.reward_le
  have share : s.rewardUnreviewedShare ≤ s.uRun := by
    simp only [State.rewardUnreviewedShare, shareOf, rewardShareBps]
    omega
  simp [-bind_pure_comp, unreviewedFull, avoids_ite, avoids_add, avoids_sub, avoids_pure,
    Underflow, reward, share]

theorem check_covered (exact : Exact s) (lane usd : Nat) : Avoids Underflow (check s lane usd) := by
  simp only [check, avoids_ite, avoids_pure, implies_true, true_and]
  intro _ _
  rw [avoids_bind]
  refine ⟨unreviewedFull_covered exact lane usd, fun full _ => ?_⟩
  simp [-bind_pure_comp, avoids_ite, avoids_add, avoids_pure, Underflow]

theorem checkAsset_covered (exact : Exact s) (lane : Nat) (asset : Address) (usd : Nat) :
    Avoids Underflow (checkAsset s lane asset usd) := by
  rw [checkAsset, avoids_bind]
  refine ⟨check_covered exact lane usd, fun refused _ => ?_⟩
  cases refused <;> simp [-bind_pure_comp, avoids_ite, avoids_add, avoids_pure, Underflow]

theorem addUnreviewed_avoids (bad : Fault StockError → Prop) (s : State Key) (lane usd : Nat)
    (reward : s.unreviewedRewardUsd ≤ s.unreviewedUsd) :
    Avoids bad (addUnreviewed s lane usd) ↔
      (bad .overflow → s.unreviewedUsd + usd < 2 ^ 256) := by
  simp only [addUnreviewed, avoids_ite, avoids_add, avoids_pure, implies_true, and_true]
  constructor
  · exact fun avoided => avoided.1
  · intro fits
    exact ⟨fits, fun _ _ _ => by omega⟩

theorem subUnreviewed_succeeds (bad : Fault StockError → Prop) (s : State Key) (lane usd : Nat)
    (whole : usd ≤ s.unreviewedUsd) (part : lane = 1 → usd ≤ s.unreviewedRewardUsd) :
    Avoids bad (subUnreviewed s lane usd) := by
  simp only [subUnreviewed, avoids_ite, avoids_sub, avoids_pure, implies_true, and_true]
  exact ⟨fun _ => whole, fun _ reward _ => part reward⟩

/-- What the hub may not underflow, no other sender does: a guard refuses it first. -/
theorem hub_covered {sender : Address} {body : Unit → Tx (State Key)}
    (hub : Avoids Underflow (require (s.hub = s.hub) .notHub >>= body)) :
    Avoids Underflow (require (sender = s.hub) .notHub >>= body) := by
  rw [avoids_require] at hub ⊢
  exact ⟨by simp [Underflow], fun _ => hub.2 rfl⟩

variable [DecidableEq Key]

theorem reserve_covered (exact : Exact s) (key : Key) (lane : Nat) (asset : Address) (usd : Nat) :
    Avoids Underflow (reserve s key lane asset usd) := by
  simp only [reserve, avoids_require]
  refine ⟨by simp [Underflow], fun _ => ⟨by simp [Underflow], fun _ => ⟨by simp [Underflow],
    fun _ => ?_⟩⟩⟩
  rw [avoids_bind]
  refine ⟨checkAsset_covered exact lane asset usd, fun refused _ => ?_⟩
  cases refused with
  | some error => simp [avoids_throw, Underflow]
  | none =>
    simp only [avoids_add]
    refine ⟨by simp [Underflow], fun _ => ⟨by simp [Underflow], fun _ => ?_⟩⟩
    exact (addUnreviewed_avoids _ _ _ _ (by exact exact.reward_le)).mpr (by simp [Underflow])

/-- A reserved ticket can always be dropped. -/
theorem drop_succeeds (exact : Exact s) (bad : Fault StockError → Prop) (key : Key) (unsent : Bool)
    (held : (s.tickets key).state = .reserved) : Avoids bad (drop s key unsent) := by
  obtain ⟨whole, part⟩ := exact.inflight_le key held
  have counted := exact.unreviewed_le key
  simp only [drop, avoids_sub, avoids_ite]
  refine ⟨fun _ => whole, fun _ => ⟨fun _ => part, fun _ => ⟨fun unreviewed => ?_, fun _ => ?_⟩⟩⟩
  · obtain ⟨wholeCounted, partCounted⟩ := counted unreviewed
    rw [avoids_bind]
    exact ⟨subUnreviewed_succeeds bad _ _ _ wholeCounted partCounted, fun _ _ => avoids_pure _ _⟩
  · simp only [pure_bind, avoids_pure]

theorem finalizeBuy_avoids (balanced : Balanced s) (bad : Fault StockError → Prop) (key : Key)
    (asset : Address) (raw : Nat) :
    Avoids bad (finalizeBuy s s.hub key asset raw) ↔
      (bad .overflow → s.issuedRaw asset + raw < 2 ^ 256) := by
  have covered := balanced.inflight_le key
  have below := balanced.issued.entry_le asset
  have fits := balanced.fits
  simp only [State.exposureUsd] at fits
  simp only [finalizeBuy, avoids_ite, avoids_require, avoids_add, avoids_sub, avoids_pure,
    implies_true, and_true, true_and, true_implies]
  constructor
  · exact fun avoided => avoided.1
  · intro rawFits
    refine ⟨rawFits, fun _ held => ?_⟩
    obtain ⟨whole, part⟩ := covered held
    exact ⟨fun _ => whole, fun _ => ⟨fun _ => part, fun _ => ⟨fun _ => by omega,
      fun _ _ => by omega⟩⟩⟩

theorem finalizeRedeem_avoids (exact : Exact s) (bad : Fault StockError → Prop) (key : Key) (reviewed : Bool) :
    Avoids bad (finalizeRedeem s s.hub key reviewed) ↔
      (bad .overflow → (s.tickets key).state = .redeeming → reviewed = false →
        s.unreviewedUsd + (s.tickets key).usd < 2 ^ 256) := by
  have covered := exact.redeeming_le key
  simp only [finalizeRedeem, avoids_ite, avoids_require, avoids_sub, avoids_pure,
    implies_true, and_true, true_and, true_implies, Bool.not_eq_true]
  constructor
  · intro avoided overflowed held unproven
    obtain ⟨whole, part⟩ := covered held
    have added := ((avoided held).2 whole).2 part unproven
    have fits := (addUnreviewed_avoids _ _ _ _ (by exact exact.reward_le)).mp added
    exact fits overflowed
  · intro fits held
    obtain ⟨whole, part⟩ := covered held
    refine ⟨fun _ => whole, fun _ => ⟨fun _ => part, fun _ unproven => ?_⟩⟩
    exact (addUnreviewed_avoids _ _ _ _ (by exact exact.reward_le)).mpr
      (fun overflowed => fits overflowed held unproven)

theorem revertRedeem_avoids (balanced : Balanced s) (bad : Fault StockError → Prop) (key : Key) :
    Avoids bad (revertRedeem s s.hub key) ↔
      (bad .overflow → (s.tickets key).state = .redeeming →
        s.issuedRaw (s.tickets key).asset + (s.tickets key).raw < 2 ^ 256) := by
  have covered := balanced.redeeming_le key
  have below := balanced.issued.entry_le (s.tickets key).asset
  have fits := balanced.fits
  simp only [State.exposureUsd] at fits
  simp only [revertRedeem, avoids_ite, avoids_require, avoids_add, avoids_sub, avoids_pure,
    implies_true, and_true, true_and, true_implies]
  constructor
  · intro avoided overflowed held
    obtain ⟨whole, part⟩ := covered held
    exact (((avoided held).2 whole).2 part).2 (by omega) |>.1 overflowed
  · intro rawFits held
    obtain ⟨whole, part⟩ := covered held
    exact ⟨fun _ => whole, fun _ => ⟨fun _ => part, fun _ => ⟨fun _ => by omega,
      fun _ => ⟨fun overflowed => rawFits overflowed held, fun _ _ => by omega⟩⟩⟩⟩

theorem release_succeeds (exact : Exact s) (bad : Fault StockError → Prop) (key : Key) :
    Avoids bad (release s s.hub key) := by
  simp only [release, avoids_require, avoids_ite, avoids_pure, implies_true, and_true, true_and]
  exact fun _ held => drop_succeeds exact bad key false held

theorem markReviewed_succeeds (exact : Exact s) (bad : Fault StockError → Prop) (key : Key) :
    Avoids bad (markReviewed s s.hub key) := by
  simp only [markReviewed, avoids_require, avoids_ite, avoids_pure, implies_true, and_true, true_and]
  intro _ counted
  obtain ⟨whole, part⟩ := exact.unreviewed_le key counted
  exact subUnreviewed_succeeds bad _ _ _ whole part

theorem redeemBasis_covered (basis totalRaw raw : Nat) (part : raw < totalRaw) :
    Avoids Underflow (redeemBasis basis totalRaw raw) := by
  simp only [redeemBasis, avoids_mul, avoids_add, avoids_sub, avoids_pure, Underflow,
    reduceCtorEq, false_implies, true_and]
  intro _ _
  exact ⟨fun _ => by omega, fun _ => trivial⟩

theorem redeemBasis_le (basis totalRaw raw usd : Nat)
    (priced : redeemBasis basis totalRaw raw = .ok usd) : usd ≤ basis := by
  simp only [redeemBasis, bind_ok, mul_ok, add_ok, sub_ok, pure_ok] at priced
  obtain ⟨_, _, _, _, _, _, rfl⟩ := priced
  exact Nat.min_le_right _ _

theorem beginRedeem_covered (exact : Exact s) (sender : Address) (key : Key) (asset : Address) (raw : Nat) :
    Avoids Underflow (beginRedeem s sender key asset raw) := by
  have below := exact.issued.entry_le asset
  have taken : min raw (s.issuedRaw asset) ≤ s.issuedRaw asset := Nat.min_le_right _ _
  have moved : ∀ usd ≤ s.issuedUsdOf asset, usd ≤ s.issuedUsd := fun usd basis => by omega
  simp only [beginRedeem, avoids_require, avoids_ite]
  refine ⟨by simp [Underflow], fun _ => ⟨by simp [Underflow], fun _ => ⟨fun whole => ?_,
    fun part => ?_⟩⟩⟩
  · simp [-bind_pure_comp, avoids_add, avoids_sub, avoids_pure, Underflow, taken, below]
  · rw [avoids_bind]
    refine ⟨redeemBasis_covered _ _ _ (by omega), fun usd priced => ?_⟩
    have basis := redeemBasis_le _ _ _ _ priced
    simp [-bind_pure_comp, avoids_add, avoids_sub, avoids_pure, Underflow, taken, basis, moved usd basis]

theorem step_covered (balanced : Balanced s) (call : Call Key) : Avoids Underflow (step s call) := by
  have exact := balanced.toExact
  obtain ⟨sender, now, action⟩ := call
  cases action with
  | reserveFor key asset usd =>
    simp [step, reserveFor, avoids_require, reserve_covered exact, Underflow]
  | reservePublicFor key asset usd =>
    simp [step, reservePublicFor, avoids_require, reserve_covered exact, Underflow]
  | releaseUnsent key =>
    simp only [step, releaseUnsent, avoids_require]
    refine ⟨by simp [Underflow], fun _ => ⟨by simp [Underflow], fun held => ⟨by simp [Underflow],
      fun _ => drop_succeeds exact Underflow key true held⟩⟩⟩
  | release key => exact hub_covered (release_succeeds exact Underflow key)
  | finalizeBuy key asset raw =>
    exact hub_covered ((finalizeBuy_avoids balanced _ key asset raw).mpr (by simp [Underflow]))
  | beginRedeem key asset raw => exact beginRedeem_covered exact sender key asset raw
  | finalizeRedeem key reviewed =>
    exact hub_covered ((finalizeRedeem_avoids exact _ key reviewed).mpr (by simp [Underflow]))
  | revertRedeem key =>
    exact hub_covered ((revertRedeem_avoids balanced _ key).mpr (by simp [Underflow]))
  | markReviewed key => exact hub_covered (markReviewed_succeeds exact Underflow key)
  | _ =>
    simp [-bind_pure_comp, step, markSent, bind, lowerLimits, proposeLimits, executeLimits, checkLimits, setMinOrder,
      setAssetCap, lowerAssetCap, proposeAssetCap, executeAssetCap, avoids_require, avoids_pure,
      Underflow]

theorem capacity_sums_exact (owner guardian : Address) (s : State Key)
    (reached : Reachable accepts (deployed owner guardian) s) :
    Exact s ∧ (∀ call, step s call ≠ .error .underflow) ∧
      (∀ key, ∃ after, release s s.hub key = .ok after) ∧
      (∀ key, ∃ after, markReviewed s s.hub key = .ok after) ∧
      (∀ key asset raw, (∃ after, finalizeBuy s s.hub key asset raw = .ok after) ↔
        s.issuedRaw asset + raw < 2 ^ 256) ∧
      (∀ key, (∃ after, revertRedeem s s.hub key = .ok after) ↔
        ((s.tickets key).state = .redeeming →
          s.issuedRaw (s.tickets key).asset + (s.tickets key).raw < 2 ^ 256)) ∧
      (∀ key reviewed, (∃ after, finalizeRedeem s s.hub key reviewed = .ok after) ↔
        ((s.tickets key).state = .redeeming → reviewed = false →
          s.unreviewedUsd + (s.tickets key).usd < 2 ^ 256)) := by
  have balanced := reachable_balanced owner guardian s reached
  refine ⟨balanced.toExact, fun call failed => step_covered balanced call _ failed rfl,
    fun key => ?_, fun key => ?_, fun key asset raw => ?_, fun key => ?_, fun key reviewed => ?_⟩
  all_goals rw [← accepted_iff]
  · exact release_succeeds balanced.toExact _ key
  · exact markReviewed_succeeds balanced.toExact _ key
  · simpa using finalizeBuy_avoids balanced (fun _ => True) key asset raw
  · simpa using revertRedeem_avoids balanced (fun _ => True) key
  · simpa using finalizeRedeem_avoids balanced.toExact (fun _ => True) key reviewed

theorem capacity_sums_exact_reserved : Exact boundReserved ∧
    ∃ after, finalizeBuy boundReserved 3 0 7 5 = .ok after := by
  have exact := capacity_sums_exact 1 2 boundReserved
    (.next (.next .start bound_accepted) boundReserved_accepted)
  exact ⟨exact.1, (exact.2.2.2.2.1 0 7 5).mpr (by decide)⟩

/-- The documented guarantee stops at 256 bits: two issues of one asset whose raw amounts
do not fit together, the second of which is refused. -/
theorem finalizeBuy_overflows : ∃ s : State Nat, Reachable accepts (deployed 1 2) s ∧
    finalizeBuy s s.hub 1 7 1 = .error .overflow := by
  have issued : accepts bound ⟨3, 0, .finalizeBuy 0 7 (2 ^ 256 - 1)⟩
      (bound.recorded 7 (2 ^ 256 - 1)) := by
    simp [-bind_pure_comp, accepts, step, finalizeBuy, bind_ok, require_ok, add_ok, pure_ok,
      bound, deployed, Ticket.blank, State.recorded]
  refine ⟨_, .next (.next .start bound_accepted) issued, ?_⟩
  simp [finalizeBuy, require, add, State.recorded, bound, deployed, Bind.bind, Except.bind]

end Solonpad.Capacity
