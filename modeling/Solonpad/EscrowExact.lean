import Solonpad.HubFaults

/-!
The escrow ledger over whole runs: both sums are exact in every reachable state, and there no call
can underflow. The capacity controller the hub holds stays exact as well, since the hub only
reaches it through the controller's own operations.
-/

namespace Solonpad.Hub

open Checked Chain Messages RunningTotal Transition
open Capacity (Underflow Balanced)

variable {c : Config} {p : Promises} {a : Action} {s : State}

/-! The capacity controller in the hub's state. -/

theorem deployed_capacity : Balanced (deployed c).capacity := by
  have balanced : Balanced (Capacity.deployed c.owner c.guardian : Capacity.State CapKey) :=
    Capacity.deployed_balanced c.owner c.guardian
  exact ⟨⟨balanced.inflight, balanced.inflightOf, balanced.redeeming, balanced.redeemingOf,
    balanced.issued, balanced.unreviewed, balanced.unreviewedReward⟩, balanced.regular,
    balanced.fits⟩

theorem move_capacity {after : State} (move : Move c p a s after) (balanced : Balanced s.capacity) :
    Balanced after.capacity := by
  cases move with
  | controls | funds | turned | floatPaid | placesBuy | placesReward | sends | delivers | marks
  | transfers => exact balanced
  | placesSell _ _ _ _ _ _ _ _ booked =>
    exact capacity_balanced balanced ⟨c.self, 0, .beginRedeem _ _ _⟩ booked
  | redeems _ _ _ _ _ _ _ _ _ _ _ booked =>
    exact capacity_balanced balanced ⟨c.self, 0, .beginRedeem _ _ _⟩ booked
  | launches id _ _ reserved _ _ _ _ _ _ _ _ publicLane rewardLane sent =>
    have middle : Balanced reserved := by
      by_cases lane : (s.orders id).lane = 0
      · exact capacity_balanced balanced ⟨c.self, 0, .reservePublicFor _ _ _⟩ (publicLane lane)
      · exact rewardLane lane ▸ balanced
    exact capacity_balanced middle ⟨c.self, 0, .markSent _⟩ sent
  | bought _ _ _ _ _ _ _ _ _ _ _ _ _ _ _ _ _ _ booked =>
    exact capacity_balanced balanced ⟨c.self, 0, .finalizeBuy _ _ _⟩ booked
  | sold _ _ _ _ _ _ _ _ _ _ _ _ _ _ _ _ booked =>
    exact capacity_balanced balanced ⟨c.self, 0, .finalizeRedeem _ _⟩ booked
  | buyFailed _ _ _ _ _ _ _ _ _ _ _ _ _ _ booked =>
    exact capacity_balanced balanced ⟨c.self, 0, .release _⟩ booked
  | sellFailed _ _ _ _ _ _ _ _ _ _ _ _ _ _ _ _ _ booked =>
    exact capacity_balanced balanced ⟨c.self, 0, .revertRedeem _⟩ booked
  | withdrawn _ _ _ _ _ _ _ _ _ _ _ booked =>
    exact capacity_balanced balanced ⟨c.self, 0, .releaseUnsent _⟩ booked
  | migrated _ _ _ _ _ _ _ _ _ _ _ _ booked =>
    exact capacity_balanced balanced ⟨c.self, 0, .finalizeBuy _ _ _⟩ booked
  | reviews _ _ booked => exact capacity_balanced balanced ⟨c.self, 0, .markReviewed _⟩ booked
  | outside call _ _ booked => exact capacity_balanced balanced call booked

theorem Moves.capacity {after : State} (balanced : Balanced s.capacity) (moves : Moves c p a s after) :
    Balanced after.capacity := by
  induction moves with
  | refl => exact balanced
  | tail _ move ih => exact move_capacity move ih

theorem reachable_capacity (reached : Reachable (accepts c) (deployed c) s) : Balanced s.capacity := by
  induction reached with
  | start => exact deployed_capacity
  | next earlier taken ih =>
    exact (step_moves _ _ _ (reachable_regular earlier) taken).capacity ih

/-! The entry points. -/

/-- What a call finds in a reachable state. -/
structure Sound (s : State) : Prop where
  regular : Regular s
  ledger : Ledger s
  balanced : Balanced s.capacity

theorem Sound.held (sound : Sound s) (id : Nat) :
    (s.orders id).inEscrow ≤ s.money.escrowed := sound.ledger.escrowed.entry_le id

theorem Sound.owed (sound : Sound s) (id : Nat) :
    (s.orders id).owed ≤ s.money.claimableTotal := sound.ledger.claims.entry_le id

theorem requestBuy_clear (sound : Sound s) (env : Env) (underlying : Address) (usdcIn minSharesOut : Nat) :
    Clear (requestBuy s env underlying usdcIn minSharesOut) := by
  simp only [requestBuy, live, listed, bind_assoc, require_clear]
  intro _ _ _ _ _
  rw [bind_clear]
  refine ⟨placeBuy_clear _ _ _ _ _ _ _ _ ?_, fun placed _ => ?_⟩
  · exact ⟨sound.regular.fresh, sound.regular.rewards, sound.regular.laned, sound.regular.buyFee,
      sound.regular.sellFee, sound.regular.orders, sound.regular.sent⟩
  · rw [bind_clear, Capacity.checkRun]
    exact ⟨by simp [require_clear, demand_clear], fun _ _ => pure_clear _⟩

theorem requestSell_clear (sound : Sound s) (env : Env) (underlying : Address) (sharesIn minUsdcOut : Nat) :
    Clear (requestSell c s env underlying sharesIn minUsdcOut) := by
  simp only [requestSell, listed, require_clear]
  intro _ _
  rw [onArc_clear _ _ _ _ (burn_clear _ _)]
  intro token _
  rw [onCapacity_clear _ _ _ (capacity_clear sound.balanced ⟨c.self, 0, .beginRedeem _ _ _⟩)]
  simp only [ite_clear, dispatchOrder_clear, pure_clear, implies_true, and_self]

theorem launch_entry_clear (sound : Sound s) (env : Env) (id routeFee dust : Nat) :
    Clear (launch c s env id routeFee dust) := by
  simp only [launch, known, require_clear, not_or, not_not]
  rintro _ _ placed ⟨pending, buy⟩
  rw [bind_clear]
  refine ⟨launch_clear s id routeFee dust buy pending sound.balanced (sound.held id), ?_⟩
  rintro ⟨middle, launched⟩ first
  simp only [ite_clear, pure_clear, implies_true, and_true]
  intro _
  -- the launch keeps the ledger, so the reserve it left is still covered
  have moves := (launch_moves (c := c) (p := ⟨True, False, False⟩) (a := .pause) s middle env id
    routeFee dust launched placed buy pending first).1
  have ledger := moves.ledger trivial sound.regular sound.ledger
  exact dispatchFromReserve_clear middle id (ledger.escrowed.entry_le id)

theorem beginFunding_clear (sound : Sound s) (env : Env) (orderId : CapKey) (underlying : Address)
    (budget18 minRawOut : Nat) (receiver : Address) (path : Nat) :
    Clear (beginFunding s env orderId underlying budget18 minRawOut receiver path) := by
  simp only [beginFunding, beginReward, live, listed, bind_assoc, require_clear, sub_clear, not_or,
    not_not, not_lt]
  rintro _ _ _ _ ⟨_, _, _, _, _, _, _, brought⟩
  refine ⟨brought, fun _ _ => ?_⟩
  rw [bind_clear]
  refine ⟨placeBuy_clear _ _ _ _ _ _ _ _ ?_, fun placed _ => pure_clear _⟩
  exact ⟨sound.regular.fresh, sound.regular.rewards, sound.regular.laned, sound.regular.buyFee,
    sound.regular.sellFee, sound.regular.orders, sound.regular.sent⟩

theorem voidOrder_clear (sound : Sound s) (env : Env) (id : Nat) : Clear (voidOrder c s env id) := by
  simp only [voidOrder, known, require_clear]
  intro _
  rw [bind_clear]
  exact ⟨checkVoid_clear _ id _ _ _ (sound.held id), fun _ _ => dispatchOrder_clear _ _ _ _ _⟩

theorem lzReceive_clear (sound : Sound s) (env : Env) (srcEid : Nat) (r : Result) :
    Clear (lzReceive c s env srcEid r) := by
  rw [lzReceive, bind_clear]
  constructor
  · intro fault failed
    unfold orderId at failed
    split at failed
    · cases failed
    · cases failed
      simp [Underflow]
  · intro id _
    simp only [known, require_clear]
    intro _ _
    rw [bind_clear]
    exact ⟨settle_clear s id r false (sound.regular.orders id) sound.balanced (sound.held id),
      fun _ _ => pure_clear _⟩

theorem reconcile_clear (sound : Sound s) (env : Env) (r : Result) : Clear (reconcile c s env r) := by
  simp only [reconcile, require_clear]
  intro _ _
  cases r.ref with
  | migration underlying nonce => exact migrationMint_clear _ r sound.balanced
  | order id =>
    simp only [known, require_clear, ite_clear]
    intro _
    refine ⟨fun _ => review_clear s id r sound.balanced, fun _ => ?_⟩
    rw [bind_clear]
    exact ⟨settle_clear s id r true (sound.regular.orders id) sound.balanced (sound.held id),
      fun _ _ => pure_clear _⟩

theorem send_clear (s : State) (env : Env) (recipient : Address) (amount : Nat) :
    Clear (send c s env recipient amount) := by
  rw [send, ite_clear]
  exact ⟨fun _ => pure_clear _, fun _ => sends_clear _ _ _ _⟩

/-- In a sound state no call underflows. -/
theorem step_clear (sound : Sound s) (call : Call) : Clear (step c s call) := by
  obtain ⟨env, action⟩ := call
  have held := sound.held
  cases action with
  | requestBuy underlying usdcIn minSharesOut =>
    exact requestBuy_clear sound env underlying usdcIn minSharesOut
  | requestSell underlying sharesIn minUsdcOut =>
    exact requestSell_clear sound env underlying sharesIn minUsdcOut
  | launch id routeFee dust => exact launch_entry_clear sound env id routeFee dust
  | dispatch id =>
    simp only [step, dispatch, known, require_clear, dispatchOrder_clear, implies_true]
  | cancel id =>
    simp only [step, cancel, known, require_clear]
    exact fun _ => cancelBuy_clear s id (held id)
  | escalate id recipient =>
    simp only [step, escalate, known, require_clear, escalate_clear, implies_true]
  | escalateFunds id recipient =>
    simp only [step, escalateFunds, known, require_clear]
    exact fun _ => escalateFunds_clear _ id recipient (sound.regular.orders id) (held id)
  | canonicalRedeem underlying sharesIn recipient mode =>
    simp only [step, canonicalRedeem, listed, require_clear]
    refine fun _ => canonicalRedeem_clear _ _ _ _ _ ?_ sound.balanced
    exact ⟨sound.regular.fresh, sound.regular.rewards, sound.regular.laned, sound.regular.buyFee,
      sound.regular.sellFee, sound.regular.orders, sound.regular.sent⟩
  | voidOrder id => exact voidOrder_clear sound env id
  | cancelReward id =>
    simp only [step, cancelReward, known, require_clear]
    exact fun _ _ => cancelReward_clear s id (sound.regular.orders id) sound.balanced (held id)
  | claim id =>
    simp only [step, claim, known, require_clear]
    exact fun _ => claimPay_clear s id _ (sound.owed id)
  | receiveReturn id =>
    simp only [step, receiveReturn, require_clear]
    exact fun _ => receiveReturn_clear s id _ (sound.regular.orders id) (held id)
  | beginFunding orderId underlying budget18 minRawOut receiver path =>
    exact beginFunding_clear sound env orderId underlying budget18 minRawOut receiver path
  | submitFundedBuy orderId =>
    simp only [step, submitFundedBuy, rewardId, bind_assoc, pure_bind, require_clear]
    exact fun _ _ _ _ => dispatchFromReserve_clear s _ (held _)
  | requestCancel orderId =>
    simp only [step, requestCancel, rewardId, bind_assoc, pure_bind, require_clear]
    intro known _ _
    have buy := (sound.regular.orders _).reward (sound.regular.laned orderId known)
    exact requestCancel_clear s _ buy (held _)
  | claimResult orderId =>
    simp only [step, claimResult]
    rw [bind_clear]
    exact ⟨takeReward_clear s orderId held, fun _ _ => pure_clear _⟩
  | subsidize id =>
    simp only [step, subsidize, known, require_clear]
    exact fun _ => subsidize_clear s id _ (sound.regular.orders id) (held id)
  | lzReceive srcEid r => exact lzReceive_clear sound env srcEid r
  | reconcile r => exact reconcile_clear sound env r
  | voidClaimable id amount evidence =>
    simp only [step, voidClaimable, ownerOnly, known, require_clear]
    exact fun _ _ _ => voidClaimable_clear s id amount (sound.owed id)
  | transferArc underlying holder receiver amount =>
    exact onArc_ends s underlying _ (transfer_clear _ _ _)
  | capacity action =>
    simp only [step, require_clear]
    exact fun _ => onCapacity_ends s _ (capacity_clear sound.balanced _)
  | checkStale | fundFloat => exact pure_clear _
  | claimFees | withdrawFloat =>
    simp only [step, claimFees, withdrawFloat, require_clear, send_clear, implies_true]
  | setGuardian | setKeeper | setMintLimitBps | setPayLimit | setRewardAdapter | setFloatEnabled
  | resumeMints | haltMints | setTreasury | setEnabled | setMintFloor | pause | unpause
  | setCanonicalGate | listStock | proposeRoute | executeRoute | lowerFees =>
    simp only [step, setGuardian, setKeeper, setMintLimitBps, setPayLimit, setRewardAdapter,
      setFloatEnabled, resumeMints, haltMints, setTreasury, setEnabled, setMintFloor, pause, unpause,
      setCanonicalGate, listStock, proposeRoute, executeRoute, lowerFees, listed, ownerOnly,
      require_clear, pure_clear, implies_true]

/-- The escrow is the sum of what the orders hold in it, the claims the sum of what they are owed,
and no call underflows. -/
theorem escrow_exact (c : Config) (s : State)
    (reached : Reachable (restrict (accepts c) Told) (deployed c) s) :
    Totals (fun id => (s.orders id).inEscrow) s.money.escrowed ∧
      Totals (fun id => (s.orders id).owed) s.money.claimableTotal ∧
      ∀ call, step c s call ≠ .error .underflow := by
  have ledger := reachable_ledger reached
  have sound : Sound s := ⟨reachable_regular reached.unrestricted, ledger,
    reachable_capacity reached.unrestricted⟩
  exact ⟨ledger.escrowed, ledger.claims, fun call failed => step_clear sound call _ failed rfl⟩

/-- A queued buy, with its fee and a reserve. -/
def queuedBuy : List Call :=
  [by' 2 0 (.listStock 50 30 0 60 1),
    by' 10 (101 * 10 ^ 18) (.requestBuy 50 (10 ^ 20) 0)]

theorem escrow_exact_queued : ∃ s, Reachable (restrict (accepts sample) Told) (deployed sample) s ∧
    s.money.escrowed = 101 * 10 ^ 18 ∧
    Totals (fun id => (s.orders id).inEscrow) s.money.escrowed ∧
    step sample s (by' 10 0 (.claim 0)) ≠ .error .underflow := by
  obtain ⟨s, reached, passed⟩ := run_passes (step sample) Told queuedBuy
    (deployed sample) (fun s => decide (s.money.escrowed = 101 * 10 ^ 18)) (by decide)
  have exact := escrow_exact sample s reached
  exact ⟨s, reached, of_decide_eq_true passed, exact.1, exact.2.2 _⟩

end Solonpad.Hub
