import Solonpad.HubCalls

/-!
Which order a call of the hub is about. Every function of the settlement rules and the exits rewrites
one order, the entry points name it, and all other orders stay as they are.
-/

namespace Solonpad.Hub

open Checked Chain Messages

variable {c : Config} {s middle after : State} {env : Env} {id : Nat} {other k amount shares : Nat}
  {recipient underlying : Address} {r : Result} {canonical changed : Bool} {mode : DeliverMode}

/-- No order but one is rewritten. -/
def Elsewhere (id : Nat) (s after : State) : Prop := ∀ other, other ≠ id → after.orders other = s.orders other

theorem Elsewhere.refl (id : Nat) (s : State) : Elsewhere id s s := fun _ _ => rfl

theorem Elsewhere.same (orders : after.orders = s.orders) : Elsewhere id s after :=
  fun other _ => congrFun orders other

theorem Elsewhere.trans (first : Elsewhere id s middle) (second : Elsewhere id middle after) :
    Elsewhere id s after := fun other different => (second other different).trans (first other different)

theorem Elsewhere.update {next : Order} (orders : after.orders = Function.update s.orders id next) :
    Elsewhere id s after := by
  intro other different
  rw [orders, Function.update_of_ne different]

theorem set_other (s : State) (o : Order) (different : other ≠ id) :
    (s.set id o).orders other = s.orders other := Function.update_of_ne different ..

theorem pay_other (s : State) (env : Env) (k : Nat) (recipient : Address) (amount : Nat) (fromFloat : Bool)
    (different : other ≠ id) : (pay c s env k id recipient amount fromFloat).orders other = s.orders other := by
  obtain ⟨balance, debt, watch, paid, _⟩ := pay_spec (c := c) s env k id recipient amount fromFloat
  rw [paid]
  exact Function.update_of_ne different ..

theorem mark_other (s : State) (now : Nat) (ref : Ref) (canonical : Bool) (different : other ≠ id) :
    (markSettled s now id ref canonical).orders other = s.orders other := by
  obtain ⟨settled, watch, reconciled, same, _⟩ := markSettled_spec s now id ref canonical
  rw [same]
  exact Function.update_of_ne different ..

theorem transfer_orders (done : transfer c s env k recipient amount = .ok after) : after.orders = s.orders := by
  obtain ⟨balance, rfl, _⟩ := transfer_ok _ _ _ _ _ _ done
  rfl

/-! The settlement rules. -/

theorem flushHeld_elsewhere (done : flushHeld c s env k id = .ok after) : Elsewhere id s after := by
  simp only [flushHeld, ite_ok, bind_ok, pure_ok, unescrow_ok] at done
  intro other different
  rcases done with ⟨_, rfl⟩ | ⟨_, _, ⟨_, rfl⟩, rfl⟩
  · rfl
  · simp only [pay_other _ _ _ _ _ _ different, set_other _ _ different]

theorem payHeldProceeds_elsewhere (done : payHeldProceeds c s env id = .ok after) : Elsewhere id s after := by
  simp only [payHeldProceeds, ite_ok, bind_ok, pure_ok, unescrow_ok, removeOpen_ok] at done
  intro other different
  rcases done with ⟨_, rfl⟩ | ⟨_, _, ⟨_, rfl⟩, _, ⟨opened, _, rfl⟩, rfl⟩
  · rfl
  · simp only [pay_other _ _ _ _ _ _ different, set_other _ _ different, State.accrue]

theorem closeReturnedBuy_elsewhere {force : Bool} (done : closeReturnedBuy c s env id force = .ok after) :
    Elsewhere id s after := by
  simp only [closeReturnedBuy, ite_ok, bind_ok, pure_ok, unescrow_ok, removeOpen_ok, sub_ok] at done
  intro other different
  rcases done with ⟨_, rfl⟩ | ⟨_, ⟨_, rfl⟩ | ⟨_, _, ⟨opened, _, rfl⟩,
    ⟨_, _, ⟨_, rfl⟩, rfl⟩ | ⟨_, _, _, _, ⟨_, rfl⟩, ⟨_, rfl⟩ | ⟨_, rfl⟩⟩⟩⟩
  · rfl
  · rfl
  all_goals simp only [pay_other _ _ _ _ _ _ different, set_other _ _ different]

theorem refundBuy_elsewhere (done : refundBuy c s env id = .ok after) : Elsewhere id s after := by
  simp only [refundBuy, ite_ok, bind_ok, pure_ok, unescrow_ok, removeOpen_ok] at done
  intro other different
  obtain ⟨_, ⟨opened, _, rfl⟩, _, ⟨_, rfl⟩, ⟨_, rfl⟩ | ⟨_, rfl⟩⟩ := done
  all_goals simp only [pay_other _ _ _ _ _ _ different, State.escrow, set_other _ _ different]

theorem requestCancel_elsewhere (done : Settlement.requestCancel c s env id = .ok after) : Elsewhere id s after := by
  simp only [Settlement.requestCancel, ite_ok, bind_ok, pure_ok, unescrow_ok, removeOpen_ok] at done
  intro other different
  rcases done with ⟨_, _, ⟨opened, _, rfl⟩, _, ⟨_, rfl⟩, rfl⟩ | ⟨_, rfl⟩
  all_goals simp only [pay_other _ _ _ _ _ _ different, set_other _ _ different]

theorem cancelBuy_elsewhere (done : cancelBuy c s env id = .ok after) : Elsewhere id s after := by
  simp only [cancelBuy, ite_ok, bind_ok, require_ok] at done
  obtain ⟨_, _, _, _, ⟨_, _, _, refunded⟩ | ⟨_, _, _, _, _, requested⟩⟩ := done
  · exact refundBuy_elsewhere refunded
  · exact requestCancel_elsewhere requested

theorem launch_elsewhere {routeFee dust : Nat} {launched : Bool}
    (done : Settlement.launch c s env id routeFee dust = .ok (after, launched)) : Elsewhere id s after := by
  simp only [Settlement.launch, ite_ok, bind_ok, require_ok, pure_ok, unescrow_ok, onCapacity_ok,
    Prod.mk.injEq] at done
  obtain ⟨_, _, fits, _, ⟨_, ⟨_, _, refunded, rfl, _⟩ | ⟨_, rfl, _⟩⟩ |
    ⟨_, _, reserved, _, ⟨_, _, rfl⟩, _, ⟨_, rfl⟩, _, _, rfl, _⟩⟩ := done
  · exact refundBuy_elsewhere refunded
  · exact .refl _ _
  · intro other different
    simp only [State.deposit, set_other _ _ different]
    rcases reserved with ⟨_, _, _, rfl⟩ | ⟨_, rfl⟩ <;> rfl

theorem credited_elsewhere (o : Order) (amount : Nat) : Elsewhere id s ((s.set id o).escrow amount) :=
  .update rfl

theorem receiveReturn_elsewhere (done : Settlement.receiveReturn c s env id amount = .ok after) :
    Elsewhere id s after := by
  simp only [Settlement.receiveReturn, ite_ok, pure_ok] at done
  rcases done with ⟨_, rfl⟩ | ⟨_, ⟨_, ⟨_, closed⟩ | ⟨_, ⟨_, paid⟩ | ⟨_, rfl⟩⟩⟩ | ⟨_, rfl⟩⟩
  · exact .refl _ _
  · exact (credited_elsewhere _ _).trans (closeReturnedBuy_elsewhere closed)
  · exact (credited_elsewhere _ _).trans (payHeldProceeds_elsewhere paid)
  · exact credited_elsewhere _ _
  · exact fun other different => pay_other _ _ _ _ _ _ different

theorem subsidize_elsewhere (done : Settlement.subsidize c s env id amount = .ok after) : Elsewhere id s after := by
  simp only [Settlement.subsidize, ite_ok, pure_ok] at done
  rcases done with ⟨_, closed⟩ | ⟨_, rfl⟩
  · exact (credited_elsewhere _ _).trans (closeReturnedBuy_elsewhere closed)
  · exact credited_elsewhere _ _

theorem takeReward_elsewhere {key : CapKey} {status raw refund : Nat}
    (done : takeReward c s env key = .ok (after, status, raw, refund)) : Elsewhere (s.rewardOrder key - 1) s after := by
  simp only [takeReward, ite_ok, bind_ok, pure_ok, require_ok, onArc_ok, unescrow_ok, Prod.mk.injEq] at done
  obtain ⟨_, _, _, _, ⟨_, _, ⟨_, _, rfl⟩, rfl, _⟩ | ⟨_, ⟨_, _, ⟨_, rfl⟩, _, sent, rfl, _⟩ | ⟨_, rfl, _⟩⟩⟩ := done
  · exact .update rfl
  · exact .trans (.update rfl) (.same (transfer_orders sent))
  · exact .refl _ _

theorem claimPay_elsewhere (done : claimPay c s env id recipient = .ok after) : Elsewhere id s after := by
  simp only [claimPay, bind_ok, require_ok, sub_ok] at done
  obtain ⟨_, _, _, _, sent⟩ := done
  exact .trans (.update rfl) (.same (transfer_orders sent))

theorem voidClaimable_elsewhere (done : Settlement.voidClaimable s id amount = .ok after) : Elsewhere id s after := by
  simp only [Settlement.voidClaimable, bind_ok, require_ok, sub_ok, pure_ok] at done
  obtain ⟨_, _, _, _, rfl⟩ := done
  exact .update rfl

/-! Results. -/

theorem issue_orders {o : Order} (done : issue c s env o recipient r canonical = .ok after) :
    after.orders = s.orders := by
  obtain ⟨watch, token, booked, reviewed, _, _, _, rfl⟩ := issue_ok _ _ _ _ _ _ _ done
  rfl

theorem settleBought_elsewhere (done : settleBought c s env id r canonical = .ok (after, changed)) :
    Elsewhere id s after := by
  simp only [settleBought, ite_ok, bind_ok, pure_ok, unescrow_ok, removeOpen_ok, Prod.mk.injEq] at done
  rcases done with ⟨_, rfl, _⟩ | ⟨_, ⟨_, _, issued, rfl, _⟩ | ⟨_, ⟨_, rfl, _⟩ | ⟨_, _, issued, _, ⟨_, rfl⟩,
    _, ⟨_, rfl⟩, _, flushed, _, ⟨opened, _, rfl⟩, rfl, _⟩⟩⟩
  · exact .refl _ _
  · intro other different
    simp only [mark_other _ _ _ _ different, set_other _ _ different, issue_orders issued]
  · exact .refl _ _
  · intro other different
    have flushed := flushHeld_elsewhere flushed other different
    simp only [mark_other _ _ _ _ different, flushed, pay_other _ _ _ _ _ _ different, State.accrue,
      set_other _ _ different, issue_orders issued]

theorem settleSold_elsewhere (done : settleSold c s env id r canonical = .ok (after, changed)) :
    Elsewhere id s after := by
  simp only [settleSold, ite_ok, bind_ok, pure_ok, unescrow_ok, removeOpen_ok, onCapacity_ok, sub_ok,
    Prod.mk.injEq] at done
  rcases done with ⟨_, rfl, _⟩ | ⟨_, ⟨_, rfl, _⟩ | ⟨_, _, _, _, ⟨_, _, rfl⟩, ⟨_, _, ⟨opened, _, rfl⟩, _,
    flushed, rfl, _⟩ | ⟨_, ⟨_, _, paid, rfl, _⟩ | ⟨_, ⟨_, _, ⟨_, rfl⟩, _, ⟨opened, _, rfl⟩, rfl, _⟩ |
    ⟨_, rfl, _⟩⟩⟩⟩⟩
  · exact .refl _ _
  · exact .refl _ _
  all_goals intro other different
  · have flushed := flushHeld_elsewhere flushed other different
    simp only [flushed, set_other _ _ different, mark_other _ _ _ _ different]
  · have paid := payHeldProceeds_elsewhere paid other different
    simp only [paid, set_other _ _ different, mark_other _ _ _ _ different]
  · simp only [pay_other _ _ _ _ _ _ different, State.accrue, set_other _ _ different,
      mark_other _ _ _ _ different]
  · simp only [set_other _ _ different, mark_other _ _ _ _ different]

theorem settleFailed_elsewhere (done : settleFailed c s env id r canonical = .ok (after, changed)) :
    Elsewhere id s after := by
  simp only [settleFailed, ite_ok, bind_ok, pure_ok, removeOpen_ok, onCapacity_ok, onArc_ok,
    Prod.mk.injEq] at done
  rcases done with ⟨_, rfl, _⟩ | ⟨_, ⟨_, _, ⟨_, _, rfl⟩, ⟨_, rfl, _⟩ | ⟨_, _, closed, rfl, _⟩⟩ |
    ⟨_, _, ⟨opened, _, rfl⟩, _, ⟨_, _, rfl⟩, _, ⟨_, _, rfl⟩, _, flushed, rfl, _⟩⟩
  · exact .refl _ _
  all_goals intro other different
  · simp only [set_other _ _ different, mark_other _ _ _ _ different]
  · have closed := closeReturnedBuy_elsewhere closed other different
    simp only [closed, set_other _ _ different, mark_other _ _ _ _ different]
  · have flushed := flushHeld_elsewhere flushed other different
    simp only [flushed, set_other _ _ different, mark_other _ _ _ _ different]

theorem settle_elsewhere (done : settle c s env id r canonical = .ok (after, changed)) : Elsewhere id s after := by
  unfold settle at done
  split at done
  · exact settleBought_elsewhere done
  · exact settleSold_elsewhere done
  · exact settleFailed_elsewhere done

theorem review_elsewhere (done : review c s id r = .ok after) : Elsewhere id s after := by
  simp only [review, ite_ok, onCapacity_ok, pure_ok] at done
  rcases done with ⟨_, _, _, rfl⟩ | ⟨_, rfl⟩
  · exact .same rfl
  · exact .update rfl

/-! The exits and the messages to the vault. -/

theorem dispatchOrder_elsewhere {value : Nat} {refundTo : Address} {void : Bool}
    (done : dispatchOrder c s env id value refundTo void = .ok after) : Elsewhere id s after := by
  obtain ⟨balance, at_, rfl, _⟩ := dispatchOrder_ok _ _ _ _ _ _ _ done
  exact .update rfl

theorem dispatchFromReserve_elsewhere (done : dispatchFromReserve c s env id = .ok after) : Elsewhere id s after := by
  simp only [dispatchFromReserve, bind_ok, require_ok, unescrow_ok] at done
  obtain ⟨_, _, _, ⟨_, rfl⟩, sent⟩ := done
  exact .trans (.update rfl) (dispatchOrder_elsewhere sent)

theorem sendDeliver_orders {paid : Nat}
    (done : sendDeliver c s env k underlying shares recipient mode paid = .ok after) : after.orders = s.orders := by
  obtain ⟨balance, rfl, _⟩ := sendDeliver_ok _ _ _ _ _ _ _ _ _ done
  rfl

theorem exitPay_other (s : State) (env : Env) (recipient : Address) (amount : Nat) (different : other ≠ id) :
    (Exits.pay c s env id recipient amount).orders other = s.orders other := by
  obtain ⟨balance, debt, paid, _⟩ := exitPay_spec (c := c) s env id recipient amount
  rw [paid]
  exact Function.update_of_ne different ..

theorem escalate_elsewhere (done : Exits.escalate c s env id recipient = .ok after) : Elsewhere id s after := by
  simp only [Exits.escalate, bind_ok, require_ok, removeOpen_ok] at done
  obtain ⟨_, _, _, _, _, _, _, _, _, ⟨opened, _, rfl⟩, sent⟩ := done
  exact .trans (.update rfl) (.same (sendDeliver_orders sent))

theorem escalateAnswered_elsewhere (done : escalateAnswered c s env id recipient = .ok after) :
    Elsewhere id s after := by
  simp only [escalateAnswered, bind_ok, require_ok, removeOpen_ok, ite_ok, unescrow_ok] at done
  obtain ⟨_, _, _, _, _, ⟨opened, _, rfl⟩, ⟨_, _, ⟨_, rfl⟩, sent⟩ | ⟨_, _, ⟨_, rfl⟩, _, _, sent⟩⟩ := done
  all_goals
    intro other different
    simp only [sendDeliver_orders sent, exitPay_other _ _ _ _ different, State.accrue, set_other _ _ different]

theorem escalateFunds_elsewhere (done : Exits.escalateFunds c s env id recipient = .ok after) :
    Elsewhere id s after := by
  simp only [Exits.escalateFunds, bind_ok, require_ok, ite_ok] at done
  obtain ⟨_, _, _, _, ⟨_, _, _, sent⟩ | ⟨_, answered⟩⟩ := done
  · exact .trans (.update rfl) (.same (sendDeliver_orders sent))
  · exact escalateAnswered_elsewhere answered

theorem checkVoid_elsewhere {operator : Bool} {paid lzFee : Nat}
    (done : checkVoid s id operator paid lzFee = .ok after) : Elsewhere id s after := by
  simp only [checkVoid, bind_ok, require_ok, ite_ok, pure_ok, unescrow_ok] at done
  obtain ⟨_, _, ⟨_, rfl⟩ | ⟨_, _, _, _, _, _, rfl⟩⟩ := done
  · exact .refl _ _
  · exact .update rfl

theorem cancelReward_elsewhere (done : Exits.cancelReward c s env id = .ok after) : Elsewhere id s after := by
  simp only [Exits.cancelReward, bind_ok, require_ok, onCapacity_ok] at done
  obtain ⟨_, _, _, refunded, _, _, rfl⟩ := done
  exact (refundBuy_elsewhere refunded).trans (.same rfl)

/-! Placing. -/

theorem place_other (s : State) (env : Env) (user underlying : Address) (kind : Kind) (status : Status)
    (amountIn minOut fee : Nat) (different : other ≠ s.orderCount) :
    (place s env user underlying kind status amountIn minOut fee).orders other = s.orders other :=
  Function.update_of_ne different ..

theorem placeBuy_elsewhere {user : Address} {usdcIn minShares extra lane fee : Nat} {placed : Placed}
    (done : placeBuy s env user underlying usdcIn minShares extra lane fee = .ok placed) :
    Elsewhere s.orderCount s placed.state := by
  simp only [placeBuy, bind_ok, ite_ok, pure_ok] at done
  obtain ⟨_, _, rfl⟩ := done
  intro other different
  simp only [State.escrow, set_other _ _ different, place_other _ _ _ _ _ _ _ _ _ different]

theorem beginReward_elsewhere {key : CapKey} {receiver : Address} {budget minRaw path : Nat}
    (done : beginReward s env key underlying budget minRaw receiver path = .ok after) :
    Elsewhere s.orderCount s after := by
  simp only [beginReward, bind_ok, require_ok, sub_ok, pure_ok] at done
  obtain ⟨_, _, _, _, _, _, _, bought, rfl⟩ := done
  intro other different
  simp only [set_other _ _ different, placeBuy_elsewhere bought other different]

theorem canonicalRedeem_elsewhere (done : Exits.canonicalRedeem c s env underlying shares recipient mode = .ok after) :
    Elsewhere s.orderCount s after := by
  simp only [Exits.canonicalRedeem, bind_ok, require_ok, sub_ok, ite_ok, pure_ok, onArc_ok, onCapacity_ok,
    removeOpen_ok] at done
  obtain ⟨_, _, _, _, _, ⟨_, _, rfl⟩, taxed, charged, _, _, _, _, _, ⟨_, _, rfl⟩, _, ⟨opened, _, rfl⟩, sent⟩ :=
    done
  intro other different
  rw [sendDeliver_orders sent]
  rcases charged with ⟨_, _, _, rfl⟩ | ⟨_, rfl⟩
  all_goals exact place_other _ _ _ _ _ _ _ _ _ different

theorem requestSell_elsewhere {minOut : Nat}
    (done : requestSell c s env underlying shares minOut = .ok after) : Elsewhere s.orderCount s after := by
  simp only [requestSell, bind_ok, require_ok, ite_ok, pure_ok, onArc_ok, onCapacity_ok] at done
  obtain ⟨_, _, _, _, _, ⟨_, _, rfl⟩, _, ⟨_, _, rfl⟩, ⟨_, sent⟩ | ⟨_, rfl⟩⟩ := done
  all_goals intro other different
  · rw [dispatchOrder_elsewhere sent other different]
    exact place_other _ _ _ _ _ _ _ _ _ different
  · exact place_other _ _ _ _ _ _ _ _ _ different

/-! The entry points. -/

theorem Elsewhere.deposited (done : Elsewhere id (s.deposit amount) after) :
    Elsewhere id s after := done

/-- The order a call is about; a call about none is about the next to be placed. -/
def Call.order (s : State) (call : Call) : Nat :=
  match call.action with
  | .launch id _ _ | .dispatch id | .cancel id | .escalate id _ | .escalateFunds id _ | .voidOrder id
  | .cancelReward id | .claim id | .receiveReturn id | .subsidize id | .voidClaimable id _ _ => id
  | .submitFundedBuy key | .requestCancel key | .claimResult key => s.rewardOrder key - 1
  | .lzReceive _ r | .reconcile r =>
    match r.ref with
    | .order id => id
    | .migration _ _ => s.orderCount
  | _ => s.orderCount

/-- A result is applied to the order its ref names. -/
theorem lzReceive_applies {srcEid : Nat} (done : lzReceive c s env srcEid r = .ok after) :
    ∃ id changed, r.ref = .order id ∧ id < s.orderCount ∧ settle c s env id r false = .ok (after, changed) := by
  simp only [lzReceive, orderId, known, bind_ok, require_ok, pure_ok, Prod.exists] at done
  obtain ⟨id, named, _, placed, _, _, final, changed, settled, rfl⟩ := done
  split at named
  · next same =>
    cases named
    exact ⟨id, changed, same, placed, settled⟩
  · cases named

theorem reconcile_applies {id : Nat} (named : r.ref = .order id) (done : reconcile c s env r = .ok after) :
    id < s.orderCount ∧
      ((s.orders id).lzSettled = true ∧ review c s id r = .ok after ∨
        (s.orders id).lzSettled ≠ true ∧ ∃ changed, settle c s env id r true = .ok (after, changed)) := by
  simp only [reconcile, known, bind_ok, require_ok, ite_ok, pure_ok, Prod.exists, named] at done
  obtain ⟨_, _, _, _, _, placed, reviewed | ⟨fresh, final, changed, settled, rfl⟩⟩ := done
  · exact ⟨placed, .inl reviewed⟩
  · exact ⟨placed, .inr ⟨fresh, changed, settled⟩⟩

theorem step_elsewhere {call : Call} (taken : step c s call = .ok after) : Elsewhere (call.order s) s after := by
  obtain ⟨env, action⟩ := call
  cases action with
  | requestBuy underlying usdcIn minSharesOut =>
    simp only [step, requestBuy, bind_ok, require_ok, pure_ok] at taken
    obtain ⟨_, _, _, _, _, _, _, _, placed, bought, _, _, rfl⟩ := taken
    exact (placeBuy_elsewhere bought).deposited
  | requestSell underlying sharesIn minUsdcOut => exact requestSell_elsewhere taken
  | launch id routeFee dust =>
    simp only [step, launch, known, bind_ok, require_ok, ite_ok, pure_ok, Prod.exists] at taken
    obtain ⟨_, _, _, _, _, _, _, _, middle, launched, first, ⟨_, sent⟩ | ⟨_, rfl⟩⟩ := taken
    · exact (launch_elsewhere first).trans (dispatchFromReserve_elsewhere sent)
    · exact launch_elsewhere first
  | dispatch id =>
    simp only [step, dispatch, known, bind_ok, require_ok] at taken
    obtain ⟨_, _, _, _, _, _, sent⟩ := taken
    exact (dispatchOrder_elsewhere sent).deposited
  | cancel id =>
    simp only [step, cancel, known, bind_ok, require_ok] at taken
    obtain ⟨_, _, done⟩ := taken
    exact cancelBuy_elsewhere done
  | escalate id recipient =>
    simp only [step, escalate, known, bind_ok, require_ok] at taken
    obtain ⟨_, _, done⟩ := taken
    exact (escalate_elsewhere done).deposited
  | escalateFunds id recipient =>
    simp only [step, escalateFunds, known, bind_ok, require_ok] at taken
    obtain ⟨_, _, done⟩ := taken
    exact (escalateFunds_elsewhere done).deposited
  | canonicalRedeem underlying sharesIn recipient mode =>
    simp only [step, canonicalRedeem, bind_ok] at taken
    obtain ⟨_, _, done⟩ := taken
    exact (canonicalRedeem_elsewhere done).deposited
  | voidOrder id =>
    simp only [step, voidOrder, known, bind_ok, require_ok] at taken
    obtain ⟨_, _, checked, done, sent⟩ := taken
    exact ((checkVoid_elsewhere done).trans (dispatchOrder_elsewhere sent)).deposited
  | cancelReward id =>
    simp only [step, cancelReward, known, bind_ok, require_ok] at taken
    obtain ⟨_, _, _, _, done⟩ := taken
    exact cancelReward_elsewhere done
  | claim id =>
    simp only [step, claim, known, bind_ok, require_ok] at taken
    obtain ⟨_, _, done⟩ := taken
    exact claimPay_elsewhere done
  | receiveReturn id =>
    simp only [step, receiveReturn, bind_ok, require_ok] at taken
    obtain ⟨_, _, done⟩ := taken
    exact (receiveReturn_elsewhere done).deposited
  | beginFunding orderId underlying budget18 minRawOut receiver path =>
    simp only [step, beginFunding, live, listed, bind_ok, require_ok] at taken
    obtain ⟨_, _, _, _, _, _, done⟩ := taken
    exact (beginReward_elsewhere done).deposited
  | submitFundedBuy orderId =>
    simp only [step, submitFundedBuy, rewardId, bind_ok, require_ok, pure_ok] at taken
    obtain ⟨_, _, id, ⟨_, _, rfl⟩, _, _, _, _, done⟩ := taken
    exact dispatchFromReserve_elsewhere done
  | requestCancel orderId =>
    simp only [step, requestCancel, rewardId, bind_ok, require_ok, pure_ok] at taken
    obtain ⟨id, ⟨_, _, rfl⟩, _, _, _, _, done⟩ := taken
    exact requestCancel_elsewhere done
  | claimResult orderId =>
    simp only [step, claimResult, bind_ok, pure_ok] at taken
    obtain ⟨result, done, rfl⟩ := taken
    exact takeReward_elsewhere done
  | subsidize id =>
    simp only [step, subsidize, known, bind_ok, require_ok] at taken
    obtain ⟨_, _, done⟩ := taken
    exact (subsidize_elsewhere done).deposited
  | lzReceive srcEid r =>
    obtain ⟨id, changed, named, _, settled⟩ := lzReceive_applies taken
    simp only [Call.order, named]
    exact settle_elsewhere settled
  | reconcile r =>
    cases named : r.ref with
    | order id =>
      simp only [Call.order, named]
      obtain ⟨_, ⟨_, reviewed⟩ | ⟨_, changed, settled⟩⟩ := reconcile_applies named taken
      · exact review_elsewhere reviewed
      · exact settle_elsewhere settled
    | migration underlying nonce =>
      simp only [step, reconcile, named, bind_ok, require_ok, migrationMint, onArc_ok, onCapacity_ok] at taken
      obtain ⟨_, _, _, _, _, _, _, _, _, _, _, ⟨_, _, rfl⟩, _, _, rfl⟩ := taken
      exact .same rfl
  | checkStale =>
    simp only [step, pure_ok] at taken
    obtain ⟨watch, same⟩ := checkStale_spec s env.now
    rw [same] at taken
    exact .same (taken ▸ rfl)
  | voidClaimable id amount evidence =>
    simp only [step, voidClaimable, known, bind_ok, require_ok] at taken
    obtain ⟨_, _, _, _, _, _, done⟩ := taken
    exact voidClaimable_elsewhere done
  | claimFees =>
    simp only [step, claimFees, send, bind_ok, require_ok, ite_ok, pure_ok] at taken
    obtain ⟨_, _, ⟨_, rfl⟩ | ⟨_, sent⟩⟩ := taken
    · exact .same rfl
    · have orders := transfer_orders sent
      exact .same orders
  | fundFloat =>
    simp only [step, pure_ok] at taken
    exact .same (taken ▸ rfl)
  | withdrawFloat recipient amount =>
    simp only [step, withdrawFloat, send, bind_ok, require_ok, ite_ok, pure_ok] at taken
    obtain ⟨_, _, _, _, _, _, ⟨_, rfl⟩ | ⟨_, sent⟩⟩ := taken
    · exact .same rfl
    · exact .same (transfer_orders sent)
  | transferArc underlying holder receiver amount =>
    simp only [step, onArc_ok] at taken
    obtain ⟨token, _, rfl⟩ := taken
    exact .same rfl
  | capacity action =>
    simp only [step, bind_ok, require_ok, onCapacity_ok] at taken
    obtain ⟨_, _, capacity, _, rfl⟩ := taken
    exact .same rfl
  | setMintLimitBps | setPayLimit | setKeeper | setGuardian | setRewardAdapter | setFloatEnabled
  | resumeMints | haltMints =>
    simp only [step, setMintLimitBps, setPayLimit, setKeeper, setGuardian, setRewardAdapter,
      setFloatEnabled, resumeMints, haltMints, ownerOnly, bind_ok, require_ok, pure_ok] at taken
    obtain ⟨_, _, rfl⟩ := taken
    exact .same rfl
  | setTreasury | setEnabled | setMintFloor | pause | unpause | lowerFees =>
    simp only [step, setTreasury, setEnabled, setMintFloor, pause, unpause, lowerFees, State.setListing, listed,
      ownerOnly, bind_ok, require_ok, pure_ok] at taken
    obtain ⟨_, _, _, _, rfl⟩ := taken
    exact .same rfl
  | setCanonicalGate | listStock | proposeRoute | executeRoute =>
    simp only [step, setCanonicalGate, listStock, proposeRoute, executeRoute, State.setListing,
      listed, ownerOnly, bind_ok, require_ok, pure_ok] at taken
    obtain ⟨_, _, _, _, _, _, rfl⟩ := taken
    exact .same rfl

end Solonpad.Hub
