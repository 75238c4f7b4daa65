import Solonpad.HubFrames

/-!
The hub's file: of every order how it was answered and the least it was placed for, the messages that went
to the vault, and what the reconciliation of fast results reads. Placing stamps a new order and a message is
added; else only results, proofs, the watch itself and its owner change any of it.
-/

namespace Solonpad.Hub

open Checked Chain Messages

variable {c : Config} {s middle after : State} {env : Env} {id : Nat} {k amount shares minOut : Nat}
  {recipient underlying : Address} {mode : DeliverMode} {call : Call} {canonical changed : Bool} {r : Result}
  {f : File} {now : Nat}

/-- How an order was answered, and the least it was placed for. -/
structure Stamp where
  lzSettled : Bool
  outcome : Option Outcome
  minOut : Nat

def Order.stamp (o : Order) : Stamp := ⟨o.lzSettled, o.outcome, o.minOut⟩

structure File where
  unreconciled : List Ref
  lzSettledAt : Ref → Nat
  mintsHalted : Bool
  resumedAt : Nat
  reconciled : Ref → Bool
  orderCount : Nat
  stamps : Nat → Stamp
  packets : List Messages.Order

def State.file (s : State) : File where
  unreconciled := s.watch.unreconciled
  lzSettledAt := s.watch.lzSettledAt
  mintsHalted := s.watch.mintsHalted
  resumedAt := s.watch.resumedAt
  reconciled := s.reconciled
  orderCount := s.orderCount
  stamps := fun id => (s.orders id).stamp
  packets := s.packets

def File.write (f : File) (id : Nat) (stamp : Stamp) : File :=
  { f with stamps := Function.update f.stamps id stamp }

def File.sends (f : File) (sent : List Messages.Order) : File := { f with packets := f.packets ++ sent }

/-- A ref settled through the fast lane. -/
def File.opens (f : File) (ref : Ref) (now : Nat) : File :=
  { f with lzSettledAt := Function.update f.lzSettledAt ref now, unreconciled := f.unreconciled ++ [ref] }

def File.prove (f : File) (ref : Ref) : File :=
  { f with reconciled := Function.update f.reconciled ref true }

@[simp] theorem File.write_self (f : File) (id : Nat) (stamp : Stamp) :
    (f.write id stamp).stamps id = stamp := Function.update_self ..

theorem File.write_other (f : File) (stamp : Stamp) {other : Nat} (different : other ≠ id) :
    (f.write id stamp).stamps other = f.stamps other := Function.update_of_ne different ..

theorem File.sends_none (f : File) : f.sends [] = f := by
  simp only [File.sends, List.append_nil]

@[simp] theorem File.opens_stamps (f : File) (ref : Ref) (now : Nat) : (f.opens ref now).stamps = f.stamps := rfl

@[simp] theorem File.write_write (f : File) (id : Nat) (first second : Stamp) :
    (f.write id first).write id second = f.write id second := by
  simp only [File.write, Function.update_idem]

@[simp] theorem File.write_stamp (s : State) (id : Nat) : s.file.write id (s.orders id).stamp = s.file := by
  have same : Function.update s.file.stamps id (s.orders id).stamp = s.file.stamps := Function.update_eq_self ..
  simp only [File.write, same]

/-! Primitives. -/

theorem file_set (s : State) (id : Nat) (o : Order) : (s.set id o).file = s.file.write id o.stamp := by
  simp only [State.file, State.set, File.write, File.mk.injEq, true_and, and_true]
  funext other
  by_cases same : other = id
  · rw [same, Function.update_self, Function.update_self]
  · rw [Function.update_of_ne same, Function.update_of_ne same]

/-- An order rewritten with its answer kept. -/
theorem file_rewrite (s : State) (id : Nat) (o : Order) (same : o.stamp = (s.orders id).stamp) :
    (s.set id o).file = s.file := by
  rw [file_set, same, File.write_stamp]

/-- The same after what else a call did. -/
theorem file_back {o : Order} (kept : middle.file = s.file) (same : o.stamp = (s.orders id).stamp) :
    (middle.set id o).file = s.file := by
  rw [file_set, kept, same, File.write_stamp]

theorem file_push (s : State) (env : Env) (k id : Nat) (recipient : Address) (amount : Nat) :
    (push c s env k id recipient amount).file = s.file := by
  unfold push
  split
  · unfold State.sent
    split <;> rfl
  · exact file_rewrite s id _ rfl

theorem file_pay (s : State) (env : Env) (k id : Nat) (recipient : Address) (amount : Nat) (fromFloat : Bool) :
    (pay c s env k id recipient amount fromFloat).file = s.file := by
  unfold pay
  split
  · rfl
  · dsimp only
    split
    · exact file_push ..
    · exact file_push ..

theorem file_exitPay (s : State) (env : Env) (id : Nat) (recipient : Address) (amount : Nat) :
    (Exits.pay c s env id recipient amount).file = s.file := by
  unfold Exits.pay
  split
  · rfl
  · exact file_push ..

theorem file_escrow (s : State) (amount : Nat) : (s.escrow amount).file = s.file := rfl

theorem file_accrue (s : State) (fee : Nat) : (s.accrue fee).file = s.file := rfl

theorem file_transfer (done : transfer c s env k recipient amount = .ok after) : after.file = s.file := by
  obtain ⟨balance, rfl, _⟩ := transfer_ok _ _ _ _ _ _ done
  rfl

theorem file_unescrow (done : s.unescrow amount = .ok after) : after.file = s.file := by
  obtain ⟨_, rfl⟩ := (unescrow_ok s after amount).mp done
  rfl

theorem file_removeOpen (done : removeOpen s id = .ok after) : after.file = s.file := by
  obtain ⟨opened, _, rfl⟩ := (removeOpen_ok s after id).mp done
  rfl

theorem file_onArc {call : Token → Tx Token} (done : s.onArc underlying call = .ok after) : after.file = s.file := by
  obtain ⟨token, _, rfl⟩ := (onArc_ok s after underlying call).mp done
  rfl

theorem file_onCapacity {call : Capacity.State CapKey → Tx (Capacity.State CapKey)}
    (done : s.onCapacity call = .ok after) : after.file = s.file := by
  obtain ⟨capacity, _, rfl⟩ := (onCapacity_ok s after call).mp done
  rfl

/-! The settlement rules. -/

theorem flushHeld_file (done : flushHeld c s env k id = .ok after) : after.file = s.file := by
  simp only [flushHeld, ite_ok, bind_ok, pure_ok] at done
  rcases done with ⟨_, rfl⟩ | ⟨_, held, freed, rfl⟩
  · rfl
  · rw [file_pay, file_unescrow freed, file_rewrite]
    rfl

theorem payHeldProceeds_file (done : payHeldProceeds c s env id = .ok after) : after.file = s.file := by
  simp only [payHeldProceeds, ite_ok, bind_ok, pure_ok] at done
  rcases done with ⟨_, rfl⟩ | ⟨_, held, freed, closed, removed, rfl⟩
  · rfl
  · rw [file_pay, file_removeOpen removed, file_rewrite _ _ _ (by rfl), file_accrue, file_unescrow freed,
      file_rewrite]
    rfl

theorem closeReturnedBuy_file {force : Bool} (done : closeReturnedBuy c s env id force = .ok after) :
    after.file = s.file := by
  simp only [closeReturnedBuy, ite_ok, bind_ok, pure_ok, sub_ok] at done
  rcases done with ⟨_, rfl⟩ | ⟨_, ⟨_, rfl⟩ | ⟨_, removed, closed,
    ⟨_, freed, pooled, rfl⟩ | ⟨_, _, _, freed, pooled, ⟨_, rfl⟩ | ⟨_, rfl⟩⟩⟩⟩
  · rfl
  · rfl
  · rw [file_pay, file_unescrow pooled, file_rewrite _ _ _ (by rfl), file_removeOpen closed, file_rewrite]
    rfl
  · rw [file_pay, file_unescrow pooled, file_rewrite _ _ _ (by rfl), file_rewrite _ _ _ (by rfl),
      file_removeOpen closed, file_rewrite]
    rfl
  · rw [file_unescrow pooled, file_rewrite _ _ _ (by rfl), file_rewrite _ _ _ (by rfl),
      file_removeOpen closed, file_rewrite]
    rfl

theorem refundBuy_file (done : refundBuy c s env id = .ok after) : after.file = s.file := by
  simp only [refundBuy, ite_ok, bind_ok, pure_ok] at done
  obtain ⟨removed, closed, freed, pooled, ⟨_, rfl⟩ | ⟨_, rfl⟩⟩ := done
  · rw [file_pay, file_escrow, file_rewrite _ _ _ (by rfl), file_unescrow pooled, file_rewrite _ _ _ (by rfl),
      file_removeOpen closed, file_rewrite]
    rfl
  · rw [file_pay, file_unescrow pooled, file_rewrite _ _ _ (by rfl), file_removeOpen closed, file_rewrite]
    rfl

theorem requestCancel_file (done : Settlement.requestCancel c s env id = .ok after) : after.file = s.file := by
  simp only [Settlement.requestCancel, ite_ok, bind_ok, pure_ok] at done
  rcases done with ⟨_, removed, closed, freed, pooled, rfl⟩ | ⟨_, rfl⟩
  · rw [file_pay, file_rewrite _ _ _ (by rfl), file_unescrow pooled, file_removeOpen closed,
      file_rewrite _ _ _ (by rfl), file_rewrite]
    rfl
  · rw [file_rewrite]
    rfl

theorem cancelBuy_file (done : cancelBuy c s env id = .ok after) : after.file = s.file := by
  simp only [cancelBuy, ite_ok, bind_ok, require_ok] at done
  obtain ⟨_, _, _, _, ⟨_, _, _, refunded⟩ | ⟨_, _, _, _, _, requested⟩⟩ := done
  · exact refundBuy_file refunded
  · exact requestCancel_file requested

theorem launch_file {routeFee dust : Nat} {launched : Bool}
    (done : Settlement.launch c s env id routeFee dust = .ok (after, launched)) : after.file = s.file := by
  simp only [Settlement.launch, ite_ok, bind_ok, require_ok, pure_ok, Prod.mk.injEq] at done
  obtain ⟨_, _, fits, _, ⟨_, ⟨_, _, refunded, rfl, _⟩ | ⟨_, rfl, _⟩⟩ |
    ⟨_, booked, reserved, marked, sent, freed, paid, _, _, rfl, _⟩⟩ := done
  · exact refundBuy_file refunded
  · rfl
  · have kept : booked.file = s.file := by
      rcases reserved with ⟨_, reserved⟩ | ⟨_, rfl⟩
      · exact file_onCapacity reserved
      · rfl
    have funded : freed.file = s.file := by
      rw [file_unescrow paid]
      exact file_back ((file_onCapacity sent).trans kept) rfl
    change (freed.set id { freed.orders id with status := .funded, dispatchedAt := env.now }).file = s.file
    rw [file_rewrite _ _ _ (by rfl), funded]

theorem receiveReturn_file (done : Settlement.receiveReturn c s env id amount = .ok after) : after.file = s.file := by
  simp only [Settlement.receiveReturn, ite_ok, pure_ok] at done
  rcases done with ⟨_, rfl⟩ | ⟨_, ⟨_, ⟨_, closed⟩ | ⟨_, ⟨_, paid⟩ | ⟨_, rfl⟩⟩⟩ | ⟨_, rfl⟩⟩
  · rfl
  · rw [closeReturnedBuy_file closed, file_escrow, file_rewrite]
    rfl
  · rw [payHeldProceeds_file paid, file_escrow, file_rewrite]
    rfl
  · rw [file_escrow, file_rewrite]
    rfl
  · exact file_pay ..

theorem subsidize_file (done : Settlement.subsidize c s env id amount = .ok after) : after.file = s.file := by
  simp only [Settlement.subsidize, ite_ok, pure_ok] at done
  rcases done with ⟨_, closed⟩ | ⟨_, rfl⟩
  · rw [closeReturnedBuy_file closed, file_escrow, file_rewrite]
    rfl
  · rw [file_escrow, file_rewrite]
    rfl

theorem takeReward_file {key : CapKey} {status raw refund : Nat}
    (done : takeReward c s env key = .ok (after, status, raw, refund)) : after.file = s.file := by
  simp only [takeReward, ite_ok, bind_ok, pure_ok, require_ok, Prod.mk.injEq] at done
  obtain ⟨_, _, _, _, ⟨_, moved, handed, rfl, _⟩ | ⟨_, ⟨_, freed, paid, moved, sent, rfl, _⟩ | ⟨_, rfl, _⟩⟩⟩ := done
  · rw [file_onArc handed, file_rewrite]
    rfl
  · rw [file_transfer sent, file_unescrow paid, file_rewrite]
    rfl
  · rfl

theorem claimPay_file (done : claimPay c s env id recipient = .ok after) : after.file = s.file := by
  simp only [claimPay, bind_ok, require_ok, sub_ok] at done
  obtain ⟨_, _, _, _, sent⟩ := done
  exact (file_transfer sent).trans (file_rewrite s id _ rfl)

theorem voidClaimable_file (done : Settlement.voidClaimable s id amount = .ok after) : after.file = s.file := by
  simp only [Settlement.voidClaimable, bind_ok, require_ok, sub_ok, pure_ok] at done
  obtain ⟨_, _, _, _, rfl⟩ := done
  exact file_rewrite s id _ rfl

/-! The exits and the messages to the vault. -/

/-- The message of an order, or of its void. -/
def Tells (id : Nat) (o : Order) (m : Messages.Order) : Prop :=
  m = orderMessage id o ∨ m = { orderMessage id o with amountIn := 0 }

theorem dispatchOrder_file {value : Nat} {refundTo : Address} {void : Bool}
    (done : dispatchOrder c s env id value refundTo void = .ok after) :
    ∃ m, Tells id (after.orders id) m ∧ after.file = s.file.sends [m] := by
  obtain ⟨balance, at_, rfl, _⟩ := dispatchOrder_ok _ _ _ _ _ _ _ done
  have rewritten := file_rewrite s id ((s.orders id).told at_ (s.orders id).extra (s.orders id).voided) rfl
  refine ⟨if void then { orderMessage id (s.orders id) with amountIn := 0 } else orderMessage id (s.orders id),
    ?_, congrArg (fun f : File => f.sends [_]) rewritten⟩
  simp only [Function.update_self]
  cases void with
  | true => exact .inr rfl
  | false => exact .inl rfl

theorem dispatchFromReserve_file (done : dispatchFromReserve c s env id = .ok after) :
    ∃ m, Tells id (after.orders id) m ∧ after.file = s.file.sends [m] := by
  simp only [dispatchFromReserve, bind_ok, require_ok] at done
  obtain ⟨_, _, freed, paid, sent⟩ := done
  have kept : freed.file = s.file := by
    rw [file_unescrow paid, file_rewrite]
    rfl
  rw [← kept]
  exact dispatchOrder_file sent

theorem sendDeliver_file {paid : Nat}
    (done : sendDeliver c s env k underlying shares recipient mode paid = .ok after) : after.file = s.file := by
  obtain ⟨balance, rfl, _⟩ := sendDeliver_ok _ _ _ _ _ _ _ _ _ done
  rfl

theorem escalate_file (done : Exits.escalate c s env id recipient = .ok after) : after.file = s.file := by
  simp only [Exits.escalate, bind_ok, require_ok] at done
  obtain ⟨_, _, _, _, _, _, _, _, removed, closed, sent⟩ := done
  rw [sendDeliver_file sent, file_removeOpen closed, file_rewrite]
  rfl

theorem escalateAnswered_file (done : escalateAnswered c s env id recipient = .ok after) : after.file = s.file := by
  simp only [escalateAnswered, bind_ok, require_ok, ite_ok] at done
  obtain ⟨_, _, _, _, removed, closed, ⟨_, freed, paid, sent⟩ | ⟨_, freed, paid, _, _, sent⟩⟩ := done
  · rw [sendDeliver_file sent, file_exitPay, file_rewrite _ _ _ (by rfl), file_unescrow paid,
      file_removeOpen closed, file_rewrite]
    rfl
  · rw [sendDeliver_file sent, file_exitPay, file_accrue, file_rewrite _ _ _ (by rfl), file_unescrow paid,
      file_removeOpen closed, file_rewrite]
    rfl

theorem escalateFunds_file (done : Exits.escalateFunds c s env id recipient = .ok after) : after.file = s.file := by
  simp only [Exits.escalateFunds, bind_ok, require_ok, ite_ok] at done
  obtain ⟨_, _, _, _, ⟨_, _, _, sent⟩ | ⟨_, answered⟩⟩ := done
  · rw [sendDeliver_file sent, file_rewrite]
    rfl
  · exact escalateAnswered_file answered

theorem checkVoid_file {operator : Bool} {paid lzFee : Nat}
    (done : checkVoid s id operator paid lzFee = .ok after) : after.file = s.file := by
  simp only [checkVoid, bind_ok, require_ok, ite_ok, pure_ok] at done
  obtain ⟨_, _, ⟨_, rfl⟩ | ⟨_, _, _, _, _, freed⟩⟩ := done
  · rfl
  · rw [file_unescrow freed, file_rewrite]
    rfl

theorem cancelReward_file (done : Exits.cancelReward c s env id = .ok after) : after.file = s.file := by
  simp only [Exits.cancelReward, bind_ok, require_ok] at done
  obtain ⟨_, _, middle, refunded, released⟩ := done
  exact (file_onCapacity released).trans (refundBuy_file refunded)

/-! Placing. -/

/-- A new order, placed for at least so much. -/
def File.place (f : File) (minOut : Nat) : File :=
  { f.write f.orderCount ⟨false, none, minOut⟩ with orderCount := f.orderCount + 1 }

theorem place_file (user underlying : Address) (kind : Kind) (status : Status) (amountIn minOut fee : Nat) :
    (place s env user underlying kind status amountIn minOut fee).file = s.file.place minOut := by
  have stamped := file_set s s.orderCount { Order.blank with
    user := user, underlying := underlying, kind := kind, status := status, createdAt := env.now
    amountIn := amountIn, minOut := minOut, fee := fee
    feeBps := if kind = .buy then s.terms.buyFeeBps else s.terms.sellFeeBps
    route := (s.terms.listings underlying).route, capKey := .order s.orderCount }
  exact congrArg (fun f : File => { f with orderCount := s.orderCount + 1 }) stamped

theorem placeBuy_file {user : Address} {usdcIn minShares extra lane fee : Nat} {placed : Placed}
    (done : placeBuy s env user underlying usdcIn minShares extra lane fee = .ok placed) :
    placed.state.file = s.file.place minShares := by
  simp only [placeBuy, bind_ok, ite_ok, pure_ok] at done
  obtain ⟨_, _, rfl⟩ := done
  rw [file_escrow, file_rewrite _ _ _ (by rfl), place_file]

theorem beginReward_file {key : CapKey} {receiver : Address} {budget minRaw path : Nat}
    (done : beginReward s env key underlying budget minRaw receiver path = .ok after) :
    after.file = s.file.place minRaw := by
  simp only [beginReward, bind_ok, require_ok, sub_ok, pure_ok] at done
  obtain ⟨_, _, _, _, _, _, placed, bought, rfl⟩ := done
  change (placed.state.set s.orderCount { placed.state.orders s.orderCount with capKey := key }).file = _
  rw [file_rewrite _ _ _ (by rfl), placeBuy_file bought]

theorem canonicalRedeem_file (done : Exits.canonicalRedeem c s env underlying shares recipient mode = .ok after) :
    after.file = s.file.place 0 := by
  simp only [Exits.canonicalRedeem, bind_ok, require_ok, sub_ok, ite_ok, pure_ok, onArc_ok] at done
  obtain ⟨_, _, _, _, burned, ⟨token, _, rfl⟩, taxed, charged, _, _, _, _, booked, begun, removed, closed, sent⟩ :=
    done
  rw [sendDeliver_file sent, file_removeOpen closed, file_onCapacity begun, place_file]
  rcases charged with ⟨_, _, _, rfl⟩ | ⟨_, rfl⟩ <;> rfl

/-- Messages of orders, as they are now. -/
def Telling (s : State) (sent : List Messages.Order) : Prop := ∀ m ∈ sent, ∃ id, Tells id (s.orders id) m

theorem Telling.none (s : State) : Telling s [] := fun _ member => absurd member List.not_mem_nil

theorem Telling.one {m : Messages.Order} (tells : Tells id (s.orders id) m) : Telling s [m] := by
  intro other member
  rw [List.mem_singleton.mp member]
  exact ⟨id, tells⟩

theorem requestSell_file (done : requestSell c s env underlying shares minOut = .ok after) :
    ∃ sent, Telling after sent ∧ after.file = (s.file.place minOut).sends sent := by
  simp only [requestSell, bind_ok, require_ok, ite_ok, pure_ok, onArc_ok] at done
  obtain ⟨_, _, _, _, burned, ⟨token, _, rfl⟩, booked, begun, ⟨_, sent⟩ | ⟨_, rfl⟩⟩ := done
  · obtain ⟨m, tells, told⟩ := dispatchOrder_file sent
    refine ⟨[m], .one tells, ?_⟩
    rw [told, file_onCapacity begun, place_file]
    rfl
  · refine ⟨[], .none booked, ?_⟩
    rw [file_onCapacity begun, place_file, File.sends_none]
    rfl

/-- The least a call that places an order asks for. -/
def Action.asks : Action → Option Nat
  | .requestBuy _ _ minSharesOut => some minSharesOut
  | .requestSell _ _ minUsdcOut => some minUsdcOut
  | .beginFunding _ _ _ minRawOut _ _ => some minRawOut
  | .canonicalRedeem .. => some 0
  | _ => none

theorem step_places (asks : call.action.asks = some minOut) (taken : step c s call = .ok after) :
    ∃ sent, Telling after sent ∧ after.file = (s.file.place minOut).sends sent := by
  obtain ⟨env, action⟩ := call
  cases action with
  | requestBuy underlying usdcIn minSharesOut =>
    cases asks
    simp only [step, requestBuy, bind_ok, require_ok, pure_ok] at taken
    obtain ⟨_, _, _, _, _, _, _, _, placed, bought, _, _, rfl⟩ := taken
    have filed := placeBuy_file bought
    exact ⟨[], .none _, by rw [filed, File.sends_none]; rfl⟩
  | requestSell underlying sharesIn minUsdcOut =>
    cases asks
    exact requestSell_file taken
  | beginFunding orderId underlying budget18 minRawOut receiver path =>
    cases asks
    simp only [step, beginFunding, live, listed, bind_ok, require_ok] at taken
    obtain ⟨_, _, _, _, _, _, done⟩ := taken
    have filed := beginReward_file done
    exact ⟨[], .none _, by rw [filed, File.sends_none]; rfl⟩
  | canonicalRedeem underlying sharesIn recipient mode =>
    cases asks
    simp only [step, canonicalRedeem, bind_ok] at taken
    obtain ⟨_, _, done⟩ := taken
    have filed := canonicalRedeem_file done
    exact ⟨[], .none _, by rw [filed, File.sends_none]; rfl⟩
  | _ => cases asks

/-! Calls that only send messages. -/

/-- What the call brings is no part of it. -/
theorem file_deposited (done : after.file = (s.deposit amount).file) : after.file = s.file := done

def Action.Quiet : Action → Prop
  | .lzReceive .. | .reconcile _ | .checkStale | .haltMints | .resumeMints => False
  | .requestBuy .. | .requestSell .. | .beginFunding .. | .canonicalRedeem .. => False
  | .launch .. | .dispatch _ | .voidOrder _ | .submitFundedBuy _ => False
  | _ => True

theorem step_file (quiet : call.action.Quiet) (taken : step c s call = .ok after) : after.file = s.file := by
  obtain ⟨env, action⟩ := call
  cases action with
  | lzReceive | reconcile | checkStale | haltMints | resumeMints | requestBuy | requestSell | beginFunding
  | canonicalRedeem | launch | dispatch | voidOrder | submitFundedBuy => cases quiet
  | cancel id =>
    simp only [step, cancel, known, bind_ok, require_ok] at taken
    obtain ⟨_, _, done⟩ := taken
    exact cancelBuy_file done
  | escalate id recipient =>
    simp only [step, escalate, known, bind_ok, require_ok] at taken
    obtain ⟨_, _, done⟩ := taken
    exact file_deposited (escalate_file done)
  | escalateFunds id recipient =>
    simp only [step, escalateFunds, known, bind_ok, require_ok] at taken
    obtain ⟨_, _, done⟩ := taken
    exact file_deposited (escalateFunds_file done)
  | cancelReward id =>
    simp only [step, cancelReward, known, bind_ok, require_ok] at taken
    obtain ⟨_, _, _, _, done⟩ := taken
    exact cancelReward_file done
  | claim id =>
    simp only [step, claim, known, bind_ok, require_ok] at taken
    obtain ⟨_, _, done⟩ := taken
    exact claimPay_file done
  | receiveReturn id =>
    simp only [step, receiveReturn, bind_ok, require_ok] at taken
    obtain ⟨_, _, done⟩ := taken
    exact file_deposited (receiveReturn_file done)
  | requestCancel orderId =>
    simp only [step, requestCancel, rewardId, bind_ok, require_ok, pure_ok] at taken
    obtain ⟨id, ⟨_, _, rfl⟩, _, _, _, _, done⟩ := taken
    exact requestCancel_file done
  | claimResult orderId =>
    simp only [step, claimResult, bind_ok, pure_ok] at taken
    obtain ⟨result, done, rfl⟩ := taken
    exact takeReward_file done
  | subsidize id =>
    simp only [step, subsidize, known, bind_ok, require_ok] at taken
    obtain ⟨_, _, done⟩ := taken
    exact file_deposited (subsidize_file done)
  | voidClaimable id amount evidence =>
    simp only [step, voidClaimable, known, bind_ok, require_ok] at taken
    obtain ⟨_, _, _, _, _, _, done⟩ := taken
    exact voidClaimable_file done
  | claimFees =>
    simp only [step, claimFees, send, bind_ok, require_ok, ite_ok, pure_ok] at taken
    obtain ⟨_, _, ⟨_, rfl⟩ | ⟨_, sent⟩⟩ := taken
    · rfl
    · have kept := file_transfer sent
      exact kept
  | fundFloat =>
    simp only [step, pure_ok] at taken
    exact taken ▸ rfl
  | withdrawFloat recipient amount =>
    simp only [step, withdrawFloat, send, bind_ok, require_ok, ite_ok, pure_ok] at taken
    obtain ⟨_, _, _, _, _, _, ⟨_, rfl⟩ | ⟨_, sent⟩⟩ := taken
    · rfl
    · exact file_transfer sent
  | transferArc underlying holder receiver amount =>
    have moved : s.onArc underlying (Token.transfer · holder receiver amount) = .ok after := taken
    exact file_onArc moved
  | capacity action =>
    simp only [step, bind_ok, require_ok] at taken
    obtain ⟨_, _, booked⟩ := taken
    exact file_onCapacity booked
  | setMintLimitBps | setPayLimit | setKeeper | setGuardian | setRewardAdapter | setFloatEnabled =>
    simp only [step, setMintLimitBps, setPayLimit, setKeeper, setGuardian, setRewardAdapter,
      setFloatEnabled, ownerOnly, bind_ok, require_ok, pure_ok] at taken
    obtain ⟨_, _, rfl⟩ := taken
    rfl
  | setTreasury | setEnabled | setMintFloor | pause | unpause | lowerFees =>
    simp only [step, setTreasury, setEnabled, setMintFloor, pause, unpause, lowerFees, State.setListing, listed,
      ownerOnly, bind_ok, require_ok, pure_ok] at taken
    obtain ⟨_, _, _, _, rfl⟩ := taken
    rfl
  | setCanonicalGate | listStock | proposeRoute | executeRoute =>
    simp only [step, setCanonicalGate, listStock, proposeRoute, executeRoute, State.setListing,
      listed, ownerOnly, bind_ok, require_ok, pure_ok] at taken
    obtain ⟨_, _, _, _, _, _, rfl⟩ := taken
    rfl

/-- Handing an order to LayerZero, at its launch or later. -/
def Action.Hands : Action → Prop
  | .launch .. | .dispatch _ | .voidOrder _ | .submitFundedBuy _ => True
  | _ => False

theorem step_hands (hands : call.action.Hands) (taken : step c s call = .ok after) :
    ∃ sent, Telling after sent ∧ after.file = s.file.sends sent := by
  obtain ⟨env, action⟩ := call
  cases action with
  | launch id routeFee dust =>
    simp only [step, launch, known, bind_ok, require_ok, ite_ok, pure_ok, Prod.exists] at taken
    obtain ⟨_, _, _, _, _, _, _, _, middle, launched, first, ⟨_, sent⟩ | ⟨_, rfl⟩⟩ := taken
    · obtain ⟨m, tells, told⟩ := dispatchFromReserve_file sent
      exact ⟨[m], .one tells, by rw [told, launch_file first]⟩
    · exact ⟨[], .none middle, by rw [launch_file first, File.sends_none]⟩
  | dispatch id =>
    simp only [step, dispatch, known, bind_ok, require_ok] at taken
    obtain ⟨_, _, _, _, _, _, sent⟩ := taken
    obtain ⟨m, tells, told⟩ := dispatchOrder_file sent
    exact ⟨[m], .one tells, told⟩
  | voidOrder id =>
    simp only [step, voidOrder, known, bind_ok, require_ok] at taken
    obtain ⟨_, _, checked, done, sent⟩ := taken
    obtain ⟨m, tells, told⟩ := dispatchOrder_file sent
    exact ⟨[m], .one tells, by rw [told, checkVoid_file done]; rfl⟩
  | submitFundedBuy orderId =>
    simp only [step, submitFundedBuy, rewardId, bind_ok, require_ok, pure_ok] at taken
    obtain ⟨_, _, id, ⟨_, _, rfl⟩, _, _, _, _, done⟩ := taken
    obtain ⟨m, tells, told⟩ := dispatchFromReserve_file done
    exact ⟨[m], .one tells, told⟩
  | _ => cases hands

/-! Results. -/

/-- `checkStale` on the file alone. -/
def File.check (f : File) (now : Nat) : File :=
  match f.unreconciled.dropWhile f.reconciled with
  | [] => { f with unreconciled := [] }
  | front :: rest =>
    { f with
      unreconciled := front :: rest
      mintsHalted := if max (f.lzSettledAt front) f.resumedAt + reconcileWindow < now then true else f.mintsHalted }

def File.mark (f : File) (id now : Nat) (ref : Ref) (canonical : Bool) : File :=
  if canonical then f.prove ref else (f.write id { f.stamps id with lzSettled := true }).opens ref now

/-- An order answered by a result. -/
def File.settle (f : File) (id now : Nat) (ref : Ref) (canonical : Bool) (outcome : Outcome) : File :=
  (f.write id { f.stamps id with outcome := some outcome }).mark id now ref canonical

theorem file_check (s : State) (now : Nat) : (checkStale s now).file = s.file.check now := by
  unfold checkStale File.check
  dsimp only
  split
  · next empty =>
    have none : s.file.unreconciled.dropWhile s.file.reconciled = [] := empty
    simp only [none]
    rw [← none]
    rfl
  · next front rest waits =>
    have some' : s.file.unreconciled.dropWhile s.file.reconciled = front :: rest := waits
    simp only [some']
    rw [← some']
    split
    · next old =>
      have stale : max (s.file.lzSettledAt front) s.file.resumedAt + reconcileWindow < now := old
      rw [if_pos stale]
      rfl
    · next young =>
      have timely : ¬ max (s.file.lzSettledAt front) s.file.resumedAt + reconcileWindow < now := young
      rw [if_neg timely]
      rfl

theorem check_stamps (f : File) (now : Nat) : (f.check now).stamps = f.stamps := by
  unfold File.check
  split <;> rfl

theorem file_mark (s : State) (now id : Nat) (ref : Ref) (canonical : Bool) :
    (markSettled s now id ref canonical).file = s.file.mark id now ref canonical := by
  cases canonical with
  | true => rfl
  | false =>
    have rewritten := file_set s id { s.orders id with lzSettled := true }
    exact congrArg (fun f => File.opens f ref now) rewritten

/-- A limited mint passes the check of what still waits. -/
theorem mint_file (done : mint s env underlying recipient shares canonical = .ok after) :
    canonical = true ∧ after.file = s.file ∨
      canonical = false ∧ after.file = s.file.check env.now ∧ (s.file.check env.now).mintsHalted = false := by
  simp only [mint, ite_ok, bind_ok, require_ok] at done
  rcases done with ⟨proven, minted⟩ | ⟨fast, _, running, _, _, minted⟩
  · exact .inl ⟨proven, file_onArc minted⟩
  · refine .inr ⟨by simpa using fast, ?_, ?_⟩
    · rw [file_onArc minted, ← file_check]
      rfl
    · rw [← file_check]
      exact running

/-- What a result's booking starts with: a purchase in the fast lane passes the check first. -/
structure Checks (s : State) (now : Nat) (r : Result) (canonical : Bool) (f : File) : Prop where
  plain : r.outcome ≠ .bought ∨ canonical = true → f = s.file
  checked : r.outcome = .bought → canonical = false → f = s.file.check now ∧ f.mintsHalted = false

theorem Checks.stamps (checks : Checks s now r canonical f) : f.stamps = s.file.stamps := by
  by_cases fast : r.outcome = .bought ∧ canonical = false
  · rw [(checks.checked fast.1 fast.2).1, check_stamps]
  · rw [checks.plain]
    rw [not_and_or] at fast
    simpa using fast

theorem issue_file {o : Order} (bought : r.outcome = .bought)
    (done : issue c s env o recipient r canonical = .ok after) : Checks s env.now r canonical after.file := by
  simp only [issue, bind_ok, ite_ok, pure_ok] at done
  obtain ⟨credited, minted, booked, finalized, reviewed⟩ := done
  have kept : after.file = credited.file := by
    rcases reviewed with ⟨_, reviewed⟩ | ⟨_, rfl⟩
    · exact (file_onCapacity reviewed).trans (file_onCapacity finalized)
    · exact file_onCapacity finalized
  rcases mint_file minted with ⟨rfl, same⟩ | ⟨rfl, checked, running⟩
  · exact ⟨fun _ => kept.trans same, fun _ fast => by cases fast⟩
  · refine ⟨fun other => ?_, fun _ _ => ⟨kept.trans checked, ?_⟩⟩
    · rcases other with other | other
      · exact absurd bought other
      · cases other
    · rw [kept, checked]
      exact running

/-- A result that changes something answers an order that had no answer. -/
def Answers (s : State) (now id : Nat) (r : Result) (canonical : Bool) (after : State) : Prop :=
  ((s.orders id).outcome = none ∨ (s.orders id).status = .pending) ∧
    ∃ f, Checks s now r canonical f ∧ after.file = f.settle id now r.ref canonical r.outcome

theorem settleBought_file (bought : r.outcome = .bought)
    (done : settleBought c s env id r canonical = .ok (after, changed)) :
    changed = false ∧ after.file = s.file ∨ changed = true ∧ Answers s env.now id r canonical after := by
  simp only [settleBought, ite_ok, bind_ok, pure_ok, Prod.mk.injEq] at done
  rcases done with ⟨_, rfl, same⟩ | ⟨_, ⟨open', issued, done, rfl, same⟩ | ⟨_, ⟨_, rfl, same⟩ |
    ⟨open', issued, done, taken, fee, freed, extra, flushed, held, removed, closed, rfl, same⟩⟩⟩
  · exact .inl ⟨same.symm, rfl⟩
  · refine .inr ⟨same.symm, .inl open'.2.2.2, issued.file, issue_file bought done, ?_⟩
    have checks := issue_file bought done
    rw [file_mark, file_set, File.settle, bought, checks.stamps]
    rfl
  · exact .inl ⟨same.symm, rfl⟩
  · refine .inr ⟨same.symm, .inl (not_not.mp open').1, issued.file, issue_file bought done, ?_⟩
    have checks := issue_file bought done
    have answered : removed.file = issued.file.write id { issued.file.stamps id with outcome := some .bought } := by
      rw [file_removeOpen closed, flushHeld_file held, file_pay, file_unescrow extra,
        file_rewrite _ _ _ (by rfl), file_accrue, file_unescrow fee, file_set, checks.stamps]
      rfl
    rw [file_mark, answered, File.settle, bought]

theorem settleSold_file (sold : r.outcome = .sold) (done : settleSold c s env id r canonical = .ok (after, changed)) :
    changed = false ∧ after.file = s.file ∨ changed = true ∧ Answers s env.now id r canonical after := by
  simp only [settleSold, ite_ok, bind_ok, pure_ok, sub_ok, Prod.mk.injEq] at done
  rcases done with ⟨_, rfl, same⟩ | ⟨_, ⟨_, rfl, same⟩ | ⟨open', _, _, booked, finalized, done⟩⟩
  · exact .inl ⟨same.symm, rfl⟩
  · exact .inl ⟨same.symm, rfl⟩
  have marked : (markSettled booked env.now id r.ref canonical).file =
      s.file.settle id env.now r.ref canonical .sold := by
    rw [file_mark, file_onCapacity finalized, file_set]
    rfl
  have plain : Checks s env.now r canonical s.file :=
    ⟨fun _ => rfl, fun bought => by rw [sold] at bought; cases bought⟩
  have fresh := not_not.mp (not_or.mp open').2
  suffices after.file = (markSettled booked env.now id r.ref canonical).file ∧ true = changed by
    refine .inr ⟨this.2.symm, .inl fresh, s.file, plain, ?_⟩
    rw [this.1, marked, sold]
  rcases done with ⟨_, removed, closed, flushed, held, rfl, same⟩ | ⟨_, ⟨_, paid, proceeds, rfl, same⟩ |
    ⟨_, ⟨_, freed, held, removed, closed, rfl, same⟩ | ⟨_, rfl, same⟩⟩⟩
  · refine ⟨?_, same⟩
    rw [flushHeld_file held, file_removeOpen closed, file_rewrite]
    rfl
  · refine ⟨?_, same⟩
    rw [payHeldProceeds_file proceeds, file_rewrite]
    rfl
  · refine ⟨?_, same⟩
    rw [file_pay, file_removeOpen closed, file_accrue, file_rewrite _ _ _ (by rfl), file_unescrow held,
      file_rewrite]
    rfl
  · refine ⟨?_, same⟩
    rw [file_rewrite _ _ _ (by rfl), file_rewrite]
    rfl

theorem settleFailed_file (failed : r.outcome = .failed)
    (done : settleFailed c s env id r canonical = .ok (after, changed)) :
    changed = false ∧ after.file = s.file ∨ changed = true ∧ Answers s env.now id r canonical after := by
  simp only [settleFailed, ite_ok, bind_ok, pure_ok, Prod.mk.injEq] at done
  rcases done with ⟨_, rfl, same⟩ | ⟨open', done⟩
  · exact .inl ⟨same.symm, rfl⟩
  have marked : (markSettled (s.set id { s.orders id with outcome := some .failed, rawOut := 0 }) env.now id r.ref
      canonical).file = s.file.settle id env.now r.ref canonical .failed := by
    rw [file_mark, file_set]
    rfl
  have plain : Checks s env.now r canonical s.file :=
    ⟨fun _ => rfl, fun bought => by rw [failed] at bought; cases bought⟩
  have fresh : (s.orders id).outcome = none ∨ (s.orders id).status = .pending := by
    by_contra answered
    rw [not_or] at answered
    exact open' ⟨fun live => answered.1 live.1, answered.2, fun late => answered.1 late.2.2,
      fun float => answered.1 float.2.2.2⟩
  suffices after.file = (markSettled (s.set id { s.orders id with outcome := some .failed, rawOut := 0 }) env.now
      id r.ref canonical).file ∧ true = changed by
    refine .inr ⟨this.2.symm, fresh, s.file, plain, ?_⟩
    rw [this.1, marked, failed]
  rcases done with ⟨_, released, freed, ⟨_, rfl, same⟩ | ⟨_, returned, closed, rfl, same⟩⟩ |
    ⟨_, removed, closed, minted, undone, reverted, booked, flushed, held, rfl, same⟩
  · exact ⟨file_onCapacity freed, same⟩
  · refine ⟨?_, same⟩
    rw [closeReturnedBuy_file closed, file_rewrite _ _ _ (by rfl), file_onCapacity freed]
  · refine ⟨?_, same⟩
    rw [flushHeld_file held, file_onCapacity booked, file_onArc undone, file_removeOpen closed, file_rewrite]
    rfl

theorem settle_file (done : settle c s env id r canonical = .ok (after, changed)) :
    changed = false ∧ after.file = s.file ∨ changed = true ∧ Answers s env.now id r canonical after := by
  unfold settle at done
  split at done
  · exact settleBought_file ‹_› done
  · exact settleSold_file ‹_› done
  · exact settleFailed_file ‹_› done

/-! Entry points. -/

/-- What a call settles through the fast lane. -/
def Call.settles (c : Config) (s : State) (call : Call) : List Ref :=
  match call.action with
  | .lzReceive _ r =>
    match r.ref with
    | .order id =>
      match settle c s call.env id r false with
      | .ok (_, true) => [r.ref]
      | _ => []
    | .migration _ _ => []
  | _ => []

/-- What an accepted call does to the file. -/
inductive Files (c : Config) (s : State) (call : Call) (after : State) : Prop where
  | keeps (none : call.settles c s = []) (calm : call.action ≠ .resumeMints) (sent : List Messages.Order)
      (telling : Telling after sent) (same : after.file = s.file.sends sent)
  | places (none : call.settles c s = []) (calm : call.action ≠ .resumeMints) (minOut : Nat)
      (asks : call.action.asks = some minOut) (sent : List Messages.Order) (telling : Telling after sent)
      (placed : after.file = (s.file.place minOut).sends sent)
  | checks (none : call.settles c s = []) (calm : call.action ≠ .resumeMints)
      (checked : after.file = s.file.check call.env.now)
  | resumes (none : call.settles c s = []) (called : call.action = .resumeMints)
      (restarted : after.file = { s.file with mintsHalted := false, resumedAt := call.env.now })
  | proves (none : call.settles c s = []) (calm : call.action ≠ .resumeMints) (ref : Ref) (halted : Bool)
      (proven : after.file = { s.file.prove ref with mintsHalted := halted })
  | halts (none : call.settles c s = []) (calm : call.action ≠ .resumeMints)
      (halted : after.file = { s.file with mintsHalted := true })
  | answers (id : Nat) (r : Result) (canonical : Bool) (calm : call.action ≠ .resumeMints)
      (ref : r.ref = .order id) (settled : call.settles c s = if canonical then [] else [r.ref])
      (answered : Answers s call.env.now id r canonical after)

theorem settles_fast {srcEid id : Nat} (action : call.action = .lzReceive srcEid r) (ref : r.ref = .order id)
    (done : settle c s call.env id r false = .ok (after, changed)) :
    call.settles c s = if changed = true then [r.ref] else [] := by
  simp only [Call.settles, action, ref, done]
  cases changed <;> rfl

theorem review_file {id : Nat} (done : review c s id r = .ok after) :
    ∃ halted, after.file = { s.file.prove r.ref with mintsHalted := halted } := by
  simp only [review, ite_ok, pure_ok] at done
  rcases done with ⟨_, reviewed⟩ | ⟨_, rfl⟩
  · exact ⟨s.watch.mintsHalted, file_onCapacity reviewed⟩
  · refine ⟨true, ?_⟩
    have rewritten := file_rewrite s id { s.orders id with disputed := true } rfl
    exact congrArg (fun f : File => { f.prove r.ref with mintsHalted := true }) rewritten

theorem lzReceive_files {srcEid : Nat} (action : call.action = .lzReceive srcEid r)
    (taken : lzReceive c s call.env srcEid r = .ok after) : Files c s call after := by
  obtain ⟨id, changed, ref, _, settled⟩ := lzReceive_applies taken
  have refs := settles_fast action ref settled
  have calm : call.action ≠ .resumeMints := by simp [action]
  rcases settle_file settled with ⟨rfl, same⟩ | ⟨rfl, answered⟩
  · exact .keeps refs calm [] (.none _) (by rw [same, File.sends_none])
  · exact .answers id r false calm ref refs answered

theorem reconcile_files (action : call.action = .reconcile r) (taken : reconcile c s call.env r = .ok after) :
    Files c s call after := by
  have none : call.settles c s = [] := by simp only [Call.settles, action]
  have calm : call.action ≠ .resumeMints := by simp [action]
  cases ref : r.ref with
  | order id =>
    obtain ⟨_, ⟨_, reviewed⟩ | ⟨_, changed, settled⟩⟩ := reconcile_applies ref taken
    · obtain ⟨halted, proven⟩ := review_file reviewed
      exact .proves none calm r.ref halted proven
    · rcases settle_file settled with ⟨_, same⟩ | ⟨_, answered⟩
      · exact .keeps none calm [] (.none _) (by rw [same, File.sends_none])
      · exact .answers id r true calm ref none answered
  | migration underlying nonce =>
    simp only [reconcile, ref, bind_ok, require_ok, migrationMint] at taken
    obtain ⟨_, _, _, _, _, _, _, _, _, _, middle, minted, booked⟩ := taken
    refine .proves none calm (.migration underlying nonce) s.watch.mintsHalted ?_
    rw [file_onCapacity booked, file_onArc minted]
    rfl

theorem step_files (taken : step c s call = .ok after) : Files c s call after := by
  obtain ⟨env, action⟩ := call
  cases action with
  | lzReceive srcEid r => exact lzReceive_files rfl taken
  | reconcile r => exact reconcile_files rfl taken
  | checkStale =>
    simp only [step, pure_ok] at taken
    exact .checks rfl (by simp) (taken ▸ file_check s env.now)
  | haltMints =>
    simp only [step, haltMints, bind_ok, require_ok, pure_ok] at taken
    obtain ⟨_, _, rfl⟩ := taken
    exact .halts rfl (by simp) rfl
  | resumeMints =>
    simp only [step, resumeMints, ownerOnly, bind_ok, require_ok, pure_ok] at taken
    obtain ⟨_, _, rfl⟩ := taken
    exact .resumes rfl rfl rfl
  | requestBuy | requestSell | beginFunding | canonicalRedeem =>
    obtain ⟨sent, telling, placed⟩ := step_places rfl taken
    exact .places rfl (by simp) _ rfl sent telling placed
  | launch | dispatch | voidOrder | submitFundedBuy =>
    obtain ⟨sent, telling, told⟩ := step_hands (by trivial) taken
    exact .keeps rfl (by simp) sent telling told
  | _ => exact .keeps rfl (by simp) [] (.none _) (by rw [step_file (by trivial) taken, File.sends_none])

/-! What the file says of a call. -/

theorem settled_kept (f : File) (id now : Nat) (ref : Ref) (canonical : Bool) (outcome : Outcome) :
    (f.settle id now ref canonical outcome).packets = f.packets ∧
      (f.settle id now ref canonical outcome).orderCount = f.orderCount ∧
      ∀ own, ((f.settle id now ref canonical outcome).stamps own).minOut = (f.stamps own).minOut := by
  have restamped : ∀ (f : File) (stamp : Stamp), stamp.minOut = (f.stamps id).minOut →
      ∀ own, ((f.write id stamp).stamps own).minOut = (f.stamps own).minOut := by
    intro f stamp same own
    by_cases other : own = id
    · rw [other, File.write_self, same]
    · rw [File.write_other _ _ other]
  unfold File.settle File.mark
  cases canonical with
  | true => exact ⟨rfl, rfl, restamped f _ rfl⟩
  | false =>
    refine ⟨rfl, rfl, fun own => ?_⟩
    rw [if_neg Bool.false_ne_true, File.opens_stamps, restamped _ _ (by rfl), restamped _ _ (by rfl)]

theorem check_kept (f : File) (now : Nat) :
    (f.check now).packets = f.packets ∧ (f.check now).orderCount = f.orderCount := by
  unfold File.check
  split <;> exact ⟨rfl, rfl⟩

theorem Checks.kept (checks : Checks s now r canonical f) : f.packets = s.packets ∧ f.orderCount = s.orderCount := by
  by_cases fast : r.outcome = .bought ∧ canonical = false
  · rw [(checks.checked fast.1 fast.2).1]
    exact check_kept s.file now
  · rw [checks.plain (by rw [not_and_or] at fast; simpa using fast)]
    exact ⟨rfl, rfl⟩

/-- What a call keeps and adds: limits, orders and messages. -/
structure Adds (s : State) (call : Call) (after : State) : Prop where
  limits : ∀ id, id < s.orderCount → (after.orders id).minOut = (s.orders id).minOut
  orders : after.orderCount = s.orderCount ∨ ∃ minOut, call.action.asks = some minOut ∧
    after.orderCount = s.orderCount + 1
  packets : ∃ sent, Telling after sent ∧ after.packets = s.packets ++ sent

theorem Adds.same (same : after.file = f) (packets : f.packets = s.packets) (count : f.orderCount = s.orderCount)
    (limits : ∀ id, (f.stamps id).minOut = (s.orders id).minOut) : Adds s call after := by
  subst same
  exact ⟨fun id _ => limits id, .inl count, [], .none after, packets.trans (List.append_nil _).symm⟩

/-- A new order carries the least its call asked for. -/
theorem step_asked (asks : call.action.asks = some minOut) (taken : step c s call = .ok after) :
    (after.orders s.orderCount).minOut = minOut := by
  obtain ⟨sent, _, placed⟩ := step_places asks taken
  have stamp := congrFun (congrArg File.stamps placed) s.orderCount
  have new : ((s.file.place minOut).sends sent).stamps s.orderCount = ⟨false, none, minOut⟩ :=
    File.write_self _ _ _
  exact congrArg Stamp.minOut (stamp.trans new)

theorem step_adds (taken : step c s call = .ok after) : Adds s call after := by
  cases step_files taken with
  | keeps none calm sent telling same =>
    have limits := congrArg File.stamps same
    exact ⟨fun id _ => congrArg Stamp.minOut (congrFun limits id), .inl (congrArg File.orderCount same), sent,
      telling, congrArg File.packets same⟩
  | places none calm minOut asks sent telling placed =>
    have stamps := congrArg File.stamps placed
    refine ⟨?_, .inr ⟨minOut, asks, congrArg File.orderCount placed⟩, sent, telling, congrArg File.packets placed⟩
    intro id known
    have kept : ((s.file.place minOut).sends sent).stamps id = s.file.stamps id :=
      File.write_other _ _ (Nat.ne_of_lt known)
    exact congrArg Stamp.minOut ((congrFun stamps id).trans kept)
  | checks none calm checked =>
    exact .same checked (check_kept _ _).1 (check_kept _ _).2 fun id => by rw [check_stamps]; rfl
  | resumes none called restarted => exact .same restarted rfl rfl fun _ => rfl
  | proves none calm ref halted proven => exact .same proven rfl rfl fun _ => rfl
  | halts none calm halted => exact .same halted rfl rfl fun _ => rfl
  | answers id r canonical calm ref settled answered =>
    obtain ⟨_, f, checks, same⟩ := answered
    obtain ⟨packets, count, limits⟩ := settled_kept f id call.env.now r.ref canonical r.outcome
    refine .same same (packets.trans checks.kept.1) (count.trans checks.kept.2) fun own => ?_
    rw [limits, checks.stamps]
    rfl

end Solonpad.Hub
