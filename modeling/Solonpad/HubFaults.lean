import Solonpad.CapacityFaults
import Solonpad.EscrowLedger

/-!
No subtraction of the hub can underflow. An order's part of the escrow covers whatever its next
step takes out, its claim is part of the claims, and the capacity controller is exact; so a
result, a refund or an exit is only ever refused by a guard it names.
-/

namespace Solonpad.Hub

open Checked Chain Messages RunningTotal Transition
open Capacity (Underflow Balanced)

variable {c : Config} {env : Env} {α : Type} {s : Capacity.State CapKey}

def Clear {α : Type} (call : Tx α) : Prop := Avoids Underflow call

theorem bind_clear {β : Type} (call : Tx α) (next : α → Tx β) :
    Clear (call >>= next) ↔ Clear call ∧ ∀ value, call = .ok value → Clear (next value) :=
  avoids_bind Underflow call next

theorem pure_clear (value : α) : Clear (pure value : Tx α) := avoids_pure Underflow value

theorem ite_clear (condition : Prop) [Decidable condition] (yes no : Tx α) :
    Clear (if condition then yes else no) ↔
      (condition → Clear yes) ∧ (¬ condition → Clear no) :=
  avoids_ite Underflow condition yes no

/-! What the shared operations can fail with. -/

theorem require_clear (condition : Prop) [Decidable condition] (error : StockError) (next : Unit → Tx α) :
    Clear (require condition error >>= next) ↔ (condition → Clear (next ())) := by
  refine (avoids_require Underflow condition error next).trans ?_
  simp [Underflow, Clear]

theorem demand_clear (condition : Prop) [Decidable condition] (error : StockError) :
    Clear (require condition error) := by
  intro fault failed
  unfold require at failed
  split at failed
  · cases failed
  · cases failed
    simp [Underflow]

theorem sub_clear (left right : Nat) (next : Nat → Tx α) :
    Clear (sub left right >>= next) ↔
      right ≤ left ∧ (right ≤ left → Clear (next (left - right))) := by
  refine (avoids_sub Underflow left right next).trans ?_
  simp [Underflow, Clear]

theorem unescrow_clear (s : State) (amount : Nat) (next : State → Tx α) :
    Clear (s.unescrow amount >>= next) ↔ amount ≤ s.money.escrowed ∧
      (amount ≤ s.money.escrowed → Clear (next { s with
        money := { s.money with escrowed := s.money.escrowed - amount } })) := by
  rw [State.unescrow, bind_assoc, sub_clear]
  rfl

theorem removeOpen_clear (s : State) (id : Nat) (next : State → Tx α) :
    Clear (removeOpen s id >>= next) ↔
      ∀ opened, s.opened.remove id = .ok opened → Clear (next { s with opened := opened }) := by
  have removes : Clear (s.opened.remove id) := by
    unfold OpenOrders.remove
    intro fault failed
    dsimp only at failed
    split at failed
    · cases failed
    · split at failed
      · cases failed
        simp [Underflow]
      · split at failed
        · cases failed
          simp [Underflow]
        · cases failed
  rw [removeOpen, bind_assoc, bind_clear]
  exact and_iff_right removes

theorem onArc_clear (s : State) (underlying : Address) (call : Token → Tx Token) (next : State → Tx α)
    (clear : ∀ token, Clear (call token)) :
    Clear (s.onArc underlying call >>= next) ↔ ∀ token, call (s.arc underlying) = .ok token →
      Clear (next { s with arc := Function.update s.arc underlying token }) := by
  rw [State.onArc, bind_assoc, bind_clear]
  exact and_iff_right (clear _)

theorem onCapacity_clear (s : State) (call : Capacity.State CapKey → Tx (Capacity.State CapKey))
    (next : State → Tx α) (clear : Clear (call s.capacity)) :
    Clear (s.onCapacity call >>= next) ↔ ∀ capacity, call s.capacity = .ok capacity →
      Clear (next { s with capacity := capacity }) := by
  rw [State.onCapacity, bind_assoc, bind_clear]
  exact and_iff_right clear

theorem unescrow_ends (s : State) (amount : Nat) (held : amount ≤ s.money.escrowed) : Clear (s.unescrow amount) := by
  rw [State.unescrow, sub_clear]
  exact ⟨held, fun _ => pure_clear _⟩

theorem onCapacity_ends (s : State) (call : Capacity.State CapKey → Tx (Capacity.State CapKey))
    (clear : Clear (call s.capacity)) : Clear (s.onCapacity call) := by
  rw [State.onCapacity, bind_clear]
  exact ⟨clear, fun _ _ => pure_clear _⟩

/-- An exact controller underflows on no call, and stays exact. -/
theorem capacity_clear (balanced : Balanced s) (call : Capacity.Call CapKey) : Clear (Capacity.step s call) :=
  Capacity.step_covered balanced call

theorem capacity_balanced {after : Capacity.State CapKey} (balanced : Balanced s)
    (call : Capacity.Call CapKey) (taken : Capacity.step s call = .ok after) : Balanced after :=
  Capacity.move_balanced balanced (Capacity.step_move s after call taken)

theorem mint_clear (recipient : Address) (amount : Nat) (token : Token) : Clear (token.mint recipient amount) := by
  intro fault failed
  unfold Token.mint at failed
  split at failed
  · cases failed
    simp [Underflow]
  · cases failed

theorem burn_clear (holder : Address) (amount : Nat) (token : Token) : Clear (token.burn holder amount) := by
  intro fault failed
  unfold Token.burn at failed
  split at failed
  · cases failed
    simp [Underflow]
  · split at failed
    · cases failed
    · cases failed
      simp [Underflow]

theorem transfer_clear (holder receiver : Address) (amount : Nat) (token : Token) :
    Clear (token.transfer holder receiver amount) := by
  intro fault failed
  unfold Token.transfer at failed
  repeat' split at failed
  all_goals
    cases failed
    try simp [Underflow]

/-- A push that is refused fails by its own name. -/
theorem sends_clear (s : State) (k : Nat) (recipient : Address) (amount : Nat) :
    Clear (transfer c s env k recipient amount) := by
  rw [transfer, require_clear]
  exact fun _ => pure_clear _

/-! The settlement rules. -/

theorem refundBuy_clear (s : State) (id : Nat) (buy : (s.orders id).kind = .buy)
    (pending : (s.orders id).status = .pending)
    (held : (s.orders id).inEscrow ≤ s.money.escrowed) : Clear (refundBuy c s env id) := by
  have queued := escrow_queued buy pending
  simp only [refundBuy, removeOpen_clear, unescrow_clear, ite_clear, pure_clear, implies_true,
    and_true]
  intro opened _
  dsimp only [State.set]
  omega

theorem requestCancel_clear (s : State) (id : Nat) (buy : (s.orders id).kind = .buy)
    (held : (s.orders id).inEscrow ≤ s.money.escrowed) : Clear (Settlement.requestCancel c s env id) := by
  simp only [Settlement.requestCancel, ite_clear, removeOpen_clear, unescrow_clear, pure_clear,
    implies_true, and_true]
  rintro ⟨_, _, dispatched, _⟩ opened _
  have parts : (s.orders id).fee + (s.orders id).extra ≤ (s.orders id).inEscrow := by
    simp [Order.inEscrow, Order.holdsFee, buy, dispatched]
    omega
  dsimp only [State.set]
  omega

theorem cancelBuy_clear (s : State) (id : Nat)
    (held : (s.orders id).inEscrow ≤ s.money.escrowed) : Clear (cancelBuy c s env id) := by
  simp only [cancelBuy, require_clear, ite_clear, not_or, not_not]
  intro _ buy
  exact ⟨fun pending _ => refundBuy_clear s id buy pending held,
    fun _ _ _ => requestCancel_clear s id buy held⟩

theorem pay_capacity (s : State) (k id : Nat) (recipient : Address) (amount : Nat)
    (fromFloat : Bool) : (pay c s env k id recipient amount fromFloat).capacity = s.capacity := by
  obtain ⟨_, _, _, paid, _⟩ := pay_spec (c := c) s env k id recipient amount fromFloat
  rw [paid]

/-- A refund leaves the capacity controller alone. -/
theorem refundBuy_capacity (s after : State) (id : Nat)
    (done : refundBuy c s env id = .ok after) : after.capacity = s.capacity := by
  simp only [refundBuy, bind_ok, removeOpen_ok, unescrow_ok, ite_ok, pure_ok] at done
  obtain ⟨_, ⟨opened, _, rfl⟩, _, ⟨_, rfl⟩, ⟨_, rfl⟩ | ⟨_, rfl⟩⟩ := done
  · exact pay_capacity _ _ _ _ _ _
  · exact pay_capacity _ _ _ _ _ _

theorem cancelReward_clear (s : State) (id : Nat) (regular : (s.orders id).Regular) (balanced : Balanced s.capacity)
    (held : (s.orders id).inEscrow ≤ s.money.escrowed) : Clear (Exits.cancelReward c s env id) := by
  simp only [Exits.cancelReward, require_clear, not_or, not_not]
  rintro ⟨lane, pending⟩
  rw [bind_clear]
  refine ⟨refundBuy_clear s id (regular.reward lane) pending held, fun middle refunded => ?_⟩
  apply onCapacity_ends
  rw [refundBuy_capacity s middle id refunded]
  exact capacity_clear balanced ⟨c.self, 0, .releaseUnsent _⟩

theorem launch_clear (s : State) (id routeFee dust : Nat) (buy : (s.orders id).kind = .buy)
    (pending : (s.orders id).status = .pending) (balanced : Balanced s.capacity)
    (held : (s.orders id).inEscrow ≤ s.money.escrowed) : Clear (Settlement.launch c s env id routeFee dust) := by
  have queued := escrow_queued buy pending
  simp only [Settlement.launch, require_clear]
  intro _
  rw [bind_clear]
  constructor
  · simp only [ite_clear, pure_clear, implies_true, and_true, true_and]
    intro _ _
    rw [Capacity.canReserveFor, bind_clear]
    exact ⟨Capacity.checkAsset_covered balanced.toExact _ _ _, fun _ _ => pure_clear _⟩
  · intro fits checked
    have paysFee : fits = true → routeFee ≤ (s.orders id).extra := by
      rintro rfl
      simp only [ite_ok, pure_ok] at checked
      rcases checked with ⟨_, no⟩ | ⟨enough, _⟩
      · cases no
      · omega
    simp only [ite_clear, pure_clear, implies_true, and_true]
    constructor
    · intro _ _
      rw [bind_clear]
      exact ⟨refundBuy_clear s id buy pending held, fun _ _ => pure_clear _⟩
    · intro yes
      rw [bind_clear]
      constructor
      · simp only [ite_clear, pure_clear, implies_true, and_true]
        exact fun _ => onCapacity_ends s _
          (capacity_clear balanced ⟨c.self, 0, .reservePublicFor _ _ _⟩)
      · intro middle reserved
        have reached : Balanced middle.capacity ∧ middle.money = s.money := by
          simp only [ite_ok, onCapacity_ok, pure_ok] at reserved
          rcases reserved with ⟨_, capacity, booked, rfl⟩ | ⟨_, rfl⟩
          · exact ⟨capacity_balanced balanced ⟨c.self, 0, .reservePublicFor _ _ _⟩ booked, rfl⟩
          · exact ⟨balanced, rfl⟩
        rw [onCapacity_clear _ _ _ (capacity_clear reached.1 ⟨c.self, 0, .markSent _⟩)]
        intro capacity _
        simp only [unescrow_clear, require_clear, pure_clear, implies_true, and_true]
        dsimp only [State.set]
        rw [reached.2]
        have enough := paysFee (by simpa using yes)
        omega

theorem closeReturnedBuy_clear (s : State) (id : Nat) (force : Bool) (regular : (s.orders id).Regular)
    (returning : (s.orders id).status = .returning) (held : (s.orders id).inEscrow ≤ s.money.escrowed) :
    Clear (closeReturnedBuy c s env id force) := by
  have parts : (s.orders id).held + (s.orders id).fee + (s.orders id).extra ≤
      (s.orders id).inEscrow := by
    simp [Order.inEscrow, Order.holdsFee, regular.returning returning, returning]
    omega
  simp only [closeReturnedBuy, ite_clear, removeOpen_clear, unescrow_clear, sub_clear, pure_clear,
    implies_true, and_true, true_and]
  intro _ whole opened _
  dsimp only [State.set]
  refine ⟨fun _ => by omega, fun other => ⟨?_, fun _ => by omega⟩⟩
  have reward := regular.lanes.resolve_left other
  have := fun short => whole ⟨reward, short⟩
  omega

theorem flushHeld_clear (s : State) (k id : Nat) (held : (s.orders id).held ≤ s.money.escrowed) :
    Clear (flushHeld c s env k id) := by
  simp only [flushHeld, ite_clear, unescrow_clear, pure_clear, implies_true, and_true, true_and]
  intro _
  exact held

theorem payHeldProceeds_clear (s : State) (id : Nat)
    (held : (s.orders id).held ≤ s.money.escrowed) : Clear (payHeldProceeds c s env id) := by
  simp only [payHeldProceeds, ite_clear, unescrow_clear, removeOpen_clear, pure_clear, implies_true,
    and_true, true_and]
  intro _
  exact held

theorem held_le (o : Order) : o.held ≤ o.inEscrow := by
  unfold Order.inEscrow
  omega

theorem extra_le (o : Order) : o.extra ≤ o.inEscrow := by
  unfold Order.inEscrow
  omega

theorem receiveReturn_clear (s : State) (id amount : Nat) (regular : (s.orders id).Regular)
    (held : (s.orders id).inEscrow ≤ s.money.escrowed) :
    Clear (Settlement.receiveReturn c (s.deposit amount) env id amount) := by
  simp only [Settlement.receiveReturn, ite_clear, pure_clear, implies_true, and_true, true_and]
  have moved := escrow_held (s.orders id) ((s.orders id).held + amount)
  intro _ _
  refine ⟨fun returning => ?_, fun _ proceeds => ?_⟩
  · apply closeReturnedBuy_clear
    · simp only [State.set, State.escrow, State.deposit, Function.update_self]
      exact ⟨regular.proper, regular.fees, regular.refund, regular.reward, regular.lanes⟩
    · simpa only [State.set, State.escrow, State.deposit, Function.update_self] using returning
    · simp only [State.set, State.escrow, State.deposit, Function.update_self]
      omega
  · apply payHeldProceeds_clear
    have part := held_le (s.orders id)
    simp only [State.set, State.escrow, State.deposit, Function.update_self]
    omega

theorem subsidize_clear (s : State) (id amount : Nat) (regular : (s.orders id).Regular)
    (held : (s.orders id).inEscrow ≤ s.money.escrowed) :
    Clear (Settlement.subsidize c (s.deposit amount) env id amount) := by
  simp only [Settlement.subsidize, ite_clear, pure_clear, implies_true, and_true]
  have moved := escrow_extra (s.orders id) ((s.orders id).extra + amount)
  rintro ⟨returning, _⟩
  apply closeReturnedBuy_clear
  · simp only [State.set, State.escrow, State.deposit, Function.update_self]
    exact ⟨regular.proper, regular.fees, regular.refund, regular.reward, regular.lanes⟩
  · simpa only [State.set, State.escrow, State.deposit, Function.update_self] using returning
  · simp only [State.set, State.escrow, State.deposit, Function.update_self]
    omega

theorem refund_le (o : Order) : o.refundReady ≤ o.inEscrow := by
  unfold Order.inEscrow
  omega

theorem takeReward_clear (s : State) (orderId : CapKey) (held : ∀ id, (s.orders id).inEscrow ≤ s.money.escrowed) :
    Clear (takeReward c s env orderId) := by
  simp only [takeReward, require_clear, ite_clear, pure_clear, implies_true, and_true]
  intro _ _
  refine ⟨fun _ => ?_, fun _ _ => ?_⟩
  · rw [onArc_clear _ _ _ _ (transfer_clear _ _ _)]
    exact fun _ _ => pure_clear _
  · rw [unescrow_clear]
    refine ⟨(refund_le _).trans (held _), fun _ => ?_⟩
    rw [bind_clear]
    exact ⟨sends_clear _ _ _ _, fun _ _ => pure_clear _⟩

theorem claimPay_clear (s : State) (id : Nat) (recipient : Address)
    (claims : (s.orders id).owed ≤ s.money.claimableTotal) : Clear (claimPay c s env id recipient) := by
  simp only [claimPay, require_clear, sub_clear, sends_clear, implies_true, and_true]
  exact fun _ => claims

theorem voidClaimable_clear (s : State) (id amount : Nat) (claims : (s.orders id).owed ≤ s.money.claimableTotal) :
    Clear (Settlement.voidClaimable s id amount) := by
  simp only [Settlement.voidClaimable, require_clear, sub_clear, pure_clear, implies_true, and_true,
    not_or, not_lt]
  rintro ⟨_, part⟩
  omega

/-! Results. -/

theorem onArc_ends (s : State) (underlying : Address) (call : Token → Tx Token)
    (clear : ∀ token, Clear (call token)) : Clear (s.onArc underlying call) := by
  rw [State.onArc, bind_clear]
  exact ⟨clear _, fun _ _ => pure_clear _⟩

theorem issue_clear (s : State) (o : Order) (recipient : Address) (r : Result) (canonical : Bool)
    (balanced : Balanced s.capacity) : Clear (issue c s env o recipient r canonical) := by
  rw [issue, bind_clear]
  constructor
  · simp only [mint, ite_clear, require_clear]
    exact ⟨fun _ => onArc_ends _ _ _ (mint_clear _ _),
      fun _ _ _ => onArc_ends _ _ _ (mint_clear _ _)⟩
  · intro middle minted
    obtain ⟨_, _, _, rfl⟩ := mint_ok _ _ _ _ _ _ _ minted
    rw [onCapacity_clear _ _ _ (capacity_clear balanced ⟨c.self, 0, .finalizeBuy _ _ _⟩)]
    intro capacity booked
    have kept := capacity_balanced balanced ⟨c.self, 0, .finalizeBuy _ _ _⟩ booked
    simp only [ite_clear, pure_clear, implies_true, and_true]
    exact fun _ => onCapacity_ends _ _ (capacity_clear kept ⟨c.self, 0, .markReviewed _⟩)

/-- Paying an order leaves what it holds. -/
theorem pay_held (s : State) (k id : Nat) (recipient : Address) (amount : Nat) (fromFloat : Bool) :
    ((pay c s env k id recipient amount fromFloat).orders id).held = (s.orders id).held ∧
      (pay c s env k id recipient amount fromFloat).money.escrowed = s.money.escrowed := by
  obtain ⟨_, _, _, paid, _⟩ := pay_spec (c := c) s env k id recipient amount fromFloat
  rw [paid]
  simp only [Function.update_self]
  exact ⟨rfl, trivial⟩

theorem settleBought_clear (s : State) (id : Nat) (r : Result) (canonical : Bool) (balanced : Balanced s.capacity)
    (held : (s.orders id).inEscrow ≤ s.money.escrowed) : Clear (settleBought c s env id r canonical) := by
  simp only [settleBought, ite_clear, pure_clear, implies_true, true_and, not_not]
  intro buy
  constructor
  · intro _
    rw [bind_clear]
    exact ⟨issue_clear s _ _ r canonical balanced, fun _ _ => pure_clear _⟩
  · intro _ open'
    have parts : (s.orders id).fee + (s.orders id).extra + (s.orders id).held ≤
        (s.orders id).inEscrow := by
      obtain ⟨none, dispatched | ⟨_, escalated⟩⟩ := open'
      · simp [Order.inEscrow, Order.holdsFee, buy, dispatched]
      · simp [Order.inEscrow, Order.holdsFee, buy, escalated, none]
    rw [bind_clear]
    refine ⟨issue_clear s _ _ r canonical balanced, fun middle issued => ?_⟩
    obtain ⟨_, _, _, _, _, _, _, rfl⟩ := issue_ok _ _ _ _ _ _ _ issued
    rw [unescrow_clear]
    refine ⟨by dsimp only [State.set]; omega, fun _ => ?_⟩
    rw [unescrow_clear]
    simp only [State.set, State.accrue, Function.update_self]
    refine ⟨by omega, fun _ => ?_⟩
    rw [bind_clear]
    constructor
    · apply flushHeld_clear
      rw [(pay_held _ _ _ _ _ _).1, (pay_held _ _ _ _ _ _).2]
      simp only [Function.update_self]
      omega
    · intro _ _
      rw [removeOpen_clear]
      exact fun _ _ => pure_clear _

/-- A fee is part of the amount it is charged on. -/
theorem charge_le (amount rate : Nat) (capped : rate ≤ maxFeeBps) : amount * rate / bps ≤ amount := by
  apply Nat.div_le_of_le_mul
  rw [Nat.mul_comm]
  exact Nat.mul_le_mul_right amount (capped.trans (by decide))

theorem settleSold_clear (s : State) (id : Nat) (r : Result) (canonical : Bool) (regular : (s.orders id).Regular)
    (balanced : Balanced s.capacity) (held : (s.orders id).inEscrow ≤ s.money.escrowed) :
    Clear (settleSold c s env id r canonical) := by
  have part := (held_le (s.orders id)).trans held
  simp only [settleSold, ite_clear, pure_clear, implies_true, true_and, sub_clear]
  intro _ _
  refine ⟨charge_le _ _ regular.fees, fun _ => ?_⟩
  rw [onCapacity_clear _ _ _ (capacity_clear balanced ⟨c.self, 0, .finalizeRedeem _ _⟩)]
  intro capacity _
  obtain ⟨settled, watch, reconciled, same, _⟩ := markSettled_spec { s.set id { s.orders id with
    settledAt := env.now, fee := r.amountOut * scale * (s.orders id).feeBps / bps
    rawOut := r.amountOut, outcome := some .sold } with capacity := capacity }
    env.now id r.ref canonical
  rw [same]
  simp only [State.set, Function.update_self, Function.update_idem, ite_clear, pure_clear,
    unescrow_clear, removeOpen_clear, implies_true, and_true]
  refine ⟨fun _ opened _ => ?_, fun _ => ⟨fun _ => ?_, fun _ _ => part⟩⟩
  · rw [bind_clear]
    refine ⟨flushHeld_clear _ _ _ ?_, fun _ _ => pure_clear _⟩
    simpa only [Function.update_self] using part
  · rw [bind_clear]
    refine ⟨payHeldProceeds_clear _ _ ?_, fun _ _ => pure_clear _⟩
    simpa only [Function.update_self] using part

theorem settleFailed_clear (s : State) (id : Nat) (r : Result) (canonical : Bool) (regular : (s.orders id).Regular)
    (balanced : Balanced s.capacity) (held : (s.orders id).inEscrow ≤ s.money.escrowed) :
    Clear (settleFailed c s env id r canonical) := by
  have part := (held_le (s.orders id)).trans held
  obtain ⟨settled, watch, reconciled, same, _⟩ := markSettled_spec
    (s.set id { s.orders id with outcome := some .failed, rawOut := 0 }) env.now id r.ref canonical
  simp only [settleFailed, ite_clear, pure_clear, implies_true, true_and]
  rw [same]
  simp only [State.set, Function.update_self, Function.update_idem]
  intro open'
  constructor
  · intro buy
    rw [onCapacity_clear _ _ _ (capacity_clear balanced ⟨c.self, 0, .release _⟩)]
    intro capacity _
    simp only [ite_clear, pure_clear, implies_true, true_and]
    intro other
    have live := failed_open buy other open'
    have escrow : ({ (s.orders id).failedAs settled with
        settledAt := env.now, status := .returning } : Order).inEscrow ≤ (s.orders id).inEscrow := by
      rcases live with ⟨none, dispatched | ⟨_, escalated⟩⟩ | pending
      · simp [Order.failedAs, Order.inEscrow, Order.holdsFee, buy, dispatched]
      · simp [Order.failedAs, Order.inEscrow, Order.holdsFee, buy, escalated, none]
      · simp [Order.failedAs, Order.inEscrow, Order.holdsFee, buy, pending]
    rw [bind_clear]
    refine ⟨closeReturnedBuy_clear _ _ _ ?_ ?_ ?_, fun _ _ => pure_clear _⟩
    · simp only [Function.update_self]
      exact failed_regular regular buy live settled env.now
    · simp only [Function.update_self]
    · simp only [Function.update_self]
      exact escrow.trans held
  · intro sell
    rw [removeOpen_clear]
    intro opened _
    rw [onArc_clear _ _ _ _ (mint_clear _ _)]
    intro token _
    rw [onCapacity_clear _ _ _ (capacity_clear balanced ⟨c.self, 0, .revertRedeem _⟩)]
    intro capacity _
    rw [bind_clear]
    refine ⟨flushHeld_clear _ _ _ ?_, fun _ _ => pure_clear _⟩
    simpa only [Function.update_self] using part

theorem settle_clear (s : State) (id : Nat) (r : Result) (canonical : Bool) (regular : (s.orders id).Regular)
    (balanced : Balanced s.capacity) (held : (s.orders id).inEscrow ≤ s.money.escrowed) :
    Clear (settle c s env id r canonical) := by
  unfold settle
  cases r.outcome with
  | bought => exact settleBought_clear s id r canonical balanced held
  | sold => exact settleSold_clear s id r canonical regular balanced held
  | failed => exact settleFailed_clear s id r canonical regular balanced held

theorem review_clear (s : State) (id : Nat) (r : Result) (balanced : Balanced s.capacity) :
    Clear (review c s id r) := by
  simp only [review, ite_clear, pure_clear, implies_true, and_true]
  exact fun _ => onCapacity_ends _ _ (capacity_clear balanced ⟨c.self, 0, .markReviewed _⟩)

theorem migrationMint_clear (s : State) (r : Result) (balanced : Balanced s.capacity) :
    Clear (migrationMint c s r) := by
  simp only [migrationMint, require_clear]
  intro _ _ _
  rw [onArc_clear _ _ _ _ (mint_clear _ _)]
  exact fun _ _ => onCapacity_ends _ _ (capacity_clear balanced ⟨c.self, 0, .finalizeBuy _ _ _⟩)

/-! Messages, exits and placing. -/

theorem dispatchOrder_clear (s : State) (id valueForFee : Nat) (refundTo : Address) (void : Bool) :
    Clear (dispatchOrder c s env id valueForFee refundTo void) := by
  simp only [dispatchOrder, require_clear, ite_clear, pure_clear, sends_clear, implies_true, and_self]

theorem dispatchFromReserve_clear (s : State) (id : Nat) (held : (s.orders id).inEscrow ≤ s.money.escrowed) :
    Clear (dispatchFromReserve c s env id) := by
  have part := extra_le (s.orders id)
  simp only [dispatchFromReserve, require_clear, unescrow_clear, dispatchOrder_clear, implies_true,
    and_true]
  intro enough
  dsimp only [State.set]
  omega

theorem checkVoid_clear (s : State) (id : Nat) (operator : Bool) (paid lzFee : Nat)
    (held : (s.orders id).inEscrow ≤ s.money.escrowed) : Clear (checkVoid s id operator paid lzFee) := by
  have part := extra_le (s.orders id)
  simp only [checkVoid, require_clear, ite_clear, pure_clear, implies_true, true_and]
  intro _ _ _ enough
  apply unescrow_ends
  dsimp only [State.set]
  omega

theorem sendDeliver_clear (s : State) (id : Nat) (underlying : Address) (shares : Nat) (recipient : Address)
    (mode : DeliverMode) (paid : Nat) : Clear (sendDeliver c s env id underlying shares recipient mode paid) := by
  simp only [sendDeliver, require_clear, pure_clear, implies_true]

theorem escalator_clear (o : Order) (recipient : Address) (next : Unit → Tx α) (clear : Clear (next ())) :
    Clear (checkEscalator env o recipient >>= next) := by
  rw [bind_clear, checkEscalator, ite_clear]
  exact ⟨⟨fun _ => demand_clear _ _, fun _ => demand_clear _ _⟩, fun _ _ => clear⟩

theorem escalate_clear (s : State) (id : Nat) (recipient : Address) : Clear (Exits.escalate c s env id recipient) := by
  simp only [Exits.escalate, require_clear]
  intro _ _ _
  apply escalator_clear
  rw [removeOpen_clear]
  exact fun _ _ => sendDeliver_clear _ _ _ _ _ _ _

theorem escalateAnswered_clear (s : State) (id : Nat) (recipient : Address) (regular : (s.orders id).Regular)
    (held : (s.orders id).inEscrow ≤ s.money.escrowed) : Clear (escalateAnswered c s env id recipient) := by
  have part := (held_le (s.orders id)).trans held
  simp only [escalateAnswered, require_clear, removeOpen_clear, ite_clear, unescrow_clear,
    sendDeliver_clear, implies_true, and_true]
  intro open' _ opened _
  refine ⟨fun buy => ?_, fun _ => part⟩
  have returning : (s.orders id).status = .returning := by
    by_contra other
    refine open' ⟨other, fun proceeds => ?_⟩
    have sell := regular.proceeds proceeds
    simp [buy] at sell
  have parts : (s.orders id).held + ((s.orders id).fee + (s.orders id).extra) ≤
      (s.orders id).inEscrow := by
    simp [Order.inEscrow, Order.holdsFee, buy, returning]
    omega
  exact parts.trans held

theorem escalateFunds_clear (s : State) (id : Nat) (recipient : Address) (regular : (s.orders id).Regular)
    (held : (s.orders id).inEscrow ≤ s.money.escrowed) : Clear (Exits.escalateFunds c s env id recipient) := by
  rw [Exits.escalateFunds]
  apply escalator_clear
  simp only [require_clear, ite_clear, sendDeliver_clear, implies_true, true_and]
  exact fun _ _ => escalateAnswered_clear s id recipient regular held

theorem canonicalRedeem_clear (s : State) (underlying : Address) (sharesIn : Nat) (recipient : Address)
    (mode : DeliverMode) (regular : Regular s) (balanced : Balanced s.capacity) :
    Clear (Exits.canonicalRedeem c s env underlying sharesIn recipient mode) := by
  simp only [Exits.canonicalRedeem, require_clear]
  intro _ _
  rw [onArc_clear _ _ _ _ (burn_clear _ _)]
  intro token _
  rw [bind_clear]
  constructor
  · simp only [ite_clear, pure_clear, implies_true, and_true]
    exact fun _ => onArc_ends _ _ _ (mint_clear _ _)
  · intro taxed minted
    have same : taxed.capacity = s.capacity := by
      simp only [ite_ok, onArc_ok, pure_ok] at minted
      rcases minted with ⟨_, _, _, rfl⟩ | ⟨_, rfl⟩
      · rfl
      · rfl
    rw [sub_clear]
    refine ⟨charge_le _ _ regular.sellFee, fun _ => ?_⟩
    rw [require_clear]
    intro _
    rw [onCapacity_clear _ _ _ (by
      dsimp only [place, State.set]
      rw [same]
      exact capacity_clear balanced ⟨c.self, 0, .beginRedeem _ _ _⟩)]
    intro capacity _
    rw [removeOpen_clear]
    exact fun _ _ => sendDeliver_clear _ _ _ _ _ _ _

theorem placeBuy_clear (s : State) (user underlying : Address) (usdcIn minShares extra lane feeFromExtra : Nat)
    (regular : Regular s) : Clear (placeBuy s env user underlying usdcIn minShares extra lane feeFromExtra) := by
  rw [placeBuy, bind_clear]
  refine ⟨?_, fun _ _ => pure_clear _⟩
  simp only [ite_clear, sub_clear, pure_clear, implies_true, and_true]
  exact fun _ => charge_le _ _ regular.buyFee

end Solonpad.Hub
