import Solonpad.HubLife

/-!
Every accepted call of the hub is a chain of moves. One lemma for each function of the
settlement rules and the exits, from the payments up to the entry points.
-/

namespace Solonpad.Hub

open Checked Chain Messages

variable {c : Config} {p : Promises} {a : Action} {o : Order}

/-! What the shared operations lead to. -/

theorem unescrow_ok (s after : State) (amount : Nat) : s.unescrow amount = .ok after ↔
    amount ≤ s.money.escrowed ∧
      { s with money := { s.money with escrowed := s.money.escrowed - amount } } = after := by
  simp only [State.unescrow, bind_ok, sub_ok, pure_ok]
  constructor
  · rintro ⟨_, ⟨covered, rfl⟩, same⟩
    exact ⟨covered, same⟩
  · rintro ⟨covered, same⟩
    exact ⟨_, ⟨covered, rfl⟩, same⟩

theorem removeOpen_ok (s after : State) (id : Nat) : removeOpen s id = .ok after ↔
    ∃ opened, s.opened.remove id = .ok opened ∧ { s with opened := opened } = after := by
  simp only [removeOpen, bind_ok, pure_ok]

theorem onArc_ok (s after : State) (underlying : Address) (call : Token → Tx Token) :
    s.onArc underlying call = .ok after ↔ ∃ token, call (s.arc underlying) = .ok token ∧
      { s with arc := Function.update s.arc underlying token } = after := by
  simp only [State.onArc, bind_ok, pure_ok]

theorem onCapacity_ok (s after : State) (call : Capacity.State CapKey → Tx (Capacity.State CapKey)) :
    s.onCapacity call = .ok after ↔ ∃ capacity, call s.capacity = .ok capacity ∧
      { s with capacity := capacity } = after := by
  simp only [State.onCapacity, bind_ok, pure_ok]

/-- Sending moves at most the amount, and no more than there is. -/
theorem sent_spec (s : State) (recipient : Address) (amount : Nat)
    (covered : amount ≤ s.money.balance) : ∃ balance, s.sent c recipient amount =
      { s with money := { s.money with balance := balance } } ∧
      s.money.balance ≤ balance + amount := by
  unfold State.sent
  split
  · exact ⟨s.money.balance, rfl, by omega⟩
  · exact ⟨s.money.balance - amount, rfl, by omega⟩

theorem transfer_ok (s after : State) (env : Env) (k : Nat) (recipient : Address) (amount : Nat)
    (done : transfer c s env k recipient amount = .ok after) : ∃ balance,
      after = { s with money := { s.money with balance := balance } } ∧
      s.money.balance ≤ balance + amount := by
  simp only [transfer, bind_ok, require_ok, pure_ok] at done
  obtain ⟨_, ⟨_, covered⟩, rfl⟩ := done
  exact sent_spec s recipient amount covered

/-- An order that is owed a debt on top. -/
def Order.indebted (o : Order) (debt : Nat) : Order := { o with owed := o.owed + debt }

theorem push_spec (s : State) (env : Env) (k id : Nat) (recipient : Address) (amount : Nat) :
    ∃ balance debt, push c s env k id recipient amount =
      { s with
        orders := Function.update s.orders id ((s.orders id).indebted debt)
        money := { s.money with
          balance := balance, claimableTotal := s.money.claimableTotal + debt } } ∧
      s.money.balance + debt ≤ balance + amount := by
  unfold push
  split
  · next sent =>
    obtain ⟨balance, moved, enough⟩ := sent_spec (c := c) s recipient amount sent.2
    refine ⟨balance, 0, ?_, by omega⟩
    rw [moved]
    simp [Order.indebted]
  · exact ⟨s.money.balance, amount, rfl, le_rfl⟩

theorem pay_spec (s : State) (env : Env) (k id : Nat) (recipient : Address) (amount : Nat)
    (fromFloat : Bool) : ∃ balance debt watch, pay c s env k id recipient amount fromFloat =
      { s with
        orders := Function.update s.orders id ((s.orders id).indebted debt)
        money := { s.money with
          balance := balance, claimableTotal := s.money.claimableTotal + debt }
        watch := watch } ∧
      s.money.balance + debt ≤ balance + amount := by
  unfold pay
  split
  · refine ⟨s.money.balance, 0, s.watch, ?_, by omega⟩
    simp [Order.indebted]
  · obtain ⟨balance, debt, pushed, enough⟩ := push_spec (c := c) s env k id
      (if recipient = 0 then s.roles.treasury else recipient) amount
    simp only [pushed]
    split
    · exact ⟨balance, debt, _, rfl, enough⟩
    · exact ⟨balance, debt, s.watch, rfl, enough⟩

/-! Moves that the functions share. -/

theorem watches (s : State) (watch : Watch) : Move c p a s { s with watch := watch } :=
  .controls s.roles s.terms watch s.opened le_rfl le_rfl

theorem reopens (s : State) (opened : OpenOrders) : Move c p a s { s with opened := opened } :=
  .controls s.roles s.terms s.watch opened le_rfl le_rfl

theorem Turn.indebted {next : Order} (turn : Turn o next) (debt : Nat) : Turn o (next.indebted debt) := by
  cases turn with
  | keeps phase refund => exact .keeps _ phase refund
  | refunded buy lane pending refund phase => exact .refunded _ buy lane pending refund phase
  | floatRefunded buy dispatched refund phase => exact .floatRefunded _ buy dispatched refund phase
  | closed buy returning phase => exact .closed _ buy returning phase
  | paid sell proceeds refund phase => exact .paid _ sell proceeds refund phase

/-- What leaves an order's escrow, with what the call brought and draws from the float, covers
the fee taken and the payment, pushed or owed. -/
theorem released_entry {m : Money} {next : Order} (deposit leaves fee amount drawn balance debt : Nat)
    (held : leaves ≤ m.escrowed) (left : o.inEscrow = next.inEscrow + leaves) (owed : next.owed = o.owed)
    (enough : amount + fee ≤ deposit + leaves + drawn) (paid : m.balance + deposit + debt ≤ balance + amount) :
    Entry m o ⟨balance, m.escrowed - leaves, m.accruedFees + fee, m.claimableTotal + debt⟩
      (next.indebted debt) drawn where
  escrow := by
    show m.escrowed - leaves + o.inEscrow = m.escrowed + next.inEscrow
    omega
  claims := by
    show m.claimableTotal + debt + o.owed = m.claimableTotal + (next.owed + debt)
    omega
  covered := by
    simp only [Money.liabilities]
    omega

/-- Rewriting an order, taking a fee and paying, as one entry. -/
theorem released_spec (s : State) (env : Env) (k id : Nat) (next : Order) (recipient : Address)
    (deposit leaves fee amount drawn : Nat) (fromFloat : Bool)
    (held : leaves ≤ s.money.escrowed) (left : (s.orders id).inEscrow = next.inEscrow + leaves)
    (owed : next.owed = (s.orders id).owed) (enough : amount + fee ≤ deposit + leaves + drawn) :
    ∃ money debt watch, pay c { s with
        orders := Function.update s.orders id next
        money := ⟨s.money.balance + deposit, s.money.escrowed - leaves, s.money.accruedFees + fee,
          s.money.claimableTotal⟩ } env k id recipient amount fromFloat =
      { s with
        orders := Function.update s.orders id (next.indebted debt), money := money
        watch := watch } ∧
      Entry s.money (s.orders id) money (next.indebted debt) drawn := by
  obtain ⟨balance, debt, watch, paid, pushed⟩ := pay_spec (c := c) { s with
    orders := Function.update s.orders id next
    money := ⟨s.money.balance + deposit, s.money.escrowed - leaves, s.money.accruedFees + fee,
      s.money.claimableTotal⟩ } env k id recipient amount fromFloat
  refine ⟨⟨balance, s.money.escrowed - leaves, s.money.accruedFees + fee,
    s.money.claimableTotal + debt⟩, debt, watch, ?_,
    released_entry deposit leaves fee amount drawn balance debt held left owed enough pushed⟩
  rw [paid]
  simp only [Function.update_self, Function.update_idem]

theorem released_moves (s : State) (env : Env) (k id : Nat) (next : Order) (recipient : Address)
    (deposit leaves fee amount drawn : Nat) (fromFloat : Bool) (placed : id < s.orderCount)
    (deal : next.deal = (s.orders id).deal) (turn : Turn (s.orders id) next)
    (float : p.unfloated → next.advanced = (s.orders id).advanced) (held : leaves ≤ s.money.escrowed)
    (left : (s.orders id).inEscrow = next.inEscrow + leaves) (owed : next.owed = (s.orders id).owed)
    (enough : amount + fee ≤ deposit + leaves + drawn) (free : drawn ≤ s.money.available) : Moves c p a s
      (pay c { s with
        orders := Function.update s.orders id next
        money := ⟨s.money.balance + deposit, s.money.escrowed - leaves, s.money.accruedFees + fee,
          s.money.claimableTotal⟩ } env k id recipient amount fromFloat) := by
  obtain ⟨money, debt, watch, paid, entry⟩ := released_spec (c := c) s env k id next recipient
    deposit leaves fee amount drawn fromFloat held left owed enough
  rw [paid]
  have turned : Move c p a s { s with
      orders := Function.update s.orders id (next.indebted debt), money := money } :=
    .turned id _ _ drawn placed deal (turn.indebted debt) float entry free
  exact .tail (.single turned) (watches _ watch)

/-- The same payment of an order that was just rewritten. -/
theorem released_next (s : State) (env : Env) (k id : Nat) (o next : Order) (m : Money) (recipient : Address)
    (deposit leaves fee amount drawn : Nat) (fromFloat : Bool) (placed : id < s.orderCount)
    (deal : next.deal = o.deal) (turn : Turn o next) (float : p.unfloated → next.advanced = o.advanced)
    (held : leaves ≤ m.escrowed) (left : o.inEscrow = next.inEscrow + leaves) (owed : next.owed = o.owed)
    (enough : amount + fee ≤ deposit + leaves + drawn) (free : drawn ≤ m.available) :
    Moves c p a { s with orders := Function.update s.orders id o, money := m }
      (pay c { s with
        orders := Function.update s.orders id next
        money := ⟨m.balance + deposit, m.escrowed - leaves, m.accruedFees + fee,
          m.claimableTotal⟩ } env k id recipient amount fromFloat) := by
  have paid := released_moves (c := c) (p := p) (a := a)
    { s with orders := Function.update s.orders id o, money := m } env k id next recipient deposit
    leaves fee amount drawn fromFloat placed
  simp only [Function.update_self, Function.update_idem] at paid
  exact paid deal turn float held left owed enough free

/-- Rewriting an order without money. -/
theorem kept_move (s : State) (id : Nat) (next : Order) (placed : id < s.orderCount)
    (deal : next.deal = (s.orders id).deal) (phase : next.phase = (s.orders id).phase)
    (refund : next.refundReady = (s.orders id).refundReady) (escrow : next.inEscrow = (s.orders id).inEscrow)
    (owed : next.owed = (s.orders id).owed) : Move c p a s { s with orders := Function.update s.orders id next } := by
  have entry : Entry s.money (s.orders id) s.money next 0 := by
    constructor
    · rw [escrow]
    · rw [owed]
    · omega
  exact .turned id next s.money 0 placed deal (.keeps _ phase (.inl refund))
    (fun _ => (phase_spec phase).2.2.1) entry (Nat.zero_le _)

theorem credited (s : State) (amount : Nat) : Move c p a s (s.deposit amount) :=
  .funds _ 0 rfl rfl (Nat.zero_le _) (by simp only [Money.liabilities]; omega)

/-! What an order's status says of it. -/

theorem Order.Regular.waitless (regular : o.Regular) (live : o.status ≠ .cancelled) : o.refundReady = 0 := by
  by_contra nonzero
  exact live (regular.refund nonzero)

theorem Order.Regular.returning (regular : o.Regular) (returning : o.status = .returning) :
    o.kind = .buy ∧ o.refundReady = 0 := by
  have proper := regular.proper
  refine ⟨?_, regular.waitless (by simp [returning])⟩
  simp only [Order.phase, returning] at proper
  cases kind : o.kind with
  | buy => rfl
  | sell => rcases outcome : o.outcome with _ | _ | _ | _ <;> simp_all [Proper]

theorem Order.Regular.proceeds (regular : o.Regular) (proceeds : o.status = .proceeds) : o.kind = .sell := by
  have proper := regular.proper
  simp only [Order.phase, proceeds] at proper
  cases kind : o.kind with
  | buy => rcases outcome : o.outcome with _ | _ | _ | _ <;> simp_all [Proper]
  | sell => rfl

theorem Order.Regular.pending (regular : o.Regular) (pending : o.status = .pending) :
    o.outcome = none ∧ o.refundReady = 0 := by
  have proper := regular.proper
  refine ⟨?_, regular.waitless (by simp [pending])⟩
  simp only [Order.phase, pending] at proper
  cases kind : o.kind <;> rcases outcome : o.outcome with _ | _ | _ | _ <;> simp_all [Proper]

theorem escrow_sell (sell : o.kind = .sell) : o.inEscrow = o.extra + o.held + o.refundReady := by
  simp [Order.inEscrow, Order.holdsFee, sell]

theorem escrow_queued (buy : o.kind = .buy) (pending : o.status = .pending) :
    o.inEscrow = o.amountIn + o.fee + o.extra + o.held + o.refundReady := by
  simp [Order.inEscrow, Order.holdsFee, buy, pending]

/-! Money that comes or goes takes its part of the escrow with it. -/

theorem escrow_held (o : Order) (held : Nat) :
    ({ o with held := held } : Order).inEscrow + o.held = o.inEscrow + held := by
  change (if o.kind = .buy ∧ o.status = .pending then o.amountIn else 0) +
    (if o.holdsFee then o.fee else 0) + o.extra + held + o.refundReady + o.held = _
  unfold Order.inEscrow
  omega

theorem escrow_extra (o : Order) (extra : Nat) :
    ({ o with extra := extra } : Order).inEscrow + o.extra = o.inEscrow + extra := by
  change (if o.kind = .buy ∧ o.status = .pending then o.amountIn else 0) +
    (if o.holdsFee then o.fee else 0) + extra + o.held + o.refundReady + o.extra = _
  unfold Order.inEscrow
  omega

theorem escrow_refund (o : Order) (refund : Nat) :
    ({ o with refundReady := refund } : Order).inEscrow + o.refundReady = o.inEscrow + refund := by
  change (if o.kind = .buy ∧ o.status = .pending then o.amountIn else 0) +
    (if o.holdsFee then o.fee else 0) + o.extra + o.held + refund + o.refundReady = _
  unfold Order.inEscrow
  omega

/-! The settlement rules. -/

theorem closeReturnedBuy_moves (s after : State) (env : Env) (id : Nat) (force : Bool) (placed : id < s.orderCount)
    (regular : (s.orders id).Regular) (returning : (s.orders id).status = .returning)
    (closed : closeReturnedBuy c s env id force = .ok after) : Moves c p a s after := by
  obtain ⟨buy, none⟩ := regular.returning returning
  have escrow : (s.orders id).inEscrow =
      (s.orders id).fee + (s.orders id).extra + (s.orders id).held := by
    simp [Order.inEscrow, Order.holdsFee, buy, returning, none]
  simp only [closeReturnedBuy, ite_ok, bind_ok, pure_ok, removeOpen_ok, unescrow_ok, sub_ok] at closed
  obtain ⟨_, rfl⟩ | ⟨_, ⟨_, rfl⟩ | ⟨_, _, ⟨opened, _, rfl⟩, closed⟩⟩ := closed
  · exact .refl
  · exact .refl
  simp only [State.set, Function.update_self, Function.update_idem] at closed
  rcases closed with ⟨lane, _, ⟨held, rfl⟩, rfl⟩ | ⟨lane, leftover, ⟨covers, rfl⟩, _, ⟨held, rfl⟩, closed⟩
  · refine .head (reopens s opened) ?_
    exact released_moves { s with opened := opened } env 0 id _ _ 0 _ 0 _ 0 false placed rfl
      (.closed _ buy returning rfl) (fun _ => rfl) held
      (escrow.trans (by simp [Order.inEscrow, Order.holdsFee, none]; omega)) rfl (by omega)
      (Nat.zero_le _)
  · have ends : pay c { { s with opened := opened } with
        orders := Function.update s.orders id { s.orders id with
          status := .cancelled, settledAt := env.now, held := 0, extra := 0, fee := 0
          refundReady := (s.orders id).amountIn }
        money := { s.money with escrowed := s.money.escrowed -
          ((s.orders id).held + (s.orders id).fee + (s.orders id).extra - (s.orders id).amountIn) } }
        env 0 id s.roles.opsVault
        ((s.orders id).held + (s.orders id).fee + (s.orders id).extra - (s.orders id).amountIn)
        false = after := by
      rcases closed with ⟨_, rfl⟩ | ⟨nothing, rfl⟩
      · rfl
      · simp [pay, Nat.eq_zero_of_not_pos nothing]
    rw [← ends]
    refine .head (reopens s opened) ?_
    exact released_moves { s with opened := opened } env 0 id _ _ 0 _ 0 _ 0 false placed rfl
      (.closed _ buy returning rfl) (fun _ => rfl) held
      (escrow.trans (by simp [Order.inEscrow, Order.holdsFee]; omega)) rfl (by omega)
      (Nat.zero_le _)

theorem flushHeld_moves (s after : State) (env : Env) (k id : Nat) (placed : id < s.orderCount)
    (flushed : flushHeld c s env k id = .ok after) : Moves c p a s after := by
  simp only [flushHeld, ite_ok, bind_ok, pure_ok, unescrow_ok] at flushed
  obtain ⟨_, rfl⟩ | ⟨_, _, ⟨held, rfl⟩, rfl⟩ := flushed
  · exact .refl
  · exact released_moves s env k id _ _ 0 _ 0 _ 0 false placed rfl (.keeps _ rfl (.inl rfl))
      (fun _ => rfl) held (escrow_held _ 0).symm rfl (by omega) (Nat.zero_le _)

/-- Paying what is held for a sold order, in full words. -/
theorem payHeldProceeds_ok (s after : State) (env : Env) (id : Nat)
    (back : isBack (s.orders id).held (s.orders id).amountOut)
    (paid : payHeldProceeds c s env id = .ok after) : ∃ fee opened,
      fee ≤ (s.orders id).held ∧ (s.orders id).held ≤ s.money.escrowed ∧
      after = pay c { s with
        orders := Function.update s.orders id { s.orders id with
          held := 0, fee := fee, amountOut := (s.orders id).held - fee, status := .filled }
        opened := opened
        money := { s.money with
          escrowed := s.money.escrowed - (s.orders id).held
          accruedFees := s.money.accruedFees + fee } }
        env 0 id (s.orders id).user ((s.orders id).held - fee) false := by
  simp only [payHeldProceeds, ite_ok, back, not_true_eq_false, false_and, not_false_eq_true,
    true_and, false_or, bind_ok, pure_ok, unescrow_ok, removeOpen_ok] at paid
  obtain ⟨_, ⟨held, rfl⟩, _, ⟨opened, _, rfl⟩, rfl⟩ := paid
  refine ⟨if (s.orders id).fee < (s.orders id).held then (s.orders id).fee else (s.orders id).held,
    opened, by split <;> omega, held, ?_⟩
  simp only [State.set, State.accrue, Function.update_self, Function.update_idem]

theorem payHeldProceeds_moves (s after : State) (env : Env) (id : Nat) (placed : id < s.orderCount)
    (regular : (s.orders id).Regular) (proceeds : (s.orders id).status = .proceeds)
    (paid : payHeldProceeds c s env id = .ok after) : Moves c p a s after := by
  by_cases back : isBack (s.orders id).held (s.orders id).amountOut
  · have sell := regular.proceeds proceeds
    obtain ⟨fee, opened, within, held, rfl⟩ := payHeldProceeds_ok s after env id back paid
    refine .head (reopens s opened) ?_
    exact released_moves { s with opened := opened } env 0 id _ _ 0 _ fee _ 0 false placed rfl
      (.paid _ sell proceeds rfl rfl) (fun _ => rfl) held
      ((escrow_sell sell).trans (by simp [Order.inEscrow, Order.holdsFee, sell]; omega)) rfl
      (by omega) (Nat.zero_le _)
  · simp only [payHeldProceeds, back, not_false_eq_true, if_true, pure_ok] at paid
    exact paid ▸ .refl

/-- A queued public buy is given back whole. -/
theorem refundBuy_moves (s after : State) (env : Env) (id : Nat) (placed : id < s.orderCount)
    (buy : (s.orders id).kind = .buy) (lane : (s.orders id).lane = 0) (pending : (s.orders id).status = .pending)
    (refunded : refundBuy c s env id = .ok after) : Moves c p a s after := by
  have queued := escrow_queued buy pending
  simp only [refundBuy, bind_ok, removeOpen_ok, unescrow_ok, ite_ok, pure_ok] at refunded
  obtain ⟨_, ⟨opened, _, rfl⟩, _, ⟨held, rfl⟩, ⟨reward, _⟩ | ⟨_, rfl⟩⟩ := refunded
  · simp [lane] at reward
  simp only [State.set, Function.update_self, Function.update_idem]
  refine .head (reopens s opened) ?_
  exact released_moves { s with opened := opened } env 0 id _ _ 0 _ 0 _ 0 false placed rfl
    (.refunded _ buy lane pending rfl rfl) (fun _ => rfl) held
    (queued.trans (by simp [Order.inEscrow, Order.holdsFee]; omega)) rfl (by omega) (Nat.zero_le _)

/-- A queued reward order is refunded exactly and its reservation given up. -/
theorem cancelReward_moves (s after : State) (env : Env) (id : Nat) (placed : id < s.orderCount)
    (regular : (s.orders id).Regular) (cancelled : Exits.cancelReward c s env id = .ok after) :
    Moves c p a s after := by
  simp only [Exits.cancelReward, bind_ok, require_ok, not_or, not_not, onCapacity_ok] at cancelled
  obtain ⟨_, ⟨lane, pending⟩, middle, refunded, capacity, booked, rfl⟩ := cancelled
  have buy := regular.reward lane
  have none := (regular.pending pending).2
  have queued := escrow_queued buy pending
  simp only [refundBuy, bind_ok, removeOpen_ok, unescrow_ok, ite_ok, pure_ok] at refunded
  obtain ⟨_, ⟨opened, _, rfl⟩, _, ⟨held, rfl⟩, ⟨_, rfl⟩ | ⟨other, _⟩⟩ := refunded
  · simp only [State.set] at held
    have leaves : s.money.escrowed - ((s.orders id).amountIn + (s.orders id).fee +
        (s.orders id).extra + (s.orders id).held) + (s.orders id).amountIn = s.money.escrowed -
        ((s.orders id).fee + (s.orders id).extra + (s.orders id).held) := by omega
    have covered : (s.orders id).fee + (s.orders id).extra + (s.orders id).held ≤
        s.money.escrowed := by omega
    simp only [State.set, State.escrow, Function.update_self, Function.update_idem, leaves] at booked ⊢
    obtain ⟨money, debt, watch, paid, entry⟩ := released_spec (c := c) { s with opened := opened }
      env 0 id { s.orders id with
        status := .cancelled, settledAt := env.now, extra := 0, held := 0
        refundReady := (s.orders id).amountIn } s.roles.opsVault 0
      ((s.orders id).fee + (s.orders id).extra + (s.orders id).held) 0
      ((s.orders id).amountIn + (s.orders id).fee + (s.orders id).extra + (s.orders id).held -
        (s.orders id).amountIn) 0 false covered
      (queued.trans (by simp [Order.inEscrow, Order.holdsFee, none]; omega)) rfl (by omega)
    simp only [Nat.add_zero] at paid
    rw [paid] at booked ⊢
    have withdrawn : Move c p a { s with opened := opened } { s with
        opened := opened
        orders := Function.update s.orders id (Order.indebted { s.orders id with
          status := .cancelled, settledAt := env.now, extra := 0, held := 0
          refundReady := (s.orders id).amountIn } debt)
        money := money, capacity := capacity } :=
      .withdrawn id _ _ _ placed rfl buy lane pending rfl entry booked
    exact .tail (.head (reopens s opened) (.single withdrawn)) (watches _ watch)
  · exact absurd lane other

theorem requestCancel_moves (s after : State) (env : Env) (id : Nat) (placed : id < s.orderCount)
    (regular : (s.orders id).Regular) (buy : (s.orders id).kind = .buy)
    (unfloated : p.unfloated → s.terms.floatEnabled = false)
    (done : Settlement.requestCancel c s env id = .ok after) : Moves c p a s after := by
  simp only [Settlement.requestCancel, ite_ok, bind_ok, pure_ok, removeOpen_ok, unescrow_ok] at done
  obtain ⟨⟨enabled, _, dispatched, nothing, free⟩, _, ⟨opened, _, rfl⟩, _, ⟨held, rfl⟩, rfl⟩ |
    ⟨_, rfl⟩ := done
  · simp only [State.set, Function.update_self, Function.update_idem]
    have none := regular.waitless (by simp [dispatched])
    refine .head (reopens s opened) ?_
    exact released_moves { s with opened := opened } env 0 id _ _ 0 _ 0 _ (s.orders id).amountIn
      true placed rfl (.floatRefunded _ buy dispatched rfl rfl)
      (fun off => by simp [State.set, unfloated off] at enabled) held
      (by simp [Order.inEscrow, Order.holdsFee, buy, dispatched, nothing, none]) rfl (by omega) free
  · exact .single (kept_move s id _ placed rfl rfl rfl rfl rfl)

theorem cancelBuy_moves (s after : State) (env : Env) (id : Nat) (placed : id < s.orderCount)
    (regular : (s.orders id).Regular) (unfloated : p.unfloated → s.terms.floatEnabled = false)
    (done : cancelBuy c s env id = .ok after) : Moves c p a s after := by
  simp only [cancelBuy, bind_ok, require_ok, ite_ok, not_or, not_not] at done
  obtain ⟨_, ⟨_, lane⟩, _, buy, ⟨pending, _, _, refunded⟩ | ⟨_, _, _, _, _, requested⟩⟩ := done
  · exact refundBuy_moves s after env id placed buy lane pending refunded
  · exact requestCancel_moves s after env id placed regular buy unfloated requested

theorem launch_moves (s after : State) (env : Env) (id routeFee dust : Nat) (launched : Bool)
    (placed : id < s.orderCount) (buy : (s.orders id).kind = .buy) (pending : (s.orders id).status = .pending)
    (done : Settlement.launch c s env id routeFee dust = .ok (after, launched)) :
    Moves c p a s after ∧ (launched = true →
      (after.orders id).status = .funded ∧ after.orderCount = s.orderCount) := by
  simp only [Settlement.launch, bind_ok, require_ok, ite_ok, pure_ok, onCapacity_ok, unescrow_ok,
    Prod.mk.injEq] at done
  obtain ⟨_, _, fits, checked, rest⟩ := done
  rcases rest with ⟨_, ⟨lane, _, refunded, rfl, rfl⟩ | ⟨_, rfl, rfl⟩⟩ |
    ⟨fit, middle, reserved, _, ⟨capacity, sent, rfl⟩, _, ⟨held, rfl⟩, _, covered, rfl, rfl⟩
  · exact ⟨refundBuy_moves s _ env id placed buy lane pending refunded, fun no => by cases no⟩
  · exact ⟨.refl, fun no => by cases no⟩
  have paysFee : routeFee ≤ (s.orders id).extra := by
    rcases checked with ⟨_, rfl⟩ | ⟨enough, _⟩
    · exact absurd rfl fit
    · omega
  have queued := escrow_queued buy pending
  obtain ⟨reservedCapacity, rfl, publicLane, rewardLane⟩ : ∃ capacity,
      { s with capacity := capacity } = middle ∧
      ((s.orders id).lane = 0 → Capacity.reservePublicFor s.capacity c.self (s.orders id).capKey
        (s.orders id).underlying (s.orders id).amountIn = .ok capacity) ∧
      ((s.orders id).lane ≠ 0 → capacity = s.capacity) := by
    rcases reserved with ⟨lane, capacity, booked, rfl⟩ | ⟨lane, rfl⟩
    · exact ⟨capacity, rfl, fun _ => booked, fun other => absurd lane other⟩
    · exact ⟨s.capacity, rfl, fun zero => absurd zero lane, fun _ => rfl⟩
  simp only [State.set, State.deposit, Function.update_self, Function.update_idem] at held covered ⊢
  refine ⟨.single (.launches id _ _ reservedCapacity capacity placed rfl buy pending rfl rfl ?_
    publicLane rewardLane sent), fun _ => ⟨trivial, trivial⟩⟩
  constructor
  · simp only [queued]
    simp only [Order.inEscrow, Order.holdsFee, buy]
    simp
    omega
  · rfl
  · simp only [Money.liabilities]
    omega

/-- Money that came in and is now held for an order. -/
theorem topped_move (s : State) (id amount : Nat) (next : Order) (placed : id < s.orderCount)
    (deal : next.deal = (s.orders id).deal) (phase : next.phase = (s.orders id).phase)
    (refund : next.refundReady = (s.orders id).refundReady) (escrow : next.inEscrow = (s.orders id).inEscrow + amount)
    (owed : next.owed = (s.orders id).owed) : Move c p a s { s with
      orders := Function.update s.orders id next
      money := { s.money with
        balance := s.money.balance + amount, escrowed := s.money.escrowed + amount } } := by
  have entry : Entry s.money (s.orders id) { s.money with
      balance := s.money.balance + amount, escrowed := s.money.escrowed + amount } next 0 := by
    constructor
    · rw [escrow]
      simp only
      omega
    · rw [owed]
    · simp only [Money.liabilities]
      omega
  exact .turned id next _ 0 placed deal (.keeps _ phase (.inl refund))
    (fun _ => (phase_spec phase).2.2.1) entry (Nat.zero_le _)

/-- Whatever a route returns is held, pays its order, or passes on to whom it belongs. -/
theorem receiveReturn_moves (s after : State) (env : Env) (id amount : Nat) (placed : id < s.orderCount)
    (regular : (s.orders id).Regular)
    (done : Settlement.receiveReturn c (s.deposit amount) env id amount = .ok after) : Moves c p a s after := by
  simp only [Settlement.receiveReturn, ite_ok, pure_ok] at done
  rcases done with ⟨_, rfl⟩ | ⟨_, ⟨_, held⟩ | ⟨_, rfl⟩⟩
  · exact .single (credited s amount)
  · have kept : ({ s.orders id with held := (s.orders id).held + amount } : Order).Regular :=
      ⟨regular.proper, regular.fees, regular.refund, regular.reward, regular.lanes⟩
    refine .head (topped_move s id amount { s.orders id with held := (s.orders id).held + amount }
      placed rfl rfl rfl ?_ rfl) ?_
    · have moved := escrow_held (s.orders id) ((s.orders id).held + amount)
      dsimp only
      omega
    simp only [State.set, State.escrow, State.deposit] at held
    rcases held with ⟨returning, closed⟩ | ⟨_, ⟨proceeds, paid⟩ | ⟨_, rfl⟩⟩
    · apply closeReturnedBuy_moves _ after env id false (by exact placed) _ _ closed
      · simpa only [Function.update_self] using kept
      · simpa only [Function.update_self] using returning
    · apply payHeldProceeds_moves _ after env id (by exact placed) _ _ paid
      · simpa only [Function.update_self] using kept
      · simpa only [Function.update_self] using proceeds
    · exact .refl
  · have passed := released_moves (c := c) (p := p) (a := a) s env 0 id (s.orders id)
      (lateTo (s.deposit amount) (s.orders id) amount) amount 0 0 amount 0 false placed rfl
      (.keeps _ rfl (.inl rfl)) (fun _ => rfl) (Nat.zero_le _) rfl rfl le_rfl (Nat.zero_le _)
    simp only [Function.update_eq_self, Nat.sub_zero, Nat.add_zero] at passed
    exact passed

theorem subsidize_moves (s after : State) (env : Env) (id amount : Nat) (placed : id < s.orderCount)
    (regular : (s.orders id).Regular) (done : Settlement.subsidize c (s.deposit amount) env id amount = .ok after) :
    Moves c p a s after := by
  simp only [Settlement.subsidize, ite_ok, pure_ok] at done
  have kept : ({ s.orders id with extra := (s.orders id).extra + amount } : Order).Regular :=
    ⟨regular.proper, regular.fees, regular.refund, regular.reward, regular.lanes⟩
  refine .head (topped_move s id amount { s.orders id with extra := (s.orders id).extra + amount }
    placed rfl rfl rfl ?_ rfl) ?_
  · have moved := escrow_extra (s.orders id) ((s.orders id).extra + amount)
    dsimp only
    omega
  simp only [State.set, State.escrow, State.deposit] at done
  rcases done with ⟨⟨returning, _⟩, closed⟩ | ⟨_, rfl⟩
  · apply closeReturnedBuy_moves _ after env id false (by exact placed) _ _ closed
    · simpa only [Function.update_self] using kept
    · simpa only [Function.update_self] using returning
  · exact .refl

/-- A reward adapter takes the shares in custody or the refund that waits. -/
theorem takeReward_moves (s : State) (env : Env) (orderId : CapKey) (taken : State × Nat × Nat × Nat)
    (rewards : s.rewardOrder orderId ≤ s.orderCount)
    (done : takeReward c s env orderId = .ok taken) : Moves c p a s taken.1 := by
  simp only [takeReward, bind_ok, require_ok, ite_ok, pure_ok, onArc_ok, unescrow_ok] at done
  obtain ⟨_, known, _, _, done⟩ := done
  have placed : s.rewardOrder orderId - 1 < s.orderCount := by omega
  rcases done with ⟨_, _, ⟨token, moved, rfl⟩, rfl⟩ |
    ⟨_, ⟨_, _, ⟨held, rfl⟩, after, sent, rfl⟩ | ⟨_, rfl⟩⟩
  · refine .head (kept_move s _ { s.orders (s.rewardOrder orderId - 1) with custodyRaw := 0 } placed
      rfl rfl rfl rfl rfl) ?_
    exact .single (.transfers _ token (transfer_supply _ _ _ _ _ moved))
  · obtain ⟨balance, rfl, paid⟩ := transfer_ok _ _ _ _ _ _ sent
    simp only [State.set] at held paid
    refine .single (.turned _ { s.orders (s.rewardOrder orderId - 1) with refundReady := 0 } _ 0
      placed rfl (.keeps _ rfl (.inr rfl)) (fun _ => rfl) ?_ (Nat.zero_le _))
    have moved := escrow_refund (s.orders (s.rewardOrder orderId - 1)) 0
    constructor
    · dsimp only [State.set]
      omega
    · rfl
    · simp only [Money.liabilities, State.set]
      omega
  · exact .refl

theorem claimPay_moves (s after : State) (env : Env) (id : Nat) (recipient : Address) (placed : id < s.orderCount)
    (done : claimPay c s env id recipient = .ok after) : Moves c p a s after := by
  simp only [claimPay, bind_ok, require_ok, sub_ok] at done
  obtain ⟨_, _, _, ⟨held, rfl⟩, sent⟩ := done
  obtain ⟨balance, rfl, paid⟩ := transfer_ok _ _ _ _ _ _ sent
  refine .single (.turned id { s.orders id with owed := 0 } _ 0 placed rfl
    (.keeps _ rfl (.inl rfl)) (fun _ => rfl) ?_ (Nat.zero_le _))
  constructor
  · rfl
  · simp only
    omega
  · simp only [Money.liabilities] at paid ⊢
    omega

theorem voidClaimable_moves (s after : State) (id amount : Nat) (placed : id < s.orderCount)
    (done : Settlement.voidClaimable s id amount = .ok after) : Moves c p a s after := by
  simp only [Settlement.voidClaimable, bind_ok, require_ok, sub_ok, pure_ok, not_or, not_lt] at done
  obtain ⟨_, ⟨_, owed⟩, _, ⟨held, rfl⟩, rfl⟩ := done
  refine .single (.turned id { s.orders id with owed := (s.orders id).owed - amount } _ 0 placed rfl
    (.keeps _ rfl (.inl rfl)) (fun _ => rfl) ?_ (Nat.zero_le _))
  constructor
  · rfl
  · simp only
    omega
  · simp only [Money.liabilities]
    omega

end Solonpad.Hub
