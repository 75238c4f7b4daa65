import Solonpad.HubOrders

/-!
`SolonStockAdapter.sol`: a reward order from its signed quote to its result, and the fees that are paid in for it before
it starts. The hub, the oracle, the asset and the vault are behind `Peers`, over any state `V` they have. The hash of an
order id is never zero, and an order is none, started, submitted, consumed or refunded as its state is 0 to 4.
-/

namespace Solonpad.StockAdapter

open Checked
open Chain (Address)
open Hub (RoundOrderId)

inductive AdapterError where
  | invalidOrder | unauthorized | invalidQuote | inexactResult | peer
  deriving DecidableEq, Repr

abbrev Tx (α : Type) := Checked.Tx AdapterError α

structure SignedQuote where
  orderId : RoundOrderId
  budget18 : Nat
  minRawOut : Nat
  deadline : Nat
  nonce : Nat
  fees18 : Nat
  fixedCost18 : Nat
  deriving DecidableEq, Repr

inductive OrderState where
  | none | started | submitted | consumed | refunded
  deriving DecidableEq, Repr

structure Order where
  budget : Nat
  minRaw : Nat
  fees : Nat
  state : OrderState

def Order.blank : Order := ⟨0, 0, 0, .none⟩

structure State where
  orders : RoundOrderId → Order
  feeBalance : RoundOrderId → Nat
  nonceUsed : Nat → Bool

def deployed : State := ⟨fun _ => Order.blank, fun _ => 0, fun _ => false⟩

structure Config where
  coordinator : Address
  vault : Address
  opsVault : Address

structure Peers (V : Type) where
  /-- The hub's `fees`. -/
  buyFeeBps : V → Tx Nat
  /-- What the oracle gives for the asset. -/
  rawFor : V → Nat → Tx Nat
  isValidSignatureNow : SignedQuote → Bool
  beginFunding : V → RoundOrderId → Nat → Nat → Nat → Tx V
  fundingReceived : V → RoundOrderId → Tx Nat
  submitFundedBuy : V → RoundOrderId → Tx V
  requestCancel : V → RoundOrderId → Tx V
  claimResult : V → RoundOrderId → Tx (V × Nat × Nat × Nat)
  /-- The adapter's own stock and native balances, and the vault's stock. -/
  stock : V → Nat
  native : V → Nat
  vaultStock : V → Nat
  /-- To the vault: stock, and native money. -/
  safeTransfer : V → Nat → Tx V
  pay : V → Nat → Tx V

def oracleFloorBps : Nat := 100

variable {V : Type} (p : Peers V) (c : Config)

def State.state (s : State) (id : RoundOrderId) : OrderState := (s.orders id).state

def State.set (s : State) (id : RoundOrderId) (o : Order) : State :=
  { s with orders := Function.update s.orders id o }

def depositFees (s : State) (id : RoundOrderId) (value : Nat) : Tx State := do
  require (s.state id = .none) .invalidOrder
  pure { s with feeBalance := Function.update s.feeBalance id (s.feeBalance id + value) }

/-- `refundUnusedFees`; Ops may refuse the money. -/
def refundUnusedFees (s : State) (sender : Address) (id : RoundOrderId) (accepts : Bool) : Tx State := do
  require (s.state id ≠ .none ∨ sender = c.opsVault) .unauthorized
  pure (if accepts then { s with feeBalance := Function.update s.feeBalance id 0 } else s)

/-- `_internalFee`. -/
def internalFee (v : V) (budget : Nat) : Tx Nat := do
  let buyFeeBps ← p.buyFeeBps v
  pure (budget * buyFeeBps / 10000)

structure Start where
  sender : Address
  now : Nat
  value : Nat
  budget : Nat
  minRaw : Nat
  deadline : Nat
  vault : Address

def startFunding (s : State) (v : V) (call : Start) (id : RoundOrderId) (q : SignedQuote) : Tx (State × V) := do
  require (call.sender = c.coordinator) .unauthorized
  require (s.state id = .none ∧ 0 < call.budget ∧ 0 < call.minRaw ∧ call.value = call.budget ∧ call.vault = c.vault)
    .invalidOrder
  let fee ← internalFee p v call.budget
  require (100 * 10 ^ 18 ≤ call.budget ∧ q.fixedCost18 ≤ call.budget / 200 ∧ q.fees18 ≤ q.fixedCost18 + fee)
    .invalidQuote
  let raw ← p.rawFor v call.budget
  require (raw * (10000 - oracleFloorBps) ≤ call.minRaw * 10000) .invalidQuote
  require (q.orderId = id ∧ q.budget18 = call.budget ∧ q.minRawOut = call.minRaw ∧ q.deadline = call.deadline ∧
    call.now ≤ call.deadline ∧ s.nonceUsed q.nonce = false ∧ q.fees18 ≤ s.feeBalance id ∧
    p.isValidSignatureNow q = true) .invalidQuote
  let s := { s.set id ⟨call.budget, call.minRaw, q.fees18, .started⟩ with
    nonceUsed := Function.update s.nonceUsed q.nonce true
    feeBalance := Function.update s.feeBalance id (s.feeBalance id - q.fees18) }
  let v ← p.beginFunding v id call.budget call.minRaw (call.budget + q.fees18)
  pure (s, v)

def funded (s : State) (v : V) (id : RoundOrderId) : Tx Bool :=
  if s.state id = .none then pure false
  else do
    let received ← p.fundingReceived v id
    pure (decide ((s.orders id).budget ≤ received))

def submit (s : State) (v : V) (sender : Address) (id : RoundOrderId) : Tx (State × V) := do
  require (sender = c.coordinator) .unauthorized
  let ready ← funded p s v id
  require (s.state id = .started ∧ ready = true) .invalidOrder
  let v ← p.submitFundedBuy v id
  pure (s.set id { s.orders id with state := .submitted }, v)

def requestCancel (s : State) (v : V) (sender : Address) (id : RoundOrderId) : Tx V := do
  require (sender = c.coordinator) .unauthorized
  require (s.state id = .submitted) .invalidOrder
  p.requestCancel v id

/-- The stock that a result brought goes on to the vault. -/
def deliverStock (v : V) (beforeStock raw : Nat) : Tx V :=
  if raw = 0 then pure v
  else do
    let prior := p.vaultStock v
    let v ← p.safeTransfer v raw
    require (p.vaultStock v = prior + raw ∧ p.stock v = beforeStock) .inexactResult
    pure v

/-- The state after a result, with what the adapter must have received for it. -/
def settled (o : Order) (v after : V) (status raw refund18 : Nat) : Tx OrderState :=
  if status = 1 then do
    require ((o.state = .submitted ∨ o.state = .refunded) ∧ o.minRaw ≤ raw ∧ refund18 = 0 ∧
      p.stock after = p.stock v + raw ∧ p.native after = p.native v) .inexactResult
    pure .consumed
  else do
    require (status = 2 ∧ o.state ≠ .refunded ∧ raw = 0 ∧ refund18 = o.budget ∧
      p.native after = p.native v + refund18 ∧ p.stock after = p.stock v) .inexactResult
    pure .refunded

def consumeResult (s : State) (v : V) (sender : Address) (id : RoundOrderId) :
    Tx (State × V × Nat × Nat × Nat) := do
  require (sender = c.coordinator) .unauthorized
  let o := s.orders id
  require (o.state ≠ .none ∧ o.state ≠ .consumed) .invalidOrder
  let (after, status, raw, refund18) ← p.claimResult v id
  if status = 0 then do
    require (raw = 0 ∧ refund18 = 0 ∧ p.stock after = p.stock v ∧ p.native after = p.native v) .inexactResult
    pure (s, after, 0, 0, 0)
  else do
    let state ← settled p o v after status raw refund18
    let after ← deliverStock p after (p.stock v) raw
    let after ← if refund18 = 0 then pure after else p.pay after refund18
    pure (s.set id { o with state := state }, after, status, raw, refund18)

/-! What each call leaves of an order and its fees. -/

variable {p c} {s after : State} {v v' : V} {id : RoundOrderId} {sender : Address}

@[simp] theorem set_state_self (s : State) (id : RoundOrderId) (o : Order) : (s.set id o).state id = o.state := by
  simp only [State.state, State.set, Function.update_self]

theorem set_state_other (s : State) {id other : RoundOrderId} (o : Order) (different : other ≠ id) :
    (s.set id o).state other = s.state other := by
  simp only [State.state, State.set, Function.update_of_ne different]

/-- From one state to the next, an order that has started stays so, and one that has not keeps its fees. -/
structure Onward (s after : State) : Prop where
  started : ∀ id, s.state id ≠ .none → after.state id ≠ .none
  fees : ∀ id, after.state id = .none → s.feeBalance id ≤ after.feeBalance id

theorem Onward.refl (s : State) : Onward s s := ⟨fun _ held => held, fun _ _ => Nat.le_refl _⟩

theorem Onward.trans {middle : State} (first : Onward s middle) (second : Onward middle after) :
    Onward s after where
  started id held := second.started id (first.started id held)
  fees id fresh := by
    have before : middle.state id = .none := by
      by_contra begun
      exact second.started id begun fresh
    exact (first.fees id before).trans (second.fees id fresh)

theorem depositFees_ok {value : Nat} (done : depositFees s id value = .ok after) :
    s.state id = .none ∧
      after = { s with feeBalance := Function.update s.feeBalance id (s.feeBalance id + value) } := by
  simp only [depositFees, bind_ok, require_ok, pure_ok] at done
  obtain ⟨_, fresh, rfl⟩ := done
  exact ⟨fresh, rfl⟩

theorem depositFees_onward {value : Nat} (done : depositFees s id value = .ok after) : Onward s after := by
  obtain ⟨_, rfl⟩ := depositFees_ok done
  refine ⟨fun _ held => held, ?_⟩
  intro other _
  dsimp only
  by_cases same : other = id
  · subst same
    rw [Function.update_self]
    exact Nat.le_add_right ..
  · rw [Function.update_of_ne same]

/-- Only Ops takes fees out of an order that has not started. -/
theorem refundUnusedFees_ok {accepts : Bool} (done : refundUnusedFees c s sender id accepts = .ok after) :
    (s.state id ≠ .none ∨ sender = c.opsVault) ∧ after.orders = s.orders ∧
      ∀ other, (accepts = true → other ≠ id) → after.feeBalance other = s.feeBalance other := by
  simp only [refundUnusedFees, bind_ok, require_ok, pure_ok] at done
  obtain ⟨_, allowed, rfl⟩ := done
  refine ⟨allowed, ?_⟩
  split
  · next taken => exact ⟨rfl, fun other apart => Function.update_of_ne (apart taken) ..⟩
  · exact ⟨rfl, fun _ _ => rfl⟩

theorem refundUnusedFees_onward {accepts : Bool} (done : refundUnusedFees c s sender id accepts = .ok after)
    (spared : accepts = true → s.state id = .none → s.feeBalance id = 0) : Onward s after := by
  obtain ⟨_, orders, others⟩ := refundUnusedFees_ok done
  have states : ∀ other, after.state other = s.state other := fun other => by rw [State.state, State.state, orders]
  refine ⟨fun other held => (states other).symm ▸ held, ?_⟩
  intro other fresh
  by_cases taken : accepts = true ∧ other = id
  · obtain ⟨taken, rfl⟩ := taken
    rw [spared taken ((states other).symm.trans fresh)]
    exact Nat.zero_le _
  · exact (others other fun accepted same => taken ⟨accepted, same⟩).ge

/-- The order was new, is the quote's, and has started. -/
theorem startFunding_ok {call : Start} {q : SignedQuote} (done : startFunding p c s v call id q = .ok (after, v')) :
    q.orderId = id ∧ s.state id = .none ∧ after.state id ≠ .none ∧ Onward s after ∧
      p.beginFunding v id call.budget call.minRaw (call.budget + q.fees18) = .ok v' := by
  simp only [startFunding, bind_ok, require_ok, pure_ok, Prod.mk.injEq] at done
  obtain ⟨_, _, _, ⟨fresh, _⟩, _, _, _, _, _, _, _, _, _, ⟨own, _⟩, _, begun, rfl, rfl⟩ := done
  have started : (s.set id ⟨call.budget, call.minRaw, q.fees18, .started⟩).state id ≠ .none := by
    rw [set_state_self]
    nofun
  refine ⟨own, fresh, started, ⟨?_, ?_⟩, begun⟩
  · intro other held
    by_cases same : other = id
    · subst same
      exact started
    · exact (set_state_other s _ same).symm ▸ held
  · intro other unbegun
    by_cases same : other = id
    · subst same
      exact absurd unbegun started
    · dsimp only
      rw [Function.update_of_ne same]

theorem set_onward (o : Order) (held : o.state ≠ .none) : Onward s (s.set id o) := by
  refine ⟨?_, fun _ _ => Nat.le_refl _⟩
  intro other begun
  by_cases same : other = id
  · subst same
    rwa [set_state_self]
  · rwa [set_state_other s _ same]

theorem submit_ok (done : submit p c s v sender id = .ok (after, v')) :
    Onward s after ∧ p.submitFundedBuy v id = .ok v' := by
  simp only [submit, bind_ok, require_ok, pure_ok, Prod.mk.injEq] at done
  obtain ⟨_, _, _, _, _, _, _, sent, rfl, rfl⟩ := done
  exact ⟨set_onward _ nofun, sent⟩

theorem requestCancel_ok (done : requestCancel p c s v sender id = .ok v') : p.requestCancel v id = .ok v' := by
  simp only [requestCancel, bind_ok, require_ok] at done
  obtain ⟨_, _, _, _, sent⟩ := done
  exact sent

/-- What the hub answered, and the transfers after it. -/
theorem consumeResult_ok {status raw refund18 : Nat}
    (done : consumeResult p c s v sender id = .ok (after, v', status, raw, refund18)) :
    Onward s after ∧ ∃ claimed given owed, p.claimResult v id = .ok (claimed, status, given, owed) ∧
      ∃ delivered, (delivered = claimed ∨ ∃ raw, p.safeTransfer claimed raw = .ok delivered) ∧
        (v' = delivered ∨ ∃ refund18, p.pay delivered refund18 = .ok v') := by
  simp only [consumeResult, bind_ok, require_ok] at done
  obtain ⟨_, _, _, _, ⟨claimed, answer, given, owed⟩, claim, done⟩ := done
  simp only [ite_ok, bind_ok, require_ok, pure_ok, Prod.mk.injEq] at done
  rcases done with ⟨rfl, _, _, rfl, rfl, rfl, _⟩ | ⟨_, state, fits, delivered, moved, done⟩
  · exact ⟨.refl s, _, _, _, claim, _, .inl rfl, .inl rfl⟩
  · have held : state ≠ .none := by
      simp only [settled, ite_ok, bind_ok, require_ok, pure_ok] at fits
      rcases fits with ⟨_, _, _, rfl⟩ | ⟨_, _, _, rfl⟩ <;> nofun
    have sent : delivered = claimed ∨ ∃ raw, p.safeTransfer claimed raw = .ok delivered := by
      simp only [deliverStock, ite_ok, bind_ok, require_ok, pure_ok] at moved
      rcases moved with ⟨_, rfl⟩ | ⟨_, _, sent, _, _, rfl⟩
      · exact .inl rfl
      · exact .inr ⟨_, sent⟩
    rcases done with ⟨_, _, rfl, rfl, rfl, rfl, _⟩ | ⟨_, _, paid, rfl, rfl, rfl, _⟩
    · exact ⟨set_onward _ held, _, _, _, claim, delivered, sent, .inl rfl⟩
    · exact ⟨set_onward _ held, _, _, _, claim, delivered, sent, .inr ⟨_, paid⟩⟩

end Solonpad.StockAdapter
