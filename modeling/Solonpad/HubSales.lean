import Solonpad.HubFrames

/-!
One sell followed through the hub's calls: what the hub pays its user, what it owes, and what its record
says was paid. Money that comes after the record is closed, and money held for a sale that brought
nothing, is paid as well and appears in no record; the owner may strike what is owed.
-/

namespace Solonpad.Hub

open Checked Chain Messages

variable {c : Config} {s after : State} {env : Env} {id : Nat} {o next : Order} {recipient : Address}
  {amount : Nat} {r : Result} {canonical changed : Bool}

/-- What the record of a sell says its user is paid. -/
def Order.due (o : Order) : Nat :=
  if o.status = .filled ∧ o.outcome = some .sold then o.amountOut else 0

def Order.closed (o : Order) : Prop := o.status = .filled ∨ o.status = .cancelled

instance (o : Order) : Decidable o.closed := inferInstanceAs (Decidable (_ ∨ _))

/-- The result says that the sell brought nothing. -/
def Order.barren (o : Order) (r : Result) : Prop :=
  o.outcome = none ∧ (r.outcome = .failed ∨ r.outcome = .sold ∧ r.amountOut = 0)

instance (o : Order) (r : Result) : Decidable (o.barren r) := inferInstanceAs (Decidable (_ ∧ _))

/-- What a call pays, now or later, beyond what the order's record will say. -/
def surplus (s : State) (call : Call) : Nat :=
  let o := s.orders (call.order s)
  match call.action with
  | .receiveReturn _ => if o.advanced = false ∧ o.closed then call.env.value else 0
  | .lzReceive _ r => if o.barren r then o.held else 0
  | .reconcile r => if o.lzSettled = false ∧ o.barren r then o.held else 0
  | _ => 0

/-- What the owner strikes. -/
def Call.struck (call : Call) : Nat :=
  match call.action with
  | .voidClaimable _ amount _ => amount
  | _ => 0

/-- The call may pay the user of the order it is about. -/
def Call.pays (call : Call) : Bool :=
  match call.action with
  | .claim _ | .receiveReturn _ | .lzReceive _ _ | .reconcile _ => true
  | _ => false

/-- What the caller sends with such a call. -/
def Call.brings (call : Call) : Nat :=
  match call.action with
  | .receiveReturn _ => call.env.value
  | _ => 0

/-- The money that leaves the hub in a call that may pay a user. -/
def paidOut (s : State) (call : Call) (after : State) : Nat :=
  if call.pays = true then s.money.balance + call.brings - after.money.balance else 0

/-- A sell between two calls: its deal stands, its record is written once, and what is paid, owed and
struck is what the record says and the surplus. -/
structure SaleTurn (o next : Order) (paid surplus struck : Nat) : Prop where
  deal : next.deal = o.deal
  unsold : next.outcome = none → next.amountOut = 0
  here : next.status ≠ .escalated
  closed : o.closed → next.status = o.status ∧ next.outcome = o.outcome ∧ next.amountOut = o.amountOut ∧
    next.rawOut = o.rawOut
  flow : paid + next.owed + o.due + struck = o.owed + next.due + surplus

/-- A sell of a user that is not the hub, on its way to the vault or back. -/
structure Sale (c : Config) (o : Order) : Prop where
  regular : o.Regular
  sell : o.kind = .sell
  here : o.status ≠ .escalated
  unsold : o.outcome = none → o.amountOut = 0
  user : o.user ≠ 0 ∧ o.user ≠ c.self

theorem Sale.lane (sale : Sale c o) : o.lane ≠ 1 := by
  intro reward
  have buy := sale.regular.reward reward
  rw [sale.sell] at buy
  cases buy

inductive SalePhase (o : Order) : Prop where
  | running (none : o.outcome = none) (status : o.status = .pending ∨ o.status = .dispatched)
      (advanced : o.advanced = false)
  | waiting (status : o.status = .proceeds) (sold : o.outcome = some .sold) (advanced : o.advanced = false)
  | filled (status : o.status = .filled) (sold : o.outcome = some .sold)
  | cancelled (status : o.status = .cancelled) (failed : o.outcome = some .failed) (advanced : o.advanced = false)

theorem Sale.phase (sale : Sale c o) : SalePhase o := by
  have proper := sale.regular.proper
  have here := sale.here
  rw [sale.sell, Order.phase] at proper
  cases status : o.status <;> cases outcome : o.outcome with
  | none =>
    rw [status, outcome] at proper
    first
      | exact .running outcome (.inl status) proper
      | exact .running outcome (.inr status) proper
      | exact absurd status here
      | cases proper
  | some outcome' =>
    rw [status, outcome] at proper
    cases outcome'
    all_goals first
      | exact .waiting status outcome proper
      | exact .filled status outcome
      | exact .cancelled status outcome proper
      | exact absurd status here
      | cases proper

theorem Sale.unclosed (sale : Sale c o) (none : o.outcome = none) : ¬ o.closed := by
  rintro (filled | cancelled)
  all_goals cases sale.phase with
    | running _ status => rcases status with status | status <;> simp_all
    | waiting _ sold => cases none.symm.trans sold
    | filled _ sold => cases none.symm.trans sold
    | cancelled _ failed => cases none.symm.trans failed

/-! Payments to the user. -/

/-- The order is rewritten, and an amount is paid to its user or owed to it. -/
def Pays (s after : State) (id : Nat) (next : Order) (amount : Nat) : Prop :=
  ∃ out debt, out + debt = amount ∧ after.orders id = next.indebted debt ∧
    after.money.balance + out = s.money.balance

theorem push_pays (s : State) (env : Env) (k id : Nat) (amount : Nat) (foreign : recipient ≠ c.self) :
    Pays s (push c s env k id recipient amount) id (s.orders id) amount := by
  unfold push
  split
  · next sent =>
    rw [State.sent, if_neg foreign]
    exact ⟨amount, 0, Nat.add_zero _, rfl, Nat.sub_add_cancel sent.2⟩
  · exact ⟨0, amount, Nat.zero_add _, Function.update_self .., rfl⟩

theorem pay_pays (s : State) (env : Env) (k id : Nat) (amount : Nat) (fromFloat : Bool)
    (user : recipient ≠ 0 ∧ recipient ≠ c.self) :
    Pays s (pay c s env k id recipient amount fromFloat) id (s.orders id) amount := by
  unfold pay
  split
  · next zero => exact ⟨0, 0, by rw [zero], rfl, rfl⟩
  · have pushed := push_pays s env k id amount user.2
    dsimp only
    rw [if_neg user.1]
    split
    · exact pushed
    · exact pushed

/-- The payment of an order that was just rewritten. -/
theorem Pays.of {middle : State} (paid : Pays middle after id next amount)
    (balance : middle.money.balance = s.money.balance) : Pays s after id next amount := by
  obtain ⟨out, debt, sum, order, money⟩ := paid
  exact ⟨out, debt, sum, order, balance ▸ money⟩

theorem pay_rewritten {middle : State} {k : Nat} {fromFloat : Bool} (order : middle.orders id = next)
    (user : recipient ≠ 0 ∧ recipient ≠ c.self) (balance : middle.money.balance = s.money.balance) :
    Pays s (pay c middle env k id recipient amount fromFloat) id next amount := by
  have paid := pay_pays middle env k id amount fromFloat user
  rw [order] at paid
  exact paid.of balance

theorem unheld (none : o.held = 0) : o = ({ o with held := 0 } : Order).indebted 0 := by
  cases o
  cases none
  rfl

theorem flushHeld_pays {k : Nat} (sell : (s.orders id).kind = .sell) (lane : (s.orders id).lane ≠ 1)
    (user : (s.orders id).user ≠ 0 ∧ (s.orders id).user ≠ c.self) (done : flushHeld c s env k id = .ok after) :
    Pays s after id { s.orders id with held := 0 } (s.orders id).held := by
  simp only [flushHeld, ite_ok, bind_ok, pure_ok, unescrow_ok] at done
  rcases done with ⟨none, rfl⟩ | ⟨_, _, ⟨_, rfl⟩, rfl⟩
  · exact ⟨0, 0, by rw [none], unheld none, rfl⟩
  · have late : ∀ s' : State, lateTo s' { s.orders id with held := 0 } (s.orders id).held =
        (s.orders id).user := by
      intro s'
      rw [lateTo, if_neg (by simp [sell]), if_neg lane]
    rw [late]
    have paid := pay_pays (c := c) { s.set id { s.orders id with held := 0 } with
      money := { s.money with escrowed := s.money.escrowed - (s.orders id).held } } env k id
      (s.orders id).held false user
    simp only [State.set, Function.update_self] at paid
    exact paid.of rfl

theorem payHeldProceeds_pays (user : (s.orders id).user ≠ 0 ∧ (s.orders id).user ≠ c.self)
    (back : isBack (s.orders id).held (s.orders id).amountOut)
    (done : payHeldProceeds c s env id = .ok after) : ∃ fee, Pays s after id { s.orders id with
      held := 0, fee := fee, amountOut := (s.orders id).held - fee, status := .filled }
      ((s.orders id).held - fee) := by
  obtain ⟨fee, opened, _, _, rfl⟩ := payHeldProceeds_ok s after env id back done
  refine ⟨fee, ?_⟩
  have paid := pay_pays (c := c) { s with
    orders := Function.update s.orders id { s.orders id with
      held := 0, fee := fee, amountOut := (s.orders id).held - fee, status := .filled }
    opened := opened
    money := { s.money with
      escrowed := s.money.escrowed - (s.orders id).held
      accruedFees := s.money.accruedFees + fee } } env 0 id ((s.orders id).held - fee) false user
  simp only [Function.update_self] at paid
  exact paid.of rfl

/-- A payment as a turn of the sell. -/
theorem Pays.turn {extra : Nat} (paid : Pays s after id next amount) (deal : next.deal = o.deal)
    (owed : next.owed = o.owed) (unsold : next.outcome = none → next.amountOut = 0) (here : next.status ≠ .escalated)
    (closed : o.closed → next.status = o.status ∧ next.outcome = o.outcome ∧ next.amountOut = o.amountOut ∧
      next.rawOut = o.rawOut)
    (flow : amount + o.due = next.due + extra) :
    SaleTurn o (after.orders id) (s.money.balance - after.money.balance) extra 0 := by
  obtain ⟨out, debt, sum, order, money⟩ := paid
  rw [order]
  refine ⟨deal, unsold, here, closed, ?_⟩
  show s.money.balance - after.money.balance + (next.owed + debt) + o.due + 0 = o.owed + next.due + extra
  omega

/-- An order rewritten without a payment. -/
theorem Pays.none (order : after.orders id = next) (balance : after.money.balance = s.money.balance) :
    Pays s after id next 0 := ⟨0, 0, rfl, order, balance⟩

theorem due_running (none : o.outcome = none) : o.due = 0 := by
  rw [Order.due, if_neg]
  rintro ⟨-, sold⟩
  rw [none] at sold
  cases sold

theorem due_open (unfilled : o.status ≠ .filled) : o.due = 0 := by
  rw [Order.due, if_neg]
  exact fun both => unfilled both.1

/-- What is held for a sold order is paid when it is enough. -/
theorem payHeldProceeds_turn {held : Nat} (sale : Sale c o) (waiting : o.status = .proceeds) (s : State)
    (order : s.orders id = { o with held := held }) (done : payHeldProceeds c s env id = .ok after) :
    SaleTurn o (after.orders id) (s.money.balance - after.money.balance) 0 0 := by
  have due := due_open (o := o) (by rw [waiting]; decide)
  have open' : ¬ o.closed := by
    rintro (filled | cancelled)
    · cases waiting.symm.trans filled
    · cases waiting.symm.trans cancelled
  have sold : o.outcome = some .sold := by
    cases sale.phase with
    | running _ status => rcases status with status | status <;> cases waiting.symm.trans status
    | waiting _ sold => exact sold
    | filled _ sold => exact sold
    | cancelled status => cases waiting.symm.trans status
  by_cases back : isBack (s.orders id).held (s.orders id).amountOut
  · obtain ⟨fee, paid⟩ := payHeldProceeds_pays (by rw [order]; exact sale.user) back done
    rw [order] at paid
    refine paid.turn (o := o) rfl rfl ?_ nofun (fun closed => absurd closed open') ?_
    · intro none
      cases sold.symm.trans none
    · rw [due, Order.due, if_pos ⟨rfl, sold⟩]
  · simp only [payHeldProceeds, back, not_false_eq_true, if_true, pure_ok] at done
    subst done
    refine (Pays.none order rfl).turn (o := o) rfl rfl sale.unsold (by rw [waiting]; decide)
      (fun closed => absurd closed open') ?_
    rw [due, due_open (by rw [waiting]; decide)]

theorem credited_order (s : State) (id : Nat) (o : Order) (amount : Nat) : ((s.set id o).escrow amount).orders id = o :=
  Function.update_self ..

theorem receiveReturn_turn (sale : Sale c (s.orders id))
    (done : Settlement.receiveReturn c s env id amount = .ok after) : SaleTurn (s.orders id) (after.orders id)
      (s.money.balance - after.money.balance)
      (if (s.orders id).advanced = false ∧ (s.orders id).closed then amount else 0) 0 := by
  simp only [Settlement.receiveReturn, ite_ok, pure_ok] at done
  rcases done with ⟨advanced, rfl⟩ | ⟨unadvanced, ⟨open', ⟨returning, _⟩ | ⟨_, ⟨waiting, paid⟩ |
    ⟨unpaid, rfl⟩⟩⟩ | ⟨closed, rfl⟩⟩
  · -- The float paid the sale: the money replenishes it.
    rw [if_neg (by simp [advanced])]
    exact (Pays.none rfl rfl).turn rfl rfl sale.unsold sale.here (fun _ => ⟨rfl, rfl, rfl, rfl⟩) (by omega)
  · cases sale.phase with
    | running _ status => rcases status with status | status <;> cases returning.symm.trans status
    | waiting status => cases returning.symm.trans status
    | filled status => cases returning.symm.trans status
    | cancelled status => cases returning.symm.trans status
  · rw [if_neg]
    · have turn := payHeldProceeds_turn sale waiting _ (credited_order _ _ _ amount) paid
      exact turn
    · rintro ⟨-, filled | cancelled⟩
      · cases waiting.symm.trans filled
      · cases waiting.symm.trans cancelled
  · -- The result decides later: the money is held.
    have running : (s.orders id).outcome = none ∧ ¬ (s.orders id).closed := by
      rcases open' with running | returning | waiting
      · exact running
      · contradiction
      · contradiction
    rw [if_neg fun both => running.2 both.2]
    have held := credited_order s id
      { s.orders id with held := (s.orders id).held + amount } amount
    refine (Pays.none (s := s) held rfl).turn (o := s.orders id) rfl rfl sale.unsold sale.here (fun closed => absurd closed running.2) ?_
    rw [due_running running.1]
    exact (due_running running.1).symm
  · -- Late money is the user's.
    have late : ∀ o amount', o = s.orders id → lateTo s o amount' = (s.orders id).user := by
      rintro o amount' rfl
      rw [lateTo, if_neg (by simp [sale.sell]), if_neg sale.lane]
    have shut : (s.orders id).closed := by
      cases sale.phase with
      | running none status =>
        refine absurd (.inl ⟨none, ?_⟩) closed
        rcases status with status | status <;> simp [status]
      | waiting status => exact absurd (.inr (.inr status)) closed
      | filled status => exact .inl status
      | cancelled status => exact .inr status
    rw [late _ _ rfl, if_pos ⟨by simpa using unadvanced, shut⟩]
    exact (pay_pays s env 0 id amount false sale.user).turn rfl rfl sale.unsold sale.here
      (fun _ => ⟨rfl, rfl, rfl, rfl⟩) (Nat.add_comm ..)

/-- A sell that is answered keeps everything when another result comes. -/
theorem ignored_turn (sale : Sale c (s.orders id)) : SaleTurn (s.orders id) (s.orders id)
    (s.money.balance - s.money.balance) 0 0 :=
  (Pays.none rfl rfl).turn rfl rfl sale.unsold sale.here (fun _ => ⟨rfl, rfl, rfl, rfl⟩) (Nat.add_comm ..)

theorem settleSold_turn (sale : Sale c (s.orders id)) (outcome : r.outcome = .sold)
    (done : settleSold c s env id r canonical = .ok (after, changed)) :
    SaleTurn (s.orders id) (after.orders id) (s.money.balance - after.money.balance)
      (if (s.orders id).barren r then (s.orders id).held else 0) 0 := by
  simp only [settleSold, ite_ok, bind_ok, pure_ok, onCapacity_ok, sub_ok, removeOpen_ok,
    unescrow_ok, Prod.mk.injEq] at done
  rcases done with ⟨buy, _⟩ | ⟨_, ⟨answered, rfl, _⟩ | ⟨live, _, ⟨_, rfl⟩, _, ⟨capacity, _, rfl⟩, done⟩⟩
  · cases sale.sell.symm.trans buy
  · rw [if_neg]
    · exact ignored_turn sale
    · rintro ⟨none, -⟩
      cases sale.phase with
      | running _ status =>
        refine answered.elim (fun shut => shut ?_) (fun some_ => some_ none)
        rcases status with status | status
        · exact .inr (.inl status)
        · exact .inl status
      | waiting _ sold => cases none.symm.trans sold
      | filled _ sold => cases none.symm.trans sold
      | cancelled _ failed => cases none.symm.trans failed
  have none := not_not.mp (not_or.mp live).2
  have unsold := sale.unsold none
  have due := due_running none
  have shut := sale.unclosed none
  obtain ⟨settled, watch, reconciled, same, _⟩ := markSettled_spec
    { s.set id { s.orders id with
        settledAt := env.now, fee := r.amountOut * scale * (s.orders id).feeBps / bps
        rawOut := r.amountOut, outcome := some .sold } with capacity := capacity }
    env.now id r.ref canonical
  rw [same] at done
  clear same
  simp only [State.set, Function.update_self, Function.update_idem] at done
  rcases done with ⟨nothing, _, ⟨opened, _, rfl⟩, _, flushed, rfl, _⟩ | ⟨some', done⟩
  · have zero : r.amountOut = 0 := by simpa [scale] using nothing
    rw [if_pos ⟨none, .inr ⟨outcome, zero⟩⟩]
    have paid := flushHeld_pays (by simp only [Function.update_self]; exact sale.sell)
      (by simp only [Function.update_self]; exact sale.lane)
      (by simp only [Function.update_self]; exact sale.user) flushed
    simp only [Function.update_self] at paid
    refine paid.turn (o := s.orders id) rfl rfl (fun same => by cases same) (fun same => by cases same)
      (fun closed => absurd closed shut) ?_
    rw [due, Order.due, if_pos ⟨rfl, rfl⟩]
    show (s.orders id).held + 0 = (s.orders id).amountOut + (s.orders id).held
    rw [unsold, Nat.add_comm]
  have barren : ¬ (s.orders id).barren r := by
    rintro ⟨-, failed | ⟨-, zero⟩⟩
    · cases outcome.symm.trans failed
    · exact some' (by rw [zero, Nat.zero_mul])
  rw [if_neg barren]
  rcases done with ⟨back, _, paid, rfl, _⟩ | ⟨_, ⟨_, _, ⟨_, rfl⟩, _, ⟨opened, _, rfl⟩, rfl, _⟩ | ⟨_, rfl, _⟩⟩
  · obtain ⟨fee, paid⟩ := payHeldProceeds_pays (by simp only [Function.update_self]; exact sale.user)
      (by simpa only [Function.update_self] using back) paid
    simp only [Function.update_self] at paid
    refine paid.turn (o := s.orders id) rfl rfl (fun same => by cases same) (fun same => by cases same)
      (fun closed => absurd closed shut) ?_
    rw [due, Order.due, if_pos ⟨rfl, rfl⟩]
  · -- The float pays the sale now.
    simp only [State.accrue, Function.update_self, Function.update_idem]
    apply Pays.turn (o := s.orders id)
    case paid => exact pay_rewritten (Function.update_self ..) sale.user rfl
    case flow => rw [due, Order.due, if_pos ⟨rfl, rfl⟩]
    case closed => exact fun closed => absurd closed shut
    case unsold | here =>
      intro same
      cases same
    · rfl
    · rfl
  · apply Pays.turn (o := s.orders id)
    case paid => exact Pays.none (Function.update_self ..) rfl
    case flow =>
      rw [due, due_open]
      intro same
      cases same
    case closed => exact fun closed => absurd closed shut
    case unsold | here =>
      intro same
      cases same
    · rfl
    · rfl

theorem settleFailed_turn (sale : Sale c (s.orders id)) (outcome : r.outcome = .failed)
    (done : settleFailed c s env id r canonical = .ok (after, changed)) :
    SaleTurn (s.orders id) (after.orders id) (s.money.balance - after.money.balance)
      (if (s.orders id).barren r then (s.orders id).held else 0) 0 := by
  simp only [settleFailed, ite_ok, bind_ok, pure_ok, removeOpen_ok, onCapacity_ok, onArc_ok,
    Prod.mk.injEq] at done
  rcases done with ⟨answered, rfl, _⟩ | ⟨open', ⟨buy, _⟩ | ⟨_, _, ⟨opened, _, rfl⟩, _, ⟨token, _, rfl⟩, _,
    ⟨capacity, _, rfl⟩, _, flushed, rfl, _⟩⟩
  · rw [if_neg]
    · exact ignored_turn sale
    · rintro ⟨none, -⟩
      cases sale.phase with
      | running _ status =>
        rcases status with status | status
        · exact answered.2.1 status
        · exact answered.1 ⟨none, .inl status⟩
      | waiting _ sold => cases none.symm.trans sold
      | filled _ sold => cases none.symm.trans sold
      | cancelled _ failed => cases none.symm.trans failed
  · cases sale.sell.symm.trans buy
  have none : (s.orders id).outcome = none := by
    cases sale.phase with
    | running none _ => exact none
    | waiting status sold => exact absurd ⟨fun open_ => by simp [unanswered, sold] at open_, by simp [status],
        by simp [sold], by simp [sold]⟩ open'
    | filled status sold => exact absurd ⟨fun open_ => by simp [unanswered, sold] at open_, by simp [status],
        by simp [sold], by simp [sold]⟩ open'
    | cancelled status failed => exact absurd ⟨fun open_ => by simp [unanswered, failed] at open_,
        by simp [status], by simp [failed], by simp [failed]⟩ open'
  rw [if_pos ⟨none, .inl outcome⟩]
  obtain ⟨settled, watch, reconciled, same, _⟩ := markSettled_spec
    (s.set id { s.orders id with outcome := some .failed, rawOut := 0 }) env.now id r.ref canonical
  rw [same] at flushed
  clear same
  simp only [State.set, Function.update_self, Function.update_idem] at flushed
  have paid := flushHeld_pays (by simp only [Function.update_self]; exact sale.sell)
    (by simp only [Function.update_self]; exact sale.lane)
    (by simp only [Function.update_self]; exact sale.user) flushed
  simp only [Function.update_self] at paid
  refine paid.turn (o := s.orders id) rfl rfl (fun same => by cases same) (fun same => by cases same)
    (fun closed => absurd closed (sale.unclosed none)) ?_
  rw [due_running none, due_open]
  · exact Nat.add_comm ..
  · intro same
    cases same

theorem settle_turn (sale : Sale c (s.orders id))
    (done : settle c s env id r canonical = .ok (after, changed)) : SaleTurn (s.orders id) (after.orders id)
      (s.money.balance - after.money.balance)
      (if (s.orders id).barren r then (s.orders id).held else 0) 0 := by
  unfold settle at done
  split at done
  · next outcome =>
    simp only [settleBought, sale.sell] at done
    cases done
    rw [if_neg]
    · exact ignored_turn sale
    · rintro ⟨-, failed | ⟨sold, -⟩⟩
      · cases outcome.symm.trans failed
      · cases outcome.symm.trans sold
  · next outcome => exact settleSold_turn sale outcome done
  · next outcome => exact settleFailed_turn sale outcome done

/-- A sell rewritten in nothing that its turns speak of. -/
theorem SaleTurn.kept (sale : Sale c o) (deal : next.deal = o.deal) (phase : next.phase = o.phase)
    (amountOut : next.amountOut = o.amountOut) (owed : next.owed = o.owed) : SaleTurn o next 0 0 0 := by
  simp only [Order.phase, Prod.mk.injEq] at phase
  obtain ⟨status, outcome, _, rawOut⟩ := phase
  refine ⟨deal, ?_, ?_, fun _ => ⟨status, outcome, amountOut, rawOut⟩, ?_⟩
  · rw [outcome, amountOut]
    exact sale.unsold
  · rw [status]
    exact sale.here
  · rw [owed, Order.due, Order.due, status, outcome, amountOut]
    omega

theorem claimPay_order (done : claimPay c s env id recipient = .ok after) :
    after.orders id = { s.orders id with owed := 0 } := by
  simp only [claimPay, bind_ok, require_ok, sub_ok] at done
  obtain ⟨_, _, _, _, sent⟩ := done
  obtain ⟨balance, rfl, _⟩ := transfer_ok _ _ _ _ _ _ sent
  exact Function.update_self ..

theorem claimPay_turn (sale : Sale c (s.orders id)) (done : claimPay c s env id (s.orders id).user = .ok after) :
    SaleTurn (s.orders id) (after.orders id) (s.money.balance - after.money.balance) 0 0 := by
  simp only [claimPay, transfer, bind_ok, require_ok, sub_ok, pure_ok] at done
  obtain ⟨_, _, _, _, _, ⟨_, covered⟩, rfl⟩ := done
  rw [State.sent, if_neg sale.user.2]
  have order : (Function.update s.orders id { s.orders id with owed := 0 }) id =
      { s.orders id with owed := 0 } := Function.update_self ..
  refine ⟨?_, ?_, ?_, ?_, ?_⟩
  all_goals simp only [State.set, order]
  · rfl
  · exact sale.unsold
  · exact sale.here
  · exact fun _ => by simp
  · have covered : (s.orders id).owed ≤ s.money.balance := covered
    show s.money.balance - (s.money.balance - (s.orders id).owed) + 0 + (s.orders id).due + 0 =
      (s.orders id).owed + (s.orders id).due + 0
    omega

theorem dispatch_turn {value : Nat} {refundTo : Address} (sale : Sale c (s.orders id))
    (pending : (s.orders id).status = .pending) (done : dispatchOrder c s env id value refundTo false = .ok after) :
    SaleTurn (s.orders id) (after.orders id) 0 0 0 := by
  obtain ⟨balance, at_, rfl, _⟩ := dispatchOrder_ok _ _ _ _ _ _ _ done
  have told : (Function.update s.orders id ((s.orders id).told at_ (s.orders id).extra (s.orders id).voided)) id =
      (s.orders id).told at_ (s.orders id).extra (s.orders id).voided := Function.update_self ..
  have none : (s.orders id).outcome = none := by
    cases sale.phase with
    | running none _ => exact none
    | waiting status _ => cases pending.symm.trans status
    | filled status _ => cases pending.symm.trans status
    | cancelled status _ _ => cases pending.symm.trans status
  refine ⟨?_, ?_, ?_, ?_, ?_⟩
  all_goals simp only [told]
  · rfl
  · exact sale.unsold
  · simp [Order.told, pending]
  · exact fun closed => absurd closed (sale.unclosed none)
  · rw [due_running none, due_running (by exact none)]
    simp only [Order.told, Nat.zero_add, Nat.add_zero]

theorem review_turn (sale : Sale c (s.orders id)) (done : review c s id r = .ok after) :
    SaleTurn (s.orders id) (after.orders id) (s.money.balance - after.money.balance) 0 0 := by
  simp only [review, ite_ok, onCapacity_ok, pure_ok] at done
  rcases done with ⟨_, _, _, rfl⟩ | ⟨_, rfl⟩
  · exact ignored_turn sale
  · have order : (Function.update s.orders id { s.orders id with disputed := true }) id =
        { s.orders id with disputed := true } := Function.update_self ..
    simp only [State.set, order, Nat.sub_self]
    exact .kept sale rfl rfl rfl rfl

/-- What a call does to the sell it is about. The user has code, so no one else escalates its orders. -/
theorem step_turn {call : Call} (regular : Regular s) (taken : step c s call = .ok after)
    (placed : call.order s < s.orderCount) (sale : Sale c (s.orders (call.order s)))
    (foreign : call.env.sender ≠ (s.orders (call.order s)).user) (code : call.env.plainUser = false) :
    SaleTurn (s.orders (call.order s)) (after.orders (call.order s)) (paidOut s call after) (surplus s call)
      call.struck := by
  obtain ⟨env, action⟩ := call
  cases action with
  | launch id routeFee dust =>
    simp only [step, launch, bind_ok, require_ok] at taken
    obtain ⟨_, _, _, _, _, _, _, buy, _⟩ := taken
    exact absurd (.inr (by rw [show (s.orders id).kind = .sell from sale.sell]; decide)) buy
  | dispatch id =>
    simp only [step, dispatch, bind_ok, require_ok] at taken
    obtain ⟨_, _, _, open', _, _, sent⟩ := taken
    have sell : ¬ (s.orders id).kind = .buy := by
      rw [show (s.orders id).kind = .sell from sale.sell]
      decide
    have turn := dispatch_turn (s := s.deposit env.value) sale ((if_neg sell).mp open') sent
    exact turn
  | cancel id =>
    simp only [step, cancel, cancelBuy, bind_ok, require_ok] at taken
    obtain ⟨_, _, _, _, _, buy, _⟩ := taken
    cases sale.sell.symm.trans buy
  | escalate id recipient =>
    simp only [step, escalate, Exits.escalate, checkEscalator, bind_ok, require_ok, ite_ok] at taken
    obtain ⟨_, _, _, _, _, _, _, _, _, ⟨same, _⟩ | ⟨_, plain⟩, _⟩ := taken
    · exact absurd same foreign
    · exact absurd (.inr code) plain
  | escalateFunds id recipient =>
    simp only [step, escalateFunds, Exits.escalateFunds, checkEscalator, bind_ok, require_ok, ite_ok] at taken
    obtain ⟨_, _, _, ⟨same, _⟩ | ⟨_, plain⟩, _⟩ := taken
    · exact absurd same foreign
    · exact absurd (.inr code) plain
  | voidOrder id =>
    simp only [step, voidOrder, checkVoid, bind_ok, require_ok] at taken
    obtain ⟨_, _, _, ⟨_, refused, _⟩, _⟩ := taken
    exact absurd (.inl (by rw [show ((s.deposit env.value).orders id).kind = .sell from sale.sell]; decide)) refused
  | cancelReward id =>
    simp only [step, cancelReward, Exits.cancelReward, bind_ok, require_ok] at taken
    obtain ⟨_, _, _, _, _, lane, _⟩ := taken
    exact absurd (.inl sale.lane) lane
  | claim id =>
    simp only [step, claim, bind_ok] at taken
    obtain ⟨_, _, done⟩ := taken
    rw [if_neg (show ¬ (s.orders id).lane = 1 from sale.lane)] at done
    exact claimPay_turn sale done
  | receiveReturn id =>
    simp only [step, receiveReturn, bind_ok] at taken
    obtain ⟨_, _, done⟩ := taken
    have turn := receiveReturn_turn (s := s.deposit env.value) sale done
    exact turn
  | submitFundedBuy key =>
    simp only [step, submitFundedBuy, rewardId, bind_ok, require_ok, pure_ok] at taken
    obtain ⟨_, _, _, ⟨_, known, _⟩, _⟩ := taken
    exact absurd (regular.laned key known) sale.lane
  | requestCancel key =>
    simp only [step, requestCancel, rewardId, bind_ok, require_ok, pure_ok] at taken
    obtain ⟨_, ⟨_, known, _⟩, _⟩ := taken
    exact absurd (regular.laned key known) sale.lane
  | claimResult key =>
    simp only [step, claimResult, takeReward, bind_ok, require_ok] at taken
    obtain ⟨_, ⟨_, known, _⟩, _⟩ := taken
    exact absurd (regular.laned key known) sale.lane
  | subsidize id =>
    simp only [step, subsidize, Settlement.subsidize, bind_ok, ite_ok, pure_ok] at taken
    obtain ⟨_, _, ⟨⟨returning, _⟩, _⟩ | ⟨_, rfl⟩⟩ := taken
    · have returning : (s.orders id).status = .returning := returning
      cases sale.phase with
      | running _ status => rcases status with status | status <;> cases returning.symm.trans status
      | waiting status => cases returning.symm.trans status
      | filled status => cases returning.symm.trans status
      | cancelled status => cases returning.symm.trans status
    · have order := credited_order (s.deposit env.value) id
        { s.orders id with extra := (s.orders id).extra + env.value } env.value
      show SaleTurn (s.orders id) (((s.deposit env.value).set id
        { s.orders id with extra := (s.orders id).extra + env.value }).escrow env.value |>.orders id) 0 0 0
      rw [order]
      exact .kept sale rfl rfl rfl rfl
  | lzReceive srcEid r =>
    obtain ⟨id, changed, named, _, settled⟩ := lzReceive_applies taken
    have about : Call.order s ⟨env, .lzReceive srcEid r⟩ = id := by simp only [Call.order, named]
    rw [about] at sale ⊢
    have turn := settle_turn sale settled
    simp only [surplus, about]
    exact turn
  | reconcile r =>
    cases named : r.ref with
    | order id =>
      have about : Call.order s ⟨env, .reconcile r⟩ = id := by simp only [Call.order, named]
      rw [about] at sale ⊢
      simp only [surplus, about]
      obtain ⟨_, ⟨settled, reviewed⟩ | ⟨fresh, changed, settled⟩⟩ := reconcile_applies named taken
      · rw [if_neg (by simp [settled])]
        exact review_turn sale reviewed
      · have turn := settle_turn sale settled
        simp only [Bool.eq_false_of_not_eq_true fresh, true_and]
        exact turn
    | migration underlying nonce =>
      have about : Call.order s ⟨env, .reconcile r⟩ = s.orderCount := by simp only [Call.order, named]
      exact absurd placed (by rw [about]; exact Nat.lt_irrefl _)
  | voidClaimable id amount evidence =>
    simp only [step, voidClaimable, Settlement.voidClaimable, bind_ok, require_ok, sub_ok, pure_ok] at taken
    obtain ⟨_, _, _, _, _, _, _, refused, _, _, rfl⟩ := taken
    have enough := not_lt.mp (not_or.mp refused).2
    have order : (Function.update s.orders id { s.orders id with owed := (s.orders id).owed - amount }) id =
        { s.orders id with owed := (s.orders id).owed - amount } := Function.update_self ..
    refine ⟨?_, ?_, ?_, ?_, ?_⟩
    all_goals simp only [Call.order, State.set, order]
    · rfl
    · exact sale.unsold
    · exact sale.here
    · exact fun _ => by simp
    · show 0 + ((s.orders id).owed - amount) + (s.orders id).due + amount =
        (s.orders id).owed + (s.orders id).due + 0
      omega
  | _ => exact absurd placed (Nat.lt_irrefl _)

end Solonpad.Hub
