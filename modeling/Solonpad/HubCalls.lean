import Solonpad.HubResults

/-!
The hub's calls as chains of moves: messages to the vault, the canonical lane and the entry
points, up to the statement about any accepted call.
-/

namespace Solonpad.Hub

open Checked Chain Messages

variable {c : Config} {p : Promises} {a : Action} {o : Order}

/-! Messages to the vault. -/

/-- An order that was handed to LayerZero. -/
def Order.told (o : Order) (dispatchedAt extra : Nat) (voided : Bool) : Order :=
  { o with
    status := if o.status = .cancelled then .cancelled else .dispatched
    dispatchedAt := dispatchedAt, extra := extra, voided := voided }

theorem dispatchOrder_ok (s after : State) (env : Env) (id valueForFee : Nat) (refundTo : Address)
    (void : Bool) (done : dispatchOrder c s env id valueForFee refundTo void = .ok after) :
    ∃ balance dispatchedAt, after = { s with
      orders := Function.update s.orders id
        ((s.orders id).told dispatchedAt (s.orders id).extra (s.orders id).voided)
      money := { s.money with balance := balance }
      packets := s.packets ++ [if void then { orderMessage id (s.orders id) with amountIn := 0 }
        else orderMessage id (s.orders id)] } ∧
      s.money.balance ≤ balance + valueForFee := by
  simp only [dispatchOrder, bind_ok, require_ok, ite_ok, pure_ok] at done
  obtain ⟨_, enough, _, funded, _, _, ⟨_, refunded⟩ | ⟨_, rfl⟩⟩ := done
  · obtain ⟨balance, rfl, paid⟩ := transfer_ok _ _ _ _ _ _ refunded
    simp only [State.set] at paid funded
    refine ⟨balance, _, rfl, ?_⟩
    omega
  · simp only [State.set] at funded
    refine ⟨_, _, rfl, ?_⟩
    dsimp only [State.set]
    omega

/-- Being told of an order moves no more of its money than its reserve pays. -/
theorem Sends.escrow {id : Nat} {m : Messages.Order} (sends : Sends id o m) (dispatchedAt extra : Nat)
    (voided : Bool) : (o.told dispatchedAt extra voided).inEscrow + o.extra = o.inEscrow + extra := by
  cases sends with
  | order open' =>
    rcases open' with funded | ⟨sell, pending⟩
    · simp [Order.told, Order.inEscrow, Order.holdsFee, funded]
      omega
    · simp [Order.told, Order.inEscrow, Order.holdsFee, sell]
      omega
  | void buy unanswered open' =>
    rcases open' with funded | dispatched | ⟨cancelled, _⟩
    · simp [Order.told, Order.inEscrow, Order.holdsFee, funded]
      omega
    · simp [Order.told, Order.inEscrow, Order.holdsFee, dispatched]
      omega
    · simp [Order.told, Order.inEscrow, Order.holdsFee, cancelled]
      omega

/-- Telling the vault of an order, its fee paid from what the call brought and the order's own
reserve. -/
theorem told_move (s : State) (id leaves balance dispatchedAt : Nat) (m : Messages.Order) (voided : Bool)
    (placed : id < s.orderCount) (message : Sends id (s.orders id) m) (reserve : leaves ≤ (s.orders id).extra)
    (held : leaves ≤ s.money.escrowed) (paid : s.money.balance ≤ balance + leaves) : Move c p a s { s with
      orders := Function.update s.orders id
        ((s.orders id).told dispatchedAt ((s.orders id).extra - leaves) voided)
      money := { s.money with balance := balance, escrowed := s.money.escrowed - leaves }
      packets := s.packets ++ [m] } := by
  have moved := message.escrow dispatchedAt ((s.orders id).extra - leaves) voided
  refine .sends id _ _ m placed rfl message rfl rfl ?_
  constructor
  · dsimp only
    omega
  · rfl
  · simp only [Money.liabilities]
    omega

theorem dispatchOrder_moves (s after : State) (env : Env) (id value : Nat) (refundTo : Address)
    (placed : id < s.orderCount)
    (open' : (s.orders id).status = .funded ∨ (s.orders id).kind = .sell ∧ (s.orders id).status = .pending)
    (done : dispatchOrder c (s.deposit value) env id value refundTo false = .ok after) : Moves c p a s after := by
  obtain ⟨balance, dispatchedAt, rfl, paid⟩ := dispatchOrder_ok _ _ _ _ _ _ _ done
  have told := told_move (c := c) (p := p) (a := a) s id 0 balance dispatchedAt _
    (s.orders id).voided placed (.order open') (Nat.zero_le _) (Nat.zero_le _)
    (by simp only [State.deposit] at paid; omega)
  exact .single told

theorem dispatchFromReserve_moves (s after : State) (env : Env) (id : Nat)
    (placed : id < s.orderCount) (funded : (s.orders id).status = .funded)
    (done : dispatchFromReserve c s env id = .ok after) : Moves c p a s after := by
  simp only [dispatchFromReserve, bind_ok, require_ok, unescrow_ok] at done
  obtain ⟨_, reserve, _, ⟨held, rfl⟩, sent⟩ := done
  obtain ⟨balance, dispatchedAt, rfl, paid⟩ := dispatchOrder_ok _ _ _ _ _ _ _ sent
  simp only [State.set, Function.update_self, Function.update_idem] at held paid ⊢
  have told := told_move (c := c) (p := p) (a := a) s id env.lzFee balance dispatchedAt _
    (s.orders id).voided placed (.order (.inl funded)) (by omega) held paid
  exact .single told

theorem voidOrder_moves (s after : State) (env : Env) (id : Nat) (operator : Bool)
    (placed : id < s.orderCount) (checked : State)
    (done : checkVoid (s.deposit env.value) id operator env.value env.lzFee = .ok checked)
    (sent : dispatchOrder c checked env id (if env.value < env.lzFee then env.lzFee else env.value)
      env.sender true = .ok after) : Moves c p a s after := by
  simp only [checkVoid, bind_ok, require_ok, ite_ok, pure_ok, unescrow_ok] at done
  obtain ⟨_, allowed, done⟩ := done
  obtain ⟨balance, dispatchedAt, rfl, paid⟩ := dispatchOrder_ok _ _ _ _ _ _ _ sent
  have message : Sends id (s.orders id) { orderMessage id (s.orders id) with amountIn := 0 } := by
    simp only [State.deposit] at allowed
    rw [not_or, not_or] at allowed
    obtain ⟨buy, unanswered, open'⟩ := allowed
    refine .void (not_not.mp buy) (not_not.mp unanswered) ?_
    rcases not_not.mp open' with ⟨advanced, cancelled⟩ | ⟨funded | dispatched, _⟩
    · exact .inr (.inr ⟨cancelled, advanced⟩)
    · exact .inl funded
    · exact .inr (.inl dispatched)
  rcases done with ⟨covered, rfl⟩ | ⟨short, _, _, _, reserve, held, rfl⟩
  · have told := told_move (c := c) (p := p) (a := a) s id 0 balance dispatchedAt _
      (s.orders id).voided placed message (Nat.zero_le _) (Nat.zero_le _)
      (by simp only [State.deposit] at paid; split at paid <;> omega)
    exact .single told
  · simp only [State.set, State.deposit, Function.update_self, Function.update_idem] at held paid ⊢
    have told := told_move (c := c) (p := p) (a := a) s id (env.lzFee - env.value) balance
      dispatchedAt _ true placed message (by simp only [State.deposit] at reserve; omega) held
      (by split at paid <;> omega)
    exact .single told

/-! The canonical lane. -/

theorem sendDeliver_ok (s after : State) (env : Env) (id : Nat) (underlying : Address)
    (shares : Nat) (recipient : Address) (mode : DeliverMode) (paid : Nat)
    (done : sendDeliver c s env id underlying shares recipient mode paid = .ok after) :
    ∃ balance, after = { s with
      money := { s.money with balance := balance }
      deliveries := s.deliveries ++ [⟨.order id, underlying, shares, recipient, mode⟩] } ∧
      s.money.balance ≤ balance + paid := by
  simp only [sendDeliver, bind_ok, require_ok, pure_ok] at done
  obtain ⟨_, _, _, _, _, ⟨_, covered⟩, rfl⟩ := done
  obtain ⟨balance, moved, enough⟩ := sent_spec (c := c) s s.roles.gate paid covered
  rw [moved]
  exact ⟨balance, rfl, enough⟩

theorem exitPay_spec (s : State) (env : Env) (id : Nat) (recipient : Address) (amount : Nat) :
    ∃ balance debt, Exits.pay c s env id recipient amount = { s with
      orders := Function.update s.orders id ((s.orders id).indebted debt)
      money := { s.money with
        balance := balance, claimableTotal := s.money.claimableTotal + debt } } ∧
      s.money.balance + debt ≤ balance + amount := by
  unfold Exits.pay
  split
  · refine ⟨s.money.balance, 0, ?_, by omega⟩
    simp [Order.indebted]
  · exact push_spec s env 0 id recipient amount

def Order.escalated (o : Order) : Order := { o with status := .escalated }

/-- An order handed to the canonical lane while none of its money moves. -/
theorem escalated_move (s : State) (id balance shares : Nat) (recipient : Address) (placed : id < s.orderCount)
    (why : Delivers (s.orders id) shares) (kept : (s.orders id).escalated.inEscrow = (s.orders id).inEscrow)
    (paid : s.money.balance ≤ balance) : Move c p a s { s with
      orders := Function.update s.orders id (s.orders id).escalated
      money := { s.money with balance := balance }
      deliveries := s.deliveries ++
        [⟨.order id, (s.orders id).underlying, shares, recipient, .settlement⟩] } := by
  refine .delivers id _ _ shares recipient placed rfl why rfl rfl ?_
  constructor
  · rw [kept]
  · rfl
  · simp only [Money.liabilities]
    omega

theorem escalate_moves (s after : State) (env : Env) (id : Nat) (recipient : Address) (placed : id < s.orderCount)
    (done : Exits.escalate c (s.deposit env.value) env id recipient = .ok after) : Moves c p a s after := by
  simp only [Exits.escalate, bind_ok, require_ok, removeOpen_ok] at done
  obtain ⟨_, sell, _, open', _, _, _, _, _, ⟨opened, _, rfl⟩, sent⟩ := done
  obtain ⟨balance, rfl, paid⟩ := sendDeliver_ok _ _ _ _ _ _ _ _ _ sent
  simp only [State.set, State.deposit] at paid sell open'
  have kept : (s.orders id).escalated.inEscrow = (s.orders id).inEscrow := by
    rw [escrow_sell sell, escrow_sell (by exact sell)]
    rfl
  have escalated := escalated_move (c := c) (p := p) (a := a) { s with opened := opened }
    id balance (toUint128 (s.orders id).amountIn) recipient placed (.sell sell open') kept
    (by dsimp only; omega)
  exact .head (reopens s opened) (.single escalated)

theorem smaller (left right : Nat) [Decidable (left < right)] :
    (if left < right then left else right) = min left right := by
  split <;> omega

/-- Handing over an answered order: what Arc holds of it leaves the escrow, and `added` comes on
top of that for the fee. -/
theorem handed_moves (s : State) (id : Nat) (opened : OpenOrders) (next : Order)
    (value added leaves fee amount balance : Nat) (recipient : Address) (debt before : Nat)
    (placed : id < s.orderCount) (deal : next.deal = (s.orders id).deal) (lane : (s.orders id).lane = 0)
    (answered : (s.orders id).status = .returning ∨ (s.orders id).status = .proceeds)
    (refund : next.refundReady = (s.orders id).refundReady)
    (phase : next.phase = (.escalated, (s.orders id).outcome, (s.orders id).advanced, (s.orders id).rawOut))
    (held : leaves ≤ s.money.escrowed) (left : (s.orders id).inEscrow = next.inEscrow + leaves)
    (owed : next.owed = (s.orders id).owed) (enough : amount + fee ≤ added + leaves)
    (pushed : s.money.balance + value + debt ≤ before + amount) (sent : before ≤ balance + (value - added))
    (brought : added ≤ value) :
    Moves c p a s { s with
      opened := opened
      orders := Function.update s.orders id (next.indebted debt)
      money := ⟨balance, s.money.escrowed - leaves, s.money.accruedFees + fee,
        s.money.claimableTotal + debt⟩
      deliveries := s.deliveries ++
        [⟨.order id, (s.orders id).underlying, 0, recipient, .settlement⟩] } := by
  have entry := released_entry (m := s.money) (o := s.orders id) added leaves fee amount 0 balance debt held left
    owed enough (by omega)
  have delivered : Move c p a { s with opened := opened } { s with
      opened := opened
      orders := Function.update s.orders id (next.indebted debt)
      money := ⟨balance, s.money.escrowed - leaves, s.money.accruedFees + fee,
        s.money.claimableTotal + debt⟩
      deliveries := s.deliveries ++
        [⟨.order id, (s.orders id).underlying, 0, recipient, .settlement⟩] } :=
    .delivers id _ _ 0 recipient placed deal (.money lane answered) refund phase entry
  exact .head (reopens s opened) (.single delivered)

theorem escalateAnswered_moves (s after : State) (env : Env) (id : Nat) (recipient : Address)
    (placed : id < s.orderCount) (regular : (s.orders id).Regular) (lane : (s.orders id).lane = 0)
    (done : escalateAnswered c (s.deposit env.value) env id recipient = .ok after) : Moves c p a s after := by
  simp only [escalateAnswered, smaller, bind_ok, require_ok, removeOpen_ok, ite_ok, unescrow_ok] at done
  obtain ⟨_, open', _, _, _, ⟨opened, _, rfl⟩, done⟩ := done
  have answered : (s.orders id).status = .returning ∨ (s.orders id).status = .proceeds := by
    by_contra neither
    exact open' (not_or.mp neither)
  rcases done with ⟨buy, _, ⟨held, rfl⟩, sent⟩ | ⟨other, _, ⟨held, rfl⟩, _, enough, sent⟩
  · simp only [State.set, State.deposit, Function.update_self, Function.update_idem] at buy held sent
    obtain ⟨balance, rfl, paid⟩ := sendDeliver_ok _ _ _ _ _ _ _ _ _ sent
    have returning : (s.orders id).status = .returning := by
      rcases answered with returning | proceeds
      · exact returning
      · have sell := regular.proceeds proceeds
        simp [buy] at sell
    obtain ⟨before, debt, same, pushed⟩ := exitPay_spec (c := c) { s with
        opened := opened
        orders := Function.update s.orders id { s.orders id with
          status := .escalated, held := 0, fee := 0, extra := 0 }
        money := { s.money with
          balance := s.money.balance + env.value
          escrowed := s.money.escrowed -
            ((s.orders id).held + ((s.orders id).fee + (s.orders id).extra)) } }
      env id (s.orders id).user ((s.orders id).held + ((s.orders id).fee + (s.orders id).extra))
    rw [same] at paid ⊢
    simp only [Function.update_self, Function.update_idem] at paid ⊢
    have left : (s.orders id).inEscrow = ({ s.orders id with
        status := .escalated, held := 0, fee := 0, extra := 0 } : Order).inEscrow +
        ((s.orders id).held + ((s.orders id).fee + (s.orders id).extra)) := by
      simp [Order.inEscrow, Order.holdsFee, buy, returning]
      omega
    exact handed_moves s id opened { s.orders id with
        status := .escalated, held := 0, fee := 0, extra := 0 } env.value 0
      ((s.orders id).held + ((s.orders id).fee + (s.orders id).extra)) 0 _ balance recipient debt
      before placed rfl lane answered rfl rfl held left rfl (by omega) pushed (by omega)
      (Nat.zero_le _)
  · simp only [State.set, State.deposit, State.accrue, Function.update_self,
      Function.update_idem] at other held enough sent
    obtain ⟨balance, rfl, paid⟩ := sendDeliver_ok _ _ _ _ _ _ _ _ _ sent
    have sell := sells other
    obtain ⟨before, debt, same, pushed⟩ := exitPay_spec (c := c) { s with
        opened := opened
        orders := Function.update s.orders id { s.orders id with status := .escalated, held := 0 }
        money := { s.money with
          balance := s.money.balance + env.value
          escrowed := s.money.escrowed - (s.orders id).held
          accruedFees := s.money.accruedFees + (s.orders id).fee } }
      env id (s.orders id).user ((s.orders id).held - min (s.orders id).fee (s.orders id).held)
    rw [same] at paid ⊢
    simp only [Function.update_self, Function.update_idem] at paid ⊢
    have left : (s.orders id).inEscrow = ({ s.orders id with
        status := .escalated, held := 0 } : Order).inEscrow + (s.orders id).held := by
      rw [escrow_sell sell, escrow_sell (by exact sell)]
      dsimp only
      omega
    exact handed_moves s id opened { s.orders id with status := .escalated, held := 0 } env.value
      ((s.orders id).fee - min (s.orders id).fee (s.orders id).held) (s.orders id).held
      (s.orders id).fee _ balance recipient debt before placed rfl lane answered rfl rfl held left rfl (by omega) pushed (by omega) (by omega)

theorem escalateFunds_moves (s after : State) (env : Env) (id : Nat) (recipient : Address)
    (placed : id < s.orderCount) (regular : (s.orders id).Regular)
    (done : Exits.escalateFunds c (s.deposit env.value) env id recipient = .ok after) : Moves c p a s after := by
  simp only [Exits.escalateFunds, bind_ok, require_ok, ite_ok] at done
  obtain ⟨_, _, _, lane, ⟨⟨buy, none, _, open'⟩, _, _, sent⟩ | ⟨_, answered⟩⟩ := done
  · obtain ⟨balance, rfl, paid⟩ := sendDeliver_ok _ _ _ _ _ _ _ _ _ sent
    simp only [State.set, State.deposit] at paid buy none open'
    have kept : (s.orders id).escalated.inEscrow = (s.orders id).inEscrow := by
      rcases open' with funded | dispatched
      · simp [Order.escalated, Order.inEscrow, Order.holdsFee, buy, none, funded]
      · simp [Order.escalated, Order.inEscrow, Order.holdsFee, buy, none, dispatched]
    have escalated := escalated_move (c := c) (p := p) (a := a) s id balance 0 recipient
      placed (.void buy lane none open') kept (by omega)
    exact .single escalated
  · exact escalateAnswered_moves s after env id recipient placed regular lane answered

/-! Placing. -/

/-- The order that `place` appends. -/
def Order.placedIn (s : State) (now : Nat) (user underlying : Address) (kind : Kind)
    (status : Status) (amountIn minOut fee : Nat) : Order :=
  { Order.blank with
    user := user
    underlying := underlying
    kind := kind
    status := status
    createdAt := now
    amountIn := amountIn
    minOut := minOut
    fee := fee
    feeBps := if kind = .buy then s.terms.buyFeeBps else s.terms.sellFeeBps
    route := (s.terms.listings underlying).route
    capKey := .order s.orderCount }

theorem placedIn_as {s : State} (regular : Regular s) (now : Nat) (user underlying : Address)
    (kind : Kind) (status : Status) (amountIn minOut fee : Nat) :
    Placed.As (Order.placedIn s now user underlying kind status amountIn minOut fee) kind status := by
  refine ⟨rfl, rfl, rfl, ?_⟩
  dsimp only [Order.placedIn]
  split
  · exact regular.buyFee
  · exact regular.sellFee

/-- A sell holds no money when it is placed. -/
theorem sell_entry {m : Money} (balance : Nat) (sell : o.kind = .sell)
    (nothing : o.extra = 0 ∧ o.held = 0 ∧ o.refundReady = 0 ∧ o.owed = 0) (paid : m.balance ≤ balance) :
    Entry m Order.blank { m with balance := balance } o 0 := by
  obtain ⟨extra, held, refund, owed⟩ := nothing
  constructor
  · rw [escrow_sell sell, extra, held, refund]
    rfl
  · rw [owed]
    rfl
  · simp only [Money.liabilities]
    omega

/-- The shares are burned, less the fee in shares, and the sell goes straight to the lane. -/
theorem canonicalRedeem_moves (s after : State) (env : Env) (underlying : Address) (sharesIn : Nat)
    (recipient : Address) (mode : DeliverMode) (regular : Regular s)
    (done : Exits.canonicalRedeem c (s.deposit env.value) env underlying sharesIn recipient mode =
      .ok after) : Moves c p a s after := by
  simp only [Exits.canonicalRedeem, bind_ok, require_ok, onArc_ok, ite_ok, pure_ok, sub_ok,
    onCapacity_ok, removeOpen_ok] at done
  obtain ⟨_, _, _, _, _, ⟨burned, burns, rfl⟩, taxed, mints, net, ⟨within, rfl⟩, _, _, _,
    ⟨capacity, booked, rfl⟩, _, ⟨opened, _, rfl⟩, sent⟩ := done
  obtain ⟨balance, rfl, paid⟩ := sendDeliver_ok _ _ _ _ _ _ _ _ _ sent
  have gone := burn_supply _ _ _ _ burns
  obtain ⟨token, rfl, supply⟩ : ∃ token,
      { s.deposit env.value with arc := Function.update s.arc underlying token } = taxed ∧
      token.totalSupply = burned.totalSupply + sharesIn * s.terms.sellFeeBps / bps := by
    rcases mints with ⟨_, token, minted, rfl⟩ | ⟨nothing, rfl⟩
    · refine ⟨token, ?_, ?_⟩
      · simp only [State.deposit, Function.update_idem]
      · simpa only [State.deposit, Function.update_self] using mint_supply _ _ _ _ minted
    · have zero : sharesIn * s.terms.sellFeeBps / bps = 0 := Nat.eq_zero_of_not_pos nothing
      exact ⟨burned, rfl, by rw [zero, Nat.add_zero]⟩
  simp only [place, State.set, State.deposit, Function.update_self] at booked paid gone within ⊢
  generalize sharesIn * s.terms.sellFeeBps / bps = fee at supply booked paid within ⊢
  have redeemed := Move.redeems (c := c) (p := p) (a := a) (s := s)
    (Order.placedIn s env.now env.sender underlying .sell .escalated (sharesIn - fee) 0 0)
    token capacity { s.money with balance := balance } recipient mode
    (placedIn_as regular _ _ _ _ _ _ _ _) rfl rfl
    (sell_entry balance rfl ⟨rfl, rfl, rfl, rfl⟩ (by omega)) (by dsimp only [Order.placedIn]; omega)
    booked
  exact .tail (.single redeemed) (reopens _ opened)

theorem requestSell_moves (s after : State) (env : Env) (underlying : Address) (sharesIn minUsdcOut : Nat)
    (regular : Regular s) (done : requestSell c s env underlying sharesIn minUsdcOut = .ok after) :
    Moves c p a s after := by
  simp only [requestSell, bind_ok, require_ok, onArc_ok, ite_ok, pure_ok, onCapacity_ok] at done
  obtain ⟨_, _, _, _, _, ⟨token, burns, rfl⟩, _, ⟨capacity, booked, rfl⟩, done⟩ := done
  have gone := burn_supply _ _ _ _ burns
  simp only [place, State.set, Function.update_self] at booked done
  have sold := Move.placesSell (c := c) (p := p) (a := a) (s := s)
    (Order.placedIn s env.now env.sender underlying .sell .pending sharesIn minUsdcOut 0) token
    capacity (placedIn_as regular _ _ _ _ _ _ _ _) rfl rfl
    (sell_entry s.money.balance rfl ⟨rfl, rfl, rfl, rfl⟩ le_rfl) gone booked
  have queued := Relation.ReflTransGen.single sold |>.tail
    (reopens _ (s.opened.push s.orderCount))
  rcases done with ⟨_, sent⟩ | ⟨_, rfl⟩
  · refine queued.trans (dispatchOrder_moves _ after env s.orderCount env.value env.sender ?_ ?_ sent)
    · exact Nat.lt_succ_self _
    · simp only [Function.update_self]
      exact .inr ⟨rfl, rfl⟩
  · exact queued.tail (credited _ env.value)

/-- What `placeBuy` leaves, before the caller's own marks. -/
theorem placeBuy_ok (s : State) (env : Env) (user underlying : Address) (usdcIn minShares extra lane feeFromExtra : Nat)
    (placed : Placed) (done : placeBuy s env user underlying usdcIn minShares extra lane feeFromExtra = .ok placed) :
    ∃ principal fee, placed.state = { s with
      orders := Function.update s.orders s.orderCount
        { Order.placedIn s env.now user underlying .buy .pending principal minShares fee with
          lane := lane, extra := extra }
      orderCount := s.orderCount + 1, opened := s.opened.push s.orderCount
      money := { s.money with escrowed := s.money.escrowed + (principal + fee + extra) } } ∧
      principal + fee = usdcIn + if lane = 0 then 0 else feeFromExtra := by
  simp only [placeBuy, bind_ok, ite_ok, pure_ok, sub_ok] at done
  obtain ⟨⟨amount, charge⟩, split', rfl⟩ := done
  refine ⟨amount - amount % scale, charge + amount % scale, ?_, ?_⟩
  · simp only [place, State.set, State.escrow, Function.update_self, Function.update_idem]
    rfl
  · have dust := Nat.mod_le amount scale
    rcases split' with ⟨lane, _, ⟨within, rfl⟩, same⟩ | ⟨lane, same⟩
    · simp only [Prod.mk.injEq] at same
      rw [if_pos lane]
      omega
    · simp only [Prod.mk.injEq] at same
      rw [if_neg lane]
      omega

theorem buy_entry {m : Money} (value : Nat) (buy : o.kind = .buy) (pending : o.status = .pending)
    (nothing : o.held = 0 ∧ o.refundReady = 0 ∧ o.owed = 0) (paid : o.amountIn + o.fee + o.extra ≤ value) :
    Entry m Order.blank { m with
      balance := m.balance + value
      escrowed := m.escrowed + (o.amountIn + o.fee + o.extra) } o 0 := by
  obtain ⟨held, refund, owed⟩ := nothing
  constructor
  · rw [escrow_queued buy pending, held, refund]
    rfl
  · rw [owed]
    rfl
  · simp only [Money.liabilities]
    omega

theorem requestBuy_moves (s after : State) (env : Env) (underlying : Address) (usdcIn minSharesOut : Nat)
    (regular : Regular s) (done : requestBuy s env underlying usdcIn minSharesOut = .ok after) :
    Moves c p a s after := by
  simp only [requestBuy, bind_ok, require_ok, pure_ok] at done
  obtain ⟨_, _, _, _, _, _, _, enough, placed, made, _, _, rfl⟩ := done
  obtain ⟨principal, fee, same, whole⟩ := placeBuy_ok _ _ _ _ _ _ _ _ _ _ made
  rw [if_pos rfl] at whole
  rw [same]
  have bought := Move.placesBuy (c := c) (p := p) (a := a) (s := s)
    { Order.placedIn s env.now env.sender underlying .buy .pending principal minSharesOut fee with
      lane := 0, extra := env.value - usdcIn } _
    ⟨rfl, rfl, rfl, (placedIn_as regular env.now env.sender underlying .buy .pending principal
      minSharesOut fee).fees⟩ rfl rfl
    (buy_entry env.value rfl rfl ⟨rfl, rfl, rfl⟩ (by dsimp only [Order.placedIn]; omega))
  exact .tail (.single bought) (reopens _ (s.opened.push s.orderCount))

theorem beginFunding_moves (s after : State) (env : Env) (orderId : CapKey) (underlying : Address)
    (budget18 minRawOut : Nat) (receiver : Address) (path : Nat) (regular : Regular s)
    (done : beginFunding s env orderId underlying budget18 minRawOut receiver path = .ok after) :
    Moves c p a s after := by
  simp only [beginFunding, beginReward, bind_ok, require_ok, pure_ok, sub_ok, not_or, not_not] at done
  obtain ⟨_, _, _, _, _, _, _, ⟨_, unplaced, reserved, _, unsent, _⟩, value, ⟨brought, rfl⟩, _,
    enough, placed, made, rfl⟩ := done
  obtain ⟨principal, fee, same, whole⟩ := placeBuy_ok _ _ _ _ _ _ _ _ _ _ made
  rw [if_neg (by simp)] at whole
  rw [same]
  simp only [State.set, State.deposit, Function.update_self, Function.update_idem] at whole brought enough ⊢
  have bought := Move.placesReward (c := c) (p := p) (a := a) (s := s)
    { Order.placedIn s env.now receiver underlying .buy .pending principal minRawOut fee with
      lane := 1, capKey := orderId
      extra := env.value - budget18 - budget18 * s.terms.buyFeeBps / bps } _
    ⟨rfl, rfl, rfl, (placedIn_as regular env.now receiver underlying .buy .pending principal
      minRawOut fee).fees⟩ rfl unplaced reserved
    (Bool.eq_false_of_not_eq_true unsent)
    (buy_entry env.value rfl rfl ⟨rfl, rfl, rfl⟩ (by dsimp only [Order.placedIn]; omega))
  exact .tail (.single bought) (reopens _ (s.opened.push s.orderCount))

/-! Entry points over the settlement rules. -/

theorem launch_entry_moves (s after : State) (env : Env) (id routeFee dust : Nat)
    (done : launch c s env id routeFee dust = .ok after) : Moves c p a s after := by
  simp only [launch, known, bind_ok, require_ok, ite_ok, pure_ok, not_or, not_not] at done
  obtain ⟨_, _, _, _, _, placed, _, ⟨pending, buy⟩, ⟨middle, launched⟩, first, done⟩ := done
  obtain ⟨moves, funded⟩ := launch_moves (c := c) (p := p) (a := a) s middle env id routeFee dust
    launched placed buy pending first
  rcases done with ⟨⟨yes, _⟩, sent⟩ | ⟨_, rfl⟩
  · obtain ⟨status, count⟩ := funded yes
    exact moves.trans (dispatchFromReserve_moves middle after env id (count ▸ placed) status sent)
  · exact moves

theorem lzReceive_moves (s after : State) (env : Env) (srcEid : Nat) (r : Result) (regular : Regular s)
    (applies : a.result = some (r, false)) (trusted : ∀ id, r.ref = .order id → p.trusted → s.isSent id)
    (unfloated : p.unfloated → s.terms.floatEnabled = false)
    (ample : ∀ id, r.ref = .order id → p.ample → r.outcome = .sold → saleOpen (s.orders id) →
      floatPays s env.now id r.amountOut →
      r.amountOut * scale ≤ s.money.available + (s.orders id).held)
    (done : lzReceive c s env srcEid r = .ok after) : Moves c p a s after := by
  simp only [lzReceive, known, bind_ok, require_ok, pure_ok] at done
  obtain ⟨id, named, _, placed, _, _, ⟨middle, changed⟩, settled, rfl⟩ := done
  have ref : r.ref = .order id := by
    unfold orderId at named
    split at named
    · next same =>
      rw [pure_ok] at named
      rw [same, named]
    · cases named
  exact settle_moves placed (regular.orders id) applies ref
    (fun promised buy pending => (regular.sent id (trusted id ref promised)).2 ⟨buy, pending⟩)
    unfloated (ample id ref) settled

theorem reconcile_moves (s after : State) (env : Env) (r : Result) (regular : Regular s)
    (applies : a.result = some (r, true)) (trusted : ∀ id, r.ref = .order id → p.trusted → s.isSent id)
    (unfloated : p.unfloated → s.terms.floatEnabled = false)
    (ample : ∀ id, r.ref = .order id → p.ample → r.outcome = .sold → saleOpen (s.orders id) →
      floatPays s env.now id r.amountOut →
      r.amountOut * scale ≤ s.money.available + (s.orders id).held)
    (done : reconcile c s env r = .ok after) : Moves c p a s after := by
  simp only [reconcile, bind_ok, require_ok] at done
  obtain ⟨_, _, _, unproven, done⟩ := done
  cases ref : r.ref with
  | migration underlying nonce =>
    rw [ref] at done
    simp only at done
    rw [← ref] at done
    exact migrationMint_moves s after r applies underlying nonce ref unproven done
  | order id =>
    rw [ref] at done
    simp only [known, bind_ok, require_ok, ite_ok, pure_ok] at done
    obtain ⟨_, placed, ⟨_, reviewed⟩ | ⟨_, ⟨middle, changed⟩, settled, rfl⟩⟩ := done
    · exact review_moves placed ref reviewed
    · exact settle_moves placed (regular.orders id) applies ref
        (fun promised buy pending => (regular.sent id (trusted id ref promised)).2 ⟨buy, pending⟩)
        unfloated (ample id ref) settled

/-! Any call. -/

instance (s : State) (id : Nat) : Decidable (s.isSent id) := inferInstanceAs (Decidable (_ ∨ _))

/-- The order a call's result answers, with the result. -/
def Call.answer (call : Call) : Option (Nat × Result) :=
  match call.action.result with
  | some (r, _) =>
    match r.ref with
    | .order id => some (id, r)
    | .migration _ _ => none
  | none => none

theorem answer_order {call : Call} {r : Result} {canonical : Bool} {id : Nat}
    (applies : call.action.result = some (r, canonical)) (ref : r.ref = .order id) : (id, r) ∈ call.answer := by
  unfold Call.answer
  rw [applies]
  simp only [ref]
  rfl

/-- A result for an order concerns one the vault was told of. -/
def Told (s : State) (call : Call) : Prop := ∀ answer ∈ call.answer, s.isSent answer.1

instance (s : State) (call : Call) : Decidable (Told s call) :=
  inferInstanceAs (Decidable (∀ _ ∈ _, _))

/-- Where the float pays a sale, what is free with what is held covers the sale's fee too. -/
def Covered (s : State) (call : Call) : Prop :=
  ∀ answer ∈ call.answer, answer.2.outcome = .sold → saleOpen (s.orders answer.1) →
    floatPays s call.env.now answer.1 answer.2.amountOut →
    answer.2.amountOut * scale ≤ s.money.available + (s.orders answer.1).held

instance (s : State) (call : Call) : Decidable (Covered s call) :=
  inferInstanceAs (Decidable (∀ _ ∈ _, _ → _ → _ → _))

def promises (s : State) (call : Call) : Promises where
  trusted := Told s call
  ample := Covered s call
  unfloated := s.terms.floatEnabled = false

theorem funds_move (s : State) (money : Money) (drawn : Nat)
    (escrow : money.escrowed = s.money.escrowed)
    (claims : money.claimableTotal = s.money.claimableTotal) (free : drawn ≤ s.money.available)
    (covered : s.money.balance + money.liabilities ≤
      money.balance + s.money.liabilities + drawn) : Moves c p a s { s with money := money } :=
  .single (.funds money drawn escrow claims free covered)

theorem claimFees_moves (s after : State) (env : Env) (done : claimFees c s env = .ok after) : Moves c p a s after := by
  simp only [claimFees, send, bind_ok, require_ok, ite_ok, pure_ok] at done
  obtain ⟨_, _, ⟨_, rfl⟩ | ⟨_, sent⟩⟩ := done
  · refine funds_move s _ 0 rfl rfl (Nat.zero_le _) ?_
    simp only [Money.liabilities]
    omega
  · obtain ⟨balance, rfl, paid⟩ := transfer_ok _ _ _ _ _ _ sent
    refine funds_move s _ 0 rfl rfl (Nat.zero_le _) ?_
    simp only [Money.liabilities] at paid ⊢
    omega

theorem withdrawFloat_moves (s after : State) (env : Env) (recipient : Address) (amount : Nat)
    (done : withdrawFloat c s env recipient amount = .ok after) : Moves c p a s after := by
  simp only [withdrawFloat, send, bind_ok, require_ok, ite_ok, pure_ok] at done
  obtain ⟨_, _, _, _, _, free, ⟨_, rfl⟩ | ⟨_, sent⟩⟩ := done
  · exact .refl
  · obtain ⟨balance, rfl, paid⟩ := transfer_ok _ _ _ _ _ _ sent
    refine funds_move s _ amount rfl rfl (by omega) ?_
    simp only [Money.liabilities]
    omega

theorem controlled (s : State) (roles : Roles) (terms : Terms) (watch : Watch)
    (buyFee : terms.buyFeeBps ≤ s.terms.buyFeeBps) (sellFee : terms.sellFeeBps ≤ s.terms.sellFeeBps) :
    Moves c p a s { s with roles := roles, terms := terms, watch := watch } :=
  .single (.controls roles terms watch s.opened buyFee sellFee)

/-- Every accepted call moves the books as the moves allow. -/
theorem step_moves (s after : State) (call : Call) (regular : Regular s) (taken : step c s call = .ok after) :
    Moves c (promises s call) call.action s after := by
  obtain ⟨env, action⟩ := call
  cases action with
  | requestBuy underlying usdcIn minSharesOut =>
    exact requestBuy_moves s after env underlying usdcIn minSharesOut regular taken
  | requestSell underlying sharesIn minUsdcOut =>
    exact requestSell_moves s after env underlying sharesIn minUsdcOut regular taken
  | launch id routeFee dust => exact launch_entry_moves s after env id routeFee dust taken
  | dispatch id =>
    simp only [step, dispatch, known, bind_ok, require_ok] at taken
    obtain ⟨_, placed, _, open', _, _, sent⟩ := taken
    refine dispatchOrder_moves s after env id env.value env.sender placed ?_ sent
    by_cases buy : (s.orders id).kind = .buy
    · exact .inl ((if_pos buy).mp open')
    · exact .inr ⟨sells buy, (if_neg buy).mp open'⟩
  | cancel id =>
    simp only [step, cancel, known, bind_ok, require_ok] at taken
    obtain ⟨_, placed, done⟩ := taken
    exact cancelBuy_moves s after env id placed (regular.orders id) (fun off => off) done
  | escalate id recipient =>
    simp only [step, escalate, known, bind_ok, require_ok] at taken
    obtain ⟨_, placed, done⟩ := taken
    exact escalate_moves s after env id recipient placed done
  | escalateFunds id recipient =>
    simp only [step, escalateFunds, known, bind_ok, require_ok] at taken
    obtain ⟨_, placed, done⟩ := taken
    exact escalateFunds_moves s after env id recipient placed (regular.orders id) done
  | canonicalRedeem underlying sharesIn recipient mode =>
    simp only [step, canonicalRedeem, bind_ok] at taken
    obtain ⟨_, _, done⟩ := taken
    exact canonicalRedeem_moves s after env underlying sharesIn recipient mode regular done
  | voidOrder id =>
    simp only [step, voidOrder, known, bind_ok, require_ok] at taken
    obtain ⟨_, placed, checked, done, sent⟩ := taken
    exact voidOrder_moves s after env id _ placed checked done sent
  | cancelReward id =>
    simp only [step, cancelReward, known, bind_ok, require_ok] at taken
    obtain ⟨_, _, _, placed, done⟩ := taken
    exact cancelReward_moves s after env id placed (regular.orders id) done
  | claim id =>
    simp only [step, claim, known, bind_ok, require_ok] at taken
    obtain ⟨_, placed, done⟩ := taken
    exact claimPay_moves s after env id _ placed done
  | receiveReturn id =>
    simp only [step, receiveReturn, bind_ok, require_ok] at taken
    obtain ⟨_, allowed, done⟩ := taken
    exact receiveReturn_moves s after env id env.value (not_le.mp (not_or.mp allowed).1)
      (regular.orders id) done
  | beginFunding orderId underlying budget18 minRawOut receiver path =>
    exact beginFunding_moves s after env orderId underlying budget18 minRawOut receiver path
      regular taken
  | submitFundedBuy orderId =>
    simp only [step, submitFundedBuy, rewardId, bind_ok, require_ok, pure_ok] at taken
    obtain ⟨_, _, id, ⟨_, known, rfl⟩, _, _, _, funded, done⟩ := taken
    have within := regular.rewards orderId
    exact dispatchFromReserve_moves s after env _ (by omega) funded done
  | requestCancel orderId =>
    simp only [step, requestCancel, rewardId, bind_ok, require_ok, pure_ok] at taken
    obtain ⟨id, ⟨_, known, rfl⟩, _, _, _, open', done⟩ := taken
    have within := regular.rewards orderId
    have buy := (regular.orders _).reward (regular.laned orderId known)
    exact requestCancel_moves s after env _ (by omega) (regular.orders _) buy (fun off => off) done
  | claimResult orderId =>
    simp only [step, claimResult, bind_ok, pure_ok] at taken
    obtain ⟨result, done, rfl⟩ := taken
    exact takeReward_moves s env orderId result (regular.rewards orderId) done
  | subsidize id =>
    simp only [step, subsidize, known, bind_ok, require_ok] at taken
    obtain ⟨_, placed, done⟩ := taken
    exact subsidize_moves s after env id env.value placed (regular.orders id) done
  | lzReceive srcEid r =>
    exact lzReceive_moves s after env srcEid r regular rfl
      (fun id ref told => told (id, r) (answer_order rfl ref)) (fun off => off)
      (fun id ref ample => ample (id, r) (answer_order rfl ref)) taken
  | reconcile r =>
    exact reconcile_moves s after env r regular rfl
      (fun id ref told => told (id, r) (answer_order rfl ref)) (fun off => off)
      (fun id ref ample => ample (id, r) (answer_order rfl ref)) taken
  | checkStale =>
    simp only [step, pure_ok] at taken
    obtain ⟨watch, same⟩ := checkStale_spec s env.now
    rw [same] at taken
    exact taken ▸ .single (watches s watch)
  | voidClaimable id amount evidence =>
    simp only [step, voidClaimable, known, bind_ok, require_ok] at taken
    obtain ⟨_, _, _, placed, _, _, done⟩ := taken
    exact voidClaimable_moves s after id amount placed done
  | lowerFees buyFeeBps sellFeeBps =>
    simp only [step, lowerFees, bind_ok, require_ok, pure_ok, not_or, not_lt] at taken
    obtain ⟨_, _, _, ⟨buyFee, sellFee⟩, rfl⟩ := taken
    exact controlled s s.roles _ s.watch buyFee sellFee
  | claimFees => exact claimFees_moves s after env taken
  | fundFloat =>
    simp only [step, pure_ok] at taken
    exact taken ▸ .single (credited s env.value)
  | withdrawFloat recipient amount => exact withdrawFloat_moves s after env recipient amount taken
  | transferArc underlying holder receiver amount =>
    simp only [step, onArc_ok] at taken
    obtain ⟨token, moved, rfl⟩ := taken
    exact .single (.transfers underlying token (transfer_supply _ _ _ _ _ moved))
  | capacity action =>
    simp only [step, bind_ok, require_ok, onCapacity_ok] at taken
    obtain ⟨_, other, capacity, booked, rfl⟩ := taken
    exact .single (.outside _ capacity other booked rfl)
  | setMintLimitBps | setPayLimit | setKeeper | setGuardian | setRewardAdapter | setFloatEnabled
  | resumeMints | haltMints =>
    simp only [step, setMintLimitBps, setPayLimit, setKeeper, setGuardian, setRewardAdapter,
      setFloatEnabled, resumeMints, haltMints, ownerOnly, bind_ok, require_ok, pure_ok] at taken
    obtain ⟨_, _, rfl⟩ := taken
    exact controlled s _ _ _ le_rfl le_rfl
  | setTreasury | setEnabled | setMintFloor | pause | unpause =>
    simp only [step, setTreasury, setEnabled, setMintFloor, pause, unpause, State.setListing, listed,
      ownerOnly, bind_ok, require_ok, pure_ok] at taken
    obtain ⟨_, _, _, _, rfl⟩ := taken
    exact controlled s _ _ _ le_rfl le_rfl
  | setCanonicalGate | listStock | proposeRoute | executeRoute =>
    simp only [step, setCanonicalGate, listStock, proposeRoute, executeRoute, State.setListing,
      listed, ownerOnly, bind_ok, require_ok, pure_ok] at taken
    obtain ⟨_, _, _, _, _, _, rfl⟩ := taken
    exact controlled s _ _ _ le_rfl le_rfl

end Solonpad.Hub
