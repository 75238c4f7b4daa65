import Solonpad.HubSolvency
import Solonpad.SellRoute
import Solonpad.StockConverter

/-!
What the sell route passes on. As long as the hub pays a sale nothing beyond its record, what it paid
for a finalized sale and the Ops fees have gone to the converter and to Ops, out of the sale's own money.
The route reads the record once, so anything more that the hub pays for the sale stays in the route.
-/

namespace Solonpad.SellRoute

open Checked RunningTotal Transition
open Chain (Address)

variable {c : Config} {s after : State} {id : OrderId} {sale : Sale} {r : Outcome} {paid : Nat}
  {env : Hub.Env} {accepted : Bool}

/-- Nothing is paid or struck for a sale of the route beyond its record. -/
def Quiet (c : Config) (s : State) : Action → Prop
  | .elsewhere call => (s.hub.orders (call.order s.hub)).user = c.route →
    Hub.surplus s.hub call = 0 ∧ call.struck = 0
  | _ => True

instance (s : State) : (action : Action) → Decidable (Quiet c s action)
  | .elsewhere _ => inferInstanceAs (Decidable (_ → _))
  | .requestSell .. | .claimSell .. | .received _ => .isTrue trivial

/-- The money of a sale that has not been finalized. -/
def State.kept (s : State) (id : OrderId) : Nat :=
  if s.used id = true ∧ (s.sales id).done = false then (s.sales id).fees + s.paidFor (s.sales id).hubId else 0

structure Passed (s : State) : Prop where
  once : s.finalized.Nodup
  failed : ∀ id ∈ s.finalized, (s.order id).outcome = some .failed →
    (s.accounts id).returned = (s.order id).amountIn ∧ (s.accounts id).toConverter = 0
  sold : ∀ id ∈ s.finalized, (s.order id).outcome = some .sold → (s.accounts id).returned = 0
  everything : ∀ id ∈ s.finalized, s.paidFor (s.sales id).hubId + (s.accounts id).deposited =
    (s.accounts id).toConverter + (s.accounts id).toOps
  own : ∀ id, s.used id = true → (s.accounts id).toConverter + (s.accounts id).toOps ≤
    s.paidFor (s.sales id).hubId + (s.accounts id).deposited
  backed : ∃ total, Totals s.kept total ∧ total ≤ s.balance
  minimum : ∀ id ∈ s.finalized, ∀ feeBps n due, (s.order id).outcome = some .sold →
    (s.order id).feeBps = feeBps → feeBps < 10000 → target (s.order id) = .ok due →
    due ≤ (s.order id).amountOut + (s.accounts id).deposited →
    StockConverter.grossFloor feeBps n ≤ (s.order id).rawOut * Hub.scale → n ≤ (s.accounts id).toConverter

/-! What a result comes to. -/

theorem ceil_le (a d : Nat) (positive : 0 < d) : a ≤ (a + (d - 1)) / d * d := by
  have := Nat.div_add_mod (a + (d - 1)) d
  have := Nat.mod_lt (a + (d - 1)) positive
  rw [Nat.mul_comm]
  omega

/-- Proceeds that reach the floor leave the minimum after the fee. -/
theorem grossFloor_covers {feeBps n gross : Nat} (capped : feeBps < 10000)
    (reached : StockConverter.grossFloor feeBps n ≤ gross) : n ≤ gross - gross * feeBps / 10000 := by
  have whole : StockConverter.mulDivUp n 10000 (10000 - feeBps) ≤ gross :=
    (ceil_le _ (10 ^ 12) (by decide)).trans reached
  have shared : n * 10000 ≤ gross * (10000 - feeBps) :=
    (ceil_le _ _ (by omega)).trans (Nat.mul_le_mul_right _ whole)
  rw [Nat.mul_sub] at shared
  have := Nat.div_mul_le_self (gross * feeBps) 10000
  omega

structure Comes (o : Hub.Order) (sale : Sale) (r : Outcome) : Prop where
  closed : o.closed
  sum : r.paid + r.fees = o.due + sale.fees
  failed : o.outcome = some .failed → r.reminted = sale.raw ∧ r.paid = 0
  sold : o.outcome = some .sold → r.reminted = 0
  minimum : ∀ due, o.outcome = some .sold → target o = .ok due → due ≤ o.amountOut + sale.fees → due ≤ r.paid

theorem outcome_comes {o : Hub.Order} (read : outcome o sale = .ok (some r)) : Comes o sale r := by
  simp only [outcome, ite_ok, bind_ok, pure_ok, Option.some.injEq] at read
  rcases read with ⟨⟨filled, sold⟩, due, owes, rfl⟩ | ⟨_, ⟨⟨cancelled, failed⟩, rfl⟩ | ⟨_, none⟩⟩
  · constructor
    · exact .inl filled
    · have record : o.due = o.amountOut := by rw [Hub.Order.due, if_pos ⟨filled, sold⟩]
      dsimp only
      split <;> omega
    · intro failed
      cases sold.symm.trans failed
    · exact fun _ => rfl
    · intro due' _ owes' enough
      obtain rfl : due = due' := Except.ok.inj (owes.symm.trans owes')
      dsimp only
      split <;> omega
  · constructor
    · exact .inr cancelled
    · rw [Hub.due_open (by rw [cancelled]; decide)]
    · exact fun _ => ⟨rfl, rfl⟩
    · intro sold
      cases failed.symm.trans sold
    · intro _ sold
      cases failed.symm.trans sold
  · cases none

/-- A closed order is read the same after any turn. -/
theorem outcome_stable {o next : Hub.Order} {extra struck : Nat} (turn : Hub.SaleTurn o next paid extra struck)
    (closed : o.closed) (sale : Sale) : outcome next sale = outcome o sale := by
  obtain ⟨status, result, amountOut, rawOut⟩ := turn.closed closed
  have fee : next.feeBps = o.feeBps := (Hub.deal_spec turn.deal).2.2.2.2.2.1
  simp only [outcome, target, status, result, amountOut, rawOut, fee]

/-! What every call keeps. -/

/-- A used sale and the hub's order of it. -/
structure Entry (c : Config) (s : State) (id : OrderId) : Prop where
  placed : (s.sales id).hubId < s.hub.orderCount
  sale : Hub.Sale c.hub (s.order id)
  user : (s.order id).user = c.route
  raw : (s.order id).amountIn = (s.sales id).raw
  flow : s.paidFor (s.sales id).hubId + (s.order id).owed = (s.order id).due

/-- A finalized sale: nothing is owed, and what went out is what the record comes to. -/
structure Finished (s : State) (id : OrderId) : Prop where
  settled : (s.order id).owed = 0
  fees : (s.sales id).fees = 0
  comes : ∃ status, outcome (s.order id) { s.sales id with fees := (s.accounts id).deposited } =
    .ok (some ⟨status, (s.accounts id).toConverter, (s.accounts id).returned, (s.accounts id).toOps⟩)

structure Sound (c : Config) (s : State) : Prop where
  regular : Hub.Regular s.hub
  entries : ∀ id, s.used id = true → Entry c s id
  own : ∀ a b, s.used a = true → s.used b = true → (s.sales a).hubId = (s.sales b).hubId → a = b
  unused : ∀ id, s.used id = false → (s.sales id).done = false
  waiting : ∀ id, s.used id = true → (s.sales id).done = false → s.accounts id = ⟨(s.sales id).fees, 0, 0, 0⟩
  finished : ∀ id, s.used id = true → (s.sales id).done = true → Finished s id
  finalized : ∀ id ∈ s.finalized, s.used id = true ∧ (s.sales id).done = true
  fresh : ∀ k, s.hub.orderCount ≤ k → s.paidFor k = 0
  once : s.finalized.Nodup
  backed : ∃ total, Totals s.kept total ∧ total ≤ s.balance

theorem Sound.ended (sound : Sound c s) (used : s.used id = true) (done : (s.sales id).done = true) :
    ∃ status, Comes (s.order id) { s.sales id with fees := (s.accounts id).deposited }
      ⟨status, (s.accounts id).toConverter, (s.accounts id).returned, (s.accounts id).toOps⟩ := by
  obtain ⟨status, read⟩ := (sound.finished id used done).comes
  exact ⟨status, outcome_comes read⟩

/-- What the hub paid for a finalized sale and its fees are what went out. -/
theorem Sound.everything (sound : Sound c s) (used : s.used id = true) (done : (s.sales id).done = true) :
    s.paidFor (s.sales id).hubId + (s.accounts id).deposited =
      (s.accounts id).toConverter + (s.accounts id).toOps := by
  obtain ⟨status, comes⟩ := sound.ended used done
  have flow := (sound.entries id used).flow
  have sum := comes.sum
  rw [(sound.finished id used done).settled] at flow
  simp only at sum
  omega

theorem Sound.passed (sound : Sound c s) : Passed s where
  once := sound.once
  failed id member failed := by
    obtain ⟨used, done⟩ := sound.finalized id member
    obtain ⟨status, comes⟩ := sound.ended used done
    obtain ⟨returned, none⟩ := comes.failed failed
    exact ⟨returned.trans (sound.entries id used).raw.symm, none⟩
  sold id member sold := by
    obtain ⟨used, done⟩ := sound.finalized id member
    obtain ⟨status, comes⟩ := sound.ended used done
    exact comes.sold sold
  everything id member := by
    obtain ⟨used, done⟩ := sound.finalized id member
    exact sound.everything used done
  own id used := by
    cases done : (s.sales id).done with
    | true => exact (sound.everything used done).ge
    | false =>
      rw [sound.waiting id used done]
      exact Nat.zero_le _
  backed := sound.backed
  minimum id member feeBps n due sold rate capped owes enough reached := by
    obtain ⟨used, done⟩ := sound.finalized id member
    obtain ⟨status, comes⟩ := sound.ended used done
    refine Nat.le_trans ?_ (comes.minimum due sold owes enough)
    simp only [target, sub_ok, rate] at owes
    rw [owes.2]
    exact grossFloor_covers capped reached

theorem deployed_sound (hub : Hub.State) (regular : Hub.Regular hub) (balance : Nat) :
    Sound c (deployed hub balance) where
  regular := regular
  entries _ used := by cases used
  own _ _ used := by cases used
  unused _ _ := rfl
  waiting _ used := by cases used
  finished _ used := by cases used
  finalized _ member := by cases member
  fresh _ _ := rfl
  once := .nil
  backed := by
    have none : Totals (deployed hub balance).kept 0 := Totals.zero.of_eq (fun _ => by simp [State.kept, deployed]) rfl
    exact ⟨0, none, Nat.zero_le _⟩

/-- A payment of the hub for one of its orders, with nothing else changed but the hub. -/
structure Receives (s after : State) (k paid : Nat) : Prop where
  sales : after.sales = s.sales
  used : after.used = s.used
  accounts : after.accounts = s.accounts
  finalized : after.finalized = s.finalized
  here : after.paidFor k = s.paidFor k + paid
  others : ∀ other, other ≠ k → after.paidFor other = s.paidFor other
  balance : s.balance + paid ≤ after.balance
  known : paid = 0 ∨ k < s.hub.orderCount

/-- Every sale follows what the hub does to its order. -/
theorem Receives.turn {k : Nat} (receives : Receives s after k paid) (entry : Entry c s id)
    (elsewhere : Hub.Elsewhere k s.hub after.hub)
    (turn : (s.sales id).hubId = k → Hub.SaleTurn (s.order id) (after.order id) paid 0 0) :
    ∃ amount, Hub.SaleTurn (s.order id) (after.order id) amount 0 0 ∧
      after.paidFor (s.sales id).hubId = s.paidFor (s.sales id).hubId + amount := by
  by_cases same : (s.sales id).hubId = k
  · exact ⟨paid, turn same, by rw [same, receives.here]⟩
  · have order : after.order id = s.order id := by
      rw [State.order, receives.sales]
      exact elsewhere _ same
    refine ⟨0, ?_, receives.others _ same⟩
    rw [order]
    exact .kept entry.sale rfl rfl rfl rfl

theorem Sound.receives (sound : Sound c s) (k paid : Nat) (receives : Receives s after k paid)
    (regular : Hub.Regular after.hub) (grows : s.hub.orderCount ≤ after.hub.orderCount)
    (elsewhere : Hub.Elsewhere k s.hub after.hub)
    (turn : ∀ id, s.used id = true → (s.sales id).hubId = k →
      Hub.SaleTurn (s.order id) (after.order id) paid 0 0) : Sound c after := by
  have follows := fun id used => receives.turn (sound.entries id used) elsewhere (turn id used)
  constructor
  · exact regular
  · intro id used
    rw [receives.used] at used
    have entry := sound.entries id used
    obtain ⟨amount, turned, paid⟩ := follows id used
    obtain ⟨user, _, kind, amountIn, _⟩ := Hub.deal_spec turned.deal
    refine ⟨?_, ⟨regular.orders _, kind.trans entry.sale.sell, turned.here, turned.unsold, ?_⟩,
      user.trans entry.user, ?_, ?_⟩
    · rw [receives.sales]
      exact entry.placed.trans_le grows
    · rw [user]
      exact entry.sale.user
    · rw [amountIn, receives.sales]
      exact entry.raw
    · rw [receives.sales, paid]
      have before := entry.flow
      have flow := turned.flow
      omega
  · rw [receives.used, receives.sales]
    exact sound.own
  · rw [receives.used, receives.sales]
    exact sound.unused
  · rw [receives.used, receives.sales, receives.accounts]
    exact sound.waiting
  · intro id used done
    rw [receives.used] at used
    rw [receives.sales] at done
    obtain ⟨settled, fees, status, comes⟩ := sound.finished id used done
    obtain ⟨amount, turned, _⟩ := follows id used
    have closed := (outcome_comes comes).closed
    obtain ⟨state, result, amountOut, _⟩ := turned.closed closed
    refine ⟨?_, by rw [receives.sales, fees], status, ?_⟩
    · have flow := turned.flow
      rw [Hub.Order.due, Hub.Order.due, state, result, amountOut, settled] at flow
      omega
    · rw [receives.sales, receives.accounts, outcome_stable turned closed]
      exact comes
  · rw [receives.used, receives.sales, receives.finalized]
    exact sound.finalized
  · intro other later
    by_cases same : other = k
    · subst same
      rw [receives.here, sound.fresh other (grows.trans later)]
      rcases receives.known with none | known
      · rw [none]
      · omega
    · rw [receives.others other same]
      exact sound.fresh other (grows.trans later)
  · rw [receives.finalized]
    exact sound.once
  · obtain ⟨total, sums, within⟩ := sound.backed
    have enough := receives.balance
    have kept : ∀ id, (s.used id = true → (s.sales id).hubId ≠ k) → after.kept id = s.kept id := by
      intro id apart
      rw [State.kept, State.kept, receives.used, receives.sales]
      split
      · next waiting => rw [receives.others _ (apart waiting.1)]
      · rfl
    by_cases owner : ∃ id, s.used id = true ∧ (s.sales id).hubId = k
    · obtain ⟨id, used, same⟩ := owner
      obtain ⟨total', sums', moved⟩ := @Totals.changed _ _ _ after.kept _ sums id fun other different =>
        kept other fun used' same' => different (sound.own other id used' used (same'.trans same.symm))
      have grown : after.kept id ≤ s.kept id + paid := by
        rw [State.kept, State.kept, receives.used, receives.sales, same, receives.here]
        split <;> omega
      exact ⟨total', sums', by omega⟩
    · have none : ∀ id, s.used id = true → (s.sales id).hubId ≠ k :=
        fun id used same => owner ⟨id, used, same⟩
      exact ⟨total, sums.of_eq (fun id => kept id (none id)) rfl, by omega⟩

theorem elsewhere_sound {call : Hub.Call} (foreign : Foreign c s.hub call) (quiet : Quiet c s (.elsewhere call))
    (taken : elsewhere c s call = .ok after) (sound : Sound c s) : Sound c after := by
  simp only [elsewhere, bind_ok, relay_ok, ite_ok, pure_ok] at taken
  obtain ⟨hub, moved, taken⟩ := taken
  have moves := Hub.step_moves _ _ _ sound.regular moved
  have apart := Hub.step_elsewhere moved
  rcases taken with ⟨user, rfl⟩ | ⟨other, rfl⟩
  · have known : call.order s.hub < s.hub.orderCount := by
      by_contra later
      rw [sound.regular.fresh _ (not_lt.mp later)] at user
      exact c.real user.symm
    refine sound.receives (call.order s.hub) _ ⟨rfl, rfl, rfl, rfl, Function.update_self ..,
      fun other different => Function.update_of_ne different .., Nat.le_refl _, .inr known⟩
      (moves.regular sound.regular) moves.grows apart fun id used same => ?_
    have entry := sound.entries id used
    obtain ⟨extra, struck⟩ := quiet user
    have turn := Hub.step_turn sound.regular moved (same ▸ entry.placed)
      (by rw [← same]; exact entry.sale) (by rw [user]; exact foreign.1) (foreign.2.2 user)
    rw [extra, struck, ← same] at turn
    exact turn
  · refine sound.receives (call.order s.hub) 0 ⟨rfl, rfl, rfl, rfl, rfl, fun _ _ => rfl, Nat.le_refl _, .inl rfl⟩
      (moves.regular sound.regular) moves.grows apart fun id used same => ?_
    exact absurd (same ▸ (sound.entries id used).user) other

/-! A new sale. -/

/-- The order a sell places. -/
theorem placed_sell {h : Hub.Config} {hub later : Hub.State} {asset raw floor : Nat}
    (placed : Hub.requestSell h hub env asset raw floor = .ok later) :
    later.orderCount = hub.orderCount + 1 ∧ (later.orders hub.orderCount).user = env.sender ∧
      (later.orders hub.orderCount).kind = .sell ∧ (later.orders hub.orderCount).amountIn = raw ∧
      (later.orders hub.orderCount).status ≠ .escalated ∧ (later.orders hub.orderCount).outcome = none ∧
      (later.orders hub.orderCount).amountOut = 0 ∧ (later.orders hub.orderCount).owed = 0 := by
  simp only [Hub.requestSell, bind_ok, require_ok, ite_ok, pure_ok, Hub.onArc_ok, Hub.onCapacity_ok] at placed
  obtain ⟨_, _, _, _, _, ⟨token, _, rfl⟩, _, ⟨capacity, _, rfl⟩, ⟨_, sent⟩ | ⟨_, rfl⟩⟩ := placed
  · obtain ⟨balance, at_, rfl, _⟩ := Hub.dispatchOrder_ok _ _ _ _ _ _ _ sent
    simp [Hub.place, Hub.State.set, Hub.State.deposit, Hub.Order.told, Hub.Order.blank]
  · simp [Hub.place, Hub.State.set, Hub.State.deposit, Hub.Order.blank]

theorem onArc_regular {hub later : Hub.State} {asset : Address} {call : Chain.Token → Chain.Tx Chain.Token}
    (regular : Hub.Regular hub) (moved : hub.onArc asset call = .ok later) :
    Hub.Regular later ∧ later.orders = hub.orders ∧ later.orderCount = hub.orderCount := by
  obtain ⟨token, _, rfl⟩ := (Hub.onArc_ok _ _ _ _).mp moved
  exact ⟨regular.keep rfl rfl rfl (Nat.le_refl _) (Nat.le_refl _) rfl rfl, rfl, rfl⟩

theorem requestSell_sound {sender asset raw floor receiver value : Nat}
    (taken : requestSell c s sender id asset raw floor receiver value env = .ok after) (sound : Sound c s) :
    Sound c after := by
  simp only [requestSell, bind_ok, require_ok, relay_ok, pure_ok] at taken
  obtain ⟨_, _, _, ⟨_, unused, _⟩, handed, moved, _, _, hub, placed, rfl⟩ := taken
  obtain ⟨regular, orders, count⟩ := onArc_regular sound.regular moved
  obtain ⟨counted, user, sell, amountIn, here, none, amountOut, owed⟩ := placed_sell placed
  have apart := Hub.requestSell_elsewhere placed
  have later : Hub.Regular hub := by
    have taken : Hub.step c.hub handed ⟨{ env with sender := c.route, value := env.lzFee },
        .requestSell asset raw floor⟩ = .ok hub := placed
    exact (Hub.step_moves _ _ _ regular taken).regular regular
  have other_order : ∀ other, s.used other = true →
      hub.orders (s.sales other).hubId = s.order other ∧ (s.sales other).hubId ≠ handed.orderCount := by
    intro other used
    have known := (sound.entries other used).placed
    rw [← count] at known
    have different := Nat.ne_of_lt known
    exact ⟨by rw [apart _ different, orders]; rfl, different⟩
  have apart_id : ∀ other, s.used other = true → other ≠ id := by
    rintro other used rfl
    rw [unused] at used
    cases used
  have was : ∀ other, other ≠ id → Function.update s.used id true other = s.used other :=
    fun other different => Function.update_of_ne different ..
  have kept : ∀ other, other ≠ id → Function.update s.sales id ⟨handed.orderCount, asset, raw,
      value - env.lzFee, false⟩ other = s.sales other := fun other different => Function.update_of_ne different ..
  constructor
  · exact later
  · intro other used
    by_cases same : other = id
    · subst same
      refine ⟨?_, ⟨later.orders _, ?_, ?_, ?_, ?_⟩, ?_, ?_, ?_⟩
      all_goals simp only [State.order, Function.update_self]
      · rw [counted]
        exact Nat.lt_succ_self _
      · exact sell
      · exact here
      · exact fun _ => amountOut
      · rw [user]
        exact ⟨c.real, c.foreign⟩
      · exact user
      · exact amountIn
      · rw [owed, Hub.due_running none, sound.fresh _ (Nat.le_of_eq count.symm)]
    · dsimp only at used
      rw [was other same] at used
      have entry := sound.entries other used
      have order := (other_order other used).1
      refine ⟨?_, ?_, ?_, ?_, ?_⟩
      all_goals simp only [State.order, kept other same, order]
      · have known := entry.placed
        omega
      · exact entry.sale
      · exact entry.user
      · exact entry.raw
      · exact entry.flow
  · intro a b used_a used_b same
    dsimp only at used_a used_b same
    by_cases new_a : a = id
    · by_cases new_b : b = id
      · rw [new_a, new_b]
      · rw [was b new_b] at used_b
        subst new_a
        rw [Function.update_self, kept b new_b] at same
        exact absurd same.symm (other_order b used_b).2
    · rw [was a new_a] at used_a
      by_cases new_b : b = id
      · subst new_b
        rw [Function.update_self, kept a new_a] at same
        exact absurd same (other_order a used_a).2
      · rw [was b new_b] at used_b
        rw [kept a new_a, kept b new_b] at same
        exact sound.own a b used_a used_b same
  · intro other unused'
    dsimp only at unused' ⊢
    by_cases same : other = id
    · subst same
      rw [Function.update_self]
    · rw [was other same] at unused'
      rw [kept other same]
      exact sound.unused other unused'
  · intro other used done
    dsimp only at used done ⊢
    by_cases same : other = id
    · subst same
      simp only [Function.update_self]
    · rw [was other same] at used
      rw [kept other same] at done ⊢
      rw [Function.update_of_ne same]
      exact sound.waiting other used done
  · intro other used done
    dsimp only at used done
    by_cases same : other = id
    · subst same
      rw [Function.update_self] at done
      cases done
    · rw [was other same] at used
      rw [kept other same] at done
      have finished := sound.finished other used done
      refine ⟨?_, ?_, ?_⟩
      all_goals simp only [State.order, kept other same, (other_order other used).1, Function.update_of_ne same]
      · exact finished.settled
      · exact finished.fees
      · exact finished.comes
  · intro other member
    obtain ⟨used, done⟩ := sound.finalized other member
    dsimp only
    rw [was other (apart_id other used), kept other (apart_id other used)]
    exact ⟨used, done⟩
  · intro k later
    dsimp only at later ⊢
    exact sound.fresh k (by omega)
  · exact sound.once
  · obtain ⟨total, sums, within⟩ := sound.backed
    refine ⟨total + (value - env.lzFee), sums.moved id ?_ ?_, Nat.add_le_add_right within _⟩
    · intro other different
      simp only [State.kept, was other different, kept other different]
    · have none : s.kept id = 0 := by
        rw [State.kept, if_neg]
        rintro ⟨used, -⟩
        exact apart_id id used rfl
      rw [none]
      simp only [State.kept, Function.update_self, sound.fresh _ (Nat.le_of_eq count.symm)]
      simp

/-! A sale finalized. -/

theorem pull_sound (used : s.used id = true) (taken : pull c s (s.sales id) env = .ok after)
    (sound : Sound c s) : Sound c after ∧ after.used = s.used ∧ after.sales = s.sales ∧
      after.accounts = s.accounts ∧ after.finalized = s.finalized ∧
      after.order id = { s.order id with owed := 0 } := by
  have entry := sound.entries id used
  simp only [pull, ite_ok, bind_ok, relay_ok, pure_ok] at taken
  rcases taken with ⟨_, hub, claimed, rfl⟩ | ⟨none, rfl⟩
  · have moved : Hub.step c.hub s.hub ⟨{ env with sender := c.route }, .claim (s.sales id).hubId⟩ = .ok hub := claimed
    have moves := Hub.step_moves _ _ _ sound.regular moved
    simp only [Hub.claim, bind_ok] at claimed
    obtain ⟨_, _, claimed⟩ := claimed
    rw [if_neg (show ¬ (s.hub.orders (s.sales id).hubId).lane = 1 from entry.sale.lane)] at claimed
    have order := Hub.claimPay_order claimed
    have turn := Hub.claimPay_turn entry.sale claimed
    have paid := turn.flow
    have due : ({ s.order id with owed := 0 } : Hub.Order).due = (s.order id).due := rfl
    rw [order] at paid
    have paid : s.hub.money.balance - hub.money.balance = (s.order id).owed := by
      have paid : s.hub.money.balance - hub.money.balance + 0 + (s.order id).due + 0 =
        (s.order id).owed + ({ s.order id with owed := 0 } : Hub.Order).due + 0 := paid
      omega
    rw [paid] at turn
    refine ⟨sound.receives (s.sales id).hubId (s.order id).owed ⟨rfl, rfl, rfl, rfl, Function.update_self ..,
      fun other different => Function.update_of_ne different .., Nat.le_refl _, .inr entry.placed⟩
      (moves.regular sound.regular) moves.grows (Hub.step_elsewhere moved) fun other used' same => ?_,
      rfl, rfl, rfl, rfl, order⟩
    obtain rfl := sound.own other id used' used same
    exact turn
  · refine ⟨sound, rfl, rfl, rfl, rfl, ?_⟩
    have none : (s.order id).owed = 0 := not_not.mp none
    rw [← none]

/-- The state a finalized sale leaves, over the hub after its transfer. -/
def State.ending (s : State) (hub : Hub.State) (id : OrderId) (sale : Sale) (r : Outcome) : State :=
  { s with
    hub := hub
    sales := Function.update s.sales id { sale with done := true, fees := 0 }
    balance := s.balance - r.paid - r.fees
    accounts := Function.update s.accounts id { s.accounts id with
      toConverter := r.paid, toOps := r.fees, returned := r.reminted }
    finalized := s.finalized ++ [id] }

theorem finalize_ok (regular : Hub.Regular s.hub) (taken : finalize c s id sale r accepted = .ok after) :
    ∃ hub, Hub.Regular hub ∧ hub.orders = s.hub.orders ∧
      hub.orderCount = s.hub.orderCount ∧ r.paid + r.fees ≤ s.balance ∧ after = s.ending hub id sale r := by
  simp only [finalize, bind_ok, require_ok, sub_ok, ite_ok, pure_ok, relay_ok] at taken
  obtain ⟨_, _, _, ⟨enough, rfl⟩, ⟨_, hub, moved, _, ⟨enough', rfl⟩, rfl⟩ | ⟨_, _, rfl, _, ⟨enough', rfl⟩, rfl⟩⟩ :=
    taken
  · obtain ⟨kept, orders, count⟩ := onArc_regular regular moved
    exact ⟨hub, kept, orders, count, by omega, rfl⟩
  · exact ⟨s.hub, regular, rfl, rfl, by omega, rfl⟩

theorem finalize_sound (used : s.used id = true) (open' : (s.sales id).done = false)
    (settled : (s.order id).owed = 0) (read : outcome (s.order id) (s.sales id) = .ok (some r))
    (taken : finalize c s id (s.sales id) r accepted = .ok after) (sound : Sound c s) : Sound c after := by
  obtain ⟨hub, regular, orders, count, enough, rfl⟩ := finalize_ok sound.regular taken
  have comes := outcome_comes read
  have account := sound.waiting id used open'
  have kept : ∀ other, (Function.update s.sales id { s.sales id with done := true, fees := 0 } other).hubId =
      (s.sales other).hubId ∧ (Function.update s.sales id { s.sales id with done := true, fees := 0 } other).raw =
      (s.sales other).raw := by
    intro other
    by_cases same : other = id
    · subst same
      rw [Function.update_self]
      exact ⟨rfl, rfl⟩
    · rw [Function.update_of_ne same]
      exact ⟨rfl, rfl⟩
  constructor
  · exact regular
  · intro other used'
    have entry := sound.entries other used'
    refine ⟨?_, ?_, ?_, ?_, ?_⟩
    all_goals simp only [State.order, State.ending, orders, kept other, count]
    · exact entry.placed
    · exact entry.sale
    · exact entry.user
    · exact entry.raw
    · exact entry.flow
  · intro a b used_a used_b same
    simp only [State.ending, kept a, kept b] at same
    exact sound.own a b used_a used_b same
  · intro other unused
    have different : other ≠ id := by
      rintro rfl
      exact absurd (used.symm.trans unused) nofun
    simp only [State.ending, Function.update_of_ne different]
    exact sound.unused other unused
  · intro other used' done
    by_cases same : other = id
    · subst same
      simp only [State.ending, Function.update_self] at done
      cases done
    · simp only [State.ending, Function.update_of_ne same] at done ⊢
      exact sound.waiting other used' done
  · intro other used' done
    by_cases same : other = id
    · subst same
      refine ⟨?_, ?_, r.status, ?_⟩
      all_goals simp only [State.order, State.ending, orders, Function.update_self]
      · exact settled
      · rw [account]
        exact read
    · simp only [State.ending, Function.update_of_ne same] at done
      have finished := sound.finished other used' done
      refine ⟨?_, ?_, ?_⟩
      all_goals simp only [State.order, State.ending, orders, Function.update_of_ne same]
      · exact finished.settled
      · exact finished.fees
      · exact finished.comes
  · intro other member
    rcases List.mem_append.mp member with before | new
    · obtain ⟨used', done⟩ := sound.finalized other before
      have different : other ≠ id := by
        rintro rfl
        rw [open'] at done
        cases done
      simp only [State.ending, Function.update_of_ne different]
      exact ⟨used', done⟩
    · obtain rfl := List.mem_singleton.mp new
      simp only [State.ending, Function.update_self, and_true]
      exact used
  · intro k later
    exact sound.fresh k (count ▸ later)
  · refine List.nodup_append.mpr ⟨sound.once, List.nodup_singleton _, ?_⟩
    rintro other before last new rfl
    obtain rfl := List.mem_singleton.mp new
    have done := (sound.finalized other before).2
    rw [open'] at done
    cases done
  · obtain ⟨total, sums, within⟩ := sound.backed
    have before : s.kept id = r.paid + r.fees := by
      have flow := (sound.entries id used).flow
      rw [State.kept, if_pos ⟨used, open'⟩]
      have sum := comes.sum
      omega
    refine ⟨total - (r.paid + r.fees), sums.moved id ?_ ?_, ?_⟩
    · intro other different
      simp only [State.kept, State.ending, Function.update_of_ne different]
    · have after : (s.ending hub id (s.sales id) r).kept id = 0 := by
        rw [State.kept, if_neg]
        rintro ⟨-, waiting⟩
        simp only [State.ending, Function.update_self] at waiting
        cases waiting
      have held := sums.entry_le id
      rw [after, before]
      omega
    · have held := sums.entry_le id
      show _ ≤ s.balance - r.paid - r.fees
      omega

theorem claimSell_sound {sender : Address} (taken : claimSell c s sender id env accepted = .ok after)
    (sound : Sound c s) : Sound c after := by
  simp only [claimSell, bind_ok, require_ok] at taken
  obtain ⟨_, _, _, ⟨used, open'⟩, pulled, claimed, result, read, taken⟩ := taken
  obtain ⟨kept, used', sales, _, _, order⟩ := pull_sound used claimed sound
  cases result with
  | none =>
    simp only [pure_ok] at taken
    exact taken ▸ kept
  | some r =>
    -- The record was read before the claim, which only clears what is owed.
    have here : outcome (pulled.order id) (pulled.sales id) = .ok (some r) := by
      rw [order, sales]
      exact read
    rw [← sales] at taken open'
    exact finalize_sound (by rw [used', used]) open' (by rw [order]) here taken kept

theorem received_sound (amount : Nat) (sound : Sound c s) : Sound c { s with balance := s.balance + amount } where
  regular := sound.regular
  entries id used := ⟨(sound.entries id used).placed, (sound.entries id used).sale, (sound.entries id used).user,
    (sound.entries id used).raw, (sound.entries id used).flow⟩
  own := sound.own
  unused := sound.unused
  waiting := sound.waiting
  finished id used done := ⟨(sound.finished id used done).settled, (sound.finished id used done).fees,
    (sound.finished id used done).comes⟩
  finalized := sound.finalized
  fresh := sound.fresh
  once := sound.once
  backed := by
    obtain ⟨total, sums, within⟩ := sound.backed
    exact ⟨total, sums, Nat.le_add_right_of_le within⟩

theorem step_sound {action : Action} (allowed : Allowed c s action) (quiet : Quiet c s action)
    (taken : accepts c s action after) (sound : Sound c s) : Sound c after := by
  cases action with
  | requestSell => exact requestSell_sound taken sound
  | claimSell => exact claimSell_sound taken sound
  | elsewhere call => exact elsewhere_sound allowed quiet taken sound
  | received amount =>
    obtain rfl := Except.ok.inj taken
    exact received_sound amount sound

def sample : Config where
  hub := Hub.sample
  route := 40
  converter := 41
  ops := 42
  real := by decide
  foreign := by decide

/-- A call of the hub; the route has code. -/
def call (sender value : Nat) (action : Hub.Action) : Action :=
  .elsewhere { Hub.by' sender value action with
    env := { (Hub.by' sender value action).env with plainUser := false } }

/-- The converter sells shares from a migration with eleven units for fees. -/
def sold : List Action :=
  [call 2 0 (.listStock 50 30 0 60 1),
    call 10 0 (.reconcile ⟨.migration 50 0, 50, .bought, 0, 10 ^ 18, 1⟩),
    call 6 0 (.transferArc 50 6 41 (10 ^ 18)),
    .requestSell 41 7 50 (10 ^ 18) 0 41 11 (Hub.by' 41 0 (.claim 0)).env,
    call 11 0 (.lzReceive 30 ⟨.order 0, 50, .sold, 10 ^ 18, 10 ^ 8, 2⟩)]

/-- The return costs four units, which the fees cover. -/
def redeemed : List Action :=
  sold ++ [call 60 (10 ^ 20 - 4) (.receiveReturn 0),
    .claimSell 41 7 (Hub.by' 41 0 (.claim 0)).env true]

/-- The first return is taken for the proceeds; the rest of them comes when the sale is finalized. -/
def late : List Action :=
  sold ++ [call 60 (10 ^ 20 - 10 ^ 19) (.receiveReturn 0),
    .claimSell 41 7 (Hub.by' 41 0 (.claim 0)).env true,
    call 60 (10 ^ 19) (.receiveReturn 0)]

end Solonpad.SellRoute
