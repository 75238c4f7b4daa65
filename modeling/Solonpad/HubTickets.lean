import Solonpad.CapacityMoves
import Solonpad.HubSolvency

/-!
The hub's orders and the tickets of its capacity controller. A ticket follows the status of the
one order that carries its key, and what the controller counts as issued is the supply of the
`.sol` tokens, so no redemption is clamped. The round manager is the only stranger that reserves,
under order ids the hub has not taken yet.
-/

namespace Solonpad.Hub

open Checked Chain Messages Transition

/-- A buy that left for the vault and was not answered. -/
def Order.Runs (o : Order) : Prop :=
  o.kind = .buy ∧ o.outcome = none ∧ (o.status = .funded ∨ o.status = .dispatched ∨
    o.status = .escalated ∨ o.status = .cancelled ∧ o.advanced = true)

/-- A buy that failed, was given back before its launch, or waits in the public queue. -/
def Order.Idle (o : Order) : Prop :=
  o.kind = .buy ∧ (o.outcome = some .failed ∨ o.outcome = none ∧
    (o.status = .cancelled ∧ o.advanced = false ∨ o.status = .pending ∧ o.lane = 0))

/-- The ticket an order should have. -/
structure Order.Fits (o : Order) (t : Capacity.Ticket) : Prop where
  reserved : o.Runs → t.state = .reserved ∧ t.sent = true
  issued : o.kind = .buy → o.outcome = some .bought → t.state = .issued
  idle : o.Idle → t.state ≠ .reserved
  redeeming : o.kind = .sell → o.outcome = none →
    t.state = .redeeming ∧ t.asset = o.underlying ∧ t.raw = o.amountIn
  redeemed : o.kind = .sell → o.outcome ≠ none → t.state = .closed

/-- A buy is known by its placement for the key it carries. -/
def Keyed (s : State) (id : Nat) (o : Order) : Prop :=
  (o.lane = 0 → o.capKey = .order id) ∧
    (o.lane ≠ 0 → ∃ round, o.capKey = .reward round ∧ s.rewardOrder (.reward round) = id + 1)

structure Booked (c : Config) (s : State) : Prop where
  hub : s.capacity.hub = c.self
  issued : ∀ u, s.capacity.issuedRaw u = (s.arc u).totalSupply
  fresh : ∀ id, s.orderCount ≤ id → (s.capacity.tickets (.order id)).state = .none
  /-- What is reserved and not sent was reserved by the round manager. -/
  unsent : ∀ key, (s.capacity.tickets key).state = .reserved → (s.capacity.tickets key).sent = false →
    ∃ round, key = .reward round
  keyed : ∀ id, id < s.orderCount → Keyed s id (s.orders id)
  fits : ∀ id, id < s.orderCount → (s.orders id).Fits (s.capacity.tickets (s.orders id).capKey)

variable {c : Config} {o : Order} {t : Capacity.Ticket} {s after : State}

theorem deployed_booked : Booked c (deployed c) where
  hub := rfl
  issued := fun _ => rfl
  fresh := fun _ _ => rfl
  unsent := fun _ held => by cases held
  keyed := fun _ placed => absurd placed (Nat.not_lt_zero _)
  fits := fun _ placed => absurd placed (Nat.not_lt_zero _)

/-! What a ticket's fit depends on. -/

/-- An order that runs on or rests as before keeps its ticket. -/
theorem Order.Fits.kept {next : Order} (fits : o.Fits t) (deal : next.deal = o.deal)
    (outcome : next.outcome = o.outcome) (runs : next.Runs → o.Runs) (idle : next.Idle → o.Idle) : next.Fits t := by
  obtain ⟨_, underlying, kind, amountIn, _⟩ := deal_spec deal
  constructor
  · exact fun running => fits.reserved (runs running)
  · rw [kind, outcome]
    exact fits.issued
  · exact fun resting => fits.idle (idle resting)
  · rw [kind, outcome, underlying, amountIn]
    exact fits.redeeming
  · rw [kind, outcome]
    exact fits.redeemed

/-- An order whose ticket waits unsent needs none. -/
theorem Order.Fits.unsent (fits : o.Fits t) (held : t.state = .reserved) (waiting : t.sent = false) :
    o.Fits .blank where
  reserved := by
    intro running
    rw [(fits.reserved running).2] at waiting
    cases waiting
  issued := by
    intro buy bought
    rw [fits.issued buy bought] at held
    cases held
  idle := fun _ blank => by cases blank
  redeeming := by
    intro sell none
    rw [(fits.redeeming sell none).1] at held
    cases held
  redeemed := by
    intro sell answered
    rw [fits.redeemed sell answered] at held
    cases held

/-- Two placed orders never carry the same key. -/
theorem Booked.apart (booked : Booked c s) {id other : Nat} (placed : id < s.orderCount)
    (known : other < s.orderCount) (same : (s.orders other).capKey = (s.orders id).capKey) : other = id := by
  obtain ⟨openly, rewarded⟩ := booked.keyed id placed
  obtain ⟨openly', rewarded'⟩ := booked.keyed other known
  by_cases lane : (s.orders id).lane = 0
  · by_cases lane' : (s.orders other).lane = 0
    · rw [openly lane, openly' lane'] at same
      exact CapKey.order.inj same
    · obtain ⟨_, key, _⟩ := rewarded' lane'
      rw [openly lane, key] at same
      cases same
  · obtain ⟨_, key, first⟩ := rewarded lane
    by_cases lane' : (s.orders other).lane = 0
    · rw [openly' lane', key] at same
      cases same
    · obtain ⟨_, key', second⟩ := rewarded' lane'
      rw [key, key'] at same
      cases same
      omega

/-- Each key is some order's own, so it is none of the orders to come. -/
theorem Keyed.within {id later : Nat} (keyed : Keyed s id o) (other : later ≠ id) : o.capKey ≠ .order later := by
  intro same
  by_cases lane : o.lane = 0
  · rw [keyed.1 lane] at same
    exact other (CapKey.order.inj same).symm
  · obtain ⟨_, key, _⟩ := keyed.2 lane
    rw [key] at same
    cases same

/-- One order rewritten, its own ticket with it. -/
theorem Booked.rewrite (booked : Booked c s) (id : Nat) (next : Order) (placed : id < s.orderCount)
    (orders : after.orders = Function.update s.orders id next) (count : after.orderCount = s.orderCount)
    (rewards : after.rewardOrder = s.rewardOrder) (deal : next.deal = (s.orders id).deal)
    (hub : after.capacity.hub = s.capacity.hub) (issued : ∀ u, after.capacity.issuedRaw u = (after.arc u).totalSupply)
    (elsewhere : ∀ key, key ≠ (s.orders id).capKey → after.capacity.tickets key = s.capacity.tickets key)
    (unsent : (after.capacity.tickets (s.orders id).capKey).state = .reserved →
      (after.capacity.tickets (s.orders id).capKey).sent = false →
      (s.capacity.tickets (s.orders id).capKey).state = .reserved ∧
        (s.capacity.tickets (s.orders id).capKey).sent = false)
    (fits : next.Fits (after.capacity.tickets (s.orders id).capKey)) : Booked c after where
  hub := hub.trans booked.hub
  issued := issued
  fresh := by
    intro later beyond
    rw [count] at beyond
    have other := (booked.keyed id placed).within (show later ≠ id by omega)
    rw [elsewhere _ other.symm]
    exact booked.fresh later beyond
  unsent := by
    intro key held waiting
    by_cases own : key = (s.orders id).capKey
    · subst own
      obtain ⟨before, was⟩ := unsent held waiting
      exact booked.unsent _ before was
    · rw [elsewhere key own] at held waiting
      exact booked.unsent key held waiting
  keyed := by
    intro other known
    rw [count] at known
    rw [orders, Function.update_apply]
    unfold Keyed
    rw [rewards]
    split
    · next same =>
      obtain ⟨_, _, _, _, lane, _, key⟩ := deal_spec deal
      rw [lane, key, ← same]
      exact booked.keyed other known
    · exact booked.keyed other known
  fits := by
    intro other known
    rw [count] at known
    rw [orders, Function.update_apply]
    split
    · rw [(deal_spec deal).2.2.2.2.2.2]
      exact fits
    · next different =>
      rw [elsewhere _ (fun same => different (booked.apart placed known same))]
      exact booked.fits other known

/-- The moves of an order that leave the controller alone. -/
theorem Booked.turn (booked : Booked c s) (id : Nat) (next : Order) (placed : id < s.orderCount)
    (orders : after.orders = Function.update s.orders id next) (count : after.orderCount = s.orderCount)
    (rewards : after.rewardOrder = s.rewardOrder) (deal : next.deal = (s.orders id).deal)
    (capacity : after.capacity = s.capacity) (arc : after.arc = s.arc) (outcome : next.outcome = (s.orders id).outcome)
    (runs : next.Runs → (s.orders id).Runs) (idle : next.Idle → (s.orders id).Idle) : Booked c after := by
  refine booked.rewrite id next placed orders count rewards deal (by rw [capacity]) ?_ ?_ ?_ ?_
  · rw [capacity, arc]
    exact booked.issued
  · intro key _
    rw [capacity]
  · rw [capacity]
    exact fun held waiting => ⟨held, waiting⟩
  · rw [capacity]
    exact (booked.fits id placed).kept deal outcome runs idle

/-- A new order with a key nobody carries. -/
theorem Booked.place (booked : Booked c s) (o : Order)
    (orders : after.orders = Function.update s.orders s.orderCount o) (count : after.orderCount = s.orderCount + 1)
    (rewards : ∀ key, key ≠ o.capKey ∨ o.lane = 0 → after.rewardOrder key = s.rewardOrder key)
    (keyed : Keyed after s.orderCount o) (unused : o.lane ≠ 0 → s.rewardOrder o.capKey = 0)
    (hub : after.capacity.hub = s.capacity.hub) (issued : ∀ u, after.capacity.issuedRaw u = (after.arc u).totalSupply)
    (elsewhere : ∀ key, key ≠ o.capKey → after.capacity.tickets key = s.capacity.tickets key)
    (unsent : (after.capacity.tickets o.capKey).state = .reserved →
      (after.capacity.tickets o.capKey).sent = false → ∃ round, o.capKey = .reward round)
    (fits : o.Fits (after.capacity.tickets o.capKey)) : Booked c after := by
  have different : ∀ other, other < s.orderCount → (s.orders other).capKey ≠ o.capKey := by
    intro other known same
    by_cases lane : o.lane = 0
    · rw [keyed.1 lane] at same
      exact (booked.keyed other known).within (by omega) same
    · obtain ⟨round, key, _⟩ := keyed.2 lane
      by_cases lane' : (s.orders other).lane = 0
      · rw [(booked.keyed other known).1 lane', key] at same
        cases same
      · obtain ⟨_, key', taken⟩ := (booked.keyed other known).2 lane'
        have free := unused lane
        rw [← same, key', taken] at free
        cases free
  refine ⟨hub.trans booked.hub, issued, ?_, ?_, ?_, ?_⟩
  · intro later beyond
    rw [count] at beyond
    rw [elsewhere _ (keyed.within (by omega)).symm]
    exact booked.fresh later (by omega)
  · intro key held waiting
    by_cases own : key = o.capKey
    · subst own
      exact unsent held waiting
    · rw [elsewhere key own] at held waiting
      exact booked.unsent key held waiting
  · intro other known
    rw [count] at known
    rw [orders]
    by_cases new : other = s.orderCount
    · subst new
      rw [Function.update_self]
      exact keyed
    · rw [Function.update_of_ne new]
      obtain ⟨openly, rewarded⟩ := booked.keyed other (by omega)
      refine ⟨openly, fun lane => ?_⟩
      obtain ⟨round, key, taken⟩ := rewarded lane
      refine ⟨round, key, ?_⟩
      rw [rewards _ (.inl fun same => different other (by omega) (key.trans same))]
      exact taken
  · intro other known
    rw [count] at known
    rw [orders]
    by_cases new : other = s.orderCount
    · subst new
      rw [Function.update_self]
      exact fits
    · rw [Function.update_of_ne new, elsewhere _ (different other (by omega))]
      exact booked.fits other (by omega)

/-! Calls of the controller by anyone but the hub. -/

/-- A stranger reserves, takes back what was not sent, or changes no ticket at all. -/
theorem foreign_step (capacity after : Capacity.State CapKey) (call : Capacity.Call CapKey) (bound : capacity.hub ≠ 0)
    (other : call.sender ≠ capacity.hub) (taken : Capacity.step capacity call = .ok after) :
    (∃ key asset usd, call.action = .reserveFor key asset usd ∧ (capacity.tickets key).Free ∧
        after = capacity.reserved key 1 asset usd) ∨
      (∃ key, (capacity.tickets key).state = .reserved ∧ (capacity.tickets key).sent = false ∧
        after = capacity.dropped key true) ∨
      after.hub = capacity.hub ∧ after.issuedRaw = capacity.issuedRaw ∧
        after.tickets = capacity.tickets := by
  obtain ⟨sender, now, action⟩ := call
  cases action with
  | reserveFor key asset usd =>
    simp only [Capacity.step, Capacity.reserveFor, bind_ok, require_ok] at taken
    obtain ⟨_, _, reserved⟩ := taken
    obtain ⟨_, free, _, same⟩ := Capacity.reserve_ok _ _ _ _ _ _ reserved
    exact .inl ⟨key, asset, usd, rfl, free, same⟩
  | releaseUnsent key =>
    obtain ⟨held, unsent, same⟩ := Capacity.releaseUnsent_ok _ _ _ _ taken
    exact .inr (.inl ⟨key, held, unsent, same⟩)
  | bind hub rewardManager =>
    simp only [Capacity.step, Capacity.bind, bind_ok, require_ok] at taken
    obtain ⟨_, _, _, unbound, _⟩ := taken
    exact absurd unbound bound
  | reservePublicFor | markSent | release | finalizeBuy | beginRedeem | finalizeRedeem | revertRedeem
  | markReviewed =>
    -- the hub's own calls
    simp only [Capacity.step, Capacity.reservePublicFor, Capacity.markSent, Capacity.release,
      Capacity.finalizeBuy, Capacity.beginRedeem, Capacity.finalizeRedeem, Capacity.revertRedeem,
      Capacity.markReviewed, bind_ok, require_ok] at taken
    obtain ⟨_, own, _⟩ := taken
    exact absurd own other
  | lowerLimits lRun uRun totalCap =>
    simp only [Capacity.step, Capacity.lowerLimits, Capacity.setLimits, bind_ok, require_ok,
      pure_ok] at taken
    obtain ⟨_, _, _, _, rfl⟩ := taken
    refine .inr (.inr ?_)
    split <;> exact ⟨rfl, rfl, rfl⟩
  | proposeLimits | executeLimits | setMinOrder | setAssetCap | lowerAssetCap | proposeAssetCap
  | executeAssetCap =>
    simp only [Capacity.step, Capacity.proposeLimits, Capacity.executeLimits, Capacity.setMinOrder,
      Capacity.setAssetCap, Capacity.lowerAssetCap, Capacity.proposeAssetCap,
      Capacity.executeAssetCap, Capacity.checkLimits, Capacity.setLimits, Capacity.storeAssetCap,
      bind_ok, require_ok, pure_ok] at taken
    obtain ⟨_, _, rest⟩ := taken
    refine .inr (.inr ?_)
    grind

/-- A review settles what is counted as unreviewed, not the ticket. -/
theorem Booked.reviewed (booked : Booked c s) (key : CapKey) :
    Booked c { s with capacity := s.capacity.reviewed key } := by
  have same : ∀ other, ((s.capacity.reviewed key).tickets other).state = (s.capacity.tickets other).state ∧
      ((s.capacity.reviewed key).tickets other).sent = (s.capacity.tickets other).sent ∧
      ((s.capacity.reviewed key).tickets other).asset = (s.capacity.tickets other).asset ∧
      ((s.capacity.reviewed key).tickets other).raw = (s.capacity.tickets other).raw := by
    intro other
    simp only [Capacity.State.reviewed, Function.update_apply]
    split
    · next here =>
      subst here
      exact ⟨rfl, rfl, rfl, rfl⟩
    · exact ⟨rfl, rfl, rfl, rfl⟩
  refine ⟨booked.hub, booked.issued, ?_, ?_, booked.keyed, ?_⟩
  · intro id beyond
    rw [(same _).1]
    exact booked.fresh id beyond
  · intro other
    rw [(same _).1, (same _).2.1]
    exact booked.unsent other
  · intro id placed
    have fits := booked.fits id placed
    obtain ⟨state, sent, asset, raw⟩ := same (s.orders id).capKey
    constructor
    · rw [state, sent]
      exact fits.reserved
    · rw [state]
      exact fits.issued
    · rw [state]
      exact fits.idle
    · rw [state, asset, raw]
      exact fits.redeeming
    · rw [state]
      exact fits.redeemed

theorem Booked.outside {capacity : Capacity.State CapKey} (booked : Booked c s) (call : Capacity.Call CapKey)
    (other : call.sender ≠ c.self)
    (fresh : ∀ key asset usd, call.action = .reserveFor key asset usd →
      s.rewardOrder key = 0 ∧ ∃ round, key = .reward round)
    (taken : Capacity.step s.capacity call = .ok capacity) : Booked c { s with capacity := capacity } := by
  have bound : s.capacity.hub ≠ 0 := by
    rw [booked.hub]
    exact c.real
  rcases foreign_step _ _ call bound (by rw [booked.hub]; exact other) taken with
    ⟨key, asset, usd, reserves, free, rfl⟩ | ⟨key, held, waiting, rfl⟩ | ⟨hub, issued, tickets⟩
  · obtain ⟨unused, round, rfl⟩ := fresh key asset usd reserves
    have elsewhere : ∀ id, id < s.orderCount → (s.orders id).capKey ≠ .reward round := by
      intro id placed same
      obtain ⟨openly, rewarded⟩ := booked.keyed id placed
      by_cases lane : (s.orders id).lane = 0
      · rw [openly lane] at same
        cases same
      · obtain ⟨_, key, taken⟩ := rewarded lane
        rw [key] at same
        rw [same, unused] at taken
        cases taken
    refine ⟨booked.hub, booked.issued, ?_, ?_, booked.keyed, ?_⟩
    · intro id beyond
      simp only [Capacity.State.reserved]
      rw [Function.update_of_ne (by simp)]
      exact booked.fresh id beyond
    · intro key held waiting
      by_cases own : key = .reward round
      · exact ⟨round, own⟩
      · simp only [Capacity.State.reserved, Function.update_of_ne own] at held waiting
        exact booked.unsent key held waiting
    · intro id placed
      simp only [Capacity.State.reserved]
      rw [Function.update_of_ne (elsewhere id placed)]
      exact booked.fits id placed
  · obtain ⟨round, rfl⟩ := booked.unsent key held waiting
    refine ⟨booked.hub, booked.issued, ?_, ?_, booked.keyed, ?_⟩
    · intro id beyond
      simp only [Capacity.State.dropped]
      rw [Function.update_of_ne (by simp)]
      exact booked.fresh id beyond
    · intro key held waiting
      by_cases own : key = .reward round
      · exact ⟨round, own⟩
      · simp only [Capacity.State.dropped, Function.update_of_ne own] at held waiting
        exact booked.unsent key held waiting
    · intro id placed
      have fits := booked.fits id placed
      simp only [Capacity.State.dropped]
      by_cases own : (s.orders id).capKey = .reward round
      · rw [own] at fits ⊢
        rw [Function.update_self]
        exact fits.unsent held waiting
      · rw [Function.update_of_ne own]
        exact fits
  · refine ⟨hub.trans booked.hub, ?_, ?_, ?_, booked.keyed, ?_⟩
    · rw [issued]
      exact booked.issued
    · rw [tickets]
      exact booked.fresh
    · rw [tickets]
      exact booked.unsent
    · rw [tickets]
      exact booked.fits

/-! One move of the hub's books. -/

/-- A turn of an order's life starts no reservation and frees none. -/
theorem Turn.rests {next : Order} (turn : Turn o next) (regular : o.Regular) (deal : next.deal = o.deal) :
    next.outcome = o.outcome ∧ (next.Runs → o.Runs) ∧ (next.Idle → o.Idle) := by
  obtain ⟨_, _, kind, _, lane, _⟩ := deal_spec deal
  have proper := regular.proper
  unfold Order.Runs Order.Idle
  rw [kind, lane]
  cases turn with
  | keeps phase _ =>
    obtain ⟨status, outcome, advanced, _⟩ := phase_spec phase
    rw [status, outcome, advanced]
    exact ⟨rfl, id, id⟩
  | refunded buy public' pending _ phase =>
    obtain ⟨status, outcome, advanced, _⟩ := phase_spec phase
    simp only [Order.phase, buy, pending] at proper
    cases was : o.outcome <;> simp_all [Proper]
  | floatRefunded buy dispatched _ phase =>
    obtain ⟨status, outcome, advanced, _⟩ := phase_spec phase
    simp only [Order.phase, buy, dispatched] at proper
    cases was : o.outcome <;> simp_all [Proper]
  | closed buy returning phase =>
    obtain ⟨status, outcome, advanced, _⟩ := phase_spec phase
    simp only [Order.phase, buy, returning] at proper
    rcases was : o.outcome with _ | _ | _ | _ <;> simp_all [Proper]
  | paid sell proceeds _ phase =>
    obtain ⟨status, outcome, advanced, _⟩ := phase_spec phase
    simp [sell, outcome]

/-- A redemption under a fresh key burns what the controller takes off the books. -/
theorem redeemed_issued (booked : Booked c s) (o : Order) (token : Token) (capacity : Capacity.State CapKey)
    (kind : o.kind = .sell) (none : o.outcome = none)
    (burned : token.totalSupply + o.amountIn = (s.arc o.underlying).totalSupply)
    (begun : Capacity.beginRedeem s.capacity c.self o.capKey o.underlying o.amountIn = .ok capacity) :
    capacity.hub = s.capacity.hub ∧
      (∀ u, capacity.issuedRaw u = (Function.update s.arc o.underlying token u).totalSupply) ∧
      (∀ key, key ≠ o.capKey → capacity.tickets key = s.capacity.tickets key) ∧
      (capacity.tickets o.capKey).state = .redeeming ∧ o.Fits (capacity.tickets o.capKey) := by
  obtain ⟨_, usd, _, rfl⟩ := Capacity.beginRedeem_ok _ _ _ _ _ _ begun
  have whole : min o.amountIn (s.capacity.issuedRaw o.underlying) = o.amountIn := by
    rw [booked.issued]
    omega
  simp only [Capacity.State.redeeming, whole, Function.update_self]
  refine ⟨trivial, fun u => ?_, fun key other => Function.update_of_ne other .., trivial, ?_⟩
  · by_cases same : u = o.underlying
    · subst same
      rw [Function.update_self, Function.update_self, booked.issued]
      omega
    · rw [Function.update_of_ne same, Function.update_of_ne same]
      exact booked.issued u
  · constructor
    · exact fun running => absurd running.1 (by simp [kind])
    · exact fun buy => by simp [kind] at buy
    · exact fun resting => absurd resting.1 (by simp [kind])
    · exact fun _ _ => ⟨rfl, rfl, rfl⟩
    · exact fun _ answered => absurd none answered

/-- Shares minted and booked together. -/
theorem minted_issued (booked : Booked c s) {underlying recipient raw : Nat} (key : CapKey) (token : Token)
    (capacity : Capacity.State CapKey) (minted : (s.arc underlying).mint recipient raw = .ok token)
    (issues : Capacity.finalizeBuy s.capacity c.self key underlying raw = .ok capacity) :
    capacity.hub = s.capacity.hub ∧
      (∀ u, capacity.issuedRaw u = (Function.update s.arc underlying token u).totalSupply) ∧
      (∀ other, other ≠ key → capacity.tickets other = s.capacity.tickets other) ∧
      ((s.capacity.tickets key).state = .reserved → (capacity.tickets key).state = .issued) := by
  have supply := mint_supply _ _ _ _ minted
  have counted : ∀ u, Function.update s.capacity.issuedRaw underlying
      (s.capacity.issuedRaw underlying + raw) u =
        (Function.update s.arc underlying token u).totalSupply := by
    intro u
    by_cases same : u = underlying
    · subst same
      rw [Function.update_self, Function.update_self, supply, booked.issued]
    · rw [Function.update_of_ne same, Function.update_of_ne same]
      exact booked.issued u
  rcases Capacity.finalizeBuy_ok _ _ _ _ _ _ issues with ⟨_, rfl⟩ | ⟨idle, rfl⟩
  · exact ⟨rfl, counted, fun _ other => Function.update_of_ne other .., fun _ => by
      simp [Capacity.State.issued]⟩
  · exact ⟨rfl, counted, fun _ _ => rfl, fun held => absurd held idle⟩

theorem closed_fits (sell : o.kind = .sell) (answered : o.outcome ≠ none) (closed : t.state = .closed) : o.Fits t where
  reserved := fun running => absurd running.1 (by simp [sell])
  issued := fun buy => by simp [sell] at buy
  idle := fun resting => absurd resting.1 (by simp [sell])
  redeeming := fun _ none => absurd none answered
  redeemed := fun _ _ => closed

/-- A buy that is over without stock. -/
theorem failed_fits (buy : o.kind = .buy) (over' : o.outcome = some .failed ∨
      o.outcome = none ∧ o.status = .cancelled ∧ o.advanced = false) (free : t.state ≠ .reserved) : o.Fits t where
  reserved := by
    rintro ⟨_, none, running⟩
    rcases over' with failed | ⟨_, cancelled, off⟩
    · simp [failed] at none
    · simp [cancelled, off] at running
  issued := by
    intro _ bought
    rcases over' with failed | ⟨none, _⟩
    · simp [failed] at bought
    · simp [none] at bought
  idle := fun _ => free
  redeeming := fun sell => by simp [buy] at sell
  redeemed := fun sell => by simp [buy] at sell

theorem move_booked {p : Promises} {action : Action} (regular : Regular s) (booked : Booked c s)
    (inside : ∀ outer, action ≠ .capacity outer) (move : Move c p action s after) : Booked c after := by
  cases move with
  | controls | funds | marks =>
    exact ⟨booked.hub, booked.issued, booked.fresh, booked.unsent, booked.keyed, booked.fits⟩
  | outside call _ _ _ own => exact absurd own (inside _)
  | transfers underlying token supply =>
    refine ⟨booked.hub, fun u => ?_, booked.fresh, booked.unsent, booked.keyed, booked.fits⟩
    dsimp only
    by_cases same : u = underlying
    · subst same
      rw [Function.update_self, supply]
      exact booked.issued u
    · rw [Function.update_of_ne same]
      exact booked.issued u
  | turned id next _ _ placed deal turn =>
    obtain ⟨outcome, runs, idle⟩ := turn.rests (regular.orders id) deal
    exact booked.turn id next placed rfl rfl rfl deal rfl rfl outcome runs idle
  | floatPaid id next _ _ placed deal _ sell _ _ phase =>
    have kind := (deal_spec deal).2.2.1.trans sell
    exact booked.turn id next placed rfl rfl rfl deal rfl rfl (phase_spec phase).2.1
      (fun running => absurd running.1 (by simp [kind])) (fun resting => absurd resting.1 (by simp [kind]))
  | placesBuy o _ buy lane key =>
    have unsold := booked.fresh s.orderCount le_rfl
    obtain ⟨status, outcome, _⟩ := phase_spec buy.phase
    refine booked.place o rfl rfl (fun _ _ => rfl) ⟨fun _ => key, fun other => absurd lane other⟩
      (fun other => absurd lane other) rfl booked.issued (fun _ _ => rfl) ?_ ?_
    · intro held
      dsimp only at held
      rw [key, unsold] at held
      cases held
    · dsimp only
      rw [key]
      constructor
      · exact fun running => by simp [Order.Runs, status] at running
      · exact fun _ bought => by simp [outcome] at bought
      · exact fun _ => by simp [unsold]
      · exact fun sell => by simp [buy.kind] at sell
      · exact fun sell => by simp [buy.kind] at sell
  | placesReward o _ buy lane unplaced reserved unsent =>
    obtain ⟨round, key⟩ := booked.unsent _ reserved unsent
    obtain ⟨status, outcome, _⟩ := phase_spec buy.phase
    refine booked.place o rfl rfl ?_ ⟨fun other => by simp [lane] at other, fun _ => ⟨round, key, ?_⟩⟩
      (fun _ => unplaced) rfl booked.issued (fun _ _ => rfl) (fun _ _ => ⟨round, key⟩) ?_
    · rintro other (different | public')
      · exact Function.update_of_ne different ..
      · simp [lane] at public'
    · dsimp only
      rw [← key, Function.update_self]
    · constructor
      · exact fun running => by simp [Order.Runs, status] at running
      · exact fun _ bought => by simp [outcome] at bought
      · exact fun resting => by simp [Order.Idle, status, outcome, lane] at resting
      · exact fun sell => by simp [buy.kind] at sell
      · exact fun sell => by simp [buy.kind] at sell
  | placesSell o token capacity sell lane key _ burned begun =>
    obtain ⟨hub, issued, elsewhere, redeeming, fits⟩ :=
      redeemed_issued booked o token capacity sell.kind (phase_spec sell.phase).2.1 burned begun
    exact booked.place o rfl rfl (fun _ _ => rfl) ⟨fun _ => key, fun other => absurd lane other⟩
      (fun other => absurd lane other) hub issued elsewhere
      (fun held => by rw [redeeming] at held; cases held) fits
  | redeems o token capacity _ _ _ sell lane key _ burned begun =>
    obtain ⟨hub, issued, elsewhere, redeeming, fits⟩ :=
      redeemed_issued booked o token capacity sell.kind (phase_spec sell.phase).2.1 burned begun
    exact booked.place o rfl rfl (fun _ _ => rfl) ⟨fun _ => key, fun other => absurd lane other⟩
      (fun other => absurd lane other) hub issued elsewhere
      (fun held => by rw [redeeming] at held; cases held) fits
  | launches id next _ reserved capacity placed deal buy pending _ phase _ publicLane rewardLane sent =>
    obtain ⟨_, _, kind, _⟩ := deal_spec deal
    obtain ⟨status, outcome, _⟩ := phase_spec phase
    have proper := (regular.orders id).proper
    have none : (s.orders id).outcome = none := by
      simp only [Order.phase, buy, pending] at proper
      rcases was : (s.orders id).outcome with _ | _ | _ | _ <;> simp_all [Proper]
    have reservation : reserved.hub = s.capacity.hub ∧ reserved.issuedRaw = s.capacity.issuedRaw ∧
        ∀ key, key ≠ (s.orders id).capKey → reserved.tickets key = s.capacity.tickets key := by
      by_cases lane : (s.orders id).lane = 0
      · have taken := publicLane lane
        simp only [Capacity.reservePublicFor, bind_ok, require_ok] at taken
        obtain ⟨_, _, taken⟩ := taken
        obtain ⟨_, _, _, rfl⟩ := Capacity.reserve_ok _ _ _ _ _ _ taken
        exact ⟨rfl, rfl, fun _ other => Function.update_of_ne other ..⟩
      · rw [rewardLane lane]
        exact ⟨rfl, rfl, fun _ _ => rfl⟩
    obtain ⟨hub, issued, elsewhere⟩ := reservation
    obtain ⟨_, held, rfl⟩ := Capacity.markSent_ok _ _ _ _ sent
    refine booked.rewrite id next placed rfl rfl rfl deal hub ?_ ?_ ?_ ?_
    · dsimp only [Capacity.State.sent, Capacity.State.setTicket]
      rw [issued]
      exact booked.issued
    · intro key other
      exact (Function.update_of_ne other ..).trans (elsewhere key other)
    · intro _ waiting
      simp [Capacity.State.sent, Capacity.State.setTicket] at waiting
    · simp only [Capacity.State.sent, Capacity.State.setTicket, Function.update_self]
      constructor
      · exact fun _ => ⟨held, rfl⟩
      · exact fun _ bought => by simp [outcome, none] at bought
      · exact fun resting => by simp [Order.Idle, status, outcome, none] at resting
      · exact fun sell => by simp [kind, buy] at sell
      · exact fun sell => by simp [kind, buy] at sell
  | sends id next _ m placed deal message _ phase =>
    obtain ⟨_, _, kind, _, lane, _⟩ := deal_spec deal
    obtain ⟨status, outcome, advanced, _⟩ := phase_spec phase
    have proper := (regular.orders id).proper
    refine booked.turn id next placed rfl rfl rfl deal rfl rfl outcome ?_ ?_
    · intro running
      simp only [Order.Runs, kind, status, outcome, advanced] at running ⊢
      cases message with
      | order open' =>
        rcases open' with funded | ⟨sell, _⟩
        · exact ⟨running.1, running.2.1, .inl funded⟩
        · simp [sell] at running
      | void buy unanswered open' =>
        rcases open' with funded | dispatched | cancelled
        · exact ⟨buy, unanswered, .inl funded⟩
        · exact ⟨buy, unanswered, .inr (.inl dispatched)⟩
        · exact ⟨buy, unanswered, .inr (.inr (.inr cancelled))⟩
    · intro resting
      simp only [Order.Idle, kind, status, outcome, advanced, lane] at resting ⊢
      obtain ⟨buy, failed | ⟨none, ⟨left, off⟩ | ⟨left, _⟩⟩⟩ := resting
      · exact ⟨buy, .inl failed⟩
      · split at left
        · next cancelled => exact ⟨buy, .inr ⟨none, .inl ⟨cancelled, off⟩⟩⟩
        · cases left
      · split at left <;> cases left
  | delivers id next _ _ _ placed deal why _ phase =>
    obtain ⟨_, _, kind, _⟩ := deal_spec deal
    obtain ⟨status, outcome, advanced, _⟩ := phase_spec phase
    have proper := (regular.orders id).proper
    refine booked.turn id next placed rfl rfl rfl deal rfl rfl outcome ?_ ?_
    · intro running
      simp only [Order.Runs, kind, outcome] at running ⊢
      cases why with
      | sell sell _ => simp [sell] at running
      | void _ _ _ open' =>
        rcases open' with funded | dispatched
        · exact ⟨running.1, running.2.1, .inl funded⟩
        · exact ⟨running.1, running.2.1, .inr (.inl dispatched)⟩
      | money _ open' =>
        simp only [Order.phase, running.1, running.2.1] at proper
        rcases open' with returning | proceeds <;> simp_all [Proper]
    · intro resting
      simp only [Order.Idle, kind, outcome, status] at resting ⊢
      obtain ⟨buy, failed | ⟨_, ⟨left, _⟩ | ⟨left, _⟩⟩⟩ := resting
      · exact ⟨buy, .inl failed⟩
      · cases left
      · cases left
  | reviews key capacity reviewed =>
    rcases Capacity.markReviewed_ok _ _ _ _ reviewed with ⟨_, rfl⟩ | ⟨_, rfl⟩
    · exact booked.reviewed key
    · exact booked
  | bought id r _ next _ _ token capacity placed _ _ _ deal buy _ open' _ minted issues =>
    obtain ⟨_, _, kind, _⟩ := deal_spec deal
    obtain ⟨hub, issued, elsewhere, issuedNow⟩ := minted_issued booked _ token capacity minted issues
    have runs : (s.orders id).Runs := by
      rcases open' with ⟨⟨none, dispatched | ⟨_, escalated⟩⟩, _⟩ | ⟨cancelled, advanced, none, _⟩
      · exact ⟨buy, none, .inr (.inl dispatched)⟩
      · exact ⟨buy, none, .inr (.inr (.inl escalated))⟩
      · exact ⟨buy, none, .inr (.inr (.inr ⟨cancelled, advanced⟩))⟩
    have outcome : next.outcome = some .bought := by
      rcases open' with ⟨_, phase⟩ | ⟨_, _, _, phase⟩
      · exact (phase_spec phase).2.1
      · exact (phase_spec phase).2.1
    have now := issuedNow ((booked.fits id placed).reserved runs).1
    refine booked.rewrite id next placed rfl rfl rfl deal hub issued elsewhere ?_ ?_
    · intro held
      dsimp only at held
      rw [now] at held
      cases held
    · constructor
      · exact fun running => by simp [Order.Runs, outcome] at running
      · exact fun _ _ => now
      · exact fun resting => by simp [Order.Idle, outcome] at resting
      · exact fun sell => by simp [kind, buy] at sell
      · exact fun sell => by simp [kind, buy] at sell
  | migrated r underlying nonce _ token capacity _ ref _ _ _ minted issues =>
    obtain ⟨hub, issued, elsewhere, _⟩ := minted_issued booked _ token capacity minted issues
    have unlike : ∀ id, id < s.orderCount → (s.orders id).capKey ≠ .ref r.ref := by
      intro id placed same
      obtain ⟨openly, rewarded⟩ := booked.keyed id placed
      by_cases lane : (s.orders id).lane = 0
      · rw [openly lane] at same
        cases same
      · obtain ⟨_, key, _⟩ := rewarded lane
        rw [key] at same
        cases same
    refine ⟨hub.trans booked.hub, issued, ?_, ?_, booked.keyed, ?_⟩
    · intro id beyond
      rw [elsewhere _ (by simp)]
      exact booked.fresh id beyond
    · intro key held waiting
      by_cases own : key = .ref r.ref
      · subst own
        rcases Capacity.finalizeBuy_ok _ _ _ _ _ _ issues with ⟨_, rfl⟩ | ⟨idle, rfl⟩
        · simp [Capacity.State.issued] at held
        · exact absurd held idle
      · rw [elsewhere key own] at held waiting
        exact booked.unsent key held waiting
    · intro id placed
      rw [elsewhere _ (unlike id placed)]
      exact booked.fits id placed
  | sold id r canonical next capacity placed _ _ _ deal sell none _ _ phase _ finalized =>
    obtain ⟨_, _, kind, _⟩ := deal_spec deal
    have outcome := (phase_spec phase).2.1
    obtain ⟨held, _, _⟩ := (booked.fits id placed).redeeming sell none
    rcases Capacity.finalizeRedeem_ok _ _ _ _ _ finalized with ⟨_, rfl⟩ | ⟨idle, _⟩
    · refine booked.rewrite id next placed rfl rfl rfl deal rfl booked.issued
        (fun _ other => Function.update_of_ne other ..) ?_ ?_
      · intro held
        simp [Capacity.State.redeemed] at held
      · simp only [Capacity.State.redeemed, Function.update_self]
        exact closed_fits (kind.trans sell) (by simp [outcome]) rfl
    · exact absurd held idle
  | buyFailed id r _ next capacity placed _ _ _ deal buy open' _ _ freed =>
    obtain ⟨_, _, kind, _⟩ := deal_spec deal
    have outcome : next.outcome = some .failed := by
      rcases open' with ⟨_, phase⟩ | ⟨_, _, _, phase⟩
      · exact (phase_spec phase).2.1
      · exact (phase_spec phase).2.1
    rcases Capacity.release_ok _ _ _ _ freed with ⟨_, rfl⟩ | ⟨idle, rfl⟩
    · refine booked.rewrite id next placed rfl rfl rfl deal rfl booked.issued
        (fun _ other => Function.update_of_ne other ..) ?_ ?_
      · intro held
        simp [Capacity.State.dropped] at held
      · simp only [Capacity.State.dropped, Function.update_self]
        exact failed_fits (kind.trans buy) (.inl outcome) (by simp)
    · exact booked.rewrite id next placed rfl rfl rfl deal rfl booked.issued (fun _ _ => rfl)
        (fun held waiting => ⟨held, waiting⟩) (failed_fits (kind.trans buy) (.inl outcome) idle)
  | sellFailed id r _ next token capacity placed _ _ _ deal sell open' _ phase _ minted reverted =>
    obtain ⟨_, _, kind, _⟩ := deal_spec deal
    have outcome := (phase_spec phase).2.1
    have proper := (regular.orders id).proper
    have none : (s.orders id).outcome = none := by
      rcases open' with ⟨none, _⟩ | pending
      · exact none
      · simp only [Order.phase, sell, pending] at proper
        rcases was : (s.orders id).outcome with _ | _ | _ | _ <;> simp_all [Proper]
    obtain ⟨held, asset, raw⟩ := (booked.fits id placed).redeeming sell none
    have supply := mint_supply _ _ _ _ minted
    rcases Capacity.revertRedeem_ok _ _ _ _ reverted with ⟨_, rfl⟩ | ⟨idle, _⟩
    · refine booked.rewrite id next placed rfl rfl rfl deal rfl ?_
        (fun _ other => Function.update_of_ne other ..) ?_ ?_
      · intro u
        simp only [Capacity.State.reverted, asset, raw]
        by_cases same : u = (s.orders id).underlying
        · subst same
          rw [Function.update_self, Function.update_self, supply, booked.issued]
        · rw [Function.update_of_ne same, Function.update_of_ne same]
          exact booked.issued u
      · intro held
        simp [Capacity.State.reverted] at held
      · simp only [Capacity.State.reverted, Function.update_self]
        exact closed_fits (kind.trans sell) (by simp [outcome]) rfl
    · exact absurd held idle
  | withdrawn id next _ capacity placed deal buy lane pending phase _ released =>
    obtain ⟨_, _, kind, _⟩ := deal_spec deal
    obtain ⟨status, outcome, advanced, _⟩ := phase_spec phase
    have proper := (regular.orders id).proper
    have early : (s.orders id).outcome = none ∧ (s.orders id).advanced = false := by
      simp only [Order.phase, buy, pending] at proper
      rcases was : (s.orders id).outcome with _ | _ | _ | _ <;> simp_all [Proper]
    obtain ⟨_, _, rfl⟩ := Capacity.releaseUnsent_ok _ _ _ _ released
    refine booked.rewrite id next placed rfl rfl rfl deal rfl booked.issued
      (fun _ other => Function.update_of_ne other ..) ?_ ?_
    · intro held
      simp [Capacity.State.dropped, Capacity.Ticket.blank] at held
    · simp only [Capacity.State.dropped, Function.update_self]
      refine failed_fits (kind.trans buy) (.inr ⟨outcome.trans early.1, status, ?_⟩) ?_
      · exact advanced.trans early.2
      · simp [Capacity.Ticket.blank]

/-! Every run. -/

/-- The round manager reserves under a round's order id, and never under one the hub has taken:
starting a round raises the nonce the next id is drawn with. -/
def RoundKeys (s : State) (call : Call) : Prop :=
  match call.action with
  | .capacity (.reserveFor (.reward round) _ _) => s.rewardOrder (.reward round) = 0
  | .capacity (.reserveFor _ _ _) => False
  | _ => True

instance (s : State) (call : Call) : Decidable (RoundKeys s call) := by
  unfold RoundKeys
  split <;> infer_instance

theorem RoundKeys.fresh {call : Call} (keys : RoundKeys s call) {action : Capacity.Action CapKey}
    (own : call.action = .capacity action) (key : CapKey) (asset usd : Nat)
    (reserves : action = .reserveFor key asset usd) : s.rewardOrder key = 0 ∧ ∃ round, key = .reward round := by
  unfold RoundKeys at keys
  rw [own, reserves] at keys
  cases key with
  | reward round => exact ⟨keys, round, rfl⟩
  | order => cases keys
  | ref => cases keys

theorem step_booked {call : Call} (regular : Regular s) (booked : Booked c s) (keys : RoundKeys s call)
    (taken : step c s call = .ok after) : Booked c after := by
  by_cases outer : ∃ action, call.action = .capacity action
  · obtain ⟨action, own⟩ := outer
    simp only [step, own, bind_ok, require_ok, onCapacity_ok] at taken
    obtain ⟨_, other, capacity, done, rfl⟩ := taken
    exact booked.outside _ other (keys.fresh own) done
  · have inside : ∀ action, call.action ≠ .capacity action := fun action own => outer ⟨action, own⟩
    have moves := step_moves s after call regular taken
    clear taken
    -- along the moves of one call, with the orders regular throughout
    suffices both : Regular after ∧ Booked c after from both.2
    induction moves with
    | refl => exact ⟨regular, booked⟩
    | tail _ move ih =>
      exact ⟨move_regular ih.1 move, move_booked ih.1 ih.2 inside move⟩

theorem reachable_booked (reached : Reachable (restrict (accepts c) RoundKeys) (deployed c) s) : Booked c s := by
  induction reached with
  | start => exact deployed_booked
  | next earlier taken ih =>
    exact step_booked (reachable_regular earlier.unrestricted) ih taken.1 taken.2

/-- A closed order's ticket is reserved only while a refund from the float waits for its result. -/
theorem Order.Fits.closed (fits : o.Fits t) (regular : o.Regular) (closed : o.status = .filled ∨ o.status = .cancelled)
    (held : t.state = .reserved) : o.kind = .buy ∧ o.status = .cancelled ∧ o.advanced = true ∧ o.outcome = none := by
  have proper := regular.proper
  cases kind : o.kind with
  | sell =>
    by_cases none : o.outcome = none
    · rw [(fits.redeeming kind none).1] at held
      cases held
    · rw [fits.redeemed kind none] at held
      cases held
  | buy =>
    rcases outcome : o.outcome with _ | _ | _ | _
    · rcases closed with filled | cancelled
      · simp [Order.phase, kind, filled, outcome, Proper] at proper
      · refine ⟨rfl, cancelled, ?_, rfl⟩
        by_contra off
        exact fits.idle ⟨kind, .inr ⟨outcome, .inl ⟨cancelled, by simpa using off⟩⟩⟩ held
    · rw [fits.issued kind outcome] at held
      cases held
    · rcases closed with filled | cancelled
      · simp [Order.phase, kind, filled, outcome, Proper] at proper
      · simp [Order.phase, kind, cancelled, outcome, Proper] at proper
    · exact absurd held (fits.idle ⟨kind, .inl outcome⟩)

theorem tickets_match (c : Config) (s : State)
    (reached : Reachable (restrict (accepts c) RoundKeys) (deployed c) s) :
    (∀ u, s.capacity.issuedRaw u = (s.arc u).totalSupply) ∧
      (∀ u holder raw token, (s.arc u).burn holder raw = .ok token →
        min raw (s.capacity.issuedRaw u) = raw) ∧
      ∀ id, id < s.orderCount →
        (s.orders id).Fits (s.capacity.tickets (s.orders id).capKey) ∧
        ((s.orders id).status = .filled ∨ (s.orders id).status = .cancelled →
          (s.capacity.tickets (s.orders id).capKey).state = .reserved →
          (s.orders id).kind = .buy ∧ (s.orders id).status = .cancelled ∧
            (s.orders id).advanced = true ∧ (s.orders id).outcome = none) := by
  have booked := reachable_booked reached
  have regular := reachable_regular reached.unrestricted
  refine ⟨booked.issued, ?_, ?_⟩
  · intro u holder raw token burned
    have supply := burn_supply _ _ _ _ burned
    rw [booked.issued]
    omega
  · intro id placed
    exact ⟨booked.fits id placed, (booked.fits id placed).closed (regular.orders id)⟩

/-- One buy filled, one launched and one sale on its way. -/
def ticketed : List Call :=
  [by' 2 0 (.listStock 50 30 (10 ^ 20) 60 1),
    by' 12 (32 * 10 ^ 18) (.requestBuy 50 (30 * 10 ^ 18) 1),
    by' 3 0 (.launch 0 0 0),
    by' 11 0 (.lzReceive 30 ⟨.order 0, 50, .bought, 20 * 10 ^ 6, 10 ^ 18, 1⟩),
    by' 12 0 (.requestSell 50 (10 ^ 17) 0),
    by' 12 (32 * 10 ^ 18) (.requestBuy 50 (30 * 10 ^ 18) 1),
    by' 3 0 (.launch 2 0 0)]

theorem tickets_match_run : ∃ s, Reachable (restrict (accepts sample) RoundKeys) (deployed sample) s ∧
    (s.capacity.tickets (.order 0)).state = .issued ∧
    (s.capacity.tickets (.order 1)).state = .redeeming ∧
    (s.capacity.tickets (.order 2)).state = .reserved ∧
    s.capacity.issuedRaw 50 = (s.arc 50).totalSupply := by
  obtain ⟨s, reached, passed⟩ := run_passes (step sample) RoundKeys ticketed (deployed sample)
    (fun s => decide ((s.capacity.tickets (.order 0)).state = .issued ∧
      (s.capacity.tickets (.order 1)).state = .redeeming ∧
      (s.capacity.tickets (.order 2)).state = .reserved)) (by decide)
  obtain ⟨filled, selling, launched⟩ := of_decide_eq_true passed
  exact ⟨s, reached, filled, selling, launched, (tickets_match sample s reached).1 50⟩

end Solonpad.Hub
