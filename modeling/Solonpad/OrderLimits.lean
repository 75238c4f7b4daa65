import Solonpad.HubFile
import Solonpad.HubFills
import Solonpad.HubSolvency
import Solonpad.VaultCustody

/-!
Whether a user's limits survive the trip to the vault. The hub counts native money in 18 decimals and
amounts in 256 bits, its message settlement in 6 decimals and amounts in 128 bits; the vault enforces what
the message says. The cast and the division are unchecked, so only some orders arrive as they were placed.
-/

namespace Solonpad.Hub

open Checked Chain Messages Transition

/-! What arrives. -/

/-- The order's amount in the vault's own units. -/
def Order.ownAmount (o : Order) : Nat :=
  match o.kind with
  | .buy => o.amountIn / scale
  | .sell => o.amountIn

/-- The order fits its message. -/
def Carried (o : Order) : Prop :=
  o.ownAmount < 2 ^ 128 ∧
    match o.kind with
    | .buy => o.minOut < 2 ^ 128
    | .sell => o.minOut / scale < 2 ^ 128 ∧ scale ∣ o.minOut

/-- The vault's answer keeps what the order asked: its amount, booked once, and its limit. -/
structure Honours (o : Order) (m : Messages.Order) (v : Vault.State) (e : Vault.Executed) : Prop where
  bought : e.outcome = .bought → o.minOut ≤ e.amountOut ∧
    ∃ spent, spent * scale = o.amountIn ∧
      v.funding m.ref + e.state.advanced m.ref = e.state.funding m.ref + v.advanced m.ref + spent
  sold : e.outcome = .sold → o.minOut ≤ e.amountOut * scale ∧
    v.entitledOf m.underlying = e.state.entitledOf m.underlying + o.amountIn

/-- However the vault executes a message, as long as it never holds 2 ^ 128 units of a token. -/
def Survives (o : Order) (m : Messages.Order) : Prop :=
  ∀ vc v fill e, Vault.execute vc v m fill = .ok e → (∀ token, e.state.balanceOf token < 2 ^ 128) →
    Honours o m v e

theorem message_amount (id : Nat) (o : Order) : (orderMessage id o).amountIn = o.ownAmount % 2 ^ 128 := rfl

variable {o : Order} {id shares out minOut : Nat} {m : Messages.Order} {env : Env} {underlying : Address}

theorem message_buy (id : Nat) (buy : o.kind = .buy) :
    (orderMessage id o).side = .buy ∧ (orderMessage id o).minOut = o.minOut % 2 ^ 128 ∧
      o.ownAmount = o.amountIn / scale := by
  simp only [orderMessage, Order.ownAmount, buy, toUint128, and_self]

theorem message_sell (id : Nat) (sell : o.kind = .sell) :
    (orderMessage id o).side = .sell ∧ (orderMessage id o).minOut = o.minOut / scale % 2 ^ 128 ∧
      o.ownAmount = o.amountIn := by
  simp only [orderMessage, Order.ownAmount, sell, toUint128, and_self]

/-! An order that fits is honoured. -/

theorem Carried.amount (carried : Carried o) (id : Nat) : (orderMessage id o).amountIn = o.ownAmount := by
  rw [message_amount, Nat.mod_eq_of_lt carried.1]

theorem bought_honours {own : Nat} {vc : Vault.Config} {v : Vault.State} {fill : Vault.Fill}
    (carried : Carried o) (buy : o.kind = .buy) (whole : scale ∣ o.amountIn)
    (covered : own ≤ v.funding (.order id)) (part : own ≤ (orderMessage id o).amountIn)
    (floor : (orderMessage id o).minOut ≤ shares) (narrow : shares < 2 ^ 128) :
    Honours o (orderMessage id o) v
      ⟨v.bought vc (orderMessage id o) own fill shares, .bought, toUint128 shares, ""⟩ := by
  obtain ⟨_, least, units⟩ := message_buy id buy
  have limit : o.minOut < 2 ^ 128 := by
    have fits := carried.2
    simpa only [buy] using fits
  refine ⟨fun _ => ⟨?_, (orderMessage id o).amountIn, ?_, ?_⟩, fun sold => by cases sold⟩
  · rw [least, Nat.mod_eq_of_lt limit] at floor
    rw [toUint128, Nat.mod_eq_of_lt narrow]
    exact floor
  · rw [carried.amount, units, Nat.div_mul_cancel whole]
  · have ref : (orderMessage id o).ref = .order id := rfl
    simp only [Vault.State.bought, ref, Function.update_self]
    omega

theorem sold_honours {vc : Vault.Config} {v : Vault.State} {fill : Vault.Fill} (carried : Carried o)
    (sell : o.kind = .sell) (covered : (orderMessage id o).amountIn ≤ v.entitledOf (orderMessage id o).underlying)
    (floor : (orderMessage id o).minOut ≤ out) (narrow : out < 2 ^ 128) :
    Honours o (orderMessage id o) v ⟨v.sold vc (orderMessage id o) fill out, .sold, toUint128 out, ""⟩ := by
  obtain ⟨_, least, units⟩ := message_sell id sell
  have limit : o.minOut / scale < 2 ^ 128 ∧ scale ∣ o.minOut := by
    have fits := carried.2
    simpa only [sell] using fits
  refine ⟨fun bought => (by cases bought), fun _ => ⟨?_, ?_⟩⟩
  · rw [least, Nat.mod_eq_of_lt limit.1] at floor
    rw [toUint128, Nat.mod_eq_of_lt narrow]
    calc o.minOut = o.minOut / scale * scale := (Nat.div_mul_cancel limit.2).symm
      _ ≤ out * scale := Nat.mul_le_mul_right scale floor
  · rw [carried.amount, units] at covered
    simp only [Vault.State.sold, Function.update_self, carried.amount, units]
    omega

theorem carried_survives (carried : Carried o) (whole : o.kind = .buy → scale ∣ o.amountIn) :
    Survives o (orderMessage id o) := by
  intro vc v fill e ran narrow
  cases Vault.execute_ok vc v (orderMessage id o) fill e ran with
  | failed reason => exact ⟨fun bought => (by cases bought), fun sold => (by cases sold)⟩
  | bought own taken shares _ buy _ covered part _ _ traded =>
    have held := Nat.lt_of_le_of_lt traded.landed (narrow (orderMessage id o).underlying)
    cases kind : o.kind with
    | buy => exact bought_honours carried kind (whole kind) covered part traded.floor (by omega)
    | sell => rw [(message_sell id kind).1] at buy; cases buy
  | sold taken out _ sell _ covered traded =>
    have held := Nat.lt_of_le_of_lt traded.landed (narrow vc.settlement)
    cases kind : o.kind with
    | buy => rw [(message_buy id kind).1] at sell; cases sell
    | sell => exact sold_honours carried kind covered traded.floor (by omega)

/-! An order that does not fit fails at some vault. -/

/-- A vault that lists everything and has as much for every order, and takes what the venue brings. -/
def ready (amount : Nat) : Vault.State :=
  { Vault.deployed 0 0 with
    listings := fun _ => ⟨1, true⟩, funding := fun _ => amount, fundingTotal := amount
    entitledOf := fun _ => amount }

def plain : Vault.Config := ⟨0, 0, 0, 0, 0, 0⟩

/-- A venue that pulls nothing and brings what it reports. -/
theorem trade_fills (v : Vault.State) (paid bought : Address) {amountIn : Nat} (floor : minOut ≤ out) :
    Vault.trade v paid bought amountIn minOut (some ⟨0, out, out⟩) =
      .ok (v.traded paid bought ⟨0, out, out⟩, out) := by
  have unpulled : Function.update v.balanceOf paid (v.balanceOf paid - 0) = v.balanceOf := by
    rw [Nat.sub_zero, Function.update_eq_self]
  simp only [Vault.trade, bind_ok, require_ok, sub_ok, pure_ok, unpulled, Function.update_self]
  refine ⟨(), ⟨Nat.zero_le _, Nat.zero_le _⟩, out, ⟨by omega, by omega⟩, (), ?_, ?_⟩
  · rw [ite_self]
    omega
  · simp only [Vault.State.traded, Vault.tradedBalance, unpulled, ite_self]

theorem ready_buys (buy : m.side = .buy) (positive : m.amountIn ≠ 0) (least : m.minOut ≤ 2 ^ 128 - 1) :
    Vault.execute plain (ready m.amountIn) m
      (some ⟨0, 2 ^ 128 - 1, 2 ^ 128 - 1⟩) = .ok ⟨(ready m.amountIn).bought plain m m.amountIn
        ⟨0, 2 ^ 128 - 1, 2 ^ 128 - 1⟩ (2 ^ 128 - 1), .bought, 2 ^ 128 - 1, ""⟩ := by
  have listed : (ready m.amountIn).listed m.underlying := Nat.one_ne_zero
  have own : (if (ready m.amountIn).funding m.ref < m.amountIn then (ready m.amountIn).funding m.ref
      else m.amountIn) = m.amountIn := if_neg (Nat.lt_irrefl _)
  have running : (ready m.amountIn).paused = false := rfl
  have enabled : ((ready m.amountIn).listings m.underlying).enabled = true := rfl
  simp only [Vault.execute, buy, if_neg (not_not.mpr listed), if_neg positive, Vault.executeBuy, own, running,
    enabled, Bool.false_eq_true, Bool.true_eq_false, if_false, Nat.sub_self, Nat.lt_irrefl, false_and,
    Vault.venueBuy, trade_fills _ _ _ least, bind_ok, sub_ok, pure_ok]
  have answered : toUint128 (2 ^ 128 - 1) = 2 ^ 128 - 1 := by decide
  have spent : (ready m.amountIn).fundingTotal - m.amountIn = 0 := Nat.sub_self _
  refine ⟨0, ⟨Nat.le_refl _, spent.symm⟩, ?_⟩
  simp only [Vault.State.bought, Vault.State.traded, Nat.sub_self, answered, spent, running]

theorem ready_sells (sell : m.side = .sell) (positive : m.amountIn ≠ 0) (least : m.minOut < 2 ^ 128) :
    Vault.execute plain (ready m.amountIn) m
      (some ⟨0, m.minOut, m.minOut⟩) = .ok ⟨(ready m.amountIn).sold plain m ⟨0, m.minOut, m.minOut⟩ m.minOut,
        .sold, m.minOut, ""⟩ := by
  have listed : (ready m.amountIn).listed m.underlying := Nat.one_ne_zero
  have covered : ¬ (ready m.amountIn).entitledOf m.underlying < m.amountIn := Nat.lt_irrefl _
  simp only [Vault.execute, sell, if_neg (not_not.mpr listed), if_neg positive, Vault.executeSell,
    if_neg covered, Vault.venueSell, trade_fills _ _ _ (Nat.le_refl m.minOut), pure_ok, toUint128,
    Nat.mod_eq_of_lt least]
  rfl

theorem traded_narrow (paid bought token : Address) (narrow : out < 2 ^ 128) :
    Vault.tradedBalance (fun _ => 0) paid bought ⟨0, out, out⟩ token < 2 ^ 128 := by
  have unpulled : Function.update (fun _ : Address => 0) paid 0 = fun _ => 0 := Function.update_eq_self ..
  simp only [Vault.tradedBalance, Nat.zero_sub, unpulled, Nat.zero_add]
  by_cases same : token = bought
  · rw [same, Function.update_self]
    exact narrow
  · rw [Function.update_of_ne same]
    decide

/-- What a vault that is ready tells of an order. -/
theorem survives_fits (survives : Survives o (orderMessage id o))
    (positive : (orderMessage id o).amountIn ≠ 0) : Carried o := by
  have positively : 0 < scale := by decide
  cases kind : o.kind with
  | buy =>
    obtain ⟨side, least, units⟩ := message_buy id kind
    have floor : (orderMessage id o).minOut ≤ 2 ^ 128 - 1 := by
      rw [least]
      omega
    have honoured := survives plain _ _ _ (ready_buys side positive floor)
      fun token => traded_narrow _ _ token (by decide)
    obtain ⟨limit, spent, whole, booked⟩ := honoured.bought rfl
    -- all that was set aside for the order is booked, so the message asks for the order's amount
    have all : spent = (orderMessage id o).amountIn := by
      simp only [Vault.State.bought, ready, Function.update_self] at booked
      omega
    have own : o.ownAmount = (orderMessage id o).amountIn := by
      rw [units, ← whole, Nat.mul_div_cancel _ positively, all]
    refine ⟨own ▸ Nat.mod_lt _ (by decide), ?_⟩
    simp only [kind]
    have narrow : 2 ^ 128 - 1 < 2 ^ 128 := by decide
    exact Nat.lt_of_le_of_lt limit narrow
  | sell =>
    obtain ⟨side, least, units⟩ := message_sell id kind
    have floor : (orderMessage id o).minOut < 2 ^ 128 := by
      rw [least]
      omega
    have honoured := survives plain _ _ _ (ready_sells side positive floor)
      fun token => traded_narrow _ _ token floor
    obtain ⟨limit, booked⟩ := honoured.sold rfl
    have own : o.ownAmount = (orderMessage id o).amountIn := by
      simp only [Vault.State.sold, ready, Function.update_self] at booked
      omega
    have below : o.minOut / scale * scale ≤ o.minOut := Nat.div_mul_le_self _ _
    have reached : o.minOut ≤ o.minOut / scale % 2 ^ 128 * scale := least ▸ limit
    have least : o.minOut / scale % 2 ^ 128 ≤ o.minOut / scale := Nat.mod_le _ _
    have same : o.minOut / scale % 2 ^ 128 = o.minOut / scale := by
      apply Nat.le_antisymm least
      exact Nat.le_of_mul_le_mul_right (below.trans reached) positively
    refine ⟨own ▸ Nat.mod_lt _ (by decide), ?_⟩
    simp only [kind]
    refine ⟨same ▸ Nat.mod_lt _ (by decide), ⟨o.minOut / scale, ?_⟩⟩
    rw [same] at reached
    rw [Nat.mul_comm]
    exact Nat.le_antisymm reached below

/-- The vault answers a message without an amount with a failure. -/
theorem void_survives (o : Order) (zero : m.amountIn = 0) : Survives o m := by
  intro vc v fill e ran _
  cases Vault.execute_ok vc v m fill e ran with
  | failed reason => exact ⟨fun bought => (by cases bought), fun sold => (by cases sold)⟩
  | bought _ _ _ _ _ positive => exact absurd zero positive
  | sold _ _ _ _ positive => exact absurd zero positive

/-- An order that asks for anything survives exactly when it fits its message. -/
theorem survives_iff (whole : o.kind = .buy → scale ∣ o.amountIn) :
    Survives o (orderMessage id o) ↔ ((orderMessage id o).amountIn ≠ 0 → Carried o) := by
  constructor
  · exact survives_fits
  · intro fits
    by_cases zero : (orderMessage id o).amountIn = 0
    · exact void_survives o zero
    · exact carried_survives (fits zero) whole

/-! Every run. -/

variable {c : Config} {s after : State}

/-- A buy's principal is a whole amount on the reserve chain. -/
def Order.Whole (o : Order) : Prop := o.kind = .buy → scale ∣ o.amountIn

theorem placeBuy_whole {user : Address} {usdcIn minShares extra lane fee : Nat} {placed : Placed}
    (done : placeBuy s env user underlying usdcIn minShares extra lane fee = .ok placed) :
    (placed.state.orders s.orderCount).Whole := by
  simp only [placeBuy, bind_ok, pure_ok] at done
  obtain ⟨whole, _, rfl⟩ := done
  intro _
  simp only [State.escrow, State.set, place, Function.update_self]
  exact Nat.dvd_sub_mod whole.1

theorem beginReward_whole {key : CapKey} {receiver : Address} {budget minRaw path : Nat}
    (done : beginReward s env key underlying budget minRaw receiver path = .ok after) :
    (after.orders s.orderCount).Whole := by
  simp only [beginReward, bind_ok, require_ok, sub_ok, pure_ok] at done
  obtain ⟨_, _, _, _, _, _, placed, bought, rfl⟩ := done
  intro buy
  simp only [State.set, Function.update_self] at buy ⊢
  exact placeBuy_whole bought buy

theorem requestSell_kind (done : requestSell c s env underlying shares minOut = .ok after) :
    (after.orders s.orderCount).kind = .sell := by
  simp only [requestSell, bind_ok, require_ok, ite_ok, pure_ok, onArc_ok, onCapacity_ok] at done
  obtain ⟨_, _, _, _, _, ⟨_, _, rfl⟩, _, ⟨_, _, rfl⟩, ⟨_, sent⟩ | ⟨_, rfl⟩⟩ := done
  · obtain ⟨balance, at_, rfl, _⟩ := dispatchOrder_ok _ _ _ _ _ _ _ sent
    simp only [State.set, State.deposit, place, Function.update_self, Order.told]
  · simp only [State.set, State.deposit, place, Function.update_self]

theorem canonicalRedeem_kind {recipient : Address} {mode : DeliverMode}
    (done : Exits.canonicalRedeem c s env underlying shares recipient mode = .ok after) :
    (after.orders s.orderCount).kind = .sell := by
  simp only [Exits.canonicalRedeem, bind_ok, require_ok, sub_ok, ite_ok, pure_ok, onArc_ok, onCapacity_ok,
    removeOpen_ok] at done
  obtain ⟨_, _, _, _, _, ⟨_, _, rfl⟩, taxed, charged, _, _, _, _, _, ⟨_, _, rfl⟩, _, ⟨opened, _, rfl⟩, sent⟩ :=
    done
  rw [sendDeliver_orders sent]
  rcases charged with ⟨_, _, _, rfl⟩ | ⟨_, rfl⟩
  all_goals simp only [State.set, place, Function.update_self]

theorem step_placed_whole {call : Call} (asks : call.action.asks = some minOut)
    (taken : step c s call = .ok after) : (after.orders s.orderCount).Whole := by
  obtain ⟨env, action⟩ := call
  cases action with
  | requestBuy underlying usdcIn minSharesOut =>
    simp only [step, requestBuy, bind_ok, require_ok, pure_ok] at taken
    obtain ⟨_, _, _, _, _, _, _, _, placed, bought, _, _, rfl⟩ := taken
    have whole := placeBuy_whole bought
    exact whole
  | requestSell underlying sharesIn minUsdcOut =>
    intro buy
    rw [requestSell_kind taken] at buy
    cases buy
  | beginFunding orderId underlying budget18 minRawOut receiver path =>
    simp only [step, beginFunding, live, listed, bind_ok, require_ok] at taken
    obtain ⟨_, _, _, _, _, _, done⟩ := taken
    have whole := beginReward_whole done
    exact whole
  | canonicalRedeem underlying sharesIn recipient mode =>
    intro buy
    simp only [step, canonicalRedeem, bind_ok] at taken
    obtain ⟨_, _, done⟩ := taken
    have sell := canonicalRedeem_kind done
    exact absurd (sell.symm.trans buy) (by decide)
  | _ => cases asks

/-- Each message is its order's, as the order was placed. -/
structure Packed (s : State) : Prop where
  whole : ∀ id, (s.orders id).Whole
  told : ∀ m ∈ s.packets, ∃ id, id < s.orderCount ∧ Tells id (s.orders id) m

theorem deployed_packed : Packed (deployed c) where
  whole := fun _ _ => Nat.dvd_zero scale
  told := fun _ member => absurd member List.not_mem_nil

theorem Tells.ref (tells : Tells id o m) : m.ref = .order id := by
  rcases tells with rfl | rfl <;> rfl

/-- A message is read off what the order keeps. -/
theorem Tells.kept {next : Order} (tells : Tells id o m) (deal : next.deal = o.deal)
    (limit : next.minOut = o.minOut) : Tells id next m := by
  obtain ⟨_, underlying, kind, amountIn, _⟩ := deal_spec deal
  have same : orderMessage id next = orderMessage id o := by
    simp only [orderMessage, underlying, kind, amountIn, limit]
  rcases tells with rfl | rfl
  · exact .inl same.symm
  · exact .inr (by rw [same])

theorem step_packed {call : Call} (regular : Regular s) (packed : Packed s) (taken : step c s call = .ok after) :
    Packed after := by
  have moves := step_moves s after call regular taken
  have regularly := moves.regular regular
  have adds := step_adds taken
  have goes : ∀ {id}, id < s.orderCount → (s.orders id).Goes (after.orders id) := moves.goes regular
  constructor
  · intro id
    rcases Nat.lt_trichotomy id s.orderCount with known | rfl | later
    · obtain ⟨_, _, kind, amountIn, _⟩ := deal_spec (goes known).deal
      intro buy
      rw [amountIn]
      exact packed.whole id (kind ▸ buy)
    · rcases adds.orders with same | ⟨minOut, asks, _⟩
      · rw [regularly.fresh _ (Nat.le_of_eq same)]
        exact fun _ => Nat.dvd_zero scale
      · exact step_placed_whole asks taken
    · have fresh : after.orderCount ≤ id := by
        rcases adds.orders with same | ⟨_, _, more⟩ <;> omega
      rw [regularly.fresh id fresh]
      exact fun _ => Nat.dvd_zero scale
  · intro m member
    obtain ⟨sent, telling, packets⟩ := adds.packets
    rw [packets, List.mem_append] at member
    rcases member with earlier | new
    · obtain ⟨id, known, tells⟩ := packed.told m earlier
      exact ⟨id, Nat.lt_of_lt_of_le known moves.grows, tells.kept (goes known).deal (adds.limits id known)⟩
    · obtain ⟨id, tells⟩ := telling m new
      have handed : after.isSent id := .inl ⟨m, packets ▸ List.mem_append_right _ new, tells.ref⟩
      exact ⟨id, (regularly.sent id handed).1, tells⟩

theorem reachable_packed (reached : Reachable (accepts c) (deployed c) s) : Packed s :=
  reached.invariant_under (fun _ => reachable_regular) deployed_packed
    fun _ _ _ regular packed taken => step_packed regular packed taken

/-- The stock that a result brings is minted to who it was bought for. -/
def Mints (c : Config) (s : State) (id shares : Nat) (after : State) : Prop :=
  ∃ token, (s.arc (s.orders id).underlying).mint (if (s.orders id).lane = 1 then c.self else (s.orders id).user)
    shares = .ok token ∧ after.arc = Function.update s.arc (s.orders id).underlying token

theorem lzReceive_mints {srcEid : Nat} {r : Result} (ref : r.ref = .order id) (outcome : r.outcome = .bought)
    (buy : (s.orders id).kind = .buy) (waits : unanswered (s.orders id))
    (done : lzReceive c s env srcEid r = .ok after) : Mints c s id r.amountOut after := by
  obtain ⟨own, changed, named, _, settled⟩ := lzReceive_applies done
  cases ref.symm.trans named
  rw [settle, outcome] at settled
  exact (settleBought_fills buy waits settled).minted

/-- What an order asks for stays as its user placed it, what a result says is minted, and the order's message
keeps the limits exactly when they fit. -/
theorem limits_survive (c : Config) (s : State) (reached : Reachable (accepts c) (deployed c) s) :
    (∀ call after, accepts c s call after →
      (∀ minOut, call.action.asks = some minOut → (after.orders s.orderCount).minOut = minOut) ∧
      (∀ id, id < s.orderCount → (after.orders id).minOut = (s.orders id).minOut ∧
        (after.orders id).amountIn = (s.orders id).amountIn ∧ (after.orders id).kind = (s.orders id).kind) ∧
      ∀ srcEid r id, call.action = .lzReceive srcEid r → r.ref = .order id → r.outcome = .bought →
        (s.orders id).kind = .buy → unanswered (s.orders id) → Mints c s id r.amountOut after) ∧
    ∀ m ∈ s.packets, ∃ id, m.ref = .order id ∧ id < s.orderCount ∧
      (Survives (s.orders id) m ↔ (m.amountIn ≠ 0 → Carried (s.orders id))) := by
  have regular := reachable_regular reached
  have packed := reachable_packed reached
  constructor
  · intro call after taken
    refine ⟨fun minOut asks => step_asked asks taken, ?_, ?_⟩
    · intro id known
      obtain ⟨_, _, kind, amountIn, _⟩ := deal_spec ((step_moves s after call regular taken).goes regular known).deal
      exact ⟨(step_adds taken).limits id known, amountIn, kind⟩
    · intro srcEid r id action ref outcome buy waits
      have received : lzReceive c s call.env srcEid r = .ok after := by
        simpa only [accepts, step, action] using taken
      exact lzReceive_mints ref outcome buy waits received
  · intro m member
    obtain ⟨id, known, tells⟩ := packed.told m member
    refine ⟨id, tells.ref, known, ?_⟩
    rcases tells with rfl | rfl
    · exact survives_iff (packed.whole id)
    · have void : Survives (s.orders id) { orderMessage id (s.orders id) with amountIn := 0 } := void_survives _ rfl
      exact iff_of_true void fun asked => absurd rfl asked

/-- Stock 50 is listed, and a buy of it is launched that asks for `minOut` shares. -/
def launchedOnce (minOut : Nat) : List Call :=
  [by' 2 0 (.listStock 50 30 (10 ^ 20) 60 1),
    by' 12 (32 * 10 ^ 18) (.requestBuy 50 (30 * 10 ^ 18) minOut),
    by' 3 0 (.launch 0 0 0)]

theorem limits_survive_launched : ∃ s m, Reachable (accepts sample) (deployed sample) s ∧ m ∈ s.packets ∧
    m.ref = .order 0 ∧ Carried (s.orders 0) ∧ Survives (s.orders 0) m := by
  obtain ⟨s, reached, passed⟩ := run_passes (step sample) (fun _ _ => True) (launchedOnce (10 ^ 18))
    (deployed sample) (fun s => decide (s.packets = [⟨.order 0, 50, .buy, 29700000, 10 ^ 18⟩] ∧
      (s.orders 0).kind = .buy ∧ (s.orders 0).amountIn = 29700000 * scale ∧ (s.orders 0).minOut = 10 ^ 18))
    (by decide)
  obtain ⟨packets, kind, amountIn, minOut⟩ := of_decide_eq_true passed
  have member : (⟨.order 0, 50, .buy, 29700000, 10 ^ 18⟩ : Messages.Order) ∈ s.packets :=
    packets ▸ List.mem_singleton_self _
  have carried : Carried (s.orders 0) := by
    simp only [Carried, Order.ownAmount, kind, amountIn, minOut]
    decide
  obtain ⟨id, named, _, survives⟩ := (limits_survive sample s reached.unrestricted).2 _ member
  cases named
  exact ⟨s, _, reached.unrestricted, member, rfl, carried, survives.mpr fun _ => carried⟩

/-- The buy asks for 2 ^ 128 + 1 shares; its message asks for one, and a vault that lists and funds it
buys just that. -/
theorem limit_lost : ∃ s v m done, Reachable (accepts sample) (deployed sample) s ∧
    Reachable (Vault.accepts Vault.sample) (Vault.deployed 1 2) v ∧ m ∈ s.packets ∧ m.ref = .order 0 ∧
    Vault.execute Vault.sample v m (some ⟨29700000, 1, 1⟩) = .ok done ∧ done.outcome = .bought ∧
    done.amountOut < (s.orders 0).minOut := by
  obtain ⟨s, reached, passed⟩ := run_passes (step sample) (fun _ _ => True) (launchedOnce (2 ^ 128 + 1))
    (deployed sample) (fun s => decide (s.packets = [⟨.order 0, 50, .buy, 29700000, 1⟩] ∧
      (s.orders 0).minOut = 2 ^ 128 + 1)) (by decide)
  obtain ⟨packets, minOut⟩ := of_decide_eq_true passed
  obtain ⟨v, vault, executed⟩ := run_passes (Vault.step Vault.sample) (fun _ _ => True)
    [⟨1, 0, .listStock 50 true⟩, ⟨9, 0, .fund (.order 0) 29700000 29700000⟩] (Vault.deployed 1 2)
    (fun v => (Vault.execute Vault.sample v ⟨.order 0, 50, .buy, 29700000, 1⟩ (some ⟨29700000, 1, 1⟩)).toOption.any
      fun done : Vault.Executed => decide (done.outcome = .bought ∧ done.amountOut = 1)) (by decide)
  cases ran : Vault.execute Vault.sample v ⟨.order 0, 50, .buy, 29700000, 1⟩ (some ⟨29700000, 1, 1⟩) with
  | error error => simp [ran, Except.toOption] at executed
  | ok done =>
    simp only [ran, Except.toOption, Option.any_some, decide_eq_true_eq] at executed
    refine ⟨s, v, _, done, reached.unrestricted, vault.unrestricted, packets ▸ List.mem_singleton_self _, rfl, ran,
      executed.1, ?_⟩
    rw [executed.2, minOut]
    decide

end Solonpad.Hub
