import Solonpad.InstantDesk
import Mathlib.Algebra.BigOperators.Group.List.Basic
import Mathlib.Algebra.Order.Ring.Nat
import Mathlib.Tactic.Ring

/-!
What the desk quotes and what it does. A trade and its quote are read as the same conditions, so a quote is exact but
for one case: shares worth less than one unit, sold in an hour whose flow the owner has since capped below what was
sold. The hour's total is the flow's counter along a run whose times do not fall back.
-/

namespace Solonpad.InstantDesk

open Checked Histories
open Chain (Address)

/-- The stock trades at this price. -/
structure Trading (s : State) (env : Env) (stock : Address) (price : Nat) : Prop where
  listed : (s.terms stock).underlying ≠ 0
  enabled : (s.terms stock).enabled = true
  transferable : env.transferable stock = true
  priced : env.execPrice stock = some price
  running : s.paused = false

/-- What the hour has used of its flow. -/
def usedNow (s : State) (env : Env) (stock : Address) (buySide : Bool) : Nat :=
  ((s.flow stock).at_ (hourOf env.now)).used buySide

structure Buys (s : State) (env : Env) (stock : Address) (value price : Nat) : Prop where
  trading : Trading s env stock price
  positive : value ≠ 0
  within : value ≤ (s.terms stock).maxTradeUsd
  flow : usedNow s env stock true + value ≤ (s.terms stock).flowCapUsd
  stocked : sharesFor value price (s.terms stock).spreadBps ≤ s.shares stock

/-- The conditions of a sale but for the hour's flow. -/
structure Offers (s : State) (env : Env) (stock : Address) (sharesIn price : Nat) : Prop where
  trading : Trading s env stock price
  positive : sharesIn ≠ 0
  within : grossFor sharesIn price ≤ (s.terms stock).maxTradeUsd
  funded : payoutFor (grossFor sharesIn price) (s.terms stock).sellSpreadBps ≤ s.usdc

variable {c : Config} {s after : State} {env : Env} {stock to_ : Address}
  {price value sharesIn out least usd : Nat} {buySide : Bool} {spread hour : Nat} {own : Address}

theorem answered_ok {α : Type} {answer : Option α} {error : DeskError} {result : α} :
    answered answer error = .ok result ↔ answer = some result := by
  cases answer <;> simp [answered]

theorem live_ok {t : Terms} : live s env stock = .ok (t, price) ↔
    t = s.terms stock ∧ (s.terms stock).underlying ≠ 0 ∧ (s.terms stock).enabled = true ∧
      env.transferable stock = true ∧ env.execPrice stock = some price := by
  simp only [live, listed, bind_ok, require_ok, pure_ok, answered_ok, Prod.mk.injEq]
  constructor
  · rintro ⟨_, ⟨_, listed, rfl⟩, _, ⟨enabled, transferable⟩, _, priced, rfl, rfl⟩
    exact ⟨rfl, listed, enabled, transferable, priced⟩
  · rintro ⟨rfl, listed, enabled, transferable, priced⟩
    exact ⟨_, ⟨(), listed, rfl⟩, (), ⟨enabled, transferable⟩, _, priced, rfl, rfl⟩

theorem useFlow_ok {t : Terms} {f : Flow} : useFlow s env stock t usd buySide = .ok f ↔
    usedNow s env stock buySide + usd ≤ t.flowCapUsd ∧
      f = ((s.flow stock).at_ (hourOf env.now)).use buySide (usedNow s env stock buySide + usd) := by
  simp only [useFlow, bind_ok, require_ok, pure_ok]
  constructor
  · rintro ⟨_, fits, rfl⟩
    exact ⟨fits, rfl⟩
  · rintro ⟨fits, rfl⟩
    exact ⟨(), fits, rfl⟩

theorem buy_ok : buy c s env stock value least to_ = .ok (out, after) ↔
    ∃ price, Buys s env stock value price ∧ out = sharesFor value price (s.terms stock).spreadBps ∧
      least ≤ out ∧ env.delivers = true ∧
      after = { s.setFlow stock (((s.flow stock).at_ (hourOf env.now)).use true (usedNow s env stock true + value))
        with usdc := s.usdc + value }.payShares c stock (recipient env to_) out := by
  simp only [buy, bind_ok, require_ok, pure_ok, Prod.exists, live_ok, useFlow_ok, Prod.mk.injEq]
  constructor
  · rintro ⟨_, running, _, positive, _, price, ⟨rfl, listed, enabled, transferable, priced⟩, _, within, _,
      ⟨flow, rfl⟩, _, stocked, _, enough, _, delivers, rfl, rfl⟩
    exact ⟨price, ⟨⟨listed, enabled, transferable, priced, running⟩, positive, within, flow, stocked⟩, rfl, enough,
      delivers, rfl⟩
  · rintro ⟨price, ⟨⟨listed, enabled, transferable, priced, running⟩, positive, within, flow, stocked⟩, rfl, enough,
      delivers, rfl⟩
    exact ⟨(), running, (), positive, _, price, ⟨rfl, listed, enabled, transferable, priced⟩, (), within, _,
      ⟨flow, rfl⟩, (), stocked, (), enough, (), delivers, rfl, rfl⟩

theorem sell_ok : sell c s env stock sharesIn least to_ = .ok (out, after) ↔
    ∃ price, Offers s env stock sharesIn price ∧
      usedNow s env stock false + grossFor sharesIn price ≤ (s.terms stock).flowCapUsd ∧
      out = payoutFor (grossFor sharesIn price) (s.terms stock).sellSpreadBps ∧
      least ≤ out ∧ env.pulls = true ∧ env.delivers = true ∧
      after = ((s.setFlow stock (((s.flow stock).at_ (hourOf env.now)).use false
        (usedNow s env stock false + grossFor sharesIn price))).setShares stock
          (s.shares stock + sharesIn)).payUsdc c (recipient env to_) out := by
  simp only [sell, bind_ok, require_ok, pure_ok, Prod.exists, live_ok, useFlow_ok, Prod.mk.injEq]
  constructor
  · rintro ⟨_, running, _, positive, _, price, ⟨rfl, listed, enabled, transferable, priced⟩, _, within, _,
      ⟨flow, rfl⟩, _, funded, _, enough, _, pulls, _, delivers, rfl, rfl⟩
    exact ⟨price, ⟨⟨listed, enabled, transferable, priced, running⟩, positive, within, funded⟩, flow, rfl, enough,
      pulls, delivers, rfl⟩
  · rintro ⟨price, ⟨⟨listed, enabled, transferable, priced, running⟩, positive, within, funded⟩, flow, rfl, enough,
      pulls, delivers, rfl⟩
    exact ⟨(), running, (), positive, _, price, ⟨rfl, listed, enabled, transferable, priced⟩, (), within, _,
      ⟨flow, rfl⟩, (), funded, (), enough, (), pulls, (), delivers, rfl, rfl⟩

/-! The quotes. -/

theorem flowLeft_eq {t : Terms} : flowLeft s env stock t buySide = t.flowCapUsd - usedNow s env stock buySide := by
  unfold flowLeft usedNow Flow.at_
  dsimp only
  by_cases same : (s.flow stock).hour = hourOf env.now
  · rw [if_pos same, if_neg (not_not.mpr same)]
    split
    · omega
    · rfl
  · rw [if_neg same, if_pos same]
    have fresh : (⟨hourOf env.now, 0, 0⟩ : Flow).used buySide = 0 := by cases buySide <;> rfl
    rw [fresh]
    split
    · omega
    · rfl

/-- A positive amount is within the flow left exactly when it can be used. -/
theorem flowLeft_iff {t : Terms} (positive : usd ≠ 0) :
    usd ≤ flowLeft s env stock t buySide ↔ usedNow s env stock buySide + usd ≤ t.flowCapUsd := by
  rw [flowLeft_eq]
  omega

/-- What `peek` shows of a stock that has a price. -/
theorem peek_priced (listed : (s.terms stock).underlying ≠ 0) (priced : env.execPrice stock = some price) :
    peek s env stock = (s.terms stock, price, (s.terms stock).enabled && env.transferable stock) := by
  simp only [peek, if_neg listed, priced]

theorem peek_unpriced (missing : ¬ ((s.terms stock).underlying ≠ 0 ∧ ∃ price, env.execPrice stock = some price)) :
    peek s env stock = (s.terms stock, 0, false) := by
  unfold peek
  by_cases listed : (s.terms stock).underlying = 0
  · rw [if_pos listed]
  · rw [if_neg listed]
    cases priced : env.execPrice stock with
    | none => rfl
    | some price => exact absurd ⟨listed, price, priced⟩ missing

theorem quoteBuy_ok : quoteBuy s env stock value = (out, true) ↔
    ∃ price, Buys s env stock value price ∧ out = sharesFor value price (s.terms stock).spreadBps := by
  by_cases known : (s.terms stock).underlying ≠ 0 ∧ ∃ price, env.execPrice stock = some price
  · obtain ⟨listed, price, priced⟩ := known
    have some_ := (env.positive stock price priced).ne'
    simp only [quoteBuy, peek_priced listed priced, if_neg some_, Prod.mk.injEq, decide_eq_true_iff,
      Bool.and_eq_true]
    constructor
    · rintro ⟨rfl, ⟨enabled, transferable⟩, running, positive, within, flow, stocked⟩
      have positive' := positive.ne'
      exact ⟨price, ⟨⟨listed, enabled, transferable, priced, running⟩, positive', within,
        (flowLeft_iff positive').mp flow, stocked⟩, rfl⟩
    · rintro ⟨other, ⟨⟨_, enabled, transferable, again, running⟩, positive, within, flow, stocked⟩, rfl⟩
      cases priced.symm.trans again
      exact ⟨rfl, ⟨enabled, transferable⟩, running, Nat.pos_of_ne_zero positive, within,
        (flowLeft_iff positive).mpr flow, stocked⟩
  · simp only [quoteBuy, peek_unpriced known]
    constructor
    · intro none_
      cases none_
    · rintro ⟨price, buys, _⟩
      exact absurd ⟨buys.trading.listed, price, buys.trading.priced⟩ known

theorem quoteSell_ok : quoteSell s env stock sharesIn = (out, true) ↔
    ∃ price, Offers s env stock sharesIn price ∧
      grossFor sharesIn price ≤ flowLeft s env stock (s.terms stock) false ∧
      out = payoutFor (grossFor sharesIn price) (s.terms stock).sellSpreadBps := by
  by_cases known : (s.terms stock).underlying ≠ 0 ∧ ∃ price, env.execPrice stock = some price
  · obtain ⟨listed, price, priced⟩ := known
    have some_ := (env.positive stock price priced).ne'
    simp only [quoteSell, peek_priced listed priced, if_neg some_, Prod.mk.injEq, decide_eq_true_iff,
      Bool.and_eq_true]
    constructor
    · rintro ⟨rfl, ⟨enabled, transferable⟩, running, positive, within, flow, funded⟩
      exact ⟨price, ⟨⟨listed, enabled, transferable, priced, running⟩, positive.ne', within, funded⟩, flow, rfl⟩
    · rintro ⟨other, ⟨⟨_, enabled, transferable, again, running⟩, positive, within, funded⟩, flow, rfl⟩
      cases priced.symm.trans again
      exact ⟨rfl, ⟨enabled, transferable⟩, running, Nat.pos_of_ne_zero positive, within, flow, funded⟩
  · simp only [quoteSell, peek_unpriced known]
    constructor
    · intro none_
      cases none_
    · rintro ⟨price, offers, _⟩
      exact absurd ⟨offers.trading.listed, price, offers.trading.priced⟩ known

/-- The quote is good exactly when the call succeeds, and then says what the call gives. -/
structure Exact (quote : Nat × Bool) (call : Tx (Nat × State)) : Prop where
  good : quote.2 = true ↔ ∃ out after, call = .ok (out, after)
  same : ∀ out after, call = .ok (out, after) → quote.1 = out

/-- Shares worth less than one unit, in an hour that sold more than its cap now allows. -/
def Overrun (s : State) (env : Env) (stock : Address) (sharesIn : Nat) : Prop :=
  sharesIn ≠ 0 ∧ (s.terms stock).flowCapUsd < usedNow s env stock false ∧
    ∃ price, Trading s env stock price ∧ sharesIn * price < 10 ^ 18

theorem quote_true {quote : Nat × Bool} : quote.2 = true ↔ ∃ out, quote = (out, true) := by
  obtain ⟨out, good⟩ := quote
  constructor
  · rintro rfl
    exact ⟨out, rfl⟩
  · rintro ⟨_, same⟩
    cases same
    rfl

theorem buy_exact (delivers : env.delivers = true) :
    Exact (quoteBuy s env stock value) (buy c s env stock value 0 to_) := by
  have forth : ∀ {out after}, buy c s env stock value 0 to_ = .ok (out, after) →
      quoteBuy s env stock value = (out, true) := by
    intro out after done
    obtain ⟨price, buys, given, _⟩ := buy_ok.mp done
    exact quoteBuy_ok.mpr ⟨price, buys, given⟩
  refine ⟨?_, fun out after done => by rw [forth done]⟩
  rw [quote_true]
  constructor
  · rintro ⟨out, quoted⟩
    obtain ⟨price, buys, given⟩ := quoteBuy_ok.mp quoted
    exact ⟨out, _, buy_ok.mpr ⟨price, buys, given, Nat.zero_le out, delivers, rfl⟩⟩
  · rintro ⟨out, after, done⟩
    exact ⟨out, forth done⟩

theorem gross_zero : grossFor sharesIn price = 0 ↔ sharesIn * price < 10 ^ 18 := by
  rw [grossFor, Nat.div_eq_zero_iff_lt (by decide)]

theorem payout_le {gross sellSpreadBps : Nat} : payoutFor gross sellSpreadBps ≤ gross := by
  unfold payoutFor
  apply Nat.div_le_of_le_mul
  rw [Nat.mul_comm bps]
  exact Nat.mul_le_mul_left gross (Nat.sub_le ..)

/-- The sell quote is exact but for worthless shares past a lowered cap. -/
theorem sell_exact (pulls : env.pulls = true) (delivers : env.delivers = true) :
    Exact (quoteSell s env stock sharesIn) (sell c s env stock sharesIn 0 to_) ↔
      ¬ Overrun s env stock sharesIn := by
  have forth : ∀ {out after}, sell c s env stock sharesIn 0 to_ = .ok (out, after) →
      quoteSell s env stock sharesIn = (out, true) := by
    intro out after done
    obtain ⟨price, offers, flow, given, _⟩ := sell_ok.mp done
    refine quoteSell_ok.mpr ⟨price, offers, ?_, given⟩
    rw [flowLeft_eq]
    omega
  constructor
  · rintro exact ⟨positive, lowered, price, trading, small⟩
    -- The quote sees no flow to use, the sale adds nothing to a counter that is over the cap.
    have worthless := gross_zero.mpr small
    have free : payoutFor (grossFor sharesIn price) (s.terms stock).sellSpreadBps ≤ 0 :=
      payout_le.trans_eq worthless
    have quoted : quoteSell s env stock sharesIn =
        (payoutFor (grossFor sharesIn price) (s.terms stock).sellSpreadBps, true) := by
      refine quoteSell_ok.mpr ⟨price, ⟨trading, positive, ?_, free.trans (Nat.zero_le _)⟩, ?_, rfl⟩
      · rw [worthless]
        exact Nat.zero_le _
      · rw [worthless]
        exact Nat.zero_le _
    obtain ⟨out, after, done⟩ := exact.good.mp (quote_true.mpr ⟨_, quoted⟩)
    obtain ⟨_, _, flow, _⟩ := sell_ok.mp done
    omega
  · intro calm
    refine ⟨?_, fun out after done => by rw [forth done]⟩
    rw [quote_true]
    constructor
    · rintro ⟨out, quoted⟩
      obtain ⟨price, offers, flow, given⟩ := quoteSell_ok.mp quoted
      have used : usedNow s env stock false + grossFor sharesIn price ≤ (s.terms stock).flowCapUsd := by
        by_cases worthless : grossFor sharesIn price = 0
        · rw [worthless, Nat.add_zero]
          by_contra lowered
          exact calm ⟨offers.positive, Nat.lt_of_not_le lowered, price, offers.trading, gross_zero.mp worthless⟩
        · exact (flowLeft_iff worthless).mp flow
      exact ⟨out, _, sell_ok.mpr ⟨price, offers, used, given, Nat.zero_le out, pulls, delivers, rfl⟩⟩
    · rintro ⟨out, after, done⟩
      exact ⟨out, forth done⟩

/-! Capacity. -/

theorem spread_room (within : spread ≤ maxSpreadBps) : 0 < bps - spread := by
  have bound : maxSpreadBps < bps := by decide
  omega

theorem capacity_open (room : (capacity s env stock).1 ≠ 0 ∨ (capacity s env stock).2 ≠ 0) :
    ∃ price, Trading s env stock price ∧ capacity s env stock =
      (min (min (s.shares stock * price / 10 ^ 18 * bps / (bps - (s.terms stock).spreadBps))
          (s.terms stock).maxTradeUsd) (flowLeft s env stock (s.terms stock) true),
        min (min (s.usdc * bps / (bps - (s.terms stock).sellSpreadBps)) (s.terms stock).maxTradeUsd)
          (flowLeft s env stock (s.terms stock) false)) := by
  by_cases known : (s.terms stock).underlying ≠ 0 ∧ ∃ price, env.execPrice stock = some price
  · obtain ⟨listed, price, priced⟩ := known
    simp only [capacity, peek_priced listed priced] at room ⊢
    by_cases closed : ((s.terms stock).enabled && env.transferable stock) = false ∨ s.paused = true ∨ price = 0
    · simp only [if_pos closed, ne_eq, not_true_eq_false, or_self] at room
    · obtain ⟨isLive, running, _⟩ : _ ∧ _ ∧ _ := by simpa only [not_or] using closed
      rw [Bool.not_eq_false, Bool.and_eq_true] at isLive
      refine ⟨price, ⟨listed, isLive.1, isLive.2, priced, Bool.eq_false_iff.mpr running⟩, ?_⟩
      rw [if_neg closed]
  · simp only [capacity, peek_unpriced known, true_or, if_true, ne_eq, not_true_eq_false, or_self] at room

/-- What a buyer gets for no more than the inventory is worth is in stock. -/
theorem sharesFor_stocked {have_ : Nat} (room : 0 < bps - spread)
    (within : value ≤ have_ * price / 10 ^ 18 * bps / (bps - spread)) : sharesFor value price spread ≤ have_ := by
  have scaled : value * (bps - spread) ≤ have_ * price / 10 ^ 18 * bps := (Nat.le_div_iff_mul_le room).mp within
  have worth : have_ * price / 10 ^ 18 * 10 ^ 18 ≤ have_ * price := Nat.div_mul_le_self ..
  unfold sharesFor
  apply Nat.div_le_of_le_mul
  calc value * (10 ^ 18 * (bps - spread)) = value * (bps - spread) * 10 ^ 18 := by ring
    _ ≤ have_ * price / 10 ^ 18 * bps * 10 ^ 18 := Nat.mul_le_mul_right _ scaled
    _ = have_ * price / 10 ^ 18 * 10 ^ 18 * bps := by ring
    _ ≤ have_ * price * bps := Nat.mul_le_mul_right _ worth
    _ = price * bps * have_ := by ring

theorem payoutFor_funded {gross have_ : Nat} (room : 0 < bps - spread)
    (within : gross ≤ have_ * bps / (bps - spread)) : payoutFor gross spread ≤ have_ := by
  have scaled := (Nat.le_div_iff_mul_le room).mp within
  unfold payoutFor
  apply Nat.div_le_of_le_mul
  rw [Nat.mul_comm bps]
  exact scaled

/-- Every positive amount up to the capacity is bought. -/
theorem capacity_buys (positive : value ≠ 0) (within : value ≤ (capacity s env stock).1) :
    (quoteBuy s env stock value).2 = true := by
  have room : (capacity s env stock).1 ≠ 0 := by omega
  obtain ⟨price, trading, same⟩ := capacity_open (.inl room)
  rw [same] at within
  obtain ⟨⟨worth, cap⟩, flow⟩ : (_ ∧ _) ∧ _ := by simpa only [le_min_iff] using within
  have stocked := sharesFor_stocked (spread_room (s.terms stock).spread_le) worth
  exact quote_true.mpr ⟨_, quoteBuy_ok.mpr
    ⟨price, ⟨trading, positive, cap, (flowLeft_iff positive).mp flow, stocked⟩, rfl⟩⟩

/-- Any shares worth a positive amount up to the capacity are sold. -/
theorem capacity_sells (priced : env.execPrice stock = some price) (positive : grossFor sharesIn price ≠ 0)
    (within : grossFor sharesIn price ≤ (capacity s env stock).2) : (quoteSell s env stock sharesIn).2 = true := by
  have room : (capacity s env stock).2 ≠ 0 := by omega
  obtain ⟨found, trading, same⟩ := capacity_open (.inr room)
  cases priced.symm.trans trading.priced
  rw [same] at within
  obtain ⟨⟨worth, cap⟩, flow⟩ : (_ ∧ _) ∧ _ := by simpa only [le_min_iff] using within
  have funded := payoutFor_funded (spread_room (s.terms stock).sellSpread_le) worth
  have some_ : sharesIn ≠ 0 := by
    rintro rfl
    exact positive (by rw [grossFor, Nat.zero_mul, Nat.zero_div])
  exact quote_true.mpr ⟨_, quoteSell_ok.mpr ⟨price, ⟨trading, some_, cap, funded⟩, flow, rfl⟩⟩

/-! A round trip. -/

theorem gross_back : grossFor (sharesFor value price spread) price ≤ value := by
  have given : sharesFor value price spread * (price * bps) ≤ value * (10 ^ 18 * (bps - spread)) :=
    Nat.div_mul_le_self ..
  unfold grossFor
  apply Nat.div_le_of_le_mul
  apply Nat.le_of_mul_le_mul_right _ (show 0 < bps by decide)
  calc sharesFor value price spread * price * bps = sharesFor value price spread * (price * bps) := by ring
    _ ≤ value * (10 ^ 18 * (bps - spread)) := given
    _ ≤ value * (10 ^ 18 * bps) := Nat.mul_le_mul_left _ (Nat.mul_le_mul_left _ (Nat.sub_le ..))
    _ = 10 ^ 18 * value * bps := by ring

/-- Shares bought and sold again at the same price bring no more than was paid, whatever the terms are by then. -/
theorem no_profit {env' : Env} {least' to' shares : Nat} {s' after' : State}
    (same : env'.execPrice stock = env.execPrice stock)
    (bought : buy c s env stock value least to_ = .ok (shares, after))
    (sold : sell c s' env' stock shares least' to' = .ok (out, after')) : out ≤ value := by
  obtain ⟨price, buys, rfl, _⟩ := buy_ok.mp bought
  obtain ⟨other, offers, _, rfl, _⟩ := sell_ok.mp sold
  have priced := offers.trading.priced
  rw [same, buys.trading.priced] at priced
  cases priced
  exact payout_le.trans gross_back

/-! Runs. -/

/-- The desk, and the time of the last call. -/
structure Run where
  desk : State
  clock : Nat

/-- A call at a time that is not before the last. -/
def Timed (c : Config) (run : Run) (t : Step) (next : Run) : Prop :=
  run.clock ≤ t.env.now ∧ step c run.desk t = .ok next.desk ∧ next.clock = t.env.now

abbrev Past := List (Taken Run Step)

def Runs (c : Config) : Past → Run → Prop := History (Timed c) ⟨deployed, 0⟩

/-- The stock, the side and the USD value of a trade. -/
def Step.trade (t : Step) : Option (Address × Bool × Nat) :=
  match t.action with
  | .buy stock value _ _ => some (stock, true, value)
  | .sell stock sharesIn _ _ => some (stock, false, grossFor sharesIn ((t.env.execPrice stock).getD 0))
  | _ => none

def Step.trades (t : Step) (stock : Address) (buySide : Bool) (hour : Nat) : Prop :=
  ∃ usd, t.trade = some (stock, buySide, usd) ∧ hourOf t.env.now = hour

/-- What a step trades of a stock, on a side and in an hour. -/
def Step.traded (t : Step) (stock : Address) (buySide : Bool) (hour : Nat) : Nat :=
  match t.trade with
  | some (own, side, usd) => if own = stock ∧ side = buySide ∧ hourOf t.env.now = hour then usd else 0
  | none => 0

/-- A side's total within a clock hour. -/
def total (past : Past) (stock : Address) (buySide : Bool) (hour : Nat) : Nat :=
  (past.map fun t => t.action.traded stock buySide hour).sum

theorem total_snoc (past : Past) (t : Taken Run Step) (stock : Address) (buySide : Bool) (hour : Nat) :
    total (past ++ [t]) stock buySide hour = total past stock buySide hour + t.action.traded stock buySide hour := by
  simp only [total, List.map_append, List.sum_append, List.map_cons, List.map_nil, List.sum_cons, List.sum_nil,
    Nat.add_zero]

theorem traded_none {t : Step} (apart : ¬ t.trades stock buySide hour) : t.traded stock buySide hour = 0 := by
  unfold Step.traded
  cases trade : t.trade with
  | none => rfl
  | some found =>
    obtain ⟨own, side, usd⟩ := found
    exact if_neg fun ⟨same, side', hour'⟩ => apart ⟨usd, by rw [trade, same, side'], hour'⟩

/-- What a call leaves of a stock's flow: as it was, or used by the trade within the cap in force. -/
inductive Flows (s : State) (t : Step) (after : State) (stock : Address) : Prop where
  | keeps (same : after.flow stock = s.flow stock) (quiet : ∀ buySide hour, ¬ t.trades stock buySide hour)
  | uses (buySide : Bool) (usd : Nat) (trade : t.trade = some (stock, buySide, usd))
      (within : usedNow s t.env stock buySide + usd ≤ (s.terms stock).flowCapUsd)
      (used : after.flow stock =
        ((s.flow stock).at_ (hourOf t.env.now)).use buySide (usedNow s t.env stock buySide + usd))

theorem payShares_flow (s : State) (stock to_ amount : Nat) : (s.payShares c stock to_ amount).flow = s.flow := by
  unfold State.payShares
  split <;> rfl

theorem payUsdc_flow (s : State) (to_ amount : Nat) : (s.payUsdc c to_ amount).flow = s.flow := by
  unfold State.payUsdc
  split <;> rfl

theorem setFlow_other {f : Flow} (apart : stock ≠ own) : (s.setFlow own f).flow stock = s.flow stock :=
  Function.update_of_ne apart ..

theorem buy_flows (done : buy c s env own value least to_ = .ok (out, after)) :
    Flows s ⟨env, .buy own value least to_⟩ after stock := by
  obtain ⟨price, buys, _, _, _, rfl⟩ := buy_ok.mp done
  by_cases same : stock = own
  · subst same
    refine .uses true value rfl buys.flow ?_
    rw [payShares_flow]
    exact Function.update_self ..
  · refine .keeps ?_ ?_
    · rw [payShares_flow]
      exact setFlow_other same
    · rintro buySide hour ⟨usd, trade, _⟩
      cases trade
      exact same rfl

theorem sell_flows (done : sell c s env own sharesIn least to_ = .ok (out, after)) :
    Flows s ⟨env, .sell own sharesIn least to_⟩ after stock := by
  obtain ⟨price, offers, within, _, _, _, _, rfl⟩ := sell_ok.mp done
  by_cases same : stock = own
  · subst same
    refine .uses false (grossFor sharesIn price) ?_ within ?_
    · change some (stock, false, grossFor sharesIn ((env.execPrice stock).getD 0)) = _
      rw [offers.trading.priced]
      rfl
    · rw [payUsdc_flow]
      exact Function.update_self ..
  · refine .keeps ?_ ?_
    · rw [payUsdc_flow]
      exact setFlow_other same
    · rintro buySide hour ⟨usd, trade, _⟩
      cases trade
      exact same rfl

theorem step_flows {t : Step} (taken : step c s t = .ok after) (stock : Address) : Flows s t after stock := by
  obtain ⟨env, action⟩ := t
  have quiet : ∀ {other : Step}, other.trade = none → ∀ buySide hour, ¬ other.trades stock buySide hour := by
    rintro other none_ buySide hour ⟨usd, trade, _⟩
    rw [none_] at trade
    cases trade
  cases action with
  | buy own value least to_ =>
    simp only [step, bind_ok, pure_ok, Prod.exists] at taken
    obtain ⟨_, _, done, rfl⟩ := taken
    exact buy_flows done
  | sell own sharesIn least to_ =>
    simp only [step, bind_ok, pure_ok, Prod.exists] at taken
    obtain ⟨_, _, done, rfl⟩ := taken
    exact sell_flows done
  | restock own usdcIn minShares =>
    simp only [step, restock, restockerOnly, bind_ok, require_ok, pure_ok] at taken
    obtain ⟨_, _, _, _, _, _, _, _, _, _, _, _, rfl⟩ := taken
    exact .keeps rfl (quiet rfl)
  | unstock own sharesIn minUsdc =>
    simp only [step, unstock, restockerOnly, bind_ok, require_ok, pure_ok] at taken
    obtain ⟨_, _, _, _, _, _, _, _, _, _, _, _, rfl⟩ := taken
    exact .keeps rfl (quiet rfl)
  | cancelHubOrder own shares usdc =>
    simp only [step, cancelHubOrder, settleHubOrder, restockerOnly, bind_ok, require_ok, pure_ok] at taken
    obtain ⟨_, _, _, _, rfl⟩ := taken
    exact .keeps rfl (quiet rfl)
  | claimHub own shares usdc =>
    simp only [step, claimHub, settleHubOrder, restockerOnly, bind_ok, require_ok, pure_ok] at taken
    obtain ⟨_, _, _, _, rfl⟩ := taken
    exact .keeps rfl (quiet rfl)
  | escalateHubOrder =>
    simp only [step, escalateHubOrder, escalateHub, restockerOnly, bind_ok, require_ok, pure_ok] at taken
    obtain ⟨_, _, _, _, rfl⟩ := taken
    exact .keeps rfl (quiet rfl)
  | escalateHubFunds =>
    simp only [step, escalateHubFunds, escalateHub, restockerOnly, bind_ok, require_ok, pure_ok] at taken
    obtain ⟨_, _, _, _, rfl⟩ := taken
    exact .keeps rfl (quiet rfl)
  | setTerms own spreadBps sellSpreadBps maxTradeUsd flowCapUsd enabled =>
    simp only [step, setTerms, bind_ok, require_ok] at taken
    obtain ⟨_, _, done⟩ := taken
    split at done
    · simp only [bind_ok, require_ok, pure_ok] at done
      obtain ⟨_, _, rfl⟩ := done
      exact .keeps rfl (quiet rfl)
    · cases done
  | withdraw asset amount =>
    simp only [step, withdraw, bind_ok, require_ok, ite_ok, pure_ok] at taken
    obtain ⟨_, _, _, _, ⟨_, _, _, rfl⟩ | ⟨_, _, _, rfl⟩⟩ := taken
    · exact .keeps rfl (quiet rfl)
    · exact .keeps rfl (quiet rfl)
  | pause =>
    simp only [step, pause, bind_ok, require_ok, pure_ok] at taken
    obtain ⟨_, _, rfl⟩ := taken
    exact .keeps rfl (quiet rfl)
  | unpause =>
    simp only [step, unpause, bind_ok, require_ok, pure_ok] at taken
    obtain ⟨_, _, rfl⟩ := taken
    exact .keeps rfl (quiet rfl)
  | receive own shares usdc =>
    simp only [step, pure_ok] at taken
    subst taken
    exact .keeps rfl (quiet rfl)

/-- The flow's counters are the totals of its hour, and no later hour has traded. -/
structure Counted (past : Past) (run : Run) (stock : Address) : Prop where
  until_ : (run.desk.flow stock).hour ≤ hourOf run.clock
  exact : ∀ side, total past stock side (run.desk.flow stock).hour = (run.desk.flow stock).used side
  later : ∀ side hour, (run.desk.flow stock).hour < hour → total past stock side hour = 0

theorem Flow.use_used (f : Flow) (buySide side : Bool) (usd : Nat) :
    (f.use buySide usd).used side = if buySide = side then usd else f.used side := by
  cases buySide <;> cases side <;> rfl

theorem Flow.use_hour (f : Flow) (buySide : Bool) (usd : Nat) : (f.use buySide usd).hour = f.hour := by
  cases buySide <;> rfl

theorem Flow.at_hour (f : Flow) (hour : Nat) : (f.at_ hour).hour = hour := by
  unfold Flow.at_
  split
  · rfl
  · exact not_not.mp ‹_›

variable {past : Past} {run next : Run} {t : Step}

/-- At a time that is not before the last call, what the hour has used is the hour's total. -/
theorem Counted.now (counted : Counted past run stock) (order : run.clock ≤ t.env.now) (side : Bool) :
    total past stock side (hourOf t.env.now) = usedNow run.desk t.env stock side := by
  have reached : (run.desk.flow stock).hour ≤ hourOf t.env.now :=
    counted.until_.trans (Nat.div_le_div_right order)
  unfold usedNow Flow.at_
  by_cases same : (run.desk.flow stock).hour = hourOf t.env.now
  · rw [if_neg (not_not.mpr same), ← same]
    exact counted.exact side
  · rw [if_pos same, counted.later side _ (Nat.lt_of_le_of_ne reached same)]
    cases side <;> rfl

theorem traded_now {side : Bool} (trade : t.trade = some (own, side, usd)) (buySide : Bool) (hour : Nat) :
    t.traded stock buySide hour =
      if own = stock ∧ side = buySide ∧ hourOf t.env.now = hour then usd else 0 := by
  rw [Step.traded, trade]

theorem Counted.step (counted : Counted past run stock) (timed : Timed c run t next) :
    Counted (past ++ [⟨run, t, next⟩]) next stock := by
  obtain ⟨order, taken, clock⟩ := timed
  have older := counted.until_.trans (Nat.div_le_div_right (c := 3600) order)
  rcases step_flows taken stock with ⟨same, quiet⟩ | ⟨buySide, usd, trade, _, used⟩
  · refine ⟨?_, fun side => ?_, fun side hour late => ?_⟩
    · rw [same, clock]
      exact older
    · rw [total_snoc, traded_none (quiet side _), same]
      exact counted.exact side
    · rw [same] at late
      rw [total_snoc, traded_none (quiet side hour)]
      exact counted.later side hour late
  · have now : (next.desk.flow stock).hour = hourOf t.env.now := by
      rw [used, Flow.use_hour, Flow.at_hour]
    refine ⟨?_, fun side => ?_, fun side hour late => ?_⟩
    · rw [now, clock]
    · rw [total_snoc, now, counted.now order side, traded_now trade, used, Flow.use_used]
      by_cases own : buySide = side
      · rw [if_pos own, if_pos ⟨rfl, own, rfl⟩, own]
      · rw [if_neg own, if_neg (fun found => own found.2.1)]
        rfl
    · rw [now] at late
      rw [total_snoc, traded_now trade, if_neg (fun found => late.ne found.2.2)]
      exact counted.later side hour (older.trans_lt late)

theorem runs_counted (runs : Runs c past run) (stock : Address) : Counted past run stock := by
  induction runs with
  | nil => exact ⟨Nat.zero_le _, fun side => by cases side <;> rfl, fun _ _ _ => rfl⟩
  | snoc _ t timed ih => exact ih.step timed

theorem total_append (front back : Past) (stock : Address) (buySide : Bool) (hour : Nat) :
    total (front ++ back) stock buySide hour = total front stock buySide hour + total back stock buySide hour := by
  simp only [total, List.map_append, List.sum_append]

theorem total_quiet {back : Past} (quiet : ∀ q ∈ back, ¬ q.action.trades stock buySide hour) :
    total back stock buySide hour = 0 := by
  apply List.sum_eq_zero
  intro traded member
  obtain ⟨q, listed, rfl⟩ := List.mem_map.mp member
  exact traded_none (quiet q listed)

/-- After the hour's last trade of a side, the side's total is within the cap that was in force at that trade. -/
theorem hour_capped (runs : Runs c past run) {front back : Past} {last : Taken Run Step}
    (split : past = front ++ last :: back) (trades : last.action.trades stock buySide hour)
    (quiet : ∀ q ∈ back, ¬ q.action.trades stock buySide hour) :
    total past stock buySide hour ≤ (last.before.desk.terms stock).flowCapUsd := by
  obtain ⟨earlier, order, taken, _⟩ := History.taken runs front back last split
  obtain ⟨usd, trade, rfl⟩ := trades
  have before := (runs_counted earlier stock).now order buySide
  rcases step_flows taken stock with ⟨_, none_⟩ | ⟨side, own, trade', within, _⟩
  · exact absurd ⟨usd, trade, rfl⟩ (none_ buySide _)
  · cases trade.symm.trans trade'
    rw [split, ← List.singleton_append, ← List.append_assoc, total_append, total_quiet quiet, total_snoc, before,
      traded_now trade, if_pos ⟨rfl, rfl, rfl⟩]
    exact within

/-- What the desk promises of an amount in a state. -/
structure Executable (c : Config) (s : State) (env : Env) (stock : Address) (amount : Nat) (to_ : Address) :
    Prop where
  buy : Exact (quoteBuy s env stock amount) (buy c s env stock amount 0 to_)
  sell : Exact (quoteSell s env stock amount) (sell c s env stock amount 0 to_)
  buyCapacity : amount ≠ 0 → amount ≤ (capacity s env stock).1 →
    ∃ out after, InstantDesk.buy c s env stock amount 0 to_ = .ok (out, after)
  sellCapacity : ∀ price, env.execPrice stock = some price → grossFor amount price ≠ 0 →
    grossFor amount price ≤ (capacity s env stock).2 →
      ∃ out after, InstantDesk.sell c s env stock amount 0 to_ = .ok (out, after)
  roundTrip : ∀ (env' : Env) least least' to' shares bought out sold,
    env'.execPrice stock = env.execPrice stock →
    InstantDesk.buy c s env stock amount least to_ = .ok (shares, bought) →
      InstantDesk.sell c bought env' stock shares least' to' = .ok (out, sold) → out ≤ amount

/-- In every state the quotes are exact, the capacity can be traded and a round trip pays nothing, but for worthless
shares past a lowered cap; and in every run no hour goes beyond the cap in force at its last trade. -/
theorem quotes_execute (c : Config) :
    (∀ s env stock amount to_, env.pulls = true → env.delivers = true →
      (Executable c s env stock amount to_ ↔ ¬ Overrun s env stock amount)) ∧
    ∀ past run, Runs c past run → ∀ front last back stock buySide hour, past = front ++ last :: back →
      last.action.trades stock buySide hour → (∀ q ∈ back, ¬ q.action.trades stock buySide hour) →
        total past stock buySide hour ≤ (last.before.desk.terms stock).flowCapUsd := by
  refine ⟨fun s env stock amount to_ pulls delivers => ⟨fun promised => ?_, fun calm => ?_⟩, ?_⟩
  · exact (sell_exact pulls delivers).mp promised.sell
  · have bought : Exact (quoteBuy s env stock amount) (buy c s env stock amount 0 to_) := buy_exact delivers
    have sold : Exact (quoteSell s env stock amount) (sell c s env stock amount 0 to_) :=
      (sell_exact pulls delivers).mpr calm
    refine ⟨bought, sold, fun positive within => ?_, fun price priced positive within => ?_, ?_⟩
    · exact bought.good.mp (capacity_buys positive within)
    · exact sold.good.mp (capacity_sells priced positive within)
    · intro env' least least' to' shares bought out sold same first second
      exact no_profit same first second
  · intro past run runs front last back stock buySide hour split trades quiet
    exact hour_capped runs split trades quiet

/-! A sale of 150, after which the owner caps the hour at 100. -/

def sample : Config := ⟨1, 2, 3, 4⟩

/-- A tenth of a dollar a share. -/
def tenth (sender now : Nat) : Env where
  sender := sender
  now := now
  execPrice := fun _ => some (10 ^ 17)
  positive := fun _ _ same => Option.some.inj same ▸ by decide
  rawFor := fun _ _ => none
  usdFor := fun _ _ => none
  transferable := fun _ => true
  underlyingOfToken := fun _ => 9
  quoteOrder := 0
  hubAccepts := true
  pulls := true
  delivers := true

def listing (cap : Nat) : Step := ⟨tenth 2 100, .setTerms 7 50 50 (1000 * 10 ^ 18) cap true⟩

def funding : Step := ⟨tenth 5 100, .receive 7 0 (500 * 10 ^ 18)⟩

def sale : Step := ⟨tenth 5 100, .sell 7 (1500 * 10 ^ 18) 0 0⟩

theorem Runs.call (runs : Runs c past run) (t : Step) {desk : State} (order : run.clock ≤ t.env.now)
    (done : step c run.desk t = .ok desk) : Runs c (past ++ [⟨run, t, ⟨desk, t.env.now⟩⟩]) ⟨desk, t.env.now⟩ :=
  .snoc runs t ⟨order, done, rfl⟩

/-- The runs up to the sale, and on to the lowered cap. -/
theorem sample_runs : ∃ past sold lowered, Runs sample past sold ∧
    Runs sample (past ++ [⟨sold, listing (100 * 10 ^ 18), lowered⟩]) lowered ∧
    (past.map Taken.action = [listing (200 * 10 ^ 18), funding, sale] ∧
      (quoteSell sold.desk (tenth 5 100) 7 1).2 = true ∧ usedNow sold.desk (tenth 5 100) 7 false = 150 * 10 ^ 18 ∧
      (sold.desk.terms 7).flowCapUsd = 200 * 10 ^ 18) ∧
    (quoteSell lowered.desk (tenth 5 100) 7 1).2 = true ∧
      sell sample lowered.desk (tenth 5 100) 7 1 0 0 = .error (.revert .overFlowCap) := by
  have first := Runs.call (.nil : Runs sample [] ⟨deployed, 0⟩) (listing (200 * 10 ^ 18)) (Nat.zero_le _) rfl
  have second := first.call funding (Nat.le_refl 100) rfl
  have third := second.call sale (Nat.le_refl 100) rfl
  have fourth := third.call (listing (100 * 10 ^ 18)) (Nat.le_refl 100) rfl
  exact ⟨_, _, _, third, fourth, ⟨rfl, rfl, rfl, rfl⟩, rfl, rfl⟩

/-- Before the cap is lowered a single share's quote is exact, and the hour stays within the cap. -/
theorem quotes_execute_sample : ∃ past run last, Runs sample past run ∧ last ∈ past ∧
    Executable sample run.desk (tenth 5 100) 7 1 0 ∧ (quoteSell run.desk (tenth 5 100) 7 1).2 = true ∧
    total past 7 false 0 ≤ (last.before.desk.terms 7).flowCapUsd := by
  obtain ⟨past, sold, _, runs, _, ⟨steps, quoted, used, cap⟩, _⟩ := sample_runs
  have calm : ¬ Overrun sold.desk (tenth 5 100) 7 1 := by
    rintro ⟨_, lowered, _⟩
    rw [used, cap] at lowered
    exact absurd lowered (by decide)
  rcases List.eq_nil_or_concat past with rfl | ⟨front, last, rfl⟩
  · cases steps
  · rw [List.concat_eq_append] at runs steps
    have final : last.action = sale := by
      rw [List.map_append, show [listing (200 * 10 ^ 18), funding, sale] =
        [listing (200 * 10 ^ 18), funding] ++ [sale] from rfl] at steps
      exact List.singleton_inj.mp (List.append_inj_right' steps rfl)
    refine ⟨_, sold, last, runs, List.mem_append_right front List.mem_cons_self,
      ((quotes_execute sample).1 sold.desk (tenth 5 100) 7 1 0 rfl rfl).mpr calm, quoted,
      (quotes_execute sample).2 _ sold runs front last [] 7 false 0 rfl ?_ (fun _ none_ => by cases none_)⟩
    rw [final]
    exact ⟨_, rfl, rfl⟩

/-- Once the cap is lowered the desk quotes a share that it does not take. -/
theorem quote_refused : ¬ ∀ c past run, Runs c past run → ∀ env stock amount to_,
    env.pulls = true → env.delivers = true → Executable c run.desk env stock amount to_ := by
  intro claimed
  obtain ⟨_, _, lowered, _, runs, _, quoted, refused⟩ := sample_runs
  obtain ⟨out, after, done⟩ := (claimed sample _ lowered runs (tenth 5 100) 7 1 0 rfl rfl).sell.good.mp quoted
  rw [refused] at done
  cases done

end Solonpad.InstantDesk
