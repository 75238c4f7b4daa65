import Solonpad.QuoteFeeHook
import Solonpad.Transition
import Mathlib.Algebra.Order.Floor.Div

/-!
The law of the quote fee. Two of the four kinds of swap name the quote, and their fee is known before the
swap; the other two are charged on what the swap moved. One ratio of the gross amount covers all four, and
the fee is never past what an `int128` holds.
-/

namespace Solonpad.QuoteFeeHook

open Checked Transition
open Chain (Address)

/-- The part of a delta that is in a currency of the pool. -/
def BalanceDelta.of (delta : BalanceDelta) (key : PoolKey) (currency : Address) : Int :=
  if currency = key.currency0 then delta.amount0
  else if currency = key.currency1 then delta.amount1
  else 0

/-- Both parts are of the type `int128`. -/
def BalanceDelta.Fits (delta : BalanceDelta) : Prop :=
  (-2 ^ 127 ≤ delta.amount0 ∧ delta.amount0 ≤ int128Max) ∧
    -2 ^ 127 ≤ delta.amount1 ∧ delta.amount1 ≤ int128Max

/-! The ratio. -/

theorem fee_of_gross (gross : Nat) : (gross + 99) / 100 = gross ⌈/⌉ 100 := by
  rw [Nat.ceilDiv_eq_add_pred_div]
  rfl

/-- What is charged on a net amount is the fee of net and fee together. -/
theorem fee_of_net (net : Nat) : (net + 98) / 99 = (net + (net + 98) / 99) ⌈/⌉ 100 := by
  rw [Nat.ceilDiv_eq_add_pred_div]
  omega

theorem toInt128_fits {n : Nat} (fits : (n : Int) ≤ int128Max) : toInt128 n = n := by
  unfold int128Max at fits
  exact Int.bmod_eq_of_le_mul_two (by omega) (by omega)

/-! What a swap passes. -/

def amount (params : SwapParams) : Nat :=
  (if decide (params.amountSpecified < 0) then -params.amountSpecified else params.amountSpecified).toNat

/-- The fee known before the swap: 0 where the quote is not what the trader named. -/
def openingFee (key : PoolKey) (r : PoolRegistration) (params : SwapParams) : Nat :=
  if buys key r params = decide (params.amountSpecified < 0) then
    (if decide (params.amountSpecified < 0) then (amount params + 99) / 100 else (amount params + 98) / 99)
  else 0

variable {params : SwapParams} {s mid after : State} {env : Env} {hookData : List UInt8}
  {specified unspecified : Int} {core : BalanceDelta} {fee : Nat}

theorem amount_in (into : params.amountSpecified < 0) : amount params = (-params.amountSpecified).toNat := by
  simp [amount, into]

theorem amount_out (out : 0 ≤ params.amountSpecified) : amount params = params.amountSpecified.toNat := by
  simp [amount, Int.not_lt.mpr out]

theorem openingFee_in {key : PoolKey} {r : PoolRegistration} (named : buys key r params = true)
    (into : params.amountSpecified < 0) : openingFee key r params = (amount params + 99) / 100 := by
  simp [openingFee, named, into]

theorem openingFee_out {key : PoolKey} {r : PoolRegistration} (named : buys key r params = false)
    (out : 0 ≤ params.amountSpecified) : openingFee key r params = (amount params + 98) / 99 := by
  simp [openingFee, named, Int.not_lt.mpr out]

theorem openingFee_unnamed {key : PoolKey} {r : PoolRegistration}
    (unnamed : buys key r params ≠ decide (params.amountSpecified < 0)) : openingFee key r params = 0 :=
  if_neg unnamed

theorem openingFee_named {key : PoolKey} {r : PoolRegistration}
    (named : buys key r params = decide (params.amountSpecified < 0)) (moves : params.amountSpecified ≠ 0) :
    openingFee key r params ≠ 0 := by
  by_cases into : params.amountSpecified < 0
  · rw [openingFee_in (by simpa [into] using named) into, amount_in into]
    omega
  · rw [openingFee_out (by simpa [into] using named) (Int.not_lt.mp into), amount_out (Int.not_lt.mp into)]
    omega

/-- What `beforeSwap` leaves and what it has checked. -/
structure Opened (s : State) (key : PoolKey) (params : SwapParams) (mid : State) (specified : Int) : Prop where
  known : (s.pools key).token ≠ 0
  moves : params.amountSpecified ≠ 0
  least : -int128Max ≤ params.amountSpecified
  most : params.amountSpecified ≤ int128Max
  covers : params.amountSpecified < 0 → openingFee key (s.pools key) params < amount params
  within : 0 ≤ params.amountSpecified →
    ((amount params + openingFee key (s.pools key) params : Nat) : Int) ≤ int128Max
  delta : specified = toInt128 (openingFee key (s.pools key) params)
  fee : mid.fee = openingFee key (s.pools key) params
  pools : mid.pools = s.pools
  credited : mid.credited = s.credited
  minted : mid.minted = s.minted ++
    (if openingFee key (s.pools key) params = 0 then []
      else [((s.pools key).quoteAsset, openingFee key (s.pools key) params)])

theorem pool_ok {key : PoolKey} {r : PoolRegistration} (found : pool s env key = .ok r) :
    (s.pools key).token ≠ 0 ∧ r = s.pools key := by
  simp only [pool, bind_ok, require_ok, pure_ok] at found
  obtain ⟨_, known, _, _, rfl⟩ := found
  exact ⟨known, rfl⟩

variable {c : Config}

theorem beforeSwap_opens {sender : Address} {key : PoolKey}
    (done : beforeSwap c s env sender key params hookData = .ok (mid, specified)) :
    Opened s key params mid specified := by
  simp only [beforeSwap, mintFee, bind_ok, require_ok, ite_ok, pure_ok, Prod.mk.injEq] at done
  obtain ⟨_, _, _, _, r, found, _, valid, _, ranged, _, covered, _, within, s', minting, rfl, rfl⟩ := done
  obtain ⟨known, rfl⟩ := pool_ok found
  simp only [not_or, not_lt] at valid ranged
  change ¬ (_ ∧ amount params ≤ openingFee key (s.pools key) params) at covered
  change ¬ (_ ∧ _ < ((amount params + openingFee key (s.pools key) params : Nat) : Int)) at within
  change (openingFee key (s.pools key) params ≠ 0 ∧ _) ∨
    ¬ openingFee key (s.pools key) params ≠ 0 ∧ _ at minting
  simp only [not_and, not_le, not_lt, decide_eq_true_eq, decide_eq_false_iff_not] at covered within
  rcases minting with ⟨charged, _, _, rfl⟩ | ⟨free, rfl⟩
  · exact ⟨known, valid.2.2, ranged.2, ranged.1, covered, within, rfl, rfl, rfl, rfl, by rw [if_neg charged]; rfl⟩
  · exact ⟨known, valid.2.2, ranged.2, ranged.1, covered, within, rfl, rfl, rfl, rfl,
      by rw [if_pos (not_not.mp free), List.append_nil]⟩

/-- What the pool's swap moved of the quote. -/
def quoteMoved (key : PoolKey) (r : PoolRegistration) (core : BalanceDelta) : Int :=
  if key.currency0 = r.quoteAsset then core.amount0 else core.amount1

/-- What it moved of the token. -/
def tokenMoved (key : PoolKey) (r : PoolRegistration) (core : BalanceDelta) : Int :=
  if key.currency0 = r.quoteAsset then core.amount1 else core.amount0

/-- The fee known only after the swap. -/
def closingFee (buy : Bool) (q : Int) : Nat :=
  if buy then ((-q).toNat + 98) / 99 else (q.toNat + 99) / 100

/-- What `afterSwap` leaves and what it has checked. -/
structure Closed (mid : State) (key : PoolKey) (r : PoolRegistration) (params : SwapParams)
    (core : BalanceDelta) (fee : Nat) (after : State) (unspecified : Int) : Prop where
  filled : (if decide (params.amountSpecified < 0) = params.zeroForOne then core.amount0 else core.amount1) =
    params.amountSpecified + mid.fee
  bought : buys key r params = true →
    quoteMoved key r core < 0 ∧ 0 < tokenMoved key r core
  sold : buys key r params = false →
    0 < quoteMoved key r core ∧ tokenMoved key r core < 0
  charged : (mid.fee ≠ 0 ∧ fee = mid.fee ∧ unspecified = 0 ∧ after.minted = mid.minted) ∨
    (mid.fee = 0 ∧ fee = closingFee (buys key r params) (quoteMoved key r core) ∧
      unspecified = toInt128 fee ∧ after.minted = mid.minted ++ [(r.quoteAsset, fee)] ∧
      (buys key r params = false → fee < (quoteMoved key r core).toNat) ∧
      (buys key r params = true →
        (((-quoteMoved key r core).toNat + fee : Nat) : Int) ≤ int128Max))
  credited : after.credited = mid.credited ++ [(key, fee)]
  receipt : after.receipt = none
  cleared : after.fee = 0
  pools : after.pools = mid.pools

theorem afterSwap_closes {sender : Address} {key : PoolKey}
    (done : afterSwap c mid env sender key params core hookData = .ok (after, unspecified)) :
    ∃ fee, Closed mid key (mid.pools key) params core fee after unspecified := by
  simp only [afterSwap, mintFee, credit, bind_ok, require_ok, ite_ok, pure_ok, Prod.exists, Prod.mk.injEq] at done
  obtain ⟨_, _, _, _, r, found, _, filled, _, direction, state, fee, taken, charged, credited⟩ := done
  obtain ⟨_, rfl⟩ := pool_ok found
  obtain ⟨_, ⟨_, _, rfl⟩, rfl, rfl⟩ := credited
  rw [← quoteMoved, ← tokenMoved] at direction
  rw [← quoteMoved] at charged
  have away : (buys key (mid.pools key) params = true →
      quoteMoved key (mid.pools key) core < 0 ∧ 0 < tokenMoved key (mid.pools key) core) ∧
      (buys key (mid.pools key) params = false →
        0 < quoteMoved key (mid.pools key) core ∧ tokenMoved key (mid.pools key) core < 0) := by
    constructor
    · intro buy
      rw [if_pos buy] at direction
      omega
    · intro sell
      rw [sell, if_neg Bool.false_ne_true] at direction
      omega
  rcases charged with ⟨unknown, _, positive, _, within, _, ⟨_, _, rfl⟩, rfl, rfl, rfl⟩ | ⟨known, rfl, rfl, rfl⟩
  · refine ⟨_, filled, away.1, away.2, Or.inr ⟨unknown, ?_, rfl, rfl, ?_, ?_⟩, rfl, rfl, rfl, rfl⟩
    · cases buys key (mid.pools key) params <;> rfl
    · intro sell
      simpa [sell] using positive
    · intro buy
      simpa [buy] using within
  · exact ⟨_, filled, away.1, away.2, Or.inl ⟨known, rfl, rfl, rfl⟩, rfl, rfl, rfl, rfl⟩

/-! Registered pools. -/

/-- A pool of one token and one quote, in the order of the pool manager. -/
structure Paired (key : PoolKey) (r : PoolRegistration) : Prop where
  ordered : key.currency0 < key.currency1
  sides : key.currency0 = r.token ∧ key.currency1 = r.quoteAsset ∨
    key.currency1 = r.token ∧ key.currency0 = r.quoteAsset

structure Sound (s : State) : Prop where
  paired : ∀ key, (s.pools key).token ≠ 0 → Paired key (s.pools key)
  idle : s.receipt = none

theorem registerPool_sound {key : PoolKey} {r : PoolRegistration} (sound : Sound s)
    (done : registerPool c s env key r = .ok after) : Sound after := by
  simp only [registerPool, bind_ok, require_ok, pure_ok] at done
  obtain ⟨_, _, _, _, _, formed, _, _, rfl⟩ := done
  simp only [not_or, not_le, not_not] at formed
  constructor
  · intro other known
    rcases eq_or_ne other key with rfl | different
    · simp only [Function.update_self]
      exact ⟨formed.2.2.2.1, or_iff_not_and_not.mpr formed.2.2.2.2.2.2.1⟩
    · simp only [Function.update_of_ne different] at known ⊢
      exact sound.paired other known
  · exact sound.idle

variable (c)

theorem step_sound {call : Call} (sound : Sound s) (done : accepts c s call after) : Sound after := by
  obtain ⟨env, action⟩ := call
  cases action with
  | registerPool key r => exact registerPool_sound sound done
  | registerLegacyPool key r =>
    simp only [accepts, step, registerLegacyPool, bind_ok, require_ok, pure_ok] at done
    obtain ⟨_, _, middle, registered, rfl⟩ := done
    have kept := registerPool_sound sound registered
    exact ⟨kept.paired, kept.idle⟩
  | beforeInitialize sender key price =>
    simp only [accepts, step, beforeInitialize, bind_ok, require_ok, pure_ok] at done
    obtain ⟨_, _, _, _, _, _, rfl⟩ := done
    exact ⟨sound.paired, sound.idle⟩
  | swap sender key params hookData core =>
    simp only [accepts, step, swap, bind_ok, pure_ok, Prod.exists] at done
    obtain ⟨_, ⟨mid, specified, opens, final, unspecified, closes, rfl⟩, rfl⟩ := done
    obtain ⟨fee, closed⟩ := afterSwap_closes closes
    have pools := closed.pools.trans (beforeSwap_opens opens).pools
    constructor
    · rw [pools]
      exact sound.paired
    · exact closed.receipt

theorem reachable_sound (reached : Reachable (accepts c) deployed s) : Sound s :=
  reached.invariant ⟨fun _ known => absurd rfl known, rfl⟩ (fun _ _ _ sound done => step_sound c sound done)

/-! The sides of a delta. -/

variable {c}
variable {key : PoolKey} {r : PoolRegistration}

theorem of_quote (paired : Paired key r) (delta : BalanceDelta) :
    delta.of key r.quoteAsset = quoteMoved key r delta := by
  have different := Nat.ne_of_lt paired.ordered
  unfold BalanceDelta.of quoteMoved
  rcases paired.sides with ⟨_, second⟩ | ⟨_, first⟩
  · rw [← second, if_neg different.symm, if_pos rfl, if_neg different]
  · rw [← first, if_pos rfl, if_pos rfl]

theorem of_token (paired : Paired key r) (delta : BalanceDelta) : delta.of key r.token = tokenMoved key r delta := by
  have different := Nat.ne_of_lt paired.ordered
  unfold BalanceDelta.of tokenMoved
  rcases paired.sides with ⟨first, second⟩ | ⟨second, first⟩
  · rw [← first, ← second, if_pos rfl, if_neg different]
  · rw [← first, ← second, if_neg different.symm, if_pos rfl, if_pos rfl]

/-- The trader names the quote exactly when both or neither of buying and an exact input hold. -/
theorem named_side (params : SwapParams) (delta : BalanceDelta) :
    (if decide (params.amountSpecified < 0) = params.zeroForOne then delta.amount0 else delta.amount1) =
      if buys key r params = decide (params.amountSpecified < 0) then quoteMoved key r delta
      else tokenMoved key r delta := by
  unfold buys quoteMoved tokenMoved
  by_cases first : key.currency0 = r.quoteAsset <;> cases params.zeroForOne <;>
    cases decide (params.amountSpecified < 0) <;> simp [first]

theorem hook_quote (params : SwapParams) (specified unspecified : Int) :
    quoteMoved key r (hookDelta params specified unspecified) =
      if buys key r params = decide (params.amountSpecified < 0) then specified else unspecified := by
  unfold buys quoteMoved hookDelta
  by_cases first : key.currency0 = r.quoteAsset <;> cases params.zeroForOne <;>
    cases decide (params.amountSpecified < 0) <;> simp [first]

theorem hook_token (params : SwapParams) (specified unspecified : Int) :
    tokenMoved key r (hookDelta params specified unspecified) =
      if buys key r params = decide (params.amountSpecified < 0) then unspecified else specified := by
  unfold buys tokenMoved hookDelta
  by_cases first : key.currency0 = r.quoteAsset <;> cases params.zeroForOne <;>
    cases decide (params.amountSpecified < 0) <;> simp [first]

/-! The law. -/

/-- What a swap pays and where the fee ends up. -/
structure Charged (before : State) (key : PoolKey) (params : SwapParams) (done : Swapped) (fee gross : Nat) :
    Prop where
  rate : fee = gross ⌈/⌉ 100
  least : 1 ≤ fee
  net : fee < gross
  bought : buys key (before.pools key) params = true →
    done.trader.of key (before.pools key).quoteAsset = -gross
  sold : buys key (before.pools key) params = false →
    done.trader.of key (before.pools key).quoteAsset + fee = gross
  taken : (hookDelta params done.specified done.unspecified).of key (before.pools key).quoteAsset = fee
  spared : (hookDelta params done.specified done.unspecified).of key (before.pools key).token = 0
  cast : toInt128 fee = fee
  fits : done.trader.Fits
  credited : done.state.credited = before.credited ++ [(key, fee)]
  minted : done.state.minted = before.minted ++ [((before.pools key).quoteAsset, fee)]

/-- The trader's part of a swap is the pool's less the hook's, in either currency. -/
theorem trader_quote (core taken : BalanceDelta) :
    quoteMoved key r ⟨core.amount0 - taken.amount0, core.amount1 - taken.amount1⟩ =
      quoteMoved key r core - quoteMoved key r taken := by
  unfold quoteMoved
  split <;> rfl

theorem trader_token (core taken : BalanceDelta) :
    tokenMoved key r ⟨core.amount0 - taken.amount0, core.amount1 - taken.amount1⟩ =
      tokenMoved key r core - tokenMoved key r taken := by
  unfold tokenMoved
  split <;> rfl

/-- The amounts of one swap: what the hook's two deltas are and what the pool's quote is of the gross. -/
structure Priced (buy named : Bool) (q : Int) (fee gross : Nat) (specified unspecified : Int) : Prop where
  rate : fee = gross ⌈/⌉ 100
  least : 1 ≤ fee
  net : fee < gross
  within : (gross : Int) ≤ int128Max
  bought : buy = true → q - fee = -gross
  sold : buy = false → q = gross
  specified : specified = if named then (fee : Int) else 0
  unspecified : unspecified = if named then 0 else (fee : Int)

/-- The quote is what the trader named: the fee is known before the swap. -/
theorem priced_named (opened : Opened s key params mid specified)
    (closed : Closed mid key (s.pools key) params core fee after unspecified)
    (named : buys key (s.pools key) params = decide (params.amountSpecified < 0)) :
    (∃ gross, Priced (buys key (s.pools key) params) true (quoteMoved key (s.pools key) core) fee gross
      specified unspecified) ∧ after.minted = s.minted ++ [((s.pools key).quoteAsset, fee)] := by
  have positive := openingFee_named named opened.moves
  have filled := closed.filled
  rw [named_side (r := s.pools key), if_pos named] at filled
  have charged := closed.charged
  rw [opened.fee] at filled charged
  obtain ⟨_, rfl, rfl, minted⟩ | ⟨unknown, _⟩ := charged
  · have minted := minted.trans opened.minted
    rw [if_neg positive] at minted
    refine ⟨?_, minted⟩
    have delta := opened.delta
    by_cases into : params.amountSpecified < 0
    · have buy : buys key (s.pools key) params = true := by simpa [into] using named
      have covers := opened.covers into
      have lower := opened.least
      have rate := openingFee_in buy into
      rw [amount_in into] at covers rate
      rw [toInt128_fits (by omega)] at delta
      exact ⟨_, rate.trans (fee_of_gross _), Nat.one_le_iff_ne_zero.mpr positive, covers, by omega,
        fun _ => by omega, fun sell => absurd (buy.symm.trans sell) Bool.true_eq_false_eq_False, delta, rfl⟩
    · have out := Int.not_lt.mp into
      have sell : buys key (s.pools key) params = false := by simpa [into] using named
      have within := opened.within out
      have moves := opened.moves
      have rate := openingFee_out sell out
      rw [amount_out out] at within rate
      rw [toInt128_fits (by omega)] at delta
      refine ⟨params.amountSpecified.toNat + openingFee key (s.pools key) params, ?_,
        Nat.one_le_iff_ne_zero.mpr positive, by omega, within,
        fun buy => absurd (buy.symm.trans sell) Bool.true_eq_false_eq_False, fun _ => by omega, delta, rfl⟩
      rw [rate]
      exact fee_of_net _
  · exact absurd unknown positive

/-- It is not: the fee is known from what the pool's quote moved by. -/
theorem priced_unnamed (fits : quoteMoved key (s.pools key) core ≤ int128Max)
    (opened : Opened s key params mid specified)
    (closed : Closed mid key (s.pools key) params core fee after unspecified)
    (unnamed : buys key (s.pools key) params ≠ decide (params.amountSpecified < 0)) :
    (∃ gross, Priced (buys key (s.pools key) params) false (quoteMoved key (s.pools key) core) fee gross
      specified unspecified) ∧ after.minted = s.minted ++ [((s.pools key).quoteAsset, fee)] := by
  have none := openingFee_unnamed unnamed
  have delta := opened.delta
  have before := opened.minted
  have charged := closed.charged
  rw [opened.fee] at charged
  rw [if_pos none, List.append_nil] at before
  rw [none] at delta charged
  obtain ⟨known, _⟩ | ⟨_, rate, given, minted, net, within⟩ := charged
  · exact absurd rfl known
  · rw [before] at minted
    refine ⟨?_, minted⟩
    cases side : buys key (s.pools key) params with
    | true =>
      have moved := closed.bought side
      have within := within side
      rw [side] at rate
      change fee = ((-quoteMoved key (s.pools key) core).toNat + 98) / 99 at rate
      rw [toInt128_fits (by omega)] at given
      refine ⟨(-quoteMoved key (s.pools key) core).toNat + fee, ?_, by omega, by omega, within,
        fun _ => by omega, fun sell => absurd sell Bool.true_eq_false_eq_False, delta, given⟩
      rw [rate]
      exact fee_of_net _
    | false =>
      have moved := closed.sold side
      have net := net side
      rw [side] at rate
      change fee = ((quoteMoved key (s.pools key) core).toNat + 99) / 100 at rate
      rw [toInt128_fits (by omega)] at given
      exact ⟨_, rate.trans (fee_of_gross _), by omega, net, by omega,
        fun buy => absurd buy Bool.false_ne_true, fun _ => by omega, delta, given⟩

theorem fits_sides (key : PoolKey) (r : PoolRegistration) (delta : BalanceDelta) : delta.Fits ↔
    (-2 ^ 127 ≤ quoteMoved key r delta ∧ quoteMoved key r delta ≤ int128Max) ∧
      -2 ^ 127 ≤ tokenMoved key r delta ∧ tokenMoved key r delta ≤ int128Max := by
  unfold quoteMoved tokenMoved BalanceDelta.Fits
  by_cases first : key.currency0 = r.quoteAsset
  · simp only [if_pos first]
  · simp only [if_neg first]
    exact and_comm

/-- The hook takes the fee of the quote and nothing of the token. -/
theorem hook_takes {q : Int} {gross : Nat}
    (priced : Priced (buys key r params) (decide (buys key r params = decide (params.amountSpecified < 0))) q
      fee gross specified unspecified) :
    quoteMoved key r (hookDelta params specified unspecified) = fee ∧
      tokenMoved key r (hookDelta params specified unspecified) = 0 := by
  have before := priced.specified
  have later := priced.unspecified
  rw [hook_quote, hook_token]
  by_cases named : buys key r params = decide (params.amountSpecified < 0)
  · rw [decide_eq_true named] at before later
    rw [if_pos named, if_pos named]
    exact ⟨before, later⟩
  · rw [decide_eq_false named] at before later
    rw [if_neg named, if_neg named]
    exact ⟨later, before⟩

variable (c)

/-- Every swap the hook handles, whatever the manager's pool moves, pays one hundredth of its gross quote
rounded up, once, and leaves some of it. -/
theorem quote_fee_law {s : State} (reached : Reachable (accepts c) deployed s) {env : Env} {sender : Address}
    {key : PoolKey} {params : SwapParams} {hookData : List UInt8} {core : BalanceDelta} (fits : core.Fits)
    {done : Swapped} (handled : swap c s env sender key params hookData core = .ok done) :
    ∃ fee gross, Charged s key params done fee gross := by
  simp only [swap, bind_ok, pure_ok, Prod.exists] at handled
  obtain ⟨mid, specified, opens, after, unspecified, closes, rfl⟩ := handled
  have opened := beforeSwap_opens opens
  obtain ⟨fee, closed⟩ := afterSwap_closes closes
  have paired := (reachable_sound c reached).paired key opened.known
  rw [opened.pools] at closed
  have sides := (fits_sides key (s.pools key) core).mp fits
  have priced : (∃ gross, Priced (buys key (s.pools key) params)
      (decide (buys key (s.pools key) params = decide (params.amountSpecified < 0)))
      (quoteMoved key (s.pools key) core) fee gross specified unspecified) ∧
      after.minted = s.minted ++ [((s.pools key).quoteAsset, fee)] := by
    by_cases named : buys key (s.pools key) params = decide (params.amountSpecified < 0)
    · rw [decide_eq_true named]
      exact priced_named opened closed named
    · rw [decide_eq_false named]
      exact priced_unnamed sides.1.2 opened closed named
  obtain ⟨⟨gross, priced⟩, minted⟩ := priced
  obtain ⟨taken, spared⟩ := hook_takes priced
  have net := priced.net
  have within := priced.within
  refine ⟨fee, gross, priced.rate, priced.least, net, ?_, ?_, ?_, ?_, ?_, ?_, ?_, minted⟩
  · intro buy
    rw [of_quote paired, trader_quote, taken]
    exact priced.bought buy
  · intro sell
    rw [of_quote paired, trader_quote, taken, priced.sold sell]
    omega
  · rw [of_quote paired, taken]
  · rw [of_token paired, spared]
  · exact toInt128_fits (by omega)
  · rw [fits_sides key (s.pools key), trader_quote, trader_token, taken, spared, Int.sub_zero]
    refine ⟨?_, sides.2⟩
    unfold int128Max at within ⊢
    cases side : buys key (s.pools key) params with
    | true =>
      rw [priced.bought side]
      omega
    | false =>
      rw [priced.sold side]
      omega
  · exact closed.credited.trans (congrArg (· ++ [(key, fee)]) opened.credited)

/-! A pool of the native currency, and a swap of each kind in it. -/

def sample : Config := ⟨9, 1, 2⟩

def samplePool : PoolKey := ⟨0, 50, 0, 100, 9⟩

def sampleCall (sender : Address) (action : Action) : Call :=
  ⟨⟨sender, fun _ => 1, fun _ => 7, true, true⟩, action⟩

def opensPool : List Call :=
  [sampleCall 2 (.registerPool samplePool ⟨50, 0, 0, 7, 60, 61, 4, 8⟩),
    sampleCall 1 (.beforeInitialize 60 samplePool 4)]

example : ((run (step sample) (fun _ _ => True) deployed (opensPool ++
    [sampleCall 1 (.swap 70 samplePool ⟨true, -1000, 0⟩ [] ⟨-990, 500⟩),
      sampleCall 1 (.swap 70 samplePool ⟨true, 500, 0⟩ [] ⟨-990, 500⟩),
      sampleCall 1 (.swap 70 samplePool ⟨false, -500, 0⟩ [] ⟨1000, -500⟩),
      sampleCall 1 (.swap 70 samplePool ⟨false, 990, 0⟩ [] ⟨1000, -500⟩)])).map State.credited) =
    some [(samplePool, 10), (samplePool, 10), (samplePool, 10), (samplePool, 10)] := by decide

/-- 500 tokens are bought exactly, and the pool asks 990 for them. -/
def sampleSwap (s : State) : Tx Swapped :=
  swap sample s ⟨1, fun _ => 1, fun _ => 7, true, true⟩ 70 samplePool ⟨true, 500, 0⟩ [] ⟨-990, 500⟩

theorem quote_fee_law_bought : ∃ s done, sampleSwap s = .ok done ∧
    ∃ fee gross, Charged s samplePool ⟨true, 500, 0⟩ done fee gross := by
  obtain ⟨s, reached, passed⟩ := run_passes (step sample) (fun _ _ => True) opensPool deployed
    (fun s => (sampleSwap s).isOk) (by decide)
  cases handled : sampleSwap s with
  | error fault => simp [handled, Except.isOk, Except.toBool] at passed
  | ok done =>
    have fits : (BalanceDelta.mk (-990) 500).Fits := by
      unfold BalanceDelta.Fits int128Max
      decide
    exact ⟨s, done, handled, quote_fee_law sample reached.unrestricted fits handled⟩

end Solonpad.QuoteFeeHook
