import Solonpad.OracleAnchors

/-!
The views of the stock oracle in the chain's 256-bit words, `priceUSD18` and `status` of `SolonStockOracle.sol` with
the reads behind them of `ChainlinkStockFeed.sol`. A product that leaves the word reverts, so a view answers only
where every product that `_evaluate` comes to fits, and there it gives the verdict of unbounded arithmetic.
-/

namespace Solonpad.OracleViews

open Checked Histories StockOracle
open Chain (Address)

/-! A read of a price feed. -/

inductive FeedError where
  | badRound | stalePrice | nonPositive | feedDecimals
  deriving DecidableEq, Repr

/-- `latestRoundData`. -/
structure Round where
  roundId : Nat
  answer : Int
  startedAt : Nat
  updatedAt : Nat
  answeredInRound : Nat

structure Reading where
  price18 : Nat
  updatedAt : Nat
  roundId : Nat
  deriving DecidableEq

/-- `ChainlinkStockFeed.read` of a feed with `dec` decimals. -/
def feedRead (round : Round) (dec maxStaleness now : Nat) : Checked.Tx FeedError Reading := do
  require (round.updatedAt ≠ 0 ∧ round.roundId ≠ 0 ∧ round.startedAt ≠ 0) .badRound
  require (round.roundId ≤ round.answeredInRound ∧ round.updatedAt ≤ now) .badRound
  require (now - round.updatedAt ≤ maxStaleness) .stalePrice
  require (0 < round.answer) .nonPositive
  require (dec ≤ 36) .feedDecimals
  let price18 ← if dec ≤ 18 then Checked.mul 256 round.answer.toNat (10 ^ (18 - dec))
    else pure (round.answer.toNat / 10 ^ (dec - 18))
  require (price18 ≠ 0) .nonPositive
  pure ⟨price18, round.updatedAt, round.roundId⟩

/-! The oracle's checks. -/

def distance (a ref : Nat) : Nat := if ref < a then a - ref else ref - a

/-- `_moved`. -/
def moved (a ref bps : Nat) : Tx Bool := do
  let left ← Checked.mul 256 (distance a ref) 10000
  let right ← Checked.mul 256 ref bps
  pure (decide (right < left))

/-- `Math.mulDiv` by `1e18`. -/
def mulDivUnit (x y : Nat) : Tx Nat :=
  if x * y / 10 ^ 18 < 2 ^ 256 then pure (x * y / 10 ^ 18) else throw .overflow

/-- The cross-check against the pool's average. -/
def offTwap (p : Params) (o : Observation) : Tx Bool :=
  if p.maxTwapBps = 0 then pure false
  else if o.twapPrice18 = 0 then pure true
  else do
    let usd ← mulDivUnit o.twapPrice18 o.quoteUsd18
    moved o.price18 usd p.maxTwapBps

def offAnchor (p : Params) (anchor : Nat) (o : Observation) : Tx Bool :=
  if anchor = 0 then pure true else moved o.price18 anchor p.maxMoveBps

/-- The checks of `_evaluate` on the prices of a usable read. -/
def checks (p : Params) (anchor : Nat) (o : Observation) : Tx Status := do
  let depegged ← moved o.quoteUsd18 (10 ^ 18) p.maxDepegBps
  if depegged = true then pure .divergent
  else do
    let off ← offTwap p o
    if off = true then pure .divergent
    else do
      let jumped ← offAnchor p anchor o
      pure (if jumped = true then .suspect else .live)

/-- The checks of `_evaluate` on a usable read. -/
def judge (s : State) (now : Nat) (u : Address) (checkAge : Bool) (o : Observation) : Tx Status :=
  let p := (s.assets u).params
  if checkAge = true ∧ p.maxAge < now - o.observedAt then pure .stale
  else if p.maxSourceAge < now - o.sourceUpdatedAt then pure .stale
  else checks p (s.anchor u).price18 o

/-- `_evaluate`. -/
def evaluate (s : State) (env : Env) (u : Address) (checkAge : Bool) : Tx (Status × Option Observation) :=
  let o := read s env u
  if (s.assets u).paused = true then pure (.paused, o)
  else match o with
    | some o => do
      let status ← judge s env.now u checkAge o
      pure (status, some o)
    | none => pure (.stale, none)

def priceUSD18 (s : State) (env : Env) (asset : Address) : Tx (Nat × Nat) :=
  let u := s.key asset
  if (s.assets u).source = 0 then pure (0, 0)
  else do
    let found ← evaluate s env u false
    match found with
    | (.live, some o) => pure (o.price18, o.observedAt)
    | _ => pure (0, 0)

def status (s : State) (env : Env) (asset : Address) : Tx Status :=
  let u := s.key asset
  if (s.assets u).source = 0 then pure .none
  else do
    let found ← evaluate s env u true
    pure found.1

/-! Where the products fit. -/

/-- Both products of `_moved`. -/
def Fits (a ref bps : Nat) : Prop := distance a ref * 10000 < 2 ^ 256 ∧ ref * bps < 2 ^ 256

/-- The stock's pool average in USD. -/
def twapUsd (o : Observation) : Nat := o.twapPrice18 * o.quoteUsd18 / 10 ^ 18

/-- The observation is turned down by the cross-check. -/
def OffTwap (p : Params) (o : Observation) : Prop :=
  p.maxTwapBps ≠ 0 ∧ (o.twapPrice18 = 0 ∨ StockOracle.moved o.price18 (twapUsd o) p.maxTwapBps)

instance (p : Params) (o : Observation) : Decidable (OffTwap p o) := inferInstanceAs (Decidable (_ ∧ _))

/-- The products that the checks come to, one after another until one turns the observation down. -/
def ChecksFit (p : Params) (anchor : Nat) (o : Observation) : Prop :=
  Fits o.quoteUsd18 (10 ^ 18) p.maxDepegBps ∧
    (¬ StockOracle.moved o.quoteUsd18 (10 ^ 18) p.maxDepegBps →
      (p.maxTwapBps ≠ 0 → o.twapPrice18 ≠ 0 → twapUsd o < 2 ^ 256 ∧ Fits o.price18 (twapUsd o) p.maxTwapBps) ∧
      (¬ OffTwap p o → anchor ≠ 0 → Fits o.price18 anchor p.maxMoveBps))

/-- No check is made, or every product of the checks fits. -/
def Answers (s : State) (env : Env) (asset : Address) : Prop :=
  let u := s.key asset
  (s.assets u).source ≠ 0 → (s.assets u).paused = false → ∀ o, read s env u = some o →
    env.now - o.sourceUpdatedAt ≤ (s.assets u).params.maxSourceAge →
      ChecksFit (s.assets u).params (s.anchor u).price18 o

/-- The verdict of unbounded arithmetic. -/
def verdict (s : State) (env : Env) (asset : Address) : Status :=
  if (s.assets (s.key asset)).source = 0 then .none else (StockOracle.evaluate s env (s.key asset) true).1

variable {s : State} {env : Env} {u asset : Address} {p : Params} {o : Observation} {anchor now : Nat}
  {checkAge : Bool} {result : Bool}

theorem moved_ok {a ref bps : Nat} :
    moved a ref bps = .ok result ↔ Fits a ref bps ∧ result = decide (StockOracle.moved a ref bps) := by
  simp only [moved, bind_ok, mul_ok, pure_ok]
  constructor
  · rintro ⟨_, ⟨first, rfl⟩, _, ⟨second, rfl⟩, rfl⟩
    exact ⟨⟨first, second⟩, rfl⟩
  · rintro ⟨⟨first, second⟩, rfl⟩
    exact ⟨_, ⟨first, rfl⟩, _, ⟨second, rfl⟩, rfl⟩

theorem mulDivUnit_ok {x y result : Nat} :
    mulDivUnit x y = .ok result ↔ x * y / 10 ^ 18 < 2 ^ 256 ∧ result = x * y / 10 ^ 18 := by
  simp only [mulDivUnit, ite_ok, pure_ok, throw_ok, and_false, or_false]
  rw [eq_comm]

theorem offTwap_ok : offTwap p o = .ok result ↔
    (p.maxTwapBps ≠ 0 → o.twapPrice18 ≠ 0 → twapUsd o < 2 ^ 256 ∧ Fits o.price18 (twapUsd o) p.maxTwapBps) ∧
      (result = true ↔ OffTwap p o) := by
  unfold offTwap OffTwap
  by_cases skipped : p.maxTwapBps = 0
  · rw [if_pos skipped, pure_ok]
    cases result <;> simp [skipped]
  · by_cases missing : o.twapPrice18 = 0
    · rw [if_neg skipped, if_pos missing, pure_ok]
      cases result <;> simp [skipped, missing]
    · rw [if_neg skipped, if_neg missing]
      simp only [bind_ok, mulDivUnit_ok, moved_ok]
      constructor
      · rintro ⟨_, ⟨wide, rfl⟩, fits, rfl⟩
        refine ⟨fun _ _ => ⟨wide, fits⟩, ?_⟩
        rw [decide_eq_true_iff]
        exact ⟨fun off => ⟨skipped, .inr off⟩, fun off => off.2.resolve_left missing⟩
      · rintro ⟨fits, same⟩
        refine ⟨_, ⟨(fits skipped missing).1, rfl⟩, (fits skipped missing).2, ?_⟩
        rw [Bool.eq_iff_iff, decide_eq_true_iff, same]
        exact ⟨fun off => off.2.resolve_left missing, fun off => ⟨skipped, .inr off⟩⟩

theorem offAnchor_ok : offAnchor p anchor o = .ok result ↔
    (anchor ≠ 0 → Fits o.price18 anchor p.maxMoveBps) ∧
      (result = true ↔ anchor = 0 ∨ StockOracle.moved o.price18 anchor p.maxMoveBps) := by
  unfold offAnchor
  by_cases first : anchor = 0
  · rw [if_pos first, pure_ok]
    cases result <;> simp [first]
  · rw [if_neg first, moved_ok, Bool.eq_iff_iff, decide_eq_true_iff]
    simp only [first, not_false_eq_true, ne_eq, forall_const, false_or]

/-- The verdict on the prices in unbounded arithmetic. -/
def priced (p : Params) (anchor : Nat) (o : Observation) : Status :=
  if StockOracle.moved o.quoteUsd18 (10 ^ 18) p.maxDepegBps then .divergent
  else if OffTwap p o then .divergent
  else if anchor = 0 ∨ StockOracle.moved o.price18 anchor p.maxMoveBps then .suspect
  else .live

theorem checks_ok {result : Status} :
    checks p anchor o = .ok result ↔ ChecksFit p anchor o ∧ result = priced p anchor o := by
  unfold checks priced ChecksFit
  simp only [bind_ok, moved_ok]
  by_cases depegged : StockOracle.moved o.quoteUsd18 (10 ^ 18) p.maxDepegBps
  · rw [if_pos depegged]
    constructor
    · rintro ⟨_, ⟨fits, rfl⟩, done⟩
      rw [if_pos (decide_eq_true depegged), pure_ok] at done
      exact ⟨⟨fits, absurd depegged⟩, done.symm⟩
    · rintro ⟨⟨fits, _⟩, rfl⟩
      refine ⟨_, ⟨fits, rfl⟩, ?_⟩
      rw [if_pos (decide_eq_true depegged), pure_ok]
  · rw [if_neg depegged]
    have same : ¬ decide (StockOracle.moved o.quoteUsd18 (10 ^ 18) p.maxDepegBps) = true := by
      rwa [decide_eq_true_iff]
    by_cases off : OffTwap p o
    · rw [if_pos off]
      constructor
      · rintro ⟨_, ⟨fits, rfl⟩, done⟩
        simp only [if_neg same, bind_ok, offTwap_ok] at done
        obtain ⟨found, ⟨average, found_iff⟩, done⟩ := done
        rw [if_pos (found_iff.mpr off), pure_ok] at done
        exact ⟨⟨fits, fun _ => ⟨average, absurd off⟩⟩, done.symm⟩
      · rintro ⟨⟨fits, rest⟩, rfl⟩
        refine ⟨_, ⟨fits, rfl⟩, ?_⟩
        simp only [if_neg same, bind_ok, offTwap_ok]
        refine ⟨true, ⟨(rest depegged).1, fun _ => off, fun _ => rfl⟩, ?_⟩
        rw [if_pos rfl, pure_ok]
    · rw [if_neg off]
      constructor
      · rintro ⟨_, ⟨fits, rfl⟩, done⟩
        simp only [if_neg same, bind_ok, offTwap_ok] at done
        obtain ⟨found, ⟨average, found_iff⟩, done⟩ := done
        rw [if_neg (fun yes => off (found_iff.mp yes))] at done
        simp only [bind_ok, offAnchor_ok, pure_ok] at done
        obtain ⟨jumped, ⟨last, jumped_iff⟩, rfl⟩ := done
        refine ⟨⟨fits, fun _ => ⟨average, fun _ => last⟩⟩, ?_⟩
        simp only [jumped_iff]
      · rintro ⟨⟨fits, rest⟩, rfl⟩
        refine ⟨_, ⟨fits, rfl⟩, ?_⟩
        simp only [if_neg same, bind_ok, offTwap_ok]
        refine ⟨false, ⟨(rest depegged).1, iff_of_false Bool.false_ne_true off⟩, ?_⟩
        rw [if_neg Bool.false_ne_true]
        simp only [bind_ok, offAnchor_ok, pure_ok]
        refine ⟨decide (anchor = 0 ∨ StockOracle.moved o.price18 anchor p.maxMoveBps),
          ⟨(rest depegged).2 off, decide_eq_true_iff⟩, ?_⟩
        simp only [decide_eq_true_iff]

theorem judge_ok {result : Status} : judge s now u checkAge o = .ok result ↔
    (¬ (checkAge = true ∧ (s.assets u).params.maxAge < now - o.observedAt) →
        now - o.sourceUpdatedAt ≤ (s.assets u).params.maxSourceAge →
          ChecksFit (s.assets u).params (s.anchor u).price18 o) ∧
      result = StockOracle.judge s now u checkAge o := by
  unfold judge StockOracle.judge
  by_cases old : checkAge = true ∧ (s.assets u).params.maxAge < now - o.observedAt
  · simp only [if_pos old, pure_ok]
    exact ⟨fun same => ⟨fun fresh => absurd old fresh, same.symm⟩, fun same => same.2.symm⟩
  · by_cases closed : (s.assets u).params.maxSourceAge < now - o.sourceUpdatedAt
    · simp only [if_neg old, if_pos closed, pure_ok]
      exact ⟨fun same => ⟨fun _ young => absurd closed (Nat.not_lt.mpr young), same.symm⟩, fun same => same.2.symm⟩
    · simp only [if_neg old, if_neg closed, checks_ok]
      constructor
      · rintro ⟨fits, same⟩
        exact ⟨fun _ _ => fits, same⟩
      · rintro ⟨fits, same⟩
        exact ⟨fits old (Nat.not_lt.mp closed), same⟩

/-- `_evaluate` answers as in unbounded arithmetic, where the products it comes to fit. -/
theorem evaluate_ok {result : Status × Option Observation} : evaluate s env u checkAge = .ok result ↔
    ((s.assets u).paused = false → ∀ o, read s env u = some o →
        ¬ (checkAge = true ∧ (s.assets u).params.maxAge < env.now - o.observedAt) →
        env.now - o.sourceUpdatedAt ≤ (s.assets u).params.maxSourceAge →
          ChecksFit (s.assets u).params (s.anchor u).price18 o) ∧
      result = StockOracle.evaluate s env u checkAge := by
  unfold evaluate StockOracle.evaluate
  by_cases stopped : (s.assets u).paused = true
  · simp only [if_pos stopped, pure_ok]
    constructor
    · rintro rfl
      exact ⟨fun running => absurd (running.symm.trans stopped) Bool.false_ne_true, rfl⟩
    · rintro ⟨_, rfl⟩
      rfl
  · simp only [if_neg stopped]
    cases found : read s env u with
    | none =>
      rw [pure_ok]
      constructor
      · rintro rfl
        exact ⟨fun _ o some_ => (by cases some_), rfl⟩
      · rintro ⟨_, rfl⟩
        rfl
    | some o =>
      simp only [bind_ok, judge_ok, pure_ok]
      constructor
      · rintro ⟨_, ⟨fits, rfl⟩, rfl⟩
        refine ⟨fun _ other same => ?_, rfl⟩
        cases same
        exact fits
      · rintro ⟨fits, rfl⟩
        exact ⟨_, ⟨fits (Bool.eq_false_iff.mpr stopped) o rfl, rfl⟩, rfl⟩

/-- A read that fails or is empty is never Live. -/
theorem unusable_reported (unusable : read s env (s.key asset) = none) :
    (verdict s env asset = .none ∨ verdict s env asset = .paused ∨ verdict s env asset = .stale) ∧
      StockOracle.priceUSD18 s env asset = (0, 0) := by
  unfold verdict StockOracle.priceUSD18
  by_cases unknown : (s.assets (s.key asset)).source = 0
  · simp only [if_pos unknown, true_or, and_self]
  · simp only [if_neg unknown, StockOracle.evaluate, unusable]
    by_cases stopped : (s.assets (s.key asset)).paused = true
    · simp only [if_pos stopped, true_or, or_true, and_self]
    · simp only [if_neg stopped, or_true, and_self]

theorem shown_ok (found : Status × Option Observation) {result : Nat × Nat} :
    (match found with
      | (.live, some o) => pure (o.price18, o.observedAt)
      | _ => pure (0, 0) : Tx (Nat × Nat)) = .ok result ↔
    result = match found with
      | (.live, some o) => (o.price18, o.observedAt)
      | _ => (0, 0) := by
  obtain ⟨status, seen⟩ := found
  cases status <;> cases seen <;> rw [pure_ok, eq_comm]

theorem priceUSD18_ok {result : Nat × Nat} : priceUSD18 s env asset = .ok result ↔
    Answers s env asset ∧ result = StockOracle.priceUSD18 s env asset := by
  unfold priceUSD18 StockOracle.priceUSD18 Answers
  by_cases unknown : (s.assets (s.key asset)).source = 0
  · simp only [if_pos unknown, pure_ok]
    exact ⟨fun same => ⟨fun listed => absurd unknown listed, same.symm⟩, fun same => same.2.symm⟩
  · simp only [if_neg unknown, bind_ok, evaluate_ok]
    constructor
    · rintro ⟨found, ⟨fits, rfl⟩, done⟩
      refine ⟨fun _ running o usable young => fits running o usable (fun aged => by cases aged.1) young, ?_⟩
      exact (shown_ok _).mp done
    · rintro ⟨fits, rfl⟩
      refine ⟨_, ⟨fun running o usable _ young => fits unknown running o usable young, rfl⟩, ?_⟩
      exact (shown_ok _).mpr rfl

theorem status_ok (answers : Answers s env asset) : status s env asset = .ok (verdict s env asset) := by
  unfold status verdict
  by_cases unknown : (s.assets (s.key asset)).source = 0
  · simp only [if_pos unknown, pure_ok]
  · simp only [if_neg unknown, bind_ok, evaluate_ok, pure_ok]
    exact ⟨_, ⟨fun running o usable _ young => answers unknown running o usable young, rfl⟩, rfl⟩

/-- For every state, time and observation: both views return, with the verdict of unbounded arithmetic and nothing but
none, paused or stale for an unusable read, exactly where the products that the checks come to fit. -/
theorem views_answer (s : State) (env : Env) (asset : Address) :
    (status s env asset = .ok (verdict s env asset) ∧
        priceUSD18 s env asset = .ok (StockOracle.priceUSD18 s env asset) ∧
        (read s env (s.key asset) = none →
          (verdict s env asset = .none ∨ verdict s env asset = .paused ∨ verdict s env asset = .stale) ∧
            StockOracle.priceUSD18 s env asset = (0, 0))) ↔
      Answers s env asset := by
  constructor
  · rintro ⟨_, answered, _⟩
    exact (priceUSD18_ok.mp answered).1
  · intro answers
    exact ⟨status_ok answers, priceUSD18_ok.mpr ⟨answers, rfl⟩, unusable_reported⟩

/-- A feed's round that answers `2 ^ 250` with 18 decimals. -/
def hugeRound : Round := ⟨1, 2 ^ 250, 100, 100, 1⟩

/-- The source of the listed asset reports that answer for the settlement stable. -/
def hugeQuote : Env := ⟨1, 200, fun _ => true, fun _ _ => some ⟨100, 2 ^ 250, 0, 200, 200⟩⟩

set_option maxRecDepth 4000 in
/-- The read passes every check of the feed, and both views of the listed asset revert. -/
theorem views_revert : feedRead hugeRound 18 86400 200 = .ok ⟨2 ^ 250, 100, 1⟩ ∧
    ¬ ∀ (c : Config) past s, Calls c past s → ∀ env asset,
      (∃ answer, status s env asset = .ok answer) ∧ ∃ answer, priceUSD18 s env asset = .ok answer := by
  refine ⟨rfl, fun claimed => ?_⟩
  have listed := History.snoc (.nil : Calls sample [] deployed) listing
    (show step sample _ _ = .ok _ from rfl)
  obtain ⟨⟨answer, answered⟩, _⟩ := claimed sample _ _ listed hugeQuote 7
  cases answered

end Solonpad.OracleViews
