import Solonpad.Chain
import Solonpad.Histories

/-!
`SolonStockOracle.sol`: the accepted price of a stock and how observations move it. A source's answer
is part of a call's environment; its round, block and multiplier, which only events and a view
report, are left out, and so is the list of underlyings. A stored price keeps 128 bits of what was
observed. Products that leave 256 bits revert on chain and are not refused here.
-/

namespace Solonpad.StockOracle

open Checked
open Chain (Address)

inductive OracleError where
  | notOwner | notGuardian | badParams | unknownAsset | priceNotLive | required
  deriving DecidableEq, Repr

abbrev Tx (α : Type) := Checked.Tx OracleError α

inductive Status where
  | none | live | stale | divergent | suspect | paused
  deriving DecidableEq, Repr

structure Params where
  maxAge : Nat
  maxMoveBps : Nat
  confirmBps : Nat
  maxDepegBps : Nat
  maxSourceAge : Nat
  /-- 0 is no cross-check. -/
  maxTwapBps : Nat
  deriving DecidableEq

structure Asset where
  token : Address
  source : Address
  params : Params
  paused : Bool

structure Quote where
  price18 : Nat
  sourceUpdatedAt : Nat
  updatedAt : Nat
  deriving DecidableEq

structure Observation where
  price18 : Nat
  quoteUsd18 : Nat
  twapPrice18 : Nat
  sourceUpdatedAt : Nat
  observedAt : Nat
  deriving DecidableEq

structure State where
  assets : Address → Asset
  underlyingOf : Address → Address
  anchor : Address → Quote
  candidate : Address → Quote

structure Config where
  owner : Address
  guardian : Address

/-- `observe` is what a source answers for an underlying, none where the read fails. -/
structure Env where
  sender : Address
  now : Nat
  hasCode : Address → Bool
  observe : Address → Address → Option Observation

def maxAgeLimit : Nat := 7 * 86400
def maxMoveLimit : Nat := 5000
def maxDepegLimit : Nat := 1000

def Quote.zero : Quote := ⟨0, 0, 0⟩

def deployed : State where
  assets := fun _ => ⟨0, 0, ⟨0, 0, 0, 0, 0, 0⟩, false⟩
  underlyingOf := fun _ => 0
  anchor := fun _ => .zero
  candidate := fun _ => .zero

variable (c : Config)

/-- `_moved`: `|a - ref| > ref * bps / 10000`, without rounding in `a`'s favour. -/
def moved (a ref bps : Nat) : Prop :=
  ref * bps < (if ref < a then a - ref else ref - a) * 10000

instance (a ref bps : Nat) : Decidable (moved a ref bps) := inferInstanceAs (Decidable (_ < _))

/-- `_validate`. -/
def Params.valid (p : Params) : Prop :=
  ¬ (p.maxAge = 0 ∨ maxAgeLimit < p.maxAge ∨ p.maxMoveBps = 0 ∨ maxMoveLimit < p.maxMoveBps ∨
    p.maxMoveBps < p.confirmBps ∨ maxDepegLimit < p.maxDepegBps ∨ p.maxSourceAge = 0 ∨
    maxAgeLimit < p.maxSourceAge ∨ maxMoveLimit < p.maxTwapBps)

instance (p : Params) : Decidable p.valid := inferInstanceAs (Decidable (¬ _))

/-- What `tighten` refuses to loosen. -/
def Params.loosens (p old : Params) : Prop :=
  old.maxAge < p.maxAge ∨ old.maxMoveBps < p.maxMoveBps ∨ old.confirmBps < p.confirmBps ∨
    old.maxDepegBps < p.maxDepegBps ∨ old.maxSourceAge < p.maxSourceAge ∨ old.maxTwapBps < p.maxTwapBps ∨
    old.maxTwapBps ≠ 0 ∧ p.maxTwapBps = 0

instance (p old : Params) : Decidable (p.loosens old) := inferInstanceAs (Decidable (_ ∨ _))

def State.setAsset (s : State) (u : Address) (a : Asset) : State :=
  { s with assets := Function.update s.assets u a }

theorem setAsset_same (s : State) (u : Address) (a : Asset) : (s.setAsset u a).assets u = a :=
  Function.update_self ..

theorem setAsset_other (s : State) {u v : Address} (a : Asset) (apart : v ≠ u) :
    (s.setAsset u a).assets v = s.assets v :=
  Function.update_of_ne apart ..

/-- `_key`. -/
def State.key (s : State) (asset : Address) : Address :=
  if s.underlyingOf asset = 0 then asset else s.underlyingOf asset

/-- `_known`. -/
def known (s : State) (asset : Address) : Tx Address := do
  require ((s.assets (s.key asset)).source ≠ 0) .unknownAsset
  pure (s.key asset)

/-! Governance. -/

def configureAsset (s : State) (env : Env) (underlying token source : Address) (p : Params) :
    Tx State := do
  require (env.sender = c.owner) .notOwner
  require p.valid .badParams
  require (underlying ≠ 0 ∧ env.hasCode token = true ∧ env.hasCode source = true) .badParams
  let a := s.assets underlying
  require (if a.token = 0 then s.underlyingOf token = 0 else a.token = token) .badParams
  let s := if a.token = 0 then
      { s with underlyingOf := Function.update s.underlyingOf token underlying }
    else s
  let s := if a.source ≠ source then
      { s with
        anchor := Function.update s.anchor underlying .zero
        candidate := Function.update s.candidate underlying .zero }
    else s
  pure (s.setAsset underlying { a with token := token, source := source, params := p })

def tighten (s : State) (env : Env) (asset : Address) (p : Params) : Tx State := do
  require (env.sender = c.guardian ∨ env.sender = c.owner) .notGuardian
  let u ← known s asset
  require p.valid .badParams
  require (¬ p.loosens (s.assets u).params) .badParams
  pure (s.setAsset u { s.assets u with params := p })

def pause (s : State) (env : Env) (asset : Address) : Tx State := do
  require (env.sender = c.guardian ∨ env.sender = c.owner) .notGuardian
  let u ← known s asset
  pure (s.setAsset u { s.assets u with paused := true })

def resume (s : State) (env : Env) (asset : Address) : Tx State := do
  require (env.sender = c.owner) .notOwner
  let u ← known s asset
  pure (s.setAsset u { s.assets u with paused := false })

/-! Observation. -/

/-- A usable read of the source, none where it fails or is empty. -/
def read (s : State) (env : Env) (u : Address) : Option Observation :=
  (env.observe (s.assets u).source u).filter fun o => decide (o.price18 ≠ 0 ∧ o.observedAt ≠ 0)

/-- The checks of `_evaluate` on a usable read. -/
def judge (s : State) (now : Nat) (u : Address) (checkAge : Bool) (o : Observation) : Status :=
  let p := (s.assets u).params
  if checkAge = true ∧ p.maxAge < now - o.observedAt then .stale
  else if p.maxSourceAge < now - o.sourceUpdatedAt then .stale
  else if moved o.quoteUsd18 (10 ^ 18) p.maxDepegBps then .divergent
  else if p.maxTwapBps ≠ 0 ∧ (o.twapPrice18 = 0 ∨
      moved o.price18 (o.twapPrice18 * o.quoteUsd18 / 10 ^ 18) p.maxTwapBps) then .divergent
  else if (s.anchor u).price18 = 0 ∨ moved o.price18 (s.anchor u).price18 p.maxMoveBps then .suspect
  else .live

/-- `_evaluate`. -/
def evaluate (s : State) (env : Env) (u : Address) (checkAge : Bool) : Status × Option Observation :=
  let o := read s env u
  if (s.assets u).paused = true then (.paused, o)
  else match o with
    | some o => (judge s env.now u checkAge o, some o)
    | none => (.stale, none)

/-- A stored price is cut to 128 bits. -/
def Observation.quote (o : Observation) : Quote :=
  ⟨o.price18 % 2 ^ 128, o.sourceUpdatedAt, o.observedAt⟩

/-- `_accept`. -/
def accept (s : State) (u : Address) (o : Observation) : State :=
  { s with
    anchor := Function.update s.anchor u o.quote
    candidate := Function.update s.candidate u .zero }

/-- An observation within the allowed move of the accepted price, or the first one. -/
def State.follows (s : State) (u : Address) (o : Observation) : Prop :=
  (s.anchor u).price18 = 0 ∨ ¬ moved o.price18 (s.anchor u).price18 (s.assets u).params.maxMoveBps

/-- A later observation that agrees with the candidate. -/
def State.confirms (s : State) (u : Address) (o : Observation) : Prop :=
  (s.candidate u).price18 ≠ 0 ∧ (s.candidate u).sourceUpdatedAt < o.sourceUpdatedAt ∧
    ¬ moved o.price18 (s.candidate u).price18 (s.assets u).params.confirmBps

instance (s : State) (u : Address) (o : Observation) : Decidable (s.follows u o) :=
  inferInstanceAs (Decidable (_ ∨ _))

instance (s : State) (u : Address) (o : Observation) : Decidable (s.confirms u o) :=
  inferInstanceAs (Decidable (_ ∧ _))

/-- What `poke` does with an observation that is Live or Suspect. -/
def observed (s : State) (u : Address) (o : Observation) : State :=
  if s.follows u o ∨ s.confirms u o then accept s u o
  else { s with candidate := Function.update s.candidate u o.quote }

def poke (s : State) (env : Env) (asset : Address) : Tx State := do
  let u ← known s asset
  match evaluate s env u true with
  | (status, some o) => pure (if status = .live ∨ status = .suspect then observed s u o else s)
  | (_, none) => pure s

/-! Reads. -/

def execPrice (s : State) (env : Env) (asset : Address) : Tx (Nat × Nat) := do
  let u ← known s asset
  match evaluate s env u true with
  | (.live, some o) => pure (o.price18, o.observedAt)
  | _ => throw (.revert .priceNotLive)

def priceUSD18 (s : State) (env : Env) (asset : Address) : Nat × Nat :=
  let u := s.key asset
  if (s.assets u).source = 0 then (0, 0)
  else match evaluate s env u false with
    | (.live, some o) => (o.price18, o.observedAt)
    | _ => (0, 0)

/-! Steps. -/

inductive Action where
  | configureAsset (underlying token source : Address) (p : Params)
  | tighten (asset : Address) (p : Params)
  | pause (asset : Address)
  | resume (asset : Address)
  | poke (asset : Address)

structure Step where
  env : Env
  action : Action

def step (s : State) (t : Step) : Tx State :=
  match t.action with
  | .configureAsset underlying token source p => configureAsset c s t.env underlying token source p
  | .tighten asset p => tighten c s t.env asset p
  | .pause asset => pause c s t.env asset
  | .resume asset => resume c s t.env asset
  | .poke asset => poke s t.env asset

end Solonpad.StockOracle
