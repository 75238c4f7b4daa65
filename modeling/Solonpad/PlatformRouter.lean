import Solonpad.Chain
import Solonpad.LockedCalls

/-!
`V2PlatformRouter.sol`: platform fees by lots. Half of a kind 1 lot goes to stock, half to the
buyback, or to the burn where it is the fee token itself; raw tokens wait for a converter, which may
take a lot in slices. A conversion is open while the converter answers. Ids are what they hash, so a
later slice is told from a lot. What was halved and converted is kept for the proofs.
-/

namespace Solonpad.PlatformRouter

open Checked LockedCalls
open Chain (Address)

inductive RouterError where
  | required
  deriving DecidableEq, Repr

abbrev Tx (α : Type) := Checked.Tx RouterError α

/-- `state`, 0 to 4. -/
inductive Status where
  | none | funded | routed | converting | done
  deriving DecidableEq, Repr

structure Pending where
  token : Address
  raw : Nat
  kind : Nat
  deriving DecidableEq

/-- `nextConversionId`. -/
inductive ConversionId where
  | lot (id : Nat)
  | slice (id count : Nat)
  deriving DecidableEq

structure Config where
  solon : Address
  governance : Address
  ingress : Address

structure Book where
  converter : Address
  state : Nat → Status
  pending : Nat → Pending
  rawLiability : Address → Nat
  conversionCount : Nat → Nat
  conversionParent : ConversionId → Nat
  halfRemainder : Address → Nat
  assetConverter : Address → Address
  registeredConverter : Address → Bool
  converterActivation : Address × Address → Nat
  /-- The native balance. -/
  balance : Nat
  /-- The balance of each token. -/
  held : Address → Nat
  /-- The amounts of each asset that were halved, and what its stock half got of them. -/
  halved : Address → List Nat
  stock : Address → Nat
  conversions : List ConversionId

def deployed (balance : Nat) (held : Address → Nat) : Book where
  converter := 0
  state := fun _ => .none
  pending := fun _ => ⟨0, 0, 0⟩
  rawLiability := fun _ => 0
  conversionCount := fun _ => 0
  conversionParent := fun _ => 0
  halfRemainder := fun _ => 0
  assetConverter := fun _ => 0
  registeredConverter := fun _ => false
  converterActivation := fun _ => 0
  balance := balance
  held := held
  halved := fun _ => []
  stock := fun _ => 0
  conversions := []

variable (c : Config)

/-! Converters. -/

def receive (b : Book) (sender : Address) (value : Nat) : Tx Book := do
  require (sender = b.converter ∨ b.registeredConverter sender = true) .required
  pure { b with balance := b.balance + value }

def setConverter (b : Book) (sender converter : Address) (hasCode : Bool) : Tx Book := do
  require (sender = c.governance ∧ b.converter = 0 ∧ hasCode = true) .required
  pure { b with converter := converter }

/-- `_checkConverter`; `bound` says that the converter is code, bound to this router and to the token. -/
def checkConverter (b : Book) (token : Address) (bound : Bool) : Tx Unit :=
  require (bound = true ∧ b.assetConverter token = 0) .required

def scheduleAssetConverter (b : Book) (sender : Address) (now : Nat) (token converter : Address)
    (bound : Bool) : Tx Book := do
  require (sender = c.governance) .required
  checkConverter b token bound
  pure { b with
    converterActivation := Function.update b.converterActivation (token, converter) (now + 48 * 3600) }

def activateAssetConverter (b : Book) (now : Nat) (token converter : Address) (bound : Bool) : Tx Book := do
  let at_ := b.converterActivation (token, converter)
  require (at_ ≠ 0 ∧ at_ ≤ now) .required
  checkConverter b token bound
  pure { b with
    converterActivation := Function.update b.converterActivation (token, converter) 0
    assetConverter := Function.update b.assetConverter token converter
    registeredConverter := Function.update b.registeredConverter converter true }

/-! Lots. -/

/-- What `_stockHalf` gives to stock. -/
def stockShare (b : Book) (asset : Address) (amount : Nat) : Nat :=
  amount / 2 + (amount % 2 + b.halfRemainder asset) / 2

/-- `_stockHalf`. -/
def stockHalf (b : Book) (asset : Address) (amount : Nat) : Book :=
  { b with
    halfRemainder := Function.update b.halfRemainder asset ((amount % 2 + b.halfRemainder asset) % 2)
    halved := Function.update b.halved asset (b.halved asset ++ [amount])
    stock := Function.update b.stock asset (b.stock asset + stockShare b asset amount) }

/-- `_nativePolicy`: all of the amount is sent on, the shares of a kind 1 lot each where not zero. -/
def nativePolicy (b : Book) (kind amount : Nat) (accepted : Bool) : Tx Book := do
  let b := if kind = 1 then stockHalf b 0 amount else b
  require (accepted = true) .required
  let balance ← sub b.balance amount
  pure { b with balance := balance }

/-- `accepted` says that the budgets take what they are sent. -/
def onFunded (b : Book) (sender : Address) (id kind : Nat) (token : Address) (amount value : Nat)
    (accepted : Bool) : Tx Book := do
  require (sender = c.ingress ∧ b.state id = .none ∧ amount ≠ 0 ∧ (kind = 1 ∨ kind = 2)) .required
  let b := { b with balance := b.balance + value }
  if token = 0 then do
    require (amount = value) .required
    nativePolicy { b with state := Function.update b.state id .done } kind amount accepted
  else do
    require (value = 0 ∧ (kind = 1 → token = c.solon)) .required
    require (b.rawLiability token + amount ≤ b.held token) .required
    pure { b with
      rawLiability := Function.update b.rawLiability token (b.rawLiability token + amount)
      state := Function.update b.state id .funded
      pending := Function.update b.pending id ⟨token, amount, kind⟩ }

/-- What the token answers to a burn: the router's balance after it, and whether the sink got all. -/
structure Burn where
  heldAfter : Nat
  sunk : Bool

def routeLot (b : Book) (id : Nat) (burned : Burn) : Tx Book := do
  require (b.state id = .funded) .required
  let p := b.pending id
  if p.kind = 1 then do
    let stock := stockShare b p.token p.raw
    let b := stockHalf b p.token p.raw
    let burn ← sub p.raw stock
    let liability ← sub (b.rawLiability p.token) burn
    let expected ← sub (b.held p.token) burn
    require (burned.heldAfter = expected ∧ burned.sunk = true) .required
    pure { b with
      pending := Function.update b.pending id { p with raw := stock }
      rawLiability := Function.update b.rawLiability p.token liability
      held := Function.update b.held p.token burned.heldAfter
      state := Function.update b.state id (if stock = 0 then .done else .routed) }
  else pure { b with state := Function.update b.state id .routed }

/-! Conversions. -/

def nextConversionId (b : Book) (id : Nat) : ConversionId :=
  if b.conversionCount id = 0 then .lot id else .slice id (b.conversionCount id)

structure Conversion where
  id : Nat
  raw : Nat
  slice : ConversionId
  beforeRaw : Nat
  beforeNative : Nat

/-- `_convertLot` up to the converter's call; the call without an amount converts all of the lot. -/
def convertLot (b : Book) (id : Nat) (amount : Option Nat) : Tx (Book × Conversion) := do
  let p := b.pending id
  let raw := amount.getD p.raw
  require (b.state id = .routed) .required
  let selected := if b.assetConverter p.token = 0 then b.converter else b.assetConverter p.token
  require (selected ≠ 0) .required
  require (raw ≠ 0 ∧ raw ≤ p.raw) .required
  let slice := nextConversionId b id
  pure ({ b with
    state := Function.update b.state id .converting
    conversionCount := Function.update b.conversionCount id (b.conversionCount id + 1)
    conversionParent := Function.update b.conversionParent slice id
    conversions := b.conversions ++ [slice] }, ⟨id, raw, slice, b.held p.token, b.balance⟩)

/-- What the converter answers: the coin it reports, what it pulled, and whether the budget takes it. -/
structure Answer where
  actual : Nat
  pulled : Nat
  accepted : Bool

/-- `_convertLot` from the converter's answer on. -/
def conclude (b : Book) (f : Conversion) (a : Answer) : Tx Book := do
  let p := b.pending f.id
  let held ← sub (b.held p.token) a.pulled
  let expected ← sub f.beforeRaw f.raw
  require (a.actual ≠ 0 ∧ b.balance = f.beforeNative + a.actual ∧ held = expected) .required
  let liability ← sub (b.rawLiability p.token) f.raw
  let raw ← sub p.raw f.raw
  require (a.accepted = true) .required
  let balance ← sub b.balance a.actual
  pure { b with
    held := Function.update b.held p.token held
    rawLiability := Function.update b.rawLiability p.token liability
    pending := Function.update b.pending f.id { p with raw := raw }
    state := Function.update b.state f.id (if raw = 0 then .done else .routed)
    balance := balance }

/-! Calls. -/

inductive Free where
  | receive (sender : Address) (value : Nat)
  | setConverter (sender converter : Address) (hasCode : Bool)
  | scheduleAssetConverter (sender : Address) (now : Nat) (token converter : Address) (bound : Bool)
  | activateAssetConverter (now : Nat) (token converter : Address) (bound : Bool)
  /-- Coin and tokens that arrive without a call. -/
  | forced (value : Nat)
  | donated (token : Address) (amount : Nat)

def free (b : Book) : Free → Tx Book
  | .receive sender value => receive b sender value
  | .setConverter sender converter hasCode => setConverter c b sender converter hasCode
  | .scheduleAssetConverter sender now token converter bound =>
    scheduleAssetConverter c b sender now token converter bound
  | .activateAssetConverter now token converter bound => activateAssetConverter b now token converter bound
  | .forced value => .ok { b with balance := b.balance + value }
  | .donated token amount =>
    .ok { b with held := Function.update b.held token (b.held token + amount) }

inductive Whole where
  | onFunded (sender : Address) (id kind : Nat) (token : Address) (amount value : Nat) (accepted : Bool)
  | routeLot (id : Nat) (burned : Burn)

def whole (b : Book) : Whole → Tx Book
  | .onFunded sender id kind token amount value accepted =>
    onFunded c b sender id kind token amount value accepted
  | .routeLot id burned => routeLot b id burned

structure Convert where
  id : Nat
  amount : Option Nat

def contract : Contract RouterError Book Conversion Free Whole Convert Answer where
  free := free c
  whole := whole c
  enter b call := convertLot b call.id call.amount
  leave := conclude

end Solonpad.PlatformRouter
