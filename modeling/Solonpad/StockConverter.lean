import Solonpad.Chain
import Solonpad.Transition

/-!
`StockFeeConverter.sol`: lots of fee stock that signed orders sell through one route, and what the
sales bring by lot. Ids are what they hash, and `word` is the number a hash is compared by. The route
sells and pays without letting anyone in; fees deposited and a pause reviewed while another call waits
leave what they leave after it. What was paid, reserved and routed is kept for the proofs.
-/

namespace Solonpad.StockConverter

open Checked
open Chain (Address)

inductive ConverterError where
  | required | oracleFloor
  deriving DecidableEq, Repr

abbrev Tx (α : Type) := Checked.Tx ConverterError α

inductive LotId where
  | reserved (pool feeLot bucket : Nat) (quote : Address)
  | slice (parent : LotId) (nonce : Nat)
  deriving DecidableEq

abbrev OrderId := Nat

/-- A lot's `state`, 0 to 6; 2 is only seen while an order is submitted. -/
inductive LotState where
  | none | idle | submitting | ordered | sold | routed | waiting
  deriving DecidableEq, Repr

/-- An order's `state`: 0 and 3 to 7. -/
inductive OrderState where
  | none | submitted | sold | routed | waiting | failed
  deriving DecidableEq, Repr

structure Lot where
  asset : Address
  bucket : Nat
  state : LotState
  raw : Nat
  proceeds : Nat

structure Order where
  asset : Address
  state : OrderState
  raw : Nat
  minUSDC18 : Nat
  actualUSDC18 : Nat

structure Quote where
  orderId : OrderId
  asset : Address
  slices : List LotId
  raw : Nat
  minUSDC18 : Nat
  value18 : Nat
  issuedAt : Nat
  deadline : Nat
  nonce : Nat
  fees18 : Nat

structure State where
  lots : LotId → Lot
  routePaused : Bool
  outstandingShortfalls : Nat
  resumeAfter : Nat
  recoveryReview : Nat
  finalResult : OrderId → Bool
  orders : OrderId → Order
  slices : OrderId → List LotId
  feeBalance : OrderId → Nat
  nonceUsed : Nat → Bool
  subsidies : OrderId → Nat
  splitNonce : LotId → Nat
  parentLot : LotId → Option LotId
  /-- The native balance. -/
  balance : Nat
  /-- What the route paid for an order, the raw ever reserved, and the lots whose proceeds were paid on. -/
  paidFor : OrderId → Nat
  reservedRaw : Nat
  paidLots : List LotId

structure Config where
  signer : Address
  sellRoute : Address
  ops : Address
  governance : Address
  feeBps : Nat
  word : LotId → Nat
  injective : Function.Injective word

def Lot.blank : Lot := ⟨0, 0, .none, 0, 0⟩

def Order.blank : Order := ⟨0, .none, 0, 0, 0⟩

def deployed (balance : Nat) : State where
  lots := fun _ => .blank
  routePaused := false
  outstandingShortfalls := 0
  resumeAfter := 0
  recoveryReview := 0
  finalResult := fun _ => false
  orders := fun _ => .blank
  slices := fun _ => []
  feeBalance := fun _ => 0
  nonceUsed := fun _ => false
  subsidies := fun _ => 0
  splitNonce := fun _ => 0
  parentLot := fun _ => none
  balance := balance
  paidFor := fun _ => 0
  reservedRaw := 0
  paidLots := []

def oracleFloorBps : Nat := 100

/-- `Math.mulDiv` rounding up. -/
def mulDivUp (a b d : Nat) : Nat := (a * b + (d - 1)) / d

variable (c : Config)

/-- A loop over some lots, each rewritten. -/
def State.setLots (s : State) (ids : List LotId) (rewrite : LotId → Lot → Lot) : State :=
  { s with lots := fun id => if id ∈ ids then rewrite id (s.lots id) else s.lots id }

def State.setLotStates (s : State) (ids : List LotId) (state : LotState) : State :=
  s.setLots ids fun _ l => { l with state := state }

def State.setOrder (s : State) (id : OrderId) (o : Order) : State :=
  { s with orders := Function.update s.orders id o }

/-! Lots. -/

/-- What the ledger answers: whether the pool pays this contract in stock lots, its quote, and the raw
claimed and received. -/
structure Claim where
  served : Bool
  quote : Address
  raw : Nat
  received : Nat

def reserve (s : State) (pool feeLot bucket : Nat) (answer : Claim) : Tx State := do
  require (bucket = 4 ∨ bucket = 5) .required
  require (answer.served = true) .required
  let id := LotId.reserved pool feeLot bucket answer.quote
  require ((s.lots id).state = .none) .required
  require (answer.raw ≠ 0 ∧ answer.received = answer.raw) .required
  pure { s with
    lots := Function.update s.lots id ⟨answer.quote, bucket, .idle, answer.raw, 0⟩
    reservedRaw := s.reservedRaw + answer.raw }

def splitLot (s : State) (sender : Address) (id : LotId) (raw : Nat) : Tx State := do
  require (sender = c.signer ∨ sender = c.ops) .required
  let l := s.lots id
  require (l.state = .idle ∧ 0 < raw ∧ raw < l.raw) .required
  let nonce := s.splitNonce id + 1
  let child := LotId.slice id nonce
  require ((s.lots child).state = .none) .required
  let left ← sub l.raw raw
  let lots := Function.update s.lots id { l with raw := left }
  pure { s with
    splitNonce := Function.update s.splitNonce id nonce
    lots := Function.update lots child ⟨l.asset, l.bucket, .idle, raw, 0⟩
    parentLot := Function.update s.parentLot child (some id) }

/-! Orders. -/

def receive (s : State) (sender : Address) (value : Nat) : Tx State := do
  require (sender = c.sellRoute) .required
  pure { s with balance := s.balance + value }

def depositFees (s : State) (id : OrderId) (value : Nat) : Tx State := do
  require ((s.orders id).state = .none) .required
  pure { s with
    feeBalance := Function.update s.feeBalance id (s.feeBalance id + value)
    balance := s.balance + value }

/-- The time, what the oracle and the route answer, whether the signer signed the quote and whether the
route takes exactly the order's raw. -/
structure Market where
  now : Nat
  runLimit : Nat
  usd : Nat
  signed : Bool
  requested : Bool

/-- The ids of an order are in rising order. -/
def Rising : List LotId → Prop
  | first :: second :: rest => c.word first < c.word second ∧ Rising (second :: rest)
  | _ => True

instance rising_decidable : (ids : List LotId) → Decidable (Rising c ids)
  | [] => .isTrue trivial
  | [_] => .isTrue trivial
  | first :: second :: rest =>
    @instDecidableAnd _ _ (Nat.decLt (c.word first) (c.word second)) (rising_decidable (second :: rest))

def submit (s : State) (q : Quote) (m : Market) : Tx State := do
  require (s.routePaused = false ∧ q.orderId ≠ 0 ∧ (s.orders q.orderId).state = .none ∧
    0 < q.slices.length ∧ q.slices.length ≤ 16) .required
  require (0 < q.raw ∧ 0 < q.minUSDC18 ∧ 0 < q.value18 ∧ q.value18 ≤ m.runLimit) .required
  require (q.issuedAt ≤ m.now ∧ m.now ≤ q.deadline ∧ q.issuedAt ≤ q.deadline ∧
    q.deadline - q.issuedAt ≤ 60) .required
  require (s.nonceUsed q.nonce = false ∧ q.fees18 ≤ s.feeBalance q.orderId ∧ m.signed = true) .required
  require (mulDivUp q.value18 ((10000 - c.feeBps) * 9900) 100000000 ≤ q.minUSDC18) .required
  require (mulDivUp m.usd (10000 - oracleFloorBps) 10000 ≤ q.value18) .oracleFloor
  require (Rising c q.slices ∧
    ∀ id ∈ q.slices, (s.lots id).state = .idle ∧ (s.lots id).asset = q.asset) .required
  require ((q.slices.map fun id => (s.lots id).raw).sum = q.raw) .required
  let fees ← sub (s.feeBalance q.orderId) q.fees18
  let balance ← sub s.balance q.fees18
  require (m.requested = true) .required
  pure (State.setLotStates { s with
    nonceUsed := Function.update s.nonceUsed q.nonce true
    feeBalance := Function.update s.feeBalance q.orderId fees
    slices := Function.update s.slices q.orderId (s.slices q.orderId ++ q.slices)
    orders := Function.update s.orders q.orderId ⟨q.asset, .submitted, q.raw, q.minUSDC18, 0⟩
    balance := balance } q.slices .ordered)

/-! `_allocate`. -/

/-- The first position with the largest remainder, given the best so far. -/
def winnerFrom (best value : Nat) : Nat → List Nat → Nat
  | _, [] => best
  | i, rem :: rest => if value < rem then winnerFrom i rem (i + 1) rest else winnerFrom best value (i + 1) rest

def winner (rems : List Nat) : Nat :=
  match rems with
  | [] => 0
  | rem :: rest => winnerFrom 0 rem 1 rest

/-- One unit to the winner of each of so many rounds. -/
def award : Nat → List Nat → List Nat → List Nat
  | 0, proceeds, _ => proceeds
  | left + 1, proceeds, rems =>
    let i := winner rems
    award left (proceeds.modify i (· + 1)) (rems.set i 0)

/-- What each lot of an order gets of what was paid. -/
def shares (s : State) (ids : List LotId) (paid total : Nat) : Tx (List Nat) := do
  let floors := ids.map fun id => paid * (s.lots id).raw / total
  let left ← sub paid floors.sum
  pure (award left floors (ids.map fun id => paid * (s.lots id).raw % total))

def allocate (s : State) (id : OrderId) (paid : Nat) : Tx State := do
  let ids := s.slices id
  require ((s.orders id).raw ≠ 0) .required
  let parts ← shares s ids paid (s.orders id).raw
  pure (s.setLots ids fun lot l => { l with proceeds := parts.getD (ids.idxOf lot) 0, state := .sold })

/-- What has to be sold for, before the hub's fee and in whole units of 6 decimals, to be paid `n`. -/
def grossFloor (feeBps n : Nat) : Nat :=
  (mulDivUp n 10000 (10000 - feeBps) + (10 ^ 12 - 1)) / 10 ^ 12 * 10 ^ 12

/-! Results. -/

/-- What the route's claim answers and brings. -/
structure Result where
  status : Nat
  paid : Nat
  reminted : Nat
  received : Nat
  rawReceived : Nat

def applyResult (s : State) (id : OrderId) (r : Result) : Tx State := do
  let o := s.orders id
  require ((o.state = .submitted ∨ o.state = .waiting) ∧ s.finalResult id = false) .required
  require (r.received = r.paid ∧ r.rawReceived = r.reminted) .required
  let s := { s with balance := s.balance + r.received }
  if r.status = 0 then do
    require (r.paid = 0 ∧ r.reminted = 0) .required
    pure ((s.setOrder id { o with state := .waiting }).setLotStates (s.slices id) .waiting)
  else if r.status = 2 then do
    require (r.paid = 0 ∧ r.reminted = o.raw) .required
    pure (State.setLotStates { s.setOrder id { o with state := .failed } with
      finalResult := Function.update s.finalResult id true } (s.slices id) .idle)
  else do
    require (r.status = 1 ∧ r.reminted = 0) .required
    let s := { s with
      finalResult := Function.update s.finalResult id true
      paidFor := Function.update s.paidFor id r.paid }
    if r.paid < o.minUSDC18 then
      pure (State.setLotStates { s.setOrder id { o with state := .waiting, actualUSDC18 := r.paid } with
        routePaused := true
        outstandingShortfalls := s.outstandingShortfalls + 1
        resumeAfter := 0
        recoveryReview := 0 } (s.slices id) .waiting)
    else allocate (s.setOrder id { o with state := .sold, actualUSDC18 := r.paid }) id r.paid

/-- `accepted` says that every destination takes what it is sent. -/
def route (s : State) (id : OrderId) (accepted : Bool) : Tx State := do
  require ((s.orders id).state = .sold) .required
  let ids := s.slices id
  require (accepted = true) .required
  let balance ← sub s.balance (ids.map fun lot => (s.lots lot).proceeds).sum
  pure (State.setLotStates { s.setOrder id { s.orders id with state := .routed } with
    balance := balance
    paidLots := s.paidLots ++ ids.filter fun lot => (s.lots lot).proceeds ≠ 0 } ids .routed)

def subsidizeShortfall (s : State) (sender : Address) (id : OrderId) (value : Nat) : Tx State := do
  let o := s.orders id
  require (sender = c.ops ∧ value ≠ 0 ∧ s.finalResult id = true ∧ o.state = .waiting ∧
    o.actualUSDC18 < o.minUSDC18) .required
  let actual := o.actualUSDC18 + value
  let s := { s with
    balance := s.balance + value
    subsidies := Function.update s.subsidies id (s.subsidies id + value) }
  if o.minUSDC18 ≤ actual then do
    let outstanding ← sub s.outstandingShortfalls 1
    allocate { s.setOrder id { o with state := .sold, actualUSDC18 := actual } with
      outstandingShortfalls := outstanding } id actual
  else pure (s.setOrder id { o with actualUSDC18 := actual })

/-! The pause. -/

def scheduleRouteResume (s : State) (sender : Address) (now review : Nat) : Tx State := do
  require (sender = c.governance ∧ s.routePaused = true ∧ s.outstandingShortfalls = 0 ∧ review ≠ 0) .required
  pure { s with recoveryReview := review, resumeAfter := now + 48 * 3600 }

def resumeRoute (s : State) (now : Nat) : Tx State := do
  require (s.routePaused = true ∧ s.outstandingShortfalls = 0 ∧ s.resumeAfter ≠ 0 ∧ s.resumeAfter ≤ now)
    .required
  pure { s with recoveryReview := 0, resumeAfter := 0, routePaused := false }

/-! Steps. -/

inductive Action where
  | reserve (pool feeLot bucket : Nat) (answer : Claim)
  | splitLot (sender : Address) (id : LotId) (raw : Nat)
  | receive (sender : Address) (value : Nat)
  | depositFees (id : OrderId) (value : Nat)
  | submit (q : Quote) (m : Market)
  | applyResult (id : OrderId) (r : Result)
  | route (id : OrderId) (accepted : Bool)
  | subsidizeShortfall (sender : Address) (id : OrderId) (value : Nat)
  | scheduleRouteResume (sender : Address) (now review : Nat)
  | resumeRoute (now : Nat)
  /-- Coin that arrives without a call. -/
  | forced (value : Nat)

def step (s : State) : Action → Tx State
  | .reserve pool feeLot bucket answer => reserve s pool feeLot bucket answer
  | .splitLot sender id raw => splitLot c s sender id raw
  | .receive sender value => receive c s sender value
  | .depositFees id value => depositFees s id value
  | .submit q m => submit c s q m
  | .applyResult id r => applyResult s id r
  | .route id accepted => route s id accepted
  | .subsidizeShortfall sender id value => subsidizeShortfall c s sender id value
  | .scheduleRouteResume sender now review => scheduleRouteResume c s sender now review
  | .resumeRoute now => resumeRoute s now
  | .forced value => .ok { s with balance := s.balance + value }

end Solonpad.StockConverter
