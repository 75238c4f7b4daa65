import Solonpad.HubOrders
import Solonpad.SentTasks
import Solonpad.Transition

/-!
`refund/keeper.mjs` beside the hub and the keeper's own wallet. A tick reconciles what was sent, looks at the
withdrawals that are not finished, then at each open order: withdraw what is missing from the hub's float,
record it, credit it for the order, record that. A stage is a point between two awaits or journal writes; a
transaction lands at any time after it is sent, and a crash leaves the journal as it is. Alerts are left out.
-/

namespace Solonpad.RefundKeeper

open Checked SentTasks Transition
open Hub (Order)

abbrev Id := Nat

structure Config where
  maxPerTick : Nat
  dailyCap : Nat
  /-- The reserve's vault is configured and read. -/
  vault : Bool

/-- `HubSettlement.isBack`. -/
def half (got due : Nat) : Prop := due ≤ got * 2 ∧ got ≠ 0

instance (got due : Nat) : Decidable (half got due) := inferInstanceAs (Decidable (_ ∧ _))

inductive Need where
  | wait
  | credit (amount : Nat)
  deriving DecidableEq, Repr

/-- `refundNeed`; no proceeds read is none. -/
def refundNeed (o : Order) (rhProceeds : Option Nat) : Option Need :=
  if o.kind = .buy ∧ o.status = .returning ∧ o.outcome = some .failed then
    let due := o.amountIn
    if half o.held due then none else some (.credit (due - o.held))
  else if o.kind = .sell ∧ o.status = .proceeds then
    let gross := o.amountOut + o.fee
    if half o.held o.amountOut then none
    else if rhProceeds ≠ some 0 then some .wait
    else some (.credit (gross - o.held))
  else none

/-- A record of `refunds`. -/
structure Record where
  withdrawn : Option Nat
  done : Bool
  returned : Bool
  deriving DecidableEq, Repr

def Record.blank : Record := ⟨none, false, false⟩

/-- The three transactions of an order, each under its own key. -/
inductive Op where
  | withdraw
  | credit
  | refill
  deriving DecidableEq, Repr

inductive Stage where
  | idle
  | reconciling
  | finishing (rest : List Id)
  | refilling (id : Id) (amount : Nat) (rest : List Id)
  /-- The refill is confirmed and not recorded. -/
  | refilled (id : Id) (rest : List Id)
  | listing
  | scanning (rest : List Id) (n : Nat)
  | withdrawing (id : Id) (need : Nat) (rest : List Id) (n : Nat)
  /-- The withdrawal is confirmed and not recorded. -/
  | withdrawn (id : Id) (need : Nat) (rest : List Id) (n : Nat)
  /-- Recorded, and not counted for the day. -/
  | counting (id : Id) (need : Nat) (rest : List Id) (n : Nat)
  | crediting (id : Id) (amount : Nat) (rest : List Id) (n : Nat)
  /-- The credit is confirmed and not recorded. -/
  | credited (id : Id) (rest : List Id) (n : Nat)
  deriving DecidableEq, Repr

structure State where
  /-- Chain time of the tick, in days. -/
  day : Nat
  records : Id → Record
  entries : List Id
  used : Nat → Nat
  tasks : Id → Op → Sent Nat
  stage : Stage
  orders : Id → Order
  float : Nat
  /-- The keeper's own balance. -/
  purse : Nat
  /-- What mined transactions of each key have moved. -/
  moved : Id → Op → List Nat

def deployed (orders : Id → Order) (float purse : Nat) : State where
  day := 0
  records := fun _ => Record.blank
  entries := []
  used := fun _ => 0
  tasks := fun _ _ => .unsent
  stage := .idle
  orders := orders
  float := float
  purse := purse
  moved := fun _ _ => []

inductive Blocked where
  | blocked
  deriving DecidableEq, Repr

abbrev Tx (α : Type) := Checked.Tx Blocked α

/-! What the hub does with an order between two looks at it. -/

/-- In the phase that refunds are for. -/
def Waits (o : Order) : Prop :=
  o.kind = .buy ∧ o.status = .returning ∧ o.outcome = some .failed ∨ o.kind = .sell ∧ o.status = .proceeds

instance (o : Order) : Decidable (Waits o) := inferInstanceAs (Decidable (_ ∨ _))

/-- An order in the phase has its answer, and money is due for it. -/
def Placed (o : Order) : Prop :=
  Waits o → o.outcome ≠ none ∧ (o.kind = .buy → o.amountIn ≠ 0) ∧ (o.kind = .sell → o.amountOut + o.fee ≠ 0)

instance (o : Order) : Decidable (Placed o) := inferInstanceAs (Decidable (_ → _))

/-- The phase is entered with the answer and once; in it the amounts are fixed and the credited money only grows. -/
structure Evolves (o next : Order) : Prop where
  placed : Placed next
  outcome : o.outcome ≠ none → next.outcome ≠ none
  left : o.outcome ≠ none → ¬ Waits o → ¬ Waits next
  stays : Waits o → Waits next → next.kind = o.kind ∧ next.amountIn = o.amountIn ∧
    next.amountOut = o.amountOut ∧ o.held ≤ next.held

instance (o next : Order) : Decidable (Evolves o next) :=
  decidable_of_iff (Placed next ∧ (o.outcome ≠ none → next.outcome ≠ none) ∧
      (o.outcome ≠ none → ¬ Waits o → ¬ Waits next) ∧
      (Waits o → Waits next → next.kind = o.kind ∧ next.amountIn = o.amountIn ∧
        next.amountOut = o.amountOut ∧ o.held ≤ next.held))
    ⟨fun ⟨placed, outcome, left, stays⟩ => ⟨placed, outcome, left, stays⟩,
      fun ⟨placed, outcome, left, stays⟩ => ⟨placed, outcome, left, stays⟩⟩

/-! The keeper. -/

variable (c : Config)

def State.setRecord (s : State) (id : Id) (record : Record) : State :=
  { s with
    records := Function.update s.records id record
    entries := if id ∈ s.entries then s.entries else s.entries ++ [id] }

def State.setTask (s : State) (id : Id) (op : Op) (task : Sent Nat) : State :=
  { s with tasks := Function.update s.tasks id (Function.update (s.tasks id) op task) }

/-- One entry of `finishPending`. -/
def finish (s : State) (id : Id) (rest : List Id) : State :=
  let rec_ := s.records id
  if rec_.done = true ∨ rec_.returned = true then { s with stage := .finishing rest }
  else match rec_.withdrawn with
    | none => { s with stage := .finishing rest }
    | some withdrawn =>
      match refundNeed (s.orders id) (some 0) with
      -- Still needed, for `credit` to resume; a credit of nothing is no need.
      | some (.credit (_ + 1)) => { s with stage := .finishing rest }
      | _ => { s with stage := .refilling id withdrawn rest }

/-- `handle` with `credit`, up to the first transaction; `available` is the float as it is read for it. -/
def handle (s : State) (id : Id) (rest : List Id) (n : Nat) (rhProceeds available : Nat) : State :=
  let o := s.orders id
  let proceeds := if o.kind = .sell ∧ o.status = .proceeds then some rhProceeds else none
  match refundNeed o (if c.vault = true then proceeds else some 0) with
  | none | some .wait => { s with stage := .scanning rest n }
  | some (.credit need) =>
    match (s.records id).withdrawn with
    | some withdrawn => { s with stage := .crediting id withdrawn rest n }
    | none =>
      let resuming := s.tasks id .withdraw ≠ .unsent
      if ¬ resuming ∧ c.dailyCap < s.used s.day + need then { s with stage := .scanning rest (n + 1) }
      else if ¬ resuming ∧ available < need then { s with stage := .scanning rest (n + 1) }
      else { s with stage := .withdrawing id need rest n }

inductive Action where
  | tick (day : Nat)
  /-- `reconcileAll` finds a transaction mined with success. -/
  | reconciled (id : Id) (op : Op)
  | reconciledAll
  | finish
  | listed (open' : List Id)
  | look (rhProceeds available : Nat)
  /-- The sender signs and journals the transaction the keeper waits for. -/
  | submit
  | answered (confirmed : Bool)
  /-- The next journal write. -/
  | note
  /-- The current order's work throws; the scan goes on. -/
  | throws
  | crash
  | mine (id : Id) (op : Op) (next : Order)
  /-- The transaction can no longer succeed, and the sender has counted it as failed. -/
  | drop (id : Id) (op : Op)
  | hub (id : Id) (next : Order) (float : Nat)

/-- The key and the content of the transaction the keeper waits for. -/
def Stage.awaits : Stage → Option (Id × Op × Nat)
  | .refilling id amount _ => some (id, .refill, amount)
  | .withdrawing id need _ _ => some (id, .withdraw, need)
  | .crediting id amount _ _ => some (id, .credit, amount)
  | _ => none

/-- Where the keeper goes on after an answer. -/
def Stage.next (confirmed : Bool) : Stage → Stage
  | .refilling id _ rest => if confirmed then .refilled id rest else .finishing rest
  | .withdrawing id need rest n => if confirmed then .withdrawn id need rest n else .scanning rest (n + 1)
  | .crediting id _ rest n => if confirmed then .credited id rest n else .scanning rest (n + 1)
  | stage => stage

def note (s : State) : Tx State :=
  match s.stage with
  | .refilled id rest =>
    pure { s.setRecord id { s.records id with returned := true } with stage := .finishing rest }
  | .withdrawn id need rest n =>
    pure { s.setRecord id { s.records id with withdrawn := some need } with stage := .counting id need rest n }
  | .counting id need rest n =>
    match (s.records id).withdrawn with
    | some withdrawn => pure { s with
        used := Function.update s.used s.day (s.used s.day + need)
        stage := .crediting id withdrawn rest n }
    | none => throw (.revert .blocked)
  | .credited id rest n =>
    pure { s.setRecord id { s.records id with done := true } with stage := .scanning rest (n + 1) }
  | _ => throw (.revert .blocked)

/-- What a mined transaction moves. -/
def land (s : State) (id : Id) (op : Op) (amount : Nat) (next : Order) : Tx State := do
  let moved := Function.update s.moved id (Function.update (s.moved id) op (s.moved id op ++ [amount]))
  match op with
  | .withdraw => do
    require (amount ≤ s.float) .blocked
    pure { s with float := s.float - amount, purse := s.purse + amount, moved := moved }
  | .credit => do
    require (amount ≤ s.purse ∧ Evolves (s.orders id) next) .blocked
    pure { s with purse := s.purse - amount, orders := Function.update s.orders id next, moved := moved }
  | .refill => do
    require (amount ≤ s.purse) .blocked
    pure { s with float := s.float + amount, purse := s.purse - amount, moved := moved }

def step (s : State) : Action → Tx State
  | .tick day => do
    require (s.stage = .idle) .blocked
    pure { s with day := day, stage := .reconciling }
  | .reconciled id op => do
    require (s.stage = .reconciling) .blocked
    match s.tasks id op with
    | .sent amount true => pure (s.setTask id op (.confirmed amount))
    | _ => throw (.revert .blocked)
  | .reconciledAll => do
    require (s.stage = .reconciling) .blocked
    pure { s with stage := .finishing s.entries }
  | .finish =>
    match s.stage with
    | .finishing [] => pure { s with stage := .listing }
    | .finishing (id :: rest) => pure (finish s id rest)
    | _ => throw (.revert .blocked)
  | .listed open' => do
    require (s.stage = .listing) .blocked
    pure { s with stage := .scanning open' 0 }
  | .look rhProceeds available =>
    match s.stage with
    | .scanning [] _ => pure { s with stage := .idle }
    | .scanning (id :: rest) n =>
      if n < c.maxPerTick then pure (handle c s id rest n rhProceeds available)
      else pure { s with stage := .scanning rest n }
    | _ => throw (.revert .blocked)
  | .submit =>
    match s.stage.awaits with
    | none => throw (.revert .blocked)
    | some (id, op, amount) => do
      require (s.tasks id op = .unsent) .blocked
      pure (s.setTask id op (.sent amount false))
  | .answered confirmed =>
    match s.stage.awaits with
    | none => throw (.revert .blocked)
    | some (id, op, _) =>
      if confirmed = true then
        match (s.tasks id op).landed with
        | none => throw (.revert .blocked)
        | some amount => pure { s.setTask id op (.confirmed amount) with stage := s.stage.next true }
      else pure { s with stage := s.stage.next false }
  | .note => note s
  | .throws =>
    match s.stage with
    | .withdrawing _ _ rest n | .crediting _ _ rest n | .credited _ rest n =>
      pure { s with stage := .scanning rest n }
    | _ => throw (.revert .blocked)
  | .crash => pure { s with stage := .idle }
  | .mine id op next =>
    match s.tasks id op with
    | .sent amount false => land (s.setTask id op (.sent amount true)) id op amount next
    | _ => throw (.revert .blocked)
  | .drop id op =>
    match s.tasks id op with
    | .sent _ false => pure (s.setTask id op .unsent)
    | _ => throw (.revert .blocked)
  | .hub id next float => do
    require (Evolves (s.orders id) next) .blocked
    pure { s with orders := Function.update s.orders id next, float := float }

def accepts (s : State) (action : Action) (after : State) : Prop := step c s action = .ok after

end Solonpad.RefundKeeper
