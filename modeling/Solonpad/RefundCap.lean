import Solonpad.RefundKeeper
import Solonpad.TaskCalls

/-!
The withdrawals of `refund/keeper.mjs` under their daily cap: a clock, the sender's tasks and the nonces of the account
that signs. A tick is one read, journal write or transaction at a time; between any two of them the clock runs, orders
change, transactions are mined and the keeper may die. Of refills and credits only the answers are followed.
-/

namespace Solonpad.RefundCap

open Checked Journal Transition
open Hub (Order)
open RefundKeeper (Config Id Need Record refundNeed)

def daySec : Nat := 86400

/-- A signed `withdrawFloat` to the keeper. -/
structure Signed where
  id : Id
  amount : Nat
  nonce : Nat
  deriving DecidableEq

/-- The variables of `credit`, in their place in the scan. -/
structure Turn where
  id : Id
  /-- `need.credit`. -/
  need : Nat
  day : Nat
  used : Nat
  rest : List Id
  n : Nat

inductive Stage where
  | idle
  | reconciling
  | finishing (rest : List Id)
  | refilling (id : Id) (rest : List Id)
  | listing
  | scanning (rest : List Id) (n : Nat)
  /-- In `tx.call`, nothing signed. -/
  | asking (t : Turn)
  | waiting (t : Turn) (tx : Signed)
  /-- Confirmed and not recorded. -/
  | withdrawn (t : Turn) (tx : Signed)
  /-- Recorded, and not counted for the day. -/
  | counting (t : Turn) (tx : Signed)
  | crediting (id : Id) (rest : List Id) (n : Nat)

structure State where
  now : Nat
  /-- Chain time of the tick. -/
  nowSec : Nat
  orders : Id → Order
  records : Id → Record
  entries : List Id
  /-- `refundDay`. -/
  used : Nat → Nat
  tasks : Id → Option (Journal.Task Signed)
  nextNonce : Nat
  /-- Every withdrawal signed so far, and when. -/
  signed : List (Signed × Nat)
  /-- Those that took their amount. -/
  taken : List Signed
  /-- What each day's total was made of. -/
  booked : Nat → List (Signed × Nat)
  stage : Stage

def deployed (orders : Id → Order) (now : Nat) : State where
  now := now
  nowSec := now
  orders := orders
  records := fun _ => Record.blank
  entries := []
  used := fun _ => 0
  tasks := fun _ => none
  nextNonce := 0
  signed := []
  taken := []
  booked := fun _ => []
  stage := .idle

inductive Action where
  | wait (sec : Nat)
  | order (id : Id) (next : Order)
  | tick
  /-- `reconcileAll`, of one withdrawal in flight. -/
  | settle (id : Id) (outcome : Outcome) (ms : Nat)
  | settled
  | finish
  | refilled (confirmed : Bool)
  | listed (open' : List Id)
  | look (rhProceeds available : Nat)
  | ask (outcome : Outcome) (nonce ms : Nat)
  | await (outcome : Outcome) (ms : Nat)
  /-- The next journal write of `credit`. -/
  | note
  | credited (confirmed : Bool)
  /-- The current order's work throws; the scan goes on. -/
  | throws
  | crash
  | mine (tx : Signed) (success : Bool)
  /-- Another transaction of the account. -/
  | mineOther

inductive Blocked where
  | blocked
  deriving DecidableEq, Repr

abbrev Step := Except Blocked State

def blocked : Step := .error .blocked

variable (c : Config)

def State.setRecord (st : State) (id : Id) (record : Record) : State :=
  { st with
    records := Function.update st.records id record
    entries := if id ∈ st.entries then st.entries else st.entries ++ [id] }

def State.setTask (st : State) (id : Id) (task : Option (Journal.Task Signed)) : State :=
  { st with tasks := Function.update st.tasks id task }

/-- A receipt of success is there. -/
def State.Received (st : State) (tx : Signed) : Prop := tx ∈ st.taken

instance (st : State) : DecidablePred st.Received := fun tx => inferInstanceAs (Decidable (tx ∈ st.taken))

/-- One entry of `finishPending`. -/
def finish (st : State) (id : Id) (rest : List Id) : State :=
  let rec_ := st.records id
  if rec_.done = true ∨ rec_.returned = true ∨ rec_.withdrawn = none then { st with stage := .finishing rest }
  else match refundNeed (st.orders id) (some 0) with
    | some (.credit (_ + 1)) => { st with stage := .finishing rest }
    | _ => { st with stage := .refilling id rest }

/-- `handle` with `credit`, up to its first transaction. -/
def handle (st : State) (id : Id) (rest : List Id) (n rhProceeds available : Nat) : State :=
  let o := st.orders id
  let proceeds := if o.kind = .sell ∧ o.status = .proceeds then some rhProceeds else none
  match refundNeed o (if c.vault = true then proceeds else some 0) with
  | none | some .wait => { st with stage := .scanning rest n }
  | some (.credit need) =>
    if (st.records id).withdrawn ≠ none then { st with stage := .crediting id rest n }
    else
      let day := st.nowSec / daySec
      let used := st.used day
      let prior := (st.tasks id).map Journal.Task.state
      let resuming := prior = some .sent ∨ prior = some .confirmed
      if ¬ resuming ∧ c.dailyCap < used + need then { st with stage := .scanning rest (n + 1) }
      else if ¬ resuming ∧ available < need then { st with stage := .scanning rest (n + 1) }
      else { st with stage := .asking ⟨id, need, day, used, rest, n⟩ }

/-- Where `credit` goes on from `tx.call`; without a receipt it returns. -/
def Turn.next (t : Turn) : Answer Signed → Stage
  | .other => .scanning t.rest (t.n + 1)
  | .sent tx => .waiting t tx
  | .confirmed tx => .withdrawn t tx

/-- `tx.call` up to the hand-over; a signature takes a nonce that is not used. -/
def ask (st : State) (t : Turn) (outcome : Outcome) (nonce ms : Nat) : Step :=
  match Journal.send st.Received (st.tasks t.id) ⟨t.id, t.need, nonce⟩ outcome ms with
  | some (task, answer) =>
    let st := { st.setTask t.id task with stage := t.next answer }
    match answer with
    | .sent tx => if st.nextNonce ≤ nonce then .ok { st with signed := st.signed ++ [(tx, st.now)] } else blocked
    | _ => .ok st
  | none => blocked

/-- `tx.call` from the hand-over on. -/
def await (st : State) (t : Turn) (tx : Signed) (outcome : Outcome) (ms : Nat) : Step :=
  match Journal.await st.Received (st.tasks t.id) tx outcome ms with
  | some (task, answer) => .ok { st.setTask t.id task with stage := t.next answer }
  | none => blocked

def note (st : State) : Step :=
  match st.stage with
  | .withdrawn t tx =>
    .ok { st.setRecord t.id { st.records t.id with withdrawn := some t.need } with stage := .counting t tx }
  | .counting t tx =>
    .ok { st with
      used := Function.update st.used t.day (t.used + t.need)
      booked := Function.update st.booked t.day (st.booked t.day ++ [(tx, t.need)])
      stage := .crediting t.id t.rest t.n }
  | _ => blocked

def step (st : State) : Action → Step
  | .wait sec => .ok { st with now := st.now + sec }
  | .order id next => .ok { st with orders := Function.update st.orders id next }
  | .tick =>
    match st.stage with
    | .idle => .ok { st with nowSec := st.now, stage := .reconciling }
    | _ => blocked
  | .settle id outcome ms =>
    match st.stage, Journal.settle st.Received (st.tasks id) outcome ms with
    | .reconciling, some task => .ok (st.setTask id task)
    | _, _ => blocked
  | .settled =>
    match st.stage with
    | .reconciling => .ok { st with stage := .finishing st.entries }
    | _ => blocked
  | .finish =>
    match st.stage with
    | .finishing [] => .ok { st with stage := .listing }
    | .finishing (id :: rest) => .ok (finish st id rest)
    | _ => blocked
  | .refilled confirmed =>
    match st.stage with
    | .refilling id rest =>
      .ok { (if confirmed then st.setRecord id { st.records id with returned := true } else st) with
        stage := .finishing rest }
    | _ => blocked
  | .listed open' =>
    match st.stage with
    | .listing => .ok { st with stage := .scanning open' 0 }
    | _ => blocked
  | .look rhProceeds available =>
    match st.stage with
    | .scanning [] _ => .ok { st with stage := .idle }
    | .scanning (id :: rest) n =>
      if n < c.maxPerTick then .ok (handle c st id rest n rhProceeds available)
      else .ok { st with stage := .scanning rest n }
    | _ => blocked
  | .ask outcome nonce ms =>
    match st.stage with
    | .asking t => ask st t outcome nonce ms
    | _ => blocked
  | .await outcome ms =>
    match st.stage with
    | .waiting t tx => await st t tx outcome ms
    | _ => blocked
  | .note => note st
  | .credited confirmed =>
    match st.stage with
    | .crediting id rest n =>
      .ok { (if confirmed then st.setRecord id { st.records id with done := true } else st) with
        stage := .scanning rest (n + 1) }
    | _ => blocked
  | .throws =>
    match st.stage with
    | .asking t | .waiting t _ => .ok { st with stage := .scanning t.rest t.n }
    | .crediting _ rest n => .ok { st with stage := .scanning rest n }
    | _ => blocked
  | .crash => .ok { st with stage := .idle }
  | .mine tx success =>
    if tx ∈ st.signed.map Prod.fst ∧ tx.nonce = st.nextNonce then
      .ok { st with nextNonce := st.nextNonce + 1, taken := if success then st.taken ++ [tx] else st.taken }
    else blocked
  | .mineOther => .ok { st with nextNonce := st.nextNonce + 1 }

def accepts (st : State) (action : Action) (after : State) : Prop := step c st action = .ok after

/-! What a day's withdrawals come to. -/

/-- Signed on the day. -/
def State.OnDay (st : State) (day : Nat) (tx : Signed) : Prop :=
  ∃ entry ∈ st.signed, entry.1 = tx ∧ entry.2 / daySec = day

instance (st : State) (day : Nat) : DecidablePred (st.OnDay day) :=
  fun _ => inferInstanceAs (Decidable (∃ entry ∈ st.signed, _))

/-- What the withdrawals sent within the day took. -/
def State.takenOn (st : State) (day : Nat) : Nat := ((st.taken.filter (st.OnDay day)).map Signed.amount).sum

/-- It can no longer land: its nonce went to a failure of it or to another transaction. -/
def State.Dead (st : State) (tx : Signed) : Prop := tx.nonce < st.nextNonce ∧ tx ∉ st.taken

instance (st : State) (tx : Signed) : Decidable (st.Dead tx) := inferInstanceAs (Decidable (_ ∧ _))

/-- In the day's total with its whole amount. -/
def State.Booked (st : State) (day : Nat) (tx : Signed) : Prop :=
  ∃ entry ∈ st.booked day, entry.1 = tx ∧ tx.amount ≤ entry.2

instance (st : State) (day : Nat) (tx : Signed) : Decidable (st.Booked day tx) :=
  inferInstanceAs (Decidable (∃ entry ∈ st.booked day, _))

/-- A withdrawal is signed on the day its tick began, and when every other one of the day is counted or dead. -/
def counted (st : State) : Action → Bool
  | .ask .signed nonce _ =>
    match st.stage with
    | .asking t => decide (st.now / daySec = t.day ∧ ∀ entry ∈ st.signed, entry.2 / daySec = t.day →
        entry.1 ≠ ⟨t.id, t.need, nonce⟩ → st.Booked t.day entry.1 ∨ st.Dead entry.1)
    | _ => true
  | _ => true

def Counted (st : State) (action : Action) : Prop := counted st action = true

instance (st : State) (action : Action) : Decidable (Counted st action) := inferInstanceAs (Decidable (_ = true))

end Solonpad.RefundCap
