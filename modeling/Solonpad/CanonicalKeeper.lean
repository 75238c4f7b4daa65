import Solonpad.HubFile
import Solonpad.Journal
import Solonpad.VaultCheckpoints

/-!
`reconcilePhase` of `keepers/v3/canonical/keeper.mjs` between the two chains: the vault that logs results and sends
checkpoints, the gate that has got some of them, the hub, and the keeper that presents results and moves its cursor
over the checkpoints. The phase is one read, write or transaction at a time; between any two of them the chains go on
and the keeper may die.
-/

namespace Solonpad.CanonicalKeeper

open Checked Messages Transition MerkleProofs
open Chain (Address)
open Vault (covered)

variable {Hash : Type} [LinearOrder Hash]

structure Config (Hash : Type) where
  hub : Hub.Config
  vault : Vault.Config
  hashing : Hashing Hash
  zero : Hash

/-- A signed `reconcile` transaction. -/
structure Signed (Hash : Type) where
  result : Result
  index : Nat
  proof : List Hash
  nonce : Nat
  deriving DecidableEq

/-- What a task is of: the ref and the checkpoint. -/
abbrev Key := Ref × Nat

/-- The variables of the outer loop. -/
structure Walk where
  count : Nat
  orders : Nat
  budget : Nat
  i : Nat

/-- The variables of the inner loop; `unproven` is `open`. -/
structure Turn (Hash : Type) extends Walk where
  cp : Checkpoint Hash
  s : Nat
  unproven : Nat

inductive Phase (Hash : Type) where
  | idle
  | counted (count : Nat)
  | outer (w : Walk)
  | inner (t : Turn Hash)
  /-- In `tx.call` for the result, with its proof. -/
  | asking (t : Turn Hash) (r : Result) (proof : List Hash)
  /-- Its transaction is written down and handed over. -/
  | waiting (t : Turn Hash) (tx : Signed Hash)

structure State (Hash : Type) where
  posted : Vault.Posted Hash
  /-- The checkpoints of the gate. -/
  arrived : List (Checkpoint Hash)
  hub : Hub.State
  signed : List (Signed Hash)
  /-- The keeper's transactions in blocks, with their status. -/
  mined : List (Signed Hash × Bool)
  tasks : Key → Option (Journal.Task (Signed Hash))
  /-- `fullyReconciled`. -/
  cursor : Nat
  phase : Phase Hash

/-- How `tx.call` ends, or goes on. -/
inductive Outcome where
  /-- Quarantined, backing off, above the gas cap, dry, or still in flight. -/
  | deferred
  /-- The simulation, the broadcast or the transaction failed. -/
  | failed
  | sign (nonce : Nat)
  | confirmed

inductive Action (Hash : Type) where
  | vault (call : Vault.Call)
  | arrive (cp : Checkpoint Hash)
  /-- Whatever anybody does on the hub. -/
  | hub (call : Hub.Call)
  | mine (tx : Signed Hash) (env : Hub.Env) (gas : Bool)
  /-- `tx.reconcileAll`, of one task. -/
  | settle (key : Key) (outcome : Outcome) (now : Nat)
  | begin
  | ordersRead (maxReconcilePerTick : Nat)
  | next
  | look
  | ask (outcome : Outcome) (now : Nat)
  | await (outcome : Outcome) (now : Nat)
  | crash

inductive Refused where
  | refused
  deriving DecidableEq

abbrev Step (Hash : Type) := Except Refused (State Hash)

def refuse : Step Hash := .error .refused

/-- `id >= orders` of a ref read as a number; a migration's is above any count of orders. -/
def skipped (orders : Nat) : Ref → Bool
  | .order id => decide (orders ≤ id)
  | .migration _ _ => true

/-- The proof where `proofFor` gives one without gaps. -/
def defined : List (Option Hash) → Option (List Hash)
  | [] => some []
  | none :: _ => none
  | some hash :: rest => (defined rest).map (hash :: ·)

variable (c : Config Hash)

/-- `proofFor` over the leaves of the checkpoint. -/
def proofOf (results : List Result) (cp : Checkpoint Hash) (s : Nat) : Option (List Hash) :=
  defined (proofFor c.hashing ((covered results cp).map c.hashing.leaf) (s - cp.fromSeq))

def State.onTask (st : State Hash) (key : Key) (task : Journal.Task (Signed Hash)) : State Hash :=
  { st with tasks := Function.update st.tasks key (some task) }

/-- A receipt of success is there for the transaction of the task. -/
def State.Received (st : State Hash) (tx : Signed Hash) : Prop := (tx, true) ∈ st.mined

instance (st : State Hash) (tx : Signed Hash) : Decidable (st.Received tx) :=
  inferInstanceAs (Decidable (_ ∈ st.mined))

def Turn.pass (t : Turn Hash) : Turn Hash := { t with s := t.s + 1 }

/-- The result is proven: `open--`. -/
def Turn.proven (t : Turn Hash) : Turn Hash := { t with s := t.s + 1, unproven := t.unproven - 1 }

/-- A result not proven yet: `open++`, `budget--`. -/
def Turn.presents (t : Turn Hash) : Turn Hash := { t with unproven := t.unproven + 1, budget := t.budget - 1 }

/-- The inner loop ended: the cursor moves over a checkpoint with nothing open, next in turn and within the budget. -/
def State.close (st : State Hash) (t : Turn Hash) : State Hash :=
  { st with
    cursor := if t.unproven = 0 ∧ 0 < t.budget ∧ t.i = st.cursor then st.cursor + 1 else st.cursor
    phase := .outer { t.toWalk with i := t.i + 1 } }

/-- One iteration of the inner loop up to `tx.call`, or its end. -/
def look (st : State Hash) (t : Turn Hash) : Step Hash :=
  if t.s ≤ t.cp.toSeq ∧ 0 < t.budget then
    match st.posted.vault.results[t.s]? with
    | none => refuse
    | some r =>
      if skipped t.orders r.ref = true ∨ st.hub.reconciled r.ref = true then .ok { st with phase := .inner t.pass }
      else match proofOf c st.posted.vault.results t.cp t.s with
        | none => refuse
        | some proof => .ok { st with phase := .asking t.presents r proof }
  else .ok (st.close t)

/-- The transaction of a task that is in flight or confirmed. -/
def taskTx (gate : Journal.Gate) (task : Option (Journal.Task (Signed Hash))) : Option (Signed Hash) :=
  match gate with
  | .reconcile | .confirmed => task.bind Journal.Task.tx
  | _ => none

/-- A task in flight is written down as confirmed; one that is confirmed stays as it is. -/
def State.confirms (st : State Hash) (gate : Journal.Gate) (key : Key) (tx : Signed Hash) : State Hash :=
  if gate = .reconcile then st.onTask key (Journal.markConfirmed (st.tasks key) tx) else st

/-- `tx.call` up to the hand-over. -/
def ask (st : State Hash) (t : Turn Hash) (r : Result) (proof : List Hash) (outcome : Outcome) (now : Nat) : Step Hash :=
  let key : Key := (r.ref, t.i)
  let task := st.tasks key
  let gate := Journal.taskGate task now
  match outcome with
  | .deferred => .ok { st with phase := .inner t.pass }
  | .failed =>
    if gate = .go ∨ gate = .reconcile then
      .ok { st.onTask key (Journal.markFailure task now) with phase := .inner t.pass }
    else refuse
  | .sign nonce =>
    if gate = .go then
      let tx : Signed Hash := ⟨r, t.i, proof, nonce⟩
      .ok { st.onTask key (Journal.markSent task tx now) with signed := st.signed ++ [tx], phase := .waiting t tx }
    else refuse
  | .confirmed => match taskTx gate task with
    | some tx =>
      if st.Received tx then .ok { st.confirms gate key tx with phase := .inner t.proven } else refuse
    | none => refuse

/-- `tx.call` from the hand-over on. -/
def await (st : State Hash) (t : Turn Hash) (tx : Signed Hash) (outcome : Outcome) (now : Nat) : Step Hash :=
  let key : Key := (tx.result.ref, tx.index)
  match outcome with
  | .deferred => .ok { st with phase := .inner t.pass }
  | .failed => .ok { st.onTask key (Journal.markFailure (st.tasks key) now) with phase := .inner t.pass }
  | .sign _ => refuse
  | .confirmed =>
    if st.Received tx then
      .ok { st.onTask key (Journal.markConfirmed (st.tasks key) tx) with phase := .inner t.proven }
    else refuse

/-- A transaction of the keeper's in a block: `hub.reconcile` behind the gate, or failed. -/
def mine (st : State Hash) (tx : Signed Hash) (env : Hub.Env) (gas : Bool) : Step Hash :=
  if tx ∈ st.signed then
    let proven := decide (gateVerify c.hashing st.arrived tx.result tx.index tx.proof = .ok ())
    match gas, Hub.step c.hub st.hub ⟨{ env with proven := proven }, .reconcile tx.result⟩ with
    | true, .ok hub => .ok { st with hub := hub, mined := st.mined ++ [(tx, true)] }
    | _, _ => .ok { st with mined := st.mined ++ [(tx, false)] }
  else refuse

/-- `reconcile` of a task in flight. -/
def settle (st : State Hash) (key : Key) (outcome : Outcome) (now : Nat) : Step Hash :=
  let task := st.tasks key
  let gate := Journal.taskGate task now
  if gate = .reconcile then
    match outcome with
    | .deferred => .ok st
    | .failed => .ok (st.onTask key (Journal.markFailure task now))
    | .sign _ => refuse
    | .confirmed => match taskTx gate task with
      | some tx => if st.Received tx then .ok (st.confirms gate key tx) else refuse
      | none => refuse
  else refuse

def step (st : State Hash) : Action Hash → Step Hash
  | .vault call => match Vault.post c.hashing c.zero c.vault st.posted call with
    | .ok posted => .ok { st with posted := posted }
    | .error _ => refuse
  | .arrive cp => if cp ∈ st.posted.sent then .ok { st with arrived := st.arrived ++ [cp] } else refuse
  | .hub call => match Hub.step c.hub st.hub call with
    | .ok hub => .ok { st with hub := hub }
    | .error _ => refuse
  | .mine tx env gas => mine c st tx env gas
  | .settle key outcome now => match st.phase with
    | .idle => settle st key outcome now
    | _ => refuse
  | .begin => match st.phase with
    | .idle => .ok { st with phase := .counted st.arrived.length }
    | _ => refuse
  | .ordersRead budget => match st.phase with
    | .counted count => .ok { st with phase := .outer ⟨count, st.hub.orderCount, budget, st.cursor⟩ }
    | _ => refuse
  | .next => match st.phase with
    | .outer w =>
      if w.i < w.count ∧ 0 < w.budget then
        match st.arrived[w.i]? with
        | some cp => .ok { st with phase := .inner ⟨w, cp, cp.fromSeq, 0⟩ }
        | none => refuse
      else .ok { st with phase := .idle }
    | _ => refuse
  | .look => match st.phase with
    | .inner t => look c st t
    | _ => refuse
  | .ask outcome now => match st.phase with
    | .asking t r proof => ask st t r proof outcome now
    | _ => refuse
  | .await outcome now => match st.phase with
    | .waiting t tx => await st t tx outcome now
    | _ => refuse
  | .crash => .ok { st with phase := .idle }

def initial (c : Config Hash) (vaultOwner bridger : Address) : State Hash where
  posted := ⟨Vault.deployed vaultOwner bridger, []⟩
  arrived := []
  hub := Hub.deployed c.hub
  signed := []
  mined := []
  tasks := fun _ => none
  cursor := 0
  phase := .idle

/-- A result of an order is of one the hub has. -/
def Known (orders : Nat) (r : Result) : Prop := ∀ id, r.ref = .order id → id < orders

instance (orders : Nat) (r : Result) : Decidable (Known orders r) :=
  match same : r.ref with
  | .order id => decidable_of_iff (id < orders)
    ⟨fun known other ref => Ref.order.inj (same.symm.trans ref) ▸ known, fun known => known id same⟩
  | .migration _ _ => isTrue fun _ ref => by cases same.symm.trans ref

/-- The vault answers orders that were made on the hub. -/
def Genuine (st : State Hash) : Action Hash → Prop
  | .vault call => ∀ posted, Vault.post c.hashing c.zero c.vault st.posted call = .ok posted →
    ∀ r ∈ posted.vault.results, Known st.hub.orderCount r
  | _ => True

instance (st : State Hash) : (action : Action Hash) → Decidable (Genuine c st action)
  | .vault call => match same : Vault.post c.hashing c.zero c.vault st.posted call with
    | .ok posted => decidable_of_iff (∀ r ∈ posted.vault.results, Known st.hub.orderCount r)
      ⟨fun known _ done => Except.ok.inj (same.symm.trans done) ▸ known, fun known => known posted same⟩
    | .error _ => isTrue fun _ done => by cases same.symm.trans done
  | .arrive _ | .hub _ | .mine .. | .settle .. | .begin | .ordersRead _ | .next | .look | .ask .. | .await .. | .crash =>
    inferInstanceAs (Decidable True)

def runs : State Hash → Action Hash → State Hash → Prop :=
  restrict (fun before action after => step c before action = .ok after) (Genuine c)

/-! What the keeper owes to a result. -/

/-- A confirmed transaction presented the result under the checkpoint with a proof that the gate accepts. -/
def Presented (st : State Hash) (i : Nat) (r : Result) : Prop :=
  ∃ tx, (tx, true) ∈ st.mined ∧ tx.result = r ∧ tx.index = i ∧
    gateVerify c.hashing st.arrived r i tx.proof = .ok ()

/-- A result of a hub order is reconciled or presented. -/
def Handled (st : State Hash) (i : Nat) (r : Result) : Prop :=
  ∀ id, r.ref = .order id → st.hub.reconciled r.ref = true ∨ Presented c st i r

/-- Every result of every checkpoint below the cursor. -/
def NoneSkipped (st : State Hash) : Prop :=
  ∀ i < st.cursor, ∃ cp, st.arrived[i]? = some cp ∧ ∀ r ∈ covered st.posted.vault.results cp, Handled c st i r

end Solonpad.CanonicalKeeper
