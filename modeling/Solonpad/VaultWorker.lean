import Solonpad.ReserveVault
import Solonpad.SentTasks
import Solonpad.Transition

/-!
`vault/keeper.mjs` beside the reserve vault. A tick reconciles what was sent, scans the vault's log from the
cursor on, executes waiting buys whose money came, and returns what settled refs are owed. A stage is a point
between two awaits or journal writes; the vault goes on meanwhile. The log stands for the chain: blocks are
stretches of it, and the head of a scan is as long as the log was when the node answered. Alerts, the record of
a Relay return and what a record holds are left out, since nothing here reads them.
-/

namespace Solonpad.VaultWorker

open Checked Chain Messages SentTasks Transition
open Vault (Event Fill)

structure Config where
  vault : Vault.Config
  wallet : Address
  minReturn6 : Nat
  maxReturnShortBps : Nat
  maxPerTick : Nat

def scale : Nat := 10 ^ 12

inductive Key where
  | executeFunded (ref : Ref)
  | returnFunds (ref : Ref) (orderId : Nat)
  deriving DecidableEq, Repr

inductive Stage where
  | idle
  | reconciling
  | scanning
  /-- The logs up to `last` are read and handled up to `next`. -/
  | logs (next last : Nat)
  | scanned
  | executing (rest : List Ref) (floatOn : Bool) (free : Nat)
  | ordering (ref : Ref) (rest : List Ref) (floatOn : Bool) (free : Nat)
  | affording (ref : Ref) (amountIn : Nat) (rest : List Ref) (floatOn : Bool) (free : Nat)
  | sendingExecution (ref : Ref) (rest : List Ref) (floatOn : Bool) (free : Nat)
  /-- The record is about to be cleared. -/
  | unwaiting (ref : Ref) (rest : List Ref) (floatOn : Bool) (free : Nat)
  | executed
  | returning (rest : List Ref) (n : Nat)
  | adding (ref : Ref) (funding : Nat) (rest : List Ref) (n : Nat)
  | quoting (ref : Ref) (owed : Nat) (rest : List Ref) (n : Nat)
  | sendingReturn (ref : Ref) (orderId : Nat) (rest : List Ref) (n : Nat)
  /-- The record is about to be cleared, after a return or because nothing is owed. -/
  | forgetting (ref : Ref) (paid : Bool) (rest : List Ref) (n : Nat)
  | done
  deriving DecidableEq, Repr

structure State where
  vault : Vault.State
  /-- `next` of the scan's record. -/
  cursor : Nat
  /-- The head of this tick's scan. -/
  head : Nat
  waiting : List Ref
  returnable : List Ref
  tasks : Key → Sent Unit
  stage : Stage
  /-- What this tick has returned. -/
  returned : List Ref

def deployed (owner bridger : Address) : State where
  vault := Vault.deployed owner bridger
  cursor := 0
  head := 0
  waiting := []
  returnable := []
  tasks := fun _ => .unsent
  stage := .idle
  returned := []

inductive Blocked where
  | blocked
  deriving DecidableEq, Repr

abbrev Tx (α : Type) := Checked.Tx Blocked α

inductive Action where
  | tick
  /-- `reconcileAll` finds a transaction mined with success. -/
  | reconciled (key : Key)
  | reconciledAll
  | scan (head : Nat)
  | getLogs (last : Nat)
  | log
  | entries (floatOn : Bool) (free : Nat)
  /-- The next view of the vault, or the end of a list. -/
  | look
  /-- Relay's answer: nothing usable, or an order and what it is expected to bring. -/
  | quoted (quote : Option (Nat × Nat))
  /-- The sender signs and journals the transaction the worker waits for. -/
  | submit
  | answered (confirmed : Bool)
  | clear
  | crash
  | mine (key : Key) (now : Nat) (fill : Option Fill) (fee pulled : Nat)
  /-- The transaction can no longer succeed, and the sender has counted it as failed. -/
  | drop (key : Key)
  | vault (call : Vault.Call)

variable (c : Config)

/-- `setRecord`; a record that exists keeps its place. -/
def record (records : List Ref) (ref : Ref) : List Ref := if ref ∈ records then records else records ++ [ref]

/-- What one log of the scan does to the journal. -/
def State.scanLog (s : State) : Event → State
  | .orderWaitingFunds ref _ _ => { s with waiting := record s.waiting ref }
  | .orderExecuted ref _ outcome _ _ _ _ =>
    if outcome ≠ .bought then { s with returnable := record s.returnable ref } else s
  | _ => s

def State.setTask (s : State) (key : Key) (task : Sent Unit) : State :=
  { s with tasks := Function.update s.tasks key task }

/-- One view in `executeWaiting` or `returnLiabilities`. -/
def look (s : State) : Tx State :=
  match s.stage with
  | .executing [] _ _ => pure { s with stage := .executed }
  | .executing (ref :: rest) floatOn free =>
    pure { s with stage :=
      if s.vault.settled ref then .unwaiting ref rest floatOn free else .ordering ref rest floatOn free }
  | .ordering ref rest floatOn free =>
    let w := s.vault.waiting ref
    pure { s with stage :=
      if w.underlying = 0 then .unwaiting ref rest floatOn free
      else .affording ref w.amountIn rest floatOn free }
  | .affording ref amountIn rest floatOn free =>
    let own := s.vault.funding ref
    pure { s with stage :=
      if amountIn ≤ own ∨ floatOn = true ∧ amountIn ≤ free then .sendingExecution ref rest floatOn free
      else .executing rest floatOn free }
  | .executed => pure { s with stage := .returning s.returnable 0 }
  | .returning [] _ => pure { s with stage := .done }
  | .returning (ref :: rest) n =>
    pure { s with stage :=
      if c.maxPerTick ≤ n then .done else .adding ref (s.vault.funding ref) rest n }
  | .adding ref funding rest n =>
    let owed := funding + s.vault.proceeds ref
    pure { s with stage :=
      if owed = 0 then .forgetting ref false rest n
      else if owed < c.minReturn6 then .returning rest n
      else .quoting ref owed rest (n + 1) }
  | _ => throw (.revert .blocked)

/-- The shortfall of what Relay offers for `owed`, in basis points. -/
def shortBps (owed expectedOut : Nat) : Nat :=
  let need18 := owed * scale
  if need18 ≤ expectedOut then 0 else (need18 - expectedOut) * 10000 / need18

/-- The key of the transaction the worker waits for. -/
def Stage.awaits : Stage → Option Key
  | .sendingExecution ref _ _ _ => some (.executeFunded ref)
  | .sendingReturn ref orderId _ _ => some (.returnFunds ref orderId)
  | _ => none

/-- Where the worker goes on after an answer. -/
def Stage.next (confirmed : Bool) : Stage → Stage
  | .sendingExecution ref rest floatOn free =>
    if confirmed then .unwaiting ref rest floatOn free else .executing rest floatOn free
  | .sendingReturn ref _ rest n => if confirmed then .forgetting ref true rest n else .returning rest n
  | stage => stage

/-- The vault's call behind a key. -/
def Key.call (key : Key) (now : Nat) (fill : Option Fill) (fee pulled : Nat) : Vault.Call :=
  match key with
  | .executeFunded ref => ⟨c.wallet, now, .executeFunded ref fill fee⟩
  | .returnFunds ref _ => ⟨c.wallet, now, .returnFunds ref pulled⟩

/-- A call of the vault by anyone. -/
def call (s : State) (call : Vault.Call) : Tx State :=
  match Vault.step c.vault s.vault call with
  | .ok vault => pure { s with vault := vault }
  | .error _ => throw (.revert .blocked)

def step (s : State) : Action → Tx State
  | .tick => do
    require (s.stage = .idle ∨ s.stage = .done) .blocked
    pure { s with stage := .reconciling, returned := [] }
  | .reconciled key => do
    require (s.stage = .reconciling) .blocked
    match s.tasks key with
    | .sent _ true => pure (s.setTask key (.confirmed ()))
    | _ => throw (.revert .blocked)
  | .reconciledAll => do
    require (s.stage = .reconciling) .blocked
    pure { s with stage := .scanning }
  | .scan head => do
    require (s.stage = .scanning ∧ head ≤ s.vault.events.length) .blocked
    pure { s with head := head, stage := if head ≤ s.cursor then .scanned else .logs s.cursor s.cursor }
  | .getLogs last =>
    -- the window before is handled, so the cursor is written; the scan ends at its head
    match s.stage with
    | .logs next handled => do
      require (next = handled ∧ handled ≤ last ∧ last ≤ s.head) .blocked
      let s := { s with cursor := next }
      pure { s with stage := if next = s.head then .scanned else .logs next last }
    | _ => throw (.revert .blocked)
  | .log =>
    match s.stage with
    | .logs next last => do
      require (next < last) .blocked
      match s.vault.events[next]? with
      | some event => pure { s.scanLog event with stage := .logs (next + 1) last }
      | none => throw (.revert .blocked)
    | _ => throw (.revert .blocked)
  | .entries floatOn free => do
    require (s.stage = .scanned) .blocked
    pure { s with stage := .executing s.waiting floatOn free }
  | .look => look c s
  | .quoted quote =>
    match s.stage with
    | .quoting ref owed rest n =>
      match quote with
      | none => pure { s with stage := .returning rest n }
      | some (orderId, expectedOut) =>
        if c.maxReturnShortBps < shortBps owed expectedOut then pure { s with stage := .returning rest n }
        else pure { s with stage := .sendingReturn ref orderId rest n }
    | _ => throw (.revert .blocked)
  | .submit =>
    match s.stage.awaits with
    | none => throw (.revert .blocked)
    | some key => do
      require (s.tasks key = .unsent) .blocked
      pure (s.setTask key (.sent () false))
  | .answered confirmed =>
    match s.stage.awaits with
    | none => throw (.revert .blocked)
    | some key =>
      if confirmed = true then do
        require ((s.tasks key).landed = some ()) .blocked
        pure { s.setTask key (.confirmed ()) with stage := s.stage.next true }
      else pure { s with stage := s.stage.next false }
  | .clear =>
    match s.stage with
    | .unwaiting ref rest floatOn free =>
      pure { s with waiting := s.waiting.filter (· ≠ ref), stage := .executing rest floatOn free }
    | .forgetting ref paid rest n =>
      pure { s with
        returnable := s.returnable.filter (· ≠ ref)
        returned := if paid = true then s.returned ++ [ref] else s.returned
        stage := .returning rest n }
    | _ => throw (.revert .blocked)
  | .crash => pure { s with stage := .idle }
  | .mine key now fill fee pulled =>
    match s.tasks key with
    | .sent _ false => call c (s.setTask key (.sent () true)) (key.call c now fill fee pulled)
    | _ => throw (.revert .blocked)
  | .drop key =>
    match s.tasks key with
    | .sent _ false => pure (s.setTask key .unsent)
    | _ => throw (.revert .blocked)
  | .vault vaultCall => call c s vaultCall

def accepts (s : State) (action : Action) (after : State) : Prop := step c s action = .ok after

end Solonpad.VaultWorker
