import Solonpad.Checked
import Solonpad.Journal
import Solonpad.Transition

/-!
`tx.mjs` for one task key and one signing account, beside the chain it writes to. A call stands at one of its
awaits; between two of them anything may happen: the clock runs, a transaction that the provider was given is
mined, another transaction of the account is, the process crashes and starts again from the journal. A read
answers what the chain is at that moment.
-/

namespace Solonpad.TxSender

open Checked Journal Transition

/-- `body` is to, data and value. Equal contents have equal bytes and one hash. -/
structure Signed where
  body : Nat
  nonce : Nat
  gasLimit : Nat
  fee : Nat
  deriving DecidableEq, Repr

structure Config where
  execute : Bool
  gasMultiplierBps : Nat
  giveUpMs : Nat
  maxFeePerGasCap : Option Nat

/-- What a nonce of the account went to: a transaction of the key and whether it succeeded, or another. -/
inductive Entry where
  | own (tx : Signed) (success : Bool)
  | other
  deriving DecidableEq, Repr

inductive Status where
  | confirmed | sent | retryable
  | inflight | retryLater | quarantined | backoff | simulationFailed | dryRun | gasCap | rejected | reverted
  deriving DecidableEq, Repr

/-- The await a call stands at. -/
inductive Stage where
  | idle
  /-- `reconcile`, from `send` or alone. -/
  | receipt (tx : Signed) (raw : Bool) (sentAt : Nat) (sending : Bool)
  | latestCount (tx : Signed) (raw : Bool) (sentAt : Nat) (sending : Bool)
  | rebroadcast (tx : Signed) (sending : Bool)
  | rebroadcasting (tx : Signed) (sending : Bool)
  | confirmedReceipt (tx : Signed)
  | simulation (body : Nat) (gasLimit : Option Nat)
  | feeData (body : Nat) (gasLimit : Option Nat)
  | estimate (body fee : Nat)
  | pendingCount (body gasLimit fee : Nat)
  | broadcast (tx : Signed)
  | broadcasting (tx : Signed)
  | waiting (tx : Signed)
  | lateReceipt (tx : Signed)
  deriving DecidableEq, Repr

structure State where
  task : Option (Journal.Task Signed)
  stage : Stage
  answer : Option Status
  now : Nat
  /-- By nonce. -/
  mined : List Entry
  /-- Given to the provider and not refused. -/
  handed : List Signed
  /-- Every transaction signed for the key so far. -/
  signed : List Signed

def deployed (mined : List Entry) (now : Nat) : State where
  task := none
  stage := .idle
  answer := none
  now := now
  mined := mined
  handed := []
  signed := []

inductive Blocked where
  | blocked
  deriving DecidableEq, Repr

abbrev Tx (α : Type) := Checked.Tx Blocked α

inductive Answer where
  | accepted
  | alreadyKnown
  | nonceTooLow
  /-- The other messages of `REJECTED`. -/
  | refused
  | ambiguous
  deriving DecidableEq, Repr

inductive Action where
  | reconcile
  | send (body : Nat) (gasLimit : Option Nat)
  | receiptRead
  | latestCountRead
  | simulated (passes : Bool)
  | feeRead (fee : Nat)
  | estimated (gas : Nat)
  | pendingCountRead (count : Nat)
  | handOver
  | answered (answer : Answer)
  | waited (found : Bool)
  /-- A crash, or an error that a call throws. -/
  | crash
  | tick (ms : Nat)
  | mine (tx : Signed) (success : Bool)
  | mineOther

/-- The receipt's status, once there is one. -/
def State.receipt (s : State) (tx : Signed) : Option Bool :=
  match s.mined[tx.nonce]? with
  | some (.own mined success) => if mined = tx then some success else none
  | _ => none

def State.ends (s : State) (answer : Status) : State := { s with stage := .idle, answer := some answer }

def State.fails (s : State) (answer : Status) : State :=
  { s with task := some (markFailure s.task s.now), stage := .idle, answer := some answer }

def State.confirms (s : State) (tx : Signed) : State :=
  { s with task := some (markConfirmed s.task tx), stage := .idle, answer := some .confirmed }

/-- What `send` answers after `reconcile`, or `reconcile` alone. -/
def answerOf (sending : Bool) (alone inSend : Status) : Status := if sending then inSend else alone

variable (c : Config)

/-- `reconcile` with the receipt it read. -/
def receiptRead (s : State) : Tx State :=
  match s.stage with
  | .receipt tx raw sentAt sending =>
    match s.receipt tx with
    | some true => pure (s.confirms tx)
    | some false => pure (s.fails (answerOf sending .retryable .retryLater))
    | none => pure { s with stage := .latestCount tx raw sentAt sending }
  | .confirmedReceipt tx =>
    pure (s.ends (if s.receipt tx = some true then .confirmed else .inflight))
  | .lateReceipt tx =>
    match s.receipt tx with
    | some true => pure (s.confirms tx)
    | some false => pure (s.fails .reverted)
    | none => pure (s.ends .inflight)
  | _ => throw (.revert .blocked)

def latestCountRead (s : State) : Tx State :=
  match s.stage with
  | .latestCount tx raw sentAt sending =>
    if tx.nonce < s.mined.length then pure (s.fails (answerOf sending .retryable .retryLater))
    else if c.giveUpMs < s.now - sentAt then pure (s.fails (answerOf sending .retryable .retryLater))
    else if raw = true then pure { s with stage := .rebroadcast tx sending }
    else pure (s.ends (answerOf sending .sent .inflight))
  | _ => throw (.revert .blocked)

/-- `send` up to its first await. -/
def send (s : State) (body : Nat) (gasLimit : Option Nat) : Tx State :=
  match taskGate s.task s.now, s.task with
  | .reconcile, some ⟨_, _, some tx, raw, sentAt, _⟩ => pure { s with stage := .receipt tx raw sentAt true }
  | .confirmed, some ⟨_, _, some tx, _, _, _⟩ => pure { s with stage := .confirmedReceipt tx }
  | .quarantined, _ => pure (s.ends .quarantined)
  | .backoff, _ => pure (s.ends .backoff)
  | .go, _ => pure { s with stage := .simulation body gasLimit }
  | _, _ => throw (.revert .blocked)

/-- The transaction is signed and journaled; the provider does not have it yet. -/
def sign (s : State) (body nonce gasLimit fee : Nat) : State :=
  let tx : Signed := ⟨body, nonce, gasLimit, fee⟩
  { s with task := some (markSent s.task tx s.now), stage := .broadcast tx, signed := s.signed ++ [tx] }

/-- An answer that an honest provider may give to a broadcast: a nonce is too low once it is used, and what it
refuses it does not have. -/
def honest (s : State) (tx : Signed) : Answer → Prop
  | .nonceTooLow => tx.nonce < s.mined.length
  | .refused => s.receipt tx = none
  | _ => True

instance (s : State) (tx : Signed) : (answer : Answer) → Decidable (honest s tx answer)
  | .nonceTooLow => inferInstanceAs (Decidable (_ < _))
  | .refused => inferInstanceAs (Decidable (_ = _))
  | .accepted | .alreadyKnown | .ambiguous => .isTrue trivial

def answered (s : State) (answer : Answer) : Tx State :=
  match s.stage with
  | .broadcasting tx => do
    require (honest s tx answer) .blocked
    match answer with
    | .accepted => pure { s with stage := .waiting tx }
    | .ambiguous => pure (s.ends .inflight)
    | .alreadyKnown | .nonceTooLow => pure (s.fails .rejected)
    | .refused => pure ({ s with handed := s.handed.erase tx }.fails .rejected)
  | .rebroadcasting tx sending => do
    require (honest s tx answer) .blocked
    let s := if answer = .refused then { s with handed := s.handed.erase tx } else s
    pure (s.ends (answerOf sending .sent .inflight))
  | _ => throw (.revert .blocked)

def step (s : State) : Action → Tx State
  | .reconcile => do
    require (s.stage = .idle) .blocked
    match s.task with
    | some ⟨.sent, _, some tx, raw, sentAt, _⟩ => pure { s with stage := .receipt tx raw sentAt false }
    | _ => throw (.revert .blocked)
  | .send body gasLimit => do
    require (s.stage = .idle) .blocked
    send s body gasLimit
  | .receiptRead => receiptRead s
  | .latestCountRead => latestCountRead c s
  | .simulated passes =>
    match s.stage with
    | .simulation body gasLimit =>
      if passes = true then
        if c.execute = true then pure { s with stage := .feeData body gasLimit } else pure (s.ends .dryRun)
      -- A dry run never writes the journal.
      else if c.execute = true then pure (s.fails .simulationFailed)
      else pure (s.ends .simulationFailed)
    | _ => throw (.revert .blocked)
  | .feeRead fee =>
    match s.stage with
    | .feeData body gasLimit =>
      if ∃ cap, c.maxFeePerGasCap = some cap ∧ cap < fee then pure (s.ends .gasCap)
      else match gasLimit with
        | some limit => pure { s with stage := .pendingCount body limit fee }
        | none => pure { s with stage := .estimate body fee }
    | _ => throw (.revert .blocked)
  | .estimated gas =>
    match s.stage with
    | .estimate body fee => pure { s with stage := .pendingCount body (gas * c.gasMultiplierBps / 10000) fee }
    | _ => throw (.revert .blocked)
  | .pendingCountRead count =>
    match s.stage with
    | .pendingCount body gasLimit fee => do
      -- Whatever the provider counts of its pool, it counts what is mined.
      require (s.mined.length ≤ count) .blocked
      pure (sign s body count gasLimit fee)
    | _ => throw (.revert .blocked)
  | .handOver =>
    match s.stage with
    | .broadcast tx => pure { s with stage := .broadcasting tx, handed := tx :: s.handed }
    | .rebroadcast tx sending => pure { s with stage := .rebroadcasting tx sending, handed := tx :: s.handed }
    | _ => throw (.revert .blocked)
  | .answered answer => answered s answer
  | .waited found =>
    match s.stage with
    | .waiting tx =>
      match found, s.receipt tx with
      | true, some true => pure (s.confirms tx)
      | true, some false => pure (s.fails .reverted)
      | true, none => throw (.revert .blocked)
      | false, _ => pure { s with stage := .lateReceipt tx }
    | _ => throw (.revert .blocked)
  | .crash => pure { s with stage := .idle }
  | .tick ms => pure { s with now := s.now + ms }
  | .mine tx success => do
    require (tx ∈ s.handed ∧ tx.nonce = s.mined.length) .blocked
    pure { s with mined := s.mined ++ [.own tx success] }
  | .mineOther => pure { s with mined := s.mined ++ [.other] }

def accepts (s : State) (action : Action) (after : State) : Prop := step c s action = .ok after

end Solonpad.TxSender
