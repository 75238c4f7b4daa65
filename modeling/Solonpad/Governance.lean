import Solonpad.Chain
import Solonpad.Histories

/-!
`V3Governance.sol` with the timelock it inherits. An operation's id is what it hashes. An execution
is a frame: its calls are made one at a time, and between them anyone, the called contract included,
may call in. Calldata is a number, of which a selector and, for calls to the contract itself, an
action can be read. What governance called, for whom and why is kept for the proofs.
-/

namespace Solonpad.Governance

open Checked
open Chain (Address)

inductive GovernanceError where
  | accessControl | insufficientDelay | unexpectedState | unexecutedPredecessor | badConfirmation
  | protectedOperation | delayBelowFloor | unauthorizedCaller | notTightenOnly | invalidRole
  | bootstrapUnavailable | failedCall
  deriving DecidableEq, Repr

abbrev Tx (α : Type) := Checked.Tx GovernanceError α

inductive Role where
  | admin | proposer | executor | canceller | guardian
  | other (n : Nat)
  deriving DecidableEq

structure Call where
  target : Address
  value : Nat
  data : Nat
  deriving DecidableEq

/-- `hashOperation` and `hashOperationBatch`; any other word is `other`, and `other 0` is no id. -/
inductive Id where
  | other (n : Nat)
  | single (call : Call) (predecessor : Id) (salt : Nat)
  | batch (calls : List Call) (predecessor : Id) (salt : Nat)
  deriving DecidableEq

def Id.calls : Id → List Call
  | .other _ => []
  | .single call _ _ => [call]
  | .batch calls _ _ => calls

inductive Action where
  | schedule (call : Call) (predecessor : Id) (salt delay : Nat)
  | scheduleBatch (calls : List Call) (predecessor : Id) (salt delay : Nat)
  | cancel (id : Id)
  | execute (call : Call) (predecessor : Id) (salt : Nat)
  | executeBatch (calls : List Call) (predecessor : Id) (salt : Nat)
  | grantRole (role : Role) (account : Address)
  | revokeRole (role : Role) (account : Address)
  | renounceRole (role : Role) (confirmation : Address)
  | updateDelay (newDelay : Nat)
  | setGuardianAction (target : Address) (selector : Nat) (allowed : Bool)
  | guardianCall (target : Address) (data : Nat)
  | bootstrapCreate
  | bootstrapCall (target : Address) (data : Nat)
  | closeBootstrap
  deriving DecidableEq

/-- Why governance made a call. -/
inductive Cause where
  | guardian | bootstrap
  | operation (id : Id)
  deriving DecidableEq

/-- A call governance made, and the account whose call made it so. -/
structure Sent where
  call : Call
  origin : Address
  cause : Cause
  deriving DecidableEq

/-- An operation under execution, with the calls it still makes. -/
structure Frame where
  id : Id
  predecessor : Id
  origin : Address
  rest : List Call

structure State where
  hasRole : Role → Address → Bool
  timestamps : Id → Nat
  delay : Nat
  protectedOperation : Id → Bool
  guardianAction : Address → Nat → Bool
  bootstrapClosed : Bool
  frames : List Frame
  sent : List Sent

structure Config where
  self : Address
  multisig : Address
  guardian : Address
  bootstrapper : Address
  bootstrapDeadline : Nat
  selector : Nat → Nat
  decode : Nat → Option Action

/-- `declares` is what a target answers to `guardianTightenOnly`; `answers` says that the one call or
creation of the step succeeds. -/
structure Env where
  now : Nat
  hasCode : Address → Bool
  declares : Address → Nat → Bool
  answers : Bool

def minDelay : Nat := 48 * 3600

def doneTimestamp : Nat := 1

variable (c : Config)

/-- The constructors. -/
def deployed : State where
  hasRole role account := match role with
    | .admin => decide (account = c.self)
    | .proposer => decide (account = c.multisig)
    | .executor => decide (account = 0)
    | .canceller => decide (account = c.multisig ∨ account = c.guardian)
    | .guardian => decide (account = c.guardian)
    | .other _ => false
  timestamps := fun _ => 0
  delay := minDelay
  protectedOperation := fun _ => false
  guardianAction := fun _ _ => false
  bootstrapClosed := false
  frames := []
  sent := []

/-- What the constructor requires of the roles. -/
structure Config.Valid : Prop where
  multisig : c.multisig ≠ 0
  guardian : c.guardian ≠ 0
  apart : c.guardian ≠ c.multisig
  bootstrapper : c.bootstrapper ≠ 0

/-! The timelock. -/

def State.isReady (s : State) (id : Id) (now : Nat) : Prop :=
  doneTimestamp < s.timestamps id ∧ s.timestamps id ≤ now

instance (s : State) (id : Id) (now : Nat) : Decidable (s.isReady id now) :=
  inferInstanceAs (Decidable (_ ∧ _))

def State.stamp (s : State) (id : Id) (at_ : Nat) : State :=
  { s with timestamps := Function.update s.timestamps id at_ }

theorem stamp_same (s : State) (id : Id) (at_ : Nat) : (s.stamp id at_).timestamps id = at_ :=
  Function.update_self ..

theorem stamp_other {id other : Id} (apart : other ≠ id) (s : State) (at_ : Nat) :
    (s.stamp id at_).timestamps other = s.timestamps other :=
  Function.update_of_ne apart ..

def State.grant (s : State) (role : Role) (account : Address) (has : Bool) : State :=
  { s with hasRole := Function.update s.hasRole role (Function.update (s.hasRole role) account has) }

def Id.callsSelf (id : Id) : Bool := id.calls.any fun call => decide (call.target = c.self)

/-- `schedule` and `scheduleBatch`: an operation that calls governance is marked. -/
def scheduleId (s : State) (env : Env) (sender : Address) (id : Id) (delay : Nat) : Tx State := do
  require (s.hasRole .proposer sender = true) .accessControl
  require (s.timestamps id = 0) .unexpectedState
  require (s.delay ≤ delay) .insufficientDelay
  let s := s.stamp id (env.now + delay)
  pure (if id.callsSelf c then
      { s with protectedOperation := Function.update s.protectedOperation id true }
    else s)

def cancel (s : State) (sender : Address) (id : Id) : Tx State := do
  require (¬ (s.protectedOperation id = true ∧ s.hasRole .proposer sender = false)) .protectedOperation
  require (s.hasRole .canceller sender = true) .accessControl
  require (doneTimestamp < s.timestamps id) .unexpectedState
  pure (s.stamp id 0)

/-- An execution up to its first call. -/
def executeId (s : State) (env : Env) (sender origin : Address) (id predecessor : Id) : Tx State := do
  require (s.hasRole .executor 0 = true ∨ s.hasRole .executor sender = true) .accessControl
  require (s.isReady id env.now) .unexpectedState
  require (predecessor = .other 0 ∨ s.timestamps predecessor = doneTimestamp) .unexecutedPredecessor
  pure { s with frames := ⟨id, predecessor, origin, id.calls⟩ :: s.frames }

def grantRole (s : State) (sender : Address) (role : Role) (account : Address) (has : Bool) :
    Tx State := do
  require (s.hasRole .admin sender = true) .accessControl
  pure (s.grant role account has)

def renounceRole (s : State) (sender : Address) (role : Role) (confirmation : Address) : Tx State := do
  require (confirmation = sender) .badConfirmation
  pure (s.grant role sender false)

/-! What this contract adds. -/

def updateDelay (s : State) (sender : Address) (newDelay : Nat) : Tx State := do
  require (minDelay ≤ newDelay) .delayBelowFloor
  require (sender = c.self) .unauthorizedCaller
  pure { s with delay := newDelay }

def setGuardianAction (s : State) (env : Env) (sender target : Address) (selector : Nat)
    (allowed : Bool) : Tx State := do
  require (sender = c.self) .unauthorizedCaller
  require (allowed = true → target ≠ c.self ∧ env.hasCode target = true ∧
    env.declares target selector = true) .notTightenOnly
  pure { s with
    guardianAction := Function.update s.guardianAction target
      (Function.update (s.guardianAction target) selector allowed) }

def State.send (s : State) (call : Call) (origin : Address) (cause : Cause) : State :=
  { s with sent := s.sent ++ [⟨call, origin, cause⟩] }

def guardianCall (s : State) (env : Env) (sender origin target : Address) (data : Nat) : Tx State := do
  require (s.hasRole .guardian sender = true) .accessControl
  require (target ≠ c.self ∧ s.guardianAction target (c.selector data) = true) .notTightenOnly
  require (env.answers = true) .failedCall
  pure (s.send ⟨target, 0, data⟩ origin .guardian)

/-- `onlyBootstrap`. -/
def onlyBootstrap (s : State) (env : Env) (sender : Address) : Tx Unit :=
  require (sender = c.bootstrapper ∧ s.bootstrapClosed = false ∧ env.now ≤ c.bootstrapDeadline)
    .bootstrapUnavailable

def bootstrapCreate (s : State) (env : Env) (sender : Address) : Tx State := do
  onlyBootstrap c s env sender
  require (env.answers = true) .bootstrapUnavailable
  pure s

def bootstrapCall (s : State) (env : Env) (sender origin target : Address) (data : Nat) : Tx State := do
  onlyBootstrap c s env sender
  require (target ≠ c.self ∧ env.hasCode target = true) .bootstrapUnavailable
  require (env.answers = true) .failedCall
  pure (s.send ⟨target, 0, data⟩ origin .bootstrap)

def closeBootstrap (s : State) (env : Env) (sender : Address) : Tx State := do
  require (s.bootstrapClosed = false ∧ (sender = c.bootstrapper ∨ c.bootstrapDeadline < env.now))
    .bootstrapUnavailable
  pure { s with bootstrapClosed := true }

def act (s : State) (env : Env) (sender origin : Address) (action : Action) : Tx State :=
  match action with
  | .schedule call predecessor salt delay =>
    scheduleId c s env sender (.single call predecessor salt) delay
  | .scheduleBatch calls predecessor salt delay =>
    scheduleId c s env sender (.batch calls predecessor salt) delay
  | .cancel id => cancel s sender id
  | .execute call predecessor salt =>
    executeId s env sender origin (.single call predecessor salt) predecessor
  | .executeBatch calls predecessor salt =>
    executeId s env sender origin (.batch calls predecessor salt) predecessor
  | .grantRole role account => grantRole s sender role account true
  | .revokeRole role account => grantRole s sender role account false
  | .renounceRole role confirmation => renounceRole s sender role confirmation
  | .updateDelay newDelay => updateDelay c s sender newDelay
  | .setGuardianAction target selector allowed => setGuardianAction c s env sender target selector allowed
  | .guardianCall target data => guardianCall c s env sender origin target data
  | .bootstrapCreate => bootstrapCreate c s env sender
  | .bootstrapCall target data => bootstrapCall c s env sender origin target data
  | .closeBootstrap => closeBootstrap c s env sender

/-! Steps. -/

/-- An account calls, the innermost execution makes its next call, or it ends. -/
inductive Move where
  | call (sender : Address) (action : Action)
  | proceed
  | finish

structure Step where
  env : Env
  move : Move

/-- What a step has the contract do, and for which sender. -/
def performed (s : State) : Move → Option (Address × Action)
  | .call sender action => some (sender, action)
  | .finish => none
  | .proceed =>
    match s.frames with
    | ⟨_, _, _, call :: _⟩ :: _ =>
      if call.target = c.self then (c.decode call.data).map fun action => (c.self, action) else none
    | _ => none

/-- The next call of an execution; an action called on the contract itself happens at once. -/
def proceed (s : State) (env : Env) : Tx State :=
  match s.frames with
  | ⟨id, predecessor, origin, call :: rest⟩ :: outer =>
    let s := State.send { s with frames := ⟨id, predecessor, origin, rest⟩ :: outer } call origin (.operation id)
    match (if call.target = c.self then c.decode call.data else none) with
    | some action => act c s env c.self origin action
    | none => do
      require (env.answers = true) .failedCall
      pure s
  | _ => throw (.revert .unexpectedState)

def finish (s : State) (env : Env) : Tx State :=
  match s.frames with
  | ⟨id, _, _, []⟩ :: outer => do
    require (s.isReady id env.now) .unexpectedState
    pure (State.stamp { s with frames := outer } id doneTimestamp)
  | _ => throw (.revert .unexpectedState)

def step (s : State) (t : Step) : Tx State :=
  match t.move with
  | .call sender action => do
    require (sender ≠ c.self) .unauthorizedCaller
    act c s t.env sender sender action
  | .proceed => proceed c s t.env
  | .finish => finish s t.env

end Solonpad.Governance
