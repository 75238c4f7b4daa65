import Solonpad.Messages
import Mathlib.Logic.Function.Basic

/-!
The reserve on Robinhood Chain, `ReserveVault.sol`. Money for a buy and the order
itself arrive in either order; the vault answers every ref once and owes each ref its
unspent funding and its sale proceeds. Token balances are the vault's own; the venue,
the return route and the receivers of pushes are given by what they do in the call.
A call runs alone: the functions that call out share one reentrancy guard. The venue,
route and peer settings, which only choose whom the vault calls, are left out; the Merkle
root of a checkpoint is added over this model.
-/

namespace Solonpad.Vault

open Checked Chain Messages

/-- What the deployment fixes. -/
structure Config where
  self : Address
  settlement : Address
  hubEid : Nat
  treasury : Address
  floatRecipientA : Address
  floatRecipientB : Address

structure Listing where
  underlying : Address
  enabled : Bool

structure Pending where
  value : Address
  eta : Nat

/-- What the source emits. A return or a handover of a ref's money names both parts of
its amount, and `delivered` is stock or what its sale brought. -/
inductive Event where
  | orderIgnored (ref : Ref) (why : String)
  | orderWaitingFunds (ref : Ref) (needed funded : Nat)
  | funded (ref : Ref) (payer : Address) (amount toFloat : Nat)
  | orderExecuted (ref : Ref) (underlying : Address) (outcome : Outcome)
      (amountIn amountOut seq : Nat) (reason : String)
  | fundsReturned (ref : Ref) (funding proceeds : Nat)
  | liabilitiesDelivered (ref : Ref) (recipient : Address) (funding proceeds : Nat)
  | delivered (ref : Ref) (underlying recipient : Address) (mode : DeliverMode) (amount : Nat)

structure State where
  owner : Address
  guardian : Address
  keeper : Address
  paused : Bool
  bridger : Address
  pendingBridger : Pending
  floatEnabled : Bool
  migrationOpen : Bool
  listings : Address → Listing
  native : Nat
  balanceOf : Address → Nat
  entitledOf : Address → Nat
  results : List Result
  checkpointedThrough : Nat
  settled : Ref → Bool
  migrationNonce : Address → Nat
  claimable : Address → Address → Nat
  claimableTotal : Address → Nat
  funding : Ref → Nat
  proceeds : Ref → Nat
  waiting : Ref → Order
  advanced : Ref → Nat
  fundingTotal : Nat
  proceedsTotal : Nat
  /-- Results handed to LayerZero. -/
  outbox : List Result
  events : List Event

/-- How the venue fills a call it does not revert: what it pulls from the vault, what it
delivers to it and what it reports as delivered. -/
structure Fill where
  pulled : Nat
  delivered : Nat
  reported : Nat

def Order.blank : Order := ⟨.order 0, 0, .buy, 0, 0⟩

def configDelay : Nat := 48 * 3600

def deployed (owner bridger : Address) : State where
  owner := owner
  guardian := 0
  keeper := 0
  paused := false
  bridger := bridger
  pendingBridger := ⟨0, 0⟩
  floatEnabled := false
  migrationOpen := true
  listings := fun _ => ⟨0, false⟩
  native := 0
  balanceOf := fun _ => 0
  entitledOf := fun _ => 0
  results := []
  checkpointedThrough := 0
  settled := fun _ => false
  migrationNonce := fun _ => 0
  claimable := fun _ _ => 0
  claimableTotal := fun _ => 0
  funding := fun _ => 0
  proceeds := fun _ => 0
  waiting := fun _ => Order.blank
  advanced := fun _ => 0
  fundingTotal := 0
  proceedsTotal := 0
  outbox := []
  events := []

def State.listed (s : State) (underlying : Address) : Prop :=
  (s.listings underlying).underlying ≠ 0

instance (s : State) (underlying : Address) : Decidable (s.listed underlying) :=
  inferInstanceAs (Decidable (_ ≠ _))

def State.log (s : State) (event : Event) : State := { s with events := s.events ++ [event] }

variable (c : Config)

/-! Views. -/

def State.settlementLiabilities (s : State) : Nat :=
  s.fundingTotal + s.proceedsTotal + s.claimableTotal c.settlement

def State.freeSettlement (s : State) : Nat := s.balanceOf c.settlement - s.settlementLiabilities c

/-! Tokens. -/

/-- A token transfer out of the vault; to the vault itself it moves nothing. -/
def State.pay (s : State) (token recipient : Address) (amount : Nat) : State :=
  if recipient = c.self then s
  else { s with balanceOf := Function.update s.balanceOf token (s.balanceOf token - amount) }

def safeTransfer (s : State) (token recipient : Address) (amount : Nat) (accepted : Bool) :
    Tx State := do
  require (accepted = true ∧ amount ≤ s.balanceOf token) .transferFailed
  pure (s.pay c token recipient amount)

/-- `_push`: what cannot be transferred becomes claimable. -/
def push (s : State) (token recipient : Address) (amount : Nat) (accepted : Bool) : State :=
  if amount = 0 then s
  else if accepted = true ∧ amount ≤ s.balanceOf token then s.pay c token recipient amount
  else { s with
    claimable := Function.update s.claimable token
      (Function.update (s.claimable token) recipient (s.claimable token recipient + amount))
    claimableTotal := Function.update s.claimableTotal token (s.claimableTotal token + amount) }

/-! The venue. It pulls within the allowance it is given and the vault counts what lands. -/

def trade (s : State) (paid bought : Address) (amountIn minOut : Nat) (fill : Option Fill) :
    Tx (State × Nat) :=
  match fill with
  | none => throw (.revert .venueReverted)
  | some fill => do
    let before := s.balanceOf bought
    require (fill.pulled ≤ amountIn ∧ fill.pulled ≤ s.balanceOf paid) .venueReverted
    let s := { s with balanceOf := Function.update s.balanceOf paid (s.balanceOf paid - fill.pulled) }
    let s := { s with
      balanceOf := Function.update s.balanceOf bought (s.balanceOf bought + fill.delivered) }
    let landed ← sub (s.balanceOf bought) before
    let out := if landed < fill.reported then landed else fill.reported
    require (¬ out < minOut) .exceedsEntitlement
    pure (s, out)

def venueBuy (s : State) (underlying : Address) (settlementIn minSharesOut : Nat)
    (fill : Option Fill) : Tx (State × Nat) :=
  trade s c.settlement underlying settlementIn minSharesOut fill

def venueSell (s : State) (underlying : Address) (sharesIn minSettlementOut : Nat)
    (fill : Option Fill) : Tx (State × Nat) :=
  trade s underlying c.settlement sharesIn minSettlementOut fill

/-! Orders. -/

def fundable (s : State) (o : Order) : Prop :=
  o.amountIn ≤ s.funding o.ref ∨ s.floatEnabled = true ∧ o.amountIn ≤ s.freeSettlement c

instance (s : State) (o : Order) : Decidable (fundable c s o) :=
  inferInstanceAs (Decidable (_ ∨ _))

structure Executed where
  state : State
  outcome : Outcome
  amountOut : Nat
  reason : String

def failed (s : State) (reason : String) : Executed := ⟨s, .failed, 0, reason⟩

def executeBuy (s : State) (o : Order) (fill : Option Fill) : Tx Executed :=
  -- this ref's own money first; the optional float may advance the rest
  let own := if s.funding o.ref < o.amountIn then s.funding o.ref else o.amountIn
  let adv := o.amountIn - own
  if 0 < adv ∧ (s.floatEnabled = false ∨ s.freeSettlement c < adv) then pure (failed s "funding")
  else do
    let fundingTotal ← sub s.fundingTotal own
    let s := { s with
      funding := Function.update s.funding o.ref (s.funding o.ref - own)
      fundingTotal := fundingTotal
      advanced := Function.update s.advanced o.ref (s.advanced o.ref + adv) }
    match venueBuy c s o.underlying o.amountIn o.minOut fill with
    | .ok (s, shares) =>
      pure ⟨{ s with
        entitledOf := Function.update s.entitledOf o.underlying (s.entitledOf o.underlying + shares) },
        .bought, toUint128 shares, ""⟩
    | .error _ =>
      -- nothing was bought: the money is still this ref's
      pure (failed { s with
        funding := Function.update s.funding o.ref (s.funding o.ref + own)
        fundingTotal := s.fundingTotal + own
        advanced := Function.update s.advanced o.ref (s.advanced o.ref - adv) } "venue buy")

def executeSell (s : State) (o : Order) (fill : Option Fill) : Executed :=
  let entitled := s.entitledOf o.underlying
  if entitled < o.amountIn then failed s "entitlement"
  else
    match venueSell c s o.underlying o.amountIn o.minOut fill with
    | .ok (s, out) =>
      ⟨{ s with
        entitledOf := Function.update s.entitledOf o.underlying (entitled - o.amountIn)
        proceeds := Function.update s.proceeds o.ref (s.proceeds o.ref + out)
        proceedsTotal := s.proceedsTotal + out },
        .sold, toUint128 out, ""⟩
    | .error _ => failed s "venue sell"

/-- `_execute`. -/
def execute (s : State) (o : Order) (fill : Option Fill) : Tx Executed :=
  if ¬ s.listed o.underlying then pure (failed s "not listed")
  else if o.amountIn = 0 then pure (failed s "zero amount")
  else
    match o.side with
    | .buy =>
      if s.paused then pure (failed s "paused")
      else if (s.listings o.underlying).enabled = false then pure (failed s "disabled")
      else executeBuy c s o fill
    | .sell => pure (executeSell c s o fill)

/-- `_settleAndSend`: the result goes to the log and, for `fee` of the vault's own gas, to the hub. -/
def settleAndSend (s : State) (o : Order) (fill : Option Fill) (fee : Nat) : Tx State := do
  let done ← execute c { s with settled := Function.update s.settled o.ref true } o fill
  let s := done.state
  let seq := toUint64 s.results.length
  let r : Result := ⟨o.ref, o.underlying, done.outcome, o.amountIn, done.amountOut, seq⟩
  require (fee ≤ s.native) .notEnoughNative
  pure { s with
    results := s.results ++ [r]
    outbox := s.outbox ++ [r]
    native := s.native - fee
    events := s.events ++ [.orderExecuted o.ref o.underlying done.outcome o.amountIn done.amountOut
      seq done.reason] }

def State.unwait (s : State) (ref : Ref) : State :=
  { s with waiting := Function.update s.waiting ref Order.blank }

def lzReceive (s : State) (srcEid : Nat) (o : Order) (fill : Option Fill) (fee : Nat) :
    Tx State := do
  require (srcEid = c.hubEid) .notOwner
  if s.settled o.ref then pure (s.log (.orderIgnored o.ref "already settled"))
  else if o.side = .buy ∧ o.amountIn = 0 then
    -- the hub's void: the ref settles as Failed and the real order can never execute
    settleAndSend c (s.unwait o.ref) o fill fee
  else if (s.waiting o.ref).underlying ≠ 0 then pure (s.log (.orderIgnored o.ref "already waiting"))
  else if o.side = .buy ∧ ¬ fundable c s o then
    pure ({ s with waiting := Function.update s.waiting o.ref o }.log
      (.orderWaitingFunds o.ref o.amountIn (s.funding o.ref)))
  else settleAndSend c s o fill fee

/-- `fund`; `got` is the increase of the settlement balance the transfer causes. -/
def fund (s : State) (sender : Address) (ref : Ref) (amount got : Nat) : Tx State := do
  require (amount ≠ 0) .zeroAmount
  let toFloat := if s.advanced ref < got then s.advanced ref else got
  pure ({ s with
    balanceOf := Function.update s.balanceOf c.settlement (s.balanceOf c.settlement + got)
    advanced := Function.update s.advanced ref (s.advanced ref - toFloat)
    funding := Function.update s.funding ref (s.funding ref + (got - toFloat))
    fundingTotal := s.fundingTotal + (got - toFloat) }.log (.funded ref sender got toFloat))

def executeFunded (s : State) (ref : Ref) (fill : Option Fill) (fee : Nat) : Tx State := do
  let o := s.waiting ref
  require (¬ (o.underlying = 0 ∨ s.settled ref = true)) .notWaiting
  require (fundable c s o) .notWaiting
  settleAndSend c (s.unwait ref) o fill fee

structure Taken where
  state : State
  funding : Nat
  proceeds : Nat

/-- `_takeLiabilities`. -/
def takeLiabilities (s : State) (ref : Ref) : Tx Taken := do
  let f := s.funding ref
  let p := s.proceeds ref
  let fundingTotal ← sub s.fundingTotal f
  let proceedsTotal ← sub s.proceedsTotal p
  pure ⟨{ s with
    funding := Function.update s.funding ref 0
    fundingTotal := fundingTotal
    proceeds := Function.update s.proceeds ref 0
    proceedsTotal := proceedsTotal }, f, p⟩

/-- `returnFunds`; the route pulls `pulled` out of the amount approved for it. -/
def returnFunds (s : State) (sender : Address) (ref : Ref) (pulled : Nat) : Tx State := do
  require (sender = s.keeper ∨ sender = s.owner) .notKeeper
  require (s.settled ref = true) .notSettled
  let taken ← takeLiabilities s ref
  require (taken.funding + taken.proceeds ≠ 0) .nothingToReturn
  require (pulled ≤ taken.funding + taken.proceeds ∧ pulled ≤ s.balanceOf c.settlement)
    .transferFailed
  pure ({ taken.state with
    balanceOf := Function.update s.balanceOf c.settlement (s.balanceOf c.settlement - pulled) }.log
      (.fundsReturned ref taken.funding taken.proceeds))

/-! The canonical lane. -/

def applyL1ToL2Alias (sender : Address) : Address :=
  (sender + 0x1111000000000000000000000000000000001111) % 2 ^ 160

/-- A ref's unspent money handed to its holder here. -/
def handOver (taken : Taken) (d : Deliver) (accepted : Bool) : State :=
  (push c taken.state c.settlement d.recipient (taken.funding + taken.proceeds) accepted).log
    (.liabilitiesDelivered d.ref d.recipient taken.funding taken.proceeds)

def State.record (s : State) (ref : Ref) (underlying : Address) (outcome : Outcome)
    (amountIn amountOut : Nat) : State :=
  { s with results := s.results ++
      [⟨ref, underlying, outcome, amountIn, amountOut, toUint64 s.results.length⟩] }

def deliver (s : State) (sender : Address) (d : Deliver) (fill : Option Fill) (accepted : Bool) :
    Tx State := do
  require (sender = applyL1ToL2Alias s.bridger) .notBridgerAlias
  if s.settled d.ref then
    if d.shares = 0 then do
      let taken ← takeLiabilities s d.ref
      if taken.funding + taken.proceeds = 0 then
        pure (taken.state.log (.orderIgnored d.ref "already settled"))
      else pure (handOver c taken d accepted)
    else pure (s.log (.orderIgnored d.ref "already settled"))
  else do
    let s := { s.unwait d.ref with settled := Function.update s.settled d.ref true }
    if d.shares = 0 then do
      -- a canonical void of a buy the vault never answered
      let taken ← takeLiabilities (s.record d.ref d.underlying .failed 0 0) d.ref
      pure (handOver c taken d accepted)
    else do
      require (s.listed d.underlying) .notListed
      let entitled := s.entitledOf d.underlying
      require (¬ entitled < d.shares) .exceedsEntitlement
      -- a canonical-only record: Arc owes nothing for it
      let s := { s with
        entitledOf := Function.update s.entitledOf d.underlying (entitled - d.shares) }.record
          d.ref d.underlying .sold d.shares 0
      let stock := (push c s d.underlying d.recipient d.shares accepted).log
        (.delivered d.ref d.underlying d.recipient .stock d.shares)
      match d.mode with
      | .stock => pure stock
      | .settlement =>
        match venueSell c s d.underlying d.shares 0 fill with
        | .ok (s, out) =>
          pure ((push c s c.settlement d.recipient out accepted).log
            (.delivered d.ref d.underlying d.recipient .settlement out))
        | .error _ => pure stock

def claim (s : State) (sender token : Address) (accepted : Bool) : Tx State := do
  let amount := s.claimable token sender
  require (amount ≠ 0) .zeroAmount
  let claimableTotal ← sub (s.claimableTotal token) amount
  safeTransfer c { s with
    claimable := Function.update s.claimable token (Function.update (s.claimable token) sender 0)
    claimableTotal := Function.update s.claimableTotal token claimableTotal }
    token sender amount accepted

/-- `checkpoint`, without the Merkle root. -/
def checkpoint (s : State) : Tx State := do
  let through := toUint64 s.results.length
  require (through ≠ s.checkpointedThrough) .nothingToCheckpoint
  let _ ← sub through s.checkpointedThrough
  pure { s with checkpointedThrough := through }

/-! Operating capital, migration and administration. -/

def withdrawFloat (s : State) (sender token recipient : Address) (amount : Nat) (accepted : Bool) :
    Tx State := do
  require (sender = s.keeper ∨ sender = s.owner) .notKeeper
  require (recipient = c.floatRecipientA ∨ recipient = c.floatRecipientB) .notFloatRecipient
  if token = 0 then do
    require (accepted = true ∧ amount ≤ s.native) .zeroAmount
    pure { s with native := s.native - amount }
  else do
    require (¬ s.listed token) .notListed
    require (token = c.settlement → amount ≤ s.freeSettlement c) .insufficientFloat
    safeTransfer c s token recipient amount accepted

def migrateIn (s : State) (sender underlying : Address) (settlementIn minShares : Nat)
    (fill : Option Fill) : Tx State := do
  require (sender = s.owner) .notOwner
  require (s.migrationOpen = true) .migrationIsClosed
  require (s.listed underlying) .notListed
  require (settlementIn ≠ 0) .zeroAmount
  require (settlementIn ≤ s.freeSettlement c) .insufficientFloat
  let (s, shares) ← venueBuy c s underlying settlementIn minShares fill
  let nonce := s.migrationNonce underlying
  let next ← add 64 nonce 1
  pure ({ s with
    entitledOf := Function.update s.entitledOf underlying (s.entitledOf underlying + shares)
    migrationNonce := Function.update s.migrationNonce underlying next }.record
      (.migration underlying nonce) underlying .bought (toUint128 settlementIn) (toUint128 shares))

def skimExcess (s : State) (sender underlying : Address) (accepted : Bool) : Tx State := do
  require (sender = s.owner) .notOwner
  require (s.listed underlying) .notListed
  let owed := s.entitledOf underlying + s.claimableTotal underlying
  let reserve := s.balanceOf underlying
  require (¬ reserve ≤ owed) .nothingToSkim
  safeTransfer c s underlying c.treasury (reserve - owed) accepted

/-- `listStock`; `supported` is the venue's answer. -/
def listStock (s : State) (sender underlying : Address) (supported : Bool) : Tx State := do
  require (sender = s.owner) .notOwner
  require (underlying ≠ 0) .zeroAddress
  require (¬ s.listed underlying) .alreadyListed
  require (supported = true) .venueUnsupported
  pure { s with listings := Function.update s.listings underlying ⟨underlying, true⟩ }

def setEnabled (s : State) (sender underlying : Address) (enabled : Bool) : Tx State := do
  require (sender = s.owner) .notOwner
  require (s.listed underlying) .notListed
  pure { s with listings :=
    Function.update s.listings underlying { s.listings underlying with enabled := enabled } }

def setBridger (s : State) (sender : Address) (now : Nat) (bridger : Address) : Tx State := do
  require (sender = s.owner) .notOwner
  require (bridger ≠ 0) .zeroAddress
  if s.bridger = 0 then pure { s with bridger := bridger }
  else pure { s with pendingBridger := ⟨bridger, now + configDelay⟩ }

def executeBridger (s : State) (sender : Address) (now : Nat) : Tx State := do
  require (sender = s.owner) .notOwner
  let p := s.pendingBridger
  require (¬ (p.value = 0 ∨ now < p.eta)) .timelocked
  pure { s with bridger := p.value, pendingBridger := ⟨0, 0⟩ }

def setKeeper (s : State) (sender keeper : Address) : Tx State := do
  require (sender = s.owner) .notOwner
  pure { s with keeper := keeper }

def setFloatEnabled (s : State) (sender : Address) (enabled : Bool) : Tx State := do
  require (sender = s.owner) .notOwner
  pure { s with floatEnabled := enabled }

def closeMigration (s : State) (sender : Address) : Tx State := do
  require (sender = s.owner) .notOwner
  pure { s with migrationOpen := false }

def pause (s : State) (sender : Address) : Tx State := do
  require (sender = s.guardian ∨ sender = s.owner) .notGuardianOrOwner
  require (s.paused = false) .enforcedPause
  pure { s with paused := true }

def unpause (s : State) (sender : Address) : Tx State := do
  require (sender = s.owner) .notOwner
  require (s.paused = true) .expectedPause
  pure { s with paused := false }

def setGuardian (s : State) (sender guardian : Address) : Tx State := do
  require (sender = s.owner) .notOwner
  pure { s with guardian := guardian }

/-! One call by any sender; anyone may also send the vault tokens or gas. -/

inductive Action where
  | lzReceive (srcEid : Nat) (order : Order) (fill : Option Fill) (fee : Nat)
  | fund (ref : Ref) (amount got : Nat)
  | executeFunded (ref : Ref) (fill : Option Fill) (fee : Nat)
  | returnFunds (ref : Ref) (pulled : Nat)
  | deliver (message : Deliver) (fill : Option Fill) (accepted : Bool)
  | claim (token : Address) (accepted : Bool)
  | checkpoint
  | withdrawFloat (token recipient : Address) (amount : Nat) (accepted : Bool)
  | migrateIn (underlying : Address) (settlementIn minShares : Nat) (fill : Option Fill)
  | skimExcess (underlying : Address) (accepted : Bool)
  | listStock (underlying : Address) (supported : Bool)
  | setEnabled (underlying : Address) (enabled : Bool)
  | setBridger (bridger : Address)
  | executeBridger
  | setKeeper (keeper : Address)
  | setFloatEnabled (enabled : Bool)
  | closeMigration
  | pause
  | unpause
  | setGuardian (guardian : Address)
  | donate (token : Address) (amount : Nat)
  | receive (amount : Nat)

structure Call where
  sender : Address
  now : Nat
  action : Action

def step (s : State) (call : Call) : Tx State :=
  match call.action with
  | .lzReceive srcEid order fill fee => lzReceive c s srcEid order fill fee
  | .fund ref amount got => fund c s call.sender ref amount got
  | .executeFunded ref fill fee => executeFunded c s ref fill fee
  | .returnFunds ref pulled => returnFunds c s call.sender ref pulled
  | .deliver message fill accepted => deliver c s call.sender message fill accepted
  | .claim token accepted => claim c s call.sender token accepted
  | .checkpoint => checkpoint s
  | .withdrawFloat token recipient amount accepted =>
    withdrawFloat c s call.sender token recipient amount accepted
  | .migrateIn underlying settlementIn minShares fill =>
    migrateIn c s call.sender underlying settlementIn minShares fill
  | .skimExcess underlying accepted => skimExcess c s call.sender underlying accepted
  | .listStock underlying supported => listStock s call.sender underlying supported
  | .setEnabled underlying enabled => setEnabled s call.sender underlying enabled
  | .setBridger bridger => setBridger s call.sender call.now bridger
  | .executeBridger => executeBridger s call.sender call.now
  | .setKeeper keeper => setKeeper s call.sender keeper
  | .setFloatEnabled enabled => setFloatEnabled s call.sender enabled
  | .closeMigration => closeMigration s call.sender
  | .pause => pause s call.sender
  | .unpause => unpause s call.sender
  | .setGuardian guardian => setGuardian s call.sender guardian
  | .donate token amount =>
    pure { s with balanceOf := Function.update s.balanceOf token (s.balanceOf token + amount) }
  | .receive amount => pure { s with native := s.native + amount }

def accepts (s : State) (call : Call) (after : State) : Prop := step c s call = .ok after

end Solonpad.Vault
