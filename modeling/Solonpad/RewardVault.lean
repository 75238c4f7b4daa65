import Solonpad.Chain

/-!
`RewardVault.sol`: the custody of bought stock. Each allocation is one source's epoch and cohort, its
deliveries come from the round manager, and what an account is staged of it is the difference to its
share of all that was delivered. Sources and tokens are the peers' answers. `deliveredAt`, what was
delivered when an account was last staged, is kept for the proofs.
-/

namespace Solonpad.RewardVault

open Checked
open Chain (Address)

inductive VaultError where
  | manager | allocation | stockCoverage | orphanDelta | payout | credit | allocationCoverage
  | stageDelta | participants | index | enumerationIncomplete | participantBound | peer
  deriving DecidableEq, Repr

abbrev Tx (α : Type) := Checked.Tx VaultError α

structure Allocation where
  source : Address
  epoch : Nat
  cohort : Nat
  asset : Address
  creditTotal : Nat
  cumulativeDelivered : Nat
  revision : Nat

def Allocation.blank : Allocation := ⟨0, 0, 0, 0, 0, 0, 0⟩

structure Store where
  allocations : Nat → Allocation
  creditedToPayout : Nat → Address → Nat
  allocationStaged : Nat → Nat
  totalDelivered : Address → Nat
  totalStaged : Address → Nat
  participants : Address → List Address
  knownSource : Address → Bool
  sourceCursor : Address → Nat
  requiredSourceBound : Address → Nat
  sourceBounds : Nat → Nat
  participantUpperBound : Nat → Nat
  participantIndexSealed : Nat → Bool
  deliveredAt : Nat → Address → Nat

def Store.empty : Store where
  allocations := fun _ => .blank
  creditedToPayout := fun _ _ => 0
  allocationStaged := fun _ => 0
  totalDelivered := fun _ => 0
  totalStaged := fun _ => 0
  participants := fun _ => []
  knownSource := fun _ => false
  sourceCursor := fun _ => 0
  requiredSourceBound := fun _ => 0
  sourceBounds := fun _ => 0
  participantUpperBound := fun _ => 0
  participantIndexSealed := fun _ => false
  deliveredAt := fun _ _ => 0

structure Config where
  self : Address
  manager : Address
  payout : Address

/-- What sources show, and how a token or the native coin moves the vault's balance. -/
structure Peers (W : Type) where
  queueSnapshot : W → Address → Nat → Tx (Nat × Nat)
  participantAt : W → Address → Nat → Tx Address
  creditOf : W → Address → Address → Nat → Nat → Tx Nat
  transfer : W → Address → Address → Nat → Tx W
  refund : W → Nat → Tx W

/-- What a holder has of an asset. -/
abbrev Balance (W : Type) := W → Address → Address → Nat

structure State (W : Type) where
  store : Store
  world : W

variable {W : Type} (c : Config) (b : Balance W) (x : Peers W)

/-! The manager's calls. -/

def returnRefund (s : State W) (sender : Address) (amount : Nat) : Tx (State W) := do
  require (sender = c.manager) .manager
  let world ← x.refund s.world amount
  pure ⟨s.store, world⟩

/-- A transfer of exactly `amount`, measured on both sides. -/
def sendExactly (s : State W) (error : VaultError) (asset receiver amount : Nat) : Tx (State W) := do
  let held := b s.world asset c.self
  let before := b s.world asset receiver
  let world ← x.transfer s.world asset receiver amount
  require (b world asset receiver = before + amount ∧ b world asset c.self + amount = held) error
  pure ⟨s.store, world⟩

def sendOrphan (s : State W) (sender asset treasury : Address) (raw : Nat) : Tx (State W) := do
  require (sender = c.manager) .manager
  sendExactly c b x s .orphanDelta asset treasury raw

def registerAllocation (s : State W) (sender : Address) (id : Nat) (source : Address)
    (epoch cohort : Nat) (asset : Address) (total : Nat) : Tx (State W) := do
  require (sender = c.manager ∧ (s.store.allocations id).source = 0 ∧ 0 < total) .allocation
  let (bound, _) ← x.queueSnapshot s.world source epoch
  let required := s.store.requiredSourceBound source
  pure ⟨{ s.store with
    allocations := Function.update s.store.allocations id ⟨source, epoch, cohort, asset, total, 0, 0⟩
    sourceBounds := Function.update s.store.sourceBounds id bound
    knownSource := Function.update s.store.knownSource source true
    requiredSourceBound := if required < bound then
        Function.update s.store.requiredSourceBound source bound
      else s.store.requiredSourceBound }, s.world⟩

def recordDelivery (s : State W) (sender : Address) (id raw : Nat) : Tx (State W) := do
  require (sender = c.manager) .manager
  let a := s.store.allocations id
  require (a.source ≠ 0) .allocation
  let store := { s.store with
    allocations := Function.update s.store.allocations id { a with
      cumulativeDelivered := a.cumulativeDelivered + raw, revision := a.revision + 1 }
    totalDelivered := Function.update s.store.totalDelivered a.asset
      (s.store.totalDelivered a.asset + raw) }
  let due ← sub (store.totalDelivered a.asset) (store.totalStaged a.asset)
  require (due ≤ b s.world a.asset c.self) .stockCoverage
  pure ⟨store, s.world⟩

/-! Staging. -/

/-- One pass of the loop of `stageCredit`: the store and what the account is due now. -/
def stageOne (w : W) (account asset : Address) (id : Nat) (s : Store) : Tx (Store × Nat) := do
  let a := s.allocations id
  require (a.source ≠ 0) .allocation
  if a.asset ≠ asset then pure (s, 0)
  else do
    let credit ← x.creditOf w a.source account a.epoch a.cohort
    require (credit ≤ a.creditTotal) .credit
    let owed := credit * a.cumulativeDelivered / a.creditTotal
    let delta ← sub owed (s.creditedToPayout id account)
    let staged := s.allocationStaged id + delta
    require (staged ≤ a.cumulativeDelivered) .allocationCoverage
    pure ({ s with
      allocationStaged := Function.update s.allocationStaged id staged
      creditedToPayout := Function.update s.creditedToPayout id
        (Function.update (s.creditedToPayout id) account owed)
      deliveredAt := Function.update s.deliveredAt id
        (Function.update (s.deliveredAt id) account a.cumulativeDelivered) }, delta)

def stageAll (w : W) (account asset : Address) : List Nat → Store → Tx (Store × Nat)
  | [], s => pure (s, 0)
  | id :: rest, s => do
    let (s, delta) ← stageOne x w account asset id s
    let (s, amount) ← stageAll w account asset rest s
    pure (s, delta + amount)

def stageCredit (s : State W) (sender account : Address) (ids : List Nat) (asset : Address) :
    Tx (State W × Nat) := do
  require (sender = c.payout ∧ ids.length ≤ 20) .payout
  let (store, amount) ← stageAll x s.world account asset ids s.store
  if 0 < amount then do
    let store := { store with
      totalStaged := Function.update store.totalStaged asset (store.totalStaged asset + amount) }
    let s ← sendExactly c b x ⟨store, s.world⟩ .stageDelta asset c.payout amount
    pure (s, amount)
  else pure (⟨store, s.world⟩, amount)

/-! The participant index. -/

/-- The loop of `registerParticipants`. -/
def copyParticipants (w : W) (source : Address) : Nat → Nat → List Address → Tx (List Address)
  | 0, _, copied => pure copied
  | n + 1, cursor, copied => do
    let account ← x.participantAt w source cursor
    copyParticipants w source n (cursor + 1) (copied ++ [account])

def registerParticipants (s : State W) (source : Address) (most : Nat) : Tx (State W) := do
  require (s.store.knownSource source = true ∧ 0 < most ∧ most ≤ 64) .participants
  let cursor := s.store.sourceCursor source
  let stop := min (cursor + most) (s.store.requiredSourceBound source)
  let copied ← copyParticipants x s.world source (stop - cursor) cursor (s.store.participants source)
  pure ⟨{ s.store with
    participants := Function.update s.store.participants source copied
    sourceCursor := Function.update s.store.sourceCursor source stop }, s.world⟩

def sealParticipantIndex (s : Store) (id : Nat) : Tx Store := do
  let source := (s.allocations id).source
  require (source ≠ 0 ∧ s.sourceBounds id ≤ s.sourceCursor source) .index
  if s.participantIndexSealed id = true then pure s
  else pure { s with
    participantIndexSealed := Function.update s.participantIndexSealed id true
    participantUpperBound := Function.update s.participantUpperBound id (s.sourceBounds id) }

def queueSnapshot (s : Store) (id : Nat) : Tx (Nat × Nat) := do
  require (s.participantIndexSealed id = true) .enumerationIncomplete
  pure (s.participantUpperBound id, (s.allocations id).revision)

def participantAt (s : Store) (id i : Nat) : Tx Address := do
  require (s.participantIndexSealed id = true ∧ i < s.participantUpperBound id) .participantBound
  match (s.participants (s.allocations id).source)[i]? with
  | some account => pure account
  | none => throw .bounds

def queueAsset (s : Store) (id : Nat) : Address := (s.allocations id).asset

end Solonpad.RewardVault
