import Solonpad.DeskRewards

/-!
`DeskNFT.sol`, the automatic service of the cards. Anyone may walk a queue's cards a page at a time; a card
of the protocol is skipped, any other is pushed in a call with an allowance of its own, and a push that
fails is counted and left behind. Gas is what the environment says was left at each turn of the loop. A
queue's key is what it is made of.
-/

namespace Solonpad.Desk

open Checked
open Chain (Address)
open Eligibility (day)

inductive ServiceError where
  | servicePolicy | serviceOracle | serviceStreams | duplicateStream | readyStock | sameAsset
  | queueExists | batchPage | scanSchedule | reentrancy | nonexistentToken | protocolDelegated | peer
  deriving DecidableEq, Repr

abbrev ServiceTx (α : Type) := Checked.Tx ServiceError α

structure DeskQueue where
  stream : Key
  asset : Address
  upperBound : Nat
  cursor : Nat
  nextScanAt : Nat
  /-- `queueStreams` and `queueRevisions` of the queue. -/
  streams : List Key
  revisions : List Nat

structure Service where
  servicePolicy : Address
  deskQueues : List DeskQueue
  deskQueued : List Key × Address × List Nat → Bool

def Service.empty : Service := ⟨0, [], fun _ => false⟩

/-- What the policy and its oracle show. -/
structure ServiceViews (W : Type) where
  oracleHasCode : Address → Bool
  priceUSD18 : W → Address → ServiceTx (Nat × Nat)
  oracleMaxAge : W → ServiceTx Nat
  minimumUSD18 : W → ServiceTx Nat

/-- The gas at one card: whether too little is left to go on, and whether the allowance of the push is
enough. -/
structure CardGas where
  low : Bool
  push : Bool

structure ServiceEnv where
  call : Env
  enough : Bool
  gas : Nat → CardGas

structure Serviced (W : Type) where
  desk : State W
  service : Service

variable {W : Type} (c : Config) (b : Balance W) (x : Peers W) (v : ServiceViews W)

/-! Queues. -/

def configureServicePolicy (s : Service) (env : Env) (policy : Address) : ServiceTx Service := do
  require (env.sender = c.cards.governance ∧ s.servicePolicy = 0 ∧ env.hasCode policy = true) .servicePolicy
  require (v.oracleHasCode policy = true) .serviceOracle
  pure { s with servicePolicy := policy }

def deliveryInfo (s : Store) (key : Key) : Address × Nat :=
  let st := s.streams key
  if st.kind = 1 then (st.asset, st.counter) else (st.purchasedAsset, st.purchasedRaw)

/-- The loop of `_openDeskQueue`: the streams' common asset and their revisions. -/
def admitStreams (s : Store) : List Key → Option Address → List Key → ServiceTx (Option Address × List Nat)
  | _, asset, [] => pure (asset, [])
  | taken, asset, key :: rest => do
    require (key ∉ taken) .duplicateStream
    let (current, revision) := deliveryInfo s key
    require (current ≠ 0 ∧ revision ≠ 0) .readyStock
    require (asset.getD current = current) .sameAsset
    let (asset, revisions) ← admitStreams s (taken ++ [key]) (some (asset.getD current)) rest
    pure (asset, revision :: revisions)

/-- `_openDeskQueue`. -/
def openDeskQueue (s : Serviced W) (keys : List Key) : ServiceTx Service := do
  require (s.service.servicePolicy ≠ 0 ∧ keys ≠ [] ∧ keys.length ≤ 20) .serviceStreams
  let (asset, revisions) ← admitStreams s.desk.store [] none keys
  let unique := (keys, asset.getD 0, revisions)
  require (s.service.deskQueued unique = false) .queueExists
  match keys with
  | [] => throw .bounds
  | first :: _ => pure { s.service with
      deskQueued := Function.update s.service.deskQueued unique true
      deskQueues := s.service.deskQueues ++
        [⟨first, asset.getD 0, s.desk.cards.totalSupply, 0, 0, keys, revisions⟩] }

/-! The walk. -/

def ownerOf (cards : Cards) (id : Nat) : ServiceTx Address := do
  require (cards.ownerOf id ≠ 0) .nonexistentToken
  pure (cards.ownerOf id)

/-- The loop of `executeAutomaticPush`. -/
def claimableTotal (s : State W) (id : Nat) : List Key → ServiceTx Nat
  | [] => pure 0
  | key :: rest => do
    let amount ← relay .peer (claimable s id key)
    let total ← claimableTotal s id rest
    pure (amount + total)

def executeAutomaticPush (s : State W) (now : Nat) (q : DeskQueue) (id : Nat) : ServiceTx (State W × Nat) := do
  let (price, updatedAt) ← v.priceUSD18 s.world q.asset
  let maxAge ← v.oracleMaxAge s.world
  if price = 0 ∨ now < updatedAt ∨ maxAge < now - updatedAt then pure (s, 0)
  else do
    let total ← claimableTotal s id q.streams
    let minimum ← v.minimumUSD18 s.world
    if total * price / 10 ^ 18 < minimum then pure (s, 0)
    else do
      let owner ← ownerOf s.cards id
      require (owner ≠ s.cards.protocolVault) .protocolDelegated
      relay .peer (pay c b x s c.nft id q.streams owner)

/-- How a card's visit ends. -/
inductive Pushed where
  | delegated
  | pushed (amount : Nat)
  | failed
  deriving DecidableEq, Repr

structure CardVisit where
  id : Nat
  ends : Pushed
  deriving DecidableEq

/-- The loop of `batchDistributeDesk`, with as many cards to go as the page has left. -/
def cardLoop (env : ServiceEnv) (q : DeskQueue) :
    Nat → Nat → Nat → State W → ServiceTx (State W × Nat × List CardVisit)
  | 0, _, cursor, s => pure (s, cursor, [])
  | n + 1, i, cursor, s =>
    if (env.gas i).low = true then pure (s, cursor, [])
    else do
      let id := cursor + 1
      let owner ← ownerOf s.cards id
      if owner = s.cards.protocolVault then do
        let (s, cursor, visits) ← cardLoop env q n (i + 1) id s
        pure (s, cursor, ⟨id, .delegated⟩ :: visits)
      else
        match attempted (env.gas i).push (executeAutomaticPush c b x v s env.call.now q id) with
        | none => do
          let (s, cursor, visits) ← cardLoop env q n (i + 1) id s
          pure (s, cursor, ⟨id, .failed⟩ :: visits)
        | some (s, amount) => do
          let (s, cursor, visits) ← cardLoop env q n (i + 1) id s
          pure (s, cursor, ⟨id, .pushed amount⟩ :: visits)

def minutes : Nat := 60

def batchDistributeDesk (s : Serviced W) (env : ServiceEnv) (id maxCards : Nat) :
    ServiceTx (Serviced W × List CardVisit) := do
  require (s.desk.cards.minting.isNone = true) .reentrancy
  require (0 < maxCards ∧ maxCards ≤ 32) .batchPage
  match s.service.deskQueues[id]? with
  | none => throw .bounds
  | some q => do
    require (10 * minutes ≤ env.call.now % day ∧ q.nextScanAt ≤ env.call.now) .scanSchedule
    if env.enough = false then pure (s, [])
    else do
      let start := if q.cursor = q.upperBound then 0 else q.cursor
      let stop := min (start + maxCards) q.upperBound
      let (desk, cursor, visits) ← cardLoop c b x v env q (stop - start) 0 start s.desk
      let nextScanAt := if cursor ≠ start then
          if cursor = q.upperBound then (env.call.now / day + 1) * day + 10 * minutes
          else env.call.now + 15 * minutes
        else q.nextScanAt
      let q := { q with cursor := cursor, nextScanAt := nextScanAt }
      pure (⟨desk, { s.service with deskQueues := s.service.deskQueues.set id q }⟩, visits)

/-! The service. -/

inductive ServiceAction where
  | configureServicePolicy (policy : Address)
  | openDeskQueue (keys : List Key)
  | batchDistributeDesk (id maxCards : Nat)

def serve (s : Serviced W) (env : ServiceEnv) (action : ServiceAction) : ServiceTx (Serviced W) :=
  match action with
  | .configureServicePolicy policy => do
    let service ← configureServicePolicy c v s.service env.call policy
    pure ⟨s.desk, service⟩
  | .openDeskQueue keys => do
    let service ← openDeskQueue s keys
    pure ⟨s.desk, service⟩
  | .batchDistributeDesk id maxCards => do
    let (s, _) ← batchDistributeDesk c b x v s env id maxCards
    pure s

end Solonpad.Desk
