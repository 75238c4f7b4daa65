import Solonpad.AdmittedCredit
import Solonpad.DeskNFT
import Solonpad.RewardToken

/-!
`DeskRewards.sol`: what a day's income of one kind brings is shared by the cards that exist when it
comes, through a counter a stream; protocol cards' share is told to the staking contract. Stock is
held in custody until it is delivered to a card's owner, native income buys stock in the reward
rounds. The cards are part of the state, the other contracts are the peers' answers, and amounts
that move are measured by the balances around them. Stream keys are their arguments, unhashed, and
the mappings keyed by a stream are one record; a stream's `events` are kept for the proofs.
-/

namespace Solonpad.Desk

open Checked AdmittedCredit
open Chain (Address)
open Eligibility (day)
open RewardToken (precision)

abbrev Source := Nat

structure Key where
  source : Source
  epoch : Nat
  asset : Address
  kind : Nat
  deriving DecidableEq

/-- What the streams of successive days share. -/
structure Base where
  source : Source
  asset : Address
  kind : Nat
  deriving DecidableEq

def Base.on (base : Base) (epoch : Nat) : Key := ⟨base.source, epoch, base.asset, base.kind⟩

structure Generation where
  upperId : Nat
  initialCounter : Nat
  deriving DecidableEq

/-- One credit: the cards issued and minted when it came, the protocol's among them, and what each
card got. -/
structure CreditEvent where
  supply : Nat
  protocol : Nat
  minted : Nat
  quotient : Nat
  deriving DecidableEq

structure Stream where
  source : Source
  epoch : Nat
  asset : Address
  kind : Nat
  counter : Nat
  rem : Nat
  supply : Nat
  totalCredit27 : Nat
  received : Nat
  generations : List Generation
  delegatedCredit27 : Nat
  delegatedFunded : Nat
  entrySource : Address
  streamSealed : Bool
  purchasedRaw : Nat
  purchasedAsset : Address
  events : List CreditEvent

def Stream.blank : Stream :=
  ⟨0, 0, 0, 0, 0, 0, 0, 0, 0, [], 0, 0, 0, false, 0, 0, []⟩

structure Store where
  streams : Key → Stream
  nextEpochRemainder : Key → Nat
  latestStream : Base → Option Key
  paidRaw : Nat → Key → Nat
  rawCustody : Address → Nat
  purchasedSpent : Address → Nat
  purchasedOutstanding : Address → Nat
  royaltyAsset : Address → Bool
  royaltyAssetsConfigured : Bool
  rounds : Address
  payout : Address
  schedule : Address
  protocolStaking : Address

def Store.empty : Store where
  streams := fun _ => .blank
  nextEpochRemainder := fun _ => 0
  latestStream := fun _ => none
  paidRaw := fun _ _ => 0
  rawCustody := fun _ => 0
  purchasedSpent := fun _ => 0
  purchasedOutstanding := fun _ => 0
  royaltyAsset := fun _ => false
  royaltyAssetsConfigured := false
  rounds := 0
  payout := 0
  schedule := 0
  protocolStaking := 0

/-- `royalty` and `surcharge` are the two constants that name income without a pool. -/
structure Config where
  self : Address
  ledger : Address
  nft : Address
  solon : Address
  cards : CardsConfig
  royalty : Source
  surcharge : Source

/-- What the contract reads of a pool. -/
structure Pool where
  quote : Address
  settlementKind : Nat
  beneficiary : Address

/-- What the other contracts answer to this one. -/
structure Peers (W : Type) where
  poolInfo : W → Source → Pool
  accrued : W → Source → Nat
  claim : W → Source → Nat → Tx W
  paidTotal : W → Address → Nat
  stageCredit : W → Nat → Address → Tx W
  claimFor : W → Address → Tx W
  entry : W → Nat → Address × Nat
  queueAsset : W → Nat → Address
  delivered : W → Nat → Nat
  registerSource : W → Address → Source → Tx W
  fundEntry : W → Address → Nat → Tx W
  notifyProtocolDeskCredit : W → Source → Nat → Address → Nat → Nat → Tx W
  fundProtocolDesk : W → Source → Nat → Address → Nat → Nat → Tx W
  canReceiveStock : W → Address → Address → Bool
  transfer : W → Address → Address → Nat → Tx W
  transferFrom : W → Address → Address → Nat → Tx W
  /-- Native coin that comes with a call. -/
  arrive : W → Address → Nat → Tx W

/-- What a holder has of an asset; asset 0 is native coin. -/
abbrev Balance (W : Type) := W → Address → Address → Nat

structure State (W : Type) where
  cards : Cards
  store : Store
  world : W

/-! The store's small updates. -/

def Store.setStream (s : Store) (key : Key) (st : Stream) : Store :=
  { s with streams := Function.update s.streams key st }

def Store.hold (s : Store) (asset : Address) (raw : Nat) : Store :=
  { s with rawCustody := Function.update s.rawCustody asset raw }

def Store.pays (s : Store) (id : Nat) (key : Key) (owed : Nat) : Store :=
  { s with paidRaw := Function.update s.paidRaw id (Function.update (s.paidRaw id) key owed) }

variable {W : Type} (c : Config) (b : Balance W) (x : Peers W)

/-! Credit. -/

/-- An older stream of the base hands its remainders on. -/
def Store.roll (s : Store) (base : Base) (key : Key) : Store × Nat :=
  match s.latestStream base with
  | none => (s, 0)
  | some previous =>
    if previous = key then (s, 0)
    else
      let old := s.streams previous
      let carry := base.on (old.epoch + 1)
      ({ s with
          streams := Function.update s.streams previous { old with rem := 0 }
          nextEpochRemainder := Function.update s.nextEpochRemainder carry 0 },
        old.rem + s.nextEpochRemainder carry)

/-- Where cards were issued since the stream's last credit, a generation begins, and what remained
for the fewer cards waits for the next day. -/
def Store.regenerate (s : Store) (base : Base) (epoch n : Nat) : Store :=
  let key := base.on epoch
  let st := s.streams key
  if st.supply = n then s
  else { s with
    nextEpochRemainder := Function.update s.nextEpochRemainder (base.on (epoch + 1))
      (s.nextEpochRemainder (base.on (epoch + 1)) + st.rem)
    streams := Function.update s.streams key { st with
      rem := 0
      generations := st.generations ++ [⟨n, st.counter⟩]
      supply := n } }

/-- An amount is shared by `n` cards, the protocol's among them. -/
def Stream.accrue (st : Stream) (key : Key) (n np minted ordinary amount rolled27 : Nat) : Stream :=
  let numerator := amount * precision + st.rem + rolled27
  let q := numerator / n
  { st with
    source := key.source
    epoch := key.epoch
    asset := key.asset
    kind := key.kind
    rem := numerator % n
    counter := st.counter + q
    totalCredit27 := st.totalCredit27 + q * ordinary
    received := st.received + amount
    delegatedCredit27 := st.delegatedCredit27 + q * np
    events := st.events ++ [⟨n, np, minted, q⟩] }

/-- `_credit`. -/
def credit (s : State W) (now : Nat) (base : Base) (amount : Nat) : Tx (State W) :=
  if amount = 0 then pure s
  else do
    let n := s.cards.totalSupply
    require (0 < n) .firstDeskRequired
    let epoch := now / day
    let key := base.on epoch
    let (store, rolled27) := s.store.roll base key
    let store := Store.regenerate { store with
      latestStream := Function.update store.latestStream base (some key) } base epoch n
    let np := s.cards.protocolMinted
    let ordinary ← sub n np
    let st := (store.streams key).accrue key n np s.cards.minted ordinary amount rolled27
    let store := store.setStream key st
    if np ≠ 0 then do
      require (store.protocolStaking ≠ 0) .protocolStakingMissing
      let delegated ← sub st.delegatedCredit27 (s.store.streams key).delegatedCredit27
      let world ← x.notifyProtocolDeskCredit s.world base.source epoch base.asset base.kind delegated
      pure ⟨s.cards, store, world⟩
    else pure ⟨s.cards, store, s.world⟩

/-- `credit27` of a card that exists. -/
def Stream.credit27 (st : Stream) (id : Nat) : Tx Nat :=
  match admitting Generation.upperId st.generations id with
  | none => pure 0
  | some generation => sub st.counter generation.initialCounter

/-- What a card is owed of a stream in all. -/
def Stream.owed (st : Stream) (id : Nat) : Tx Nat := do
  let credit ← st.credit27 id
  pure (if st.kind = 1 then credit / precision
    else if st.totalCredit27 = 0 then 0
    else credit * st.purchasedRaw / st.totalCredit27)

def claimable (s : State W) (id : Nat) (key : Key) : Tx Nat := do
  require (s.cards.ownerOf id ≠ 0) .nonexistentToken
  let owed ← (s.store.streams key).owed id
  sub owed (s.store.paidRaw id key)

/-! Custody. -/

/-- `_pull`: what the ledger owes of a source comes here. -/
def pull (s : State W) (source : Source) : Tx (State W) :=
  let due := x.accrued s.world source
  if due = 0 then pure s
  else do
    let pool := x.poolInfo s.world source
    let asset := if pool.settlementKind = 1 then pool.quote else 0
    let before := b s.world asset c.self
    let world ← x.claim s.world source due
    require (b world asset c.self = before + due) .ledgerDelta
    let store := if pool.settlementKind = 1 then
        s.store.hold pool.quote (s.store.rawCustody pool.quote + due)
      else s.store
    pure ⟨s.cards, store, world⟩

def depositRoyalty (s : State W) (env : Env) (asset : Address) (raw : Nat) : Tx (State W) := do
  require (s.store.royaltyAsset asset = true ∧ raw ≠ 0) .stockRoyaltyAsset
  let beforeSelf := b s.world asset c.self
  let beforePayer := b s.world asset env.sender
  let world ← x.transferFrom s.world asset env.sender raw
  require (b world asset c.self = beforeSelf + raw ∧ b world asset env.sender + raw = beforePayer)
    .royaltyDelta
  credit x ⟨s.cards, s.store.hold asset (s.store.rawCustody asset + raw), world⟩ env.now
    ⟨c.royalty, asset, 1⟩ raw

/-- Only inventory that nothing accounts for is recognized. -/
def syncRoyalty (s : State W) (env : Env) (asset : Address) : Tx (State W) := do
  require (s.store.royaltyAsset asset = true) .stockRoyaltyAsset
  let purchased ← if s.store.payout = 0 then pure 0
    else sub (x.paidTotal s.world asset) (s.store.purchasedSpent asset)
  let fresh ← sub (b s.world asset c.self) (s.store.rawCustody asset)
  let raw ← sub fresh purchased
  if raw ≠ 0 then
    credit x { s with store := s.store.hold asset (s.store.rawCustody asset + raw) } env.now
      ⟨c.royalty, asset, 1⟩ raw
  else pure s

/-- `_fundProtocol`: whole units of the delegated credit go to the staking contract. -/
def fundProtocol (s : State W) (key : Key) : Tx (State W) := do
  let st := s.store.streams key
  let amount ← sub (st.delegatedCredit27 / precision) st.delegatedFunded
  if amount = 0 then pure s
  else do
    let s ← pull c b x s st.source
    let st := s.store.streams key
    let store := s.store.setStream key { st with delegatedFunded := st.delegatedFunded + amount }
    if st.kind = 0 then do
      let world ← x.fundProtocolDesk s.world st.source st.epoch 0 0 amount
      pure ⟨s.cards, store, world⟩
    else do
      let custody ← sub (store.rawCustody st.asset) amount
      let before := b s.world st.asset c.self
      let world ← x.fundProtocolDesk s.world st.source st.epoch st.asset 1 amount
      require (b world st.asset c.self + amount = before) .forwardDelta
      pure ⟨s.cards, store.hold st.asset custody, world⟩

def fundProtocolDeskBudget (s : State W) (key : Key) : Tx (State W) := do
  require ((s.store.streams key).supply ≠ 0 ∧ (s.store.streams key).kind = 0) .nativeProtocolBudget
  fundProtocol c b x s key

def forwardProtocolDesk (s : State W) (key : Key) : Tx (State W) := do
  require ((s.store.streams key).supply ≠ 0 ∧ (s.store.streams key).kind = 1) .rawStockOnly
  fundProtocol c b x s key

/-! Purchases. -/

def entrySource (s : State W) (env : Env) (key : Key) : Tx (State W) := do
  let st := s.store.streams key
  require (0 < st.supply ∧ st.kind = 0 ∧ s.store.rounds ≠ 0) .nativeSource
  if st.entrySource = 0 then do
    let world ← x.registerSource s.world env.created st.source
    pure ⟨s.cards, s.store.setStream key { st with entrySource := env.created }, world⟩
  else pure s

def sealDesk (s : State W) (env : Env) (key : Key) : Tx (State W) := do
  let st := s.store.streams key
  require (env.sender = st.entrySource ∧ st.streamSealed = false ∧ (st.epoch + 1) * day ≤ env.now)
    .sealDesk
  let budget := st.totalCredit27 / precision
  require (0 < budget) .emptyBudget
  let s ← pull c b x { s with store := s.store.setStream key { st with streamSealed := true } } st.source
  let world ← x.fundEntry s.world env.sender budget
  pure { s with world := world }

/-- What a round delivered for a stream's entry comes in through the payout vault. -/
def syncPurchased (s : State W) (key : Key) (entryId : Nat) : Tx (State W) := do
  let st := s.store.streams key
  let (source, epoch) := x.entry s.world entryId
  require (source = st.entrySource ∧ source ≠ 0 ∧ epoch = st.epoch) .entry
  let asset := x.queueAsset s.world entryId
  let world ← x.stageCredit s.world entryId asset
  let world ← x.claimFor world asset
  let cumulative := x.delivered world entryId
  let delta ← sub cumulative st.purchasedRaw
  let outstanding := s.store.purchasedOutstanding asset + delta
  require (outstanding ≤ b world asset c.self) .purchaseCoverage
  let store := s.store.setStream key { st with purchasedRaw := cumulative, purchasedAsset := asset }
  pure ⟨s.cards, { store with
    purchasedOutstanding := Function.update store.purchasedOutstanding asset outstanding }, world⟩

/-! Delivery. -/

/-- One stream's delivery in `pay`. -/
def payKey (s : State W) (id : Nat) (owner : Address) (key : Key) : Tx (State W × Nat) := do
  let st := s.store.streams key
  let asset := if st.kind = 1 then st.asset else st.purchasedAsset
  let owed ← st.owed id
  let amount ← sub owed (s.store.paidRaw id key)
  if amount = 0 then pure (s, 0)
  else do
    require (x.canReceiveStock s.world asset owner = true) .deliveryEligibility
    let s ← pull c b x { s with store := s.store.pays id key owed } st.source
    let store ← (if st.kind = 0 then do
        let outstanding ← sub (s.store.purchasedOutstanding asset) amount
        pure { s.store with
          purchasedOutstanding := Function.update s.store.purchasedOutstanding asset outstanding
          purchasedSpent := Function.update s.store.purchasedSpent asset
            (s.store.purchasedSpent asset + amount) }
      else do
        let custody ← sub (s.store.rawCustody asset) amount
        pure (s.store.hold asset custody) : Tx Store)
    let beforeSelf := b s.world asset c.self
    let beforeOwner := b s.world asset owner
    let world ← x.transfer s.world asset owner amount
    require (b world asset c.self + amount = beforeSelf ∧ b world asset owner = beforeOwner + amount)
      .deliveryDelta
    pure (⟨s.cards, store, world⟩, amount)

/-- The loop of `pay`. -/
def payKeys (id : Nat) (owner : Address) : List Key → State W → Tx (State W × Nat)
  | [], s => pure (s, 0)
  | key :: rest, s => do
    let (s, amount) ← payKey c b x s id owner key
    let (s, total) ← payKeys id owner rest s
    pure (s, amount + total)

def pay (s : State W) (sender : Address) (id : Nat) (keys : List Key) (owner : Address) :
    Tx (State W × Nat) := do
  require (sender = c.nft ∧ s.cards.ownerOf id = owner ∧ keys.length ≤ 20) .claim
  payKeys c b x id owner keys s

/-- What the cards' contract does to deliver: protocol cards have no delivery of their own. -/
def deliver (s : State W) (id : Nat) (keys : List Key) : Tx (State W) := do
  s.cards.nonReentrant
  let owner := s.cards.ownerOf id
  require (owner ≠ 0) .nonexistentToken
  require (owner ≠ s.cards.protocolVault) .protocolDelegated
  let (s, _) ← pay c b x s c.nft id keys owner
  pure s

/-! Income. -/

def recordMintSurcharge (s : State W) (now value : Nat) : Tx (State W) := do
  let world ← x.arrive s.world c.nft value
  credit x { s with world := world } now ⟨c.surcharge, 0, 0⟩ value

def onFeeCredit (s : State W) (env : Env) (source : Source) (asset : Address) (kind amount : Nat) :
    Tx (State W) := do
  require (env.sender = c.ledger) .ledger
  let pool := x.poolInfo s.world source
  require (pool.beneficiary = c.self ∧ pool.quote = asset ∧ pool.settlementKind = kind) .source
  credit x s env.now ⟨source, asset, kind⟩ amount

/-- Native coin that is not the ledger's payment is a royalty. -/
def receiveNative (s : State W) (sender : Address) (now value : Nat) : Tx (State W) := do
  let world ← x.arrive s.world sender value
  if sender ≠ c.ledger then
    credit x { s with world := world } now ⟨c.royalty, 0, 0⟩ value
  else pure { s with world := world }

structure Purchase where
  tokenId : Nat
  seller : Address
  buyer : Address
  stream : Key
  nonce : Nat
  deadline : Nat
  minUnclaimed : Nat
  priceNative : Nat

/-- A signed sale: a twentieth of the price is royalty. -/
def purchase (s : State W) (env : Env) (order : Purchase) : Tx (State W) := do
  s.cards.nonReentrant
  let vault := s.cards.protocolVault
  require (env.sender = order.buyer ∧ order.buyer ≠ order.seller ∧ order.buyer ≠ vault ∧
    order.seller ≠ vault ∧ env.value = order.priceNative) .buyerPayment
  require (env.now ≤ order.deadline ∧ order.nonce = s.cards.nonces order.tokenId ∧
    s.cards.ownerOf order.tokenId = order.seller) .staleOrder
  require (env.answer = true) .saleSignature
  let unclaimed ← claimable s order.tokenId order.stream
  require (order.minUnclaimed ≤ unclaimed) .unclaimedBelowFloor
  let cards ← s.cards.transfer env order.seller order.buyer order.tokenId
  if env.value ≠ 0 then
    receiveNative c x { s with cards := cards } c.nft env.now (env.value / 20)
  else pure { s with cards := cards }

/-! Settings. -/

def admitRoyaltyAssets (env : Env) : List Address → Store → Tx Store
  | [], s => pure s
  | asset :: rest, s => do
    require (env.hasCode asset = true ∧ asset ≠ c.solon ∧ s.royaltyAsset asset = false) .stockRoyaltyAsset
    admitRoyaltyAssets env rest { s with royaltyAsset := Function.update s.royaltyAsset asset true }

def configureRoyaltyAssets (s : State W) (env : Env) (assets : List Address) : Tx (State W) := do
  require (env.sender = c.cards.governance ∧ s.store.royaltyAssetsConfigured = false ∧
    s.cards.totalSupply = 0) .royaltyConfiguration
  let store ← admitRoyaltyAssets c env assets { s.store with royaltyAssetsConfigured := true }
  pure { s with store := store }

def configureRounds (s : Store) (env : Env) (manager payout schedule : Address) : Tx Store := do
  require (env.sender = c.cards.governance ∧ s.rounds = 0 ∧ env.hasCode manager = true ∧
    env.hasCode payout = true ∧ env.hasCode schedule = true) .roundConfiguration
  pure { s with rounds := manager, payout := payout, schedule := schedule }

def configureProtocolStaking (s : Store) (env : Env) (staking : Address) : Tx Store := do
  require (env.sender = c.cards.governance ∧ s.protocolStaking = 0 ∧ env.hasCode staking = true)
    .governance
  pure { s with protocolStaking := staking }

/-! The cards with their rewards. -/

inductive Action where
  | mint (count : Nat) (recipient : Address)
  | mintProtocol (count : Nat)
  | mintNext
  | mintDone
  | authorizeSponsored (recipient : Address)
  | grantSponsored (recipient sponsor : Address)
  | transferFrom (holder recipient : Address) (id : Nat)
  | purchase (order : Purchase)
  | configureProtocolVault (vault : Address)
  | setMintCapPerAddress (cap : Nat)
  | tightenMintCapPerAddress (cap : Nat)
  | claim (id : Nat) (keys : List Key)
  /-- One card of a batch delivery. -/
  | push (id : Nat) (keys : List Key)
  | configureRoyaltyAssets (assets : List Address)
  | depositRoyalty (asset : Address) (raw : Nat)
  | syncRoyalty (asset : Address)
  | configureRounds (manager payout schedule : Address)
  | entrySource (key : Key)
  | sealDesk (key : Key)
  | syncPurchased (key : Key) (entryId : Nat)
  | configureProtocolStaking (staking : Address)
  | fundProtocolDeskBudget (key : Key)
  | forwardProtocolDesk (key : Key)
  | onFeeCredit (source : Source) (asset : Address) (kind amount : Nat)
  | receive

/-- A call that touches the cards only. -/
def State.dealt (s : State W) (call : Cards → Tx Cards) : Tx (State W) := do
  let cards ← call s.cards
  pure { s with cards := cards }

/-- A call that touches the contract's own storage only. -/
def State.wired (s : State W) (call : Store → Tx Store) : Tx (State W) := do
  let store ← call s.store
  pure { s with store := store }

def step (s : State W) (env : Env) (action : Action) : Tx (State W) :=
  match action with
  | .mint count recipient => s.dealt (·.mint c.cards env count recipient)
  | .mintProtocol count => s.dealt (·.mintProtocol c.cards env count)
  | .mintNext => s.dealt (·.mintNext env)
  | .mintDone => do
    let (cards, value) ← s.cards.mintDone
    recordMintSurcharge c x { s with cards := cards } env.now value
  | .authorizeSponsored recipient => s.dealt (·.authorizeSponsored c.cards env recipient)
  | .grantSponsored recipient sponsor => s.dealt (·.grantSponsored c.cards env recipient sponsor)
  | .transferFrom holder recipient id => s.dealt (·.transferFrom env holder recipient id)
  | .purchase order => purchase c x s env order
  | .configureProtocolVault vault => s.dealt (·.configureProtocolVault c.cards env vault)
  | .setMintCapPerAddress cap => s.dealt (·.setMintCapPerAddress c.cards env cap)
  | .tightenMintCapPerAddress cap => s.dealt (·.tightenMintCapPerAddress c.cards env cap)
  | .claim id keys => do
    require (env.answer = true) .unauthorized
    deliver c b x s id keys
  | .push id keys => deliver c b x s id keys
  | .configureRoyaltyAssets assets => configureRoyaltyAssets c s env assets
  | .depositRoyalty asset raw => depositRoyalty c b x s env asset raw
  | .syncRoyalty asset => syncRoyalty c b x s env asset
  | .configureRounds manager payout schedule =>
    s.wired (configureRounds c · env manager payout schedule)
  | .entrySource key => entrySource x s env key
  | .sealDesk key => sealDesk c b x s env key
  | .syncPurchased key entryId => syncPurchased c b x s key entryId
  | .configureProtocolStaking staking => s.wired (configureProtocolStaking c · env staking)
  | .fundProtocolDeskBudget key => fundProtocolDeskBudget c b x s key
  | .forwardProtocolDesk key => forwardProtocolDesk c b x s key
  | .onFeeCredit source asset kind amount => onFeeCredit c x s env source asset kind amount
  | .receive => receiveNative c x s env.sender env.now env.value

/-- Once deployed, before any card. -/
def start (world : W) : State W := ⟨.empty, .empty, world⟩

end Solonpad.Desk
