import Solonpad.FeeHolders

/-!
`CreatorRightsNFT.sol`: the transferable right to a pool's creator bucket, beside the ledger it
draws on. What owners were paid is kept by token; what the contract has received for a pool is read
back from the ledger's figures. Its lock refuses every guarded call made while an owner, a receiver
or a token runs, so what these do meanwhile is turns of the ledger. Approvals and the signature of
an order are answers of the environment.
-/

namespace Solonpad.CreatorRights

open Checked
open Chain (Address)
open FeeLedger (PoolId creator World Richer)

abbrev TokenId := Nat

inductive RightsError where
  | unauthorized | invalidPool | nonexistentToken | incorrectOwner | invalidReceiver | invalidSender
  | insufficientApproval | invalidPayout | invalidUsdcView | insufficientCredit | deliveryBlocked
  | ledgerPaymentFailed | paymentFailed | inexactTransfer | notSharedNative | invalidBuyer
  | staleOrder | invalidSeller | invalidSignature | belowSignedFloor | salePaymentFailed
  | reentrantCall | callFailed
  deriving DecidableEq, Repr

abbrev Tx (α : Type) := Checked.Tx RightsError α

structure State where
  ledger : FeeLedger.State
  paid : TokenId → Nat
  nextTokenId : Nat
  /-- 0 is no token. -/
  tokenOfPool : PoolId → TokenId
  poolOf : TokenId → PoolId
  quoteAsset : TokenId → Address
  /-- 0 is no owner. -/
  owners : TokenId → Address
  nonces : TokenId → Nat
  entered : Bool

structure Config where
  self : Address
  ledger : FeeLedger.Config
  factory : Address
  /-- 0 is no policy. -/
  eligibilityPolicy : Address

/-- One call and what the others answer in it: whether the `k`-th external call returns and what it
does to the ledger and its world, what the ledger's own calls do in a claim, whether the sender is
an approved operator, what the policy says of the owner, whether the seller signed, and what a token
payment takes from the contract and makes of everybody else's balances. -/
structure Env where
  sender : Address
  value : Nat
  now : Nat
  answers : Nat → Bool
  foreign : Nat → FeeLedger.State → FeeLedger.State
  ledger : FeeLedger.Env
  approved : Bool
  eligibilityEnabled : Bool
  canReceiveStock : Bool
  signed : Bool
  debit : Nat
  row : Address → Nat
  coins : Address → Nat

structure Purchase where
  tokenId : TokenId
  seller : Address
  buyer : Address
  asset : Address
  nonce : Nat
  deadline : Nat
  minAccrued : Nat
  priceNative : Nat

def deployed (ledger : FeeLedger.State) : State where
  ledger := ledger
  paid := fun _ => 0
  nextTokenId := 1
  tokenOfPool := fun _ => 0
  poolOf := fun _ => 0
  quoteAsset := fun _ => 0
  owners := fun _ => 0
  nonces := fun _ => 0
  entered := false

/-! The state's small updates. -/

def State.setPaid (s : State) (id : TokenId) (amount : Nat) : State :=
  { s with paid := Function.update s.paid id amount }

def State.setWorld (s : State) (world : World) : State :=
  { s with ledger := s.ledger.setWorld world }

variable (c : Config)

def external (s : State) (env : Env) (k : Nat) : Tx State := do
  require (env.answers k = true) .callFailed
  pure { s with ledger := env.foreign k s.ledger }

/-- `nonReentrant`. -/
def nonReentrant {α : Type} (s : State) (body : State → Tx (State × α)) : Tx (State × α) := do
  require (s.entered = false) .reentrantCall
  let (s, value) ← body { s with entered := true }
  pure ({ s with entered := false }, value)

/-! ERC721. -/

/-- `_requireOwned`. -/
def ownerOf (s : State) (id : TokenId) : Tx Address := do
  require (s.owners id ≠ 0) .nonexistentToken
  pure (s.owners id)

/-- `_checkAuthorized`. -/
def checkAuthorized (env : Env) (owner : Address) : Tx Unit := do
  require (owner ≠ 0) .nonexistentToken
  require (env.sender = owner ∨ env.approved = true) .insufficientApproval

/-- `_update`, past its authorization; the previous owner comes back. -/
def update (s : State) (receiver : Address) (id : TokenId) : Tx (State × Address) := do
  let owner := s.owners id
  let nonces ← (if owner ≠ 0 then do
      let nonce ← add 256 (s.nonces id) 1
      pure (Function.update s.nonces id nonce)
    else pure s.nonces : Tx (TokenId → Nat))
  pure ({ s with owners := Function.update s.owners id receiver, nonces := nonces }, owner)

/-- `_safeTransfer`. -/
def safeTransfer (s : State) (env : Env) (sender receiver : Address) (id : TokenId) : Tx State := do
  require (receiver ≠ 0) .invalidReceiver
  let (s, previous) ← update s receiver id
  require (previous ≠ 0) .nonexistentToken
  require (previous = sender) .incorrectOwner
  external s env 0

/-! The contract. -/

def mint (s : State) (env : Env) (poolId : PoolId) (owner : Address) : Tx (State × TokenId) :=
  nonReentrant s fun s => do
    require (env.sender = c.factory) .unauthorized
    let pool := s.ledger.pools poolId
    require (¬ (s.tokenOfPool poolId ≠ 0 ∨ pool.hook = 0 ∨ pool.beneficiaries creator ≠ c.self))
      .invalidPool
    let id := s.nextTokenId
    let nextTokenId ← add 256 id 1
    let s := { s with
      nextTokenId := nextTokenId
      tokenOfPool := Function.update s.tokenOfPool poolId id
      poolOf := Function.update s.poolOf id poolId
      quoteAsset := Function.update s.quoteAsset id pool.quote }
    require (owner ≠ 0) .invalidReceiver
    let (s, previous) ← update s owner id
    require (previous = 0) .invalidSender
    let s ← external s env 0
    pure (s, id)

def claimable (s : State) (id : TokenId) : Tx Nat := do
  let _ ← ownerOf s id
  sub ((s.ledger.accounts (s.poolOf id)).totalReceived / 10) (s.paid id)

/-- The pull that fetches what the pool has not delivered yet. -/
def pull (s : State) (env : Env) (poolId : PoolId) (needed : Nat) : Tx State :=
  if needed ≠ 0 then
    match FeeLedger.claim c.ledger s.ledger { env.ledger with sender := c.self } poolId creator needed with
    | .ok (ledger, true) => pure { s with ledger := ledger }
    | _ => throw (.revert .ledgerPaymentFailed)
  else pure s

/-- `owner.call{value: amount}`; the contract itself takes money from the ledger only. -/
def sendNative (s : State) (env : Env) (receiver : Address) (amount k : Nat) (error : RightsError) :
    Tx State := do
  let coins := s.ledger.world.coins
  require (amount ≤ coins c.self ∧ receiver ≠ c.self) error
  let drawn := Function.update coins c.self (coins c.self - amount)
  external (s.setWorld { s.ledger.world with
    coins := Function.update drawn receiver (drawn receiver + amount) }) env k

/-- The token transfer of a payment, exact on both sides. -/
def sendToken (s : State) (env : Env) (token owner : Address) (units amount : Nat) (shared : Bool) :
    Tx State := do
  let before := s.ledger.world
  let s ← external (s.setWorld { before with
    tokens := Function.update before.tokens token
      (Function.update env.row c.self (before.tokens token c.self - env.debit))
    coins := if shared then
        Function.update env.coins c.self (before.coins c.self - env.debit * 10 ^ 12)
      else before.coins }) env 1
  let after := s.ledger.world
  let left ← sub (before.tokens token c.self) units
  require (after.tokens token c.self = left ∧
    after.tokens token owner = before.tokens token owner + units) .inexactTransfer
  if shared then do
    let native ← sub (before.coins c.self) amount
    require (after.coins c.self = native ∧ after.coins owner = before.coins owner + amount)
      .notSharedNative
    pure s
  else pure s

/-- `executePayment`, behind its sender check: everything in it is undone when it fails. -/
def payment (s : State) (env : Env) (id : TokenId) (owner : Address) (amount payoutMode : Nat) :
    Tx State := do
  let asset := s.quoteAsset id
  require (asset ≠ 0 ∧ c.eligibilityPolicy ≠ 0 →
    env.eligibilityEnabled = false ∨ env.canReceiveStock = true) .deliveryBlocked
  let poolId := s.poolOf id
  let a := s.ledger.accounts poolId
  let delivered ← sub (a.totalReceived / 10) (a.accrued creator)
  let s ← pull c s env poolId (s.paid id - delivered)
  if payoutMode = 1 then
    if c.ledger.nativeUsdcView = 0 then sendNative c s env owner amount 1 .paymentFailed
    else sendToken c s env c.ledger.nativeUsdcView owner (amount / 10 ^ 12) amount true
  else if asset = 0 then sendNative c s env owner amount 1 .paymentFailed
  else sendToken c s env asset owner amount amount false

/-- `claimCreator`; false when the delivery failed. -/
def claimCreator (s : State) (env : Env) (id : TokenId) (asset : Address) (amountRaw payoutMode : Nat) :
    Tx (State × Bool) :=
  nonReentrant s fun s => do
    let owner ← ownerOf s id
    checkAuthorized env owner
    require (asset = s.quoteAsset id ∧ payoutMode ≤ 1) .invalidPayout
    require (payoutMode = 1 → asset = 0 ∧ c.ledger.nativeUsdcView ≠ 0) .invalidUsdcView
    let amount := if payoutMode = 1 then amountRaw / 10 ^ 12 * 10 ^ 12 else amountRaw
    require (amount ≠ 0) .insufficientCredit
    let credit ← claimable s id
    require (amount ≤ credit) .insufficientCredit
    let paid ← add 256 (s.paid id) amount
    let taken := s.setPaid id paid
    match payment c taken env id owner amount payoutMode with
    | .ok s => pure (s, true)
    | .error _ => do
      let restored ← sub (taken.paid id) amount
      pure (taken.setPaid id restored, false)

def transferFrom (s : State) (env : Env) (sender receiver : Address) (id : TokenId) :
    Tx (State × Unit) :=
  nonReentrant s fun s => do
    require (receiver ≠ 0) .invalidReceiver
    checkAuthorized env (s.owners id)
    let (s, previous) ← update s receiver id
    require (previous = sender) .incorrectOwner
    pure (s, ())

def safeTransferFrom (s : State) (env : Env) (sender receiver : Address) (id : TokenId) :
    Tx (State × Unit) :=
  nonReentrant s fun s => do
    let owner ← ownerOf s id
    checkAuthorized env owner
    let s ← safeTransfer s env sender receiver id
    pure (s, ())

def purchase (s : State) (env : Env) (order : Purchase) : Tx (State × Unit) :=
  let coins := s.ledger.world.coins
  nonReentrant (s.setWorld { s.ledger.world with
      coins := Function.update coins c.self (coins c.self + env.value) }) fun s => do
    require (env.sender = order.buyer ∧ order.buyer ≠ order.seller ∧ env.value = order.priceNative)
      .invalidBuyer
    require (env.now ≤ order.deadline ∧ order.nonce = s.nonces order.tokenId) .staleOrder
    let owner ← ownerOf s order.tokenId
    require (owner = order.seller ∧ s.quoteAsset order.tokenId = order.asset) .invalidSeller
    require (env.signed = true) .invalidSignature
    let credit ← claimable s order.tokenId
    require (order.minAccrued ≤ credit) .belowSignedFloor
    let s ← safeTransfer s env order.seller order.buyer order.tokenId
    let s ← (if env.value ≠ 0 then sendNative c s env order.seller env.value 1 .salePaymentFailed
      else pure s : Tx State)
    pure (s, ())

/-! The system. -/

inductive Action where
  | mint (poolId : PoolId) (owner : Address)
  | claimCreator (id : TokenId) (asset : Address) (amountRaw payoutMode : Nat)
  | transferFrom (sender receiver : Address) (id : TokenId)
  | safeTransferFrom (sender receiver : Address) (id : TokenId)
  | purchase (order : Purchase)

structure Call where
  env : Env
  action : Action

def step (s : State) (call : Call) : Tx State :=
  let env := call.env
  match call.action with
  | .mint poolId owner => Prod.fst <$> mint c s env poolId owner
  | .claimCreator id asset amountRaw payoutMode =>
    Prod.fst <$> claimCreator c s env id asset amountRaw payoutMode
  | .transferFrom sender receiver id => Prod.fst <$> transferFrom s env sender receiver id
  | .safeTransferFrom sender receiver id => Prod.fst <$> safeTransferFrom s env sender receiver id
  | .purchase order => Prod.fst <$> purchase c s env order

/-- The token whose pool a call may draw on. -/
def Action.token : Action → TokenId
  | .claimCreator id _ _ _ => id
  | _ => 0

/-- What a call asks a token to send, in the token's units. -/
def Action.units : Action → Nat
  | .claimCreator _ _ amountRaw payoutMode =>
    if payoutMode = 1 then amountRaw / 10 ^ 12 else amountRaw
  | _ => 0

/-- A turn of the ledger by others: a call, or balances that move without it. Nobody but the rights
contract moves what it holds. -/
def around (s : FeeLedger.State) : Option FeeLedger.Call → FeeLedger.State → Prop
  | some call => fun after => call.env.sender ≠ c.self ∧
      FeeLedger.Gentle c.ledger c.self s call ∧ FeeLedger.accepts c.ledger s call after
  | none => fun after => ∃ world, after = s.setWorld world ∧
      FeeLedger.Spares c.ledger s.world world ∧ Richer c.self s.world world

/-- What others do to the ledger between two points of the contract's code. -/
def Meanwhile (before after : FeeLedger.State) : Prop :=
  Relation.ReflTransGen (fun s next => ∃ turn, around c s turn next) before after

/-- What others do while a call of the rights contract runs; a token takes no more than it is asked
to send. -/
structure Fair (s : State) (call : Call) : Prop where
  foreign : ∀ k middle, Meanwhile c middle (call.env.foreign k middle)
  honest : FeeLedger.Honest c.ledger call.env.ledger
  gentle : ∀ k middle, Richer c.self middle.world (call.env.ledger.foreign k middle).world
  pulled : s.ledger.world.tokens (s.ledger.pools (s.poolOf call.action.token)).quote c.self ≤
    call.env.ledger.row c.self
  coins : s.ledger.world.coins c.self ≤ call.env.ledger.coins c.self
  debit : call.env.debit ≤ call.action.units

/-- The system's turns: a call of the rights contract, or a turn of the ledger. -/
inductive Turn where
  | call (call : Call)
  | ledger (turn : Option FeeLedger.Call)

def accepts (s : State) : Turn → State → Prop
  | .call call => fun after => Fair c s call ∧ step c s call = .ok after
  | .ledger turn => fun after => ∃ ledger, around c s.ledger turn ledger ∧
      after = { s with ledger := ledger }

end Solonpad.CreatorRights
