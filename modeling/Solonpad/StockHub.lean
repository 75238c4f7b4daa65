import Solonpad.HubExits

/-!
`SolonStockHub.sol`: the entry points over the settlement rules and the exits, and the hub as a
system that takes one call at a time. The functions that move money share one reentrancy guard.
The scheduler is known by its address only: which queued order it launches next is left open.
Ownership, the LayerZero peers and options, and the wiring of the capacity controller are taken
as deployed.
-/

namespace Solonpad.Hub

open Checked Chain Messages

variable (c : Config)

def deployed : State where
  roles := ⟨0, c.guardian, c.treasury, c.opsVault, 0, fun _ => false⟩
  terms := {
    paused := false
    buyFeeBps := c.feeBps
    sellFeeBps := c.feeBps
    mintLimitBps := 500
    payFloor := 10000 * 10 ^ 18
    payLimitBps := 2000
    floatEnabled := false
    listings := fun _ => ⟨false, 0, false, 0, 0, 0⟩
    pendingRoute := fun _ => ⟨0, 0⟩ }
  watch := ⟨fun _ => 0, fun _ => 0, 0, 0, [], fun _ => 0, false, 0⟩
  opened := ⟨[], fun _ => 0⟩
  money := ⟨0, 0, 0, 0⟩
  orders := fun _ => Order.blank
  orderCount := 0
  arc := fun _ => Token.empty
  capacity := { Capacity.deployed c.owner c.guardian with
    hub := c.self, rewardManager := c.rewardManager }
  reconciled := fun _ => false
  rewardOrder := fun _ => 0
  packets := []
  deliveries := []

/-! Lookups. -/

def listed (s : State) (underlying : Address) : Tx Unit :=
  require ((s.terms.listings underlying).listed = true) .notListed

def live (s : State) (underlying : Address) : Tx Unit := do
  listed s underlying
  require ((s.terms.listings underlying).enabled = true) .stockDisabled

def known (s : State) (id : Nat) : Tx Unit := require (id < s.orderCount) .noSuchOrder

/-- `_reward`: the id of a reward order. -/
def rewardId (s : State) (orderId : CapKey) : Tx Nat := do
  require (s.rewardOrder orderId ≠ 0) .badRewardOrder
  pure (s.rewardOrder orderId - 1)

/-! Messages to the vault. -/

/-- `_orderMessage`: amounts on the reserve chain, a buy's principal and a sell's floor in 6 dp. -/
def orderMessage (id : Nat) (o : Order) : Messages.Order where
  ref := .order id
  underlying := o.underlying
  side := match o.kind with
    | .buy => .buy
    | .sell => .sell
  amountIn := toUint128 (match o.kind with
    | .buy => o.amountIn / scale
    | .sell => o.amountIn)
  minOut := toUint128 (match o.kind with
    | .buy => o.minOut
    | .sell => o.minOut / scale)

/-- `_dispatch`; a void is the same message with no amount. -/
def dispatchOrder (s : State) (env : Env) (id valueForFee : Nat) (refundTo : Address)
    (void : Bool) : Tx State := do
  let o := s.orders id
  let m := orderMessage id o
  let m := if void then { m with amountIn := 0 } else m
  require (env.lzFee ≤ valueForFee) .insufficientValue
  let s := s.set id { o with
    status := if o.status = .cancelled then .cancelled else .dispatched
    dispatchedAt := if o.kind = .sell then env.now else o.dispatchedAt }
  require (env.lzFee ≤ s.money.balance) .notEnoughNative
  require (env.answers = true) .transferFailed
  let s := { s with
    money := { s.money with balance := s.money.balance - env.lzFee }
    packets := s.packets ++ [m] }
  if env.lzFee < valueForFee then transfer c s env 0 refundTo (valueForFee - env.lzFee) else pure s

/-- `_dispatchFromReserve`. -/
def dispatchFromReserve (s : State) (env : Env) (id : Nat) : Tx State := do
  let o := s.orders id
  require (¬ o.extra < env.lzFee) .insufficientValue
  let s ← (s.set id { o with extra := o.extra - env.lzFee }).unescrow env.lzFee
  dispatchOrder c s env id env.lzFee c.self false

/-! Users. -/

def requestBuy (s : State) (env : Env) (underlying : Address) (usdcIn minSharesOut : Nat) :
    Tx State := do
  let s := s.deposit env.value
  require (s.terms.paused = false) .enforcedPause
  live s underlying
  require (usdcIn ≠ 0) .zeroAmount
  require (¬ env.value < usdcIn) .insufficientValue
  let placed ← placeBuy s env env.sender underlying usdcIn minSharesOut (env.value - usdcIn) 0 0
  Capacity.checkRun placed.state.capacity placed.principal
  pure placed.state

def requestSell (s : State) (env : Env) (underlying : Address) (sharesIn minUsdcOut : Nat) :
    Tx State := do
  let s := s.deposit env.value
  listed s underlying
  require (sharesIn ≠ 0) .zeroAmount
  let s ← s.onArc underlying (Token.burn · env.sender sharesIn)
  let id := s.orderCount
  let s := place s env env.sender underlying .sell .pending sharesIn minUsdcOut 0
  let s ← s.onCapacity (Capacity.beginRedeem · c.self (s.orders id).capKey underlying sharesIn)
  if 0 < env.value then dispatchOrder c s env id env.value env.sender false else pure s

/-- `launch`, by the scheduler. -/
def launch (s : State) (env : Env) (id routeFee dust : Nat) : Tx State := do
  require (s.terms.paused = false) .enforcedPause
  require (env.sender = c.scheduler) .notScheduler
  known s id
  require (¬ ((s.orders id).status ≠ .pending ∨ (s.orders id).kind ≠ .buy)) .wrongStatus
  let (s, launched) ← Settlement.launch c s env id routeFee dust
  if launched = true ∧ (s.orders id).lane = 0 ∧ env.lzFee ≤ (s.orders id).extra then
    dispatchFromReserve c s env id
  else pure s

def dispatch (s : State) (env : Env) (id : Nat) : Tx State := do
  let s := s.deposit env.value
  known s id
  let o := s.orders id
  require (if o.kind = .buy then o.status = .funded else o.status = .pending) .wrongStatus
  require (o.kind = .buy → s.terms.paused = false) .enforcedPause
  dispatchOrder c s env id env.value env.sender false

def cancel (s : State) (env : Env) (id : Nat) : Tx State := do
  known s id
  cancelBuy c s env id

def escalate (s : State) (env : Env) (id : Nat) (recipient : Address) : Tx State := do
  let s := s.deposit env.value
  known s id
  Exits.escalate c s env id recipient

def escalateFunds (s : State) (env : Env) (id : Nat) (recipient : Address) : Tx State := do
  let s := s.deposit env.value
  known s id
  Exits.escalateFunds c s env id recipient

def canonicalRedeem (s : State) (env : Env) (underlying : Address) (sharesIn : Nat)
    (recipient : Address) (mode : DeliverMode) : Tx State := do
  let s := s.deposit env.value
  listed s underlying
  Exits.canonicalRedeem c s env underlying sharesIn recipient mode

def voidOrder (s : State) (env : Env) (id : Nat) : Tx State := do
  let s := s.deposit env.value
  known s id
  let operator := decide (env.sender = s.roles.keeper ∨ env.sender = c.owner)
  let s ← checkVoid s id operator env.value env.lzFee
  dispatchOrder c s env id (if env.value < env.lzFee then env.lzFee else env.value) env.sender true

def cancelReward (s : State) (env : Env) (id : Nat) : Tx State := do
  require (env.sender = s.roles.keeper ∨ env.sender = c.owner) .notKeeper
  known s id
  Exits.cancelReward c s env id

def claim (s : State) (env : Env) (id : Nat) : Tx State := do
  known s id
  let o := s.orders id
  claimPay c s env id (if o.lane = 1 then s.roles.opsVault else o.user)

/-- The order's fixed route credits money that came back for it. -/
def receiveReturn (s : State) (env : Env) (id : Nat) : Tx State := do
  let s := s.deposit env.value
  require (¬ (s.orderCount ≤ id ∨ env.sender ≠ (s.orders id).route)) .notRoute
  Settlement.receiveReturn c s env id env.value

/-! The reward lane. -/

def beginFunding (s : State) (env : Env) (orderId : CapKey) (underlying : Address)
    (budget18 minRawOut : Nat) (receiver : Address) (path : Nat) : Tx State := do
  let s := s.deposit env.value
  require (s.terms.paused = false) .enforcedPause
  require (¬ (s.roles.rewardAdapter env.sender = false ∨ receiver ≠ env.sender)) .notRewardAdapter
  live s underlying
  beginReward s env orderId underlying budget18 minRawOut receiver path

def submitFundedBuy (s : State) (env : Env) (orderId : CapKey) : Tx State := do
  require (s.terms.paused = false) .enforcedPause
  let id ← rewardId s orderId
  require (env.sender = (s.orders id).user) .notYours
  require ((s.orders id).status = .funded) .wrongStatus
  dispatchFromReserve c s env id

/-- By the reward adapter. -/
def requestCancel (s : State) (env : Env) (orderId : CapKey) : Tx State := do
  let id ← rewardId s orderId
  let o := s.orders id
  require (env.sender = o.user) .notYours
  require (¬ (o.status ≠ .dispatched ∧ o.status ≠ .funded ∨ o.cancelRequested = true)) .wrongStatus
  Settlement.requestCancel c s env id

def claimResult (s : State) (env : Env) (orderId : CapKey) : Tx State := do
  let (s, _, _, _) ← takeReward c s env orderId
  pure s

/-- By anyone. -/
def subsidize (s : State) (env : Env) (id : Nat) : Tx State := do
  let s := s.deposit env.value
  known s id
  Settlement.subsidize c s env id env.value

/-! Results. -/

/-- The id of an order's ref. -/
def orderId (r : Result) : Tx Nat :=
  match r.ref with
  | .order id => pure id
  | .migration _ _ => throw (.revert .noSuchOrder)

/-- `_lzReceive`. -/
def lzReceive (s : State) (env : Env) (srcEid : Nat) (r : Result) : Tx State := do
  let id ← orderId r
  known s id
  require (srcEid = (s.terms.listings (s.orders id).underlying).vaultEid) .wrongSource
  let (s, _) ← settle c s env id r false
  pure s

/-- A result the fast lane already applied is checked against its canonical proof. -/
def review (s : State) (id : Nat) (r : Result) : Tx State := do
  let o := s.orders id
  let s := { s with reconciled := Function.update s.reconciled r.ref true }
  if agrees o r then s.onCapacity (Capacity.markReviewed · c.self o.capKey)
  else pure { s.set id { o with disputed := true } with watch := s.watch.halt }

def reconcile (s : State) (env : Env) (r : Result) : Tx State := do
  require (env.proven = true) .badProof
  require (s.reconciled r.ref = false) .alreadyReconciled
  match r.ref with
  | .migration _ _ => migrationMint c { s with reconciled := Function.update s.reconciled r.ref true } r
  | .order id => do
    known s id
    if (s.orders id).lzSettled = true then review c s id r
    else do
      let (s, _) ← settle c s env id r true
      pure s

/-! Administration. -/

def ownerOnly (env : Env) : Tx Unit := require (env.sender = c.owner) .notOwner

def setCanonicalGate (s : State) (env : Env) (gate : Address) : Tx State := do
  ownerOnly c env
  require (s.roles.gate = 0) .gateAlreadySet
  require (gate ≠ 0) .zeroAddress
  pure { s with roles := { s.roles with gate := gate } }

def State.setListing (s : State) (underlying : Address) (listing : Listing) : State :=
  { s with terms := { s.terms with
    listings := Function.update s.terms.listings underlying listing } }

/-- `listStock`: the `.sol` token it deploys starts empty, as the model's tokens do. -/
def listStock (s : State) (env : Env) (underlying : Address) (vaultEid mintFloor : Nat)
    (route : Address) (routePath : Nat) : Tx State := do
  ownerOnly c env
  require (¬ (underlying = 0 ∨ route = 0 ∨ routePath = 0)) .zeroAddress
  require ((s.terms.listings underlying).listed = false) .alreadyListed
  pure (s.setListing underlying ⟨true, vaultEid, true, mintFloor, route, routePath⟩)

def setEnabled (s : State) (env : Env) (underlying : Address) (enabled : Bool) : Tx State := do
  ownerOnly c env
  listed s underlying
  pure (s.setListing underlying { s.terms.listings underlying with enabled := enabled })

def setMintFloor (s : State) (env : Env) (underlying : Address) (floor : Nat) : Tx State := do
  ownerOnly c env
  listed s underlying
  pure (s.setListing underlying { s.terms.listings underlying with mintFloor := floor })

def setMintLimitBps (s : State) (env : Env) (limit : Nat) : Tx State := do
  ownerOnly c env
  pure { s with terms := { s.terms with mintLimitBps := limit } }

def setPayLimit (s : State) (env : Env) (floor limit : Nat) : Tx State := do
  ownerOnly c env
  pure { s with terms := { s.terms with payFloor := floor, payLimitBps := limit } }

/-- `evidence` is the hash the owner must name. -/
def voidClaimable (s : State) (env : Env) (id amount evidence : Nat) : Tx State := do
  ownerOnly c env
  known s id
  require (evidence ≠ 0) .zeroAmount
  Settlement.voidClaimable s id amount

def lowerFees (s : State) (env : Env) (buyFeeBps sellFeeBps : Nat) : Tx State := do
  ownerOnly c env
  require (¬ (s.terms.buyFeeBps < buyFeeBps ∨ s.terms.sellFeeBps < sellFeeBps)) .feeTooHigh
  pure { s with terms := { s.terms with buyFeeBps := buyFeeBps, sellFeeBps := sellFeeBps } }

def setTreasury (s : State) (env : Env) (treasury : Address) : Tx State := do
  ownerOnly c env
  require (treasury ≠ 0) .zeroAddress
  pure { s with roles := { s.roles with treasury := treasury } }

def setKeeper (s : State) (env : Env) (keeper : Address) : Tx State := do
  ownerOnly c env
  pure { s with roles := { s.roles with keeper := keeper } }

def setGuardian (s : State) (env : Env) (guardian : Address) : Tx State := do
  ownerOnly c env
  pure { s with roles := { s.roles with guardian := guardian } }

def setRewardAdapter (s : State) (env : Env) (adapter : Address) (allowed : Bool) : Tx State := do
  ownerOnly c env
  pure { s with roles := { s.roles with
    rewardAdapter := Function.update s.roles.rewardAdapter adapter allowed } }

def setFloatEnabled (s : State) (env : Env) (enabled : Bool) : Tx State := do
  ownerOnly c env
  pure { s with terms := { s.terms with floatEnabled := enabled } }

def proposeRoute (s : State) (env : Env) (underlying route : Address) : Tx State := do
  ownerOnly c env
  listed s underlying
  require (route ≠ 0) .zeroAddress
  pure { s with terms := { s.terms with
    pendingRoute := Function.update s.terms.pendingRoute underlying ⟨route, env.now + configDelay⟩ } }

def executeRoute (s : State) (env : Env) (underlying : Address) : Tx State := do
  ownerOnly c env
  let p := s.terms.pendingRoute underlying
  require (¬ (p.eta = 0 ∨ env.now < p.eta)) .timelocked
  listed s underlying
  let s := s.setListing underlying { s.terms.listings underlying with route := p.value }
  pure { s with terms := { s.terms with
    pendingRoute := Function.update s.terms.pendingRoute underlying ⟨0, 0⟩ } }

def pause (s : State) (env : Env) : Tx State := do
  require (env.sender = s.roles.guardian ∨ env.sender = c.owner) .notGuardianOrOwner
  require (s.terms.paused = false) .enforcedPause
  pure { s with terms := { s.terms with paused := true } }

def unpause (s : State) (env : Env) : Tx State := do
  ownerOnly c env
  require (s.terms.paused = true) .expectedPause
  pure { s with terms := { s.terms with paused := false } }

def haltMints (s : State) (env : Env) : Tx State := do
  require (env.sender = s.roles.guardian ∨ env.sender = c.owner) .notGuardianOrOwner
  pure { s with watch := s.watch.halt }

def resumeMints (s : State) (env : Env) : Tx State := do
  ownerOnly c env
  pure { s with watch := { s.watch with mintsHalted := false, resumedAt := env.now } }

/-- `_send`: nothing is sent for a zero amount. -/
def send (s : State) (env : Env) (recipient : Address) (amount : Nat) : Tx State :=
  if amount = 0 then pure s else transfer c s env 0 recipient amount

def claimFees (s : State) (env : Env) : Tx State := do
  require (env.sender = s.roles.treasury ∨ env.sender = c.owner) .notKeeper
  let amount := s.money.accruedFees
  send c { s with money := { s.money with accruedFees := 0 } } env s.roles.treasury amount

def withdrawFloat (s : State) (env : Env) (recipient : Address) (amount : Nat) : Tx State := do
  require (env.sender = s.roles.keeper ∨ env.sender = c.owner) .notKeeper
  require (recipient = c.floatRecipientA ∨ recipient = c.floatRecipientB) .notFloatRecipient
  require (¬ s.money.available < amount) .insufficientFloat
  send c s env recipient amount

/-! The system. -/

inductive Action where
  | requestBuy (underlying : Address) (usdcIn minSharesOut : Nat)
  | requestSell (underlying : Address) (sharesIn minUsdcOut : Nat)
  | launch (id routeFee dust : Nat)
  | dispatch (id : Nat)
  | cancel (id : Nat)
  | escalate (id : Nat) (recipient : Address)
  | escalateFunds (id : Nat) (recipient : Address)
  | canonicalRedeem (underlying : Address) (sharesIn : Nat) (recipient : Address)
      (mode : DeliverMode)
  | voidOrder (id : Nat)
  | cancelReward (id : Nat)
  | claim (id : Nat)
  | receiveReturn (id : Nat)
  | beginFunding (orderId : CapKey) (underlying : Address) (budget18 minRawOut : Nat)
      (receiver : Address) (path : Nat)
  | submitFundedBuy (orderId : CapKey)
  | requestCancel (orderId : CapKey)
  | claimResult (orderId : CapKey)
  | subsidize (id : Nat)
  | lzReceive (srcEid : Nat) (result : Result)
  | reconcile (result : Result)
  | checkStale
  | setCanonicalGate (gate : Address)
  | listStock (underlying : Address) (vaultEid mintFloor : Nat) (route : Address) (routePath : Nat)
  | setEnabled (underlying : Address) (enabled : Bool)
  | setMintFloor (underlying : Address) (floor : Nat)
  | setMintLimitBps (limit : Nat)
  | setPayLimit (floor limit : Nat)
  | voidClaimable (id amount evidence : Nat)
  | lowerFees (buyFeeBps sellFeeBps : Nat)
  | setTreasury (treasury : Address)
  | setKeeper (keeper : Address)
  | setGuardian (guardian : Address)
  | setRewardAdapter (adapter : Address) (allowed : Bool)
  | setFloatEnabled (enabled : Bool)
  | proposeRoute (underlying route : Address)
  | executeRoute (underlying : Address)
  | pause
  | unpause
  | haltMints
  | resumeMints
  | claimFees
  | fundFloat
  | withdrawFloat (recipient : Address) (amount : Nat)
  /-- A holder's transfer of a `.sol` token. -/
  | transferArc (underlying holder receiver : Address) (amount : Nat)
  /-- A direct call to the capacity controller by anyone but the hub. -/
  | capacity (action : Capacity.Action CapKey)

structure Call where
  env : Env
  action : Action

def step (s : State) (call : Call) : Tx State :=
  let env := call.env
  match call.action with
  | .requestBuy underlying usdcIn minSharesOut => requestBuy s env underlying usdcIn minSharesOut
  | .requestSell underlying sharesIn minUsdcOut => requestSell c s env underlying sharesIn minUsdcOut
  | .launch id routeFee dust => launch c s env id routeFee dust
  | .dispatch id => dispatch c s env id
  | .cancel id => cancel c s env id
  | .escalate id recipient => escalate c s env id recipient
  | .escalateFunds id recipient => escalateFunds c s env id recipient
  | .canonicalRedeem underlying sharesIn recipient mode =>
    canonicalRedeem c s env underlying sharesIn recipient mode
  | .voidOrder id => voidOrder c s env id
  | .cancelReward id => cancelReward c s env id
  | .claim id => claim c s env id
  | .receiveReturn id => receiveReturn c s env id
  | .beginFunding orderId underlying budget18 minRawOut receiver path =>
    beginFunding s env orderId underlying budget18 minRawOut receiver path
  | .submitFundedBuy orderId => submitFundedBuy c s env orderId
  | .requestCancel orderId => requestCancel c s env orderId
  | .claimResult orderId => claimResult c s env orderId
  | .subsidize id => subsidize c s env id
  | .lzReceive srcEid result => lzReceive c s env srcEid result
  | .reconcile result => reconcile c s env result
  | .checkStale => pure (checkStale s env.now)
  | .setCanonicalGate gate => setCanonicalGate c s env gate
  | .listStock underlying vaultEid mintFloor route routePath =>
    listStock c s env underlying vaultEid mintFloor route routePath
  | .setEnabled underlying enabled => setEnabled c s env underlying enabled
  | .setMintFloor underlying floor => setMintFloor c s env underlying floor
  | .setMintLimitBps limit => setMintLimitBps c s env limit
  | .setPayLimit floor limit => setPayLimit c s env floor limit
  | .voidClaimable id amount evidence => voidClaimable c s env id amount evidence
  | .lowerFees buyFeeBps sellFeeBps => lowerFees c s env buyFeeBps sellFeeBps
  | .setTreasury treasury => setTreasury c s env treasury
  | .setKeeper keeper => setKeeper c s env keeper
  | .setGuardian guardian => setGuardian c s env guardian
  | .setRewardAdapter adapter allowed => setRewardAdapter c s env adapter allowed
  | .setFloatEnabled enabled => setFloatEnabled c s env enabled
  | .proposeRoute underlying route => proposeRoute c s env underlying route
  | .executeRoute underlying => executeRoute c s env underlying
  | .pause => pause c s env
  | .unpause => unpause c s env
  | .haltMints => haltMints c s env
  | .resumeMints => resumeMints c s env
  | .claimFees => claimFees c s env
  | .fundFloat => pure (s.deposit env.value)
  | .withdrawFloat recipient amount => withdrawFloat c s env recipient amount
  | .transferArc underlying holder receiver amount =>
    s.onArc underlying (Token.transfer · holder receiver amount)
  | .capacity action => do
    require (env.sender ≠ c.self) .notHub
    s.onCapacity (Capacity.step · ⟨env.sender, env.now, action⟩)

def accepts (s : State) (call : Call) (after : State) : Prop := step c s call = .ok after

end Solonpad.Hub
