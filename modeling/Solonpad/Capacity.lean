import Solonpad.Chain
import Mathlib.Logic.Function.Basic

/-!
The issuance caps of `CapacityController.sol`. A ticket records one reservation
or redemption under a key; ten operations move its dollar amount between the
inflight, issued and redeeming sums and the unreviewed sum. Keys stay abstract:
on chain they are 32-byte hashes. Every arithmetic step of the source is checked
at 256 bits here too. The list of capped assets, which only a view reads, is left
out.
-/

namespace Solonpad.Capacity

open Checked Chain

inductive TicketState where
  | none
  | reserved
  | issued
  | redeeming
  | closed
  deriving DecidableEq, Repr

structure Ticket where
  state : TicketState
  lane : Nat
  sent : Bool
  unreviewed : Bool
  asset : Address
  usd : Nat
  raw : Nat

def Ticket.blank : Ticket := ⟨.none, 0, false, false, 0, 0, 0⟩

structure Limits where
  lRun : Nat
  uRun : Nat
  totalCap : Nat
  eta : Nat

structure AssetCap where
  cap : Nat
  set : Bool

structure PendingAssetCap where
  cap : Nat
  eta : Nat

structure State (Key : Type) where
  owner : Address
  guardian : Address
  hub : Address
  rewardManager : Address
  lRun : Nat
  uRun : Nat
  totalCap : Nat
  minOrderUsd : Nat
  pendingLimits : Limits
  inflightUsd : Nat
  issuedUsd : Nat
  redeemingUsd : Nat
  unreviewedUsd : Nat
  unreviewedRewardUsd : Nat
  issuedRaw : Address → Nat
  issuedUsdOf : Address → Nat
  tickets : Key → Ticket
  assetCap : Address → AssetCap
  pendingAssetCap : Address → PendingAssetCap
  inflightUsdOf : Address → Nat
  redeemingUsdOf : Address → Nat

def defaultLRun : Nat := 10000 * 10 ^ 18
def defaultURun : Nat := 1000000 * 10 ^ 18
def defaultTotalCap : Nat := 1000000 * 10 ^ 18
def defaultMinOrder : Nat := 20 * 10 ^ 18
def rewardShareBps : Nat := 2000
def limitDelay : Nat := 48 * 3600

variable {Key : Type}

def deployed (owner guardian : Address) : State Key where
  owner := owner
  guardian := guardian
  hub := 0
  rewardManager := 0
  lRun := defaultLRun
  uRun := defaultURun
  totalCap := defaultTotalCap
  minOrderUsd := defaultMinOrder
  pendingLimits := ⟨0, 0, 0, 0⟩
  inflightUsd := 0
  issuedUsd := 0
  redeemingUsd := 0
  unreviewedUsd := 0
  unreviewedRewardUsd := 0
  issuedRaw := fun _ => 0
  issuedUsdOf := fun _ => 0
  tickets := fun _ => .blank
  assetCap := fun _ => ⟨0, false⟩
  pendingAssetCap := fun _ => ⟨0, 0⟩
  inflightUsdOf := fun _ => 0
  redeemingUsdOf := fun _ => 0

/-! Views. -/

def State.exposureUsd (s : State Key) : Nat := s.inflightUsd + s.issuedUsd + s.redeemingUsd

def State.assetExposureUsd (s : State Key) (asset : Address) : Nat :=
  s.inflightUsdOf asset + s.issuedUsdOf asset + s.redeemingUsdOf asset

def shareOf (cap : Nat) : Nat :=
  cap / 10000 * rewardShareBps + cap % 10000 * rewardShareBps / 10000

def State.rewardReserve (s : State Key) : Nat := shareOf s.totalCap

def State.publicCap (s : State Key) : Nat := s.totalCap - s.rewardReserve

def State.rewardUnreviewedShare (s : State Key) : Nat := shareOf s.uRun

def checkRun (s : State Key) (usd : Nat) : Tx Unit := do
  require (usd ≤ s.lRun) .runLimit
  require (s.minOrderUsd ≤ usd) .belowMinOrder

/-- The unreviewed part of `_check`: public orders share 80% of `uRun`, the reward
lane always keeps its own 20% and may use whatever room `uRun` still has. -/
def unreviewedFull (s : State Key) (lane usd : Nat) : Tx Bool := do
  let publicUnreviewed ← sub s.unreviewedUsd s.unreviewedRewardUsd
  if lane = 0 then do
    let taken ← add 256 publicUnreviewed usd
    let room ← sub s.uRun s.rewardUnreviewedShare
    if room < taken then pure true
    else do
      let all ← add 256 s.unreviewedUsd usd
      pure (decide (s.uRun < all))
  else do
    let own ← add 256 s.unreviewedRewardUsd usd
    if s.rewardUnreviewedShare < own then do
      let all ← add 256 s.unreviewedUsd usd
      pure (decide (s.uRun < all))
    else pure false

/-- `_check`: the error a reservation would be refused with, if any. -/
def check (s : State Key) (lane usd : Nat) : Tx (Option StockError) :=
  if usd = 0 then pure (some .zeroAmount)
  else if s.lRun < usd then pure (some .runLimit)
  else do
    let full ← unreviewedFull s lane usd
    if full then pure (some .unreviewedLimit)
    else do
      let newExposure ← add 256 s.exposureUsd usd
      if lane = 0 ∧ s.publicCap < newExposure then pure (some .publicLimit)
      else if s.totalCap < newExposure then pure (some .totalLimit)
      else pure none

def checkAsset (s : State Key) (lane : Nat) (asset : Address) (usd : Nat) :
    Tx (Option StockError) := do
  let refused ← check s lane usd
  match refused with
  | some error => pure (some error)
  | none =>
    if (s.assetCap asset).set then do
      let newExposure ← add 256 (s.assetExposureUsd asset) usd
      if (s.assetCap asset).cap < newExposure then pure (some .assetLimit) else pure none
    else pure none

def canReserve (s : State Key) (lane usd : Nat) : Tx Bool := do
  let refused ← check s lane usd
  pure refused.isNone

def canReserveFor (s : State Key) (lane : Nat) (asset : Address) (usd : Nat) : Tx Bool := do
  let refused ← checkAsset s lane asset usd
  pure refused.isNone

/-! Reservations. -/

def addUnreviewed (s : State Key) (lane usd : Nat) : Tx (State Key) := do
  let all ← add 256 s.unreviewedUsd usd
  if lane = 1 then do
    let reward ← add 256 s.unreviewedRewardUsd usd
    pure { s with unreviewedUsd := all, unreviewedRewardUsd := reward }
  else pure { s with unreviewedUsd := all }

def subUnreviewed (s : State Key) (lane usd : Nat) : Tx (State Key) := do
  let all ← sub s.unreviewedUsd usd
  if lane = 1 then do
    let reward ← sub s.unreviewedRewardUsd usd
    pure { s with unreviewedUsd := all, unreviewedRewardUsd := reward }
  else pure { s with unreviewedUsd := all }

variable [DecidableEq Key]

def State.setTicket (s : State Key) (key : Key) (ticket : Ticket) : State Key :=
  { s with tickets := Function.update s.tickets key ticket }

def reserve (s : State Key) (key : Key) (lane : Nat) (asset : Address) (usd : Nat) :
    Tx (State Key) := do
  require (asset ≠ 0) .required
  let t := s.tickets key
  require (t.state = .none ∨ t.state = .closed) .alreadyReserved
  require (¬ (t.state = .closed ∧ t.sent = true)) .alreadySent
  let refused ← checkAsset s lane asset usd
  match refused with
  | some error => throw (.revert error)
  | none => do
    let inflight ← add 256 s.inflightUsd usd
    let inflightOf ← add 256 (s.inflightUsdOf asset) usd
    addUnreviewed
      { s.setTicket key ⟨.reserved, lane, false, true, asset, usd, 0⟩ with
        inflightUsd := inflight
        inflightUsdOf := Function.update s.inflightUsdOf asset inflightOf }
      lane usd

def reserveFor (s : State Key) (sender : Address) (key : Key) (asset : Address) (usd : Nat) :
    Tx (State Key) := do
  require (sender = s.rewardManager) .notRewardManager
  reserve s key 1 asset usd

def reservePublicFor (s : State Key) (sender : Address) (key : Key) (asset : Address) (usd : Nat) :
    Tx (State Key) := do
  require (sender = s.hub) .notHub
  reserve s key 0 asset usd

def markSent (s : State Key) (sender : Address) (key : Key) : Tx (State Key) := do
  require (sender = s.hub) .notHub
  let t := s.tickets key
  require (t.state = .reserved) .notReserved
  pure (s.setTicket key { t with sent := true })

/-- `_drop`: an unsent ticket is deleted, any other one closed. -/
def drop (s : State Key) (key : Key) (unsent : Bool) : Tx (State Key) := do
  let t := s.tickets key
  let inflight ← sub s.inflightUsd t.usd
  let inflightOf ← sub (s.inflightUsdOf t.asset) t.usd
  let s := { s with
    inflightUsd := inflight
    inflightUsdOf := Function.update s.inflightUsdOf t.asset inflightOf }
  let s ← if t.unreviewed then subUnreviewed s t.lane t.usd else pure s
  pure (s.setTicket key
    (if unsent then .blank else { t with state := .closed, unreviewed := false }))

def releaseUnsent (s : State Key) (sender : Address) (key : Key) : Tx (State Key) := do
  require (sender = s.rewardManager ∨ sender = s.hub) .notRewardManager
  let t := s.tickets key
  require (t.state = .reserved) .notReserved
  require (t.sent = false) .alreadySent
  drop s key true

def release (s : State Key) (sender : Address) (key : Key) : Tx (State Key) := do
  require (sender = s.hub) .notHub
  if (s.tickets key).state = .reserved then drop s key false else pure s

def releaseFinalized (s : State Key) (sender : Address) (key : Key) : Tx Unit := do
  require (sender = s.rewardManager) .notRewardManager
  require ((s.tickets key).state ≠ .reserved) .notFinalized

/-! Issuance and redemption. -/

/-- An unknown key still records the raw issued, with no dollar basis. -/
def finalizeBuy (s : State Key) (sender : Address) (key : Key) (asset : Address) (raw : Nat) :
    Tx (State Key) := do
  require (sender = s.hub) .notHub
  let t := s.tickets key
  let issuedRaw ← add 256 (s.issuedRaw asset) raw
  let s := { s with issuedRaw := Function.update s.issuedRaw asset issuedRaw }
  if t.state = .reserved then do
    let inflight ← sub s.inflightUsd t.usd
    let inflightOf ← sub (s.inflightUsdOf t.asset) t.usd
    let issued ← add 256 s.issuedUsd t.usd
    let issuedOf ← add 256 (s.issuedUsdOf asset) t.usd
    pure { s.setTicket key { t with state := .issued, asset := asset, raw := raw } with
      inflightUsd := inflight
      inflightUsdOf := Function.update s.inflightUsdOf t.asset inflightOf
      issuedUsd := issued
      issuedUsdOf := Function.update s.issuedUsdOf asset issuedOf }
  else pure s

/-- The average cost basis of `raw` out of `totalRaw`, rounded up. -/
def redeemBasis (basis totalRaw raw : Nat) : Tx Nat := do
  let product ← mul 256 basis raw
  let padded ← add 256 product totalRaw
  let numerator ← sub padded 1
  pure (min (numerator / totalRaw) basis)

def beginRedeem (s : State Key) (sender : Address) (key : Key) (asset : Address) (raw : Nat) :
    Tx (State Key) := do
  require (sender = s.hub) .notHub
  require ((s.tickets key).state = .none) .alreadyReserved
  let totalRaw := s.issuedRaw asset
  let basis := s.issuedUsdOf asset
  -- more than was issued is clamped to all of it
  let taken := min raw totalRaw
  let usd ← if totalRaw ≤ raw then pure basis else redeemBasis basis totalRaw raw
  let issuedRaw ← sub totalRaw taken
  let issuedOf ← sub basis usd
  let issued ← sub s.issuedUsd usd
  let redeeming ← add 256 s.redeemingUsd usd
  let redeemingOf ← add 256 (s.redeemingUsdOf asset) usd
  pure { s.setTicket key ⟨.redeeming, 0, true, false, asset, usd, taken⟩ with
    issuedRaw := Function.update s.issuedRaw asset issuedRaw
    issuedUsdOf := Function.update s.issuedUsdOf asset issuedOf
    issuedUsd := issued
    redeemingUsd := redeeming
    redeemingUsdOf := Function.update s.redeemingUsdOf asset redeemingOf }

def finalizeRedeem (s : State Key) (sender : Address) (key : Key) (reviewed : Bool) :
    Tx (State Key) := do
  require (sender = s.hub) .notHub
  let t := s.tickets key
  if t.state = .redeeming then do
    let redeeming ← sub s.redeemingUsd t.usd
    let redeemingOf ← sub (s.redeemingUsdOf t.asset) t.usd
    let s := { s with
      redeemingUsd := redeeming
      redeemingUsdOf := Function.update s.redeemingUsdOf t.asset redeemingOf }
    if reviewed then pure (s.setTicket key { t with state := .closed })
    else addUnreviewed (s.setTicket key { t with state := .closed, unreviewed := true }) t.lane t.usd
  else pure s

def revertRedeem (s : State Key) (sender : Address) (key : Key) : Tx (State Key) := do
  require (sender = s.hub) .notHub
  let t := s.tickets key
  if t.state = .redeeming then do
    let redeeming ← sub s.redeemingUsd t.usd
    let redeemingOf ← sub (s.redeemingUsdOf t.asset) t.usd
    let issued ← add 256 s.issuedUsd t.usd
    let issuedRaw ← add 256 (s.issuedRaw t.asset) t.raw
    let issuedOf ← add 256 (s.issuedUsdOf t.asset) t.usd
    pure { s.setTicket key { t with state := .closed } with
      redeemingUsd := redeeming
      redeemingUsdOf := Function.update s.redeemingUsdOf t.asset redeemingOf
      issuedUsd := issued
      issuedRaw := Function.update s.issuedRaw t.asset issuedRaw
      issuedUsdOf := Function.update s.issuedUsdOf t.asset issuedOf }
  else pure s

def markReviewed (s : State Key) (sender : Address) (key : Key) : Tx (State Key) := do
  require (sender = s.hub) .notHub
  let t := s.tickets key
  if t.unreviewed then
    subUnreviewed (s.setTicket key { t with unreviewed := false }) t.lane t.usd
  else pure s

/-! Limits. -/

def bind (s : State Key) (sender hub rewardManager : Address) : Tx (State Key) := do
  require (sender = s.owner) .notOwner
  require (s.hub = 0) .alreadyBound
  require (hub ≠ 0 ∧ rewardManager ≠ 0) .required
  pure { s with hub := hub, rewardManager := rewardManager }

def setLimits (s : State Key) (lRun uRun totalCap : Nat) : State Key :=
  { s with lRun := lRun, uRun := uRun, totalCap := totalCap }

def checkLimits (s : State Key) (lRun uRun totalCap : Nat) : Tx Unit :=
  require (¬ (lRun = 0 ∨ lRun < s.minOrderUsd ∨ uRun < lRun ∨ totalCap < uRun)) .badLimits

def lowerLimits (s : State Key) (sender : Address) (lRun uRun totalCap : Nat) : Tx (State Key) := do
  require (sender = s.guardian ∨ sender = s.owner) .notOwner
  require (¬ (s.lRun < lRun ∨ s.uRun < uRun ∨ s.totalCap < totalCap)) .onlyLower
  let s := if s.pendingLimits.eta ≠ 0 then { s with pendingLimits := ⟨0, 0, 0, 0⟩ } else s
  pure (setLimits s lRun uRun totalCap)

def proposeLimits (s : State Key) (sender : Address) (now lRun uRun totalCap : Nat) :
    Tx (State Key) := do
  require (sender = s.owner) .notOwner
  checkLimits s lRun uRun totalCap
  pure { s with pendingLimits := ⟨lRun, uRun, totalCap, now + limitDelay⟩ }

def executeLimits (s : State Key) (sender : Address) (now : Nat) : Tx (State Key) := do
  require (sender = s.owner) .notOwner
  let p := s.pendingLimits
  require (¬ (p.eta = 0 ∨ now < p.eta)) .timelocked
  checkLimits s p.lRun p.uRun p.totalCap
  pure (setLimits { s with pendingLimits := ⟨0, 0, 0, 0⟩ } p.lRun p.uRun p.totalCap)

def setMinOrder (s : State Key) (sender : Address) (usd : Nat) : Tx (State Key) := do
  require (sender = s.owner) .notOwner
  require (usd ≤ s.lRun) .badLimits
  pure { s with minOrderUsd := usd }

def storeAssetCap (s : State Key) (asset : Address) (cap : Nat) : State Key :=
  { s with assetCap := Function.update s.assetCap asset ⟨cap, true⟩ }

def setAssetCap (s : State Key) (sender asset : Address) (cap : Nat) : Tx (State Key) := do
  require (sender = s.owner) .notOwner
  require ((s.assetCap asset).set = false) .timelocked
  require (asset ≠ 0) .required
  pure (storeAssetCap s asset cap)

def lowerAssetCap (s : State Key) (sender asset : Address) (cap : Nat) : Tx (State Key) := do
  require (sender = s.guardian ∨ sender = s.owner) .notOwner
  require ((s.assetCap asset).set = true ∧ cap ≤ (s.assetCap asset).cap) .onlyLower
  pure (storeAssetCap s asset cap)

def proposeAssetCap (s : State Key) (sender : Address) (now : Nat) (asset : Address) (cap : Nat) :
    Tx (State Key) := do
  require (sender = s.owner) .notOwner
  require ((s.assetCap asset).set = true) .notReserved
  pure { s with
    pendingAssetCap := Function.update s.pendingAssetCap asset ⟨cap, now + limitDelay⟩ }

def executeAssetCap (s : State Key) (sender : Address) (now : Nat) (asset : Address) :
    Tx (State Key) := do
  require (sender = s.owner) .notOwner
  let p := s.pendingAssetCap asset
  require (¬ (p.eta = 0 ∨ now < p.eta)) .timelocked
  pure (storeAssetCap
    { s with pendingAssetCap := Function.update s.pendingAssetCap asset ⟨0, 0⟩ } asset p.cap)

/-! One external call, by any sender at any time. -/

inductive Action (Key : Type) where
  | reserveFor (key : Key) (asset : Address) (usd : Nat)
  | reservePublicFor (key : Key) (asset : Address) (usd : Nat)
  | markSent (key : Key)
  | releaseUnsent (key : Key)
  | release (key : Key)
  | finalizeBuy (key : Key) (asset : Address) (raw : Nat)
  | beginRedeem (key : Key) (asset : Address) (raw : Nat)
  | finalizeRedeem (key : Key) (reviewed : Bool)
  | revertRedeem (key : Key)
  | markReviewed (key : Key)
  | bind (hub rewardManager : Address)
  | lowerLimits (lRun uRun totalCap : Nat)
  | proposeLimits (lRun uRun totalCap : Nat)
  | executeLimits
  | setMinOrder (usd : Nat)
  | setAssetCap (asset : Address) (cap : Nat)
  | lowerAssetCap (asset : Address) (cap : Nat)
  | proposeAssetCap (asset : Address) (cap : Nat)
  | executeAssetCap (asset : Address)

structure Call (Key : Type) where
  sender : Address
  now : Nat
  action : Action Key

def step (s : State Key) (call : Call Key) : Tx (State Key) :=
  match call.action with
  | .reserveFor key asset usd => reserveFor s call.sender key asset usd
  | .reservePublicFor key asset usd => reservePublicFor s call.sender key asset usd
  | .markSent key => markSent s call.sender key
  | .releaseUnsent key => releaseUnsent s call.sender key
  | .release key => release s call.sender key
  | .finalizeBuy key asset raw => finalizeBuy s call.sender key asset raw
  | .beginRedeem key asset raw => beginRedeem s call.sender key asset raw
  | .finalizeRedeem key reviewed => finalizeRedeem s call.sender key reviewed
  | .revertRedeem key => revertRedeem s call.sender key
  | .markReviewed key => markReviewed s call.sender key
  | .bind hub rewardManager => bind s call.sender hub rewardManager
  | .lowerLimits lRun uRun totalCap => lowerLimits s call.sender lRun uRun totalCap
  | .proposeLimits lRun uRun totalCap => proposeLimits s call.sender call.now lRun uRun totalCap
  | .executeLimits => executeLimits s call.sender call.now
  | .setMinOrder usd => setMinOrder s call.sender usd
  | .setAssetCap asset cap => setAssetCap s call.sender asset cap
  | .lowerAssetCap asset cap => lowerAssetCap s call.sender asset cap
  | .proposeAssetCap asset cap => proposeAssetCap s call.sender call.now asset cap
  | .executeAssetCap asset => executeAssetCap s call.sender call.now asset

end Solonpad.Capacity
