import Solonpad.Chain

/-!
`DeskNFT.sol`: cards numbered in the order they are issued. A batch raises the counter first and
then mints card by card, and each card's receiver may call out before the next one exists: a batch
under way is part of the state, and the guarded functions refuse while it lasts. Approvals,
signatures, the eligibility answers and the burn of SOLON are the environment's.
-/

namespace Solonpad.Desk

open Checked
open Chain (Address)

inductive DeskError where
  | mintCapacity | addressMintCap | surchargePayment | sinkDelta | governance | protocolVaultCap
  | protocolMintOnly | protocolLocked | protocolDelegated | eligibility | sponsorConsent | mintCap
  | invalidReceiver | invalidSender | nonexistentToken | unauthorized | staleOrder | buyerPayment
  | saleSignature | unclaimedBelowFloor | royaltyPayment | salePayment | reentrancy
  | royaltyConfiguration | stockRoyaltyAsset | royaltyDelta | roundConfiguration | nativeSource
  | sealDesk | emptyBudget | fundEntry | entry | purchaseCoverage | protocolStakingMissing
  | nativeProtocolBudget | rawStockOnly | forwardDelta | registry | nft | ledger | source
  | firstDeskRequired | claim | deliveryEligibility | deliveryDelta | ledgerPull | ledgerDelta | peer
  deriving DecidableEq, Repr

abbrev Tx (α : Type) := Checked.Tx DeskError α

/-- A batch whose ids are issued: `next` is the first one not minted yet. -/
structure Minting where
  recipient : Address
  next : Nat
  upper : Nat
  fee : Nat

structure Cards where
  nextTokenId : Nat
  protocolMinted : Nat
  protocolVault : Address
  /-- 0 is no card. -/
  ownerOf : Nat → Address
  nonces : Nat → Nat
  mintCapPerAddress : Nat
  mintedTo : Address → Nat
  sponsorEscrow : Address → Address → Nat
  minting : Option Minting

def Cards.empty : Cards where
  nextTokenId := 1
  protocolMinted := 0
  protocolVault := 0
  ownerOf := fun _ => 0
  nonces := fun _ => 0
  mintCapPerAddress := 50
  mintedTo := fun _ => 0
  sponsorEscrow := fun _ _ => 0
  minting := none

structure CardsConfig where
  governance : Address
  surchargeUSDC18 : Nat

/-- What surrounds one call. `answer` is the single check that other contracts decide in it: an
approval, a sale's signature, the burn of SOLON. -/
structure Env where
  sender : Address
  now : Nat
  value : Nat
  hasCode : Address → Bool
  eligible : Address → Bool
  answer : Bool
  created : Address

def maxSupply : Nat := 5000

def Cards.totalSupply (c : Cards) : Nat := c.nextTokenId - 1

/-- How many cards are minted: the ids below the first one still to come. -/
def Cards.minted (c : Cards) : Nat :=
  match c.minting with
  | some m => m.next - 1
  | none => c.totalSupply

def Cards.balanceOf (c : Cards) (account : Address) : Nat :=
  (List.range c.nextTokenId).countP fun id => decide (id ≠ 0 ∧ c.ownerOf id = account)

def Cards.nonReentrant (c : Cards) : Tx Unit := require (c.minting.isNone = true) .reentrancy

variable (k : CardsConfig)

/-! Minting. -/

/-- `_mint` of one card. -/
def Cards.mintCard (c : Cards) (env : Env) (recipient : Address) (id : Nat) : Tx Cards := do
  require (recipient ≠ 0) .invalidReceiver
  require (env.eligible recipient = true) .eligibility
  require (c.ownerOf id = 0) .invalidSender
  pure { c with ownerOf := Function.update c.ownerOf id recipient }

/-- `_mintPaid` up to its first card. -/
def Cards.mintPaid (c : Cards) (env : Env) (count : Nat) (recipient : Address) (fee : Nat) :
    Tx Cards := do
  require (0 < count ∧ count ≤ 20 ∧ c.totalSupply + count ≤ maxSupply) .mintCapacity
  let minted := c.mintedTo recipient + count
  require (recipient ≠ c.protocolVault → minted ≤ c.mintCapPerAddress) .addressMintCap
  require (fee = k.surchargeUSDC18 * count) .surchargePayment
  require (env.answer = true) .sinkDelta
  let first := c.nextTokenId
  let c ← Cards.mintCard { c with
    mintedTo := if recipient ≠ c.protocolVault then Function.update c.mintedTo recipient minted
      else c.mintedTo
    nextTokenId := first + count } env recipient first
  pure { c with minting := some ⟨recipient, first + 1, first + count, fee⟩ }

/-- The loop of `_mintPaid` goes on after a receiver's callback. -/
def Cards.mintNext (c : Cards) (env : Env) : Tx Cards :=
  match c.minting with
  | none => throw (.revert .reentrancy)
  | some m => do
    require (m.next < m.upper) .mintCapacity
    let c ← c.mintCard env m.recipient m.next
    pure { c with minting := some { m with next := m.next + 1 } }

/-- The end of `_mintPaid`, with the surcharge that goes to the rewards. -/
def Cards.mintDone (c : Cards) : Tx (Cards × Nat) :=
  match c.minting with
  | none => throw (.revert .reentrancy)
  | some m => do
    require (m.next = m.upper) .mintCapacity
    pure ({ c with minting := none }, m.fee - m.fee / 10)

def Cards.mint (c : Cards) (env : Env) (count : Nat) (recipient : Address) : Tx Cards := do
  c.nonReentrant
  require (recipient ≠ c.protocolVault) .protocolMintOnly
  c.mintPaid k env count recipient env.value

def Cards.mintProtocol (c : Cards) (env : Env) (count : Nat) : Tx Cards := do
  c.nonReentrant
  require (env.sender = c.protocolVault ∧ c.protocolMinted + count ≤ 1000) .protocolVaultCap
  Cards.mintPaid k { c with protocolMinted := c.protocolMinted + count } env count c.protocolVault env.value

def Cards.authorizeSponsored (c : Cards) (env : Env) (recipient : Address) : Tx Cards := do
  c.nonReentrant
  require (recipient ≠ 0 ∧ env.value = k.surchargeUSDC18 ∧ c.sponsorEscrow env.sender recipient = 0)
    .sponsorConsent
  pure { c with
    sponsorEscrow := Function.update c.sponsorEscrow env.sender
      (Function.update (c.sponsorEscrow env.sender) recipient env.value) }

def Cards.grantSponsored (c : Cards) (env : Env) (recipient sponsor : Address) : Tx Cards := do
  c.nonReentrant
  require (env.sender = k.governance ∧ recipient ≠ c.protocolVault) .governance
  let fee := c.sponsorEscrow sponsor recipient
  require (fee = k.surchargeUSDC18) .sponsorConsent
  Cards.mintPaid k { c with
    sponsorEscrow := Function.update c.sponsorEscrow sponsor
      (Function.update (c.sponsorEscrow sponsor) recipient 0) } env 1 recipient fee

/-! Ownership. -/

/-- `_update` of a transfer: protocol cards stay, and no other card joins them. -/
def Cards.transfer (c : Cards) (env : Env) (holder recipient : Address) (id : Nat) : Tx Cards := do
  let owner := c.ownerOf id
  require (owner ≠ 0) .nonexistentToken
  require (recipient ≠ 0) .invalidReceiver
  require (owner ≠ c.protocolVault) .protocolLocked
  require (recipient ≠ c.protocolVault) .protocolMintOnly
  require (env.eligible owner = true ∧ env.eligible recipient = true) .eligibility
  require (owner = holder) .invalidSender
  pure { c with
    nonces := Function.update c.nonces id (c.nonces id + 1)
    ownerOf := Function.update c.ownerOf id recipient }

/-- `transferFrom` and `safeTransferFrom`. -/
def Cards.transferFrom (c : Cards) (env : Env) (holder recipient : Address) (id : Nat) : Tx Cards := do
  c.nonReentrant
  require (env.answer = true) .unauthorized
  c.transfer env holder recipient id

/-! Settings. -/

def Cards.configureProtocolVault (c : Cards) (env : Env) (vault : Address) : Tx Cards := do
  require (env.sender = k.governance ∧ c.protocolVault = 0 ∧ env.hasCode vault = true ∧
    c.balanceOf vault = 0) .governance
  pure { c with protocolVault := vault }

def Cards.setMintCapPerAddress (c : Cards) (env : Env) (cap : Nat) : Tx Cards := do
  require (env.sender = k.governance ∧ cap ≤ maxSupply) .mintCap
  pure { c with mintCapPerAddress := cap }

def Cards.tightenMintCapPerAddress (c : Cards) (env : Env) (cap : Nat) : Tx Cards := do
  require (env.sender = k.governance ∧ cap < c.mintCapPerAddress) .mintCap
  pure { c with mintCapPerAddress := cap }

end Solonpad.Desk
