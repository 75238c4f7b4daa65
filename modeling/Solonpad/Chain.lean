import Solonpad.Checked
import Solonpad.RunningTotal

/-!
What the stock layer's contracts share: addresses, the names of their custom
errors (arguments left out) and the ERC20 base that every `.sol` token inherits.
A token carries the proof that its balances add up to its supply, so the
unchecked subtraction of a burn is safe by construction.
-/

namespace Solonpad.Chain

open Checked RunningTotal

abbrev Address := Nat

inductive StockError where
  | zeroAddress | zeroAmount | notListed | alreadyListed | stockDisabled | feeTooHigh
  | noSuchOrder | wrongStatus | wrongKind | notYours | tooEarly | insufficientValue
  | notKeeper | insufficientFloat | wrongSource | alreadyReconciled | gateAlreadySet
  | transferFailed | notRoute | notScheduler | notRewardAdapter | badRewardOrder
  | notFloatRecipient | timelocked | notGuardianOrOwner | runLimit | belowMinOrder
  | badMigration | notClaimable | notListedHere | mintLimitExceeded | mintsAreHalted
  | enforcedPause | expectedPause | notOwner | notEnoughNative
  | unreviewedLimit | publicLimit | totalLimit | assetLimit | alreadySent | alreadyReserved
  | notReserved | notHub | notRewardManager | onlyLower | alreadyBound | notFinalized
  | badLimits | required
  | venueUnsupported | settlementMismatch | notBridgerAlias | nothingToCheckpoint
  | nothingToSkim | exceedsEntitlement | onlySelf | migrationIsClosed | notWaiting
  | notSettled | nothingToReturn
  | erc20InvalidReceiver | erc20InvalidSender | erc20InsufficientBalance
  | badProof | badQuote | venueReverted
  deriving DecidableEq, Repr

abbrev Tx (α : Type) := Checked.Tx StockError α

structure Token where
  balanceOf : Address → Nat
  totalSupply : Nat
  sums : Totals balanceOf totalSupply

def Token.empty : Token := ⟨fun _ => 0, 0, Totals.zero⟩

def Token.credit (token : Token) (receiver amount : Nat) : Token :=
  ⟨_, _, token.sums.credit receiver amount⟩

def Token.debit (token : Token) (holder amount : Nat) (covered : amount ≤ token.balanceOf holder) :
    Token :=
  ⟨_, _, token.sums.debit holder amount covered⟩

def Token.mint (token : Token) (receiver : Address) (amount : Nat) : Tx Token :=
  if receiver = 0 then .error (.revert .erc20InvalidReceiver) else .ok (token.credit receiver amount)

def Token.burn (token : Token) (holder : Address) (amount : Nat) : Tx Token :=
  if holder = 0 then .error (.revert .erc20InvalidSender)
  else if covered : amount ≤ token.balanceOf holder then .ok (token.debit holder amount covered)
  else .error (.revert .erc20InsufficientBalance)

def Token.transfer (token : Token) (holder receiver : Address) (amount : Nat) : Tx Token :=
  if holder = 0 then .error (.revert .erc20InvalidSender)
  else if receiver = 0 then .error (.revert .erc20InvalidReceiver)
  else if covered : amount ≤ token.balanceOf holder then
    .ok ((token.debit holder amount covered).credit receiver amount)
  else .error (.revert .erc20InsufficientBalance)

theorem Token.same {token other : Token} (balances : token.balanceOf = other.balanceOf)
    (supply : token.totalSupply = other.totalSupply) : token = other := by
  cases token
  cases other
  cases balances
  cases supply
  rfl

theorem mint_supply (token after : Token) (receiver : Address) (amount : Nat)
    (minted : token.mint receiver amount = .ok after) : after.totalSupply = token.totalSupply + amount := by
  unfold Token.mint at minted
  split at minted
  · cases minted
  · cases minted; rfl

/-- What is burned was held, so it is part of the supply. -/
theorem burn_supply (token after : Token) (holder : Address) (amount : Nat)
    (burned : token.burn holder amount = .ok after) : after.totalSupply + amount = token.totalSupply := by
  unfold Token.burn at burned
  split at burned
  · cases burned
  · split at burned
    · next covered =>
      cases burned
      have held := token.sums.entry_le holder
      simp only [Token.debit]
      omega
    · cases burned

theorem transfer_supply (token after : Token) (holder receiver : Address) (amount : Nat)
    (moved : token.transfer holder receiver amount = .ok after) : after.totalSupply = token.totalSupply := by
  unfold Token.transfer at moved
  repeat' split at moved
  all_goals try cases moved
  next covered =>
    have held := token.sums.entry_le holder
    simp only [Token.credit, Token.debit]
    omega

end Solonpad.Chain
