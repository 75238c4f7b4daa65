import Solonpad.Chain

/-!
The cross-chain payloads of `Messages.sol`. A ref is kept decoded: an order's small
id, or the underlying and nonce that `migrationRef` packs below the migration flag.
-/

namespace Solonpad.Messages

open Chain

inductive Ref where
  | order (id : Nat)
  | migration (underlying : Address) (nonce : Nat)
  deriving DecidableEq, Repr

def isMigrationRef : Ref → Bool
  | .order _ => false
  | .migration _ _ => true

inductive Side where
  | buy
  | sell
  deriving DecidableEq, Repr

inductive Outcome where
  | bought
  | sold
  | failed
  deriving DecidableEq, Repr

inductive DeliverMode where
  | stock
  | settlement
  deriving DecidableEq, Repr

/-- Hub to vault. A buy's `amountIn` is settlement, a sell's is shares. -/
structure Order where
  ref : Ref
  underlying : Address
  side : Side
  amountIn : Nat
  minOut : Nat
  deriving DecidableEq, Repr

/-- Vault to hub. -/
structure Result where
  ref : Ref
  underlying : Address
  outcome : Outcome
  amountIn : Nat
  amountOut : Nat
  seq : Nat
  deriving DecidableEq, Repr

/-- Canonical redemption: `shares` of `underlying`, or what their sale brings, for `recipient`. -/
structure Deliver where
  ref : Ref
  underlying : Address
  shares : Nat
  recipient : Address
  mode : DeliverMode
  deriving DecidableEq, Repr

/-- Vault to hub, canonical: the results from `fromSeq` to `toSeq` under one root. -/
structure Checkpoint (Hash : Type) where
  root : Hash
  fromSeq : Nat
  toSeq : Nat
  deriving DecidableEq, Repr

def toUint128 (amount : Nat) : Nat := amount % 2 ^ 128

def toUint64 (amount : Nat) : Nat := amount % 2 ^ 64

end Solonpad.Messages
