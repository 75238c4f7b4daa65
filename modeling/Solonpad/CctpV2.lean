import Solonpad.Chain

/-!
What `CctpV2.parse` reads out of a CCTP message that carries a hook. The hook data is kept decoded, and the
fields no contract here checks are left out.
-/

namespace Solonpad.CctpV2

open Chain (Address)

structure Parsed (Hook : Type) where
  sourceDomain : Nat
  nonce : Nat
  /-- The token messenger on the source chain. -/
  sender : Address
  mintRecipient : Address
  amount : Nat
  /-- Who burned on the source chain. -/
  messageSender : Address
  hookData : Hook
  deriving DecidableEq, Repr

end Solonpad.CctpV2
