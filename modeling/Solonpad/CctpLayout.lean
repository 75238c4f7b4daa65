import Solonpad.BigEndian
import Solonpad.Checked

/-!
`CctpV2.sol` on bytes: the header and the burn body at their fixed offsets, and the hook data behind
them. A read beyond a message's end is a fault of its own, as the source's memory access is.
-/

namespace Solonpad.CctpLayout

open Checked BigEndian

def sourceDomainIndex : Nat := 4
def destinationDomainIndex : Nat := 8
def nonceIndex : Nat := 12
def senderIndex : Nat := 44
def recipientIndex : Nat := 76
def destinationCallerIndex : Nat := 108
def finalityThresholdExecutedIndex : Nat := 144
def messageBodyIndex : Nat := 148

/-! Relative to the body's start. -/

def burnTokenIndex : Nat := 4
def mintRecipientIndex : Nat := 36
def amountIndex : Nat := 68
def msgSenderIndex : Nat := 100
def hookDataIndex : Nat := 228

structure Parsed where
  sourceDomain : BitVec 32
  destinationDomain : BitVec 32
  nonce : BitVec 256
  /-- The token messenger on the source chain. -/
  sender : BitVec 256
  /-- The token messenger on this chain. -/
  recipient : BitVec 256
  destinationCaller : BitVec 256
  finalityThresholdExecuted : BitVec 32
  burnToken : BitVec 256
  mintRecipient : BitVec 256
  amount : BitVec 256
  /-- Who burned on the source chain. -/
  messageSender : BitVec 256
  hookData : Bytes
  deriving DecidableEq

inductive CctpError where
  | messageTooShort (length : Nat)
  deriving DecidableEq, Repr

abbrev Tx (α : Type) := Checked.Tx CctpError α

def byteAt (m : Bytes) (i : Nat) : Tx UInt8 :=
  match m[i]? with
  | some byte => .ok byte
  | none => .error .bounds

/-- The loop of `_u`: bytes still to read, the next one's place and the 256 bits read so far. -/
def uLoop (m : Bytes) : Nat → Nat → Nat → Tx Nat
  | 0, _, v => pure v
  | n + 1, i, v => do
    let byte ← byteAt m i
    uLoop m n (i + 1) ((v <<< 8) % 2 ^ 256 ||| byte.toNat)

/-- `_u`. -/
def u (m : Bytes) (start len : Nat) : Tx Nat := uLoop m len start 0

/-- The loop that copies the hook data. -/
def copy (m : Bytes) : Nat → Nat → Tx Bytes
  | 0, _ => pure []
  | n + 1, i => do
    let byte ← byteAt m i
    let rest ← copy m n (i + 1)
    pure (byte :: rest)

def parse (m : Bytes) : Tx Parsed := do
  require (¬ m.length < messageBodyIndex + hookDataIndex) (.messageTooShort m.length)
  let sourceDomain ← u m sourceDomainIndex 4
  let destinationDomain ← u m destinationDomainIndex 4
  let nonce ← u m nonceIndex 32
  let sender ← u m senderIndex 32
  let recipient ← u m recipientIndex 32
  let destinationCaller ← u m destinationCallerIndex 32
  let finalityThresholdExecuted ← u m finalityThresholdExecutedIndex 4
  let b := messageBodyIndex
  let burnToken ← u m (b + burnTokenIndex) 32
  let mintRecipient ← u m (b + mintRecipientIndex) 32
  let amount ← u m (b + amountIndex) 32
  let messageSender ← u m (b + msgSenderIndex) 32
  let hookStart := b + hookDataIndex
  let hook ← copy m (m.length - hookStart) hookStart
  pure {
    sourceDomain := .ofNat 32 sourceDomain
    destinationDomain := .ofNat 32 destinationDomain
    nonce := .ofNat 256 nonce
    sender := .ofNat 256 sender
    recipient := .ofNat 256 recipient
    destinationCaller := .ofNat 256 destinationCaller
    finalityThresholdExecuted := .ofNat 32 finalityThresholdExecuted
    burnToken := .ofNat 256 burnToken
    mintRecipient := .ofNat 256 mintRecipient
    amount := .ofNat 256 amount
    messageSender := .ofNat 256 messageSender
    hookData := hook }

/-- `build`: two `abi.encodePacked`, the body's inside the header's. -/
def build (sourceDomain destinationDomain : BitVec 32) (nonce sender recipient destinationCaller : BitVec 256)
    (minFinality finalityExecuted : BitVec 32) (burnToken mintRecipient amount messageSender : BitVec 256)
    (hookData : Bytes) : Bytes :=
  let body := packed [(4, 1), (32, burnToken.toNat), (32, mintRecipient.toNat), (32, amount.toNat),
    (32, messageSender.toNat), (32, 0), (32, 0), (32, 0)] ++ hookData
  packed [(4, 1), (4, sourceDomain.toNat), (4, destinationDomain.toNat), (32, nonce.toNat), (32, sender.toNat),
    (32, recipient.toNat), (32, destinationCaller.toNat), (4, minFinality.toNat),
    (4, finalityExecuted.toNat)] ++ body

/-! Reading. -/

variable {m : Bytes} {start : Nat}

theorem byteAt_ok {i : Nat} (within : i < m.length) : byteAt m i = .ok m[i] := by
  unfold byteAt
  rw [List.getElem?_eq_getElem within]

/-- A byte pushed onto what still has room in 256 bits. -/
theorem pushed {v : Nat} (room : v < 2 ^ 248) (byte : UInt8) :
    (v <<< 8) % 2 ^ 256 ||| byte.toNat = v * 256 + byte.toNat := by
  have small : byte.toNat < 2 ^ 8 := byte.toNat_lt
  have fits : v <<< 8 < 2 ^ 256 := by
    rw [Nat.shiftLeft_eq]
    omega
  rw [Nat.mod_eq_of_lt fits, ← Nat.shiftLeft_add_eq_or_of_lt small, Nat.shiftLeft_eq]

/-- The induction is on the bytes still to read; with the `k` read so far they fit one word. -/
theorem uLoop_ok (m : Bytes) (n i v k : Nat) (within : i + n ≤ m.length) (sofar : v < 256 ^ k)
    (room : k + n ≤ 32) : uLoop m n i v = .ok (v * 256 ^ n + value (slice i n m)) := by
  induction n generalizing i v k with
  | zero => simp [uLoop, slice, value, pure, Except.pure]
  | succ n ih =>
    have here : i < m.length := by omega
    have low : v < 2 ^ 248 := by
      have grown : 256 ^ k ≤ 256 ^ 31 := Nat.pow_le_pow_right (by decide) (by omega)
      have word : (256 : Nat) ^ 31 = 2 ^ 248 := by decide
      omega
    have next : v * 256 + m[i].toNat < 256 ^ (k + 1) := by
      have byte : m[i].toNat < 256 := m[i].toNat_lt
      rw [Nat.pow_succ]
      omega
    rw [uLoop, byteAt_ok here]
    change uLoop m n (i + 1) ((v <<< 8) % 2 ^ 256 ||| m[i].toNat) = _
    rw [pushed low, ih (i + 1) (v * 256 + m[i].toNat) (k + 1) (by omega) next (by omega),
      slice_cons here, value, slice_length (by omega)]
    congr 1
    ring

theorem u_ok {len : Nat} (within : start + len ≤ m.length) (word : len ≤ 32) :
    u m start len = .ok (value (slice start len m)) := by
  rw [u, uLoop_ok m len start 0 0 within (by decide) (by omega)]
  simp

theorem copy_ok (m : Bytes) (n i : Nat) (within : i + n ≤ m.length) : copy m n i = .ok (slice i n m) := by
  induction n generalizing i with
  | zero => simp [copy, slice, pure, Except.pure]
  | succ n ih =>
    have here : i < m.length := by omega
    rw [copy, byteAt_ok here, slice_cons here]
    change (copy m n (i + 1) >>= fun rest => pure (m[i] :: rest)) = _
    rw [ih (i + 1) (by omega)]
    rfl

/-- What a message that is long enough says. -/
def Parsed.of (m : Bytes) : Parsed where
  sourceDomain := .ofNat 32 (value (slice sourceDomainIndex 4 m))
  destinationDomain := .ofNat 32 (value (slice destinationDomainIndex 4 m))
  nonce := .ofNat 256 (value (slice nonceIndex 32 m))
  sender := .ofNat 256 (value (slice senderIndex 32 m))
  recipient := .ofNat 256 (value (slice recipientIndex 32 m))
  destinationCaller := .ofNat 256 (value (slice destinationCallerIndex 32 m))
  finalityThresholdExecuted := .ofNat 32 (value (slice finalityThresholdExecutedIndex 4 m))
  burnToken := .ofNat 256 (value (slice (messageBodyIndex + burnTokenIndex) 32 m))
  mintRecipient := .ofNat 256 (value (slice (messageBodyIndex + mintRecipientIndex) 32 m))
  amount := .ofNat 256 (value (slice (messageBodyIndex + amountIndex) 32 m))
  messageSender := .ofNat 256 (value (slice (messageBodyIndex + msgSenderIndex) 32 m))
  hookData := m.drop (messageBodyIndex + hookDataIndex)

theorem parse_ok (long : messageBodyIndex + hookDataIndex ≤ m.length) : parse m = .ok (.of m) := by
  have field : ∀ start len, start + len ≤ messageBodyIndex + hookDataIndex → len ≤ 32 →
      u m start len = .ok (value (slice start len m)) :=
    fun start len within word => u_ok (le_trans within long) word
  have tail : slice (messageBodyIndex + hookDataIndex) (m.length - (messageBodyIndex + hookDataIndex)) m =
      m.drop (messageBodyIndex + hookDataIndex) := by
    rw [slice, ← List.length_drop, List.take_length]
  have hook := copy_ok m (m.length - (messageBodyIndex + hookDataIndex)) _ (le_of_eq (Nat.add_sub_cancel' long))
  simp only [parse, bind_ok, require_ok, pure_ok]
  refine ⟨(), Nat.not_lt.mpr long, _, field _ 4 (by decide) (by decide), _, field _ 4 (by decide) (by decide),
    _, field _ 32 (by decide) (by decide), _, field _ 32 (by decide) (by decide),
    _, field _ 32 (by decide) (by decide), _, field _ 32 (by decide) (by decide),
    _, field _ 4 (by decide) (by decide), _, field _ 32 (by decide) (by decide),
    _, field _ 32 (by decide) (by decide), _, field _ 32 (by decide) (by decide),
    _, field _ 32 (by decide) (by decide), _, hook, ?_⟩
  rw [tail]
  rfl

theorem parse_short (short : m.length < messageBodyIndex + hookDataIndex) :
    parse m = .error (.revert (.messageTooShort m.length)) := by
  simp only [parse, require, if_neg (not_not.mpr short)]
  rfl

/-! The round trip. -/

theorem short_at {fields : Fields} {word : BitVec 32} {tail : Bytes} (front : Fields) (rest : Fields)
    (same : fields = front ++ (4, word.toNat) :: rest) (place : extent front = start) :
    BitVec.ofNat 32 (value (slice start 4 (packed fields ++ tail))) = word := by
  rw [read_packed tail same place word.isLt, BitVec.ofNat_toNat, BitVec.setWidth_eq]

theorem word_at {fields : Fields} {word : BitVec 256} {tail : Bytes} (front : Fields) (rest : Fields)
    (same : fields = front ++ (32, word.toNat) :: rest) (place : extent front = start) :
    BitVec.ofNat 256 (value (slice start 32 (packed fields ++ tail))) = word := by
  have fits : word.toNat < 256 ^ 32 := word.isLt
  rw [read_packed tail same place fits, BitVec.ofNat_toNat, BitVec.setWidth_eq]

section Layout

variable (sourceDomain destinationDomain : BitVec 32) (nonce sender recipient destinationCaller : BitVec 256)
  (minFinality finalityExecuted : BitVec 32) (burnToken mintRecipient amount messageSender : BitVec 256)
  (hookData : Bytes)

/-- The fields before the hook data. -/
def layout : Fields :=
  [(4, 1), (4, sourceDomain.toNat), (4, destinationDomain.toNat), (32, nonce.toNat), (32, sender.toNat),
    (32, recipient.toNat), (32, destinationCaller.toNat), (4, minFinality.toNat), (4, finalityExecuted.toNat),
    (4, 1), (32, burnToken.toNat), (32, mintRecipient.toNat), (32, amount.toNat), (32, messageSender.toNat),
    (32, 0), (32, 0), (32, 0)]

theorem build_packed : build sourceDomain destinationDomain nonce sender recipient destinationCaller minFinality
    finalityExecuted burnToken mintRecipient amount messageSender hookData =
      packed (layout sourceDomain destinationDomain nonce sender recipient destinationCaller minFinality
        finalityExecuted burnToken mintRecipient amount messageSender) ++ hookData := by
  simp only [build, layout, packed, List.append_assoc, List.nil_append]

theorem layout_extent : extent (layout sourceDomain destinationDomain nonce sender recipient destinationCaller
    minFinality finalityExecuted burnToken mintRecipient amount messageSender) = 376 := by
  simp [extent, layout]

theorem of_build : Parsed.of (build sourceDomain destinationDomain nonce sender recipient destinationCaller
    minFinality finalityExecuted burnToken mintRecipient amount messageSender hookData) =
      ⟨sourceDomain, destinationDomain, nonce, sender, recipient, destinationCaller, finalityExecuted, burnToken,
        mintRecipient, amount, messageSender, hookData⟩ := by
  rw [build_packed]
  simp only [Parsed.of, Parsed.mk.injEq]
  refine ⟨?_, ?_, ?_, ?_, ?_, ?_, ?_, ?_, ?_, ?_, ?_, ?_⟩
  · exact short_at [_] _ rfl (by simp [extent, sourceDomainIndex])
  · exact short_at [_, _] _ rfl (by simp [extent, destinationDomainIndex])
  · exact word_at [_, _, _] _ rfl (by simp [extent, nonceIndex])
  · exact word_at [_, _, _, _] _ rfl (by simp [extent, senderIndex])
  · exact word_at [_, _, _, _, _] _ rfl (by simp [extent, recipientIndex])
  · exact word_at [_, _, _, _, _, _] _ rfl (by simp [extent, destinationCallerIndex])
  · exact short_at [_, _, _, _, _, _, _, _] _ rfl (by simp [extent, finalityThresholdExecutedIndex])
  · exact word_at [_, _, _, _, _, _, _, _, _, _] _ rfl (by simp [extent, messageBodyIndex, burnTokenIndex])
  · exact word_at [_, _, _, _, _, _, _, _, _, _, _] _ rfl (by simp [extent, messageBodyIndex, mintRecipientIndex])
  · exact word_at [_, _, _, _, _, _, _, _, _, _, _, _] _ rfl (by simp [extent, messageBodyIndex, amountIndex])
  · exact word_at [_, _, _, _, _, _, _, _, _, _, _, _, _] _ rfl (by simp [extent, messageBodyIndex, msgSenderIndex])
  · have tail := slice_tail (layout sourceDomain destinationDomain nonce sender recipient destinationCaller
      minFinality finalityExecuted burnToken mintRecipient amount messageSender) hookData
    rw [layout_extent] at tail
    exact tail

end Layout

/-- Parsing what was built gives every field and the hook data back; a message is refused exactly where
it ends before the hook data, and no read goes beyond its bytes. -/
theorem parse_build :
    (∀ (sourceDomain destinationDomain : BitVec 32) (nonce sender recipient destinationCaller : BitVec 256)
      (minFinality finalityExecuted : BitVec 32) (burnToken mintRecipient amount messageSender : BitVec 256)
      (hookData : Bytes),
      parse (build sourceDomain destinationDomain nonce sender recipient destinationCaller minFinality
        finalityExecuted burnToken mintRecipient amount messageSender hookData) =
          .ok ⟨sourceDomain, destinationDomain, nonce, sender, recipient, destinationCaller, finalityExecuted,
            burnToken, mintRecipient, amount, messageSender, hookData⟩) ∧
    ∀ message : Bytes,
      (376 ≤ message.length → ∃ parsed, parse message = .ok parsed) ∧
      (message.length < 376 → parse message = .error (.revert (.messageTooShort message.length))) ∧
      parse message ≠ .error .bounds := by
  constructor
  · intro sourceDomain destinationDomain nonce sender recipient destinationCaller minFinality finalityExecuted
      burnToken mintRecipient amount messageSender hookData
    rw [parse_ok, of_build]
    rw [build_packed, List.length_append, packed_length, layout_extent]
    exact Nat.le_add_right 376 _
  · intro message
    refine ⟨fun long => ⟨_, parse_ok long⟩, fun short => parse_short short, ?_⟩
    rcases Nat.lt_or_ge message.length (messageBodyIndex + hookDataIndex) with short | long
    · rw [parse_short short]
      exact fun same => by cases same
    · rw [parse_ok long]
      exact fun same => by cases same

end Solonpad.CctpLayout
