import Solonpad.BigEndian
import Solonpad.Messages
import Mathlib.Logic.Function.Basic

/-!
`Messages.sol` on bytes. A payload is `abi.encode` of a type byte and a struct of static fields, so a row
of 32-byte words; `abi.decode` wants all of them, accepts bytes behind them and refuses a word that does
not fit its field's type. The values here have the fields' own widths.
-/

namespace Solonpad.MessageCodec

open BigEndian
open Messages (Side Outcome DeliverMode)

structure Order where
  ref : BitVec 256
  underlying : BitVec 160
  side : Side
  amountIn : BitVec 128
  minOut : BitVec 128
  deriving DecidableEq

structure Result where
  ref : BitVec 256
  underlying : BitVec 160
  outcome : Outcome
  amountIn : BitVec 128
  amountOut : BitVec 128
  seq : BitVec 64
  deriving DecidableEq

structure Deliver where
  ref : BitVec 256
  underlying : BitVec 160
  shares : BitVec 128
  recipient : BitVec 160
  mode : DeliverMode
  deriving DecidableEq

structure Checkpoint where
  root : BitVec 256
  fromSeq : BitVec 64
  toSeq : BitVec 64
  deriving DecidableEq

inductive CodecError where
  /-- `abi.decode` gave up. -/
  | malformed
  | badMessageType (got want : Nat)
  deriving DecidableEq, Repr

def tOrder : Nat := 1
def tResult : Nat := 2
def tDeliver : Nat := 3
def tCheckpoint : Nat := 4

/-! Words. -/

def words (numbers : List Nat) : Bytes := packed (numbers.map fun n => (32, n))

/-- The word at a place, where it fits the type of so many values. -/
def wordAt (m : Bytes) (place limit : Nat) : Except CodecError Nat :=
  if value (slice (32 * place) 32 m) < limit then .ok (value (slice (32 * place) 32 m))
  else .error .malformed

def enough (m : Bytes) (count : Nat) : Except CodecError Unit :=
  if m.length < 32 * count then .error .malformed else .ok ()

def bitsAt (m : Bytes) (place width : Nat) : Except CodecError (BitVec width) := do
  let n ← wordAt m place (2 ^ width)
  pure (.ofNat width n)

/-- An enum by its values in order. -/
def pick {α : Type} (values : List α) (m : Bytes) (place : Nat) : Except CodecError α := do
  let n ← wordAt m place values.length
  match values[n]? with
  | some value => .ok value
  | none => .error .malformed

def sides : List Side := [.buy, .sell]
def outcomes : List Outcome := [.bought, .sold, .failed]
def modes : List DeliverMode := [.stock, .settlement]

def sideWord : Side → Nat
  | .buy => 0
  | .sell => 1

def outcomeWord : Outcome → Nat
  | .bought => 0
  | .sold => 1
  | .failed => 2

def modeWord : DeliverMode → Nat
  | .stock => 0
  | .settlement => 1

/-! Encoding. -/

def encodeOrder (o : Order) : Bytes :=
  words [tOrder, o.ref.toNat, o.underlying.toNat, sideWord o.side, o.amountIn.toNat, o.minOut.toNat]

def encodeResult (r : Result) : Bytes :=
  words [tResult, r.ref.toNat, r.underlying.toNat, outcomeWord r.outcome, r.amountIn.toNat, r.amountOut.toNat,
    r.seq.toNat]

def encodeDeliver (d : Deliver) : Bytes :=
  words [tDeliver, d.ref.toNat, d.underlying.toNat, d.shares.toNat, d.recipient.toNat, modeWord d.mode]

def encodeCheckpoint (c : Checkpoint) : Bytes :=
  words [tCheckpoint, c.root.toNat, c.fromSeq.toNat, c.toSeq.toNat]

/-! Decoding. -/

/-- `kind`. -/
def kind (m : Bytes) : Except CodecError Nat := do
  enough m 1
  wordAt m 0 (2 ^ 8)

/-- The check of the type byte, once everything was decoded. -/
def tagged {α : Type} (tag want : Nat) (decoded : α) : Except CodecError α :=
  if tag = want then .ok decoded else .error (.badMessageType tag want)

def decodeOrder (m : Bytes) : Except CodecError Order := do
  enough m 6
  let tag ← wordAt m 0 (2 ^ 8)
  let ref ← bitsAt m 1 256
  let underlying ← bitsAt m 2 160
  let side ← pick sides m 3
  let amountIn ← bitsAt m 4 128
  let minOut ← bitsAt m 5 128
  tagged tag tOrder ⟨ref, underlying, side, amountIn, minOut⟩

def decodeResult (m : Bytes) : Except CodecError Result := do
  enough m 7
  let tag ← wordAt m 0 (2 ^ 8)
  let ref ← bitsAt m 1 256
  let underlying ← bitsAt m 2 160
  let outcome ← pick outcomes m 3
  let amountIn ← bitsAt m 4 128
  let amountOut ← bitsAt m 5 128
  let seq ← bitsAt m 6 64
  tagged tag tResult ⟨ref, underlying, outcome, amountIn, amountOut, seq⟩

def decodeDeliver (m : Bytes) : Except CodecError Deliver := do
  enough m 6
  let tag ← wordAt m 0 (2 ^ 8)
  let ref ← bitsAt m 1 256
  let underlying ← bitsAt m 2 160
  let shares ← bitsAt m 3 128
  let recipient ← bitsAt m 4 160
  let mode ← pick modes m 5
  tagged tag tDeliver ⟨ref, underlying, shares, recipient, mode⟩

def decodeCheckpoint (m : Bytes) : Except CodecError Checkpoint := do
  enough m 4
  let tag ← wordAt m 0 (2 ^ 8)
  let root ← bitsAt m 1 256
  let fromSeq ← bitsAt m 2 64
  let toSeq ← bitsAt m 3 64
  tagged tag tCheckpoint ⟨root, fromSeq, toSeq⟩

/-! Migration refs. -/

def migrationFlag : BitVec 256 := 1#256 <<< 255

def migrationRef (underlying : BitVec 160) (nonce : BitVec 64) : BitVec 256 :=
  migrationFlag ||| ((underlying.setWidth 256 <<< 64) ||| nonce.setWidth 256)

def isMigrationRef (ref : BitVec 256) : Bool := decide (ref &&& migrationFlag ≠ 0#256)

def migrationUnderlying (ref : BitVec 256) : BitVec 160 := ((ref &&& ~~~migrationFlag) >>> 64).setWidth 160

/-! Reading words back. -/

theorem extent_words (numbers : List Nat) : extent (numbers.map fun n => (32, n)) = 32 * numbers.length := by
  induction numbers with
  | nil => rfl
  | cons n rest ih =>
    simp only [extent, List.map_cons, List.sum_cons, List.length_cons] at ih ⊢
    omega

theorem words_length (numbers : List Nat) : (words numbers).length = 32 * numbers.length := by
  rw [words, packed_length, extent_words]

theorem enough_words {numbers : List Nat} {count : Nat} (all : count ≤ numbers.length) :
    enough (words numbers) count = .ok () := by
  rw [enough, words_length, if_neg (by omega)]

theorem wordAt_words (before after : List Nat) {n limit : Nat} (fits : n < limit) (word : limit ≤ 2 ^ 256) :
    wordAt (words (before ++ n :: after)) before.length limit = .ok n := by
  have split : (before ++ n :: after).map (fun n => (32, n)) =
      before.map (fun n => (32, n)) ++ (32, n) :: after.map (fun n => (32, n)) := by
    rw [List.map_append, List.map_cons]
  have read := read_packed [] split (extent_words before) (Nat.lt_of_lt_of_le fits word)
  rw [List.append_nil] at read
  rw [wordAt, words, read, if_pos fits]

theorem bitsAt_words (before after : List Nat) {width : Nat} (bits : BitVec width) (word : width ≤ 256) :
    bitsAt (words (before ++ bits.toNat :: after)) before.length width = .ok bits := by
  have limit : 2 ^ width ≤ 2 ^ 256 := Nat.pow_le_pow_right (by decide) word
  rw [bitsAt, wordAt_words before after bits.isLt limit]
  change Except.ok (BitVec.ofNat width bits.toNat) = _
  rw [BitVec.ofNat_toNat, BitVec.setWidth_eq]

theorem pick_words {α : Type} (values : List α) (before after : List Nat) {n : Nat} {value : α}
    (entry : values[n]? = some value) (word : values.length ≤ 2 ^ 256) :
    pick values (words (before ++ n :: after)) before.length = .ok value := by
  obtain ⟨within, _⟩ := List.getElem?_eq_some_iff.mp entry
  rw [pick, wordAt_words before after within word]
  change (match values[n]? with
    | some value => Except.ok value
    | none => Except.error CodecError.malformed) = _
  rw [entry]

theorem side_entry (side : Side) : sides[sideWord side]? = some side := by
  cases side <;> rfl

theorem outcome_entry (outcome : Outcome) : outcomes[outcomeWord outcome]? = some outcome := by
  cases outcome <;> rfl

theorem mode_entry (mode : DeliverMode) : modes[modeWord mode]? = some mode := by
  cases mode <;> rfl

theorem encodeOrder_tag (o : Order) : wordAt (encodeOrder o) 0 (2 ^ 8) = .ok tOrder :=
  wordAt_words [] _ (by decide) (by decide)

theorem decodeOrder_encode (o : Order) : decodeOrder (encodeOrder o) = .ok o := by
  have all : enough (encodeOrder o) 6 = .ok () := enough_words le_rfl
  have ref : bitsAt (encodeOrder o) 1 256 = .ok o.ref :=
    bitsAt_words [_] _ o.ref (by decide)
  have underlying : bitsAt (encodeOrder o) 2 160 = .ok o.underlying :=
    bitsAt_words [_, _] _ o.underlying (by decide)
  have side : pick sides (encodeOrder o) 3 = .ok o.side :=
    pick_words sides [_, _, _] _ (side_entry o.side) (by decide)
  have amountIn : bitsAt (encodeOrder o) 4 128 = .ok o.amountIn :=
    bitsAt_words [_, _, _, _] _ o.amountIn (by decide)
  have minOut : bitsAt (encodeOrder o) 5 128 = .ok o.minOut :=
    bitsAt_words [_, _, _, _, _] _ o.minOut (by decide)
  rw [decodeOrder, all, encodeOrder_tag, ref, underlying, side, amountIn, minOut]
  rfl

theorem encodeResult_tag (r : Result) : wordAt (encodeResult r) 0 (2 ^ 8) = .ok tResult :=
  wordAt_words [] _ (by decide) (by decide)

theorem decodeResult_encode (r : Result) : decodeResult (encodeResult r) = .ok r := by
  have all : enough (encodeResult r) 7 = .ok () := enough_words le_rfl
  have ref : bitsAt (encodeResult r) 1 256 = .ok r.ref :=
    bitsAt_words [_] _ r.ref (by decide)
  have underlying : bitsAt (encodeResult r) 2 160 = .ok r.underlying :=
    bitsAt_words [_, _] _ r.underlying (by decide)
  have outcome : pick outcomes (encodeResult r) 3 = .ok r.outcome :=
    pick_words outcomes [_, _, _] _ (outcome_entry r.outcome) (by decide)
  have amountIn : bitsAt (encodeResult r) 4 128 = .ok r.amountIn :=
    bitsAt_words [_, _, _, _] _ r.amountIn (by decide)
  have amountOut : bitsAt (encodeResult r) 5 128 = .ok r.amountOut :=
    bitsAt_words [_, _, _, _, _] _ r.amountOut (by decide)
  have seq : bitsAt (encodeResult r) 6 64 = .ok r.seq :=
    bitsAt_words [_, _, _, _, _, _] _ r.seq (by decide)
  rw [decodeResult, all, encodeResult_tag, ref, underlying, outcome, amountIn, amountOut, seq]
  rfl

theorem encodeDeliver_tag (d : Deliver) : wordAt (encodeDeliver d) 0 (2 ^ 8) = .ok tDeliver :=
  wordAt_words [] _ (by decide) (by decide)

theorem decodeDeliver_encode (d : Deliver) : decodeDeliver (encodeDeliver d) = .ok d := by
  have all : enough (encodeDeliver d) 6 = .ok () := enough_words le_rfl
  have ref : bitsAt (encodeDeliver d) 1 256 = .ok d.ref :=
    bitsAt_words [_] _ d.ref (by decide)
  have underlying : bitsAt (encodeDeliver d) 2 160 = .ok d.underlying :=
    bitsAt_words [_, _] _ d.underlying (by decide)
  have shares : bitsAt (encodeDeliver d) 3 128 = .ok d.shares :=
    bitsAt_words [_, _, _] _ d.shares (by decide)
  have recipient : bitsAt (encodeDeliver d) 4 160 = .ok d.recipient :=
    bitsAt_words [_, _, _, _] _ d.recipient (by decide)
  have mode : pick modes (encodeDeliver d) 5 = .ok d.mode :=
    pick_words modes [_, _, _, _, _] _ (mode_entry d.mode) (by decide)
  rw [decodeDeliver, all, encodeDeliver_tag, ref, underlying, shares, recipient, mode]
  rfl

theorem encodeCheckpoint_tag (c : Checkpoint) : wordAt (encodeCheckpoint c) 0 (2 ^ 8) = .ok tCheckpoint :=
  wordAt_words [] _ (by decide) (by decide)

theorem decodeCheckpoint_encode (c : Checkpoint) : decodeCheckpoint (encodeCheckpoint c) = .ok c := by
  have all : enough (encodeCheckpoint c) 4 = .ok () := enough_words le_rfl
  have root : bitsAt (encodeCheckpoint c) 1 256 = .ok c.root :=
    bitsAt_words [_] _ c.root (by decide)
  have fromSeq : bitsAt (encodeCheckpoint c) 2 64 = .ok c.fromSeq :=
    bitsAt_words [_, _] _ c.fromSeq (by decide)
  have toSeq : bitsAt (encodeCheckpoint c) 3 64 = .ok c.toSeq :=
    bitsAt_words [_, _, _] _ c.toSeq (by decide)
  rw [decodeCheckpoint, all, encodeCheckpoint_tag, root, fromSeq, toSeq]
  rfl

/-! One type's decoder on another's bytes. -/

theorem bind_ok {α β : Type} (call : Except CodecError α) (next : α → Except CodecError β) (result : β) :
    (call >>= next) = .ok result ↔ ∃ value, call = .ok value ∧ next value = .ok result := by
  cases call <;> simp [bind, Except.bind]

theorem tagged_ok {α : Type} {tag want : Nat} {decoded result : α}
    (done : tagged tag want decoded = .ok result) : tag = want := by
  unfold tagged at done
  split at done
  · assumption
  · cases done

/-- The four payloads under one type. -/
inductive Payload where
  | order (o : Order)
  | result (r : Result)
  | deliver (d : Deliver)
  | checkpoint (c : Checkpoint)

inductive Tag where
  | order | result | deliver | checkpoint
  deriving DecidableEq

def Tag.word : Tag → Nat
  | .order => tOrder
  | .result => tResult
  | .deliver => tDeliver
  | .checkpoint => tCheckpoint

def Payload.tag : Payload → Tag
  | .order _ => .order
  | .result _ => .result
  | .deliver _ => .deliver
  | .checkpoint _ => .checkpoint

/-- `encode`, overloaded in the source. -/
def encode : Payload → Bytes
  | .order o => encodeOrder o
  | .result r => encodeResult r
  | .deliver d => encodeDeliver d
  | .checkpoint c => encodeCheckpoint c

def decode (m : Bytes) : Tag → Except CodecError Payload
  | .order => Payload.order <$> decodeOrder m
  | .result => Payload.result <$> decodeResult m
  | .deliver => Payload.deliver <$> decodeDeliver m
  | .checkpoint => Payload.checkpoint <$> decodeCheckpoint m

theorem map_ok {α : Type} {make : α → Payload} {call : Except CodecError α} {x : Payload}
    (done : make <$> call = .ok x) : ∃ value, call = .ok value ∧ make value = x := by
  cases call with
  | error => cases done
  | ok value => exact ⟨value, rfl, by cases done; rfl⟩

/-- Whatever a decoder accepts carries its type byte. -/
theorem decode_tag {m : Bytes} {t : Tag} {x : Payload} (done : decode m t = .ok x) :
    wordAt m 0 (2 ^ 8) = .ok t.word := by
  cases t with
  | order =>
    obtain ⟨o, done, _⟩ := map_ok done
    simp only [decodeOrder, bind_ok] at done
    obtain ⟨_, _, tag, read, _, _, _, _, _, _, _, _, _, _, done⟩ := done
    rw [read, tagged_ok done]
    rfl
  | result =>
    obtain ⟨r, done, _⟩ := map_ok done
    simp only [decodeResult, bind_ok] at done
    obtain ⟨_, _, tag, read, _, _, _, _, _, _, _, _, _, _, _, _, done⟩ := done
    rw [read, tagged_ok done]
    rfl
  | deliver =>
    obtain ⟨d, done, _⟩ := map_ok done
    simp only [decodeDeliver, bind_ok] at done
    obtain ⟨_, _, tag, read, _, _, _, _, _, _, _, _, _, _, done⟩ := done
    rw [read, tagged_ok done]
    rfl
  | checkpoint =>
    obtain ⟨c, done, _⟩ := map_ok done
    simp only [decodeCheckpoint, bind_ok] at done
    obtain ⟨_, _, tag, read, _, _, _, _, _, _, done⟩ := done
    rw [read, tagged_ok done]
    rfl

theorem encode_tag (x : Payload) : wordAt (encode x) 0 (2 ^ 8) = .ok x.tag.word := by
  cases x with
  | order o => exact encodeOrder_tag o
  | result r => exact encodeResult_tag r
  | deliver d => exact encodeDeliver_tag d
  | checkpoint c => exact encodeCheckpoint_tag c

theorem decode_encode (x : Payload) : decode (encode x) x.tag = .ok x := by
  cases x with
  | order o => exact congrArg (Payload.order <$> ·) (decodeOrder_encode o)
  | result r => exact congrArg (Payload.result <$> ·) (decodeResult_encode r)
  | deliver d => exact congrArg (Payload.deliver <$> ·) (decodeDeliver_encode d)
  | checkpoint c => exact congrArg (Payload.checkpoint <$> ·) (decodeCheckpoint_encode c)

theorem word_injective {t other : Tag} (same : t.word = other.word) : t = other := by
  revert same
  cases t <;> cases other <;> decide

/-- Another type's decoder refuses. -/
theorem decode_other (x y : Payload) (t : Tag) (other : t ≠ x.tag) : decode (encode x) t ≠ .ok y := by
  intro done
  have tag := decode_tag done
  rw [encode_tag x, Except.ok.injEq] at tag
  exact other (word_injective tag.symm)

/-! Migration refs. -/

theorem flag_bit {i : Nat} (within : i < 256) : migrationFlag[i] = decide (i = 255) := by
  unfold migrationFlag
  rw [BitVec.getElem_shiftLeft, BitVec.getElem_one]
  by_cases low : i < 255
  · have other : i ≠ 255 := by omega
    simp [low, other]
  · have last : i = 255 := by omega
    simp [last]

theorem flag_low {i : Nat} (within : i < 256) (low : i < 255) : migrationFlag[i] = false := by
  rw [flag_bit within, decide_eq_false_iff_not]
  omega

theorem migrationUnderlying_ref (underlying : BitVec 160) (nonce : BitVec 64) :
    migrationUnderlying (migrationRef underlying nonce) = underlying := by
  apply BitVec.eq_of_getLsbD_eq
  intro i inner
  have within : 64 + i < 256 := by omega
  have unset := flag_low within (by omega)
  simp [migrationUnderlying, migrationRef, unset, within, inner]

theorem migrationRef_injective {underlying other : BitVec 160} {nonce later : BitVec 64}
    (same : migrationRef underlying nonce = migrationRef other later) : underlying = other ∧ nonce = later := by
  constructor
  · rw [← migrationUnderlying_ref underlying nonce, same, migrationUnderlying_ref]
  · apply BitVec.eq_of_getLsbD_eq
    intro i inner
    have bit := congrArg (fun ref => BitVec.getLsbD ref i) same
    have within : i < 256 := by omega
    have unset := flag_low within (by omega)
    simpa [migrationRef, unset, within, inner] using bit

/-- The flag is the top bit. -/
theorem isMigrationRef_bit (ref : BitVec 256) : isMigrationRef ref = ref.getLsbD 255 := by
  unfold isMigrationRef
  cases bit : ref.getLsbD 255
  · have none : ref &&& migrationFlag = 0#256 := by
      apply BitVec.eq_of_getLsbD_eq
      intro i within
      by_cases last : i = 255
      · subst last
        rw [BitVec.getLsbD_and, bit]
        simp
      · rw [BitVec.getLsbD_and, BitVec.getLsbD_eq_getElem (x := migrationFlag) within,
          flag_low within (by omega)]
        simp
    simp [none]
  · have some : ref &&& migrationFlag ≠ 0#256 := by
      intro none
      have top := congrArg (fun ref => BitVec.getLsbD ref 255) none
      simp only [BitVec.getLsbD_and, bit] at top
      revert top
      decide
    simp [some]

theorem isMigrationRef_ref (underlying : BitVec 160) (nonce : BitVec 64) :
    isMigrationRef (migrationRef underlying nonce) = true := by
  rw [isMigrationRef_bit, migrationRef, BitVec.getLsbD_or]
  have top : migrationFlag.getLsbD 255 = true := by decide
  rw [top, Bool.true_or]

theorem isMigrationRef_order {id : Nat} (small : id < 2 ^ 255) : isMigrationRef (BitVec.ofNat 256 id) = false := by
  have word : id < 2 ^ 256 := by omega
  rw [isMigrationRef_bit, BitVec.getLsbD, BitVec.toNat_ofNat, Nat.mod_eq_of_lt word]
  exact Nat.testBit_lt_two_pow small

/-! The refs the rest of the development keeps decoded. -/

/-- A decoded ref as it travels. -/
def refWord : Messages.Ref → BitVec 256
  | .order id => .ofNat 256 id
  | .migration underlying nonce => migrationRef (.ofNat 160 underlying) (.ofNat 64 nonce)

/-- The refs the contracts make: small order ids, addresses, 64-bit nonces. -/
def RefFits : Messages.Ref → Prop
  | .order id => id < 2 ^ 255
  | .migration underlying nonce => underlying < 2 ^ 160 ∧ nonce < 2 ^ 64

theorem ofNat_injective {width n k : Nat} (first : n < 2 ^ width) (second : k < 2 ^ width)
    (same : BitVec.ofNat width n = BitVec.ofNat width k) : n = k := by
  have numbers := congrArg BitVec.toNat same
  rwa [BitVec.toNat_ofNat, BitVec.toNat_ofNat, Nat.mod_eq_of_lt first, Nat.mod_eq_of_lt second] at numbers

theorem refWord_flag {ref : Messages.Ref} (fits : RefFits ref) :
    isMigrationRef (refWord ref) = Messages.isMigrationRef ref := by
  cases ref with
  | order id => exact isMigrationRef_order fits
  | migration underlying nonce => exact isMigrationRef_ref _ _

/-- A ref is known by its word. -/
theorem refWord_injective {ref other : Messages.Ref} (fits : RefFits ref) (also' : RefFits other)
    (same : refWord ref = refWord other) : ref = other := by
  have flags := refWord_flag fits
  rw [same, refWord_flag also'] at flags
  cases ref with
  | order id =>
    cases other with
    | order later =>
      have first : id < 2 ^ 255 := fits
      have second : later < 2 ^ 255 := also'
      rw [ofNat_injective (by omega) (by omega) same]
    | migration => cases flags
  | migration underlying nonce =>
    cases other with
    | order => cases flags
    | migration other later =>
      obtain ⟨addresses, nonces⟩ := migrationRef_injective same
      rw [ofNat_injective fits.1 also'.1 addresses, ofNat_injective fits.2 also'.2 nonces]

/-- Payloads come back as they were sent and pass for no other type; a migration's ref says its
underlying, differs from any other's and from every order's. -/
theorem codec_faithful :
    (∀ x : Payload, decode (encode x) x.tag = .ok x ∧ ∀ t, t ≠ x.tag → ∀ y, decode (encode x) t ≠ .ok y) ∧
    (∀ (underlying other : BitVec 160) (nonce later : BitVec 64),
      migrationRef underlying nonce = migrationRef other later → underlying = other ∧ nonce = later) ∧
    (∀ (underlying : BitVec 160) (nonce : BitVec 64),
      isMigrationRef (migrationRef underlying nonce) = true ∧
      migrationUnderlying (migrationRef underlying nonce) = underlying ∧
      ∀ id, id < 2 ^ 255 → migrationRef underlying nonce ≠ BitVec.ofNat 256 id) := by
  refine ⟨fun x => ⟨decode_encode x, fun t other y => decode_other x y t other⟩,
    fun _ _ _ _ same => migrationRef_injective same, fun underlying nonce => ?_⟩
  refine ⟨isMigrationRef_ref _ _, migrationUnderlying_ref _ _, fun id small same => ?_⟩
  have flagged := isMigrationRef_ref underlying nonce
  rw [same, isMigrationRef_order small] at flagged
  cases flagged

end Solonpad.MessageCodec
