import Mathlib.Data.Nat.Pairing
import Solonpad.MerkleProofs
import Solonpad.VaultResults

/-!
Checkpoints over the result log. `checkpoint` with its Merkle root and the message it sends, what the
messages of a whole run cover, and what the gate on Arc accepts against them.
-/

namespace Solonpad.Vault

open Checked Chain Messages Transition MerkleTree MerkleProofs

variable {Hash : Type} [LinearOrder Hash] (k : Hashing Hash) (zero : Hash) (c : Config)

/-- `checkpoint`, with the message to the bridger. -/
def sendCheckpoint (s : State) : Tx (State × Checkpoint Hash) := do
  let through := toUint64 s.results.length
  require (through ≠ s.checkpointedThrough) .nothingToCheckpoint
  let size ← sub through s.checkpointedThrough
  let leaves := ((s.results.drop s.checkpointedThrough).take size).map k.leaf
  let root ← merkleRoot k zero leaves
  pure ({ s with checkpointedThrough := through }, ⟨root, s.checkpointedThrough, through - 1⟩)

/-- The vault and the checkpoints it has sent. -/
structure Posted (Hash : Type) where
  vault : State
  sent : List (Checkpoint Hash)

def post (s : Posted Hash) (call : Call) : Tx (Posted Hash) :=
  match call.action with
  | .checkpoint => do
    let (vault, message) ← sendCheckpoint k zero s.vault
    pure ⟨vault, s.sent ++ [message]⟩
  | _ => do
    let vault ← step c s.vault call
    pure { s with vault := vault }

def posts (s : Posted Hash) (call : Call) (after : Posted Hash) : Prop := post k zero c s call = .ok after

/-- The results a checkpoint is over. -/
def covered (results : List Result) (m : Checkpoint Hash) : List Result :=
  (results.drop m.fromSeq).take (m.toSeq + 1 - m.fromSeq)

/-- Checkpoints in order, each from where the one before it ended, with the root of what it covers. -/
inductive Tiles (results : List Result) : Nat → List (Checkpoint Hash) → Prop where
  | start : Tiles results 0 []
  | next {sent : List (Checkpoint Hash)} {m : Checkpoint Hash} (earlier : Tiles results m.fromSeq sent)
      (some : m.fromSeq ≤ m.toSeq) (within : m.toSeq < results.length)
      (root : (merkleRoot k zero ((covered results m).map k.leaf) : Tx Hash) = .ok m.root) :
      Tiles results (m.toSeq + 1) (sent ++ [m])

variable {k zero c} {results : List Result} {through : Nat} {sent arrived : List (Checkpoint Hash)} {s : Posted Hash}
  {m : Checkpoint Hash} {r : Result} {i index : Nat}

/-- The state is the one of `checkpoint`. -/
theorem sendCheckpoint_ok {s after : State} {m : Checkpoint Hash}
    (sent : sendCheckpoint k zero s = .ok (after, m)) : checkpoint s = .ok after ∧
      m.fromSeq = s.checkpointedThrough ∧ m.toSeq + 1 = after.checkpointedThrough ∧ m.fromSeq ≤ m.toSeq ∧
      m.toSeq < s.results.length ∧ after.results = s.results ∧ after.checkpointedThrough ≤ 2 ^ 64 ∧
      (merkleRoot k zero ((covered s.results m).map k.leaf) : Tx Hash) = .ok m.root := by
  simp only [sendCheckpoint, bind_ok, require_ok, sub_ok, pure_ok, Prod.mk.injEq] at sent
  obtain ⟨_, further, _, ⟨later, rfl⟩, root, reduced, rfl, rfl⟩ := sent
  have bound : toUint64 s.results.length ≤ s.results.length := Nat.mod_le _ _
  have small : toUint64 s.results.length ≤ 2 ^ 64 := (Nat.mod_lt _ (by decide)).le
  have same : checkpoint s = .ok { s with checkpointedThrough := toUint64 s.results.length } := by
    simp only [checkpoint, bind_ok, require_ok, sub_ok, pure_ok]
    exact ⟨(), further, _, ⟨later, rfl⟩, trivial⟩
  refine ⟨same, ?_⟩
  generalize toUint64 s.results.length = through at further later bound small reduced ⊢
  have positive : through - 1 + 1 = through := by omega
  refine ⟨rfl, positive, ?_, ?_, rfl, small, ?_⟩
  · exact Nat.le_sub_one_of_lt (Nat.lt_of_le_of_ne later (Ne.symm further))
  · exact Nat.lt_of_lt_of_le (by omega : through - 1 < through) bound
  · rw [covered, positive]
    exact reduced

/-! The log only grows, and only a checkpoint moves its mark. -/

theorem bookMove_results {b after : Book} {action : Action} (move : BookMove b action after) :
    b.results <+: after.results := by
  cases move with
  | quiet | waits => exact List.prefix_rfl
  | answers | closes | delivers | migrates => exact List.prefix_append _ _

theorem push_through (s : State) (token recipient : Address) (amount : Nat) (accepted : Bool) :
    (push c s token recipient amount accepted).checkpointedThrough = s.checkpointedThrough := by
  obtain ⟨_, _, _, pushed, _⟩ := push_spec (c := c) s token recipient amount accepted
  rw [pushed]

theorem pay_through (s : State) (token recipient : Address) (amount : Nat) :
    (s.pay c token recipient amount).checkpointedThrough = s.checkpointedThrough := by
  obtain ⟨_, paid, _⟩ := pay_spec (c := c) s token recipient amount
  rw [paid]

theorem move_through {s after : State} {call : Call} (move : Move c s call after)
    (other : call.action ≠ .checkpoint) : after.checkpointedThrough = s.checkpointedThrough := by
  cases move with
  | answers _ o waiting origin done fee executes => cases executes <;> rfl
  | handsOver _ _ d _ accepted => exact push_through (s.taken d.ref) _ _ _ _
  | closesUnanswered _ _ d _ accepted =>
    exact push_through ((s.closed d.ref d.underlying .failed 0).taken d.ref) _ _ _ _
  | deliversStock _ _ d _ accepted => exact push_through (s.delivering d) _ _ _ _
  | deliversSale _ _ d fill out accepted =>
    exact push_through ((s.delivering d).traded d.underlying c.settlement fill) _ _ _ _
  | claimed sender _ token => exact pay_through (s.unclaimed sender token) _ _ _
  | withdraws | skims => exact pay_through s _ _ _
  | checkpoints => exact absurd rfl other
  | ignored | waits | funded | returned | withdrawsNative | migrates | lists | enables | configured
  | donated | received => rfl

omit [LinearOrder Hash] in
/-- What was covered stays in its place. -/
theorem covered_later {results later : List Result} (grown : results <+: later) {m : Checkpoint Hash}
    (within : m.toSeq < results.length) : covered later m = covered results m := by
  obtain ⟨rest, rfl⟩ := grown
  rw [covered, covered, List.drop_append, List.take_append_of_le_length]
  rw [List.length_drop]
  omega

theorem Tiles.later {later : List Result} (tiles : Tiles k zero results through sent)
    (grown : results <+: later) : Tiles k zero later through sent := by
  induction tiles with
  | start => exact .start
  | next _ some within root ih =>
    refine .next ih some (Nat.lt_of_lt_of_le within grown.length_le) ?_
    rw [covered_later grown within]
    exact root

/-- Side by side the covered results are the log up to the mark. -/
theorem Tiles.whole (tiles : Tiles k zero results through sent) :
    (sent.map (covered results)).flatten = results.take through := by
  induction tiles with
  | start => rfl
  | @next sent m earlier some within root ih =>
    have split : m.toSeq + 1 = m.fromSeq + (m.toSeq + 1 - m.fromSeq) := by omega
    rw [List.map_append, List.flatten_append, ih, split, List.take_add]
    simp [covered]

theorem Tiles.each (tiles : Tiles k zero results through sent) : ∀ m ∈ sent, m.fromSeq ≤ m.toSeq ∧ m.toSeq < through ∧
      m.toSeq < results.length ∧ (merkleRoot k zero ((covered results m).map k.leaf) : Tx Hash) = .ok m.root := by
  induction tiles with
  | start => nofun
  | @next sent m earlier some within root ih =>
    intro other member
    rcases List.mem_append.mp member with old | new
    · obtain ⟨ordered, below, inside, rooted⟩ := ih other old
      exact ⟨ordered, by omega, inside, rooted⟩
    · rw [List.mem_singleton.mp new]
      exact ⟨some, Nat.lt_succ_self _, within, root⟩

/-! Runs. -/

theorem post_ok {s after : Posted Hash} {call : Call} (done : post k zero c s call = .ok after) :
    step c s.vault call = .ok after.vault ∧ (call.action ≠ .checkpoint ∧ after.sent = s.sent ∨
      ∃ m, sendCheckpoint k zero s.vault = .ok (after.vault, m) ∧ after.sent = s.sent ++ [m]) := by
  obtain ⟨sender, now, action⟩ := call
  cases action with
  | checkpoint =>
    simp only [post, bind_ok, pure_ok, Prod.exists] at done
    obtain ⟨vault, m, sent, rfl⟩ := done
    exact ⟨(sendCheckpoint_ok sent).1, .inr ⟨m, sent, rfl⟩⟩
  | _ =>
    simp only [post, bind_ok, pure_ok] at done
    obtain ⟨vault, stepped, rfl⟩ := done
    exact ⟨stepped, .inl ⟨nofun, rfl⟩⟩

structure Checkpointed (k : Hashing Hash) (zero : Hash) (s : Posted Hash) : Prop where
  orderly : s.vault.book.Orderly
  tiles : Tiles k zero s.vault.results s.vault.checkpointedThrough s.sent
  mark : s.vault.checkpointedThrough ≤ 2 ^ 64

theorem post_checkpointed {s after : Posted Hash} {call : Call} (done : post k zero c s call = .ok after)
    (sound : Checkpointed k zero s) : Checkpointed k zero after := by
  obtain ⟨stepped, told⟩ := post_ok done
  have move := step_move c _ _ _ stepped
  have orderly := bookMove_orderly sound.orderly (move_book move)
  rcases told with ⟨other, same⟩ | ⟨m, sent, more⟩
  · have still := move_through move other
    refine ⟨orderly, ?_, still ▸ sound.mark⟩
    rw [still, same]
    exact sound.tiles.later (bookMove_results (move_book move))
  · obtain ⟨_, first, last, some, within, kept, bound, root⟩ := sendCheckpoint_ok sent
    refine ⟨orderly, ?_, bound⟩
    rw [more, ← last, kept]
    exact .next (first ▸ sound.tiles) some within root

theorem run_checkpointed {owner bridger : Address} {s : Posted Hash}
    (reached : Reachable (posts k zero c) ⟨deployed owner bridger, []⟩ s) : Checkpointed k zero s :=
  reached.invariant ⟨deployed_orderly owner bridger, .start, Nat.zero_le _⟩
    (fun _ _ _ sound done => post_checkpointed done sound)

omit [LinearOrder Hash] in
theorem covered_entry {results : List Result} {m : Checkpoint Hash} {i : Nat} {r : Result}
    (found : (covered results m)[i]? = some r) : m.fromSeq + i ≤ m.toSeq ∧ results[m.fromSeq + i]? = some r := by
  rw [covered, List.getElem?_take] at found
  split at found
  · rw [List.getElem?_drop] at found
    exact ⟨by omega, found⟩
  · cases found

/-- A covered result carries a sequence number inside its checkpoint. -/
theorem Checkpointed.seq (sound : Checkpointed k zero s) (member : m ∈ s.sent)
    (found : (covered s.vault.results m)[i]? = some r) : m.fromSeq ≤ r.seq ∧ r.seq ≤ m.toSeq := by
  obtain ⟨_, below, _⟩ := sound.tiles.each m member
  obtain ⟨inside, entry⟩ := covered_entry found
  have mark := sound.mark
  have own : r.seq = m.fromSeq + i := by
    rw [sound.orderly.seqs _ r entry, toUint64, Nat.mod_eq_of_lt (by omega)]
  omega

theorem gateVerify_ok (arrived : List (Checkpoint Hash)) (r : Result) (index : Nat) (proof : List Hash) :
    gateVerify k arrived r index proof = .ok () ↔ ∃ m, arrived[index]? = some m ∧
      (m.fromSeq ≤ r.seq ∧ r.seq ≤ m.toSeq) ∧ verify k proof m.root (k.leaf r) := by
  unfold gateVerify
  split
  · next none => simp [none]
  · next m found => simp [found, bind_ok, require_ok, not_or]

/-- The gate takes a covered result with the keeper's proof. -/
theorem Checkpointed.gate (sound : Checkpointed k zero s) (genuine : ∀ m ∈ arrived, m ∈ s.sent)
    (there : arrived[index]? = some m) (found : (covered s.vault.results m)[i]? = some r) (small : i < 2 ^ 31) :
    ∃ path, proofFor k ((covered s.vault.results m).map k.leaf) i = path.map some ∧
      gateVerify k arrived r index path = .ok () := by
  have member := genuine m (List.mem_of_getElem? there)
  have leaf : ((covered s.vault.results m).map k.leaf)[i]? = some (k.leaf r) := by
    rw [List.getElem?_map, found]
    rfl
  obtain ⟨root, path, same, _, built, verified⟩ := proofFor_verifies (k := k) (ε := StockError) leaf small zero
  obtain ⟨_, _, _, rooted⟩ := sound.tiles.each m member
  obtain rfl : root = m.root := by
    rw [rooted] at same
    exact (Except.ok.inj same).symm
  exact ⟨path, built, (gateVerify_ok arrived r index path).mpr ⟨m, there, sound.seq member found, verified⟩⟩

/-- And nothing else, whatever the proof. -/
theorem Checkpointed.gate_only (sound : Checkpointed k zero s) (ideal : k.Ideal) (genuine : ∀ m ∈ arrived, m ∈ s.sent)
    {proof : List Hash} (taken : gateVerify k arrived r index proof = .ok ()) :
    ∃ m, arrived[index]? = some m ∧ r ∈ covered s.vault.results m := by
  obtain ⟨m, there, _, verified⟩ := (gateVerify_ok arrived r index proof).mp taken
  obtain ⟨ordered, _, inside, rooted⟩ := sound.tiles.each m (genuine m (List.mem_of_getElem? there))
  have some_ : covered s.vault.results m ≠ [] := by
    intro none
    have size := congrArg List.length none
    rw [covered, List.length_take, List.length_drop, List.length_nil] at size
    omega
  exact ⟨m, there, verified_result ideal some_ rooted verified⟩

/-- Any list of leaves is proved by the keeper at every index below 2 ^ 31, checkpoints tile the log up to the
mark, and under an ideal hash no proof shows a result that is not in the list. -/
theorem checkpoints_prove_results {owner bridger : Address} {s : Posted Hash}
    (reached : Reachable (posts k zero c) ⟨deployed owner bridger, []⟩ s) :
    (∀ leaves i leaf, leaves[i]? = some leaf → i < 2 ^ 31 → ∃ root path,
      (merkleRoot k zero leaves : Tx Hash) = .ok root ∧ rootOf k leaves = some root ∧
      proofFor k leaves i = path.map some ∧ verify k path root leaf) ∧
    Tiles k zero s.vault.results s.vault.checkpointedThrough s.sent ∧
    (s.sent.map (covered s.vault.results)).flatten = s.vault.results.take s.vault.checkpointedThrough ∧
    (∀ arrived : List (Checkpoint Hash), (∀ m ∈ arrived, m ∈ s.sent) → ∀ index m i r,
      arrived[index]? = some m → (covered s.vault.results m)[i]? = some r → i < 2 ^ 31 →
        ∃ path, proofFor k ((covered s.vault.results m).map k.leaf) i = path.map some ∧
          gateVerify k arrived r index path = .ok ()) ∧
    (k.Ideal → ∀ results root proof r, results ≠ [] →
      (merkleRoot k zero (results.map k.leaf) : Tx Hash) = .ok root → verify k proof root (k.leaf r) →
        r ∈ results) ∧
    (k.Ideal → ∀ arrived : List (Checkpoint Hash), (∀ m ∈ arrived, m ∈ s.sent) → ∀ index r proof,
      gateVerify k arrived r index proof = .ok () →
        ∃ m, arrived[index]? = some m ∧ r ∈ covered s.vault.results m) := by
  have sound := run_checkpointed reached
  refine ⟨fun _ _ _ found small => proofFor_verifies found small zero, sound.tiles, sound.tiles.whole, ?_, ?_, ?_⟩
  · intro arrived genuine index m i r there found small
    exact sound.gate genuine there found small
  · intro ideal results root proof r some same verified
    exact verified_result ideal some same verified
  · intro ideal arrived genuine index r proof taken
    exact sound.gate_only ideal genuine taken

/-- With results pending a checkpoint succeeds. -/
theorem sendCheckpoint_succeeds {s : State} (pending : s.checkpointedThrough < toUint64 s.results.length) :
    ∃ after m, sendCheckpoint k zero s = .ok (after, m) := by
  have bound : toUint64 s.results.length ≤ s.results.length := Nat.mod_le _ _
  have some : ((s.results.drop s.checkpointedThrough).take
      (toUint64 s.results.length - s.checkpointedThrough)).map k.leaf ≠ [] := by
    intro none
    have size := congrArg List.length none
    rw [List.length_map, List.length_take, List.length_drop, List.length_nil] at size
    omega
  obtain ⟨root, _, same⟩ := merkleRoot_exists (k := k) (ε := StockError) some zero
  simp only [sendCheckpoint, bind_ok, require_ok, sub_ok, pure_ok, Prod.mk.injEq]
  exact ⟨_, _, (), pending.ne', _, ⟨pending.le, rfl⟩, root, same, rfl, rfl⟩

/-! A hash of numbers that tells what it was taken of. -/

def codeRef : Ref → Nat
  | .order id => 2 * id
  | .migration underlying nonce => 2 * Nat.pair underlying nonce + 1

def codeOutcome : Outcome → Nat
  | .bought => 0
  | .sold => 1
  | .failed => 2

def codeResult (r : Result) : Nat :=
  Nat.pair (codeRef r.ref) (Nat.pair r.underlying (Nat.pair (codeOutcome r.outcome)
    (Nat.pair r.amountIn (Nat.pair r.amountOut r.seq))))

def sampleHashing : Hashing Nat where
  keccak left right := 2 * Nat.pair left right + 1
  leaf r := 2 * codeResult r

theorem codeRef_injective : Function.Injective codeRef := by
  intro first second same
  cases first <;> cases second <;> simp only [codeRef] at same
  · congr 1
    omega
  · omega
  · omega
  · have pairs := Nat.eq_of_mul_eq_mul_left Nat.two_pos (Nat.succ.inj same)
    obtain ⟨rfl, rfl⟩ := Nat.pair_eq_pair.mp pairs
    rfl

theorem codeOutcome_injective : Function.Injective codeOutcome := by
  intro first second same
  cases first <;> cases second <;> first | rfl | cases same

theorem sampleHashing_ideal : sampleHashing.Ideal where
  nodes := by
    intro left right other last same
    exact Nat.pair_eq_pair.mp (Nat.eq_of_mul_eq_mul_left Nat.two_pos (Nat.succ.inj same))
  leaves := by
    intro first second same
    have code := Nat.eq_of_mul_eq_mul_left Nat.two_pos same
    simp only [codeResult, Nat.pair_eq_pair] at code
    obtain ⟨ref, underlying, outcome, amountIn, amountOut, seq⟩ := code
    cases first
    cases second
    simp_all [codeRef_injective.eq_iff, codeOutcome_injective.eq_iff]
  apart := by
    intro r left right same
    simp only [sampleHashing] at same
    omega

/-- One purchase, then a checkpoint over its result. -/
theorem checkpoints_prove_results_once : ∃ s : Posted Nat, s.sent ≠ [] ∧
    Tiles sampleHashing 0 s.vault.results s.vault.checkpointedThrough s.sent ∧ sampleHashing.Ideal := by
  obtain ⟨before, reached, pending⟩ := run_passes (post sampleHashing 0 sample) (fun _ _ => True) boughtOnce
    ⟨deployed 1 2, []⟩ (fun s => decide (s.vault.checkpointedThrough < toUint64 s.vault.results.length))
    (by decide)
  obtain ⟨after, m, sent⟩ := (sendCheckpoint_succeeds (of_decide_eq_true pending) :
    ∃ after m, sendCheckpoint sampleHashing 0 before.vault = .ok (after, m))
  have posted : posts sampleHashing 0 sample before ⟨9, 1, .checkpoint⟩ ⟨after, before.sent ++ [m]⟩ := by
    simp only [posts, post, sent, bind_ok, pure_ok]
    exact ⟨_, rfl, rfl⟩
  exact ⟨_, List.append_ne_nil_of_right_ne_nil _ (List.cons_ne_nil _ _),
    (checkpoints_prove_results (.next reached.unrestricted posted)).2.1, sampleHashing_ideal⟩

/-- Of 2 ^ 31 + 1 leaves the last one has no proof: its first sibling is undefined. -/
theorem last_leaf_unproved : ∃ (leaves : List Nat) (i leaf : Nat), leaves = List.replicate (2 ^ 31 + 1) 0 ∧
    leaves[i]? = some leaf ∧ ¬ ∃ path : List Nat, proofFor sampleHashing leaves i = path.map some := by
  refine ⟨_, 2 ^ 31, 0, rfl, ?_, ?_⟩
  · rw [List.getElem?_replicate_of_lt (by omega)]
  · rintro ⟨path, built⟩
    have inside : 2 ^ 31 < (List.replicate (2 ^ 31 + 1) 0 : List Nat).length := by
      rw [List.length_replicate]
      omega
    have undefined := proofFor_undefined (k := sampleHashing) (Nat.le_refl _) (by omega : 2 ^ 31 < 2 ^ 32) inside
    rw [built] at undefined
    obtain ⟨_, _, entry⟩ := List.mem_map.mp undefined
    cases entry

end Solonpad.Vault
