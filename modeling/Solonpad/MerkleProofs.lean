import Solonpad.MerkleTree
import Solonpad.Messages
import Mathlib.Algebra.Group.Nat.Even
import Mathlib.Data.Nat.Bitwise
import Mathlib.Order.Defs.LinearOrder

/-!
Merkle roots of results and their proofs: `merkleRoot` of `ReserveVault.sol`, which reduces its array in
place; `rootOf` and `proofFor` of `merkle.mjs`, which build each level anew; and `MerkleProof.verify`, which
folds a proof over a leaf. Hashes are an ordered type; what is assumed of them is named where it is used.
-/

namespace Solonpad.MerkleProofs

open Checked MerkleTree Messages

/-- `keccak` of two hashes beside each other, and `Messages.leaf`. -/
structure Hashing (Hash : Type) where
  keccak : Hash → Hash → Hash
  leaf : Result → Hash

variable {Hash : Type}

/-- A hash that tells what it was taken of, and never takes a leaf for a node. -/
structure Hashing.Ideal (k : Hashing Hash) : Prop where
  nodes : ∀ left right other last, k.keccak left right = k.keccak other last → left = other ∧ right = last
  leaves : Function.Injective k.leaf
  apart : ∀ r left right, k.leaf r ≠ k.keccak left right

inductive MerkleError where
  | badCheckpoint | badProof
  deriving DecidableEq, Repr

variable [LinearOrder Hash] (k : Hashing Hash) {ε : Type}

/-! On chain. -/

/-- `_hashPair`, and `commutativeKeccak256`. -/
def hashPair (a b : Hash) : Hash := if a < b then k.keccak a b else k.keccak b a

def entry (leaves : List Hash) (i : Nat) : Tx ε Hash :=
  match leaves[i]? with
  | some leaf => .ok leaf
  | none => .error .bounds

def place (leaves : List Hash) (i : Nat) (node : Hash) : Tx ε (List Hash) :=
  if i < leaves.length then .ok (leaves.set i node) else .error .bounds

/-- The body of the inner loop: the node at `i` of the next level over the first `n` of this one. -/
def combine (n : Nat) (leaves : List Hash) (i : Nat) : Tx ε (List Hash) := do
  let a := 2 * i
  let b := a + 1
  if b < n then do
    let left ← entry leaves a
    let right ← entry leaves b
    place leaves i (hashPair k left right)
  else do
    let last ← entry leaves a
    place leaves i last

/-- `while (n > 1)`, each level written over the one below. -/
def reduce (n : Nat) (leaves : List Hash) : Tx ε (List Hash) :=
  if 1 < n then do
    let leaves ← (List.range ((n + 1) / 2)).foldlM (combine k n) leaves
    reduce ((n + 1) / 2) leaves
  else pure leaves
  termination_by n
  decreasing_by omega

def merkleRoot (zero : Hash) (leaves : List Hash) : Tx ε Hash :=
  if leaves.length = 0 then pure zero
  else do
    let leaves ← reduce k leaves.length leaves
    entry leaves 0

/-- `MerkleProof.verify`. -/
def verify (proof : List Hash) (root leaf : Hash) : Prop := proof.foldl (hashPair k) leaf = root

instance (proof : List Hash) (root leaf : Hash) : Decidable (verify k proof root leaf) :=
  inferInstanceAs (Decidable (_ = _))

/-- `CanonicalGate.verify`. -/
def gateVerify (checkpoints : List (Checkpoint Hash)) (r : Result) (index : Nat) (proof : List Hash) :
    Tx MerkleError Unit :=
  match checkpoints[index]? with
  | none => .error .bounds
  | some c => do
    require (¬ (r.seq < c.fromSeq ∨ c.toSeq < r.seq)) .badCheckpoint
    require (verify k proof c.root (k.leaf r)) .badProof

/-! In the keeper. -/

def pair (a b : Hash) : Hash := if a < b then k.keccak a b else k.keccak b a

/-- Empty without leaves, where `lv[0]` is undefined. -/
def rootOf (lv : List Hash) : Option Hash :=
  if 1 < lv.length then rootOf (levelUp (pair k) lv) else lv[0]?
  termination_by lv.length
  decreasing_by
    rename_i more
    exact levelUp_shorter more

/-- `i ^ 1` of JavaScript: on the last 32 bits, read as a signed integer. -/
def xorOne (i : Nat) : Int := (BitVec.ofNat 32 i ^^^ 1#32).toInt

/-- `lv[sib]`, undefined at a negative index. -/
def at_ (lv : List Hash) (sib : Int) : Option Hash := if 0 ≤ sib then lv[sib.toNat]? else none

def proofLoop (proof : List (Option Hash)) (lv : List Hash) (i : Nat) : List (Option Hash) :=
  if 1 < lv.length then
    let sib := xorOne i
    let proof := if sib < lv.length then proof ++ [at_ lv sib] else proof
    proofLoop proof (levelUp (pair k) lv) (i / 2)
  else proof
  termination_by lv.length
  decreasing_by
    rename_i more
    exact levelUp_shorter more

def proofFor (leaves : List Hash) (index : Nat) : List (Option Hash) := proofLoop k [] leaves index

/-! Both reductions follow the tree. -/

variable {k} {i : Nat} {root leaf : Hash} {leaves : List Hash}

theorem hashPair_comm (a b : Hash) : hashPair k a b = hashPair k b a := by
  rcases lt_trichotomy a b with less | same | more
  · simp [hashPair, less, less.asymm]
  · rw [same]
  · simp [hashPair, more, more.asymm]

theorem hashPair_told (ideal : k.Ideal) (left right other last : Hash)
    (same : hashPair k left right = hashPair k other last) : left = other ∨ left = last := by
  simp only [hashPair] at same
  split at same <;> split at same
  · exact .inl (ideal.nodes _ _ _ _ same).1
  · exact .inr (ideal.nodes _ _ _ _ same).1
  · exact .inr (ideal.nodes _ _ _ _ same).2
  · exact .inl (ideal.nodes _ _ _ _ same).2

omit [LinearOrder Hash] in
theorem entry_ok (leaves : List Hash) (i : Nat) (leaf : Hash) :
    (entry leaves i : Tx ε Hash) = .ok leaf ↔ leaves[i]? = some leaf := by
  unfold entry
  split <;> simp_all

/-- The node at `i` of the next level, read from what is not overwritten yet and written at `i`. -/
theorem combine_ok (leaves : List Hash) {n : Nat} (bound : i < (n + 1) / 2) {done : List Hash}
    (size : done.length = i) (within : n ≤ leaves.length) :
    ∃ node, (levelUp (hashPair k) (leaves.take n))[i]? = some node ∧
      (combine k n (done ++ leaves.drop i) i : Tx ε (List Hash)) = .ok ((done ++ [node]) ++ leaves.drop (i + 1)) := by
  have read : ∀ j, i ≤ j → (done ++ leaves.drop i)[j]? = leaves[j]? := by
    intro j later
    rw [List.getElem?_append_right (by omega), List.getElem?_drop, size]
    congr 1
    omega
  have written : ∀ node, (place (done ++ leaves.drop i) i node : Tx ε (List Hash)) =
      .ok ((done ++ [node]) ++ leaves.drop (i + 1)) := by
    intro node
    have inside : i < (done ++ leaves.drop i).length := by
      rw [List.length_append, List.length_drop]
      omega
    rw [place, if_pos inside, List.set_append_right _ _ (by omega), size, Nat.sub_self,
      List.drop_eq_getElem_cons (by omega : i < leaves.length), List.set_cons_zero, List.append_assoc]
    rfl
  have first : 2 * i < leaves.length := by omega
  have kept : (leaves.take n)[2 * i]? = some leaves[2 * i] := by
    rw [List.getElem?_take_of_lt (by omega), List.getElem?_eq_getElem first]
  have left : (entry (done ++ leaves.drop i) (2 * i) : Tx ε Hash) = .ok leaves[2 * i] := by
    rw [entry_ok, read _ (by omega), List.getElem?_eq_getElem first]
  by_cases paired : 2 * i + 1 < n
  · have second : 2 * i + 1 < leaves.length := by omega
    have right : (entry (done ++ leaves.drop i) (2 * i + 1) : Tx ε Hash) = .ok leaves[2 * i + 1] := by
      rw [entry_ok, read _ (by omega), List.getElem?_eq_getElem second]
    refine ⟨hashPair k leaves[2 * i] leaves[2 * i + 1], levelUp_paired kept ?_, ?_⟩
    · rw [List.getElem?_take_of_lt (by omega), List.getElem?_eq_getElem second]
    · simp only [combine, if_pos paired, left, right, written]
      rfl
  · refine ⟨_, levelUp_carried kept ?_, ?_⟩
    · rw [List.length_take]
      omega
    · simp only [combine, if_neg paired, left, written]
      rfl

/-- After `i` steps the first `i` nodes are those of the next level, and the rest is as it was. -/
theorem combine_range (leaves : List Hash) {n : Nat} (within : n ≤ leaves.length) (i : Nat)
    (bound : i ≤ (n + 1) / 2) : ((List.range i).foldlM (combine k n) leaves : Tx ε (List Hash)) =
      .ok ((levelUp (hashPair k) (leaves.take n)).take i ++ leaves.drop i) := by
  induction i with
  | zero => rfl
  | succ i ih =>
    have size : ((levelUp (hashPair k) (leaves.take n)).take i).length = i := by
      rw [List.length_take, levelUp_length, List.length_take]
      omega
    obtain ⟨node, found, combined⟩ := combine_ok (k := k) leaves (by omega : i < (n + 1) / 2) size within
    rw [List.range_succ, List.foldlM_append, ih (by omega)]
    simp only [List.take_add_one, found]
    exact (List.foldlM_cons ..).trans ((congrArg (· >>= _) combined).trans rfl)

theorem reduce_root {level : List Hash} (reached : Root (hashPair k) level root) (rest : List Hash) :
    ∃ left, (reduce k level.length (level ++ rest) : Tx ε (List Hash)) = .ok (root :: left) := by
  induction reached generalizing rest with
  | lone root =>
    refine ⟨rest, ?_⟩
    unfold reduce
    simp [pure, Except.pure]
  | @up level root more above ih =>
    have whole := combine_range (k := k) (ε := ε) (level ++ rest) (by simp : level.length ≤ (level ++ rest).length)
      ((level.length + 1) / 2) (Nat.le_refl _)
    rw [List.take_left, List.take_of_length_le (by rw [levelUp_length]), List.drop_append] at whole
    obtain ⟨left, reduced⟩ := ih (level.drop ((level.length + 1) / 2) ++
      rest.drop ((level.length + 1) / 2 - level.length))
    rw [levelUp_length] at reduced
    refine ⟨left, ?_⟩
    unfold reduce
    rw [if_pos more, whole]
    exact reduced

theorem merkleRoot_root (reached : Root (hashPair k) leaves root) (zero : Hash) :
    (merkleRoot k zero leaves : Tx ε Hash) = .ok root := by
  obtain ⟨rest, reduced⟩ := reduce_root (ε := ε) reached []
  have some : leaves.length ≠ 0 := by
    cases reached with
    | lone => simp
    | up more => omega
  rw [List.append_nil] at reduced
  simp only [merkleRoot, if_neg some, reduced]
  rfl

theorem rootOf_root (reached : Root (hashPair k) leaves root) : rootOf k leaves = .some root := by
  induction reached with
  | lone root =>
    unfold rootOf
    rfl
  | up more above ih =>
    unfold rootOf
    rw [if_pos more]
    exact ih

/-! The siblings of a proof climb to the root. -/

theorem xorOne_bits (within : i < 2 ^ 32) :
    (BitVec.ofNat 32 i ^^^ 1#32).toNat = if i % 2 = 0 then i + 1 else i - 1 := by
  rw [BitVec.toNat_xor, BitVec.toNat_ofNat, Nat.mod_eq_of_lt within]
  split
  · next even => exact Nat.xor_one_of_even (Nat.even_iff.mpr even)
  · next odd => exact Nat.xor_one_of_odd (Nat.odd_iff.mpr (by omega))

theorem xorOne_small (small : i < 2 ^ 31) : xorOne i = if i % 2 = 0 then (i : Int) + 1 else (i : Int) - 1 := by
  have value := xorOne_bits (by omega : i < 2 ^ 32)
  have low : 2 * (BitVec.ofNat 32 i ^^^ 1#32).toNat < 2 ^ 32 := by
    rw [value]
    split <;> omega
  rw [xorOne, BitVec.toInt_eq_toNat_of_lt low, value]
  split <;> omega

/-- From 2 ^ 31 on it is negative. -/
theorem xorOne_negative (beyond : 2 ^ 31 ≤ i) (within : i < 2 ^ 32) : xorOne i < 0 := by
  have value := xorOne_bits within
  have high : 2 ^ 31 ≤ (BitVec.ofNat 32 i ^^^ 1#32).toNat := by
    rw [value]
    split <;> omega
  rw [xorOne, BitVec.toInt_eq_toNat_cond]
  split <;> omega

/-- One level of a proof: the sibling that is pushed takes a node to the one above it. -/
theorem climb_level {lv : List Hash} (found : lv[i]? = some leaf) (small : i < 2 ^ 31) :
    ∃ pushed above, (if xorOne i < lv.length then [at_ lv (xorOne i)] else []) = pushed.map some ∧
      (levelUp (hashPair k) lv)[i / 2]? = some above ∧ climb (hashPair k) leaf pushed = above := by
  have inside : i < lv.length := (List.getElem?_eq_some_iff.mp found).1
  rw [xorOne_small small]
  by_cases even : i % 2 = 0
  · have doubled : 2 * (i / 2) = i := by omega
    rw [if_pos even]
    by_cases paired : i + 1 < lv.length
    · have right : lv[2 * (i / 2) + 1]? = some lv[i + 1] := by
        rw [doubled, List.getElem?_eq_getElem paired]
      refine ⟨[lv[i + 1]], _, ?_, levelUp_paired (doubled.symm ▸ found) right, rfl⟩
      rw [if_pos (by omega), at_, if_pos (by omega)]
      simp [List.getElem?_eq_getElem paired]
    · refine ⟨[], _, ?_, levelUp_carried (doubled.symm ▸ found) (by omega), rfl⟩
      rw [if_neg (by omega)]
      rfl
  · have doubled : 2 * (i / 2) + 1 = i := by omega
    have first : 2 * (i / 2) < lv.length := by omega
    rw [if_neg even]
    have left : lv[2 * (i / 2)]? = some lv[2 * (i / 2)] := List.getElem?_eq_getElem first
    have index : ((i : Int) - 1).toNat = 2 * (i / 2) := by omega
    refine ⟨[lv[2 * (i / 2)]], _, ?_, levelUp_paired left (doubled.symm ▸ found), hashPair_comm _ _⟩
    rw [if_pos (by omega), at_, if_pos (by omega), index, left]
    rfl

theorem proofLoop_climbs {lv : List Hash} (reached : Root (hashPair k) lv root) (found : lv[i]? = some leaf)
    (small : i < 2 ^ 31) (proof : List (Option Hash)) :
    ∃ path, proofLoop k proof lv i = proof ++ path.map some ∧ climb (hashPair k) leaf path = root := by
  induction reached generalizing i leaf proof with
  | lone root =>
    have first : i = 0 := by
      have inside := (List.getElem?_eq_some_iff.mp found).1
      simpa using inside
    subst first
    refine ⟨[], ?_, ?_⟩
    · unfold proofLoop
      simp
    · simpa [climb] using found.symm
  | @up lv root more above ih =>
    obtain ⟨pushed, parent, level, higher, climbed⟩ := climb_level (k := k) found small
    obtain ⟨path, rest, whole⟩ := ih higher (by omega) (proof ++ pushed.map some)
    refine ⟨pushed ++ path, ?_, ?_⟩
    · unfold proofLoop
      have same : (if xorOne i < lv.length then proof ++ [at_ lv (xorOne i)] else proof) =
          proof ++ pushed.map some := by
        rw [← level]
        split <;> simp
      simp only [if_pos more, same]
      rw [List.map_append, ← List.append_assoc]
      exact rest
    · rw [climb, List.foldl_append]
      exact (congrArg (fun node => climb (hashPair k) node path) climbed).trans whole

/-- What is pushed stays. -/
theorem proofLoop_keeps (proof : List (Option Hash)) (lv : List Hash) (i : Nat) : proof <+: proofLoop k proof lv i := by
  induction proof, lv, i using proofLoop.induct k with
  | case1 proof lv i more sib next ih =>
    unfold proofLoop
    rw [if_pos more]
    refine List.IsPrefix.trans ?_ ih
    simp only [next]
    split
    · exact List.prefix_append _ _
    · exact List.prefix_rfl
  | case2 proof lv i few =>
    unfold proofLoop
    rw [if_neg few]

theorem merkleRoot_exists (some_ : leaves ≠ []) (zero : Hash) :
    ∃ root, Root (hashPair k) leaves root ∧ (merkleRoot k zero leaves : Tx ε Hash) = .ok root := by
  obtain ⟨root, reached⟩ := root_exists leaves some_
  exact ⟨root, reached, merkleRoot_root reached zero⟩

/-- The keeper's proof of a leaf is one for the root on chain, which is the keeper's own. -/
theorem proofFor_verifies (found : leaves[i]? = some leaf) (small : i < 2 ^ 31) (zero : Hash) :
    ∃ root path, (merkleRoot k zero leaves : Tx ε Hash) = .ok root ∧
      rootOf k leaves = some root ∧ proofFor k leaves i = path.map some ∧ verify k path root leaf := by
  have some_ : leaves ≠ [] := by
    rintro rfl
    cases found
  obtain ⟨root, reached, same⟩ := merkleRoot_exists (k := k) (ε := ε) some_ zero
  obtain ⟨path, built, climbed⟩ := proofLoop_climbs reached found small []
  exact ⟨root, path, same, rootOf_root reached, built, climbed⟩

theorem verified_result (ideal : k.Ideal) {results : List Result} (some_ : results ≠ []) {zero : Hash}
    (same : (merkleRoot k zero (results.map k.leaf) : Tx ε Hash) = .ok root) {proof : List Hash} {r : Result}
    (verified : verify k proof root (k.leaf r)) : r ∈ results := by
  obtain ⟨other, reached, other_same⟩ := merkleRoot_exists (k := k) (ε := ε)
    (fun none => some_ (List.map_eq_nil_iff.mp none) : results.map k.leaf ≠ []) zero
  obtain rfl : other = root := by
    rw [same] at other_same
    exact (Except.ok.inj other_same).symm
  have grown : Grown (hashPair k) (results.map k.leaf) (climb (hashPair k) (k.leaf r) proof) := by
    rw [show climb (hashPair k) (k.leaf r) proof = other from verified]
    exact reached.grown fun _ member => .leaf member
  have apart : ∀ node ∈ k.leaf r :: results.map k.leaf, ∀ left right, node ≠ hashPair k left right := by
    intro node member left right
    have leaf : ∃ own, k.leaf own = node := by
      rcases List.mem_cons.mp member with rfl | below
      · exact ⟨r, rfl⟩
      · exact (List.mem_map.mp below).imp fun _ found => found.2
    obtain ⟨own, rfl⟩ := leaf
    simp only [hashPair]
    split
    · exact ideal.apart own _ _
    · exact ideal.apart own _ _
  obtain ⟨own, member, equal⟩ := List.mem_map.mp (climbed_leaf (hashPair_told ideal) apart grown)
  exact ideal.leaves equal ▸ member

/-- From 2 ^ 31 on the first sibling's index is negative, and what is pushed for it is undefined. -/
theorem proofFor_undefined (beyond : 2 ^ 31 ≤ i) (within : i < 2 ^ 32) (inside : i < leaves.length) :
    none ∈ proofFor k leaves i := by
  have negative := xorOne_negative beyond within
  have first : proofFor k leaves i = proofLoop k [none] (levelUp (pair k) leaves) (i / 2) := by
    rw [proofFor, proofLoop, if_pos (by omega)]
    simp only [if_pos (by omega : xorOne i < leaves.length), at_, if_neg (Int.not_le.mpr negative), List.nil_append]
  rw [first]
  exact (proofLoop_keeps [none] _ _).subset (List.mem_singleton.mpr rfl)

end Solonpad.MerkleProofs
