import Solonpad.DyadicTree
import Solonpad.Transition

/-!
`ExpirySumTree.sol` over histories of entries. The tree of height 32 with sums of 256 bits: an addition that leaves the
width reverts, in an update and in a query. Its subtraction is the one of `DyadicTree`.
-/

namespace Solonpad.DyadicTree

open Checked

/-- A subtraction that every node over the value covers goes through. -/
theorem subFrom_succeeds {ε : Type} (height : Nat) {value amount : Nat} (small : value < 2 ^ height) (left : Nat)
    (bound : left ≤ height) (tree : Tree)
    (covered : ∀ depth, height - left < depth → depth ≤ height →
      amount ≤ tree (2 ^ depth + value / 2 ^ (height - depth))) :
    ∃ after, (subFrom height value amount left tree : Tx ε Tree) = .ok after := by
  induction left generalizing tree with
  | zero => exact ⟨tree, rfl⟩
  | succ left ih =>
    have key := nodeKey_eq height small (Nat.sub_le height left)
    have here := covered (height - left) (by omega) (Nat.sub_le height left)
    have below : ∀ depth, height - left < depth → depth ≤ height → amount ≤ Function.update tree
        (nodeKey height value (height - left)) (tree (nodeKey height value (height - left)) - amount)
          (2 ^ depth + value / 2 ^ (height - depth)) := by
      intro depth deeper low
      rw [update_node height small left bound _ _ (quotient_lt height small low), if_neg (by omega)]
      exact covered depth (by omega) low
    obtain ⟨after, done⟩ := ih (Nat.le_of_succ_le bound) _ below
    refine ⟨after, ?_⟩
    simp only [subFrom, bind_ok, sub_ok]
    exact ⟨_, ⟨key ▸ here, rfl⟩, done⟩

theorem suffixFrom_le (tree : Tree) (time left key sum : Nat) : sum ≤ suffixFrom tree time left key sum := by
  induction left generalizing key sum with
  | zero => exact Nat.le_refl sum
  | succ left ih =>
    simp only [suffixFrom]
    split
    · exact (Nat.le_add_right ..).trans (ih _ _)
    · exact ih _ _

end Solonpad.DyadicTree

namespace Solonpad.ExpirySumTree

open Checked Transition
open DyadicTree (Tree nodeKey)

/-- Nothing here reverts with an error of its own. -/
abbrev Tx (α : Type) := Checked.Tx Empty α

/-- The depths from the shallowest of the last `left` ones down. -/
def addFrom (expiry amount : Nat) : Nat → Tree → Tx Tree
  | 0, tree => pure tree
  | left + 1, tree => do
    let key := nodeKey 32 expiry (32 - left)
    let sum ← Checked.add 256 (tree key) amount
    addFrom expiry amount left (Function.update tree key sum)

def add (tree : Tree) (expiry amount : Nat) : Tx Tree := addFrom expiry amount 32 tree

def sub (tree : Tree) (expiry amount : Nat) : Tx Tree := DyadicTree.sub 32 tree expiry amount

def suffixFrom (tree : Tree) (time : Nat) : Nat → Nat → Nat → Tx Nat
  | 0, _, sum => pure sum
  | left + 1, key, sum => do
    let key := key <<< 1
    if time &&& (1 <<< left) = 0 then do
      let sum ← Checked.add 256 sum (tree (key ||| 1))
      suffixFrom tree time left key sum
    else suffixFrom tree time left (key ||| 1) sum

def suffixSum (tree : Tree) (time : Nat) : Tx Nat :=
  if 2 ^ 32 - 1 ≤ time then pure 0 else suffixFrom tree time 32 1 0

/-! Histories. -/

structure Entry where
  expiry : Nat
  amount : Nat
  deriving DecidableEq

/-- The tree, with the entries added and not removed. -/
structure History where
  tree : Tree
  live : List Entry

def empty : History := ⟨fun _ => 0, []⟩

inductive Action where
  | add (entry : Entry)
  | remove (entry : Entry)

def step (h : History) : Action → Tx History
  | .add entry => do
    let tree ← add h.tree entry.expiry entry.amount
    pure ⟨tree, entry :: h.live⟩
  | .remove entry => do
    let tree ← sub h.tree entry.expiry entry.amount
    pure ⟨tree, h.live.erase entry⟩

/-- The arguments are of their types, and an entry is removed after it was added. -/
def Proper (h : History) : Action → Prop
  | .add entry => entry.expiry < 2 ^ 32 ∧ entry.amount < 2 ^ 256
  | .remove entry => entry ∈ h.live

instance (h : History) : (action : Action) → Decidable (Proper h action)
  | .add _ => inferInstanceAs (Decidable (_ ∧ _))
  | .remove _ => inferInstanceAs (Decidable (_ ∈ _))

def runs : History → Action → History → Prop :=
  restrict (fun before action after => step before action = .ok after) Proper

/-- The amounts of the entries whose expiry is in a range. -/
def part (range : Nat → Bool) (live : List Entry) : Nat :=
  ((live.filter fun entry => range entry.expiry).map Entry.amount).sum

def later (time : Nat) (live : List Entry) : Nat := part (fun expiry => decide (time < expiry)) live

variable {tree after : Tree} {h : History} {entry : Entry}

theorem part_cons (range : Nat → Bool) (entry : Entry) (live : List Entry) :
    part range (entry :: live) = part range live + if range entry.expiry = true then entry.amount else 0 := by
  unfold part
  by_cases inside : range entry.expiry = true
  · simp [inside, Nat.add_comm]
  · simp [inside]

theorem part_erase (range : Nat → Bool) {live : List Entry} (member : entry ∈ live) :
    part range live = part range (live.erase entry) + if range entry.expiry = true then entry.amount else 0 := by
  rw [← part_cons]
  exact (((List.perm_cons_erase member).filter _).map _).sum_nat

theorem le_part {range : Nat → Bool} {live : List Entry} (member : entry ∈ live)
    (inside : range entry.expiry = true) : entry.amount ≤ part range live := by
  rw [part_erase range member, if_pos inside]
  exact Nat.le_add_left ..

/-! The operations. -/

theorem addFrom_ok {expiry amount : Nat} (left : Nat) (done : addFrom expiry amount left tree = .ok after) :
    after = DyadicTree.addFrom 32 expiry amount left tree := by
  induction left generalizing tree with
  | zero =>
    cases done
    rfl
  | succ left ih =>
    simp only [addFrom, bind_ok, add_ok] at done
    obtain ⟨_, ⟨_, rfl⟩, done⟩ := done
    exact ih done

/-- The query returns exactly when its sum fits. -/
theorem suffixFrom_eq (tree : Tree) (time left key : Nat) {sum : Nat} (fits : sum < 2 ^ 256) :
    suffixFrom tree time left key sum =
      if DyadicTree.suffixFrom tree time left key sum < 2 ^ 256
        then .ok (DyadicTree.suffixFrom tree time left key sum) else .error .overflow := by
  induction left generalizing key sum with
  | zero => exact (if_pos fits).symm
  | succ left ih =>
    simp only [suffixFrom, DyadicTree.suffixFrom]
    split
    · unfold Checked.add
      split
      · next further => exact ih _ further
      · next above =>
        -- The sums of the levels below only add to what is too much already.
        have most := DyadicTree.suffixFrom_le tree time left (key <<< 1) (sum + tree (key <<< 1 ||| 1))
        rw [if_neg (by omega)]
        rfl
    · exact ih _ fits

theorem suffixSum_eq (tree : Tree) (time : Nat) : suffixSum tree time =
    if DyadicTree.suffixSum 32 tree time < 2 ^ 256 then .ok (DyadicTree.suffixSum 32 tree time)
      else .error .overflow := by
  unfold suffixSum DyadicTree.suffixSum
  split
  · rfl
  · exact suffixFrom_eq tree time 32 1 (by decide)

/-- Each node holds the amounts of the entries under it, and each suffix those beyond its time. -/
structure Sums (h : History) : Prop where
  expiries : ∀ entry ∈ h.live, entry.expiry < 2 ^ 32
  nodes : ∀ depth, 0 < depth → depth ≤ 32 → ∀ m, m < 2 ^ depth →
    h.tree (2 ^ depth + m) = part (fun expiry => decide (expiry / 2 ^ (32 - depth) = m)) h.live
  suffixes : ∀ time, DyadicTree.suffixSum 32 h.tree time = later time h.live

theorem empty_sums : Sums empty where
  expiries := nofun
  nodes := fun _ _ _ _ _ => rfl
  suffixes := DyadicTree.suffixSum_empty

theorem add_sums (sums : Sums h) (small : entry.expiry < 2 ^ 32)
    (done : add h.tree entry.expiry entry.amount = .ok tree) : Sums ⟨tree, entry :: h.live⟩ := by
  have gains := DyadicTree.add_gains 32 small h.tree entry.amount
  cases addFrom_ok 32 done
  refine ⟨List.forall_mem_cons.mpr ⟨small, sums.expiries⟩, ?_, ?_⟩
  · intro depth positive low m below
    rw [part_cons, ← sums.nodes depth positive low m below]
    simp only [decide_eq_true_eq]
    exact gains depth positive low m below
  · intro time
    rw [later, part_cons, ← later, ← sums.suffixes]
    simp only [decide_eq_true_eq]
    exact DyadicTree.suffixSum_gains gains small time

theorem remove_sums (sums : Sums h) (member : entry ∈ h.live)
    (done : sub h.tree entry.expiry entry.amount = .ok tree) : Sums ⟨tree, h.live.erase entry⟩ := by
  have small := sums.expiries entry member
  have gains := DyadicTree.sub_gains 32 small done
  refine ⟨fun other inside => sums.expiries other (List.mem_of_mem_erase inside), ?_, ?_⟩
  · intro depth positive low m below
    have before := sums.nodes depth positive low m below
    have moved := gains depth positive low m below
    rw [part_erase _ member] at before
    simp only [decide_eq_true_eq] at before
    exact Nat.add_right_cancel (moved.symm.trans before)
  · intro time
    have before := sums.suffixes time
    have moved := DyadicTree.suffixSum_gains gains small time
    rw [later, part_erase _ member, ← later] at before
    simp only [decide_eq_true_eq] at before
    exact Nat.add_right_cancel (moved.symm.trans before)

theorem step_sums {before after : History} {action : Action} (sums : Sums before) (proper : Proper before action)
    (done : step before action = .ok after) : Sums after := by
  cases action with
  | add entry =>
    simp only [step, bind_ok, pure_ok] at done
    obtain ⟨tree, added, rfl⟩ := done
    exact add_sums sums proper.1 added
  | remove entry =>
    simp only [step, bind_ok, pure_ok] at done
    obtain ⟨tree, removed, rfl⟩ := done
    exact remove_sums sums proper removed

theorem run_sums (reached : Reachable runs empty h) : Sums h :=
  reached.invariant empty_sums fun _ _ _ sums taken => step_sums sums taken.1 taken.2

theorem Sums.removes (sums : Sums h) (member : entry ∈ h.live) :
    ∃ after, sub h.tree entry.expiry entry.amount = .ok after := by
  have small := sums.expiries entry member
  apply DyadicTree.subFrom_succeeds 32 small 32 (Nat.le_refl 32)
  intro depth deep low
  rw [sums.nodes depth (by omega) low _ (DyadicTree.quotient_lt 32 small low)]
  exact le_part member (decide_eq_true rfl)

/-- A suffix sum is the amounts beyond its time, unless they are too much for a word; and no removal underflows. -/
theorem suffix_sums (h : History) (reached : Reachable runs empty h) :
    (∀ time, suffixSum h.tree time =
      if later time h.live < 2 ^ 256 then .ok (later time h.live) else .error .overflow) ∧
    ∀ entry ∈ h.live, ∃ after, sub h.tree entry.expiry entry.amount = .ok after := by
  have sums := run_sums reached
  refine ⟨fun time => ?_, fun entry member => sums.removes member⟩
  rw [suffixSum_eq, sums.suffixes]

/-! Two entries in different halves, and one of them gone again. -/

theorem suffix_sums_three : ∃ h : History, (suffixSum h.tree 5 = .ok 7 ∧ suffixSum h.tree 4 = .ok 12) ∧
    ∀ entry ∈ h.live, ∃ after, sub h.tree entry.expiry entry.amount = .ok after := by
  obtain ⟨h, reached, passed⟩ := run_passes step Proper
    [.add ⟨5, 5⟩, .add ⟨2 ^ 32 - 1, 7⟩, .add ⟨9, 3⟩, .remove ⟨9, 3⟩] empty
    (fun h => decide (later 5 h.live = 7 ∧ later 4 h.live = 12)) (by decide)
  have sums := suffix_sums h reached
  obtain ⟨beyond, all⟩ := of_decide_eq_true passed
  refine ⟨h, ⟨?_, ?_⟩, sums.2⟩
  · rw [sums.1, beyond]
    rfl
  · rw [sums.1, all]
    rfl

/-- Two halves that fit a word each, and not together. -/
theorem suffix_overflows :
    ¬ ∀ h, Reachable runs empty h → ∀ time, suffixSum h.tree time = .ok (later time h.live) := by
  intro claim
  obtain ⟨h, reached, passed⟩ := run_passes step Proper [.add ⟨1, 2 ^ 255⟩, .add ⟨2 ^ 31, 2 ^ 255⟩] empty
    (fun h => decide (later 0 h.live = 2 ^ 256)) (by decide)
  have sum := (run_sums reached).suffixes 0
  have fault := suffixSum_eq h.tree 0
  rw [sum, of_decide_eq_true passed, if_neg (Nat.lt_irrefl _), claim h reached 0] at fault
  cases fault

end Solonpad.ExpirySumTree
