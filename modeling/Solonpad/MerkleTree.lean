import Mathlib.Data.List.Induction
import Mathlib.Tactic.Common

/-!
Binary hash trees over a list of any length. A level pairs its neighbours and carries an odd last node up;
the root is what is left when one node is. Where a pair does not depend on its order, a climb from a leaf
needs the siblings only, not their sides.
-/

namespace Solonpad.MerkleTree

variable {α : Type} (pair : α → α → α)

def levelUp : List α → List α
  | left :: right :: rest => pair left right :: levelUp rest
  | [last] => [last]
  | [] => []

/-- The levels of a list end in this node. -/
inductive Root : List α → α → Prop where
  | lone (root : α) : Root [root] root
  | up {level : List α} {root : α} (more : 1 < level.length) (above : Root (levelUp pair level) root) :
      Root level root

def climb (leaf : α) (siblings : List α) : α := siblings.foldl pair leaf

/-- Leaves and everything paired from them. -/
inductive Grown (leaves : List α) : α → Prop where
  | leaf {node : α} (member : node ∈ leaves) : Grown leaves node
  | pair {left right : α} (first : Grown leaves left) (second : Grown leaves right) :
      Grown leaves (pair left right)

variable {pair}

theorem levelUp_length (level : List α) : (levelUp pair level).length = (level.length + 1) / 2 := by
  induction level using levelUp.induct with
  | case1 left right rest ih =>
    simp only [levelUp, List.length_cons, ih]
    omega
  | case2 last => simp [levelUp]
  | case3 => simp [levelUp]

/-- A pair stands above its two nodes. -/
theorem levelUp_paired {level : List α} {index : Nat} {left right : α} (first : level[2 * index]? = some left)
    (second : level[2 * index + 1]? = some right) : (levelUp pair level)[index]? = some (pair left right) := by
  induction level using levelUp.induct generalizing index with
  | case1 head next rest ih =>
    cases index with
    | zero =>
      cases first
      cases second
      rfl
    | succ index => exact ih first second
  | case2 last => cases second
  | case3 => cases first

theorem levelUp_carried {level : List α} {index : Nat} {last : α} (found : level[2 * index]? = some last)
    (odd : level.length = 2 * index + 1) : (levelUp pair level)[index]? = some last := by
  induction level using levelUp.induct generalizing index with
  | case1 head next rest ih =>
    cases index with
    | zero => cases odd
    | succ index =>
      simp only [List.length_cons] at odd
      exact ih found (by omega)
  | case2 only =>
    cases index with
    | zero => exact found
    | succ index => cases found
  | case3 => cases found

theorem levelUp_shorter {level : List α} (more : 1 < level.length) : (levelUp pair level).length < level.length := by
  rw [levelUp_length]
  omega

theorem root_exists (level : List α) (some_ : level ≠ []) : ∃ root, Root pair level root := by
  induction size : level.length using Nat.strongRecOn generalizing level with
  | ind size ih =>
    by_cases more : 1 < level.length
    · have shorter : (levelUp pair level).length < level.length := levelUp_shorter more
      have above : levelUp pair level ≠ [] := by
        intro none
        have bound : (levelUp pair level).length = (level.length + 1) / 2 := levelUp_length level
        rw [none, List.length_nil] at bound
        omega
      obtain ⟨root, reached⟩ := ih _ (size ▸ shorter) _ above rfl
      exact ⟨root, .up more reached⟩
    · match level with
      | [] => exact absurd rfl some_
      | [root] => exact ⟨root, .lone root⟩
      | _ :: _ :: _ => exact absurd (by simp) more

/-! Only what the tree was built from climbs to its root. -/

theorem Grown.level {leaves level : List α} (grown : ∀ node ∈ level, Grown pair leaves node) :
    ∀ node ∈ levelUp pair level, Grown pair leaves node := by
  induction level using levelUp.induct with
  | case1 left right rest ih =>
    have below := ih fun node member => grown node (List.mem_cons_of_mem _ (List.mem_cons_of_mem _ member))
    intro node member
    rcases List.mem_cons.mp member with rfl | later
    · exact .pair (grown left (by simp)) (grown right (by simp))
    · exact below node later
  | case2 last => exact grown
  | case3 => exact grown

theorem Root.grown {leaves level : List α} {root : α} (reached : Root pair level root)
    (grown : ∀ node ∈ level, Grown pair leaves node) : Grown pair leaves root := by
  induction reached with
  | lone root => exact grown root (by simp)
  | up _ _ ih => exact ih (Grown.level grown)

theorem climb_snoc (leaf last : α) (siblings : List α) :
    climb pair leaf (siblings ++ [last]) = pair (climb pair leaf siblings) last := by
  simp [climb]

/-- What climbs to a grown node is a leaf, where a pair tells its two nodes and no leaf is a pair. -/
theorem climbed_leaf {leaves siblings : List α} {leaf : α}
    (told : ∀ left right other last, pair left right = pair other last → left = other ∨ left = last)
    (apart : ∀ node ∈ leaf :: leaves, ∀ left right, node ≠ pair left right)
    (grown : Grown pair leaves (climb pair leaf siblings)) : leaf ∈ leaves := by
  induction siblings using List.reverseRecOn with
  | nil =>
    have own := apart leaf List.mem_cons_self
    cases grown with
    | leaf member => exact member
    | pair first second => exact absurd rfl (own _ _)
  | append_singleton siblings last ih =>
    rw [climb_snoc] at grown
    generalize same : pair (climb pair leaf siblings) last = node at grown
    cases grown with
    | leaf member => exact absurd same.symm (apart node (List.mem_cons_of_mem _ member) _ _)
    | @pair left right first second =>
      rcases told _ _ _ _ same with under | under
      · exact ih (under ▸ first)
      · exact ih (under ▸ second)

end Solonpad.MerkleTree
