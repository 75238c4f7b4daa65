import Solonpad.Checked
import Mathlib.Logic.Function.Basic
import Mathlib.Data.Nat.Bitwise

/-!
Sparse binary trees of sums over the values below `2 ^ height`. The node of depth `d` over a value
has the key `2 ^ d + value / 2 ^ (height - d)`; an update visits the nodes over one value, and a
query visits the siblings along one path. `Gains` says what an update does to every node, and from
it a suffix or a prefix sum moves by the amount exactly when the value lies in its range. That rule
is all a user needs: the nodes themselves need no description.
-/

namespace Solonpad.DyadicTree

open Checked

abbrev Tree := Nat → Nat

variable (height : Nat) {m value depth amount time v q limit : Nat} {tree after : Tree}

def nodeKey (value depth : Nat) : Nat := (1 <<< depth) ||| (value >>> (height - depth))

/-- The nodes over a value, from the shallowest of the last `left` ones down. -/
def addFrom (value amount : Nat) : Nat → Tree → Tree
  | 0, tree => tree
  | left + 1, tree =>
    let key := nodeKey height value (height - left)
    addFrom value amount left (Function.update tree key (tree key + amount))

def add (tree : Tree) (value amount : Nat) : Tree := addFrom height value amount height tree

def subFrom {ε : Type} (value amount : Nat) : Nat → Tree → Tx ε Tree
  | 0, tree => pure tree
  | left + 1, tree => do
    let key := nodeKey height value (height - left)
    let rest ← Checked.sub (tree key) amount
    subFrom value amount left (Function.update tree key rest)

def sub {ε : Type} (tree : Tree) (value amount : Nat) : Tx ε Tree :=
  subFrom height value amount height tree

def suffixFrom (tree : Tree) (time : Nat) : Nat → Nat → Nat → Nat
  | 0, _, sum => sum
  | left + 1, key, sum =>
    let key := key <<< 1
    if time &&& (1 <<< left) = 0 then suffixFrom tree time left key (sum + tree (key ||| 1))
    else suffixFrom tree time left (key ||| 1) sum

/-- The sum over the values beyond `time`. -/
def suffixSum (tree : Tree) (time : Nat) : Nat :=
  if 2 ^ height - 1 ≤ time then 0 else suffixFrom tree time height 1 0

def prefixFrom (tree : Tree) (value : Nat) : Nat → Nat → Nat → Nat
  | 0, key, sum => sum + tree key
  | left + 1, key, sum =>
    let key := key <<< 1
    if value &&& (1 <<< left) ≠ 0 then prefixFrom tree value left (key ||| 1) (sum + tree key)
    else prefixFrom tree value left key sum

/-- The sum over the values up to `value`. -/
def prefixSum (tree : Tree) (value : Nat) : Nat := prefixFrom tree value height 1 0

/-! Keys. -/

theorem node_unique {d e n : Nat} (first : m < 2 ^ d) (second : n < 2 ^ e) (same : 2 ^ d + m = 2 ^ e + n) :
    d = e ∧ m = n := by
  have apart : ∀ {d e m n : Nat}, m < 2 ^ d → d < e → 2 ^ d + m ≠ 2 ^ e + n := by
    intro d e m n below less same
    have double : 2 ^ (d + 1) ≤ 2 ^ e := Nat.pow_le_pow_right (by decide) less
    rw [Nat.pow_succ] at double
    omega
  rcases Nat.lt_trichotomy d e with less | rfl | greater
  · exact absurd same (apart first less)
  · exact ⟨rfl, by omega⟩
  · exact absurd same.symm (apart second greater)

theorem quotient_lt (small : value < 2 ^ height) (bound : depth ≤ height) :
    value / 2 ^ (height - depth) < 2 ^ depth := by
  apply Nat.div_lt_of_lt_mul
  rw [← Nat.pow_add, Nat.sub_add_cancel bound]
  exact small

theorem nodeKey_eq (small : value < 2 ^ height) (bound : depth ≤ height) :
    nodeKey height value depth = 2 ^ depth + value / 2 ^ (height - depth) := by
  have below := quotient_lt height small bound
  rw [nodeKey, Nat.one_shiftLeft, Nat.shiftRight_eq_div_pow,
    ← Nat.mul_one (2 ^ depth), Nat.two_pow_add_eq_or_of_lt (by omega) 1]

theorem child_odd (key : Nat) : (key <<< 1) ||| 1 = 2 * key + 1 := by
  rw [Nat.shiftLeft_eq, Nat.pow_one, Nat.mul_comm]
  have split := Nat.two_pow_add_eq_or_of_lt (show 1 < 2 ^ 1 by decide) key
  simpa using split.symm

theorem child_even (key : Nat) : key <<< 1 = 2 * key := by
  rw [Nat.shiftLeft_eq, Nat.pow_one, Nat.mul_comm]

theorem bit_clear (value left : Nat) : value &&& (1 <<< left) = 0 ↔ value / 2 ^ left % 2 = 0 := by
  rw [Nat.one_shiftLeft, Nat.and_two_pow, Nat.testBit_eq_decide_div_mod_eq]
  have parity := Nat.mod_two_eq_zero_or_one (value / 2 ^ left)
  have positive : 0 < 2 ^ left := Nat.two_pow_pos left
  rcases parity with even | odd
  · simp [even]
  · simp [odd]

theorem quotient_succ (value left : Nat) : value / 2 ^ (left + 1) = value / 2 ^ left / 2 := by
  rw [Nat.pow_succ, Nat.div_div_eq_div_mul]

/-! Updates. -/

/-- Every node over the value is up by the amount, and no other node moved. -/
def Gains (tree after : Tree) (value amount : Nat) : Prop :=
  ∀ depth, 0 < depth → depth ≤ height → ∀ m, m < 2 ^ depth →
    after (2 ^ depth + m) = tree (2 ^ depth + m) +
      if value / 2 ^ (height - depth) = m then amount else 0

theorem update_node (small : value < 2 ^ height) (left : Nat) (inside : left < height) (tree : Tree)
    (entry : Nat) (below : m < 2 ^ depth) :
    Function.update tree (nodeKey height value (height - left)) entry (2 ^ depth + m) =
      if depth = height - left ∧ value / 2 ^ left = m then entry else tree (2 ^ depth + m) := by
  have key := nodeKey_eq height small (Nat.sub_le height left)
  have bound := quotient_lt height small (Nat.sub_le height left)
  rw [Nat.sub_sub_self (Nat.le_of_lt inside)] at key bound
  by_cases same : depth = height - left ∧ value / 2 ^ left = m
  · rw [if_pos same, key, same.1, same.2, Function.update_self]
  · rw [if_neg same, Function.update_of_ne]
    intro eq
    rw [key] at eq
    obtain ⟨rfl, rfl⟩ := node_unique below bound eq
    exact same ⟨rfl, rfl⟩

theorem addFrom_apply (small : value < 2 ^ height) (left : Nat) (bound : left ≤ height) (tree : Tree)
    (low : depth ≤ height) (below : m < 2 ^ depth) : addFrom height value amount left tree (2 ^ depth + m) =
      tree (2 ^ depth + m) +
        if height - left < depth ∧ value / 2 ^ (height - depth) = m then amount else 0 := by
  induction left generalizing tree with
  | zero =>
    rw [addFrom, if_neg (by omega), Nat.add_zero]
  | succ left ih =>
    simp only [addFrom]
    rw [ih (Nat.le_of_succ_le bound), update_node height small left bound _ _ below]
    by_cases here : depth = height - left
    · have same : height - depth = left := by omega
      rw [same]
      have key := nodeKey_eq height small (Nat.sub_le height left)
      rw [Nat.sub_sub_self (Nat.le_of_succ_le bound)] at key
      by_cases above : value / 2 ^ left = m
      · rw [if_pos ⟨here, above⟩, if_neg (by omega), if_pos ⟨by omega, above⟩, key, above, here]
        omega
      · rw [if_neg (fun both => above both.2), if_neg (fun both => above both.2),
          if_neg (fun both => above both.2)]
    · rw [if_neg (fun both => here both.1)]
      congr 1
      have shifted : height - left < depth ↔ height - (left + 1) < depth := by omega
      simp only [shifted]

theorem add_gains (small : value < 2 ^ height) (tree : Tree) (amount : Nat) :
    Gains height tree (add height tree value amount) value amount := by
  intro depth positive low m below
  rw [add, addFrom_apply height small height le_rfl tree low below, Nat.sub_self]
  simp only [positive, true_and]

theorem subFrom_apply {ε : Type} (small : value < 2 ^ height) (left : Nat) (bound : left ≤ height)
    (done : (subFrom height value amount left tree : Tx ε Tree) = .ok after) (low : depth ≤ height)
    (below : m < 2 ^ depth) : tree (2 ^ depth + m) = after (2 ^ depth + m) +
      if height - left < depth ∧ value / 2 ^ (height - depth) = m then amount else 0 := by
  induction left generalizing tree with
  | zero =>
    cases done
    rw [if_neg (by omega), Nat.add_zero]
  | succ left ih =>
    simp only [subFrom, bind_ok, sub_ok] at done
    obtain ⟨_, ⟨covered, rfl⟩, done⟩ := done
    have later := ih (Nat.le_of_succ_le bound) done
    rw [update_node height small left bound _ _ below] at later
    have key := nodeKey_eq height small (Nat.sub_le height left)
    rw [Nat.sub_sub_self (Nat.le_of_succ_le bound)] at key
    by_cases here : depth = height - left
    · have same : height - depth = left := by omega
      rw [same] at later ⊢
      by_cases above : value / 2 ^ left = m
      · rw [if_pos ⟨here, above⟩, if_neg (by omega), key, above, ← here] at later
        rw [key, above, ← here] at covered
        rw [if_pos ⟨by omega, above⟩]
        omega
      · rw [if_neg (fun both => above both.2), if_neg (fun both => above both.2)] at later
        rw [if_neg (fun both => above both.2)]
        exact later
    · rw [if_neg (fun both => here both.1)] at later
      rw [later]
      congr 1
      have shifted : height - left < depth ↔ height - (left + 1) < depth := by omega
      simp only [shifted]

theorem sub_gains {ε : Type} (small : value < 2 ^ height)
    (done : (sub height tree value amount : Tx ε Tree) = .ok after) : Gains height after tree value amount := by
  intro depth positive low m below
  have moved := subFrom_apply height small height le_rfl done low below
  rw [Nat.sub_self] at moved
  simpa only [positive, true_and] using moved

/-! Queries. -/

variable {height}

theorem Gains.at (gains : Gains height tree after value amount) {left : Nat} (inside : left < height)
    (below : m < 2 ^ (height - left)) :
    after (2 ^ (height - left) + m) = tree (2 ^ (height - left) + m) +
      if value / 2 ^ left = m then amount else 0 := by
  have moved := gains (height - left) (by omega) (Nat.sub_le _ _) m below
  rwa [Nat.sub_sub_self (Nat.le_of_lt inside)] at moved

/-- Where a path stands with `left` levels below it. -/
def stand (height time left : Nat) : Nat := 2 ^ (height - left) + time / 2 ^ left

theorem stand_down {left : Nat} (inside : left < height) :
    2 * stand height time (left + 1) + time / 2 ^ left % 2 = stand height time left := by
  have powers : 2 ^ (height - left) = 2 * 2 ^ (height - (left + 1)) := by
    rw [← Nat.pow_succ']
    congr 1
    omega
  rw [stand, stand, quotient_succ, powers]
  omega

/-- Below an even stand the sibling holds the later half. -/
theorem later_half (amount : Nat) (even : q % 2 = 0) (order : q < v → time < value) :
    ((if v = q + 1 then amount else 0) + if v = q ∧ time < value then amount else 0) =
      if v / 2 = q / 2 ∧ time < value then amount else 0 := by
  by_cases next : v = q + 1
  · have beyond := order (by omega)
    rw [if_pos next, if_neg (by omega), if_pos ⟨by omega, beyond⟩, Nat.add_zero]
  · have same : (v = q ∧ time < value) ↔ (v / 2 = q / 2 ∧ time < value) := by omega
    rw [if_neg next, Nat.zero_add]
    simp only [same]

/-- Below an odd stand only the later half is left. -/
theorem no_later (amount : Nat) (odd : ¬ q % 2 = 0) (order : time < value → q ≤ v) :
    (if v = q ∧ time < value then amount else 0) =
      if v / 2 = q / 2 ∧ time < value then amount else 0 := by
  have same : (v = q ∧ time < value) ↔ (v / 2 = q / 2 ∧ time < value) := by
    constructor
    · rintro ⟨rfl, less⟩
      exact ⟨rfl, less⟩
    · rintro ⟨eq, less⟩
      have := order less
      exact ⟨by omega, less⟩
  simp only [same]

theorem suffixFrom_gains (gains : Gains height tree after value amount) (small : time < 2 ^ height)
    (left : Nat) (bound : left ≤ height) (sum extra : Nat) :
    suffixFrom after time left (stand height time left) (sum + extra) =
      suffixFrom tree time left (stand height time left) sum +
        (extra + if value / 2 ^ left = time / 2 ^ left ∧ time < value then amount else 0) := by
  induction left generalizing sum extra with
  | zero =>
    rw [suffixFrom, suffixFrom, if_neg (by simp only [Nat.pow_zero, Nat.div_one]; omega)]
    omega
  | succ left ih =>
    have down : 2 * stand height time (left + 1) + time / 2 ^ left % 2 = stand height time left :=
      stand_down bound
    have values := quotient_succ value left
    have times := quotient_succ time left
    simp only [suffixFrom, child_odd]
    rw [child_even]
    by_cases clear : time &&& (1 <<< left) = 0
    · rw [if_pos clear, if_pos clear]
      rw [bit_clear] at clear
      have here : 2 * stand height time (left + 1) = stand height time left := by omega
      have room : time / 2 ^ left + 1 < 2 ^ (height - left) := by
        have limit := quotient_lt height small (Nat.sub_le height left)
        rw [Nat.sub_sub_self (Nat.le_of_succ_le bound)] at limit
        have even : 2 ^ (height - left) % 2 = 0 := by
          rw [← Nat.sub_add_cancel (show 1 ≤ height - left by omega), Nat.pow_succ]
          omega
        omega
      have sibling : after (stand height time left + 1) = tree (stand height time left + 1) +
          if value / 2 ^ left = time / 2 ^ left + 1 then amount else 0 := by
        have moved := gains.at bound room
        rwa [← Nat.add_assoc] at moved
      have half := later_half amount clear
        (fun less => Nat.lt_of_div_lt_div (c := 2 ^ left) (a := time) (b := value) less)
      rw [here, sibling, ← Nat.add_assoc, Nat.add_right_comm sum extra, Nat.add_assoc (sum + _) extra,
        ih (Nat.le_of_succ_le bound), values, times, ← half, Nat.add_assoc extra]
    · rw [if_neg clear, if_neg clear]
      rw [bit_clear] at clear
      have here : 2 * stand height time (left + 1) + 1 = stand height time left := by omega
      have rest := no_later amount clear
        (fun less => Nat.div_le_div_right (c := 2 ^ left) (Nat.le_of_lt (show time < value from less)))
      rw [here, ih (Nat.le_of_succ_le bound), values, times, ← rest]

/-- A suffix sum moves by the amount exactly when the value lies beyond its time. -/
theorem suffixSum_gains (gains : Gains height tree after value amount) (small : value < 2 ^ height) (time : Nat) :
    suffixSum height after time = suffixSum height tree time + if time < value then amount else 0 := by
  unfold suffixSum
  by_cases late : 2 ^ height - 1 ≤ time
  · rw [if_pos late, if_pos late, if_neg (by omega)]
  · have inside : time < 2 ^ height := by omega
    have moved := suffixFrom_gains gains inside height le_rfl 0 0
    have root : stand height time height = 1 := by
      rw [stand, Nat.sub_self, Nat.div_eq_of_lt inside, Nat.pow_zero]
    rw [if_neg late, if_neg late]
    rw [root, Nat.zero_add, Nat.zero_add, Nat.div_eq_of_lt inside, Nat.div_eq_of_lt small] at moved
    simpa only [true_and] using moved

theorem suffixSum_empty (time : Nat) : suffixSum height (fun _ => 0) time = 0 := by
  have nothing : ∀ left key, suffixFrom (fun _ => 0) time left key 0 = 0 := by
    intro left
    induction left with
    | zero => intro key; rfl
    | succ left ih =>
      intro key
      simp only [suffixFrom, Nat.add_zero, ih, ite_self]
  rw [suffixSum, nothing, ite_self]

/-- Below an odd stand the sibling holds the earlier half. -/
theorem earlier_half (amount : Nat) (odd : ¬ q % 2 = 0) (order : v < q → value < limit) :
    ((if v = q - 1 then amount else 0) + if v = q ∧ value ≤ limit then amount else 0) =
      if v / 2 = q / 2 ∧ value ≤ limit then amount else 0 := by
  by_cases before : v = q - 1
  · have inside := order (by omega)
    rw [if_pos before, if_neg (by omega), if_pos ⟨by omega, Nat.le_of_lt inside⟩, Nat.add_zero]
  · have same : (v = q ∧ value ≤ limit) ↔ (v / 2 = q / 2 ∧ value ≤ limit) := by omega
    rw [if_neg before, Nat.zero_add]
    simp only [same]

/-- Below an even stand only the earlier half is left. -/
theorem no_earlier (amount : Nat) (even : q % 2 = 0) (order : value ≤ limit → v ≤ q) :
    (if v = q ∧ value ≤ limit then amount else 0) =
      if v / 2 = q / 2 ∧ value ≤ limit then amount else 0 := by
  have same : (v = q ∧ value ≤ limit) ↔ (v / 2 = q / 2 ∧ value ≤ limit) := by
    constructor
    · rintro ⟨rfl, less⟩
      exact ⟨rfl, less⟩
    · rintro ⟨eq, less⟩
      have := order less
      exact ⟨by omega, less⟩
  simp only [same]

theorem prefixFrom_gains (gains : Gains height tree after value amount) (tall : 0 < height)
    (small : limit < 2 ^ height) (left : Nat) (bound : left ≤ height) (sum extra : Nat) :
    prefixFrom after limit left (stand height limit left) (sum + extra) =
      prefixFrom tree limit left (stand height limit left) sum +
        (extra + if value / 2 ^ left = limit / 2 ^ left ∧ value ≤ limit then amount else 0) := by
  induction left generalizing sum extra with
  | zero =>
    have leaf := gains.at tall (show limit < 2 ^ (height - 0) by simpa using small)
    simp only [Nat.pow_zero, Nat.div_one, Nat.sub_zero] at leaf
    have same : (value = limit ∧ value ≤ limit) ↔ value = limit := by omega
    simp only [prefixFrom, stand, Nat.pow_zero, Nat.div_one, Nat.sub_zero, leaf, same]
    omega
  | succ left ih =>
    have down : 2 * stand height limit (left + 1) + limit / 2 ^ left % 2 =
        stand height limit left := stand_down bound
    have values := quotient_succ value left
    have limits := quotient_succ limit left
    simp only [prefixFrom, child_odd]
    rw [child_even]
    by_cases clear : limit &&& (1 <<< left) = 0
    · rw [if_neg (not_not_intro clear), if_neg (not_not_intro clear)]
      rw [bit_clear] at clear
      have here : 2 * stand height limit (left + 1) = stand height limit left := by omega
      have rest := no_earlier amount clear
        (fun less => Nat.div_le_div_right (c := 2 ^ left) (show value ≤ limit from less))
      rw [here, ih (Nat.le_of_succ_le bound), values, limits, ← rest]
    · rw [if_pos clear, if_pos clear]
      rw [bit_clear] at clear
      have here : 2 * stand height limit (left + 1) + 1 = stand height limit left := by omega
      have node : 2 * stand height limit (left + 1) = 2 ^ (height - left) + (limit / 2 ^ left - 1) := by
        have open_ : stand height limit left = 2 ^ (height - left) + limit / 2 ^ left := rfl
        have positive : 1 ≤ limit / 2 ^ left := Nat.one_le_iff_ne_zero.mpr (fun zero => clear (by rw [zero]))
        generalize limit / 2 ^ left = q at open_ positive ⊢
        omega
      have room : limit / 2 ^ left - 1 < 2 ^ (height - left) := by
        have top := quotient_lt height small (Nat.sub_le height left)
        rw [Nat.sub_sub_self (Nat.le_of_succ_le bound)] at top
        exact Nat.lt_of_le_of_lt (Nat.sub_le _ _) top
      have sibling := gains.at bound room
      have half := earlier_half amount clear
        (fun less => Nat.lt_of_div_lt_div (c := 2 ^ left) (a := value) (b := limit) less)
      rw [here, node, sibling, ← Nat.add_assoc, Nat.add_right_comm sum extra,
        Nat.add_assoc (sum + _) extra, ih (Nat.le_of_succ_le bound), values, limits, ← half,
        Nat.add_assoc extra]

/-- A prefix sum moves by the amount exactly when the value lies up to its limit. -/
theorem prefixSum_gains (gains : Gains height tree after value amount) (tall : 0 < height)
    (small : value < 2 ^ height) (inside : limit < 2 ^ height) :
    prefixSum height after limit = prefixSum height tree limit + if value ≤ limit then amount else 0 := by
  have moved := prefixFrom_gains gains tall inside height le_rfl 0 0
  have root : stand height limit height = 1 := by
    rw [stand, Nat.sub_self, Nat.div_eq_of_lt inside, Nat.pow_zero]
  rw [root, Nat.zero_add, Nat.zero_add, Nat.div_eq_of_lt inside, Nat.div_eq_of_lt small] at moved
  simpa only [prefixSum, true_and] using moved

theorem prefixSum_empty (limit : Nat) : prefixSum height (fun _ => 0) limit = 0 := by
  have nothing : ∀ left key, prefixFrom (fun _ => 0) limit left key 0 = 0 := by
    intro left
    induction left with
    | zero => intro key; rfl
    | succ left ih =>
      intro key
      simp only [prefixFrom, Nat.add_zero, ih, ite_self]
  rw [prefixSum, nothing]

end Solonpad.DyadicTree
