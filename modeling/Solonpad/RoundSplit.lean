import Solonpad.GridPieces
import Mathlib.Tactic.Ring

/-!
How the round keeper cuts a queue into rounds, `alignBudget18` and `roundCap` of `round/decide.mjs`. The cut is
decided again after every round from what is left. An even first cut is kept to the end: the number of pieces goes
down by one with each round, no later piece is larger than the first, and so the last one is no smaller than the
first decision found it to be.
-/

namespace Solonpad.RoundSplit

open GridPieces

def usdcGrid : Nat := 10 ^ 12

theorem grid_whole : 0 < usdcGrid := by decide

def alignBudget18 (total : Nat) : Nat := down usdcGrid total

def roundCap (queued runLimit minimum : Nat) : Nat :=
  let cap := alignBudget18 runLimit
  if cap = 0 ∨ queued ≤ cap then cap
  else
    let n := (queued + cap - 1) / cap
    let even := alignBudget18 ((queued + n - 1) / n + usdcGrid - 1)
    if cap < even then cap
    else
      let last : Int := alignBudget18 queued - (n - 1) * even
      if even < minimum ∨ last < minimum then cap else even

/-- What one round takes of what is left. -/
def taken (runLimit minimum left : Nat) : Nat := min (roundCap left runLimit minimum) (alignBudget18 left)

/-- What is left of the queue after some rounds. -/
def leftAfter (runLimit minimum queued : Nat) : Nat → Nat
  | 0 => queued
  | rounds + 1 =>
      let left := leftAfter runLimit minimum queued rounds
      left - taken runLimit minimum left

variable {queued runLimit minimum left cap count : Nat}

/-! One decision. -/

/-- The queue is cut into `count + 1` even rounds, and the last of them reaches the minimum as well. -/
structure Even (cap minimum queued count : Nat) : Prop where
  above : cap * count < queued
  within : queued ≤ cap * (count + 1)
  reaches : minimum ≤ piece usdcGrid (count + 1) queued
  last : count * piece usdcGrid (count + 1) queued + minimum ≤ alignBudget18 queued

theorem count_bounds (positive : 0 < cap) (above : cap < queued) :
    ∃ count, queued ⌈/⌉ cap = count + 1 ∧ 0 < count ∧ cap * count < queued ∧ queued ≤ cap * (count + 1) := by
  have covers : queued ≤ cap * (queued ⌈/⌉ cap) := (ceilDiv_le_iff_le_mul positive).mp (Nat.le_refl _)
  have more : ¬ queued ⌈/⌉ cap ≤ 1 := by
    rw [ceilDiv_le_iff_le_mul positive]
    omega
  obtain ⟨count, same⟩ : ∃ count, queued ⌈/⌉ cap = count + 1 := ⟨_, (Nat.sub_add_cancel (by omega)).symm⟩
  have fewer : ¬ queued ⌈/⌉ cap ≤ count := by omega
  rw [ceilDiv_le_iff_le_mul positive] at fewer
  rw [same] at covers
  exact ⟨count, same, by omega, by omega, covers⟩

theorem cap_grid : usdcGrid ∣ alignBudget18 runLimit := down_dvd

/-- Pieces that cover the queue are not above a limit that covers it as often. -/
theorem piece_le (within : queued ≤ alignBudget18 runLimit * (count + 1)) :
    piece usdcGrid (count + 1) queued ≤ alignBudget18 runLimit := by
  rw [piece_le_iff grid_whole (Nat.succ_pos count) cap_grid, Nat.mul_comm]
  exact within

/-- What `roundCap` answers: the aligned limit, or the piece of an even cut. -/
theorem roundCap_cases (positive : 0 < alignBudget18 runLimit) (above : alignBudget18 runLimit < queued) :
    ∃ count, 0 < count ∧ queued ⌈/⌉ alignBudget18 runLimit = count + 1 ∧
      (Even (alignBudget18 runLimit) minimum queued count ∧
          roundCap queued runLimit minimum = piece usdcGrid (count + 1) queued ∨
        ¬ Even (alignBudget18 runLimit) minimum queued count ∧
          roundCap queued runLimit minimum = alignBudget18 runLimit) := by
  obtain ⟨count, number, some_, low, high⟩ := count_bounds positive above
  refine ⟨count, some_, number, ?_⟩
  have size : alignBudget18 ((queued + (count + 1) - 1) / (count + 1) + usdcGrid - 1) =
      piece usdcGrid (count + 1) queued := rfl
  have fits : ¬ alignBudget18 runLimit < piece usdcGrid (count + 1) queued :=
    Nat.not_lt.mpr (piece_le high)
  rw [Nat.ceilDiv_eq_add_pred_div] at number
  unfold roundCap
  simp only [number, size, if_neg fits, if_neg (not_or.mpr ⟨positive.ne', Nat.not_le.mpr above⟩)]
  by_cases refused : piece usdcGrid (count + 1) queued < minimum ∨
      (alignBudget18 queued - (((count + 1 : Nat) : Int) - 1) * piece usdcGrid (count + 1) queued : Int) < minimum
  · refine .inr ⟨fun even => ?_, if_pos refused⟩
    have reaches := even.reaches
    have last : (count * piece usdcGrid (count + 1) queued + minimum : Int) ≤ alignBudget18 queued := by
      exact_mod_cast even.last
    rcases refused with small | small
    · omega
    · push_cast at small
      rw [add_sub_cancel_right] at small
      omega
  · obtain ⟨reaches, last⟩ := not_or.mp refused
    refine .inl ⟨⟨low, high, Nat.not_lt.mp reaches, ?_⟩, if_neg refused⟩
    push_cast at last
    rw [add_sub_cancel_right, not_lt] at last
    have placed : (count * piece usdcGrid (count + 1) queued + minimum : Int) ≤ alignBudget18 queued := by omega
    exact_mod_cast placed

theorem align_pos (room : usdcGrid ≤ runLimit) : 0 < alignBudget18 runLimit :=
  grid_whole.trans_le ((le_down_iff grid_whole (Nat.dvd_refl _)).mpr room)

theorem roundCap_small (small : queued ≤ alignBudget18 runLimit) :
    roundCap queued runLimit minimum = alignBudget18 runLimit := if_pos (.inr small)

theorem roundCap_range (room : usdcGrid ≤ runLimit) :
    0 < roundCap queued runLimit minimum ∧ usdcGrid ∣ roundCap queued runLimit minimum ∧
      roundCap queued runLimit minimum ≤ runLimit := by
  have positive := align_pos room
  have limit : alignBudget18 runLimit ≤ runLimit := down_le
  by_cases small : queued ≤ alignBudget18 runLimit
  · rw [roundCap_small small]
    exact ⟨positive, cap_grid, limit⟩
  · obtain ⟨count, _, _, ⟨even, size⟩ | ⟨_, size⟩⟩ :=
      @roundCap_cases queued runLimit minimum positive (Nat.lt_of_not_le small)
    · rw [size]
      refine ⟨?_, piece_dvd, (piece_le even.within).trans limit⟩
      have covers : queued ≤ (count + 1) * piece usdcGrid (count + 1) queued :=
        le_count_piece grid_whole (Nat.succ_pos count)
      have some_ := Nat.zero_lt_of_lt even.above
      by_contra nothing
      rw [Nat.eq_zero_of_not_pos nothing] at covers
      omega
    · rw [size]
      exact ⟨positive, cap_grid, limit⟩

/-! One round. -/

/-- After a round of an even cut the rest is cut evenly into one piece less. -/
theorem Even.next (even : Even (alignBudget18 runLimit) minimum queued (count + 1)) :
    Even (alignBudget18 runLimit) minimum (queued - piece usdcGrid (count + 1 + 1) queued) count := by
  have low := even.above
  have last := even.last
  have size := piece_le even.within
  have covers : queued ≤ (count + 1 + 1) * piece usdcGrid (count + 1 + 1) queued :=
    le_count_piece grid_whole (Nat.succ_pos _)
  have smaller : piece usdcGrid (count + 1) (queued - piece usdcGrid (count + 1 + 1) queued) ≤
      piece usdcGrid (count + 1 + 1) queued := piece_rest grid_whole (Nat.succ_pos count)
  have rest : queued - piece usdcGrid (count + 1 + 1) queued ≤
      (count + 1) * piece usdcGrid (count + 1) (queued - piece usdcGrid (count + 1 + 1) queued) :=
    le_count_piece grid_whole (Nat.succ_pos count)
  have whole : alignBudget18 (queued - piece usdcGrid (count + 1 + 1) queued) =
      alignBudget18 queued - piece usdcGrid (count + 1 + 1) queued := by
    refine down_sub piece_dvd (Nat.le_of_lt ?_)
    exact size.trans_lt ((Nat.le_mul_of_pos_right _ (Nat.succ_pos count)).trans_lt low)
  have covered : alignBudget18 (queued - piece usdcGrid (count + 1 + 1) queued) ≤
      queued - piece usdcGrid (count + 1 + 1) queued := down_le
  rw [Nat.succ_mul] at covers last
  have held : count * piece usdcGrid (count + 1 + 1) queued + minimum ≤
      alignBudget18 (queued - piece usdcGrid (count + 1 + 1) queued) := by omega
  refine ⟨?_, ?_, ?_, ?_⟩
  · rw [Nat.mul_succ] at low
    omega
  · have scaled := Nat.mul_le_mul_left (count + 1) size
    rw [Nat.mul_comm]
    omega
  · -- The pieces left reach the minimum together, so each of them does.
    have needed := Nat.mul_le_mul_left count even.reaches
    have together : (count + 1) * minimum ≤
        (count + 1) * piece usdcGrid (count + 1) (queued - piece usdcGrid (count + 1 + 1) queued) := by
      rw [Nat.succ_mul count minimum]
      omega
    exact Nat.le_of_mul_le_mul_left together (Nat.succ_pos count)
  · have scaled := Nat.mul_le_mul_left count smaller
    omega

theorem taken_even (even : Even (alignBudget18 runLimit) minimum queued count) (room : usdcGrid ≤ runLimit)
    (rounds : 0 < count) : taken runLimit minimum queued = piece usdcGrid (count + 1) queued := by
  have positive := align_pos room
  have above : alignBudget18 runLimit < queued :=
    (Nat.le_mul_of_pos_right _ rounds).trans_lt even.above
  obtain ⟨other, _, number, found⟩ := @roundCap_cases queued runLimit minimum positive above
  -- The number of rounds is determined by the queue, so this is the cut that the decision finds.
  have same : other = count := by
    have most : queued ⌈/⌉ alignBudget18 runLimit ≤ count + 1 := (ceilDiv_le_iff_le_mul positive).mpr even.within
    have least : ¬ queued ⌈/⌉ alignBudget18 runLimit ≤ count := by
      rw [ceilDiv_le_iff_le_mul positive]
      exact Nat.not_le.mpr even.above
    omega
  subst same
  rcases found with ⟨_, size⟩ | ⟨refused, _⟩
  · have last := even.last
    have one := Nat.le_mul_of_pos_left (piece usdcGrid (other + 1) queued) rounds
    rw [taken, size, Nat.min_eq_left (by omega)]
  · exact absurd even refused

theorem taken_small (small : queued ≤ alignBudget18 runLimit) :
    taken runLimit minimum queued = alignBudget18 queued := by
  have aligned : alignBudget18 queued ≤ queued := down_le
  rw [taken, roundCap_small small, Nat.min_eq_right (aligned.trans small)]

/-! The drain. -/

theorem leftAfter_succ (rounds : Nat) : leftAfter runLimit minimum queued (rounds + 1) =
    leftAfter runLimit minimum (queued - taken runLimit minimum queued) rounds := by
  induction rounds with
  | zero => rfl
  | succ rounds ih =>
    rw [leftAfter, ih]
    rfl

theorem leftAfter_le (rounds : Nat) : leftAfter runLimit minimum queued rounds ≤ queued := by
  induction rounds with
  | zero => exact Nat.le_refl queued
  | succ rounds ih => exact (Nat.sub_le ..).trans ih

theorem small_drained (small : queued ≤ alignBudget18 runLimit) :
    queued - taken runLimit minimum queued < usdcGrid := by
  have near : queued < alignBudget18 queued + usdcGrid := lt_down_add grid_whole
  rw [taken_small small]
  exact Nat.sub_lt_left_of_lt_add down_le near

/-- Every round takes one limit's worth off the bound on what is left. -/
theorem large_round (room : usdcGrid ≤ runLimit) (large : alignBudget18 runLimit < queued) {rounds : Nat}
    (within : queued ≤ alignBudget18 runLimit * (rounds + 1)) :
    queued - taken runLimit minimum queued ≤ alignBudget18 runLimit * rounds := by
  have positive := align_pos room
  obtain ⟨count, some_, number, ⟨even, _⟩ | ⟨_, size⟩⟩ := @roundCap_cases queued runLimit minimum positive large
  · have fewer : count ≤ rounds := by
      have most := (ceilDiv_le_iff_le_mul positive).mpr within
      omega
    have covers : queued ≤ (count + 1) * piece usdcGrid (count + 1) queued :=
      le_count_piece grid_whole (Nat.succ_pos count)
    have scaled := Nat.mul_le_mul fewer (piece_le even.within)
    rw [taken_even even room some_]
    rw [Nat.succ_mul] at covers
    rw [Nat.mul_comm]
    omega
  · have aligned : alignBudget18 runLimit ≤ alignBudget18 queued :=
      (le_down_iff grid_whole cap_grid).mpr large.le
    rw [taken, size, Nat.min_eq_left aligned]
    rw [Nat.mul_succ] at within
    omega

theorem drained (room : usdcGrid ≤ runLimit) {rounds : Nat}
    (within : queued ≤ alignBudget18 runLimit * rounds) : leftAfter runLimit minimum queued rounds < usdcGrid := by
  induction rounds generalizing queued with
  | zero => exact within.trans_lt grid_whole
  | succ rounds ih =>
    rw [leftAfter_succ]
    by_cases small : queued ≤ alignBudget18 runLimit
    · exact (leftAfter_le rounds).trans_lt (small_drained small)
    · exact ih (large_round room (Nat.lt_of_not_le small) within)

/-- Once cut evenly, every round down to the last reaches the minimum. -/
theorem Even.all (even : Even (alignBudget18 runLimit) minimum queued count) (room : usdcGrid ≤ runLimit)
    (rounds : Nat) (more : usdcGrid ≤ leftAfter runLimit minimum queued rounds) :
    minimum ≤ taken runLimit minimum (leftAfter runLimit minimum queued rounds) := by
  induction count generalizing queued rounds with
  | zero =>
    have small : queued ≤ alignBudget18 runLimit := by
      rw [← Nat.mul_one (alignBudget18 runLimit)]
      exact even.within
    cases rounds with
    | zero =>
      have last := even.last
      rw [Nat.zero_mul, Nat.zero_add] at last
      rw [leftAfter, taken_small small]
      exact last
    | succ rounds =>
      rw [leftAfter_succ] at more
      exact absurd more (Nat.not_le.mpr ((leftAfter_le rounds).trans_lt (small_drained small)))
  | succ count ih =>
    have size := taken_even even room (Nat.succ_pos count)
    cases rounds with
    | zero =>
      rw [leftAfter, size]
      exact even.reaches
    | succ rounds =>
      rw [leftAfter_succ, size] at more ⊢
      exact ih even.next rounds more

/-- The decision is in range, the queue drains in the rounds the limit needs, and an even cut never falls under the
minimum. -/
theorem round_split (room : usdcGrid ≤ runLimit) :
    (0 < roundCap queued runLimit minimum ∧ usdcGrid ∣ roundCap queued runLimit minimum ∧
      roundCap queued runLimit minimum ≤ runLimit) ∧
    leftAfter runLimit minimum queued (queued ⌈/⌉ alignBudget18 runLimit) < usdcGrid ∧
    (roundCap queued runLimit minimum < alignBudget18 runLimit →
      ∀ rounds, usdcGrid ≤ leftAfter runLimit minimum queued rounds →
        minimum ≤ taken runLimit minimum (leftAfter runLimit minimum queued rounds)) := by
  have positive := align_pos room
  refine ⟨roundCap_range room, ?_, fun below rounds more => ?_⟩
  · exact drained room ((ceilDiv_le_iff_le_mul positive).mp (Nat.le_refl _))
  · have large : alignBudget18 runLimit < queued := by
      by_contra small
      rw [roundCap_small (Nat.not_lt.mp small)] at below
      exact Nat.lt_irrefl _ below
    obtain ⟨count, _, _, ⟨even, _⟩ | ⟨_, size⟩⟩ := @roundCap_cases queued runLimit minimum positive large
    · exact even.all room rounds more
    · rw [size] at below
      exact absurd below (Nat.lt_irrefl _)

/-- 1,800 queued under a limit of 250 and a minimum of 100 go out in eight rounds of 225. -/
theorem round_split_eight :
    roundCap (1800 * 10 ^ 18) (250 * 10 ^ 18) (100 * 10 ^ 18) = 225 * 10 ^ 18 ∧
      ∀ rounds, usdcGrid ≤ leftAfter (250 * 10 ^ 18) (100 * 10 ^ 18) (1800 * 10 ^ 18) rounds →
        100 * 10 ^ 18 ≤ taken (250 * 10 ^ 18) (100 * 10 ^ 18)
          (leftAfter (250 * 10 ^ 18) (100 * 10 ^ 18) (1800 * 10 ^ 18) rounds) := by
  have even : roundCap (1800 * 10 ^ 18) (250 * 10 ^ 18) (100 * 10 ^ 18) = 225 * 10 ^ 18 := by decide
  have room : usdcGrid ≤ 250 * 10 ^ 18 := by decide
  refine ⟨even, (round_split room).2.2 ?_⟩
  rw [even]
  decide

end Solonpad.RoundSplit
