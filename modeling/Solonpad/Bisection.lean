import Mathlib.Tactic.Common

/-!
Binary search over an interval of the integers for the least number with a property that, once it holds,
holds from there on. The upper end is returned when no earlier number has it.
-/

namespace Solonpad.Bisection

/-- What holds at a number of the interval holds at every later one. -/
def Upward (holds : Int → Prop) (low high : Int) : Prop :=
  ∀ a b, low ≤ a → a ≤ b → b ≤ high → holds a → holds b

variable (holds : Int → Prop) [DecidablePred holds]

def bisect (low high : Int) : Int :=
  if low < high then
    let middle := low + (high - low) / 2
    if holds middle then bisect low middle else bisect (middle + 1) high
  else low
termination_by (high - low).toNat

/-- The least number of an interval with the property, or its end. -/
structure Least (low high least : Int) : Prop where
  from_low : low ≤ least
  to_high : least ≤ high
  before : ∀ t, low ≤ t → t < least → ¬ holds t
  found : least < high → holds least

variable {holds}

theorem bisect_least {low high : Int} (ordered : low ≤ high) (upward : Upward holds low high) :
    Least holds low high (bisect holds low high) := by
  fun_induction bisect holds low high with
  | case1 low high wide middle at_middle ih =>
    have inner := ih (by omega) fun a b first between last => upward a b first between (by omega)
    refine ⟨inner.from_low, by have top := inner.to_high; omega, inner.before, fun _ => ?_⟩
    -- it stopped at the middle, which has the property, or before it
    rcases Int.lt_or_eq_of_le inner.to_high with earlier | last
    · exact inner.found earlier
    · rw [last]
      exact at_middle
  | case2 low high wide middle not_middle ih =>
    have inner := ih (by omega) fun a b first between last => upward a b (by omega) between last
    refine ⟨by have bottom := inner.from_low; omega, inner.to_high, fun t from_low below => ?_, inner.found⟩
    by_cases later : middle + 1 ≤ t
    · exact inner.before t later below
    · exact fun at_t => not_middle (upward t middle from_low (by omega) (by omega) at_t)
  | case3 low high narrow =>
    exact ⟨Int.le_refl _, ordered, fun t from_low below => by omega, fun wide => absurd wide narrow⟩

end Solonpad.Bisection
