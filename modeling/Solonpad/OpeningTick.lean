import Solonpad.Bisection
import Solonpad.Checked
import Mathlib

/-!
`V3LaunchStrategy.stockTick`: the tick a stock's pool opens at. A binary search over the signed ticks of the
pool looks for the first whose price reaches the target, which is then rounded up to the tick spacing. The
square-root prices of the ticks are the pool library's; `FullMath.mulDiv` is the exact floor, and reverts when
it does not fit.
-/

namespace Solonpad.OpeningTick

open Checked Bisection

inductive Error where
  | invalidQuote
  /-- `TickMath` refuses a tick out of its bounds. -/
  | invalidTick
  deriving DecidableEq

abbrev Tx (α : Type) := Checked.Tx Error α

def minTick : Int := -887272
def maxTick : Int := 887272

/-- `int24`. -/
abbrev Int24 := { x : Int // -2 ^ 23 ≤ x ∧ x < 2 ^ 23 }

/-- A conversion to `int24` cuts off the high bits. -/
def Int24.wrap (x : Int) : Int24 :=
  ⟨x.bmod (2 ^ 24), by have low := Int.le_bmod (x := x) (m := 2 ^ 24) (by decide); omega,
    by have high := Int.bmod_lt (x := x) (m := 2 ^ 24) (by decide); omega⟩

/-- Arithmetic on `int24` reverts when its result does not fit. -/
def Int24.checked (x : Int) : Tx Int24 :=
  if fits : -2 ^ 23 ≤ x ∧ x < 2 ^ 23 then .ok ⟨x, fits⟩ else .error .overflow

def mulDiv (x y denominator : Nat) : Tx Nat :=
  if x * y / denominator < 2 ^ 256 then .ok (x * y / denominator) else .error .overflow

variable (root : Int → Nat)

/-- `root` has the root price of every tick, in Q96. -/
def getSqrtPriceAtTick (tick : Int24) : Tx Nat := do
  require (minTick ≤ tick.val ∧ tick.val ≤ maxTick) .invalidTick
  pure (root tick.val)

/-- `mid`: `int256` is wide enough for the steps before the conversion. -/
def middle (lo hi : Int24) : Int24 := .wrap (lo.val + (hi.val - lo.val).tdiv 2)

/-- The comparison of one turn. -/
def reaches (target : Nat) (mid : Int24) : Tx Bool := do
  let root ← getSqrtPriceAtTick root mid
  let price ← mulDiv root root (2 ^ 64)
  pure (decide (target ≤ price))

/-- The conversion of the middle cuts nothing off. -/
theorem middle_val {lo hi : Int24} (wide : lo.val < hi.val) : (middle lo hi).val = lo.val + (hi.val - lo.val) / 2 := by
  have low := lo.property.1
  have high := hi.property.2
  have half : (hi.val - lo.val).tdiv 2 = (hi.val - lo.val) / 2 := Int.tdiv_eq_ediv_of_nonneg (by omega)
  unfold middle Int24.wrap
  rw [half]
  exact Int.bmod_eq_of_le (by omega) (by omega)

theorem checked_ok {x : Int} {value : Int24} : Int24.checked x = .ok value ↔ value.val = x := by
  unfold Int24.checked
  constructor
  · intro done
    split at done
    · cases done
      rfl
    · cases done
  · rintro rfl
    exact dif_pos value.property

theorem checked_within {x : Int} (low : -2 ^ 23 ≤ x) (high : x < 2 ^ 23) :
    Int24.checked x = .ok ⟨x, low, high⟩ := dif_pos ⟨low, high⟩

/-- The loop. -/
def search (target : Nat) (lo hi : Int24) : Tx Int24 :=
  if _wide : lo.val < hi.val then
    match reaches root target (middle lo hi) with
    | .error fault => .error fault
    | .ok true => search target lo (middle lo hi)
    | .ok false =>
      match _next : Int24.checked ((middle lo hi).val + 1) with
      | .error fault => .error fault
      | .ok lo => search target lo hi
  else .ok lo
termination_by (hi.val - lo.val).toNat
decreasing_by
  · rw [middle_val _wide]
    omega
  · rw [checked_ok.mp _next, middle_val _wide]
    omega

/-- The first multiple of the tick spacing from a tick on: the division rounds towards zero. -/
def align (lo : Int24) : Tx Int24 := do
  let quotient ← Int24.checked (lo.val.tdiv 100)
  let aligned ← Int24.checked (quotient.val * 100)
  if aligned.val < lo.val then Int24.checked (aligned.val + 100) else pure aligned

def lowest : Int24 := ⟨minTick, by decide⟩
def highest : Int24 := ⟨maxTick, by decide⟩

def stockTick (priceUsd18 : Nat) : Tx Int24 := do
  let base ← getSqrtPriceAtTick root ⟨123800, by decide⟩
  let basePrice ← mulDiv base base (2 ^ 64)
  let target ← mulDiv basePrice priceUsd18 (10 ^ 18)
  require (target ≠ 0) .invalidQuote
  let lo ← search root target lowest highest
  let aligned ← align lo
  require (¬ (887200 < aligned.val ∨ aligned.val < -603300)) .invalidQuote
  pure aligned

/-! What the pool library promises, and what follows for the prices. -/

structure Climbs : Prop where
  rising : StrictMonoOn root (Set.Icc minTick maxTick)
  /-- Root prices are of type `uint160`. -/
  fits : ∀ tick ∈ Set.Icc minTick maxTick, root tick < 2 ^ 160

def priceAt (tick : Int) : Nat := root tick * root tick / 2 ^ 64

def targetOf (priceUsd18 : Nat) : Nat := priceAt root 123800 * priceUsd18 / 10 ^ 18

section

variable {root} (climbs : Climbs root)
include climbs

/-- A squared root price fits in 256 bits. -/
theorem square_fits {tick : Int} (low : minTick ≤ tick) (high : tick ≤ maxTick) :
    mulDiv (root tick) (root tick) (2 ^ 64) = .ok (priceAt root tick) := by
  have bound := climbs.fits tick ⟨low, high⟩
  have square : root tick * root tick < 2 ^ 160 * 2 ^ 160 := Nat.mul_lt_mul'' bound bound
  have width : 2 ^ 160 * 2 ^ 160 = 2 ^ 64 * 2 ^ 256 := by
    have top : 2 ^ 256 = 2 ^ 96 * 2 ^ 160 := rfl
    have bottom : 2 ^ 64 * 2 ^ 96 = 2 ^ 160 := rfl
    rw [top, ← Nat.mul_assoc, bottom]
  exact if_pos (Nat.div_lt_of_lt_mul (width ▸ square))

theorem price_mono {a b : Int} (low : minTick ≤ a) (ordered : a ≤ b) (high : b ≤ maxTick) :
    priceAt root a ≤ priceAt root b := by
  have below : root a ≤ root b :=
    climbs.rising.monotoneOn ⟨low, by omega⟩ ⟨by omega, high⟩ ordered
  exact Nat.div_le_div_right (Nat.mul_le_mul below below)

theorem price_upward (target : Nat) : Upward (fun t => target ≤ priceAt root t) minTick maxTick :=
  fun _ _ low ordered high reached => reached.trans (price_mono climbs low ordered high)

theorem reaches_ok (target : Nat) {mid : Int24} (low : minTick ≤ mid.val) (high : mid.val ≤ maxTick) :
    reaches root target mid = .ok (decide (target ≤ priceAt root mid.val)) := by
  simp only [reaches, getSqrtPriceAtTick, require, low, high, and_self, if_true]
  change (mulDiv (root mid.val) (root mid.val) (2 ^ 64) >>= fun price => pure (decide (target ≤ price))) = _
  rw [square_fits climbs low high]
  rfl

/-- The loop is the bisection of the ticks, and fails nowhere. -/
theorem search_bisect (target : Nat) {lo hi : Int24} (low : minTick ≤ lo.val) (ordered : lo.val ≤ hi.val)
    (high : hi.val ≤ maxTick) : ∃ least, search root target lo hi = .ok least ∧
      least.val = bisect (fun t => target ≤ priceAt root t) lo.val hi.val := by
  have turn : ∀ lo hi : Int24, minTick ≤ lo.val → hi.val ≤ maxTick → lo.val < hi.val →
      reaches root target (middle lo hi) = .ok (decide (target ≤ priceAt root (middle lo hi).val)) := by
    intro lo hi low high wide
    have mid := middle_val wide
    exact reaches_ok climbs target (by omega) (by omega)
  fun_induction search root target lo hi with
  | case1 lo hi wide fault failed =>
    rw [turn lo hi low high wide] at failed
    cases failed
  | case2 lo hi wide reached ih =>
    have mid := middle_val wide
    rw [turn lo hi low high wide, Except.ok.injEq, decide_eq_true_iff] at reached
    obtain ⟨least, found, same⟩ := ih low (by omega) (by omega)
    refine ⟨least, found, ?_⟩
    rw [bisect, if_pos wide, ← mid]
    dsimp only
    rw [if_pos reached]
    exact same
  | case3 lo hi wide short fault failed =>
    -- the middle is below the upper end, so the next tick is a tick
    have mid := middle_val wide
    have high_end := hi.property.2
    have low_end := lo.property.1
    have next := checked_within (x := (middle lo hi).val + 1) (by omega) (by omega)
    rw [next] at failed
    cases failed
  | case4 lo hi wide short up next ih =>
    have mid := middle_val wide
    have after := checked_ok.mp next
    rw [turn lo hi low high wide, Except.ok.injEq, decide_eq_false_iff_not] at short
    obtain ⟨least, found, same⟩ := ih (by omega) (by omega) high
    refine ⟨least, found, ?_⟩
    rw [bisect, if_pos wide, ← mid]
    dsimp only
    rw [if_neg short, ← after]
    exact same
  | case5 lo hi narrow =>
    refine ⟨lo, rfl, ?_⟩
    rw [bisect, if_neg narrow]

omit climbs in
/-- Division towards zero: below zero it rounds up. -/
theorem tdiv_hundred (x : Int) : x.tdiv 100 = x / 100 ∨ x < 0 ∧ ¬ 100 ∣ x ∧ x.tdiv 100 = x / 100 + 1 := by
  rw [Int.tdiv_eq_ediv]
  split
  · exact .inl (Int.add_zero _)
  · next below =>
    rw [not_or] at below
    exact .inr ⟨by omega, below.2, rfl⟩

omit climbs in
/-- The aligned tick is the first multiple of 100 from the tick on, whatever its sign. -/
theorem align_ok {lo : Int24} (low : minTick ≤ lo.val) (high : lo.val ≤ maxTick) :
    ∃ aligned, align lo = .ok aligned ∧ 100 ∣ aligned.val ∧ lo.val ≤ aligned.val ∧
      aligned.val < lo.val + 100 := by
  unfold minTick at low
  unfold maxTick at high
  have quotient := tdiv_hundred lo.val
  unfold align
  generalize lo.val.tdiv 100 = q at quotient ⊢
  have bounds : lo.val - 100 < q * 100 ∧ q * 100 < lo.val + 100 := by omega
  have first := checked_within (x := q) (by omega) (by omega)
  have second := checked_within (x := q * 100) (by omega) (by omega)
  simp only [first, second, bind_ok, Except.ok.injEq, exists_eq_left', ite_ok, pure_ok]
  by_cases early : q * 100 < lo.val
  · have third := checked_within (x := q * 100 + 100) (by omega) (by omega)
    exact ⟨_, .inl ⟨early, third⟩, ⟨q + 1, by dsimp only; omega⟩, by dsimp only; omega, by dsimp only; omega⟩
  · exact ⟨_, .inr ⟨early, rfl⟩, ⟨q, by dsimp only; omega⟩, by dsimp only; omega, bounds.2⟩

/-- The multiples of 100 among the ticks whose price reaches a target. -/
def Reaching (root : Int → Nat) (target : Nat) : Set Int :=
  { t | 100 ∣ t ∧ minTick ≤ t ∧ t ≤ maxTick ∧ target ≤ priceAt root t }

/-- What the search and the alignment find, when it is a tick. -/
theorem aligned_least (target : Nat) : ∃ lo aligned, search root target lowest highest = .ok lo ∧
    align lo = .ok aligned ∧ (∀ t ∈ Reaching root target, aligned.val ≤ t) ∧
      (aligned.val ≤ maxTick → IsLeast (Reaching root target) aligned.val) := by
  have low_end : minTick ≤ lowest.val := Int.le_refl _
  have high_end : highest.val ≤ maxTick := Int.le_refl _
  obtain ⟨lo, found, same⟩ := search_bisect climbs target low_end (by decide) high_end
  have least : Least (fun t => target ≤ priceAt root t) minTick maxTick lo.val :=
    same ▸ bisect_least (by decide) (price_upward climbs target)
  have low := least.from_low
  have high := least.to_high
  obtain ⟨aligned, rounded, multiple, above, near⟩ := align_ok low high
  have below : ∀ t ∈ Reaching root target, aligned.val ≤ t := by
    rintro t ⟨hundred, from_min, to_max, reached⟩
    have later : lo.val ≤ t := by
      by_contra earlier
      exact least.before t from_min (by omega) reached
    omega
  refine ⟨lo, aligned, found, rounded, below, fun within => ⟨⟨multiple, by omega, within, ?_⟩, below⟩⟩
  -- the highest tick is no multiple, so the search ended before it
  have inside : lo.val < maxTick := by
    unfold maxTick at high within ⊢
    omega
  exact price_upward climbs target lo.val aligned.val low above within (least.found inside)

/-- The call up to the search: the target is too wide, or nothing, or what the search is for. -/
theorem stockTick_eq (priceUsd18 : Nat) : stockTick root priceUsd18 =
    if targetOf root priceUsd18 < 2 ^ 256 then do
      require (targetOf root priceUsd18 ≠ 0) .invalidQuote
      let lo ← search root (targetOf root priceUsd18) lowest highest
      let aligned ← align lo
      require (¬ (887200 < aligned.val ∨ aligned.val < -603300)) .invalidQuote
      pure aligned
    else .error .overflow := by
  have base : mulDiv (root 123800) (root 123800) (2 ^ 64) = .ok (priceAt root 123800) :=
    square_fits climbs (by decide) (by decide)
  unfold stockTick
  change (mulDiv (root 123800) (root 123800) (2 ^ 64) >>= _) = _
  rw [base]
  change (mulDiv (priceAt root 123800) priceUsd18 (10 ^ 18) >>= _) = _
  by_cases fits : targetOf root priceUsd18 < 2 ^ 256
  · have target : mulDiv (priceAt root 123800) priceUsd18 (10 ^ 18) = .ok (targetOf root priceUsd18) := if_pos fits
    rw [target, if_pos fits]
    rfl
  · have target : mulDiv (priceAt root 123800) priceUsd18 (10 ^ 18) = .error .overflow := if_neg fits
    rw [target, if_neg fits]
    rfl

theorem stockTick_ok (priceUsd18 : Nat) (tick : Int24) : stockTick root priceUsd18 = .ok tick ↔
    targetOf root priceUsd18 ≠ 0 ∧ targetOf root priceUsd18 < 2 ^ 256 ∧
      IsLeast (Reaching root (targetOf root priceUsd18)) tick.val ∧ -603300 ≤ tick.val ∧ tick.val ≤ 887200 := by
  obtain ⟨lo, aligned, found, rounded, below, least⟩ := aligned_least climbs (targetOf root priceUsd18)
  rw [stockTick_eq climbs]
  simp only [ite_ok, bind_ok, require_ok, found, rounded, Except.ok.injEq, exists_eq_left', pure_ok, and_false,
    or_false, reduceCtorEq]
  constructor
  · rintro ⟨fits, _, nonzero, _, within, rfl⟩
    exact ⟨nonzero, fits, least (by unfold maxTick; omega), by omega, by omega⟩
  · rintro ⟨nonzero, fits, minimum, low, high⟩
    have at_most := below tick.val minimum.1
    have same : tick = aligned := Subtype.ext (minimum.unique (least (by unfold maxTick; omega)))
    subst same
    exact ⟨fits, (), nonzero, (), by omega, rfl⟩

/-- A refused call, but for the width of its target, is refused by its own checks. -/
theorem stockTick_fails (priceUsd18 : Nat) (fault : Fault Error) (failed : stockTick root priceUsd18 = .error fault) :
    2 ^ 256 ≤ targetOf root priceUsd18 ∧ fault = .overflow ∨
      targetOf root priceUsd18 < 2 ^ 256 ∧ fault = .revert .invalidQuote := by
  obtain ⟨lo, aligned, found, rounded, _, _⟩ := aligned_least climbs (targetOf root priceUsd18)
  rw [stockTick_eq climbs] at failed
  split at failed
  · next fits =>
    refine .inr ⟨fits, ?_⟩
    simp only [found, rounded, require, bind, Except.bind] at failed
    split at failed
    · next refused =>
      split at refused
      · cases refused
      · cases refused
        exact (Except.error.inj failed).symm
    · split at failed
      · next refused =>
        split at refused
        · cases refused
        · cases refused
          exact (Except.error.inj failed).symm
      · cases failed
  · next wide => exact .inl ⟨Nat.le_of_not_lt wide, (Except.error.inj failed).symm⟩

theorem opening_tick :
    (∀ priceUsd18 tick, stockTick root priceUsd18 = .ok tick ↔
      targetOf root priceUsd18 ≠ 0 ∧ targetOf root priceUsd18 < 2 ^ 256 ∧
        IsLeast (Reaching root (targetOf root priceUsd18)) tick.val ∧ -603300 ≤ tick.val ∧ tick.val ≤ 887200) ∧
    (∀ priceUsd18 fault, stockTick root priceUsd18 = .error fault →
      2 ^ 256 ≤ targetOf root priceUsd18 ∧ fault = .overflow ∨
        targetOf root priceUsd18 < 2 ^ 256 ∧ fault = .revert .invalidQuote) ∧
    (∀ lower higher tick later, lower ≤ higher → stockTick root lower = .ok tick →
      stockTick root higher = .ok later → tick.val ≤ later.val) ∧
    (∀ target, ∃ least, search root target lowest highest = .ok least) ∧
    ∀ lo hi : Int24, lo.val < hi.val → (middle lo hi).val = lo.val + (hi.val - lo.val) / 2 := by
  refine ⟨stockTick_ok climbs, stockTick_fails climbs, fun lower higher tick later ordered first second => ?_,
    fun target => ?_, fun _ _ => middle_val⟩
  · -- what reaches the higher target reaches the lower one
    obtain ⟨_, _, ⟨_, minimum⟩, _, _⟩ := (stockTick_ok climbs lower tick).mp first
    obtain ⟨_, _, ⟨⟨multiple, low, high, reached⟩, _⟩, _, _⟩ := (stockTick_ok climbs higher later).mp second
    have targets : targetOf root lower ≤ targetOf root higher :=
      Nat.div_le_div_right (Nat.mul_le_mul_left _ ordered)
    exact minimum ⟨multiple, low, high, targets.trans reached⟩
  · obtain ⟨lo, _, found, _⟩ := aligned_least climbs target
    exact ⟨lo, found⟩

end

/-! The pool library's own roots at the ticks of one search, on a line that rises between them. -/

/-- Where the line jumps up to the root of a tick, and by how much. -/
def jumps : List (Int × Nat) :=
  [(0, 79228162514264337593543063064),
   (110909, 20203086144538548032122641462236),
   (123800, 18356876395156061557423687552782),
   (166364, 285885188442979073939563567004118),
   (169830, 61404073806205144528601995871876),
   (169844, 270230975549941641157881586550),
   (169851, 135186436411672046775354208025),
   (169853, 38633387036335470608323867179),
   (169854, 19318142246036636411337881068),
   (169855, 19319108129002467744046818497),
   (169858, 57963120167743874264786750793),
   (169885, 522059498901281933062879685787),
   (169939, 1046235613386496021404600663332),
   (170047, 2100964408206077940215767106001),
   (170264, 4255834611638522533366170355995),
   (170697, 8631299530948602523308405882190),
   (171563, 17833419855769674102104311006178),
   (173296, 38092028325422916041717397053208),
   (180228, 190109600293854854569299200438441),
   (194091, 649019220258811830427063053926183),
   (221818, 3894168300272962133943639717843813),
   (443636, 340270779471451059047886911616913335610)]

def sampleRoot (tick : Int) : Nat :=
  (tick - minTick).toNat + (jumps.map fun jump => if jump.1 ≤ tick then jump.2 else 0).sum

theorem sampleRoot_climbs : Climbs sampleRoot := by
  constructor
  · intro a low b high below
    have line : (a - minTick).toNat < (b - minTick).toNat := by
      have from_min := low.1
      omega
    refine Nat.add_lt_add_of_lt_of_le line (List.sum_le_sum fun jump _ => ?_)
    split
    · next passed => rw [if_pos (by omega)]
    · exact Nat.zero_le _
  · intro tick inside
    have all : (jumps.map fun jump => if jump.1 ≤ tick then jump.2 else 0).sum ≤ (jumps.map Prod.snd).sum := by
      refine List.sum_le_sum fun jump _ => ?_
      split
      · exact Nat.le_refl _
      · exact Nat.zero_le _
    have total : (jumps.map Prod.snd).sum < 2 ^ 160 - 2 ^ 21 := by decide
    have line : (tick - minTick).toNat < 2 ^ 21 := by
      have bounds := inside
      unfold minTick maxTick at *
      rw [Set.mem_Icc] at bounds
      omega
    unfold sampleRoot
    omega

/-- A stock at $100 opens at 169900. -/
theorem opening_tick_hundred : stockTick sampleRoot (100 * 10 ^ 18) = .ok ⟨169900, by decide⟩ ∧
    IsLeast (Reaching sampleRoot (targetOf sampleRoot (100 * 10 ^ 18))) 169900 := by
  have opens : stockTick sampleRoot (100 * 10 ^ 18) = .ok ⟨169900, by decide⟩ := by decide +kernel
  exact ⟨opens, (((opening_tick sampleRoot_climbs).1 _ _).mp opens).2.2.1⟩

end Solonpad.OpeningTick
