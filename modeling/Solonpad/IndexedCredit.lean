import Solonpad.Checkpoints
import Solonpad.RunningTotal

/-!
Amounts given out over weights by one growing index, and read back lazily. A side is an index with
the remainder of its last division; the remainder goes on while denominator, revision and epoch
stay the same and is dust otherwise. An account keeps a history of weights; what it earned in a
window is a sum over those weights of index differences, each found by bisection. `credit_eq` says
that this is the replay: for every payment in the window, the weight that stood then times the
increment. Every record carries a sequence number and the time one clock shows for it.
-/

namespace Solonpad.IndexedCredit

open Checkpoints RunningTotal

structure IndexPoint where
  seq : Nat
  time : Nat
  index : Nat

/-- One index step: what it moved the index by, over which denominator. -/
structure Payment where
  seq : Nat
  time : Nat
  denominator : Nat
  amount : Nat
  delta : Nat

/-- `paid` is kept for the proofs: the payments behind the history. -/
structure Side where
  index : Nat
  remainder : Nat
  denominator : Nat
  revision : Nat
  epoch : Nat
  history : List IndexPoint
  paid : List Payment

def Side.empty : Side := ⟨0, 0, 0, 0, 0, [], []⟩

/-- The remainder belongs to other weights or to another epoch. -/
def Side.stale (x : Side) (denominator revision epoch : Nat) : Prop :=
  x.revision ≠ revision ∨ x.denominator ≠ denominator ∨ x.epoch ≠ epoch

instance (x : Side) (denominator revision epoch : Nat) : Decidable (x.stale denominator revision epoch) :=
  inferInstanceAs (Decidable (_ ∨ _))

/-- What a step turns into dust of the old epoch. -/
def Side.frozen (x : Side) (denominator revision epoch : Nat) : Nat :=
  if x.stale denominator revision epoch then x.remainder else 0

def Side.credit (x : Side) (seq time epoch denominator revision amount : Nat) : Side :=
  let kept := if x.stale denominator revision epoch then 0 else x.remainder
  let numerator := amount + kept
  let index := x.index + numerator / denominator
  { index := index
    remainder := numerator % denominator
    denominator := denominator
    revision := revision
    epoch := epoch
    history := x.history ++ [⟨seq, time, index⟩]
    paid := x.paid ++ [⟨seq, time, denominator, amount, numerator / denominator⟩] }

/-- A bound that may be absent. -/
def within (bound : Option Nat) (n : Nat) : Bool :=
  match bound with
  | none => true
  | some limit => decide (n < limit)

/-- `_indexBefore`: the index after the last point below both bounds. -/
def indexBefore (history : List IndexPoint) (seq time : Option Nat) : Nat :=
  match latest (fun p => within seq p.seq && within time p.time) history with
  | none => 0
  | some p => p.index

/-- A weight and the time up to which it may count. -/
structure Standing where
  seq : Nat
  time : Nat
  weight : Nat
  limit : Option Nat

/-- The loop of `_credit`, from one weight to the next. -/
def creditLoop (history : List IndexPoint) (lowerEpoch ending : Nat) : List Standing → Nat
  | [] => 0
  | w :: rest =>
    if w.time < ending then
      let cap := match w.limit with
        | none => ending
        | some limit => min ending limit
      let upper := indexBefore history (rest.head?.map Standing.seq) (some cap)
      let lower := max lowerEpoch (indexBefore history (some w.seq) none)
      (if lower < upper then w.weight * (upper - lower) else 0) + creditLoop history lowerEpoch ending rest
    else 0

/-- `_credit` of the window from `start` to `ending`. -/
def credit (history : List IndexPoint) (points : List Standing) (start ending : Nat) : Nat :=
  let lo := passing (fun w => decide (w.time < start)) points
  creditLoop history (indexBefore history none (some start)) ending (points.drop (lo - 1))

/-! Sums over payments. -/

def sumOf (paid : List Payment) (test : Payment → Bool) (worth : Payment → Nat) : Nat :=
  (paid.map fun p => if test p then worth p else 0).sum

@[simp]
theorem sumOf_nil (test : Payment → Bool) (worth : Payment → Nat) : sumOf [] test worth = 0 := rfl

@[simp]
theorem sumOf_cons (p : Payment) (rest : List Payment) (test : Payment → Bool) (worth : Payment → Nat) :
    sumOf (p :: rest) test worth = (if test p then worth p else 0) + sumOf rest test worth := rfl

@[simp]
theorem sumOf_snoc (p : Payment) (paid : List Payment) (test : Payment → Bool) (worth : Payment → Nat) :
    sumOf (paid ++ [p]) test worth = sumOf paid test worth + if test p then worth p else 0 := by
  simp [sumOf]

theorem sumOf_congr {paid : List Payment} {test other : Payment → Bool} {worth also : Payment → Nat}
    (same : ∀ p ∈ paid, (if test p then worth p else 0) = if other p then also p else 0) :
    sumOf paid test worth = sumOf paid other also := by
  rw [sumOf, sumOf]
  congr 1
  exact List.map_congr_left same

theorem sumOf_false {paid : List Payment} {test : Payment → Bool} {worth : Payment → Nat}
    (fails : ∀ p ∈ paid, test p = false) : sumOf paid test worth = 0 := by
  induction paid with
  | nil => rfl
  | cons p rest ih =>
    rw [sumOf_cons, fails p (List.mem_cons_self ..),
      ih (fun other member => fails other (List.mem_cons_of_mem _ member))]
    rfl

theorem sumOf_zero (paid : List Payment) (test : Payment → Bool) : sumOf paid test (fun _ => 0) = 0 := by
  induction paid with
  | nil => rfl
  | cons p rest ih => rw [sumOf_cons, ih, ite_self]

theorem sumOf_mul (paid : List Payment) (test : Payment → Bool) (worth : Payment → Nat) (factor : Nat) :
    factor * sumOf paid test worth = sumOf paid test (fun p => factor * worth p) := by
  induction paid with
  | nil => rfl
  | cons p rest ih =>
    rw [sumOf_cons, sumOf_cons, Nat.mul_add, ih, mul_ite, Nat.mul_zero]

theorem sumOf_add (paid : List Payment) (first second : Payment → Nat) :
    sumOf paid (fun _ => true) (fun p => first p + second p) =
      sumOf paid (fun _ => true) first + sumOf paid (fun _ => true) second := by
  induction paid with
  | nil => rfl
  | cons p rest ih =>
    simp only [sumOf_cons, if_true, ih]
    omega

/-- Where passing payments come first, what one test leaves of another's sum is a sum again. -/
theorem sumOf_sub {paid : List Payment} {upper lower : Payment → Bool} (worth : Payment → Nat)
    (above : Falling upper paid) (below : Falling lower paid) :
    sumOf paid upper worth - sumOf paid lower worth =
      sumOf paid (fun p => upper p && !lower p) worth := by
  induction paid with
  | nil => rfl
  | cons p rest ih =>
    obtain ⟨first, above⟩ := List.pairwise_cons.mp above
    obtain ⟨second, below⟩ := List.pairwise_cons.mp below
    have later := ih above below
    have quiet : ∀ {test : Payment → Bool}, test p = false →
        (∀ other ∈ rest, test other = true → test p = true) → sumOf rest test worth = 0 := by
      intro test fails falls
      apply sumOf_false
      intro other member
      by_contra passes
      rw [falls other member (by simpa using passes)] at fails
      cases fails
    simp only [sumOf_cons]
    cases inUpper : upper p with
    | false =>
      have none := quiet inUpper first
      have none' : sumOf rest (fun p => upper p && !lower p) worth = 0 := by
        rw [← later, none, Nat.zero_sub]
      simp [none, none']
    | true =>
      cases inLower : lower p with
      | false =>
        have none := quiet inLower second
        rw [none, Nat.sub_zero] at later
        simp [none, later]
      | true =>
        simp only [if_true, Bool.not_true, Bool.and_false, Bool.false_eq_true, if_false, Nat.zero_add,
          ← later]
        omega

theorem sumOf_max {paid : List Payment} {left right : Payment → Bool} (worth : Payment → Nat)
    (first : Falling left paid) (second : Falling right paid) :
    max (sumOf paid left worth) (sumOf paid right worth) =
      sumOf paid (fun p => left p || right p) worth := by
  have split := sumOf_sub worth first second
  have whole : sumOf paid (fun p => left p || right p) worth =
      sumOf paid right worth + sumOf paid (fun p => left p && !right p) worth := by
    clear split first second
    induction paid with
    | nil => rfl
    | cons p rest ih =>
      simp only [sumOf_cons, ih]
      cases left p <;> cases right p <;> simp <;> omega
  rw [whole, ← split]
  omega

/-! The index history. -/

/-- The points are the running sums of the payments. -/
inductive Tracks : List IndexPoint → List Payment → Nat → Prop where
  | nil : Tracks [] [] 0
  | snoc {history : List IndexPoint} {paid : List Payment} {index : Nat} (p : Payment)
      (earlier : Tracks history paid index) :
      Tracks (history ++ [⟨p.seq, p.time, index + p.delta⟩]) (paid ++ [p]) (index + p.delta)

theorem Side.credit_tracks {x : Side} (tracks : Tracks x.history x.paid x.index)
    (seq time epoch denominator revision amount : Nat) :
    Tracks (x.credit seq time epoch denominator revision amount).history
      (x.credit seq time epoch denominator revision amount).paid
      (x.credit seq time epoch denominator revision amount).index :=
  .snoc ⟨seq, time, denominator, amount, _⟩ tracks

theorem Tracks.total {history : List IndexPoint} {paid : List Payment} {index : Nat}
    (tracks : Tracks history paid index) : sumOf paid (fun _ => true) Payment.delta = index := by
  induction tracks with
  | nil => rfl
  | snoc p _ ih => rw [sumOf_snoc, ih, if_pos rfl]

/-- Records grow in both stamps. -/
def Rising {α : Type*} (seq time : α → Nat) (records : List α) : Prop :=
  records.Pairwise fun earlier later => seq earlier < seq later ∧ time earlier ≤ time later

/-- Every point stands for a payment of the same stamps. -/
theorem Tracks.stands {history : List IndexPoint} {paid : List Payment} {index : Nat}
    (tracks : Tracks history paid index) {point : IndexPoint} (member : point ∈ history) :
    ∃ p ∈ paid, p.seq = point.seq ∧ p.time = point.time := by
  induction tracks with
  | nil => cases member
  | snoc p _ ih =>
    rcases List.mem_append.mp member with older | new
    · obtain ⟨q, inside, same⟩ := ih older
      exact ⟨q, List.mem_append_left _ inside, same⟩
    · rw [List.mem_singleton.mp new]
      exact ⟨p, List.mem_append_right _ (List.mem_singleton_self p), rfl, rfl⟩

theorem Tracks.rising {history : List IndexPoint} {paid : List Payment} {index : Nat}
    (tracks : Tracks history paid index) (rising : Rising Payment.seq Payment.time paid) :
    Rising IndexPoint.seq IndexPoint.time history := by
  induction tracks with
  | nil => exact .nil
  | snoc p earlier ih =>
    obtain ⟨older, _, last⟩ := List.pairwise_append.mp rising
    refine List.pairwise_append.mpr ⟨ih older, List.pairwise_singleton _ _, ?_⟩
    intro point member other single
    obtain ⟨q, inside, seq, time⟩ := earlier.stands member
    rw [List.mem_singleton.mp single, ← seq, ← time]
    exact last q inside p (List.mem_singleton_self p)

theorem within_mono {bound : Option Nat} {low high : Nat} (order : low ≤ high)
    (inside : within bound high = true) : within bound low = true := by
  cases bound with
  | none => rfl
  | some limit =>
    have := of_decide_eq_true inside
    exact decide_eq_true (by omega)

/-- Below two bounds the earlier records come first. -/
theorem Rising.falling {α : Type*} {seqOf timeOf : α → Nat} {records : List α} (rising : Rising seqOf timeOf records)
    (seq time : Option Nat) : Falling (fun r => within seq (seqOf r) && within time (timeOf r)) records := by
  apply rising.imp
  intro earlier later order passes
  rw [Bool.and_eq_true] at passes ⊢
  exact ⟨within_mono (Nat.le_of_lt order.1) passes.1, within_mono order.2 passes.2⟩

/-- The index below two bounds is the sum of the increments below them. -/
theorem indexBefore_eq {history : List IndexPoint} {paid : List Payment} {index : Nat}
    (tracks : Tracks history paid index) (rising : Rising Payment.seq Payment.time paid) (seq time : Option Nat) :
    indexBefore history seq time =
      sumOf paid (fun p => within seq p.seq && within time p.time) Payment.delta := by
  rw [indexBefore, latest_eq ((tracks.rising rising).falling seq time)]
  induction tracks with
  | nil => rfl
  | @snoc history paid index p earlier ih =>
    have falling := rising.falling seq time
    obtain ⟨older, _, _⟩ := List.pairwise_append.mp rising
    have before := ih older
    simp only [List.filter_append, List.filter_cons, List.filter_nil, sumOf_snoc]
    by_cases passes : (within seq p.seq && within time p.time) = true
    · have all : ∀ q ∈ paid, (within seq q.seq && within time q.time) = true := by
        intro q member
        exact (List.pairwise_append.mp falling).2.2 q member p (List.mem_singleton_self p) passes
      have total : sumOf paid (fun q => within seq q.seq && within time q.time) Payment.delta = index := by
        rw [← earlier.total]
        apply sumOf_congr
        intro q member
        rw [if_pos (all q member), if_pos rfl]
      rw [if_pos passes, if_pos passes, List.getLast?_concat, total]
    · rw [if_neg passes, if_neg passes, List.append_nil, Nat.add_zero]
      exact before

/-! The window. -/

/-- The weight that stands at a sequence number and still counts at a time. -/
def weightAt (points : List Standing) (seq time : Nat) : Nat :=
  match (points.filter fun w => decide (w.seq ≤ seq)).getLast? with
  | none => 0
  | some w => if within w.limit time then w.weight else 0

/-- What a weight, standing until the next one, earns of a payment in the window. -/
def part (start ending : Nat) (p : Payment) (w : Standing) (next : Option Nat) : Nat :=
  if w.seq ≤ p.seq ∧ within next p.seq = true ∧ start ≤ p.time ∧ p.time < ending ∧
      within w.limit p.time = true then w.weight * p.delta else 0

/-- The same loop for one payment. -/
def partLoop (start ending : Nat) (p : Payment) : List Standing → Nat
  | [] => 0
  | w :: rest =>
    if w.time < ending then
      part start ending p w (rest.head?.map Standing.seq) + partLoop start ending p rest
    else 0

variable {history : List IndexPoint} {paid : List Payment} {index : Nat}

/-- What one weight earns in the window is the sum of its parts. -/
theorem term_eq (tracks : Tracks history paid index) (rising : Rising Payment.seq Payment.time paid)
    (start ending : Nat) (w : Standing) (next : Option Nat) :
    (if max (indexBefore history none (some start)) (indexBefore history (some w.seq) none) <
        indexBefore history next (some (match w.limit with
          | none => ending
          | some limit => min ending limit)) then
      w.weight * (indexBefore history next (some (match w.limit with
          | none => ending
          | some limit => min ending limit)) -
        max (indexBefore history none (some start)) (indexBefore history (some w.seq) none)) else 0) =
      sumOf paid (fun _ => true) (fun p => part start ending p w next) := by
  have truncated : ∀ upper lower factor : Nat,
      (if lower < upper then factor * (upper - lower) else 0) = factor * (upper - lower) := by
    intro upper lower factor
    by_cases above : lower < upper
    · rw [if_pos above]
    · rw [if_neg above, Nat.sub_eq_zero_of_le (Nat.le_of_not_lt above), Nat.mul_zero]
  rw [truncated]
  rw [indexBefore_eq tracks rising, indexBefore_eq tracks rising, indexBefore_eq tracks rising]
  rw [sumOf_max _ (rising.falling none (some start)) (rising.falling (some w.seq) none)]
  have either : Falling (fun p : Payment => within none p.seq && within (some start) p.time ||
      within (some w.seq) p.seq && within none p.time) paid := by
    apply rising.imp
    intro earlier later order passes
    simp only [within, Bool.true_and, Bool.and_true, Bool.or_eq_true, decide_eq_true_eq] at passes ⊢
    omega
  rw [sumOf_sub _ (rising.falling next _) either, sumOf_mul]
  apply sumOf_congr
  intro p _
  have cap : within (some (match w.limit with
      | none => ending
      | some limit => min ending limit)) p.time = true ↔ p.time < ending ∧ within w.limit p.time = true := by
    cases w.limit with
    | none => simp [within]
    | some limit => simp [within]
  have inside : (within next p.seq && within (some (match w.limit with
      | none => ending
      | some limit => min ending limit)) p.time && !(within none p.seq && within (some start) p.time ||
        within (some w.seq) p.seq && within none p.time)) = true ↔
      w.seq ≤ p.seq ∧ within next p.seq = true ∧ start ≤ p.time ∧ p.time < ending ∧
        within w.limit p.time = true := by
    rw [Bool.and_eq_true, Bool.and_eq_true, cap]
    simp only [within, Bool.true_and, Bool.and_true, Bool.not_eq_true', Bool.or_eq_false_iff,
      decide_eq_false_iff_not, not_lt]
    constructor
    · rintro ⟨⟨upto, before, counts⟩, from_, after⟩
      exact ⟨after, upto, from_, before, counts⟩
    · rintro ⟨after, upto, from_, before, counts⟩
      exact ⟨⟨upto, before, counts⟩, from_, after⟩
  rw [if_pos rfl, part]
  simp only [inside]

theorem creditLoop_eq (tracks : Tracks history paid index)
    (rising : Rising Payment.seq Payment.time paid) (start ending : Nat) (points : List Standing) :
    creditLoop history (indexBefore history none (some start)) ending points =
      sumOf paid (fun _ => true) (fun p => partLoop start ending p points) := by
  induction points with
  | nil =>
    simp only [creditLoop, partLoop]
    exact (sumOf_zero _ _).symm
  | cons w rest ih =>
    simp only [creditLoop, partLoop]
    by_cases inside : w.time < ending
    · simp only [if_pos inside]
      rw [sumOf_add, ih]
      congr 1
      exact term_eq tracks rising start ending w _
    · simp only [if_neg inside]
      exact (sumOf_zero _ _).symm

/-- The records of an account, in the order of one clock. -/
structure Ordered (clock : Nat → Nat) (points : List Standing) : Prop where
  rising : points.Pairwise fun earlier later => earlier.seq < later.seq
  timed : ∀ w ∈ points, w.time = clock w.seq

variable {clock : Nat → Nat}

theorem Ordered.rest {w : Standing} {points : List Standing} (ordered : Ordered clock (w :: points)) :
    Ordered clock points :=
  ⟨(List.pairwise_cons.mp ordered.rising).2, fun other member => ordered.timed other (List.mem_cons_of_mem _ member)⟩

theorem weightAt_early {points : List Standing} {seq : Nat} (later : ∀ w ∈ points, seq < w.seq)
    (time : Nat) : weightAt points seq time = 0 := by
  have none : points.filter (fun w => decide (w.seq ≤ seq)) = [] := by
    apply List.filter_eq_nil_iff.mpr
    intro w member passes
    have := later w member
    have := of_decide_eq_true passes
    omega
  rw [weightAt, none]
  rfl

theorem weightAt_next {w next : Standing} {rest : List Standing} {seq : Nat} (begun : next.seq ≤ seq)
    (time : Nat) : weightAt (w :: next :: rest) seq time = weightAt (next :: rest) seq time := by
  have own : decide (next.seq ≤ seq) = true := decide_eq_true begun
  rw [weightAt, weightAt, List.filter_cons]
  by_cases first : decide (w.seq ≤ seq) = true
  · simp only [if_pos first, List.filter_cons, own, if_true, List.getLast?_cons_cons]
  · simp only [if_neg first]

theorem weightAt_alone {w : Standing} {rest : List Standing} {seq : Nat}
    (later : ∀ other ∈ rest, seq < other.seq) (time : Nat) :
    weightAt (w :: rest) seq time =
      if w.seq ≤ seq ∧ within w.limit time = true then w.weight else 0 := by
  have none : rest.filter (fun other => decide (other.seq ≤ seq)) = [] := by
    apply List.filter_eq_nil_iff.mpr
    intro other member passes
    have := later other member
    have := of_decide_eq_true passes
    omega
  rw [weightAt, List.filter_cons, none]
  by_cases begun : w.seq ≤ seq
  · simp [begun]
  · simp [begun]

/-- Up to the next weight, only the standing one earns. -/
theorem part_alone {w : Standing} {p : Payment} (own : w.seq ≤ p.seq → w.time ≤ p.time)
    {next : Option Nat} (upto : within next p.seq = true) (start ending : Nat) :
    (if w.time < ending then part start ending p w next else 0) =
      if start ≤ p.time ∧ p.time < ending then
        (if w.seq ≤ p.seq ∧ within w.limit p.time = true then w.weight else 0) * p.delta else 0 := by
  by_cases counts : w.seq ≤ p.seq ∧ within w.limit p.time = true
  · have order := own counts.1
    by_cases window : start ≤ p.time ∧ p.time < ending
    · rw [if_pos (by omega), if_pos window, if_pos counts, part,
        if_pos ⟨counts.1, upto, window.1, window.2, counts.2⟩]
    · have none : part start ending p w next = 0 :=
        if_neg (fun all => window ⟨all.2.2.1, all.2.2.2.1⟩)
      rw [if_neg window, none, ite_self]
  · have none : part start ending p w next = 0 := if_neg (fun all => counts ⟨all.1, all.2.2.2.2⟩)
    rw [if_neg counts, Nat.zero_mul, ite_self, none, ite_self]

/-- Of one payment an account earns what its standing weight gets, if it is in the window. -/
theorem partLoop_eq (mono : Monotone clock) {points : List Standing} (ordered : Ordered clock points)
    {p : Payment} (timed : p.time = clock p.seq) (start ending : Nat) :
    partLoop start ending p points =
      if start ≤ p.time ∧ p.time < ending then weightAt points p.seq p.time * p.delta else 0 := by
  have before : ∀ w ∈ points, w.seq ≤ p.seq → w.time ≤ p.time := by
    intro w member order
    rw [ordered.timed w member, timed]
    exact mono order
  induction points with
  | nil => simp [partLoop, weightAt]
  | cons w rest ih =>
    obtain ⟨first, _⟩ := List.pairwise_cons.mp ordered.rising
    have own := before w (List.mem_cons_self ..)
    have later := ih ordered.rest (fun other member => before other (List.mem_cons_of_mem _ member))
    rw [partLoop, later]
    cases rest with
    | nil =>
      rw [weightAt_alone (fun other member => by cases member)]
      have last : within none p.seq = true := rfl
      have alone := part_alone own last start ending
      simpa [weightAt] using alone
    | cons next rest =>
      by_cases begun : next.seq ≤ p.seq
      · -- the weight was replaced before the payment
        rw [weightAt_next begun]
        have behind := first next (List.mem_cons_self ..)
        have earlier := own (by omega)
        have ended : part start ending p w ((next :: rest).head?.map Standing.seq) = 0 := by
          rw [part, if_neg]
          rintro ⟨_, upto, _⟩
          have := of_decide_eq_true upto
          omega
        rw [ended, Nat.zero_add]
        by_cases window : start ≤ p.time ∧ p.time < ending
        · rw [if_pos (by omega)]
        · rw [if_neg window, ite_self]
      · -- and no later one stands yet
        have ahead : ∀ other ∈ next :: rest, p.seq < other.seq := by
          intro other member
          have rises := (List.pairwise_cons.mp ordered.rest.rising).1
          rcases List.mem_cons.mp member with rfl | beyond
          · omega
          · have := rises other beyond
            omega
        rw [weightAt_early ahead, Nat.zero_mul, ite_self, Nat.add_zero, weightAt_alone ahead]
        have upto : within ((next :: rest).head?.map Standing.seq) p.seq = true :=
          decide_eq_true (Nat.lt_of_not_le begun)
        exact part_alone own upto start ending

/-- Where the search starts late enough, the weight at a number is found behind it. -/
theorem weightAt_drop {points : List Standing} (ordered : Ordered clock points) {n : Nat} {w : Standing}
    (found : points[n]? = some w) {seq : Nat} (begun : w.seq ≤ seq) (time : Nat) :
    weightAt (points.drop n) seq time = weightAt points seq time := by
  induction points generalizing n with
  | nil => rw [List.drop_nil]
  | cons first rest ih =>
    cases n with
    | zero => rfl
    | succ n =>
      rw [List.getElem?_cons_succ] at found
      rw [List.drop_succ_cons, ih ordered.rest found]
      cases rest with
      | nil => cases found
      | cons next rest =>
        have early : next.seq ≤ seq := by
          have rises := (List.pairwise_cons.mp ordered.rest.rising).1
          rcases List.mem_cons.mp (List.mem_of_getElem? found) with rfl | later
          · exact begun
          · have := rises w later
            omega
        rw [weightAt_next early]

/-- The lazy credit of a window is the replay of its payments. -/
theorem credit_eq (tracks : Tracks history paid index) (rising : Rising Payment.seq Payment.time paid)
    (mono : Monotone clock) (timed : ∀ p ∈ paid, p.time = clock p.seq) {points : List Standing}
    (ordered : Ordered clock points) (start ending : Nat) :
    credit history points start ending =
      sumOf paid (fun p => decide (start ≤ p.time ∧ p.time < ending))
        (fun p => weightAt points p.seq p.time * p.delta) := by
  have falling : Falling (fun w : Standing => decide (w.time < start)) points := by
    apply List.Pairwise.imp_of_mem _ ordered.rising
    intro earlier later first second order passes
    have := of_decide_eq_true passes
    have before : earlier.time ≤ later.time := by
      rw [ordered.timed earlier first, ordered.timed later second]
      exact mono (Nat.le_of_lt order)
    exact decide_eq_true (by omega)
  obtain ⟨bound, split⟩ := passing_spec falling
  rw [credit, creditLoop_eq tracks rising]
  generalize passing (fun w : Standing => decide (w.time < start)) points = lo at bound split
  apply sumOf_congr
  intro p member
  have dropped : Ordered clock (points.drop (lo - 1)) :=
    ⟨ordered.rising.sublist (List.drop_sublist _ _),
      fun w inside => ordered.timed w (List.mem_of_mem_drop inside)⟩
  rw [if_pos rfl, partLoop_eq mono dropped (timed p member)]
  by_cases window : start ≤ p.time ∧ p.time < ending
  · rw [if_pos window, if_pos (decide_eq_true window)]
    congr 1
    by_cases none : lo = 0
    · rw [none]
      rfl
    · have inside : lo - 1 < points.length := by omega
      have past := of_decide_eq_true ((split (lo - 1) inside).mpr (by omega))
      have found := List.getElem?_eq_getElem inside
      apply weightAt_drop ordered found
      -- it was set before the window, so before the payment
      by_contra behind
      have order := mono (Nat.le_of_lt (Nat.lt_of_not_le behind))
      rw [← timed p member, ← ordered.timed _ (List.getElem_mem inside)] at order
      omega
  · rw [if_neg window, if_neg (by simpa using window)]

/-! Everybody together. -/

variable {ι : Type*}

/-- All accounts together earn what the payments of a window gave out. -/
theorem replay_sums (paid : List Payment) (test : Payment → Bool) (weight : Payment → ι → Nat)
    (whole : ∀ p ∈ paid, Totals (weight p) p.denominator) :
    Totals (fun a => sumOf paid test (fun p => weight p a * p.delta))
      (sumOf paid test (fun p => p.denominator * p.delta)) := by
  induction paid with
  | nil => exact Totals.zero
  | cons p rest ih =>
    have later := ih (fun other member => whole other (List.mem_cons_of_mem _ member))
    have own := (whole p (List.mem_cons_self ..)).scale p.delta
    simp only [sumOf_cons]
    by_cases passes : test p = true
    · simp only [if_pos passes]
      exact own.add later
    · simp only [if_neg passes, Nat.zero_add]
      exact later

/-! What a step gives out. -/

/-- The remainder that still belongs to an epoch. -/
def Side.live (x : Side) (epoch : Nat) : Nat := if x.epoch = epoch then x.remainder else 0

/-- What a side gave out in an epoch. -/
def Side.out (x : Side) (inEpoch : Nat → Payment → Bool) (epoch : Nat) : Nat :=
  sumOf x.paid (inEpoch epoch) (fun p => p.denominator * p.delta)

/-- A step gives out its amount, but for the remainders before and after it. -/
theorem Side.credit_out (x : Side) {inEpoch : Nat → Payment → Bool} (seq time epoch : Nat)
    (inside : ∀ denominator amount delta e, inEpoch e ⟨seq, time, denominator, amount, delta⟩ = decide (epoch = e))
    (denominator revision amount e : Nat) :
    (x.credit seq time epoch denominator revision amount).out inEpoch e +
        (x.credit seq time epoch denominator revision amount).live e +
        (if x.epoch = e then x.frozen denominator revision epoch else 0) =
      x.out inEpoch e + x.live e + if epoch = e then amount else 0 := by
  have split : ∀ numerator, denominator * (numerator / denominator) + numerator % denominator =
      numerator := fun numerator => Nat.div_add_mod numerator denominator
  simp only [Side.credit, Side.out, Side.live, Side.frozen, sumOf_snoc, inside, decide_eq_true_eq]
  by_cases old : x.stale denominator revision epoch
  · have whole := split (amount + 0)
    simp only [if_pos old]
    by_cases here : epoch = e
    · simp only [if_pos here]
      omega
    · simp only [if_neg here]
      omega
  · have whole := split (amount + x.remainder)
    have same : x.epoch = epoch := by
      by_contra other
      exact old (.inr (.inr other))
    simp only [if_neg old, same, ite_self, Nat.add_zero]
    by_cases here : epoch = e
    · simp only [if_pos here]
      omega
    · simp only [if_neg here]

end Solonpad.IndexedCredit
