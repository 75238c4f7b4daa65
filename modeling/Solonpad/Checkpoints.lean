import Mathlib.Data.List.Basic
import Mathlib.Tactic.Common

/-!
A history of stamped records, read by bisection. The array only grows at its end, and a record
written at the stamp of the last one replaces it. `latest test` halves an interval until it stands
behind the last record that passes the test; where passing records come first, that is the last
record of the filtered history, so a reader never sees the bisection.
-/

namespace Solonpad.Checkpoints

variable {α : Type*} {test : α → Bool} {history : List α} {bound : Nat} {new : α}

/-- `while (lo < hi)`: the first index in `[lo, hi)` whose entry fails, or `hi`. Each round takes one
unit of fuel. -/
def bisect (passes : Nat → Bool) : Nat → Nat → Nat → Nat
  | 0, lo, _ => lo
  | fuel + 1, lo, hi =>
    if lo < hi then
      let mid := (lo + hi) / 2
      if passes mid then bisect passes fuel (mid + 1) hi else bisect passes fuel lo mid
    else lo

/-- The fuel of the interval's length is enough: the search ends where passing entries do. -/
theorem bisect_spec (passes : Nat → Bool) (fuel lo hi : Nat) (bound : lo ≤ hi) (enough : hi - lo ≤ fuel)
    (falling : ∀ i j, lo ≤ i → i ≤ j → j < hi → passes j = true → passes i = true) :
    lo ≤ bisect passes fuel lo hi ∧ bisect passes fuel lo hi ≤ hi ∧
      ∀ i, lo ≤ i → i < hi → (passes i = true ↔ i < bisect passes fuel lo hi) := by
  induction fuel generalizing lo hi with
  | zero =>
    simp only [bisect]
    exact ⟨Nat.le_refl lo, bound, fun i above below => by omega⟩
  | succ fuel ih =>
    unfold bisect
    by_cases inside : lo < hi
    · simp only [if_pos inside]
      cases passed : passes ((lo + hi) / 2) with
      | true =>
        simp only [if_true]
        obtain ⟨above, below, exact_⟩ := ih ((lo + hi) / 2 + 1) hi (by omega) (by omega)
          (fun i j first second third => falling i j (by omega) second third)
        refine ⟨by omega, below, ?_⟩
        intro i low high
        by_cases later : (lo + hi) / 2 + 1 ≤ i
        · exact exact_ i later high
        · have passes_i := falling i ((lo + hi) / 2) low (by omega) (by omega) passed
          simp only [passes_i, true_iff]
          omega
      | false =>
        simp only [Bool.false_eq_true, if_false]
        obtain ⟨above, below, exact_⟩ := ih lo ((lo + hi) / 2) (by omega) (by omega)
          (fun i j first second third => falling i j first second (by omega))
        refine ⟨above, by omega, ?_⟩
        intro i low high
        by_cases earlier : i < (lo + hi) / 2
        · exact exact_ i low earlier
        · have fails : passes i ≠ true := by
            intro passes_i
            rw [falling ((lo + hi) / 2) i (by omega) (by omega) high passes_i] at passed
            cases passed
          constructor
          · exact fun passes_i => absurd passes_i fails
          · intro below
            omega
    · simp only [if_neg inside]
      exact ⟨Nat.le_refl lo, bound, fun i above below => by omega⟩

/-- How many leading records pass, found by bisection. -/
def passing (test : α → Bool) (history : List α) : Nat :=
  bisect (fun i => (history[i]?).any test) history.length 0 history.length

/-- The last record that passes, by bisection; none where the first one fails. -/
def latest (test : α → Bool) (history : List α) : Option α :=
  if passing test history = 0 then none else history[passing test history - 1]?

/-- Passing records come first. -/
def Falling (test : α → Bool) (history : List α) : Prop :=
  history.Pairwise fun earlier later => test later = true → test earlier = true

theorem Falling.take_filter (falling : Falling test history) :
    ∀ i, i ≤ history.length → (∀ j (inside : j < history.length), test history[j] = true ↔ j < i) →
      history.filter test = history.take i := by
  induction history with
  | nil =>
    intro i _ _
    simp
  | cons head rest ih =>
    intro i bound split
    obtain ⟨first, later⟩ := List.pairwise_cons.mp falling
    cases i with
    | zero =>
      have fails : ∀ record ∈ head :: rest, ¬ test record = true := by
        intro record member
        obtain ⟨j, inside, rfl⟩ := List.mem_iff_getElem.mp member
        rw [split j inside]
        exact Nat.not_lt_zero j
      rw [List.filter_eq_nil_iff.mpr fails, List.take_zero]
    | succ i =>
      have passes : test head = true := (split 0 (Nat.succ_pos _)).mpr (Nat.succ_pos _)
      rw [List.filter_cons_of_pos passes, List.take_succ_cons]
      congr 1
      apply ih later i (Nat.le_of_succ_le_succ bound)
      intro j inside
      have shifted := split (j + 1) (Nat.succ_lt_succ inside)
      simpa using shifted

theorem passing_spec (falling : Falling test history) :
    passing test history ≤ history.length ∧
      ∀ j (inside : j < history.length), test history[j] = true ↔ j < passing test history := by
  have found := bisect_spec (fun i => (history[i]?).any test) history.length 0 history.length
    (Nat.zero_le _) (Nat.sub_le _ _) (by
      intro i j _ below inside passed
      have before : i < history.length := by omega
      simp only [List.getElem?_eq_getElem inside, List.getElem?_eq_getElem before,
        Option.any_some] at passed ⊢
      rcases Nat.lt_or_eq_of_le below with earlier | rfl
      · exact List.pairwise_iff_getElem.mp falling i j before inside earlier passed
      · exact passed)
  refine ⟨found.2.1, ?_⟩
  intro j inside
  have known := found.2.2 j (Nat.zero_le _) inside
  rwa [List.getElem?_eq_getElem inside, Option.any_some] at known

/-- Bisection finds the last record that passes. -/
theorem latest_eq (falling : Falling test history) : latest test history = (history.filter test).getLast? := by
  obtain ⟨bound, split⟩ := passing_spec falling
  rw [falling.take_filter _ bound split, latest]
  by_cases none : passing test history = 0
  · simp [none]
  · rw [if_neg none, List.getLast?_eq_getElem?, List.length_take, List.getElem?_take]
    rw [if_pos (by omega), Nat.min_eq_left bound]

/-! Histories in the order of a stamp. -/

variable (stamp : α → Nat)

/-- A record at the stamp of the last one replaces it. -/
def record (history : List α) (new : α) : List α :=
  match history.getLast? with
  | some last => if stamp last = stamp new then history.dropLast ++ [new] else history ++ [new]
  | none => history ++ [new]

/-- Stamps grow strictly along the history and stay within a bound. -/
structure Stamped (history : List α) (bound : Nat) : Prop where
  rising : history.Pairwise fun earlier later => stamp earlier < stamp later
  within : ∀ entry ∈ history, stamp entry ≤ bound

/-- The last record stamped before a limit. -/
def before (history : List α) (limit : Nat) : Option α :=
  latest (fun entry => stamp entry < limit) history

variable {stamp}

theorem Stamped.empty (bound : Nat) : Stamped stamp ([] : List α) bound :=
  ⟨.nil, fun _ member => by cases member⟩

theorem Stamped.later {other : Nat} (stamped : Stamped stamp history bound) (later : bound ≤ other) :
    Stamped stamp history other :=
  ⟨stamped.rising, fun entry member => Nat.le_trans (stamped.within entry member) later⟩

theorem Stamped.falling (stamped : Stamped stamp history bound) (limit : Nat) :
    Falling (fun entry => decide (stamp entry < limit)) history := by
  apply stamped.rising.imp
  intro earlier later below passed
  have := of_decide_eq_true passed
  exact decide_eq_true (by omega)

/-- A record leaves the history a push would leave, without a last record of the same stamp. -/
theorem record_eq (history : List α) (new : α) (stamped : Stamped stamp history (stamp new)) :
    record stamp history new = history.filter (fun entry => stamp entry < stamp new) ++ [new] := by
  unfold record
  rcases List.eq_nil_or_concat history with rfl | ⟨front, last, rfl⟩
  · rfl
  · rw [List.concat_eq_append] at stamped ⊢
    have least := List.pairwise_append.mp stamped.rising
    have earlier : ∀ entry ∈ front, stamp entry < stamp new := by
      intro entry member
      have below := least.2.2 entry member last (List.mem_singleton_self _)
      have bound := stamped.within last (List.mem_append_right _ (List.mem_singleton_self _))
      omega
    have kept : front.filter (fun entry => decide (stamp entry < stamp new)) = front :=
      List.filter_eq_self.mpr (fun entry member => decide_eq_true (earlier entry member))
    have bound := stamped.within last (List.mem_append_right _ (List.mem_singleton_self _))
    simp only [List.getLast?_append, List.getLast?_singleton, List.filter_append, kept]
    by_cases same : stamp last = stamp new
    · simp [same]
    · have less : stamp last < stamp new := by omega
      simp [same, less]

theorem Stamped.record (stamped : Stamped stamp history (stamp new)) :
    Stamped stamp (record stamp history new) (stamp new) := by
  rw [record_eq history new stamped]
  constructor
  · apply List.pairwise_append.mpr
    refine ⟨stamped.rising.filter _, List.pairwise_singleton _ _, ?_⟩
    intro entry member last only
    rw [List.mem_singleton.mp only]
    exact of_decide_eq_true (List.mem_filter.mp member).2
  · intro entry member
    rcases List.mem_append.mp member with earlier | only
    · exact stamped.within entry (List.mem_filter.mp earlier).1
    · obtain rfl := List.mem_singleton.mp only
      exact Nat.le_refl _

/-- The one rule of a history: a new record answers the limits beyond its stamp, and nothing else
changes. -/
theorem before_record (stamped : Stamped stamp history (stamp new)) (limit : Nat) :
    before stamp (Checkpoints.record stamp history new) limit =
      if stamp new < limit then some new else before stamp history limit := by
  have after := stamped.record
  rw [before, latest_eq (after.falling limit), before, latest_eq (stamped.falling limit),
    record_eq history new stamped, List.filter_append]
  by_cases beyond : stamp new < limit
  · simp [beyond]
  · have same : (history.filter fun entry => decide (stamp entry < stamp new)).filter
        (fun entry => decide (stamp entry < limit)) =
          history.filter (fun entry => decide (stamp entry < limit)) := by
      rw [List.filter_filter]
      apply List.filter_congr
      intro entry _
      simp only [Bool.and_eq_decide, decide_eq_true_eq, decide_eq_decide]
      omega
    simp [beyond, same]

theorem mem_record {entry : α} (member : entry ∈ Checkpoints.record stamp history new) :
    entry ∈ history ∨ entry = new := by
  have pushed : ∀ front : List α, (∀ e ∈ front, e ∈ history) → entry ∈ front ++ [new] →
      entry ∈ history ∨ entry = new := by
    intro front inside found
    rcases List.mem_append.mp found with older | only
    · exact .inl (inside entry older)
    · exact .inr (List.mem_singleton.mp only)
  unfold Checkpoints.record at member
  split at member
  · split at member
    · exact pushed _ (fun e kept => (List.dropLast_sublist history).subset kept) member
    · exact pushed _ (fun e kept => kept) member
  · exact pushed _ (fun e kept => kept) member

theorem getLast_record (stamp : α → Nat) (history : List α) (new : α) :
    (Checkpoints.record stamp history new).getLast? = some new := by
  unfold Checkpoints.record
  split
  · split <;> simp
  · simp

/-- A history never forgets when it began. -/
theorem head_record (stamp : α → Nat) (history : List α) (new : α) :
    ((Checkpoints.record stamp history new).head?.map stamp) =
      some ((history.head?.map stamp).getD (stamp new)) := by
  unfold Checkpoints.record
  rcases List.eq_nil_or_concat history with rfl | ⟨front, last, rfl⟩
  · rfl
  · rw [List.concat_eq_append, List.getLast?_append, List.getLast?_singleton]
    by_cases same : stamp last = stamp new
    · simp only [Option.some_or, if_pos same, List.dropLast_concat]
      cases front with
      | nil => simp [same]
      | cons first rest => simp
    · cases front with
      | nil => simp [same]
      | cons first rest => simp [same]

/-- Beyond all stamps the last record answers. -/
theorem before_beyond (stamped : Stamped stamp history bound) {limit : Nat} (beyond : bound < limit) :
    before stamp history limit = history.getLast? := by
  rw [before, latest_eq (stamped.falling limit), List.filter_eq_self.mpr]
  intro entry member
  have := stamped.within entry member
  exact decide_eq_true (by omega)

theorem before_some (stamped : Stamped stamp history bound) {limit : Nat} {entry : α}
    (found : before stamp history limit = some entry) : entry ∈ history ∧ stamp entry < limit := by
  rw [before, latest_eq (stamped.falling limit)] at found
  have member := List.mem_filter.mp (List.mem_of_getLast? found)
  exact ⟨member.1, of_decide_eq_true member.2⟩

end Solonpad.Checkpoints
