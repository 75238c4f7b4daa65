import Solonpad.StakingV2

/-!
A lane's book as a replay of its log. What a notification gives out at once and what an event
releases from the carry go to different indices, so the two kinds of steps may be taken in any
order: a book that read its whole log is the one that took every event as it was logged. Each step
moves what it gives out between a budget, an index, the dust and the carry.
-/

namespace Solonpad.Staking

open Checked CarryStream Eligibility IndexedCredit RunningTotal
open Chain (Address)

/-- What was notified with an event is given out at once. -/
def Book.noted (b : Book) (e : CarryEvent) : Book :=
  if e.direct27 ≠ 0 then b.distribute e.seq e.time e.denominator e.revision e.direct27 else b

/-- Each event taken when it is logged: its direct part, then its checkpoint. -/
def eager : List CarryEvent → Book → Tx Book
  | [], b => pure b
  | e :: rest, b => do
    let (b, _) ← (b.noted e).absorb e
    eager rest b

def absorbAll : List CarryEvent → Book → Tx Book
  | [], b => pure b
  | e :: rest, b => do
    let (b, _) ← b.absorb e
    absorbAll rest b

def notedAll (log : List CarryEvent) (b : Book) : Book := log.foldl Book.noted b

/-- A book made by logging and reading: which events were logged, and which of them were read. -/
inductive Replays : List CarryEvent → List CarryEvent → Book → Prop where
  | empty : Replays [] [] Book.empty
  | logs {log consumed : List CarryEvent} {b : Book} (e : CarryEvent) (earlier : Replays log consumed b) :
      Replays (log ++ [e]) consumed (b.noted e)
  | reads {log consumed : List CarryEvent} {b after : Book} {unlocked : Nat} (e : CarryEvent)
      (earlier : Replays log consumed b) (read : b.absorb e = .ok (after, unlocked)) :
      Replays log (consumed ++ [e]) after

variable {log consumed : List CarryEvent} {b after : Book} {e : CarryEvent} {unlocked : Nat} {given : Nat}

/-! The order of steps. -/

theorem added_comm (table : Nat → Nat) (a b x y : Nat) :
    Function.update (Function.update table a (table a + x)) b
        (Function.update table a (table a + x) b + y) =
      Function.update (Function.update table b (table b + y)) a
        (Function.update table b (table b + y) a + x) := by
  funext i
  by_cases first : i = a
  · subst first
    by_cases second : i = b
    · subst second
      simp only [Function.update_self]
      omega
    · simp [Function.update_of_ne second, Function.update_of_ne (Ne.symm second)]
  · by_cases second : i = b
    · subst second
      simp [Function.update_of_ne first, Function.update_of_ne (Ne.symm first)]
    · simp [Function.update_of_ne first, Function.update_of_ne second]

/-- The two indices are apart, and dust and budgets only add up. -/
theorem release_distribute (b : Book) (e : CarryEvent) (unlocked seq time denominator revision amount : Nat) :
    (b.distribute seq time denominator revision amount).release e unlocked =
      (b.release e unlocked).distribute seq time denominator revision amount := by
  simp only [Book.release, Book.distribute, Book.mk.injEq, true_and]
  exact ⟨added_comm _ _ _ _ _, added_comm _ _ _ _ _⟩

theorem noted_release (b : Book) (e other : CarryEvent) (unlocked : Nat) :
    (b.noted other).release e unlocked = (b.release e unlocked).noted other := by
  rw [Book.noted, Book.noted]
  by_cases some : other.direct27 ≠ 0
  · rw [if_pos some, if_pos some, release_distribute]
  · rw [if_neg some, if_neg some]

theorem noted_stream (b : Book) (other : CarryEvent) : (b.noted other).stream = b.stream := by
  rw [Book.noted]
  split
  · rfl
  · rfl

theorem noted_with (b : Book) (other : CarryEvent) (stream : Stream) :
    { b.noted other with stream := stream } = { b with stream := stream }.noted other := by
  rw [Book.noted, Book.noted]
  by_cases some : other.direct27 ≠ 0
  · rw [if_pos some, if_pos some]
    rfl
  · rw [if_neg some, if_neg some]

/-- What an event unlocks, and what its reading leaves. -/
theorem absorb_ok (read : b.absorb e = .ok (after, unlocked)) :
    ∃ stream, checkpointCarry b.stream e = .ok (stream, unlocked) ∧
      (unlocked ≠ 0 ∧ e.denominator ≠ 0 ∧ after = { b with stream := stream }.release e unlocked ∨
        unlocked = 0 ∧ after = { b with stream := stream }) := by
  simp only [Book.absorb, bind_ok, ite_ok, require_ok, pure_ok, Prod.mk.injEq] at read
  obtain ⟨⟨stream, amount⟩, checked, ⟨some, _, positive, rfl, rfl⟩ | ⟨none, rfl, rfl⟩⟩ := read
  · exact ⟨stream, checked, .inl ⟨some, positive, rfl⟩⟩
  · exact ⟨stream, checked, .inr ⟨by simpa using none, rfl⟩⟩

/-- Reading an event does not depend on what was given out at once. -/
theorem absorb_noted (other : CarryEvent) (read : b.absorb e = .ok (after, unlocked)) :
    (b.noted other).absorb e = .ok (after.noted other, unlocked) := by
  obtain ⟨stream, checked, branch⟩ := absorb_ok read
  rw [Book.absorb, noted_stream, checked]
  rcases branch with ⟨some, positive, rfl⟩ | ⟨rfl, rfl⟩
  · simp only [bind, Except.bind, if_pos some, require, if_pos positive, pure, Except.pure]
    rw [noted_with, noted_release]
  · simp only [bind, Except.bind, ne_eq, not_true_eq_false, if_false, pure, Except.pure]
    rw [noted_with]

theorem absorb_notedAll (log : List CarryEvent) (read : b.absorb e = .ok (after, unlocked)) :
    (notedAll log b).absorb e = .ok (notedAll log after, unlocked) := by
  induction log generalizing b after with
  | nil => exact read
  | cons other rest ih => exact ih (absorb_noted other read)

theorem absorbAll_noted (other : CarryEvent) (done : absorbAll consumed b = .ok after) :
    absorbAll consumed (b.noted other) = .ok (after.noted other) := by
  induction consumed generalizing b with
  | nil =>
    cases done
    rfl
  | cons e rest ih =>
    simp only [absorbAll, bind_ok] at done ⊢
    obtain ⟨⟨next, unlocked⟩, read, done⟩ := done
    exact ⟨_, absorb_noted other read, ih done⟩

theorem absorbAll_snoc {middle : Book} (done : absorbAll consumed b = .ok middle)
    (read : middle.absorb e = .ok (after, unlocked)) : absorbAll (consumed ++ [e]) b = .ok after := by
  induction consumed generalizing b with
  | nil =>
    cases done
    simp only [List.nil_append, absorbAll, bind_ok, pure_ok]
    exact ⟨_, read, rfl⟩
  | cons first rest ih =>
    simp only [List.cons_append, absorbAll, bind_ok] at done ⊢
    obtain ⟨next, first, done⟩ := done
    exact ⟨next, first, ih done⟩

theorem notedAll_stream (log : List CarryEvent) (b : Book) : (notedAll log b).stream = b.stream := by
  induction log generalizing b with
  | nil => rfl
  | cons other rest ih =>
    have later := ih (b.noted other)
    rwa [noted_stream] at later

/-- Whether an event can be read depends on the stream alone. -/
theorem absorb_accepts {other : Book} (same : other.stream = b.stream)
    (read : other.absorb e = .ok (after, unlocked)) : ∃ own, b.absorb e = .ok (own, unlocked) := by
  obtain ⟨stream, checked, branch⟩ := absorb_ok read
  rw [same] at checked
  rw [Book.absorb, checked]
  rcases branch with ⟨some, positive, _⟩ | ⟨rfl, _⟩
  · refine ⟨{ b with stream := stream }.release e unlocked, ?_⟩
    simp only [bind, Except.bind, if_pos some, require, if_pos positive, pure, Except.pure]
  · exact ⟨_, rfl⟩

/-- First all that was given out at once, then all that was read, is the same as event by event. -/
theorem eager_split (done : absorbAll log (notedAll log b) = .ok after) : eager log b = .ok after := by
  induction log generalizing b with
  | nil => exact done
  | cons e rest ih =>
    simp only [absorbAll, eager, bind_ok] at done ⊢
    obtain ⟨⟨next, unlocked⟩, read, done⟩ := done
    change (notedAll rest (b.noted e)).absorb e = .ok (next, unlocked) at read
    obtain ⟨own, early⟩ := absorb_accepts (notedAll_stream rest (b.noted e)) read
    have same := absorb_notedAll rest early
    rw [read] at same
    cases same
    exact ⟨_, early, ih done⟩

theorem Replays.absorbed (replays : Replays log consumed b) : absorbAll consumed (notedAll log Book.empty) = .ok b := by
  induction replays with
  | empty => rfl
  | logs e _ ih =>
    rw [notedAll, List.foldl_append]
    exact absorbAll_noted e ih
  | reads e _ read ih => exact absorbAll_snoc ih read

/-- A book that read its whole log took every event as it was logged. -/
theorem Replays.eager_ok (replays : Replays log log b) : eager log Book.empty = .ok b :=
  eager_split replays.absorbed

/-! What a step gives out. -/

/-- Whether a payment was made in an epoch. -/
def inEpoch (epoch : Nat) (p : Payment) : Bool :=
  decide (epoch * day ≤ p.time ∧ p.time < (epoch + 1) * day)

theorem inEpoch_iff (epoch : Nat) (p : Payment) : inEpoch epoch p = decide (p.time / day = epoch) := by
  have same : (epoch * day ≤ p.time ∧ p.time < (epoch + 1) * day) ↔ p.time / day = epoch := by
    rw [day]
    omega
  simp only [inEpoch, same]

/-- In each epoch, what the indices gave out, the dust and the live remainders are the credits. -/
structure Conserved (b : Book) : Prop where
  direct : Tracks b.direct.history b.direct.paid b.direct.index
  carried : Tracks b.carried.history b.carried.paid b.carried.index
  epochs : ∀ e, b.direct.out inEpoch e + b.carried.out inEpoch e + b.dust27 e +
    (b.direct.live e + b.carried.live e) = b.creditTotal27 e

theorem Conserved.distribute (conserved : Conserved b) (seq time denominator revision amount : Nat) :
    Conserved (b.distribute seq time denominator revision amount) := by
  obtain ⟨direct, carried, epochs⟩ := conserved
  refine ⟨Side.credit_tracks direct _ _ _ _ _ _, carried, ?_⟩
  intro e
  have before := epochs e
  have out := b.direct.credit_out seq time (time / day) (fun _ _ _ e => inEpoch_iff e _)
    denominator revision amount e
  simp only [Book.distribute]
  by_cases old : b.direct.epoch = e
  · subst old
    simp only [Function.update_self, if_true] at out ⊢
    by_cases here : time / day = b.direct.epoch
    · simp only [here, Function.update_self, if_true] at out ⊢
      omega
    · simp only [Function.update_of_ne (Ne.symm here), here, if_false] at out ⊢
      omega
  · simp only [Function.update_of_ne (Ne.symm old), old, if_false] at out ⊢
    by_cases here : time / day = e
    · subst here
      simp only [Function.update_self, if_true] at out ⊢
      omega
    · simp only [Function.update_of_ne (Ne.symm here), here, if_false] at out ⊢
      omega

theorem Conserved.release (conserved : Conserved b) (e : CarryEvent) (unlocked : Nat) :
    Conserved (b.release e unlocked) := by
  obtain ⟨direct, carried, epochs⟩ := conserved
  refine ⟨direct, Side.credit_tracks carried _ _ _ _ _ _, ?_⟩
  intro epoch
  have before := epochs epoch
  have out := b.carried.credit_out e.seq e.time (e.time / day) (fun _ _ _ e => inEpoch_iff e _)
    e.denominator e.revision unlocked epoch
  simp only [Book.release]
  by_cases old : b.carried.epoch = epoch
  · subst old
    simp only [Function.update_self, if_true] at out ⊢
    by_cases here : e.time / day = b.carried.epoch
    · simp only [here, Function.update_self, if_true] at out ⊢
      omega
    · simp only [Function.update_of_ne (Ne.symm here), here, if_false] at out ⊢
      omega
  · simp only [Function.update_of_ne (Ne.symm old), old, if_false] at out ⊢
    by_cases here : e.time / day = epoch
    · subst here
      simp only [Function.update_self, if_true] at out ⊢
      omega
    · simp only [Function.update_of_ne (Ne.symm here), here, if_false] at out ⊢
      omega

theorem Conserved.noted (conserved : Conserved b) (e : CarryEvent) : Conserved (b.noted e) := by
  rw [Book.noted]
  split
  · exact conserved.distribute _ _ _ _ _
  · exact conserved

theorem Conserved.absorb (conserved : Conserved b) (read : b.absorb e = .ok (after, unlocked)) : Conserved after := by
  obtain ⟨stream, _, ⟨_, _, rfl⟩ | ⟨_, rfl⟩⟩ := absorb_ok read
  · apply Conserved.release
    exact ⟨conserved.direct, conserved.carried, conserved.epochs⟩
  · exact ⟨conserved.direct, conserved.carried, conserved.epochs⟩

theorem Conserved.empty : Conserved Book.empty := by
  refine ⟨.nil, .nil, ?_⟩
  intro e
  simp only [Book.empty, Side.empty, Side.out, Side.live]
  by_cases zero : 0 = e
  · subst zero
    rfl
  · simp [zero]

theorem Replays.conserved (replays : Replays log consumed b) : Conserved b := by
  induction replays with
  | empty => exact .empty
  | logs e _ ih => exact ih.noted e
  | reads e _ read ih => exact ih.absorb read

/-! Where the money is. -/

def total (worth : CarryEvent → Nat) (log : List CarryEvent) : Nat := (log.map worth).sum

@[simp]
theorem total_nil (worth : CarryEvent → Nat) : total worth [] = 0 := rfl

@[simp]
theorem total_snoc (worth : CarryEvent → Nat) (log : List CarryEvent) (e : CarryEvent) :
    total worth (log ++ [e]) = total worth log + worth e := by
  simp [total]

theorem total_append (worth : CarryEvent → Nat) (first second : List CarryEvent) :
    total worth (first ++ second) = total worth first + total worth second := by
  simp [total]

/-- What a checkpoint unlocks leaves the stream, and its deposit enters. -/
theorem checkpointCarry_held {stream next : Stream} (done : checkpointCarry stream e = .ok (next, unlocked))
    (covered : stream.released ≤ stream.deposited) :
    next.released ≤ next.deposited ∧ next.held + unlocked = stream.held + e.deposit27 := by
  simp only [checkpointCarry, bind_ok, pure_ok, Prod.mk.injEq] at done
  obtain ⟨⟨middle, amount⟩, checked, rfl, rfl⟩ := done
  obtain ⟨bound, _⟩ := checkpoint_ok checked covered
  have held := checkpoint_held checked covered
  by_cases some : e.deposit27 ≠ 0
  · rw [if_pos some]
    refine ⟨bound, ?_⟩
    simp only [deposit, Stream.held] at held ⊢
    omega
  · rw [if_neg some, not_not.mp some]
    exact ⟨bound, held⟩

/-- What was given out at once or read is in the credits of the epochs or in the carry. -/
structure Balanced (b : Book) (given : Nat) : Prop where
  covered : b.stream.released ≤ b.stream.deposited
  credits : ∃ spent, Totals b.creditTotal27 spent ∧ spent + b.stream.held = given

theorem Balanced.noted (balanced : Balanced b given) (e : CarryEvent) :
    Balanced (b.noted e) (given + e.direct27) := by
  obtain ⟨covered, spent, sums, eq⟩ := balanced
  rw [Book.noted]
  by_cases some : e.direct27 ≠ 0
  · rw [if_pos some]
    refine ⟨covered, spent + e.direct27, sums.credit _ _, ?_⟩
    simp only [Book.distribute]
    omega
  · rw [if_neg some, not_not.mp some]
    exact ⟨covered, spent, sums, eq⟩

theorem Balanced.absorb (balanced : Balanced b given) (read : b.absorb e = .ok (after, unlocked)) :
    Balanced after (given + e.deposit27) := by
  obtain ⟨covered, spent, sums, eq⟩ := balanced
  obtain ⟨stream, checked, ⟨_, _, rfl⟩ | ⟨rfl, rfl⟩⟩ := absorb_ok read
  · obtain ⟨bound, held⟩ := checkpointCarry_held checked covered
    refine ⟨bound, spent + unlocked, sums.credit _ _, ?_⟩
    simp only [Book.release]
    omega
  · obtain ⟨bound, held⟩ := checkpointCarry_held checked covered
    refine ⟨bound, spent, sums, ?_⟩
    simp only
    omega

theorem Replays.balanced (replays : Replays log consumed b) :
    Balanced b (total CarryEvent.direct27 log + total CarryEvent.deposit27 consumed) := by
  induction replays with
  | empty => exact ⟨le_rfl, 0, Totals.zero, rfl⟩
  | logs e _ ih =>
    have next := ih.noted e
    rw [total_snoc]
    rwa [Nat.add_right_comm] at next
  | reads e _ read ih =>
    have next := ih.absorb read
    rw [total_snoc]
    rwa [Nat.add_assoc] at next

/-! Which events paid. -/

def CarryEvent.stamp (e : CarryEvent) : Nat × Nat × Nat := (e.seq, e.time, e.denominator)

def stampOf (p : Payment) : Nat × Nat × Nat := (p.seq, p.time, p.denominator)

/-- Every payment carries the stamp of its event: of a logged one on the direct side, of a read one
on the carried side. -/
structure Paid (log consumed : List CarryEvent) (b : Book) : Prop where
  direct : (b.direct.paid.map stampOf).Sublist (log.map CarryEvent.stamp)
  carried : (b.carried.paid.map stampOf).Sublist (consumed.map CarryEvent.stamp)

theorem Side.credit_paid (x : Side) (e : CarryEvent) (amount : Nat) {events : List CarryEvent}
    (earlier : (x.paid.map stampOf).Sublist (events.map CarryEvent.stamp)) :
    ((x.credit e.seq e.time (e.time / day) e.denominator e.revision amount).paid.map stampOf).Sublist
      ((events ++ [e]).map CarryEvent.stamp) := by
  simp only [Side.credit, List.map_append]
  exact earlier.append (.refl _)

theorem Paid.noted (paid : Paid log consumed b) (e : CarryEvent) : Paid (log ++ [e]) consumed (b.noted e) := by
  rw [Book.noted]
  split
  · exact ⟨Side.credit_paid b.direct e e.direct27 paid.direct, paid.carried⟩
  · refine ⟨?_, paid.carried⟩
    rw [List.map_append]
    exact paid.direct.trans (List.sublist_append_left _ _)

theorem Paid.absorb (paid : Paid log consumed b) (read : b.absorb e = .ok (after, unlocked)) :
    Paid log (consumed ++ [e]) after := by
  obtain ⟨stream, _, ⟨_, _, rfl⟩ | ⟨_, rfl⟩⟩ := absorb_ok read
  · exact ⟨paid.direct, Side.credit_paid b.carried e unlocked paid.carried⟩
  · refine ⟨paid.direct, ?_⟩
    rw [List.map_append]
    exact paid.carried.trans (List.sublist_append_left _ _)

theorem Replays.paid (replays : Replays log consumed b) : Paid log consumed b := by
  induction replays with
  | empty => exact ⟨.refl _, .refl _⟩
  | logs e _ ih => exact ih.noted e
  | reads e _ read ih => exact ih.absorb read

end Solonpad.Staking
