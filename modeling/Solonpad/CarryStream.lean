import Solonpad.DyadicTree
import Mathlib.Algebra.BigOperators.Group.List.Basic
import Mathlib.Tactic.Linarith

/-!
The seven-day carry stream, `V3Carry.sol` and `StakingCarry.sol`: principal unlocks linearly over
effective time, and a paused stream spends none. The two libraries differ in the timestamp alone,
the block's in one and an argument in the other, so one definition takes it as an argument. A
tree node's two fields are two trees. `Streams` says what the trees stand for, a list of deposits
with their ends; from it a running checkpoint cannot fail inside the clock's range, and it unlocks
what the deposits released.
-/

namespace Solonpad.CarryStream

open Checked DyadicTree

def duration : Nat := 7 * 86400

def clockMax : Nat := 2 ^ 32 - 1

structure Stream where
  principal : Tree
  nodeWeightedEnd : Tree
  deposited : Nat
  pendingDeposit : Nat
  weightedEnd : Nat
  released : Nat
  clock : Nat
  last : Nat

def Stream.empty : Stream := ⟨fun _ => 0, fun _ => 0, 0, 0, 0, 0, 0, 0⟩

/-- `Math.ceilDiv`. -/
def ceilDiv (a b : Nat) : Nat := if a = 0 then 0 else (a - 1) / b + 1

variable {ε : Type} (clockOverflow : ε)

/-- The stream with a deposit that ends at `ending`. -/
def Stream.inserted (s : Stream) (ending amount : Nat) : Stream :=
  { s with
    deposited := s.deposited + amount
    weightedEnd := s.weightedEnd + amount * ending
    principal := add 32 s.principal ending amount
    nodeWeightedEnd := add 32 s.nodeWeightedEnd ending (amount * ending) }

def insert (s : Stream) (amount : Nat) : Tx ε Stream := do
  let ending := s.clock + duration
  require (ending ≤ clockMax) clockOverflow
  pure (s.inserted ending amount)

/-- The running part of `checkpoint`, once waiting deposits are inserted. -/
def advance (s : Stream) (timestamp : Nat) : Tx ε (Stream × Nat) := do
  let elapsed ← Checked.sub timestamp s.last
  let clock := s.clock + elapsed
  require (clock ≤ clockMax) clockOverflow
  let ended := prefixSum 32 s.principal clock
  let weighted := prefixSum 32 s.nodeWeightedEnd clock
  let ahead ← Checked.sub s.weightedEnd weighted
  let running ← Checked.sub s.deposited ended
  let numerator ← Checked.sub ahead (clock * running)
  let unlocked ← Checked.sub s.deposited (ceilDiv numerator duration)
  let amount ← Checked.sub unlocked s.released
  pure ({ s with clock := clock, last := timestamp, released := unlocked }, amount)

def checkpoint (s : Stream) (running : Bool) (timestamp : Nat) : Tx ε (Stream × Nat) :=
  if s.last = 0 then pure ({ s with last := timestamp }, 0)
  else if running = false then pure ({ s with last := timestamp }, 0)
  else if s.pendingDeposit ≠ 0 then do
    let s ← insert clockOverflow { s with pendingDeposit := 0 } s.pendingDeposit
    advance clockOverflow s timestamp
  else advance clockOverflow s timestamp

def deposit (s : Stream) (amount : Nat) : Stream :=
  { s with pendingDeposit := s.pendingDeposit + amount }

/-- What the stream still holds. -/
def Stream.held (s : Stream) : Nat := s.deposited + s.pendingDeposit - s.released

/-! What a checkpoint does to the money. -/

variable {clockOverflow} {s after : Stream} {timestamp amount t : Nat} {deposits : List Deposit}

theorem advance_ok (done : advance clockOverflow s timestamp = .ok (after, amount)) :
    after.deposited = s.deposited ∧ after.pendingDeposit = s.pendingDeposit ∧
      after.released = s.released + amount ∧ after.released ≤ after.deposited := by
  simp only [advance, bind_ok, sub_ok, require_ok, pure_ok, Prod.mk.injEq] at done
  obtain ⟨_, _, _, _, _, _, _, _, _, _, unlocked, ⟨_, rfl⟩, _, ⟨grown, rfl⟩, rfl, rfl⟩ := done
  refine ⟨rfl, rfl, ?_, Nat.sub_le _ _⟩
  simp only
  omega

/-- A checkpoint moves what it unlocks out of the stream, and nothing else. -/
theorem checkpoint_ok {running : Bool} (done : checkpoint clockOverflow s running timestamp = .ok (after, amount))
    (covered : s.released ≤ s.deposited) :
    after.released ≤ after.deposited ∧
      after.deposited + after.pendingDeposit = s.deposited + s.pendingDeposit ∧
      after.released = s.released + amount ∧ (amount ≠ 0 → running = true) := by
  simp only [checkpoint, ite_ok, pure_ok, Prod.mk.injEq] at done
  rcases done with ⟨_, rfl, rfl⟩ | ⟨_, ⟨_, rfl, rfl⟩ | ⟨on, ⟨_, done⟩ | ⟨_, done⟩⟩⟩
  · exact ⟨covered, rfl, rfl, fun moved => absurd rfl moved⟩
  · exact ⟨covered, rfl, rfl, fun moved => absurd rfl moved⟩
  · simp only [insert, bind_ok, require_ok, pure_ok] at done
    obtain ⟨_, ⟨_, _, rfl⟩, done⟩ := done
    obtain ⟨deposited, pending, released, bound⟩ := advance_ok done
    simp only [Stream.inserted] at deposited pending released
    exact ⟨bound, by omega, released, fun _ => by simpa using on⟩
  · obtain ⟨deposited, pending, released, bound⟩ := advance_ok done
    exact ⟨bound, by omega, released, fun _ => by simpa using on⟩

theorem checkpoint_held {running : Bool} (done : checkpoint clockOverflow s running timestamp = .ok (after, amount))
    (covered : s.released ≤ s.deposited) : after.held + amount = s.held := by
  obtain ⟨bound, kept, released, _⟩ := checkpoint_ok done covered
  simp only [Stream.held]
  omega

/-! Deposits. -/

/-- Principal and the effective time it is unlocked at. -/
structure Deposit where
  ending : Nat
  amount : Nat

def tally (worth : Deposit → Nat) (deposits : List Deposit) : Nat := (deposits.map worth).sum

@[simp]
theorem tally_nil (worth : Deposit → Nat) : tally worth [] = 0 := rfl

@[simp]
theorem tally_cons (worth : Deposit → Nat) (d : Deposit) (rest : List Deposit) :
    tally worth (d :: rest) = worth d + tally worth rest := rfl

/-- What the deposits hold back at an effective time, in units of one over the duration. -/
def locked (deposits : List Deposit) (clock : Nat) : Nat :=
  tally (fun d => d.amount * (d.ending - clock)) deposits

/-- What a stream's fields stand for. -/
structure Streams (s : Stream) (deposits : List Deposit) : Prop where
  deposited : s.deposited = tally Deposit.amount deposits
  weightedEnd : s.weightedEnd = tally (fun d => d.amount * d.ending) deposits
  principal : ∀ limit, limit < 2 ^ 32 → prefixSum 32 s.principal limit =
    tally (fun d => if d.ending ≤ limit then d.amount else 0) deposits
  weighted : ∀ limit, limit < 2 ^ 32 → prefixSum 32 s.nodeWeightedEnd limit =
    tally (fun d => if d.ending ≤ limit then d.amount * d.ending else 0) deposits
  near : ∀ d ∈ deposits, d.ending ≤ s.clock + duration
  unlocked : s.released + ceilDiv (locked deposits s.clock) duration = s.deposited

theorem Streams.empty : Streams Stream.empty [] := by
  constructor
  · rfl
  · rfl
  · intro limit _
    exact prefixSum_empty limit
  · intro limit _
    exact prefixSum_empty limit
  · intro d member
    cases member
  · rfl

theorem locked_split (deposits : List Deposit) (clock : Nat) :
    tally (fun d => d.amount * d.ending) deposits =
      tally (fun d => if d.ending ≤ clock then d.amount * d.ending else 0) deposits +
      (clock * (tally Deposit.amount deposits -
          tally (fun d => if d.ending ≤ clock then d.amount else 0) deposits) +
        locked deposits clock) ∧
    tally (fun d => if d.ending ≤ clock then d.amount else 0) deposits ≤
      tally Deposit.amount deposits := by
  induction deposits with
  | nil => simp [locked]
  | cons d rest ih =>
    obtain ⟨weights, bound⟩ := ih
    simp only [locked, tally_cons] at weights ⊢
    by_cases ended : d.ending ≤ clock
    · have none : d.ending - clock = 0 := by omega
      simp only [if_pos ended, none, Nat.mul_zero, Nat.zero_add, Nat.add_sub_add_left]
      constructor
      · omega
      · omega
    · have more : d.amount + tally Deposit.amount rest -
          tally (fun d => if d.ending ≤ clock then d.amount else 0) rest =
            d.amount + (tally Deposit.amount rest -
              tally (fun d => if d.ending ≤ clock then d.amount else 0) rest) := by omega
      have own : d.amount * d.ending = clock * d.amount + d.amount * (d.ending - clock) := by
        rw [Nat.mul_comm clock, ← Nat.mul_add]
        congr 1
        omega
      simp only [if_neg ended, Nat.zero_add, more, Nat.mul_add]
      constructor
      · omega
      · omega

theorem locked_antitone (deposits : List Deposit) {early late : Nat} (order : early ≤ late) :
    locked deposits late ≤ locked deposits early := by
  induction deposits with
  | nil => exact le_rfl
  | cons d rest ih =>
    have own : d.amount * (d.ending - late) ≤ d.amount * (d.ending - early) :=
      Nat.mul_le_mul_left _ (by omega)
    simp only [locked, tally_cons] at ih ⊢
    omega

theorem locked_bound (deposits : List Deposit) (clock : Nat) (near : ∀ d ∈ deposits, d.ending ≤ clock + duration) :
    locked deposits clock ≤ duration * tally Deposit.amount deposits := by
  induction deposits with
  | nil => exact Nat.zero_le _
  | cons d rest ih =>
    have later := ih (fun other member => near other (List.mem_cons_of_mem _ member))
    have close := near d (List.mem_cons_self ..)
    have own : d.amount * (d.ending - clock) ≤ duration * d.amount := by
      rw [Nat.mul_comm duration]
      exact Nat.mul_le_mul_left _ (by omega)
    simp only [locked, tally_cons, Nat.mul_add] at later ⊢
    omega

theorem ceilDiv_mono {a b : Nat} (order : a ≤ b) (c : Nat) : ceilDiv a c ≤ ceilDiv b c := by
  unfold ceilDiv
  by_cases none : a = 0
  · simp [none]
  · rw [if_neg none, if_neg (by omega)]
    exact Nat.add_le_add_right (Nat.div_le_div_right (by omega)) 1

/-- Whole units pass through a rounded-up division. -/
theorem ceilDiv_add {c : Nat} (positive : 0 < c) (a k : Nat) : ceilDiv (a + k * c) c = ceilDiv a c + k := by
  unfold ceilDiv
  by_cases none : a = 0
  · subst none
    cases k with
    | zero => simp
    | succ k =>
      have ne : 0 + (k + 1) * c ≠ 0 := by
        rw [Nat.add_mul]
        omega
      rw [if_neg ne, if_pos rfl]
      have less : 0 + (k + 1) * c - 1 = k * c + (c - 1) := by
        rw [Nat.add_mul]
        omega
      rw [less, Nat.add_comm (k * c), Nat.add_mul_div_right _ _ positive,
        Nat.div_eq_of_lt (by omega)]
      omega
  · rw [if_neg none, if_neg (by omega)]
    have less : a + k * c - 1 = (a - 1) + k * c := by omega
    rw [less, Nat.add_mul_div_right _ _ positive]
    omega

theorem ceilDiv_le {a c k : Nat} (positive : 0 < c) (bound : a ≤ c * k) : ceilDiv a c ≤ k := by
  have whole := ceilDiv_add positive 0 k
  have mono := ceilDiv_mono bound c
  rw [Nat.mul_comm] at mono
  simp only [ceilDiv, Nat.zero_add, if_true] at whole
  simp only [ceilDiv] at mono ⊢
  omega

/-! Checkpoints. -/

/-- An inserted deposit starts wholly locked. -/
theorem Streams.inserted (streams : Streams s deposits) (amount : Nat) (room : s.clock + duration ≤ clockMax) :
    Streams (s.inserted (s.clock + duration) amount) (⟨s.clock + duration, amount⟩ :: deposits) := by
  have small : s.clock + duration < 2 ^ 32 := by
    simp only [clockMax] at room
    omega
  constructor
  · rw [tally_cons, ← streams.deposited]
    exact Nat.add_comm _ _
  · rw [tally_cons, ← streams.weightedEnd]
    exact Nat.add_comm _ _
  · intro limit inside
    have moved := prefixSum_gains (add_gains 32 small s.principal amount) (by decide) small inside
    simp only [Stream.inserted]
    rw [moved, tally_cons, ← streams.principal limit inside]
    exact Nat.add_comm _ _
  · intro limit inside
    have moved := prefixSum_gains (add_gains 32 small s.nodeWeightedEnd
      (amount * (s.clock + duration))) (by decide) small inside
    simp only [Stream.inserted]
    rw [moved, tally_cons, ← streams.weighted limit inside]
    exact Nat.add_comm _ _
  · intro d member
    rcases List.mem_cons.mp member with rfl | older
    · exact le_rfl
    · exact streams.near d older
  · have unlocked := streams.unlocked
    have more := ceilDiv_add (c := duration) (by decide) (locked deposits s.clock) amount
    simp only [Stream.inserted, locked, tally_cons, Nat.add_sub_cancel_left] at more unlocked ⊢
    rw [Nat.add_comm (amount * duration), more]
    omega

variable (clockOverflow) in
/-- Inside the clock's range a running stream advances. -/
theorem Streams.advance (streams : Streams s deposits) (order : s.last ≤ timestamp)
    (range : s.clock + (timestamp - s.last) ≤ clockMax) :
    ∃ after amount, advance clockOverflow s timestamp = .ok (after, amount) ∧
      Streams after deposits ∧ after.clock = s.clock + (timestamp - s.last) ∧
      after.last = timestamp ∧ after.pendingDeposit = s.pendingDeposit := by
  have small : s.clock + (timestamp - s.last) < 2 ^ 32 := by
    simp only [clockMax] at range
    omega
  obtain ⟨weights, bound⟩ := locked_split deposits (s.clock + (timestamp - s.last))
  have less := locked_antitone deposits (Nat.le_add_right s.clock (timestamp - s.last))
  have near : ∀ d ∈ deposits, d.ending ≤ s.clock + (timestamp - s.last) + duration := by
    intro d member
    have := streams.near d member
    omega
  have most := ceilDiv_le (c := duration) (by decide) (locked_bound deposits _ near)
  have smaller := ceilDiv_mono less duration
  have unlocked := streams.unlocked
  rw [← streams.weightedEnd, ← streams.weighted _ small, ← streams.deposited,
    ← streams.principal _ small] at weights
  rw [← streams.deposited, ← streams.principal _ small] at bound
  rw [← streams.deposited] at most
  refine ⟨{ s with
      clock := s.clock + (timestamp - s.last)
      last := timestamp
      released := s.deposited -
        ceilDiv (locked deposits (s.clock + (timestamp - s.last))) duration },
    s.deposited - ceilDiv (locked deposits (s.clock + (timestamp - s.last))) duration - s.released,
    ?_, ?_, rfl, rfl, rfl⟩
  · simp only [CarryStream.advance, bind_ok, sub_ok, require_ok, pure_ok]
    refine ⟨_, ⟨order, rfl⟩, ⟨⟩, range, _, ⟨by omega, rfl⟩, _, ⟨bound, rfl⟩,
      locked deposits (s.clock + (timestamp - s.last)), ⟨by omega, by omega⟩, _, ⟨most, rfl⟩, _,
      ⟨by omega, rfl⟩, rfl⟩
  · constructor
    · exact streams.deposited
    · exact streams.weightedEnd
    · exact streams.principal
    · exact streams.weighted
    · exact near
    · simp only
      omega

/-- What a stream stands for, with its clock behind the time of its last checkpoint. -/
structure Running (s : Stream) (t : Nat) : Prop where
  streams : ∃ deposits, Streams s deposits
  behind : s.clock ≤ s.last
  until_ : s.last ≤ t

theorem Running.empty (t : Nat) : Running Stream.empty t :=
  ⟨⟨[], .empty⟩, le_rfl, Nat.zero_le _⟩

theorem Running.later {later : Nat} (running : Running s t) (order : t ≤ later) : Running s later :=
  ⟨running.streams, running.behind, running.until_.trans order⟩

theorem Running.deposit (running : Running s t) (amount : Nat) : Running (deposit s amount) t := by
  obtain ⟨⟨deposits, streams⟩, behind, until_⟩ := running
  exact ⟨⟨deposits, streams.deposited, streams.weightedEnd, streams.principal, streams.weighted,
    streams.near, streams.unlocked⟩, behind, until_⟩

/-- Until the clock's range ends a checkpoint cannot fail. -/
theorem Running.checkpoint (running : Running s t) (on : Bool) (range : t + duration ≤ clockMax) :
    ∃ after amount, checkpoint clockOverflow s on t = .ok (after, amount) ∧ Running after t := by
  obtain ⟨⟨deposits, streams⟩, behind, until_⟩ := running
  have paused : Running { s with last := t } t := by
    refine ⟨⟨deposits, ?_⟩, behind.trans until_, le_rfl⟩
    exact ⟨streams.deposited, streams.weightedEnd, streams.principal, streams.weighted, streams.near,
      streams.unlocked⟩
  rw [CarryStream.checkpoint]
  by_cases fresh : s.last = 0
  · rw [if_pos fresh]
    exact ⟨_, _, rfl, paused⟩
  · rw [if_neg fresh]
    by_cases off : on = false
    · rw [if_pos off]
      exact ⟨_, _, rfl, paused⟩
    · rw [if_neg off]
      have room : s.clock + duration ≤ clockMax := by omega
      by_cases waiting : s.pendingDeposit ≠ 0
      · have bare : Streams { s with pendingDeposit := 0 } deposits :=
          ⟨streams.deposited, streams.weightedEnd, streams.principal, streams.weighted, streams.near,
            streams.unlocked⟩
        have inserted := bare.inserted s.pendingDeposit room
        obtain ⟨after, amount, done, kept, clock, last, _⟩ :=
          inserted.advance clockOverflow until_ (by
            simp only [Stream.inserted]
            omega)
        refine ⟨after, amount, ?_, ⟨_, kept⟩, ?_, last.le⟩
        · rw [if_pos waiting]
          simp only [insert, bind_ok, require_ok, pure_ok]
          exact ⟨_, ⟨(), room, rfl⟩, done⟩
        · rw [clock, last]
          simp only [Stream.inserted]
          omega
      · obtain ⟨after, amount, done, kept, clock, last, _⟩ :=
          streams.advance clockOverflow until_ (by omega)
        refine ⟨after, amount, ?_, ⟨_, kept⟩, ?_, last.le⟩
        · rw [if_neg waiting]
          exact done
        · rw [clock, last]
          omega

end Solonpad.CarryStream
