import Solonpad.CarryStream
import Mathlib.Data.Nat.Count

/-!
A stream's whole history. `on` says in which seconds there was eligible weight; effective time counts those
since the first checkpoint, so it stops while nobody is eligible. A checkpoint tells the stream how the
seconds since the last one were, a deposit falls in seconds without weight. Cohorts, each a deposit with its
own seven effective days, give what is unlocked by one formula, whatever checkpoints there were on the way.
-/

namespace Solonpad.CarryStream

open Checked

/-! Effective time. -/

/-- The seconds with weight from the start to a time. -/
def effective (on : Nat → Bool) (start time : Nat) : Nat :=
  Nat.count (on · = true) time - Nat.count (on · = true) start

variable {on : Nat → Bool} {start time amount : Nat} {running : Bool} {made : List Made}

theorem effective_start (start : Nat) : effective on start start = 0 := Nat.sub_self _

theorem effective_before (early : time ≤ start) : effective on start time = 0 :=
  Nat.sub_eq_zero_of_le (Nat.count_monotone _ early)

/-- Seconds that are all alike add all of them or none. -/
theorem effective_interval {last : Nat} (begun : start ≤ last) (order : last ≤ time)
    (alike : ∀ u, last ≤ u → u < time → on u = running) :
    effective on start time = effective on start last + if running then time - last else 0 := by
  obtain ⟨n, rfl⟩ := Nat.exists_eq_add_of_le order
  have first := Nat.count_monotone (on · = true) begun
  have added := Nat.count_add (on · = true) last n
  unfold effective
  cases running with
  | true =>
    have all : Nat.count (fun k => on (last + k) = true) n = n :=
      Nat.count_iff_forall.mpr fun k inside => alike (last + k) (Nat.le_add_right ..) (by omega)
    simp only [if_true]
    omega
  | false =>
    have none : Nat.count (fun k => on (last + k) = true) n = 0 :=
      Nat.count_iff_forall_not.mpr fun k inside => by
        rw [alike (last + k) (Nat.le_add_right ..) (by omega)]
        exact Bool.false_ne_true
    simp only [Bool.false_eq_true, if_false]
    omega

/-! Histories. -/

/-- A deposit with the time it was made. -/
structure Made where
  time : Nat
  amount : Nat

/-- What happened to a stream so far. -/
structure Log where
  deposits : List Made
  /-- The time of the first checkpoint. -/
  start : Nat
  now : Nat
  /-- A deposit was made since the last checkpoint. -/
  fresh : Bool

def Log.total (log : Log) : Nat := (log.deposits.map Made.amount).sum

/-- A deposit with the effective time it is unlocked at. -/
def cohort (on : Nat → Bool) (start : Nat) (d : Made) : Deposit :=
  ⟨effective on start d.time + duration, d.amount⟩

/-- What a stream's callers see to: time goes on, `running` is how the seconds since the last checkpoint
were, and the checkpoint after a deposit is a paused one. -/
structure Allowed (on : Nat → Bool) (s : Stream) (log : Log) (running : Bool) (time : Nat) : Prop where
  order : log.now ≤ time
  alike : s.last ≠ 0 → ∀ u, s.last ≤ u → u < time → on u = running
  paused : log.fresh = true → running = false

/-- The log after a checkpoint: until there was one, it is the first. -/
def Log.checked (log : Log) (s : Stream) (time : Nat) : Log :=
  ⟨log.deposits, if s.last = 0 then time else log.start, time, false⟩

inductive History {ε : Type} (clockOverflow : ε) (on : Nat → Bool) : Stream → Log → Prop where
  | deployed (now : Nat) : History clockOverflow on .empty ⟨[], 0, now, false⟩
  | deposit {s : Stream} {log : Log} (earlier : History clockOverflow on s log) {time : Nat}
      (order : log.now ≤ time) (amount : Nat) :
      History clockOverflow on (deposit s amount) ⟨⟨time, amount⟩ :: log.deposits, log.start, time, true⟩
  | checkpoint {s after : Stream} {log : Log} (earlier : History clockOverflow on s log) {running : Bool}
      {time amount : Nat} (allowed : Allowed on s log running time)
      (taken : checkpoint clockOverflow s running time = .ok (after, amount)) :
      History clockOverflow on after (log.checked s time)

variable {ε : Type} {clockOverflow : ε}

/-! What a stream stands for. -/

/-- Deposits that a stream has taken up: as the deposits of its trees, or as principal that waits at its
clock. -/
structure Settled (on : Nat → Bool) (start : Nat) (made : List Made) (s : Stream) (deposits : List Deposit)
    (pending : Nat) : Prop where
  streams : Streams s deposits
  total : tally Deposit.amount (made.map (cohort on start)) = tally Deposit.amount deposits + pending
  locks : ∀ e, s.clock ≤ e → locked (made.map (cohort on start)) e =
    locked deposits e + pending * (s.clock + duration - e)

/-- A stream's other fields are not part of what it stands for. -/
theorem Streams.same {s other : Stream} {deposits : List Deposit} (streams : Streams s deposits)
    (principal : other.principal = s.principal) (weights : other.nodeWeightedEnd = s.nodeWeightedEnd)
    (deposited : other.deposited = s.deposited) (weighted : other.weightedEnd = s.weightedEnd)
    (released : other.released = s.released) (clock : other.clock = s.clock) : Streams other deposits where
  deposited := by rw [deposited, streams.deposited]
  weightedEnd := by rw [weighted, streams.weightedEnd]
  principal := by rw [principal]; exact streams.principal
  weighted := by rw [weights]; exact streams.weighted
  near := by rw [clock]; exact streams.near
  unlocked := by rw [released, clock, deposited]; exact streams.unlocked

theorem Settled.same {s other : Stream} {deposits : List Deposit} {pending : Nat}
    (settled : Settled on start made s deposits pending) (streams : Streams other deposits)
    (clock : other.clock = s.clock) : Settled on start made other deposits pending where
  streams := streams
  total := settled.total
  locks := by rw [clock]; exact settled.locks

/-- Before any deposit it does not matter when effective time starts. -/
theorem Settled.restart {s : Stream} {deposits : List Deposit} {pending : Nat}
    (settled : Settled on start [] s deposits pending) (other : Nat) : Settled on other [] s deposits pending where
  streams := settled.streams
  total := by
    have total := settled.total
    rwa [List.map_nil] at total ⊢
  locks := by
    have locks := settled.locks
    rwa [List.map_nil] at locks ⊢

/-- Deposits made at the stream's clock wait with what waits already. -/
theorem Settled.more {old waiting : List Made} {s : Stream} {deposits : List Deposit} {pending : Nat}
    (settled : Settled on start old s deposits pending) (here : ∀ d ∈ waiting, effective on start d.time = s.clock) :
    Settled on start (waiting ++ old) s deposits (pending + (waiting.map Made.amount).sum) := by
  induction waiting with
  | nil => simpa using settled
  | cons d rest ih =>
    have later := ih (fun other member => here other (List.mem_cons_of_mem _ member))
    have own := here d (List.mem_cons_self ..)
    constructor
    · exact settled.streams
    · rw [List.cons_append, List.map_cons, tally_cons, later.total, List.map_cons, List.sum_cons]
      change d.amount + _ = _
      omega
    · intro e after
      have locks := later.locks e after
      simp only [locked, List.cons_append, List.map_cons, tally_cons, List.sum_cons, cohort] at locks ⊢
      rw [locks, own, Nat.add_left_comm pending, Nat.add_mul d.amount]
      omega

/-- The deposits of a log up to the last checkpoint are settled, and the others wait. -/
structure Stands (on : Nat → Bool) (s : Stream) (log : Log) (old waiting : List Made) (deposits : List Deposit)
    (pending : Nat) : Prop where
  listed : log.deposits = waiting ++ old
  settled : Settled on log.start old s deposits pending
  pending : s.pendingDeposit = pending + (waiting.map Made.amount).sum
  times : ∀ d ∈ waiting, s.last ≤ d.time ∧ d.time ≤ log.now
  until_ : s.last ≤ log.now
  unstarted : s.last = 0 → s.clock = 0 ∧ old = []
  clock : s.last ≠ 0 → log.start ≤ s.last ∧ s.clock = effective on log.start s.last
  none_ : s.last ≠ 0 → log.fresh = false → waiting = []

variable {s after : Stream} {log : Log} {old waiting : List Made} {deposits : List Deposit} {pending : Nat}

theorem Stands.deployed (now : Nat) : Stands on .empty ⟨[], 0, now, false⟩ [] [] [] 0 where
  listed := rfl
  settled := ⟨.empty, rfl, fun e _ => by simp [locked]⟩
  pending := rfl
  times _ member := absurd member List.not_mem_nil
  until_ := Nat.zero_le now
  unstarted _ := ⟨rfl, rfl⟩
  clock started := absurd rfl started
  none_ started := absurd rfl started

theorem Stands.deposit (stands : Stands on s log old waiting deposits pending) (order : log.now ≤ time) (amount : Nat) :
    Stands on (deposit s amount) ⟨⟨time, amount⟩ :: log.deposits, log.start, time, true⟩ old
      (⟨time, amount⟩ :: waiting) deposits pending where
  listed := by rw [stands.listed]; rfl
  settled := stands.settled.same (stands.settled.streams.same rfl rfl rfl rfl rfl rfl) rfl
  pending := by
    rw [List.map_cons, List.sum_cons, CarryStream.deposit, stands.pending]
    simp only
    omega
  times d member := by
    rcases List.mem_cons.mp member with rfl | older
    · exact ⟨stands.until_.trans order, le_rfl⟩
    · exact ⟨(stands.times d older).1, (stands.times d older).2.trans order⟩
  until_ := stands.until_.trans order
  unstarted := stands.unstarted
  clock := stands.clock
  none_ _ fresh := by cases fresh

/-- At an allowed checkpoint all deposits of the log are settled at the stream's clock. -/
theorem Stands.settles (stands : Stands on s log old waiting deposits pending)
    (allowed : Allowed on s log running time) :
    Settled on (log.checked s time).start log.deposits s deposits s.pendingDeposit := by
  rw [stands.listed, stands.pending]
  by_cases fresh : s.last = 0
  · obtain ⟨clock, rfl⟩ := stands.unstarted fresh
    refine (stands.settled.restart (log.checked s time).start).more fun d member => ?_
    rw [clock, Log.checked, if_pos fresh]
    exact effective_before ((stands.times d member).2.trans allowed.order)
  · have start : (log.checked s time).start = log.start := if_neg fresh
    rw [start]
    refine stands.settled.more fun d member => ?_
    obtain ⟨begun, clock⟩ := stands.clock fresh
    -- only a paused interval has deposits in it
    have paused : running = false := by
      refine allowed.paused ?_
      by_contra none_
      rw [stands.none_ fresh (by simpa using none_)] at member
      cases member
    obtain ⟨after_, before⟩ := stands.times d member
    have still := effective_interval begun after_ (fun u later sooner =>
      allowed.alike fresh u later (sooner.trans_le (before.trans allowed.order)))
    rw [paused] at still
    rw [clock, still]
    rfl

/-! Checkpoints. -/

/-- The one formula: of what was deposited, all that is not locked is unlocked. -/
theorem Settled.formula (settled : Settled on start made s deposits pending) :
    s.released + ceilDiv (locked (made.map (cohort on start)) s.clock) duration =
      tally Deposit.amount (made.map (cohort on start)) := by
  have locks := settled.locks s.clock (Nat.le_refl _)
  rw [Nat.add_sub_cancel_left] at locks
  have unlocked := settled.streams.unlocked
  rw [settled.streams.deposited] at unlocked
  rw [locks, settled.total, ceilDiv_add (by decide)]
  omega

theorem advance_moves (done : advance clockOverflow s time = .ok (after, amount)) :
    s.last ≤ time ∧ s.clock + (time - s.last) ≤ clockMax := by
  simp only [advance, bind_ok, sub_ok, require_ok, pure_ok] at done
  obtain ⟨_, ⟨order, rfl⟩, _, range, _⟩ := done
  exact ⟨order, range⟩

/-- A running checkpoint once nothing waits. -/
theorem Settled.advanced (settled : Settled on start made s deposits 0) (empty : s.pendingDeposit = 0)
    (done : advance clockOverflow s time = .ok (after, amount)) :
    Settled on start made after deposits after.pendingDeposit ∧ after.clock = s.clock + (time - s.last) ∧
      after.last = time := by
  obtain ⟨order, range⟩ := advance_moves done
  obtain ⟨other, amount', done', streams, clock, last, waits⟩ := settled.streams.advance clockOverflow order range
  rw [done] at done'
  cases done'
  rw [waits, empty]
  refine ⟨⟨streams, settled.total, fun e later => ?_⟩, clock, last⟩
  have locks := settled.locks e (by omega)
  rw [Nat.zero_mul] at locks ⊢
  exact locks

theorem Settled.inserted (settled : Settled on start made s deposits s.pendingDeposit)
    (room : s.clock + duration ≤ clockMax) :
    Settled on start made (Stream.inserted { s with pendingDeposit := 0 } (s.clock + duration) s.pendingDeposit)
      (⟨s.clock + duration, s.pendingDeposit⟩ :: deposits) 0 := by
  have bare : Streams { s with pendingDeposit := 0 } deposits :=
    settled.streams.same rfl rfl rfl rfl rfl rfl
  refine ⟨bare.inserted s.pendingDeposit room, ?_, fun e later => ?_⟩
  · rw [settled.total, tally_cons]
    simp only
    omega
  · have locks := settled.locks e later
    rw [locks, Nat.zero_mul]
    unfold locked
    rw [tally_cons]
    simp only
    omega

/-- What a checkpoint leaves: every deposit so far settled, at the effective time of the checkpoint. -/
structure Reckoned (on : Nat → Bool) (start : Nat) (made : List Made) (after : Stream) (time : Nat) : Prop where
  settled : ∃ deposits, Settled on start made after deposits after.pendingDeposit
  clock : after.clock = effective on start time
  last : after.last = time

theorem Stands.checks (stands : Stands on s log old waiting deposits pending)
    (allowed : Allowed on s log running time) (done : checkpoint clockOverflow s running time = .ok (after, amount)) :
    Reckoned on (log.checked s time).start log.deposits after time := by
  have settled := stands.settles allowed
  rw [checkpoint] at done
  by_cases fresh : s.last = 0
  · rw [if_pos fresh] at done
    cases done
    refine ⟨⟨deposits, settled.same (settled.streams.same rfl rfl rfl rfl rfl rfl) rfl⟩, ?_, rfl⟩
    rw [Log.checked, if_pos fresh, effective_start]
    exact (stands.unstarted fresh).1
  · have start : (log.checked s time).start = log.start := if_neg fresh
    obtain ⟨begun, clock⟩ := stands.clock fresh
    have went := effective_interval begun (stands.until_.trans allowed.order) (allowed.alike fresh)
    rw [if_neg fresh] at done
    rw [start] at settled ⊢
    cases running with
    | false =>
      rw [if_pos rfl] at done
      cases done
      refine ⟨⟨deposits, settled.same (settled.streams.same rfl rfl rfl rfl rfl rfl) rfl⟩, ?_, rfl⟩
      rw [went, ← clock]
      rfl
    | true =>
      rw [if_neg (by decide)] at done
      rw [if_pos rfl, ← clock] at went
      by_cases waits : s.pendingDeposit ≠ 0
      · rw [if_pos waits] at done
        simp only [insert, bind_ok, require_ok, pure_ok] at done
        obtain ⟨_, ⟨_, room, rfl⟩, done⟩ := done
        obtain ⟨settled, clock, last⟩ := (settled.inserted room).advanced rfl done
        exact ⟨⟨_, settled⟩, clock.trans went.symm, last⟩
      · have empty := not_not.mp waits
        rw [if_neg waits] at done
        rw [empty] at settled
        obtain ⟨settled, clock, last⟩ := settled.advanced empty done
        exact ⟨⟨_, settled⟩, clock.trans went.symm, last⟩

theorem Stands.later (stands : Stands on s log old waiting deposits pending) (allowed : Allowed on s log running time)
    (done : checkpoint clockOverflow s running time = .ok (after, amount)) :
    ∃ old waiting deposits pending, Stands on after (log.checked s time) old waiting deposits pending := by
  obtain ⟨⟨deposits', settled⟩, clock, last⟩ := stands.checks allowed done
  by_cases zero : time = 0
  · -- time itself has not started, and the checkpoint has only set it again
    have fresh : s.last = 0 := Nat.le_zero.mp (zero ▸ stands.until_.trans allowed.order)
    obtain ⟨unmoved, rfl⟩ := stands.unstarted fresh
    rw [checkpoint, if_pos fresh] at done
    cases done
    refine ⟨[], waiting, deposits, pending, stands.listed, ?_, stands.pending, ?_, Nat.le_refl _,
      fun _ => ⟨unmoved, rfl⟩, fun started => absurd zero started, fun started => absurd zero started⟩
    · exact (stands.settled.restart _).same (stands.settled.streams.same rfl rfl rfl rfl rfl rfl) rfl
    · intro d member
      exact ⟨zero ▸ Nat.zero_le _, (stands.times d member).2.trans allowed.order⟩
  · refine ⟨log.deposits, [], deposits', after.pendingDeposit, rfl, settled, rfl,
      fun _ member => absurd member List.not_mem_nil, last.le, fun fresh => absurd (last ▸ fresh) zero, ?_,
      fun _ _ => rfl⟩
    intro _
    rw [last]
    refine ⟨?_, clock⟩
    unfold Log.checked
    by_cases fresh : s.last = 0
    · rw [if_pos fresh]
    · rw [if_neg fresh]
      exact (stands.clock fresh).1.trans (stands.until_.trans allowed.order)

theorem history_stands (history : History clockOverflow on s log) :
    ∃ old waiting deposits pending, Stands on s log old waiting deposits pending := by
  induction history with
  | deployed now => exact ⟨_, _, _, _, .deployed now⟩
  | deposit earlier order amount ih =>
    obtain ⟨_, _, _, _, stands⟩ := ih
    exact ⟨_, _, _, _, stands.deposit order amount⟩
  | checkpoint earlier allowed taken ih =>
    obtain ⟨_, _, _, _, stands⟩ := ih
    exact stands.later allowed taken

/-! Failures. -/

theorem advance_late (order : s.last ≤ time) (late : clockMax < s.clock + (time - s.last)) :
    advance clockOverflow s time = .error (.revert clockOverflow) := by
  have ahead := (sub_ok (ε := ε) time s.last (time - s.last)).mpr ⟨order, rfl⟩
  simp only [advance, ahead, bind, Except.bind, require, if_neg (Nat.not_le.mpr late)]

/-- An insertion only looks at where its amount would end. -/
theorem insert_fits {α : Type} {u : Stream} (amount : Nat) (next : Stream → Tx ε α)
    (room : u.clock + duration ≤ clockMax) :
    (insert clockOverflow u amount >>= next) = next (u.inserted (u.clock + duration) amount) := by
  unfold insert require
  simp only [if_pos room]
  rfl

theorem insert_late {α : Type} {u : Stream} (amount : Nat) (next : Stream → Tx ε α)
    (late : ¬ u.clock + duration ≤ clockMax) :
    (insert clockOverflow u amount >>= next) = .error (.revert clockOverflow) := by
  unfold insert require
  simp only [if_neg late]
  rfl

/-- An allowed checkpoint fails only where the clock, or the end of what waits, leaves its 32 bits. -/
theorem Stands.fails (stands : Stands on s log old waiting deposits pending) {fault : Fault ε}
    (allowed : Allowed on s log running time) (failed : checkpoint clockOverflow s running time = .error fault) :
    fault = .revert clockOverflow ∧ (clockMax < effective on (log.checked s time).start time ∨
      s.pendingDeposit ≠ 0 ∧ clockMax < s.clock + duration) := by
  have settled := stands.settles allowed
  have until_ := stands.until_.trans allowed.order
  rw [checkpoint] at failed
  by_cases fresh : s.last = 0
  · rw [if_pos fresh] at failed
    cases failed
  · have start : (log.checked s time).start = log.start := if_neg fresh
    obtain ⟨begun, clock⟩ := stands.clock fresh
    have went := effective_interval begun until_ (allowed.alike fresh)
    rw [if_neg fresh] at failed
    rw [start] at settled ⊢
    cases running with
    | false =>
      rw [if_pos rfl] at failed
      cases failed
    | true =>
      rw [if_neg (by decide)] at failed
      rw [if_pos rfl, ← clock] at went
      rw [went]
      by_cases range : s.clock + (time - s.last) ≤ clockMax
      · by_cases waits : s.pendingDeposit ≠ 0
        · by_cases room : s.clock + duration ≤ clockMax
          · obtain ⟨_, _, done, _⟩ := (settled.inserted room).streams.advance clockOverflow until_ range
            rw [if_pos waits, insert_fits (u := { s with pendingDeposit := 0 }) s.pendingDeposit _ room] at failed
            rw [done] at failed
            cases failed
          · rw [if_pos waits, insert_late (u := { s with pendingDeposit := 0 }) s.pendingDeposit _ room] at failed
            cases failed
            exact ⟨rfl, .inr ⟨waits, Nat.not_le.mp room⟩⟩
        · obtain ⟨_, _, done, _⟩ := settled.streams.advance clockOverflow until_ range
          rw [if_neg waits, done] at failed
          cases failed
      · have late := Nat.not_le.mp range
        refine ⟨?_, .inl late⟩
        by_cases waits : s.pendingDeposit ≠ 0
        · rw [if_pos waits] at failed
          by_cases room : s.clock + duration ≤ clockMax
          · rw [insert_fits (u := { s with pendingDeposit := 0 }) s.pendingDeposit _ room] at failed
            rw [advance_late (s := Stream.inserted { s with pendingDeposit := 0 } (s.clock + duration)
              s.pendingDeposit) until_ late] at failed
            cases failed
            rfl
          · rw [insert_late (u := { s with pendingDeposit := 0 }) s.pendingDeposit _ room] at failed
            cases failed
            rfl
        · rw [if_neg waits, advance_late until_ late] at failed
          cases failed
          rfl

/-! The formula. -/

theorem locked_ended (ended : ∀ d ∈ made, effective on start d.time + duration ≤ effective on start time) :
    locked (made.map (cohort on start)) (effective on start time) = 0 := by
  induction made with
  | nil => rfl
  | cons d rest ih =>
    have later := ih (fun other member => ended other (List.mem_cons_of_mem _ member))
    have own := ended d (List.mem_cons_self ..)
    unfold locked at later ⊢
    rw [List.map_cons, tally_cons, later, cohort, Nat.sub_eq_zero_of_le own, Nat.mul_zero]

theorem total_cohorts (log : Log) (start : Nat) :
    tally Deposit.amount (log.deposits.map (cohort on start)) = log.total := by
  unfold tally Log.total
  rw [List.map_map]
  rfl

theorem locked_perm {first second : List Deposit} (listed : first.Perm second) (e : Nat) :
    locked first e = locked second e :=
  (listed.map _).sum_eq

/-- What a checkpoint has unlocked in all is what was deposited less what the cohorts hold back, rounded up
once; it only grows, depends on nothing but the deposits and effective time, and is everything once each
cohort had its time. No subtraction on the way fails, and nothing but the clock's range does. -/
theorem carry_formula {ε : Type} {clockOverflow : ε} {on : Nat → Bool} {s : Stream} {log : Log}
    (history : History clockOverflow on s log) :
    (∀ running time after amount, Allowed on s log running time →
      checkpoint clockOverflow s running time = .ok (after, amount) →
        after.released + ceilDiv (locked (log.deposits.map (cohort on (log.checked s time).start))
          (effective on (log.checked s time).start time)) duration = log.total ∧
        after.released = s.released + amount ∧ after.released ≤ log.total ∧
        ((∀ d ∈ log.deposits, effective on (log.checked s time).start d.time + duration ≤
          effective on (log.checked s time).start time) → after.released = log.total) ∧
        ∀ other others, History clockOverflow on other others → others.deposits.Perm log.deposits →
          (others.checked other time).start = (log.checked s time).start →
          ∀ running' after' amount', Allowed on other others running' time →
            checkpoint clockOverflow other running' time = .ok (after', amount') →
              after'.released = after.released) ∧
    ∀ running time fault, Allowed on s log running time →
      checkpoint clockOverflow s running time = .error fault →
        fault = .revert clockOverflow ∧ (clockMax < effective on (log.checked s time).start time ∨
          s.pendingDeposit ≠ 0 ∧ clockMax < s.clock + duration) := by
  have formula : ∀ {s : Stream} {log : Log}, History clockOverflow on s log → ∀ {running time after amount},
      Allowed on s log running time → checkpoint clockOverflow s running time = .ok (after, amount) →
        after.released + ceilDiv (locked (log.deposits.map (cohort on (log.checked s time).start))
          (effective on (log.checked s time).start time)) duration = log.total := by
    intro s log history running time after amount allowed done
    obtain ⟨_, _, _, _, stands⟩ := history_stands history
    obtain ⟨⟨_, settled⟩, clock, _⟩ := stands.checks allowed done
    have total : tally Deposit.amount (log.deposits.map (cohort on (log.checked s time).start)) = log.total :=
      total_cohorts log (log.checked s time).start
    rw [← clock, ← total]
    exact settled.formula
  obtain ⟨_, _, _, _, stands⟩ := history_stands history
  refine ⟨?_, fun running time fault allowed failed => stands.fails allowed failed⟩
  intro running time after amount allowed done
  have exact_ := formula history allowed done
  have covered : s.released ≤ s.deposited := by
    have unlocked := stands.settled.streams.unlocked
    omega
  refine ⟨exact_, (checkpoint_ok done covered).2.2.1, by omega, ?_, ?_⟩
  · intro ended
    rw [locked_ended ended] at exact_
    exact exact_
  · intro other others history' same begun running' after' amount' allowed' done'
    have exact' := formula history' allowed' done'
    rw [begun, locked_perm (same.map _), Log.total, (same.map _).sum_eq] at exact'
    rw [Log.total] at exact_
    omega

/-! A deposit of 700 that waits for weight, and half of its seven days. -/

def sampleOn : Nat → Bool := fun u => decide (100 ≤ u)

theorem sample_waits : History () sampleOn { deposit .empty 700 with last := 100 }
    ⟨[⟨50, 700⟩], 60, 100, false⟩ := by
  have made : History () sampleOn (deposit .empty 700) ⟨[⟨50, 700⟩], 0, 50, true⟩ :=
    .deposit (.deployed 0) (Nat.zero_le 50) 700
  have first : Allowed sampleOn (deposit .empty 700) ⟨[⟨50, 700⟩], 0, 50, true⟩ false 60 :=
    ⟨by decide, fun started => absurd rfl started, fun _ => rfl⟩
  have second : Allowed sampleOn { deposit .empty 700 with last := 60 } ⟨[⟨50, 700⟩], 60, 60, false⟩ false 100 := by
    refine ⟨by decide, fun _ u _ before => ?_, fun _ => rfl⟩
    exact decide_eq_false (by omega)
  exact .checkpoint (.checkpoint made first rfl) second rfl

theorem carry_formula_half : ∃ after, checkpoint () { deposit .empty 700 with last := 100 } true 302500 =
      .ok (after, 350) ∧ after.released ≤ 700 := by
  have allowed : Allowed sampleOn { deposit .empty 700 with last := 100 } ⟨[⟨50, 700⟩], 60, 100, false⟩ true
      302500 := by
    refine ⟨by decide, fun _ u later _ => ?_, fun fresh => by cases fresh⟩
    exact decide_eq_true later
  have half : (checkpoint () { deposit .empty 700 with last := 100 } true 302500).toOption.map Prod.snd =
      some 350 := by decide
  cases done : checkpoint () { deposit .empty 700 with last := 100 } true 302500 with
  | error fault => simp [done, Except.toOption] at half
  | ok result =>
    obtain ⟨after, amount⟩ := result
    have same : amount = 350 := by simpa [done, Except.toOption] using half
    subst same
    exact ⟨after, rfl, ((carry_formula sample_waits).1 true 302500 after 350 allowed done).2.2.1⟩

end Solonpad.CarryStream
