import Solonpad.RewardRuns
import Solonpad.StakingHistory

/-!
Runs of the staking contract with its eligibility controller. A move adds to the histories and
leaves a sealed epoch of a lane alone, so does a call, and so does a run. In every reachable state
a credit is therefore the replay of a lane's payments, the credits of an epoch with its rounding
are its budget, and what was notified is in the budgets or still in the carry.
-/

namespace Solonpad.Staking

open Checked CarryStream Enrolment Eligibility ExpiringWeights IndexedCredit MergedLog RunningTotal
open Chain (Address)

variable {c : Config} {governance : Address} {clock : Nat → Nat} {cut : Option Nat} {now : Nat} {s mid next : Core}
  {key : Key} {epoch time : Nat} {b after : Book} {e : CarryEvent} {sys : System}

/-! What a move leaves alone. -/

/-- An epoch of a book gets nothing more. -/
structure Quiet (epoch : Nat) (b after : Book) : Prop where
  credited : after.creditTotal27 epoch = b.creditTotal27 epoch
  direct : ∃ new, after.direct.paid = b.direct.paid ++ new ∧ ∀ p ∈ new, inEpoch epoch p = false
  carried : ∃ new, after.carried.paid = b.carried.paid ++ new ∧ ∀ p ∈ new, inEpoch epoch p = false

theorem Quiet.refl (epoch : Nat) (b : Book) : Quiet epoch b b :=
  ⟨rfl, ⟨[], (List.append_nil _).symm, fun p member => by cases member⟩,
    ⟨[], (List.append_nil _).symm, fun p member => by cases member⟩⟩

theorem Quiet.trans {middle : Book} (first : Quiet epoch b middle) (second : Quiet epoch middle after) :
    Quiet epoch b after := by
  obtain ⟨credited, ⟨early, direct, silent⟩, early', carried, silent'⟩ := first
  obtain ⟨credited', ⟨late, direct', still⟩, late', carried', still'⟩ := second
  refine ⟨credited'.trans credited, ⟨early ++ late, ?_, ?_⟩, early' ++ late', ?_, ?_⟩
  · rw [direct', direct, List.append_assoc]
  · intro p member
    exact (List.mem_append.mp member).elim (silent p) (still p)
  · rw [carried', carried, List.append_assoc]
  · intro p member
    exact (List.mem_append.mp member).elim (silent' p) (still' p)

/-- A payment of another day. -/
theorem Quiet.paid (other : time / day ≠ epoch) (seq denominator amount delta : Nat) :
    inEpoch epoch ⟨seq, time, denominator, amount, delta⟩ = false := by
  rw [inEpoch_iff]
  exact decide_eq_false other

theorem Quiet.noted (b : Book) (other : e.time / day ≠ epoch) : Quiet epoch b (b.noted e) := by
  rw [Book.noted]
  split
  · refine ⟨Function.update_of_ne (Ne.symm other) _ _, ⟨_, rfl, fun p only => ?_⟩,
      (Quiet.refl epoch b).carried⟩
    rw [List.mem_singleton.mp only]
    exact Quiet.paid other _ _ _ _
  · exact .refl epoch b

theorem Quiet.absorb {unlocked : Nat} (other : e.time / day ≠ epoch) (read : b.absorb e = .ok (after, unlocked)) :
    Quiet epoch b after := by
  obtain ⟨stream, _, ⟨_, _, rfl⟩ | ⟨_, rfl⟩⟩ := absorb_ok read
  · refine ⟨Function.update_of_ne (Ne.symm other) _ _, (Quiet.refl epoch b).direct, ⟨_, rfl, fun p only => ?_⟩⟩
    rw [List.mem_singleton.mp only]
    exact Quiet.paid other _ _ _ _
  · exact ⟨rfl, (Quiet.refl epoch b).direct, (Quiet.refl epoch b).carried⟩

structure Keeps (now : Nat) (s next : Core) : Prop where
  grows : Grows s next
  enrols : Enrols now s.participants next.participants
  closed : ∀ key epoch, (s.lanes key).rewardSealed epoch = true →
    (next.lanes key).rewardSealed epoch = true ∧
      Quiet epoch (s.lanes key).book (next.lanes key).book

theorem Grows.trans (first : Grows s mid) (second : Grows mid next) : Grows s next := by
  refine ⟨first.order.trans second.order, fun a => ?_⟩
  obtain ⟨early, eq, beyond⟩ := first.points a
  obtain ⟨late, eq', beyond'⟩ := second.points a
  refine ⟨early ++ late, by rw [eq', eq, List.append_assoc], fun w member => ?_⟩
  rcases List.mem_append.mp member with old | new
  · exact beyond w old
  · exact first.order.trans_lt (beyond' w new)

theorem Keeps.refl (now : Nat) (s : Core) : Keeps now s s :=
  ⟨.same le_rfl rfl, .refl now _, fun _ _ sealed => ⟨sealed, .refl _ _⟩⟩

theorem Keeps.trans {later : Nat} (first : Keeps now s mid) (order : now ≤ later)
    (second : Keeps later mid next) : Keeps now s next := by
  refine ⟨first.grows.trans second.grows, first.enrols.trans order second.enrols, ?_⟩
  intro key epoch sealed
  obtain ⟨still, quiet⟩ := first.closed key epoch sealed
  obtain ⟨ends, quiet'⟩ := second.closed key epoch still
  exact ⟨ends, quiet.trans quiet'⟩

/-- A move of one lane that is quiet in its sealed epochs. -/
theorem Keeps.lane {l : Reading} {sequence : Nat} (order : s.sequence ≤ sequence)
    (closed : ∀ epoch, (s.lanes key).rewardSealed epoch = true →
      l.rewardSealed epoch = true ∧ Quiet epoch (s.lanes key).book l.book) :
    Keeps now s (Core.setLane { s with sequence := sequence } key l) := by
  refine ⟨.same order rfl, .refl now _, fun other epoch sealed => ?_⟩
  by_cases same : other = key
  · subst same
    rw [setLane_lane]
    exact closed epoch sealed
  · rw [setLane_other l same]
    exact ⟨sealed, .refl _ _⟩

theorem not_day {epoch time : Nat} (late : (epoch + 1) * day ≤ time) : time / day ≠ epoch := by
  simp only [day] at late ⊢
  omega

theorem Move.keeps (move : Move cut now s next) (sound : Sound clock cut now s) : Keeps now s next := by
  have blank : ∀ {key}, (s.lanes key).present = false → ∀ epoch, (s.lanes key).rewardSealed epoch ≠ true := by
    intro key absent epoch sealed
    rw [sound.blank key absent] at sealed
    cases sealed
  cases move with
  | switch | logsWeight =>
    exact ⟨.same (Nat.le_succ _) rfl, .refl now _, fun _ _ sealed => ⟨sealed, .refl _ _⟩⟩
  | elects =>
    exact ⟨.same le_rfl rfl, .refl now _, fun _ _ sealed => ⟨sealed, .refl _ _⟩⟩
  | weighs account roll joins =>
    refine ⟨weigh_grows s now account roll joins, ?_, fun _ _ sealed => ⟨sealed, .refl _ _⟩⟩
    cases joins with
    | false => exact .refl now _
    | true => exact .one now _ account
  | logsLane key deposit27 direct27 _ present =>
    apply Keeps.lane (Nat.le_succ _)
    intro epoch sealed
    exact ⟨sealed, .noted _ (not_day ((sound.lanes key present).closed epoch sealed).1)⟩
  | reads key e cursors book unlocked present first read =>
    apply Keeps.lane le_rfl
    intro epoch sealed
    refine ⟨sealed, .absorb (not_day ?_) read⟩
    have pending : e ∈ s.pending key := by
      rw [Core.pending, next_some first]
      exact List.mem_cons_self ..
    exact ((sound.lanes key present).closed epoch sealed).2 e pending
  | registers key absent =>
    apply Keeps.lane le_rfl
    intro epoch sealed
    exact absurd sealed (blank absent epoch)
  | names key entrySource present =>
    apply Keeps.lane le_rfl
    intro epoch sealed
    exact ⟨sealed, .refl _ _⟩
  | seals key own present =>
    apply Keeps.lane le_rfl
    intro epoch sealed
    refine ⟨?_, .refl _ _⟩
    by_cases same : epoch = own
    · subst same
      exact Function.update_self ..
    · exact (Function.update_of_ne same ..).trans sealed

/-- The clock is kept for the proofs. -/
def Founded (cut : Option Nat) (now : Nat) (s : Core) : Prop := ∃ clock, Sound clock cut now s

theorem Founded.move (founded : Founded cut now s) (move : Move cut now s next) :
    Founded cut now next ∧ Keeps now s next := by
  obtain ⟨clock, sound⟩ := founded
  exact ⟨⟨_, sound.tick.move (tick_next clock s.sequence now) move⟩, move.keeps sound⟩

theorem Founded.moves (founded : Founded cut now s) (moves : Moves cut now s next) :
    Founded cut now next ∧ Keeps now s next := by
  induction moves with
  | refl => exact ⟨founded, .refl now s⟩
  | tail _ move ih =>
    obtain ⟨held, keeps⟩ := ih
    obtain ⟨kept, more⟩ := held.move move
    exact ⟨kept, keeps.trans le_rfl more⟩

/-! Time. -/

theorem Sound.later (sound : Sound clock cut now s) {later : Nat} (order : now ≤ later) :
    Sound clock cut later s where
  running := sound.running.later order
  passed start begun := (sound.passed start begun).trans order
  weighed := sound.weighed
  histories := sound.histories
  weightEvents := sound.weightEvents
  laneEvents := sound.laneEvents
  lanes key present := by
    obtain ⟨rising, within, born, replays, notified, closed⟩ := sound.lanes key present
    refine ⟨rising, within, born, replays, notified, fun epoch sealed => ?_⟩
    obtain ⟨past, pending⟩ := closed epoch sealed
    exact ⟨past.trans order, pending⟩
  blank := sound.blank
  elected := sound.elected
  enrolled := sound.enrolled.later order
  listed := sound.listed
  earners := sound.earners

/-- Mode A starts after everything that was logged. -/
theorem Sound.begin (sound : Sound clock none now s) {start later : Nat} (after : now < start)
    (begun : start ≤ later) : Sound clock (some start) later s := by
  have late := sound.later (after.le.trans begun)
  have fits : ∀ e, Fits clock none s e → Fits clock (some start) s e := by
    rintro e ⟨stands, whole⟩
    have early : e.time < start := by
      rw [stands.timed]
      exact (sound.running.past e.seq).trans_lt after
    exact ⟨stands, whole.of_eq (fun a => weightAt_cut early e.seq) rfl⟩
  refine ⟨late.running, ?_, sound.weighed.later (fun on => by cases on), late.histories,
    fun e member => fits e (late.weightEvents e member),
    fun key e member => fits e (late.laneEvents key e member), late.lanes, late.blank, late.elected,
    late.enrolled, late.listed, late.earners⟩
  intro other eq
  cases eq
  exact begun

theorem cutoff_passed (k : Controller) (now : Nat) {start : Nat} (begun : k.cutoff now = some start) : start ≤ now := by
  simp only [Controller.cutoff] at begun
  split at begun
  · next on =>
    cases begun
    exact (enabled_iff.mp on).2
  · cases begun

theorem Founded.wait {k : Controller} (founded : Founded (k.cutoff now) now s) {later : Nat}
    (order : now ≤ later) : Founded (k.cutoff later) later s := by
  obtain ⟨clock, sound⟩ := founded
  refine ⟨clock, ?_⟩
  rcases k.cutoff_later order with same | ⟨off, start, on, after⟩
  · rw [same]
    exact sound.later order
  · rw [off] at sound
    rw [on]
    exact sound.begin after (cutoff_passed k later on)

/-! Runs. -/

/-- The start of mode A is what it was, or lies behind all that happened. -/
def Starts (now : Nat) (cut later : Option Nat) : Prop :=
  later = cut ∨ cut = none ∧ ∃ start, later = some start ∧ now < start

theorem Starts.trans {middle later : Option Nat} (first : Starts now cut middle) (order : now ≤ time)
    (second : Starts time middle later) : Starts now cut later := by
  rcases first with rfl | ⟨off, start, rfl, after⟩
  · rcases second with rfl | ⟨off, start, on, after⟩
    · exact .inl rfl
    · exact .inr ⟨off, start, on, order.trans_lt after⟩
  · rcases second with rfl | ⟨on, _⟩
    · exact .inr ⟨off, start, rfl, after⟩
    · cases on

def System.Whole (sys : System) : Prop :=
  Founded (sys.controller.cutoff sys.now) sys.now sys.staking.core

structure Later (sys after : System) : Prop where
  order : sys.now ≤ after.now
  starts : Starts sys.now (sys.controller.cutoff sys.now) (after.controller.cutoff after.now)
  keeps : Keeps sys.now sys.staking.core after.staking.core

/-- A call is a chain of moves. -/
theorem step_moves {k : Controller} {env : Env} {call : Call} {s after : State}
    (founded : Founded (k.cutoff env.now) env.now s.core) (taken : step c s k env call = .ok after) :
    Moves (k.cutoff env.now) env.now s.core after.core := by
  obtain ⟨clock, sound⟩ := founded
  have named : ∀ key, (s.lanes key).entrySource ≠ 0 → (s.lanes key).present = true := by
    intro key some
    by_contra absent
    have blank := sound.blank key (Bool.eq_false_of_not_eq_true absent)
    exact some (congrArg Reading.entrySource blank)
  exact (step_passes sound.weighed named sound.elected taken).moves

theorem step_founded {k : Controller} {env : Env} {call : Call} {s after : State}
    (founded : Founded (k.cutoff env.now) env.now s.core) (taken : step c s k env call = .ok after) :
    Founded (k.cutoff env.now) env.now after.core ∧ Keeps env.now s.core after.core :=
  founded.moves (step_moves founded taken)

theorem turn_whole {sys after : System} (turn : Turn c governance sys after) (whole : sys.Whole) :
    after.Whole ∧ Later sys after := by
  cases turn with
  | wait now order => exact ⟨whole.wait order, order, sys.controller.cutoff_later order, .refl _ _⟩
  | govern env action order taken =>
    have waited := whole.wait order
    have same := step_cutoff governance taken
    have starts : Starts sys.now (sys.controller.cutoff sys.now) (sys.controller.cutoff env.now) :=
      sys.controller.cutoff_later order
    rw [← same] at starts waited
    exact ⟨waited, order, starts, .refl _ _⟩
  | call env call order taken =>
    have stepped : _ ∧ Keeps env.now sys.staking.core _ := step_founded (whole.wait order) taken
    obtain ⟨founded, keeps⟩ := stepped
    exact ⟨founded, order, sys.controller.cutoff_later order, Keeps.trans (.refl sys.now _) order keeps⟩

theorem run_whole {sys final : System} (run : Run c governance sys final) (whole : sys.Whole) :
    final.Whole ∧ Later sys final := by
  induction run with
  | refl => exact ⟨whole, le_rfl, .inl rfl, .refl _ _⟩
  | tail _ turn ih =>
    obtain ⟨held, order, starts, keeps⟩ := ih
    obtain ⟨kept, order', starts', more⟩ := turn_whole turn held
    exact ⟨kept, order.trans order', starts.trans order starts', keeps.trans order more⟩

theorem start_whole (k : Controller) (now : Nat) : (start k now).Whole := by
  refine ⟨fun _ => 0, ⟨fun _ _ _ => le_rfl, fun _ => Nat.zero_le _⟩, ?_, .empty _, ?_, ?_, ?_, ?_,
    fun _ _ => rfl, ?_, .empty _, ?_, ?_⟩
  · intro begin begun
    exact cutoff_passed k now begun
  · intro a
    refine ⟨.nil, ?_, fun _ => rfl, ?_⟩
    · intro w member
      cases member
    · intro w found
      cases found
  · intro e member
    cases member
  · intro key e member
    cases member
  · intro key present
    cases present
  · intro key chosen
    cases chosen
  · intro a
    constructor
    · intro seen
      cases seen
    · rintro ⟨since, member⟩
      cases member
  · intro a w member
    cases member

/-! What a credit is. -/

/-- What the payments of an epoch were worth to an account. -/
def Core.worth (s : Core) (cut : Option Nat) (a : Address) (epoch : Nat) (paid : List Payment) : Nat :=
  sumOf paid (inEpoch epoch) (fun p => s.weightAt cut p.seq p.time a * p.delta)

/-- Payments of the past, each over what weighed when its event was logged. -/
structure Earned (clock : Nat → Nat) (cut : Option Nat) (s : Core) (paid : List Payment) : Prop where
  rising : Rising Payment.seq Payment.time paid
  stands : ∀ p ∈ paid, Stands clock s.sequence p.seq p.time
  whole : ∀ p ∈ paid, Totals (s.weightAt cut p.seq p.time) p.denominator

/-- A side whose payments carry the stamps of logged events. -/
theorem Sound.earned (sound : Sound clock cut now s) (present : (s.lanes key).present = true) {paid : List Payment}
    (stamped : (paid.map stampOf).Sublist ((s.log key).map CarryEvent.stamp)) : Earned clock cut s paid := by
  have found : ∀ p ∈ paid, ∃ e ∈ s.log key, e.stamp = stampOf p := by
    intro p member
    exact List.mem_map.mp (stamped.subset (List.mem_map_of_mem member))
  constructor
  · have ordered : ((s.log key).map CarryEvent.stamp).Pairwise
        fun earlier later => earlier.1 < later.1 ∧ earlier.2.1 ≤ later.2.1 := by
      rw [List.pairwise_map]
      apply (sound.lanes key present).rising.imp_of_mem
      intro earlier later first second order
      refine ⟨order, ?_⟩
      change earlier.time ≤ later.time
      rw [(sound.logged first).stands.timed, (sound.logged second).stands.timed]
      exact sound.running.mono (Nat.le_of_lt order)
    exact List.pairwise_map.mp (ordered.sublist stamped)
  · intro p member
    obtain ⟨e, logged, same⟩ := found p member
    simp only [CarryEvent.stamp, stampOf, Prod.mk.injEq] at same
    obtain ⟨seq, time, _⟩ := same
    rw [← seq, ← time]
    exact (sound.logged logged).stands
  · intro p member
    obtain ⟨e, logged, same⟩ := found p member
    simp only [CarryEvent.stamp, stampOf, Prod.mk.injEq] at same
    obtain ⟨seq, time, denominator⟩ := same
    rw [← seq, ← time, ← denominator]
    exact (sound.logged logged).whole

theorem Sound.ordered (sound : Sound clock cut now s) (a : Address) :
    Ordered clock (standingsOf cut (s.weights a)) := by
  constructor
  · rw [standingsOf, List.pairwise_map]
    exact (sound.histories a).rising
  · intro w member
    obtain ⟨point, inside, rfl⟩ := List.mem_map.mp member
    exact ((sound.histories a).stands point inside).timed

/-- One side's credit is the replay of its payments. -/
theorem Sound.side_credit (sound : Sound clock cut now s) {paid : List Payment} {history : List IndexPoint}
    {index : Nat} (tracks : Tracks history paid index) (earned : Earned clock cut s paid) (a : Address) (epoch : Nat) :
    credit history (standingsOf cut (s.weights a)) (epoch * day) ((epoch + 1) * day) =
      s.worth cut a epoch paid :=
  credit_eq tracks earned.rising sound.running.mono (fun p member => (earned.stands p member).timed)
    (sound.ordered a) _ _

/-- Both sides of a lane's book. -/
structure Books (clock : Nat → Nat) (cut : Option Nat) (s : Core) (b : Book) : Prop where
  direct : Earned clock cut s b.direct.paid
  carried : Earned clock cut s b.carried.paid
  conserved : Conserved b

theorem Sound.books (sound : Sound clock cut now s) (key : Key) : Books clock cut s (s.lanes key).book := by
  cases present : (s.lanes key).present with
  | false =>
    rw [sound.blank key present]
    have none : Earned clock cut s [] := by
      refine ⟨.nil, ?_, ?_⟩
      · intro p member
        cases member
      · intro p member
        cases member
    exact ⟨none, none, .empty⟩
  | true =>
    obtain ⟨consumed, split, replays⟩ := (sound.lanes key present).replays
    obtain ⟨direct, carried⟩ := replays.paid
    refine ⟨sound.earned present direct, sound.earned present (carried.trans ?_), replays.conserved⟩
    rw [← split, List.map_append]
    exact List.sublist_append_left _ _

theorem Sound.credit (sound : Sound clock cut now s) (key : Key) (a : Address) (epoch : Nat) :
    (s.lanes key).book.creditOf (standingsOf cut (s.weights a)) epoch =
      s.worth cut a epoch (s.lanes key).book.direct.paid +
        s.worth cut a epoch (s.lanes key).book.carried.paid := by
  obtain ⟨direct, carried, conserved⟩ := sound.books key
  rw [Book.creditOf, sound.side_credit conserved.direct direct,
    sound.side_credit conserved.carried carried]

/-- What all accounts are credited in an epoch, its dust and what is live are its total. -/
theorem Sound.epoch_total (sound : Sound clock cut now s) (key : Key) (epoch : Nat) :
    ∃ sum, Totals (fun a => (s.lanes key).book.creditOf (standingsOf cut (s.weights a)) epoch) sum ∧
      sum + (s.lanes key).book.dust27 epoch +
        ((s.lanes key).book.direct.live epoch + (s.lanes key).book.carried.live epoch) =
        (s.lanes key).book.creditTotal27 epoch := by
  obtain ⟨direct, carried, conserved⟩ := sound.books key
  have first := replay_sums _ (inEpoch epoch) (fun p => s.weightAt cut p.seq p.time) direct.whole
  have second := replay_sums _ (inEpoch epoch) (fun p => s.weightAt cut p.seq p.time) carried.whole
  refine ⟨_, (first.add second).of_eq (fun a => sound.credit key a epoch) rfl, ?_⟩
  have sums := conserved.epochs epoch
  simp only [Side.out] at sums
  exact sums

/-- What was notified is in the epochs, in the carry, or in deposits not read yet. -/
theorem Sound.notified (sound : Sound clock cut now s) (present : (s.lanes key).present = true) :
    ∃ budgets, Totals (s.lanes key).book.creditTotal27 budgets ∧
      budgets + (s.lanes key).book.stream.held + total CarryEvent.deposit27 (s.pending key) =
        (s.lanes key).totalNotified27 := by
  have fits := sound.lanes key present
  obtain ⟨consumed, split, replays⟩ := fits.replays
  obtain ⟨_, budgets, sums, balanced⟩ := replays.balanced
  refine ⟨budgets, sums, ?_⟩
  have whole := congrArg (total CarryEvent.deposit27) split
  rw [total_append] at whole
  rw [fits.notified, balanced, ← whole, Nat.add_assoc]

/-! Runs that can be evaluated. -/

def System.call (c : Config) (sys : System) (call : Env × Call) : Tx System := do
  let staking ← step c sys.staking sys.controller call.1 call.2
  pure ⟨staking, sys.controller, call.1.now⟩

theorem Run.of_calls {c : Config} (governance : Address) (k : Controller) (now : Nat) (calls : List (Env × Call))
    (test : System → Bool)
    (passes : (Transition.run (System.call c) (fun sys call => sys.now ≤ call.1.now)
      (start k now) calls).any test = true) :
    ∃ sys, Run c governance (start k now) sys ∧ test sys = true := by
  obtain ⟨sys, reached, passed⟩ := Transition.run_passes _ _ calls _ test passes
  refine ⟨sys, ?_, passed⟩
  refine reached.invariant .refl ?_
  intro before call after run taken
  obtain ⟨order, taken⟩ := taken
  simp only [System.call, bind_ok, pure_ok] at taken
  obtain ⟨staking, taken, rfl⟩ := taken
  exact run.tail (.call call.1 call.2 order taken)

/-- The staked token is 2, the ledger 3 and the configurator 4. -/
def sample : Config := ⟨1, 2, 3, 4⟩

def calls (sender now : Nat) : Env :=
  ⟨sender, now, 0, fun _ => true, ⟨fun _ => ⟨0, 0, 0, 0, 0, false⟩, fun _ => false⟩,
    fun _ _ _ _ => none, none, true, fun _ => true, fun _ _ => true, 20⟩

def sampleLane : Key := laneKey (.raw 5) 7 0

/-- A fee of seven waits for stakers, and one of nine is for the two who came. -/
def twoStakers : List (Env × Call) :=
  [(calls 4 100, .configureSource (.raw 5) 0 0 ⟨7, 1, 1, 1⟩), (calls 3 100, .onFeeCredit (.raw 5) 0 0 7),
    (calls 10 200, .stake 10 (10 ^ 18)), (calls 11 200, .stake 11 (3 * 10 ^ 18)),
    (calls 3 300, .onFeeCredit (.raw 5) 0 0 9), (calls 4 100000, .releaseCarry sampleLane 256)]

def sealedLane : List (Env × Call) :=
  twoStakers ++ [(calls 4 100000, .createEntrySource sampleLane), (calls 20 100000, .sealSource sampleLane 0)]

/-! Credits, budgets and the carry. -/

/-- In every epoch of a lane that has read its log, what its stakers are credited, its dust and what
is live are its total; and these totals with what the carry holds are all that was notified. -/
theorem staking_conserved {k : Controller} {now : Nat} {sys : System}
    (reached : Run c governance (start k now) sys) (key : Key)
    (present : (sys.staking.lanes key).present = true) (read : pending sys.staking key = []) :
    (∀ e, ∃ sum,
      Totals (fun a => sourceCredit sys.staking (sys.controller.cutoff sys.now) key a e) sum ∧
      sum + (sys.staking.lanes key).book.dust27 e +
        ((sys.staking.lanes key).book.direct.live e + (sys.staking.lanes key).book.carried.live e) =
        (sys.staking.lanes key).book.creditTotal27 e) ∧
    ∃ budgets, Totals (sys.staking.lanes key).book.creditTotal27 budgets ∧
      budgets + (sys.staking.lanes key).book.stream.held =
        (sys.staking.lanes key).totalNotified27 := by
  obtain ⟨⟨clock, sound⟩, _⟩ := run_whole reached (start_whole k now)
  constructor
  · intro e
    exact sound.epoch_total key e
  · obtain ⟨budgets, sums, balanced⟩ := sound.notified present
    have none : sys.staking.core.pending key = [] := read
    rw [none] at balanced
    exact ⟨budgets, sums, balanced⟩

theorem staking_conserved_two : ∃ sys, Run sample 9 (start .empty 100) sys ∧
    (sys.staking.lanes sampleLane).totalNotified27 = 16 * 10 ^ 27 ∧
    ∃ budgets, Totals (sys.staking.lanes sampleLane).book.creditTotal27 budgets ∧
      budgets + (sys.staking.lanes sampleLane).book.stream.held = 16 * 10 ^ 27 := by
  obtain ⟨sys, reached, passed⟩ := Run.of_calls (c := sample) 9 .empty 100 twoStakers
    (fun sys => decide ((sys.staking.lanes sampleLane).present = true ∧
      (sys.staking.lanes sampleLane).cursors.left = sys.staking.weightEvents.length ∧
      (sys.staking.lanes sampleLane).cursors.right = (sys.staking.lanes sampleLane).events.length ∧
      (sys.staking.lanes sampleLane).totalNotified27 = 16 * 10 ^ 27)) (by decide)
  obtain ⟨present, left, right, total⟩ := of_decide_eq_true passed
  have read : sys.staking.core.pending sampleLane = [] := pending_ends left right
  obtain ⟨_, budgets, sums, balanced⟩ := staking_conserved reached sampleLane present read
  exact ⟨sys, reached, total, budgets, sums, by rw [balanced, total]⟩

/-! The past. -/

theorem worth_quiet {later : Option Nat} {epoch : Nat} {paid new all : List Payment} (grown : all = paid ++ new)
    (quiet : ∀ p ∈ new, inEpoch epoch p = false) (a : Address)
    (same : ∀ p ∈ paid, next.weightAt later p.seq p.time a = s.weightAt cut p.seq p.time a) :
    next.worth later a epoch all = s.worth cut a epoch paid := by
  have none : sumOf new (inEpoch epoch) (fun p => next.weightAt later p.seq p.time a * p.delta) = 0 :=
    sumOf_false quiet
  have split : next.worth later a epoch all = next.worth later a epoch paid +
      sumOf new (inEpoch epoch) (fun p => next.weightAt later p.seq p.time a * p.delta) := by
    rw [grown, Core.worth, Core.worth, sumOf, sumOf, sumOf, List.map_append, List.sum_append]
  rw [split, none, Nat.add_zero]
  apply sumOf_congr
  intro p member
  rw [same p member]

/-- What stood when a payment was made stands for ever. -/
theorem Later.weightAt {after : System} (later : Later sys after)
    (sound : Sound clock (sys.controller.cutoff sys.now) sys.now sys.staking.core) {seq : Nat}
    (stands : Stands clock sys.staking.core.sequence seq time) (a : Address) :
    after.staking.core.weightAt (after.controller.cutoff after.now) seq time a =
      sys.staking.core.weightAt (sys.controller.cutoff sys.now) seq time a := by
  have old : after.staking.core.weightAt (sys.controller.cutoff sys.now) seq time a =
      sys.staking.core.weightAt (sys.controller.cutoff sys.now) seq time a :=
    later.keeps.grows.weightAt stands.old time a
  rw [← old]
  rcases later.starts with same | ⟨off, start, on, behind⟩
  · rw [same]
  · rw [on, off]
    apply weightAt_cut
    rw [stands.timed]
    exact (sound.running.past seq).trans_lt behind

/-- A sealed epoch of a lane: its total and every credit stay as they are. -/
theorem Later.sealed {after : System} (later : Later sys after) (whole : sys.Whole) (whole' : after.Whole) {key : Key}
    (closed : (sys.staking.lanes key).rewardSealed epoch = true) :
    (after.staking.lanes key).book.creditTotal27 epoch =
        (sys.staking.lanes key).book.creditTotal27 epoch ∧
      ∀ a, sourceCredit after.staking (after.controller.cutoff after.now) key a epoch =
        sourceCredit sys.staking (sys.controller.cutoff sys.now) key a epoch := by
  obtain ⟨clock, sound⟩ := whole
  obtain ⟨clock', sound'⟩ := whole'
  obtain ⟨_, credited, ⟨new, direct, silent⟩, new', carried, silent'⟩ :=
    later.keeps.closed key epoch closed
  refine ⟨credited, fun a => ?_⟩
  have after_ := sound'.credit key a epoch
  have before := sound.credit key a epoch
  have books := sound.books key
  rw [worth_quiet direct silent a
      (fun p member => later.weightAt sound (books.direct.stands p member) a),
    worth_quiet carried silent' a
      (fun p member => later.weightAt sound (books.carried.stands p member) a), ← before] at after_
  exact after_

/-- The past keeps its credits: a day of a reward token that has ended, and an epoch that was sealed
on a lane of the staking contract. -/
theorem past_epochs_frozen :
    (∀ {c : RewardToken.Config} {governance : Address} {k : Controller} {now : Nat}
      {sys final : RewardToken.System}, RewardToken.Run c governance (RewardToken.start c k now) sys →
      RewardToken.Run c governance sys final → ∀ e, (e + 1) * day ≤ sys.now →
        final.token.epochBudget e = sys.token.epochBudget e ∧
        ∀ a, final.token.epochCredit27 (final.token.cutoff final.controller final.now) a e =
          sys.token.epochCredit27 (sys.token.cutoff sys.controller sys.now) a e) ∧
    ∀ {c : Config} {governance : Address} {k : Controller} {now : Nat} {sys final : System},
      Run c governance (start k now) sys → Run c governance sys final →
      ∀ key e, (sys.staking.lanes key).rewardSealed e = true →
        (final.staking.lanes key).book.creditTotal27 e = (sys.staking.lanes key).book.creditTotal27 e ∧
        ∀ a, sourceCredit final.staking (final.controller.cutoff final.now) key a e =
          sourceCredit sys.staking (sys.controller.cutoff sys.now) key a e := by
  constructor
  · intro c governance k now sys final reached further e ended
    obtain ⟨whole, _⟩ := RewardToken.run_whole reached (RewardToken.start_whole c k now)
    obtain ⟨whole', later⟩ := RewardToken.run_whole further whole
    have dated : ∀ event ∈ final.token.credits, event.epoch = event.time / day :=
      fun event member => (whole'.sound.indexed.dated event member).2
    constructor
    · rw [whole.sound.kept.budgets, whole'.sound.kept.budgets]
      exact (later.frozen ended dated 0).2
    · intro a
      rw [whole.epochCredit27_ok, whole'.epochCredit27_ok, (later.frozen ended dated a).1]
  · intro c governance k now sys final reached further key e closed
    obtain ⟨whole, _⟩ := run_whole reached (start_whole k now)
    obtain ⟨whole', later⟩ := run_whole further whole
    exact later.sealed whole whole' closed

/-- A day after the holders' transfer, and a day after the lane was sealed. -/
theorem past_epochs_frozen_two :
    (∃ sys final, RewardToken.Run RewardToken.sample 9 (RewardToken.start RewardToken.sample .empty 100) sys ∧
      RewardToken.Run RewardToken.sample 9 sys final ∧ 9 = final.token.epochBudget 0) ∧
    ∃ sys final, Run sample 9 (start .empty 100) sys ∧ Run sample 9 sys final ∧
      6750868053 * 10 ^ 18 = sourceCredit final.staking (final.controller.cutoff final.now) sampleLane 11 0 := by
  constructor
  · obtain ⟨sys, reached, passed⟩ := RewardToken.Run.of_calls (c := RewardToken.sample) 9 .empty 100
      RewardToken.twoHolders (fun sys => decide (sys.now ≤ 86400 ∧ sys.token.epochBudget 0 = 9)) (by decide)
    obtain ⟨order, budget⟩ := of_decide_eq_true passed
    have more : 86400 ≤ 200000 := by decide
    refine ⟨_, _, reached.tail (.wait 86400 order), .single (.wait 200000 more), ?_⟩
    have frozen := (past_epochs_frozen.1 (reached.tail (.wait 86400 order))
      (.single (.wait 200000 more)) 0 (Nat.le_refl 86400)).1
    rw [frozen]
    exact budget.symm
  · obtain ⟨sys, reached, passed⟩ := Run.of_calls (c := sample) 9 .empty 100 sealedLane
      (fun sys => decide (sys.now ≤ 200000 ∧ (sys.staking.lanes sampleLane).rewardSealed 0 = true ∧
        6750868053 * 10 ^ 18 =
          sourceCredit sys.staking (sys.controller.cutoff sys.now) sampleLane 11 0)) (by decide)
    obtain ⟨order, closed, value⟩ := of_decide_eq_true passed
    refine ⟨sys, _, reached, .single (.wait 200000 order), ?_⟩
    rw [value]
    exact ((past_epochs_frozen.2 reached (.single (.wait 200000 order)) sampleLane 0 closed).2 11).symm

end Solonpad.Staking
