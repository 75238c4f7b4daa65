import Solonpad.StakingProgress

/-!
What a past epoch of a lane can still get. An event is logged at its own time, so nothing that is logged from now on
pays into the past: only the events that the lane has not read yet do, and what they pay is settled. A carry that
has given out all it holds pays nothing until one of them brings a deposit.
-/

namespace Solonpad.Staking

open Checked CarryStream Eligibility MergedLog
open Chain (Address)
open RewardToken (precision)

variable {epoch unlocked : Nat} {events rest consumed : List CarryEvent} {b after : Book} {e : CarryEvent}

/-! One book. -/

/-- However many of the events a book reads, the epoch stays under one unit. -/
def Short (epoch : Nat) : List CarryEvent → Book → Prop
  | [], b => b.creditTotal27 epoch < precision
  | e :: rest, b => b.creditTotal27 epoch < precision ∧
      ∀ after unlocked, b.absorb e = .ok (after, unlocked) → Short epoch rest after

theorem Short.now (short : Short epoch events b) : b.creditTotal27 epoch < precision := by
  cases events with
  | nil => exact short
  | cons e rest => exact short.1

theorem Short.reads (short : Short epoch (e :: rest) b) (read : b.absorb e = .ok (after, unlocked)) :
    Short epoch rest after :=
  short.2 after unlocked read

/-- An event of another day may follow. -/
theorem Short.snoc (short : Short epoch events b) (other : e.time / day ≠ epoch) : Short epoch (events ++ [e]) b := by
  induction events generalizing b with
  | nil =>
    constructor
    · exact short
    · intro after unlocked read
      have quiet := Quiet.absorb other read
      change after.creditTotal27 epoch < precision
      rw [quiet.credited]
      exact short
  | cons first rest ih =>
    constructor
    · exact short.1
    · intro after unlocked read
      exact ih (short.reads read)

/-- A payment at once on another day changes nothing. -/
theorem Short.noted (short : Short epoch events b) (other : e.time / day ≠ epoch) : Short epoch events (b.noted e) := by
  have same (b : Book) : (b.noted e).creditTotal27 epoch = b.creditTotal27 epoch := (Quiet.noted b other).credited
  induction events generalizing b with
  | nil =>
    change (b.noted e).creditTotal27 epoch < precision
    rw [same]
    exact short
  | cons first rest ih =>
    constructor
    · rw [same]
      exact short.1
    · intro after unlocked read
      obtain ⟨own, early⟩ := absorb_accepts (noted_stream b e) read
      have later := absorb_noted e early
      rw [read] at later
      cases later
      exact ih (short.reads early)

theorem noted_grows (b : Book) (e : CarryEvent) (epoch : Nat) :
    b.creditTotal27 epoch ≤ (b.noted e).creditTotal27 epoch := by
  by_cases here : e.time / day = epoch
  · rw [Book.noted]
    split
    · simp only [Book.distribute, here, Function.update_self]
      exact Nat.le_add_right _ _
    · exact le_rfl
  · exact (Quiet.noted b here).credited.ge

theorem absorb_grows (read : b.absorb e = .ok (after, unlocked)) (epoch : Nat) :
    b.creditTotal27 epoch ≤ after.creditTotal27 epoch := by
  by_cases here : e.time / day = epoch
  · obtain ⟨stream, _, ⟨_, _, rfl⟩ | ⟨_, rfl⟩⟩ := absorb_ok read
    · simp only [Book.release, here, Function.update_self]
      exact Nat.le_add_right _ _
    · exact le_rfl
  · exact (Quiet.absorb here read).credited.ge

/-! A carry that has given out all it holds. -/

/-- Nothing of the carry is left to unlock. -/
structure Idle (s : Stream) : Prop where
  covered : s.released ≤ s.deposited
  spent : s.deposited + s.pendingDeposit ≤ s.released

/-- It unlocks nothing, and is idle still unless the event brings a deposit. -/
theorem Idle.absorb (idle : Idle b.stream) (read : b.absorb e = .ok (after, unlocked)) :
    after.creditTotal27 = b.creditTotal27 ∧ (e.deposit27 = 0 → Idle after.stream) := by
  obtain ⟨stream, checked, branch⟩ := absorb_ok read
  simp only [checkpointCarry, bind_ok, pure_ok, Prod.mk.injEq] at checked
  obtain ⟨⟨middle, amount⟩, checked, rfl, rfl⟩ := checked
  obtain ⟨covered, kept, released, _⟩ := checkpoint_ok checked idle.covered
  have spent := idle.spent
  have none : amount = 0 := by omega
  rcases branch with ⟨some, _⟩ | ⟨_, rfl⟩
  · exact absurd none some
  · refine ⟨rfl, fun empty => ?_⟩
    simp only [empty, ne_eq, not_true_eq_false, if_false]
    exact ⟨covered, by omega⟩

/-- No unread deposit comes before an event of the epoch at which someone is staked. -/
def Unhidden (epoch : Nat) (events : List CarryEvent) : Prop :=
  events.Pairwise fun e later => e.deposit27 ≠ 0 → later.time / day = epoch → later.denominator = 0

/-- An event of another day, or without stakers, pays nothing into the epoch. -/
theorem absorb_apart (apart : e.time / day = epoch → e.denominator = 0)
    (read : b.absorb e = .ok (after, unlocked)) : after.creditTotal27 epoch = b.creditTotal27 epoch := by
  by_cases here : e.time / day = epoch
  · obtain ⟨stream, _, ⟨_, staked, _⟩ | ⟨_, rfl⟩⟩ := absorb_ok read
    · exact absurd (apart here) staked
    · rfl
  · exact (Quiet.absorb here read).credited

theorem short_apart (apart : ∀ e ∈ events, e.time / day = epoch → e.denominator = 0)
    (low : b.creditTotal27 epoch < precision) : Short epoch events b := by
  induction events generalizing b with
  | nil => exact low
  | cons e rest ih =>
    refine ⟨low, fun after unlocked read => ?_⟩
    apply ih (fun other member => apart other (List.mem_cons_of_mem e member))
    rw [absorb_apart (apart e (List.mem_cons_self ..)) read]
    exact low

/-- With an idle carry and no deposit in the way, reading on leaves the epoch as it is. -/
theorem Unhidden.short (unhidden : Unhidden epoch events) (idle : Idle b.stream)
    (low : b.creditTotal27 epoch < precision) : Short epoch events b := by
  induction events generalizing b with
  | nil => exact low
  | cons e rest ih =>
    obtain ⟨first, later⟩ := List.pairwise_cons.mp unhidden
    refine ⟨low, fun after unlocked read => ?_⟩
    obtain ⟨same, still⟩ := idle.absorb read
    have less : after.creditTotal27 epoch < precision := by
      rw [same]
      exact low
    by_cases empty : e.deposit27 = 0
    · exact ih later (still empty) less
    · -- from the first deposit on, no event of the epoch has stakers
      exact short_apart (fun other member => first other member empty) less

/-! One move. -/

/-- The epoch of the lane is short however much of its log is read. -/
def Core.Short (s : Core) (key : Key) (epoch : Nat) : Prop :=
  Staking.Short epoch (s.pending key) (s.lanes key).book

variable {clock : Nat → Nat} {cut : Option Nat} {now : Nat} {s next : Core} {key : Key}

theorem past_day {epoch now : Nat} (past : (epoch + 1) * day ≤ now) : now / day ≠ epoch := not_day past

/-- What a move does to a lane: a past epoch that was short is short, and no credit is taken back. -/
structure Late (now : Nat) (key : Key) (s next : Core) : Prop where
  present : (next.lanes key).present = true
  grows : ∀ epoch, (s.lanes key).book.creditTotal27 epoch ≤ (next.lanes key).book.creditTotal27 epoch
  short : ∀ epoch, (epoch + 1) * day ≤ now → s.Short key epoch → next.Short key epoch

theorem Late.refl (present : (s.lanes key).present = true) : Late now key s s :=
  ⟨present, fun _ => le_rfl, fun _ _ short => short⟩

theorem Late.trans {later : Nat} (first : Late now key s next) (order : now ≤ later) {last : Core}
    (second : Late later key next last) : Late now key s last :=
  ⟨second.present, fun epoch => (first.grows epoch).trans (second.grows epoch),
    fun epoch past short => second.short epoch (past.trans order) (first.short epoch past short)⟩

/-- A lane with the same events and the same book. -/
theorem Late.same (present : (next.lanes key).present = true) (pending : next.pending key = s.pending key)
    (book : (next.lanes key).book = (s.lanes key).book) : Late now key s next := by
  refine ⟨present, fun epoch => by rw [book], fun epoch past short => ?_⟩
  rw [Core.Short, pending, book]
  exact short

theorem Late.elsewhere {other : Key} (present : (s.lanes key).present = true) (ne : key ≠ other) (l : Reading)
    (sequence : Nat) : Late now key s (Core.setLane { s with sequence := sequence } other l) := by
  have lane : (Core.setLane { s with sequence := sequence } other l).lanes key = s.lanes key := setLane_other l ne
  apply Late.same
  · rw [lane]
    exact present
  · rw [Core.pending, Core.pending, lane]
    rfl
  · rw [lane]

/-- A weight event of now goes to the end of what is unread. -/
theorem Late.weighted (present : (s.lanes key).present = true) {e : CarryEvent} (time : e.time = now)
    (pending : next.pending key = s.pending key ++ [e]) (lane : next.lanes key = s.lanes key) :
    Late now key s next := by
  refine ⟨by rw [lane]; exact present, fun epoch => by rw [lane], fun epoch past short => ?_⟩
  rw [Core.Short, pending, lane]
  exact short.snoc (by rw [time]; exact past_day past)

theorem Move.late (move : Move cut now s next) (sound : Sound clock cut now s)
    (present : (s.lanes key).present = true) : Late now key s next := by
  have within := (sound.lanes key present).within
  have above : ∀ seq, s.sequence < seq → ∀ other ∈ (s.lanes key).events, other.seq < seq := by
    intro seq beyond other member
    exact (sound.laneEvents key other member).stands.old.trans_lt beyond
  cases move with
  | switch | logsWeight => exact .weighted present rfl (unread_left within (above _ (Nat.lt_succ_self _))) rfl
  | weighs | elects => exact .same present rfl rfl
  | logsLane own deposit27 direct27 =>
    by_cases same : key = own
    · subst same
      have pending := logged_pending ⟨clock, sound⟩ present (e := s.event cut now deposit27 direct27) rfl
      have lane : ((s.logged key (s.event cut now deposit27 direct27)).lanes key).book =
          (s.lanes key).book.noted (s.event cut now deposit27 direct27) := by
        rw [Core.logged, setLane_lane]
      constructor
      · rw [Core.logged, setLane_lane]
        exact present
      · intro epoch
        rw [lane]
        exact noted_grows _ _ epoch
      · intro epoch past short
        rw [Core.Short, pending, lane]
        have other : (s.event cut now deposit27 direct27).time / day ≠ epoch := past_day past
        exact (short.noted other).snoc other
    · exact .elsewhere present same _ (s.sequence + 1)
  | reads own e cursors book unlocked _ first read =>
    by_cases same : key = own
    · subst same
      have pending : s.pending key =
          e :: (s.setLane key { s.lanes key with book := book, cursors := cursors }).pending key := by
        rw [Core.pending, Core.pending, setLane_lane]
        exact next_some first
      constructor
      · rw [setLane_lane]
        exact present
      · intro epoch
        rw [setLane_lane]
        exact absorb_grows read epoch
      · intro epoch past short
        rw [Core.Short, pending] at short
        rw [Core.Short, setLane_lane]
        exact short.reads read
    · exact .elsewhere present same _ s.sequence
  | registers own absent =>
    have ne : key ≠ own := by
      rintro rfl
      rw [present] at absent
      cases absent
    exact .elsewhere present ne _ s.sequence
  | names own | seals own =>
    by_cases same : key = own
    · subst same
      apply Late.same
      · rw [setLane_lane]
        exact present
      · rw [Core.pending, Core.pending, setLane_lane]
        rfl
      · rw [setLane_lane]
    · exact .elsewhere present same _ s.sequence

theorem Founded.moves_late (founded : Founded cut now s) (moves : Moves cut now s next)
    (present : (s.lanes key).present = true) : Late now key s next := by
  induction moves with
  | refl => exact .refl present
  | tail earlier move ih =>
    obtain ⟨⟨clock, sound⟩, _⟩ := founded.moves earlier
    exact ih.trans le_rfl (move.late sound ih.present)

theorem turn_late {c : Config} {governance : Address} {sys after : System} (turn : Turn c governance sys after)
    (whole : sys.Whole) (present : (sys.staking.lanes key).present = true) :
    Late sys.now key sys.staking.core after.staking.core := by
  cases turn with
  | wait | govern => exact .refl present
  | call env call order taken =>
    have held := whole.wait order
    exact Late.trans (.refl present) order (held.moves_late (step_moves held taken) present)

end Solonpad.Staking
