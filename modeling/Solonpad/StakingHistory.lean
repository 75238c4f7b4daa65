import Solonpad.Enrolment
import Solonpad.StakingMoves

/-!
One clock shows the time of every sequence number. By it each account's points stand in order, each
logged event has for denominator the sum of the weights that stood then, and each lane's book
replays the part of its log that it has read. A move logs at the next number, now, so what stood at
earlier numbers stays.
-/

namespace Solonpad.Staking

open Checked Enrolment Eligibility ExpiringWeights IndexedCredit MergedLog RunningTotal
open Chain (Address)

variable {clock : Nat → Nat} {cut : Option Nat} {now last : Nat} {seq : Nat} {e : CarryEvent}
  {roll : Roll Address}

/-! The clock. -/

structure Clock (clock : Nat → Nat) (now : Nat) : Prop where
  mono : Monotone clock
  past : ∀ n, clock n ≤ now

/-- From here on the clock shows `now`. -/
def tick (clock : Nat → Nat) (last now : Nat) : Nat → Nat :=
  fun n => if n ≤ last then clock n else now

theorem tick_old (clock : Nat → Nat) (now : Nat) {n : Nat} (old : n ≤ last) :
    tick clock last now n = clock n := if_pos old

theorem tick_next (clock : Nat → Nat) (last now : Nat) : tick clock last now (last + 1) = now :=
  if_neg (by omega)

theorem Clock.tick (running : Clock clock now) (last : Nat) : Clock (tick clock last now) now := by
  constructor
  · intro early late order
    unfold Staking.tick
    by_cases old : late ≤ last
    · rw [if_pos (order.trans old), if_pos old]
      exact running.mono order
    · rw [if_neg old]
      split
      · exact running.past early
      · exact le_rfl
  · intro n
    unfold Staking.tick
    split
    · exact running.past n
    · exact le_rfl

theorem Clock.later (running : Clock clock now) {later : Nat} (order : now ≤ later) : Clock clock later :=
  ⟨running.mono, fun n => (running.past n).trans order⟩

/-- A stamp of the past. -/
structure Stands (clock : Nat → Nat) (last seq time : Nat) : Prop where
  old : seq ≤ last
  timed : time = clock seq

theorem Stands.later {time later : Nat} (stands : Stands clock last seq time) (order : last ≤ later) :
    Stands clock later seq time :=
  ⟨stands.old.trans order, stands.timed⟩

theorem Stands.tick {time : Nat} (stands : Stands clock last seq time) : Stands (tick clock last now) last seq time :=
  ⟨stands.old, stands.timed.trans (tick_old clock now stands.old).symm⟩

/-! Points. -/

/-- The last point shows the weight of today. -/
structure Shows (r : Roll Address) (a : Address) (w : WeightPoint) : Prop where
  weight : w.weight = r.eligible a
  generation : w.generation = r.accountGeneration a
  expiry : w.expiry = r.accountExpiry a

structure History (clock : Nat → Nat) (last : Nat) (r : Roll Address) (a : Address)
    (points : List WeightPoint) : Prop where
  rising : points.Pairwise fun earlier later => earlier.seq < later.seq
  stands : ∀ w ∈ points, Stands clock last w.seq w.time
  unseen : points = [] → r.eligible a = 0
  shows : ∀ w, points.getLast? = some w → Shows r a w

variable {r after : Roll Address} {a : Address} {points : List WeightPoint}

theorem History.tick (history : History clock last r a points) : History (tick clock last now) last r a points :=
  ⟨history.rising, fun w member => (history.stands w member).tick, history.unseen, history.shows⟩

/-- What other accounts do leaves a history alone. -/
theorem History.same (history : History clock last r a points) {later : Nat} (order : last ≤ later)
    (eligible : after.eligible a = r.eligible a) (generation : after.accountGeneration a = r.accountGeneration a)
    (expiry : after.accountExpiry a = r.accountExpiry a) : History clock later after a points := by
  refine ⟨history.rising, fun w member => (history.stands w member).later order, ?_, ?_⟩
  · intro none
    exact eligible.trans (history.unseen none)
  · intro w found
    obtain ⟨weight, old, limit⟩ := history.shows w found
    exact ⟨weight.trans eligible.symm, old.trans generation.symm, limit.trans expiry.symm⟩

theorem History.push (history : History clock last r a points) (next : clock (last + 1) = now)
    (after : Roll Address) : History clock (last + 1) after a (points ++
      [⟨last + 1, now, after.eligible a, after.accountExpiry a, after.accountGeneration a⟩]) := by
  constructor
  · apply List.pairwise_append.mpr
    refine ⟨history.rising, List.pairwise_singleton _ _, ?_⟩
    intro w member other only
    rw [List.mem_singleton.mp only]
    have := (history.stands w member).old
    change w.seq < last + 1
    omega
  · intro w member
    rcases List.mem_append.mp member with older | only
    · exact (history.stands w older).later (by omega)
    · rw [List.mem_singleton.mp only]
      exact ⟨le_rfl, next.symm⟩
  · intro none
    exact absurd none (by simp)
  · intro w found
    rw [List.getLast?_concat] at found
    cases found
    exact ⟨rfl, rfl, rfl⟩

/-! What stood at a number. -/

def standingsOf (cut : Option Nat) (points : List WeightPoint) : List Standing :=
  points.map (WeightPoint.standing cut)

theorem weightAt_append {points new : List Standing} {seq : Nat} (beyond : ∀ w ∈ new, seq < w.seq)
    (time : Nat) : weightAt (points ++ new) seq time = weightAt points seq time := by
  have none : new.filter (fun w => decide (w.seq ≤ seq)) = [] := by
    apply List.filter_eq_nil_iff.mpr
    intro w member passes
    have := beyond w member
    have := of_decide_eq_true passes
    omega
  rw [weightAt, weightAt, List.filter_append, none, List.append_nil]

/-- A later start of mode A does not touch the times before it. -/
theorem weightAt_cut {points : List WeightPoint} {time start : Nat} (early : time < start) (seq : Nat) :
    weightAt (standingsOf (some start) points) seq time = weightAt (standingsOf none points) seq time := by
  have filtered : ∀ cut : Option Nat, (standingsOf cut points).filter (fun w => decide (w.seq ≤ seq)) =
      standingsOf cut (points.filter fun w => decide (w.seq ≤ seq)) := by
    intro cut
    rw [standingsOf, standingsOf, List.filter_map]
    rfl
  rw [weightAt, weightAt, filtered, filtered, standingsOf, standingsOf, List.getLast?_map,
    List.getLast?_map]
  cases (points.filter fun w => decide (w.seq ≤ seq)).getLast? with
  | none => rfl
  | some w =>
    simp only [Option.map_some, WeightPoint.standing]
    by_cases old : w.generation = 0
    · simp [old, within, early]
    · simp [old]

/-- At the last number stands what weighs now. -/
theorem History.weighs (history : History clock last r a points) (weighed : Weighed r cut.isSome)
    (passed : ∀ start, cut = some start → start ≤ now) (order : last ≤ seq) :
    weightAt (standingsOf cut points) seq now = r.weight cut.isSome now a := by
  have all : (standingsOf cut points).filter (fun w => decide (w.seq ≤ seq)) = standingsOf cut points := by
    apply List.filter_eq_self.mpr
    intro w member
    obtain ⟨point, inside, rfl⟩ := List.mem_map.mp member
    exact decide_eq_true ((history.stands point inside).old.trans order)
  rw [weightAt, all, standingsOf, List.getLast?_map]
  cases found : points.getLast? with
  | none =>
    have idle := history.unseen (List.getLast?_eq_none_iff.mp found)
    simp [Roll.weight, idle]
  | some w =>
    obtain ⟨weight, generation, expiry⟩ := history.shows w found
    have low := weighed.generation_le a
    simp only [Option.map_some, WeightPoint.standing, weight, generation, expiry]
    cases cut with
    | none =>
      have zero : r.accountGeneration a = 0 := by
        have bound := weighed.generation a
        rcases weighed.mode with zero | ⟨_, on⟩
        · omega
        · cases on
      simp [zero, within, Roll.weight]
    | some start =>
      have begun := passed start rfl
      by_cases zero : r.accountGeneration a = 0
      · simp only [zero, if_true, within, decide_eq_true_eq, Roll.weight, Option.isSome_some]
        rw [if_neg (by omega), if_neg (by omega)]
      · have one : r.accountGeneration a = 1 := by omega
        simp [one, within, Roll.weight]

/-! What a state stands on. -/

def Core.weightAt (s : Core) (cut : Option Nat) (seq time : Nat) (a : Address) : Nat :=
  IndexedCredit.weightAt (standingsOf cut (s.weights a)) seq time

/-- An event of the past, over what weighed when it was logged. -/
structure Fits (clock : Nat → Nat) (cut : Option Nat) (s : Core) (e : CarryEvent) : Prop where
  stands : Stands clock s.sequence e.seq e.time
  whole : Totals (s.weightAt cut e.seq e.time) e.denominator

structure LaneFits (now : Nat) (s : Core) (key : Key) : Prop where
  rising : (s.log key).Pairwise fun earlier later => earlier.seq < later.seq
  within : Within s.weightEvents (s.lanes key).events (s.lanes key).cursors
  born : (s.lanes key).born ≤ s.weightEvents.length
  replays : ∃ consumed, consumed ++ s.pending key = s.log key ∧
    Replays (s.log key) consumed (s.lanes key).book
  notified : (s.lanes key).totalNotified27 =
    total CarryEvent.direct27 (s.log key) + total CarryEvent.deposit27 (s.log key)
  closed : ∀ epoch, (s.lanes key).rewardSealed epoch = true →
    (epoch + 1) * day ≤ now ∧ ∀ e ∈ s.pending key, (epoch + 1) * day ≤ e.time

structure Sound (clock : Nat → Nat) (cut : Option Nat) (now : Nat) (s : Core) : Prop where
  running : Clock clock now
  passed : ∀ start, cut = some start → start ≤ now
  weighed : Weighed s.roll cut.isSome
  histories : ∀ a, History clock s.sequence s.roll a (s.weights a)
  weightEvents : ∀ e ∈ s.weightEvents, Fits clock cut s e
  laneEvents : ∀ key, ∀ e ∈ (s.lanes key).events, Fits clock cut s e
  lanes : ∀ key, (s.lanes key).present = true → LaneFits now s key
  blank : ∀ key, (s.lanes key).present = false → s.lanes key = .blank
  elected : ∀ key, s.v2Lane = some key → (s.lanes key).present = true
  enrolled : Enrolled s.participants now
  listed : ∀ a, s.participated a = true ↔ ∃ since, (a, since) ∈ s.participants
  earners : ∀ a, ∀ w ∈ s.weights a, w.weight ≠ 0 → ∃ since ≤ w.time, (a, since) ∈ s.participants

/-- Only new points and new numbers. -/
structure Grows (s after : Core) : Prop where
  order : s.sequence ≤ after.sequence
  points : ∀ a, ∃ new, after.weights a = s.weights a ++ new ∧ ∀ w ∈ new, s.sequence < w.seq

variable {s next : Core} {key : Key}

theorem Grows.same (order : s.sequence ≤ next.sequence) (weights : next.weights = s.weights) : Grows s next :=
  ⟨order, fun a => ⟨[], by rw [weights, List.append_nil], fun w member => by cases member⟩⟩

/-- What stood at an old number stays. -/
theorem Grows.weightAt (grows : Grows s next) (old : seq ≤ s.sequence) (time : Nat) (a : Address) :
    next.weightAt cut seq time a = s.weightAt cut seq time a := by
  obtain ⟨new, eq, beyond⟩ := grows.points a
  rw [Core.weightAt, Core.weightAt, eq, standingsOf, List.map_append]
  apply weightAt_append
  intro w member
  obtain ⟨point, inside, rfl⟩ := List.mem_map.mp member
  exact old.trans_lt (beyond point inside)

theorem Fits.grown (fits : Fits clock cut s e) (grows : Grows s next) : Fits clock cut next e :=
  ⟨fits.stands.later grows.order,
    fits.whole.of_eq (fun a => grows.weightAt fits.stands.old e.time a) rfl⟩

theorem LaneFits.same (fits : LaneFits now s key) (events : next.weightEvents = s.weightEvents)
    (lane : next.lanes key = s.lanes key) : LaneFits now next key := by
  have log : next.log key = s.log key := by rw [Core.log, Core.log, events, lane]
  have pending : next.pending key = s.pending key := by rw [Core.pending, Core.pending, events, lane]
  obtain ⟨rising, within, born, replays, notified, closed⟩ := fits
  constructor
  · rwa [log]
  · rwa [events, lane]
  · rwa [events, lane]
  · rwa [log, pending, lane]
  · rwa [log, lane]
  · rwa [pending, lane]

/-- The denominator of an event that is logged now. -/
theorem Sound.totals (sound : Sound clock cut now s) (order : s.sequence ≤ seq) :
    Totals (s.weightAt cut seq now) (s.roll.effective cut.isSome now) :=
  (sound.weighed.totals now).of_eq
    (fun a => (sound.histories a).weighs sound.weighed sound.passed order) rfl

theorem Sound.tick (sound : Sound clock cut now s) : Sound (tick clock s.sequence now) cut now s where
  running := sound.running.tick s.sequence
  passed := sound.passed
  weighed := sound.weighed
  histories a := (sound.histories a).tick
  weightEvents e member := ⟨(sound.weightEvents e member).stands.tick, (sound.weightEvents e member).whole⟩
  laneEvents key e member :=
    ⟨(sound.laneEvents key e member).stands.tick, (sound.laneEvents key e member).whole⟩
  lanes := sound.lanes
  blank := sound.blank
  elected := sound.elected
  enrolled := sound.enrolled
  listed := sound.listed
  earners := sound.earners

/-- Every event of a lane's log is one of the two logs. -/
theorem Sound.logged (sound : Sound clock cut now s) (member : e ∈ s.log key) : Fits clock cut s e := by
  rcases mem_merged.mp member with weight | own
  · exact sound.weightEvents e (List.mem_of_mem_drop weight)
  · exact sound.laneEvents key e own

/-! One move. -/

/-- A weight event goes to the end of every log. -/
theorem LaneFits.weightEvent (fits : LaneFits now s key) (time : e.time = now)
    (beyond : ∀ other ∈ s.log key, other.seq < e.seq) (above : ∀ other ∈ (s.lanes key).events, other.seq < e.seq)
    (none : e.direct27 = 0) (empty : e.deposit27 = 0) (events : next.weightEvents = s.weightEvents ++ [e])
    (lane : next.lanes key = s.lanes key) : LaneFits now next key := by
  obtain ⟨rising, within, born, ⟨consumed, split, replays⟩, notified, closed⟩ := fits
  have log : next.log key = s.log key ++ [e] := by
    rw [Core.log, Core.log, events, lane, List.drop_append_of_le_length born]
    exact merged_left _ _ above
  have pending : next.pending key = s.pending key ++ [e] := by
    rw [Core.pending, Core.pending, events, lane]
    exact unread_left within above
  have still : (s.lanes key).book.noted e = (s.lanes key).book := by
    rw [Book.noted, if_neg (not_not.mpr none)]
  constructor
  · rw [log]
    apply List.pairwise_append.mpr
    refine ⟨rising, List.pairwise_singleton _ _, ?_⟩
    intro other member last only
    rw [List.mem_singleton.mp only]
    exact beyond other member
  · rw [events, lane]
    refine ⟨within.1.trans ?_, within.2⟩
    simp
  · rw [events, lane, List.length_append]
    omega
  · refine ⟨consumed, ?_, ?_⟩
    · rw [pending, log, ← split, List.append_assoc]
    · have logs := replays.logs e
      rw [still] at logs
      rwa [log, lane]
  · rw [log, lane, total_snoc, total_snoc, none, empty, notified]
    omega
  · rw [pending, lane]
    intro epoch sealed
    obtain ⟨past, later⟩ := closed epoch sealed
    refine ⟨past, fun other member => ?_⟩
    rcases List.mem_append.mp member with older | only
    · exact later other older
    · rw [List.mem_singleton.mp only, time]
      exact past

/-- A lane's own event goes to the end of its log, and its direct part into its book. -/
theorem LaneFits.laneEvent (fits : LaneFits now s key) (time : e.time = now)
    (beyond : ∀ other ∈ s.log key, other.seq < e.seq) (above : ∀ other ∈ s.weightEvents, other.seq < e.seq) :
    LaneFits now (s.logged key e) key := by
  obtain ⟨rising, within, born, ⟨consumed, split, replays⟩, notified, closed⟩ := fits
  have lane : (s.logged key e).lanes key = { s.lanes key with
      events := (s.lanes key).events ++ [e]
      book := (s.lanes key).book.noted e
      totalNotified27 := (s.lanes key).totalNotified27 + (e.direct27 + e.deposit27) } := by
    simp [Core.logged, Core.setLane]
  have log : (s.logged key e).log key = s.log key ++ [e] := by
    rw [Core.log, Core.log, lane]
    apply merged_right
    intro other member
    exact above other (List.mem_of_mem_drop member)
  have pending : (s.logged key e).pending key = s.pending key ++ [e] := by
    rw [Core.pending, Core.pending, lane]
    exact unread_right within above
  constructor
  · rw [log]
    apply List.pairwise_append.mpr
    refine ⟨rising, List.pairwise_singleton _ _, ?_⟩
    intro other member last only
    rw [List.mem_singleton.mp only]
    exact beyond other member
  · rw [lane]
    refine ⟨within.1, within.2.trans ?_⟩
    simp
  · rw [lane]
    exact born
  · refine ⟨consumed, ?_, ?_⟩
    · rw [pending, log, ← split, List.append_assoc]
    · rw [log, lane]
      exact replays.logs e
  · rw [log, lane, total_snoc, total_snoc]
    change (s.lanes key).totalNotified27 + (e.direct27 + e.deposit27) = _
    omega
  · rw [pending, lane]
    intro epoch sealed
    obtain ⟨past, later⟩ := closed epoch sealed
    refine ⟨past, fun other member => ?_⟩
    rcases List.mem_append.mp member with older | only
    · exact later other older
    · rw [List.mem_singleton.mp only, time]
      exact past

@[simp]
theorem setLane_lane (s : Core) (key : Key) (l : Reading) : (s.setLane key l).lanes key = l := by
  simp [Core.setLane]

theorem setLane_other {other : Key} (l : Reading) (ne : other ≠ key) :
    (s.setLane key l).lanes other = s.lanes other := by
  simp [Core.setLane, ne]

/-- A read event goes over to the book. -/
theorem LaneFits.reads (fits : LaneFits now s key) {cursors : Cursors} {book : Book} {unlocked : Nat}
    (first : MergedLog.next CarryEvent.seq s.weightEvents (s.lanes key).events (s.lanes key).cursors =
      some (e, cursors))
    (read : (s.lanes key).book.absorb e = .ok (book, unlocked)) :
    LaneFits now (s.setLane key { s.lanes key with book := book, cursors := cursors }) key := by
  obtain ⟨rising, within, born, ⟨consumed, split, replays⟩, notified, closed⟩ := fits
  have pending : s.pending key =
      e :: (s.setLane key { s.lanes key with book := book, cursors := cursors }).pending key := by
    rw [Core.pending, Core.pending, setLane_lane]
    exact next_some first
  have log : (s.setLane key { s.lanes key with book := book, cursors := cursors }).log key =
      s.log key := by
    rw [Core.log, Core.log, setLane_lane]
    rfl
  constructor
  · rwa [log]
  · rw [setLane_lane]
    exact next_within within first
  · rw [setLane_lane]
    exact born
  · refine ⟨consumed ++ [e], ?_, ?_⟩
    · rw [log, ← split, pending, List.append_assoc]
      rfl
    · rw [log, setLane_lane]
      exact replays.reads e read
  · rw [log, setLane_lane]
    exact notified
  · rw [setLane_lane]
    intro epoch sealed
    obtain ⟨past, later⟩ := closed epoch sealed
    refine ⟨past, fun other member => ?_⟩
    rw [pending] at later
    exact later other (List.mem_cons_of_mem _ member)

/-- A lane starts behind all weight events so far. -/
theorem LaneFits.registered (blank : s.lanes key = .blank) :
    LaneFits now (s.setLane key { s.lanes key with
      present := true
      cursors := { (s.lanes key).cursors with left := s.weightEvents.length }
      born := s.weightEvents.length }) key := by
  have lane : (s.setLane key { s.lanes key with
      present := true
      cursors := { (s.lanes key).cursors with left := s.weightEvents.length }
      born := s.weightEvents.length }).lanes key =
      ⟨true, [], ⟨s.weightEvents.length, 0⟩, .empty, s.weightEvents.length, 0, 0, fun _ => false⟩ := by
    rw [setLane_lane, blank]
    rfl
  generalize registered : s.setLane key _ = after at lane
  have events : after.weightEvents = s.weightEvents := by
    rw [← registered]
    rfl
  have log : after.log key = [] := by
    rw [Core.log, lane, events, List.drop_length]
    exact nil_merged []
  have pending : after.pending key = [] := by
    rw [Core.pending, unread, lane, events, List.drop_length]
    exact nil_merged []
  constructor
  · rw [log]
    exact .nil
  · rw [lane, events]
    exact ⟨le_rfl, le_rfl⟩
  · rw [lane, events]
  · refine ⟨[], ?_, ?_⟩
    · rw [pending, log]
      rfl
    · rw [log, lane]
      exact .empty
  · rw [log, lane]
    rfl
  · rw [lane]
    intro epoch sealed
    cases sealed

/-- Names and seals leave the logs alone. -/
theorem LaneFits.marked (fits : LaneFits now s key) (entrySource : Address) (sealed : Nat → Bool)
    (closed : ∀ epoch, sealed epoch = true →
      (epoch + 1) * day ≤ now ∧ ∀ e ∈ s.pending key, (epoch + 1) * day ≤ e.time) :
    LaneFits now (s.setLane key { s.lanes key with
      entrySource := entrySource, rewardSealed := sealed }) key := by
  obtain ⟨rising, within, born, replays, notified, _⟩ := fits
  generalize marked : s.setLane key { s.lanes key with
    entrySource := entrySource, rewardSealed := sealed } = after
  have lane : after.lanes key = { s.lanes key with
      entrySource := entrySource, rewardSealed := sealed } := by
    rw [← marked, setLane_lane]
  have events : after.weightEvents = s.weightEvents := by
    rw [← marked]
    rfl
  have log : after.log key = s.log key := by rw [Core.log, Core.log, lane, events]
  have pending : after.pending key = s.pending key := by rw [Core.pending, Core.pending, lane, events]
  constructor
  · rwa [log]
  · rwa [lane, events]
  · rwa [lane, events]
  · rwa [log, pending, lane]
  · rwa [log, lane]
  · rwa [pending, lane]

/-! Sound states. -/

theorem Sound.log_below (sound : Sound clock cut now s) (key : Key) (member : e ∈ s.log key) : e.seq < s.sequence + 1 :=
  Nat.lt_succ_of_le (sound.logged member).stands.old

/-- A weight event, with the roll and the revision after it. -/
def Core.weighted (s : Core) (roll : Roll Address) (weightRevision : Nat) (e : CarryEvent) : Core :=
  { s with
    sequence := e.seq
    weightRevision := weightRevision
    weightEvents := s.weightEvents ++ [e]
    roll := roll }

/-- A weight event at the next number, over what weighs after it. -/
theorem Sound.weightEvent (sound : Sound clock cut now s) (next : clock (s.sequence + 1) = now)
    (seq : e.seq = s.sequence + 1) (time : e.time = now) (none : e.direct27 = 0) (empty : e.deposit27 = 0)
    (weighed : Weighed roll cut.isSome) (eligible : roll.eligible = s.roll.eligible)
    (generation : roll.accountGeneration = s.roll.accountGeneration)
    (expiry : roll.accountExpiry = s.roll.accountExpiry) (whole : Totals (s.weightAt cut e.seq e.time) e.denominator)
    (weightRevision : Nat) : Sound clock cut now (s.weighted roll weightRevision e) := by
  have order : s.sequence ≤ e.seq := by omega
  have grows : Grows s (s.weighted roll weightRevision e) := .same order rfl
  constructor
  · exact sound.running
  · exact sound.passed
  · exact weighed
  · intro a
    exact (sound.histories a).same order (congrFun eligible a) (congrFun generation a)
      (congrFun expiry a)
  · intro other member
    rcases List.mem_append.mp member with older | only
    · exact (sound.weightEvents other older).grown grows
    · rw [List.mem_singleton.mp only]
      exact ⟨⟨le_rfl, by rw [seq, time, next]⟩, whole⟩
  · intro key other member
    exact (sound.laneEvents key other member).grown grows
  · intro key present
    refine (sound.lanes key present).weightEvent time (fun other member => ?_) (fun other member => ?_)
      none empty rfl rfl
    · have := sound.log_below key member
      omega
    · have := (sound.laneEvents key other member).stands.old
      omega
  · exact sound.blank
  · exact sound.elected
  · exact sound.enrolled
  · exact sound.listed
  · exact sound.earners

/-- One lane is rewritten; its new events are of the past. -/
theorem Sound.lane (sound : Sound clock cut now s) {l : Reading} {sequence : Nat} (order : s.sequence ≤ sequence)
    (present : l.present = true) (events : ∀ e ∈ l.events, Fits clock cut { s with sequence := sequence } e)
    (fits : LaneFits now (Core.setLane { s with sequence := sequence } key l) key) :
    Sound clock cut now (Core.setLane { s with sequence := sequence } key l) := by
  have grows : Grows s (Core.setLane { s with sequence := sequence } key l) := .same order rfl
  constructor
  · exact sound.running
  · exact sound.passed
  · exact sound.weighed
  · intro a
    exact (sound.histories a).same order rfl rfl rfl
  · intro e member
    exact (sound.weightEvents e member).grown grows
  · intro other e member
    by_cases same : other = key
    · subst same
      rw [setLane_lane] at member
      obtain ⟨stands, whole⟩ := events e member
      exact ⟨stands, whole⟩
    · rw [setLane_other l same] at member
      exact (sound.laneEvents other e member).grown grows
  · intro other there
    by_cases same : other = key
    · subst same
      exact fits
    · rw [setLane_other l same] at there
      exact (sound.lanes other there).same rfl (setLane_other l same)
  · intro other absent
    by_cases same : other = key
    · subst same
      rw [setLane_lane, present] at absent
      cases absent
    · rw [setLane_other l same] at absent ⊢
      exact sound.blank other absent
  · intro other chosen
    by_cases same : other = key
    · subst same
      rw [setLane_lane]
      exact present
    · rw [setLane_other l same]
      exact sound.elected other chosen
  · exact sound.enrolled
  · exact sound.listed
  · exact sound.earners

theorem weigh_grows (s : Core) (now : Nat) (account : Address) (roll : Roll Address) (joins : Bool) :
    Grows s (s.weigh now account roll joins) := by
  refine ⟨Nat.le_succ _, fun a => ?_⟩
  by_cases same : a = account
  · subst same
    refine ⟨_, Function.update_self .., fun w only => ?_⟩
    rw [List.mem_singleton.mp only]
    exact Nat.lt_succ_self _
  · refine ⟨[], ?_, fun w member => by cases member⟩
    rw [List.append_nil]
    exact Function.update_of_ne same ..

/-- A new point; an account that starts earning is in the list. -/
theorem Sound.weigh (sound : Sound clock cut now s) (next : clock (s.sequence + 1) = now) {account : Address}
    {joins : Bool} (weighed : Weighed roll cut.isSome)
    (others : ∀ b, b ≠ account → roll.eligible b = s.roll.eligible b ∧
      roll.accountGeneration b = s.roll.accountGeneration b ∧
      roll.accountExpiry b = s.roll.accountExpiry b)
    (fresh : joins = true → s.participated account = false)
    (known : joins = false → roll.eligible account ≠ 0 → s.roll.eligible account ≠ 0 ∨ s.participated account = true) :
    Sound clock cut now (s.weigh now account roll joins) := by
  have grows := weigh_grows s now account roll joins
  have listed : ∀ since, joins = true → (account, since) ∉ s.participants := by
    intro since new member
    have seen := (sound.listed account).mpr ⟨since, member⟩
    rw [fresh new] at seen
    cases seen
  constructor
  · exact sound.running
  · exact sound.passed
  · exact weighed
  · intro a
    by_cases same : a = account
    · subst same
      simp only [Core.weigh, Function.update_self]
      exact (sound.histories a).push next roll
    · simp only [Core.weigh, Function.update_of_ne same]
      obtain ⟨eligible, generation, expiry⟩ := others a same
      exact (sound.histories a).same (Nat.le_succ _) eligible generation expiry
  · intro e member
    exact (sound.weightEvents e member).grown grows
  · intro key e member
    exact (sound.laneEvents key e member).grown grows
  · intro key present
    exact (sound.lanes key present).same rfl rfl
  · exact sound.blank
  · exact sound.elected
  · cases joins with
    | false => exact sound.enrolled
    | true =>
      apply sound.enrolled.joined
      rintro ⟨a, since⟩ member rfl
      exact listed since rfl member
  · intro a
    cases joins with
    | false => exact sound.listed a
    | true =>
      simp only [Core.weigh, if_true, List.mem_append, List.mem_singleton, Prod.mk.injEq]
      by_cases same : a = account
      · subst same
        simp
      · rw [Function.update_of_ne same, sound.listed a]
        simp [same]
  · -- who weighs something now was listed before, or joins with this point
    have member : roll.eligible account ≠ 0 →
        ∃ since ≤ now, (account, since) ∈ (s.weigh now account roll joins).participants := by
      intro some
      cases joins with
      | true => exact ⟨now, le_rfl, by simp [Core.weigh]⟩
      | false =>
        have seen : ∃ since, (account, since) ∈ s.participants := by
          rcases known rfl some with before | seen
          · have nonempty : s.weights account ≠ [] :=
              fun none => before ((sound.histories account).unseen none)
            obtain ⟨w, found⟩ := Option.ne_none_iff_exists'.mp
              (fun none => nonempty (List.getLast?_eq_none_iff.mp none))
            have weight := ((sound.histories account).shows w found).weight
            obtain ⟨since, _, member⟩ := sound.earners account w (List.mem_of_getLast? found)
              (by rwa [weight])
            exact ⟨since, member⟩
          · exact (sound.listed account).mp seen
        obtain ⟨since, member⟩ := seen
        exact ⟨since, sound.enrolled.within _ member, member⟩
    have kept : ∀ p ∈ s.participants, p ∈ (s.weigh now account roll joins).participants := by
      intro p inside
      simp only [Core.weigh]
      split
      · exact List.mem_append_left _ inside
      · exact inside
    intro a w inside some
    by_cases same : a = account
    · subst same
      simp only [Core.weigh, Function.update_self] at inside
      rcases List.mem_append.mp inside with older | only
      · obtain ⟨since, early, member⟩ := sound.earners a w older some
        exact ⟨since, early, kept _ member⟩
      · rw [List.mem_singleton.mp only] at some ⊢
        exact member some
    · simp only [Core.weigh, Function.update_of_ne same] at inside
      obtain ⟨since, early, member⟩ := sound.earners a w inside some
      exact ⟨since, early, kept _ member⟩

/-- With the clock at the next number, a move keeps what a state stands on. -/
theorem Sound.move (sound : Sound clock cut now s) (upcoming : clock (s.sequence + 1) = now)
    (move : Move cut now s next) : Sound clock cut now next := by
  cases move with
  | switch on old =>
    have switched : Weighed s.roll.switch cut.isSome := by
      have weighed := sound.weighed
      rw [on] at weighed ⊢
      exact weighed.switched old
    have nobody : Totals (s.weightAt cut (s.sequence + 1) now) 0 := by
      apply Totals.zero.of_eq _ rfl
      intro a
      have weight := (sound.histories a).weighs sound.weighed sound.passed (Nat.le_succ s.sequence)
      have low := sound.weighed.generation a
      rw [Core.weightAt, weight, Roll.weight, if_pos on, if_neg (by omega)]
    exact sound.weightEvent upcoming (by exact rfl) (by exact rfl) (by exact rfl) (by exact rfl)
      switched rfl rfl rfl nobody (s.weightRevision + 1)
  | weighs account roll joins _ others weighed fresh known =>
    exact sound.weigh upcoming weighed others fresh known
  | logsWeight ready =>
    exact sound.weightEvent upcoming (by exact rfl) (by exact rfl) (by exact rfl) (by exact rfl)
      sound.weighed rfl rfl rfl (sound.totals (Nat.le_succ s.sequence)) s.weightRevision
  | logsLane key deposit27 direct27 _ present =>
    have fits : Fits clock cut { s with sequence := s.sequence + 1 } (s.event cut now deposit27 direct27) :=
      ⟨⟨le_rfl, upcoming.symm⟩, sound.totals (Nat.le_succ s.sequence)⟩
    have grows : Grows s { s with sequence := s.sequence + 1 } := .same (Nat.le_succ _) rfl
    refine sound.lane (Nat.le_succ s.sequence) (by exact present) (fun e member => ?_) ?_
    · rcases List.mem_append.mp member with older | only
      · exact (sound.laneEvents key e older).grown grows
      · rw [List.mem_singleton.mp only]
        exact fits
    · exact (sound.lanes key present).laneEvent rfl (fun other member => sound.log_below key member)
        (fun other member => Nat.lt_succ_of_le (sound.weightEvents other member).stands.old)
  | reads key e cursors book unlocked present first read =>
    exact sound.lane le_rfl present (sound.laneEvents key) ((sound.lanes key present).reads first read)
  | registers key absent =>
    exact sound.lane le_rfl rfl (sound.laneEvents key) (.registered (sound.blank key absent))
  | names key entrySource present =>
    exact sound.lane le_rfl present (sound.laneEvents key)
      ((sound.lanes key present).marked entrySource _ (sound.lanes key present).closed)
  | elects key present =>
    have grows : Grows s { s with v2Lane := some key } := .same le_rfl rfl
    refine ⟨sound.running, sound.passed, sound.weighed, sound.histories,
      fun e member => (sound.weightEvents e member).grown grows,
      fun other e member => (sound.laneEvents other e member).grown grows,
      fun other there => (sound.lanes other there).same rfl rfl, sound.blank, ?_,
      sound.enrolled, sound.listed, sound.earners⟩
    intro other chosen
    cases chosen
    exact present
  | seals key epoch present read past =>
    refine sound.lane le_rfl present (sound.laneEvents key)
      ((sound.lanes key present).marked _ _ (fun other sealed => ?_))
    by_cases same : other = epoch
    · subst same
      rw [read]
      refine ⟨?_, fun e member => by cases member⟩
      have := (Nat.lt_div_iff_mul_lt (by decide)).mp past
      simp only [day] at this ⊢
      omega
    · rw [Function.update_of_ne same] at sealed
      exact (sound.lanes key present).closed other sealed

end Solonpad.Staking
