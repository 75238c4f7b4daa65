import Solonpad.RewardToken

/-!
The histories of the reward token against a replay of its distributions. The index before a time is
the sum of the earlier increments, and what an account earned before a time is the sum over the
earlier events of its weight then times the increment. Two moves touch the histories: a
distribution, which pays every account whose last checkpoint still counts, and a checkpoint, which
pays nobody.
-/

namespace Solonpad.RewardToken

open Checked Checkpoints Eligibility
open Chain (Address)

/-- What the events before a time moved the index by. -/
def paidBefore (credits : List Credited) (t : Nat) : Nat :=
  (credits.map fun event => if event.time < t then event.delta else 0).sum

/-- What the events before a time paid an account. -/
def replayBefore (credits : List Credited) (account : Address) (t : Nat) : Nat :=
  (credits.map fun event => if event.time < t then event.weight account * event.delta else 0).sum

/-- What the events of an epoch paid an account. -/
def replay (credits : List Credited) (account : Address) (epoch : Nat) : Nat :=
  (credits.map fun event => if event.epoch = epoch then event.weight account * event.delta else 0).sum

@[simp]
theorem paidBefore_cons (event : Credited) (rest : List Credited) (t : Nat) :
    paidBefore (event :: rest) t = (if event.time < t then event.delta else 0) + paidBefore rest t := rfl

@[simp]
theorem replayBefore_cons (event : Credited) (rest : List Credited) (account : Address) (t : Nat) :
    replayBefore (event :: rest) account t =
      (if event.time < t then event.weight account * event.delta else 0) +
        replayBefore rest account t := rfl

@[simp]
theorem replay_cons (event : Credited) (rest : List Credited) (account : Address) (epoch : Nat) :
    replay (event :: rest) account epoch =
      (if event.epoch = epoch then event.weight account * event.delta else 0) +
        replay rest account epoch := rfl

theorem paidBefore_mono (credits : List Credited) {early late : Nat} (order : early ≤ late) :
    paidBefore credits early ≤ paidBefore credits late := by
  induction credits with
  | nil => exact le_rfl
  | cons event rest ih =>
    rw [paidBefore_cons, paidBefore_cons]
    apply Nat.add_le_add _ ih
    by_cases below : event.time < early
    · rw [if_pos below, if_pos (by omega)]
    · rw [if_neg below]
      exact Nat.zero_le _

/-- An epoch's events lie between its two midnights. -/
theorem replay_between (credits : List Credited) (account : Address) (epoch : Nat)
    (dated : ∀ event ∈ credits, event.epoch = event.time / day) :
    replayBefore credits account ((epoch + 1) * day) =
      replayBefore credits account (epoch * day) + replay credits account epoch := by
  induction credits with
  | nil => rfl
  | cons event rest ih =>
    have later := ih (fun other member => dated other (List.mem_cons_of_mem _ member))
    have own := dated event (List.mem_cons_self ..)
    rw [replayBefore_cons, replayBefore_cons, later, replay_cons]
    have inside : event.epoch = epoch ↔ epoch * day ≤ event.time ∧ event.time < (epoch + 1) * day := by
      rw [own, day]
      omega
    have next : epoch * day ≤ (epoch + 1) * day := Nat.mul_le_mul_right _ (Nat.le_succ _)
    by_cases first : event.time < epoch * day
    · rw [if_pos first, if_pos (by omega), if_neg (fun same => by have := inside.mp same; omega)]
      omega
    · by_cases second : event.time < (epoch + 1) * day
      · rw [if_neg first, if_pos second, if_pos (inside.mpr ⟨by omega, second⟩)]
        omega
      · rw [if_neg first, if_neg second, if_neg (fun same => by have := inside.mp same; omega)]
        omega

/-! The index. -/

/-- The index history says what the events paid. -/
structure Indexed (s : State) (now : Nat) : Prop where
  stamped : Stamped IndexPoint.time s.indexHistory now
  index : ∀ t, s.indexBefore t = paidBefore s.credits t
  total : ∀ t, now < t → paidBefore s.credits t = s.rewardPerEligibleToken
  dated : ∀ event ∈ s.credits, event.time ≤ now ∧ event.epoch = event.time / day

variable {s after : State} {cut : Option Nat} {now : Nat}

theorem Indexed.same (indexed : Indexed s now) (history : after.indexHistory = s.indexHistory)
    (credits : after.credits = s.credits)
    (reward : after.rewardPerEligibleToken = s.rewardPerEligibleToken) : Indexed after now := by
  obtain ⟨stamped, index, total, dated⟩ := indexed
  have reads : ∀ t, after.indexBefore t = s.indexBefore t := by
    intro t
    rw [State.indexBefore, State.indexBefore, history]
  exact ⟨history ▸ stamped, fun t => by rw [reads, credits, index], fun t late => by
    rw [credits, reward, total t late], fun event member => dated event (credits ▸ member)⟩

theorem Indexed.later (indexed : Indexed s now) {later : Nat} (order : now ≤ later) : Indexed s later :=
  ⟨indexed.stamped.later order, indexed.index, fun t late => indexed.total t (by omega),
    fun event member => ⟨(indexed.dated event member).1.trans order, (indexed.dated event member).2⟩⟩

theorem Indexed.bound (indexed : Indexed s now) (t : Nat) : s.indexBefore t ≤ s.rewardPerEligibleToken := by
  rw [indexed.index t, ← indexed.total (max t (now + 1)) (by omega)]
  exact paidBefore_mono _ (le_max_left _ _)

theorem credit_grows (s : State) (cut : Option Nat) (now denominator amount : Nat) (fromCarry : Bool) :
    ∃ event, (credit s cut now denominator amount fromCarry).credits = event :: s.credits ∧
      event.time = now := by
  unfold credit
  exact ⟨_, rfl, rfl⟩

/-! What the index step leaves alone. Each field is read from the unfolded step, so that nothing
compares the index itself. -/

section

variable (denominator amount : Nat) (fromCarry : Bool)

@[simp]
theorem credit_history : (credit s cut now denominator amount fromCarry).accountHistory =
    s.accountHistory := by
  unfold credit
  rfl

@[simp]
theorem credit_generation : (credit s cut now denominator amount fromCarry).accountGeneration =
    s.accountGeneration := by
  unfold credit
  rfl

@[simp]
theorem credit_expiry : (credit s cut now denominator amount fromCarry).accountExpiry =
    s.accountExpiry := by
  unfold credit
  rfl

@[simp]
theorem credit_eligible : (credit s cut now denominator amount fromCarry).eligible = s.eligible := by
  unfold credit
  rfl

@[simp]
theorem credit_mode : (credit s cut now denominator amount fromCarry).modeGeneration =
    s.modeGeneration := by
  unfold credit
  rfl

@[simp]
theorem credit_totalEligible : (credit s cut now denominator amount fromCarry).totalEligible =
    s.totalEligible := by
  unfold credit
  rfl

@[simp]
theorem credit_tree : (credit s cut now denominator amount fromCarry).expiryWeights =
    s.expiryWeights := by
  unfold credit
  rfl

@[simp]
theorem credit_token : (credit s cut now denominator amount fromCarry).token = s.token := by
  unfold credit
  rfl

@[simp]
theorem credit_carry : (credit s cut now denominator amount fromCarry).carry = s.carry := by
  unfold credit
  rfl

@[simp]
theorem credit_setup : (credit s cut now denominator amount fromCarry).setup = s.setup := by
  unfold credit
  rfl

@[simp]
theorem credit_total : (credit s cut now denominator amount fromCarry).totalCredited =
    s.totalCredited := by
  unfold credit
  rfl

end

theorem credit_before (cut : Option Nat) (denominator amount : Nat) (fromCarry : Bool)
    (indexed : Indexed s now) (t : Nat) :
    (credit s cut now denominator amount fromCarry).indexBefore t =
      if now < t then (credit s cut now denominator amount fromCarry).rewardPerEligibleToken
      else s.indexBefore t := by
  rw [State.indexBefore]
  simp only [credit]
  rw [before_record indexed.stamped]
  by_cases late : now < t
  · simp only [if_pos late]
  · simp only [if_neg late]
    rfl

theorem Indexed.credit (indexed : Indexed s now) (denominator amount : Nat) (fromCarry : Bool) :
    Indexed (credit s cut now denominator amount fromCarry) now := by
  constructor
  · exact Stamped.record indexed.stamped
  · intro t
    rw [credit_before cut denominator amount fromCarry indexed t]
    simp only [RewardToken.credit, paidBefore_cons]
    by_cases late : now < t
    · rw [if_pos late, if_pos late, indexed.total t late, Nat.add_comm]
    · rw [if_neg late, if_neg late, indexed.index t, Nat.zero_add]
  · intro t late
    simp only [RewardToken.credit, paidBefore_cons, if_pos late, indexed.total t late]
    exact Nat.add_comm _ _
  · intro event member
    rcases List.mem_cons.mp member with rfl | older
    · exact ⟨le_rfl, rfl⟩
    · exact indexed.dated event older

/-! Accounts. -/

/-- What an account earned before a time, as its history says. -/
def State.earned (s : State) (cut : Option Nat) (account : Address) (t : Nat) : Nat :=
  match before AccountPoint.time (s.accountHistory account) t with
  | none => 0
  | some p => p.earned27 + p.weight * (s.pointIndex cut p t false - p.index)

theorem pointIndex_false (p : AccountPoint) (t : Nat) :
    s.pointIndex cut p t false = max (s.indexBefore (p.stop cut t)) p.index := by
  simp [State.pointIndex]

theorem earnedBefore_ok (account : Address) (t : Nat) :
    s.earnedBefore cut account t = .ok (s.earned cut account t) := by
  rw [State.earnedBefore, State.earned]
  cases before AccountPoint.time (s.accountHistory account) t with
  | none => rfl
  | some p =>
    have covered : p.index ≤ s.pointIndex cut p t false := by
      rw [pointIndex_false]
      exact le_max_right _ _
    simp only [Checked.sub, if_pos covered, bind, Except.bind, pure, Except.pure]

/-- A start of mode A that has passed. -/
def Passed (cut : Option Nat) (now : Nat) : Prop := ∀ start, cut = some start → start ≤ now

/-- The account histories replay the events. -/
structure Points (s : State) (cut : Option Nat) (now : Nat) : Prop where
  stamped : ∀ a, Stamped AccountPoint.time (s.accountHistory a) now
  behind : ∀ a, ∀ p ∈ s.accountHistory a, p.index ≤ s.rewardPerEligibleToken
  shaped : ∀ a, ∀ p ∈ s.accountHistory a,
    p.generation ≤ 1 ∧ (p.generation = 1 → p.validUntil = 0 → p.weight = 0)
  earned : ∀ a t, s.earned cut a t = replayBefore s.credits a t

theorem Points.same (points : Points s cut now) (history : after.accountHistory = s.accountHistory)
    (index : after.indexHistory = s.indexHistory) (credits : after.credits = s.credits)
    (reward : after.rewardPerEligibleToken = s.rewardPerEligibleToken) : Points after cut now := by
  obtain ⟨stamped, behind, shaped, earned⟩ := points
  have reads : ∀ t, after.indexBefore t = s.indexBefore t := by
    intro t
    rw [State.indexBefore, State.indexBefore, index]
  have same : ∀ a t, after.earned cut a t = s.earned cut a t := by
    intro a t
    rw [State.earned, State.earned, history]
    simp only [pointIndex_false, reads]
  refine ⟨fun a => history ▸ stamped a, ?_, fun a => history ▸ shaped a, ?_⟩
  · intro a p member
    rw [reward]
    exact behind a p (history ▸ member)
  · intro a t
    rw [same, credits, earned]

/-- The point still earns after `now`. -/
def AccountPoint.counts (p : AccountPoint) (cut : Option Nat) (now : Nat) : Prop :=
  (p.generation = 0 → cut = none) ∧ (p.generation = 1 → p.validUntil = 0 ∨ now < p.validUntil)

theorem stop_le (cut : Option Nat) (p : AccountPoint) (t : Nat) : p.stop cut t ≤ t := by
  simp only [AccountPoint.stop]
  split <;> split <;> (try split) <;> omega

theorem stop_counts {p : AccountPoint} (old : p.generation ≤ 1) (passed : Passed cut now) {t : Nat}
    (late : now < t) : now < p.stop cut t ↔ p.counts cut now := by
  have cases : p.generation = 0 ∨ p.generation = 1 := by omega
  rcases cases with zero | one
  · cases cut with
    | none => simp [AccountPoint.stop, AccountPoint.counts, zero, late]
    | some start =>
      have begun := passed start rfl
      simp only [AccountPoint.stop, AccountPoint.counts, zero]
      simp only [if_true]
      constructor
      · intro inside
        simp at inside
        omega
      · intro counts
        cases counts.1 trivial
  · have capped : p.stop cut t = if p.validUntil ≠ 0 then min t p.validUntil else t := by
      cases cut <;> simp [AccountPoint.stop, one]
    rw [capped]
    simp only [AccountPoint.counts, one]
    by_cases open_ : p.validUntil = 0
    · simp [open_, late]
    · simp only [open_, ne_eq, not_false_eq_true, if_true, false_or]
      constructor
      · intro inside
        exact ⟨fun wrong => by omega, fun _ => by omega⟩
      · intro counts
        have := counts.2 trivial
        omega

/-- A distribution pays each account by the weight of its last point, if that one counts. -/
theorem Points.credit (points : Points s cut now) (indexed : Indexed s now) (passed : Passed cut now)
    (denominator amount : Nat) (fromCarry : Bool)
    (weighs : ∀ a, s.effectiveWeight cut now a = match (s.accountHistory a).getLast? with
      | none => 0
      | some p => open Classical in if p.counts cut now then p.weight else 0) :
    Points (credit s cut now denominator amount fromCarry) cut now := by
  have reads := credit_before cut denominator amount fromCarry indexed
  have grown : s.rewardPerEligibleToken ≤
      (RewardToken.credit s cut now denominator amount fromCarry).rewardPerEligibleToken :=
    Nat.le_add_right _ _
  constructor
  · exact points.stamped
  · intro a p member
    exact (points.behind a p member).trans grown
  · exact points.shaped
  · intro a t
    have old := points.earned a t
    have history : (RewardToken.credit s cut now denominator amount fromCarry).accountHistory a =
        s.accountHistory a := by rw [credit_history]
    have events : (RewardToken.credit s cut now denominator amount fromCarry).credits =
        ⟨now, now / day, amount, fromCarry, (RewardToken.credit s cut now denominator amount
          fromCarry).rewardPerEligibleToken - s.rewardPerEligibleToken, denominator,
          s.effectiveWeight cut now⟩ :: s.credits := by
      simp only [RewardToken.credit, Nat.add_sub_cancel_left]
    rw [events, replayBefore_cons]
    simp only
    generalize RewardToken.credit s cut now denominator amount fromCarry = next at reads grown history
    rw [State.earned, history]
    rw [State.earned] at old
    by_cases late : now < t
    · rw [if_pos late, weighs a]
      rw [before_beyond (points.stamped a) late] at old ⊢
      cases last : (s.accountHistory a).getLast? with
      | none =>
        simp only [last] at old
        simp only [← old, Nat.zero_mul, Nat.add_zero]
      | some p =>
        simp only [last, pointIndex_false, reads] at old ⊢
        have member := List.mem_of_getLast? last
        have shaped := points.shaped a p member
        have behind := points.behind a p member
        have stops := stop_counts shaped.1 passed late
        by_cases counts : p.counts cut now
        · have inside := stops.mpr counts
          have full : s.indexBefore (p.stop cut t) = s.rewardPerEligibleToken := by
            rw [indexed.index, indexed.total _ inside]
          rw [full] at old
          rw [if_pos inside, if_pos counts, ← old]
          rw [Nat.max_eq_left behind, Nat.max_eq_left (behind.trans grown)]
          have split : next.rewardPerEligibleToken - p.index =
              (s.rewardPerEligibleToken - p.index) +
                (next.rewardPerEligibleToken - s.rewardPerEligibleToken) := by omega
          rw [split, Nat.mul_add]
          omega
        · rw [if_neg (fun inside => counts (stops.mp inside)), if_neg counts, ← old]
          omega
    · rw [if_neg late, Nat.zero_add, ← old]
      cases before AccountPoint.time (s.accountHistory a) t with
      | none => rfl
      | some p =>
        have early : ¬ now < p.stop cut t := by
          have := stop_le cut p t
          omega
        simp only [pointIndex_false, reads, if_neg early]

theorem Points.later (points : Points s cut now) {later : Nat} (order : now ≤ later) : Points s cut later :=
  ⟨fun a => (points.stamped a).later order, points.behind, points.shaped, points.earned⟩

/-- Where the index reads the same with and without a start of mode A, so does every account. -/
theorem Points.switch (points : Points s cut now) {other : Option Nat}
    (unread : ∀ (p : AccountPoint) t, s.indexBefore (p.stop other t) = s.indexBefore (p.stop cut t)) :
    Points s other now := by
  refine ⟨points.stamped, points.behind, points.shaped, fun a t => ?_⟩
  rw [← points.earned a t, State.earned, State.earned]
  simp only [pointIndex_false, unread]

/-- A start of mode A after the last event moves no reading. -/
theorem Indexed.unread (indexed : Indexed s now) {start : Nat} (later : now < start) (p : AccountPoint) (t : Nat) :
    s.indexBefore (p.stop (some start) t) = s.indexBefore (p.stop none t) := by
  by_cases old : p.generation = 0
  · have one : p.generation ≠ 1 := by omega
    simp only [AccountPoint.stop, old, if_true]
    simp only [Nat.zero_ne_one, false_and, if_false]
    rcases Nat.le_total t start with within | beyond
    · rw [Nat.min_eq_left within]
    · rw [Nat.min_eq_right beyond, indexed.index, indexed.index, indexed.total start later,
        indexed.total t (by omega)]
  · simp only [AccountPoint.stop, if_neg old]

/-! Checkpoints. -/

/-- Up to now a point reads what it will read at any later time. -/
theorem pointIndex_now (indexed : Indexed s now) (passed : Passed cut now) {p : AccountPoint}
    (old : p.generation ≤ 1) (bounded : p.generation = 1 → p.validUntil ≠ 0) {t : Nat} (late : now < t) :
    s.pointIndex cut p now true = s.pointIndex cut p t false := by
  have full : ∀ u, now < u → s.indexBefore u = s.rewardPerEligibleToken := by
    intro u beyond
    rw [indexed.index, indexed.total u beyond]
  have cases : p.generation = 0 ∨ p.generation = 1 := by omega
  rw [pointIndex_false]
  simp only [State.pointIndex, true_and]
  rcases cases with zero | one
  · cases cut with
    | none => simp [AccountPoint.stop, zero, full t late]
    | some start =>
      have begun := passed start rfl
      have now' : min now start = start := by omega
      have then' : min t start = start := by omega
      simp [AccountPoint.stop, zero, now', then']
  · have stop : ∀ u, p.stop cut u = min u p.validUntil := by
      intro u
      cases cut <;> simp [AccountPoint.stop, one, bounded one]
    have ne : ¬ p.generation = 0 := by omega
    rw [stop, stop]
    simp only [if_neg ne]
    by_cases valid : now < p.validUntil
    · rw [if_pos ⟨by omega, valid⟩, full _ (by omega)]
    · have now' : min now p.validUntil = p.validUntil := by omega
      have then' : min t p.validUntil = p.validUntil := by omega
      rw [if_neg (fun both => valid both.2), now', then']

/-- What a checkpoint books is what the account earned so far. -/
theorem earnedNow_ok (points : Points s cut now) (indexed : Indexed s now) (passed : Passed cut now)
    {account : Address} {earned27 : Nat} (read : s.earnedNow cut now account = .ok earned27) {t : Nat}
    (late : now < t) : earned27 = replayBefore s.credits account t := by
  have sums := points.earned account t
  rw [State.earned, before_beyond (points.stamped account) late] at sums
  rw [State.earnedNow] at read
  cases last : (s.accountHistory account).getLast? with
  | none =>
    rw [last] at read sums
    cases read
    exact sums
  | some p =>
    rw [last] at read sums
    simp only [bind_ok, sub_ok, pure_ok] at read
    obtain ⟨_, ⟨_, rfl⟩, rfl⟩ := read
    have shaped := points.shaped account p (List.mem_of_getLast? last)
    rw [← sums]
    by_cases idle : p.generation = 1 ∧ p.validUntil = 0
    · simp only [shaped.2 idle.1 idle.2, Nat.zero_mul]
    · rw [pointIndex_now indexed passed shaped.1 (fun one zero => idle ⟨one, zero⟩) late]

/-- The last point says what the account has now. -/
structure CurrentAt (s : State) (a : Address) : Prop where
  unseen : s.accountHistory a = [] → s.eligible a = 0
  weight : ∀ p, (s.accountHistory a).getLast? = some p → p.weight = s.eligible a
  generation : ∀ p, (s.accountHistory a).getLast? = some p → p.generation = s.accountGeneration a
  validUntil : ∀ p, (s.accountHistory a).getLast? = some p → s.eligible a ≠ 0 → p.generation = 1 →
    p.validUntil = s.accountExpiry a

theorem CurrentAt.same {a : Address} (current : CurrentAt s a) (history : after.accountHistory a = s.accountHistory a)
    (eligible : after.eligible a = s.eligible a) (generation : after.accountGeneration a = s.accountGeneration a)
    (expiry : s.eligible a ≠ 0 → after.accountExpiry a = s.accountExpiry a) : CurrentAt after a := by
  obtain ⟨unseen, weight, generation', validUntil⟩ := current
  constructor
  · rwa [history, eligible]
  · rwa [history, eligible]
  · rwa [history, generation]
  · intro p last nonzero one
    rw [history] at last
    rw [eligible] at nonzero
    rw [expiry nonzero, validUntil p last nonzero one]

/-- A checkpoint pays nobody, and leaves the account's last point current. -/
theorem save_points {account : Address} (saved : save s cut now account = .ok after) (points : Points s cut now)
    (indexed : Indexed s now) (passed : Passed cut now) (generation : s.accountGeneration account ≤ 1)
    (shaped : s.accountGeneration account = 1 → s.accountExpiry account = 0 → s.eligible account = 0)
    (narrow : s.eligible account < 2 ^ 128) :
    after = { s with accountHistory := after.accountHistory } ∧
      (∀ other, other ≠ account → after.accountHistory other = s.accountHistory other) ∧
      Points after cut now ∧ CurrentAt after account := by
  simp only [save, bind_ok, pure_ok] at saved
  obtain ⟨earned27, read, rfl⟩ := saved
  have earned := fun t late => earnedNow_ok points indexed passed read (t := t) late
  rw [Nat.mod_eq_of_lt narrow]
  refine ⟨rfl, fun other ne => Function.update_of_ne ne _ _, ?_, ?_⟩
  · constructor
    · intro a
      by_cases same : a = account
      · subst same
        simp only [Function.update_self]
        exact Stamped.record (points.stamped a)
      · simp only [Function.update_of_ne same]
        exact points.stamped a
    · intro a p member
      by_cases same : a = account
      · subst same
        simp only [Function.update_self] at member
        rcases mem_record member with older | rfl
        · exact points.behind a p older
        · exact le_rfl
      · simp only [Function.update_of_ne same] at member
        exact points.behind a p member
    · intro a p member
      by_cases same : a = account
      · subst same
        simp only [Function.update_self] at member
        rcases mem_record member with older | rfl
        · exact points.shaped a p older
        · exact ⟨generation, shaped⟩
      · simp only [Function.update_of_ne same] at member
        exact points.shaped a p member
    · intro a t
      have old := points.earned a t
      rw [State.earned] at old ⊢
      by_cases same : a = account
      · subst same
        simp only [Function.update_self]
        rw [before_record (points.stamped a)]
        by_cases late : now < t
        · have top := indexed.bound
          simp only [if_pos late, pointIndex_false]
          have none : ∀ u, max (s.indexBefore u) s.rewardPerEligibleToken -
              s.rewardPerEligibleToken = 0 := by
            intro u
            have := top u
            omega
          have reads : ∀ u, State.indexBefore { s with
              accountHistory := Function.update s.accountHistory a
                (record AccountPoint.time (s.accountHistory a) ⟨now, s.accountExpiry a,
                  s.accountGeneration a, s.eligible a, s.rewardPerEligibleToken, earned27⟩) } u =
              s.indexBefore u := fun _ => rfl
          rw [reads, none, Nat.mul_zero, Nat.add_zero]
          exact earned t late
        · simp only [if_neg late]
          exact old
      · simp only [Function.update_of_ne same]
        exact old
  · constructor
    · intro empty
      have last := getLast_record AccountPoint.time (s.accountHistory account)
        ⟨now, s.accountExpiry account, s.accountGeneration account, s.eligible account,
          s.rewardPerEligibleToken, earned27⟩
      simp only [Function.update_self] at empty
      rw [empty] at last
      cases last
    all_goals
      intro p last
      simp only [Function.update_self, getLast_record, Option.some.injEq] at last
      subst last
    · rfl
    · rfl
    · exact fun _ _ => rfl

end Solonpad.RewardToken
