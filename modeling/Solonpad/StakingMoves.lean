import Solonpad.StakingBook

/-!
The staking contract as its histories: who weighs what, which events were logged, and what each
lane has read and given out. Policies, principal and funds are left out of this core. Each call
takes the core through a chain of small moves, so a rule about histories is a case analysis over
the moves.
-/

namespace Solonpad.Staking

open Checked CarryStream Eligibility ExpiringWeights IndexedCredit MergedLog
open Chain (Address)

/-- What a lane has logged, read and given out. -/
structure Reading where
  present : Bool
  events : List CarryEvent
  cursors : Cursors
  book : Book
  born : Nat
  totalNotified27 : Nat
  entrySource : Address
  rewardSealed : Nat → Bool

def Reading.blank : Reading := ⟨false, [], ⟨0, 0⟩, .empty, 0, 0, 0, fun _ => false⟩

structure Core where
  roll : Roll Address
  weights : Address → List WeightPoint
  weightEvents : List CarryEvent
  sequence : Nat
  weightRevision : Nat
  participants : List (Address × Nat)
  participated : Address → Bool
  v2Lane : Option Key
  lanes : Key → Reading

def Lane.reading (l : Lane) : Reading :=
  ⟨l.present, l.events, l.cursors, l.book, l.born, l.totalNotified27, l.entrySource, l.rewardSealed⟩

def State.core (s : State) : Core :=
  ⟨s.roll, s.weights, s.weightEvents, s.sequence, s.weightRevision, s.participants, s.participated,
    s.v2Lane, fun key => (s.lanes key).reading⟩

def Core.setLane (s : Core) (key : Key) (l : Reading) : Core :=
  { s with lanes := Function.update s.lanes key l }

@[simp]
theorem core_lanes (s : State) (key : Key) : s.core.lanes key = (s.lanes key).reading := rfl

@[simp]
theorem core_setLane (s : State) (key : Key) (l : Lane) : (s.setLane key l).core = s.core.setLane key l.reading := by
  unfold State.setLane Core.setLane State.core
  congr 1
  funext other
  by_cases same : other = key
  · subst same
    simp
  · simp [same]

@[simp]
theorem setLane_same (s : Core) (key : Key) : s.setLane key (s.lanes key) = s := by
  simp [Core.setLane]

/-- What a lane has not read yet. -/
def Core.pending (s : Core) (key : Key) : List CarryEvent :=
  unread CarryEvent.seq s.weightEvents (s.lanes key).events (s.lanes key).cursors

/-- All a lane ever has to read. -/
def Core.log (s : Core) (key : Key) : List CarryEvent :=
  merged CarryEvent.seq (s.weightEvents.drop (s.lanes key).born) (s.lanes key).events

/-- The event of the next sequence number. -/
def Core.event (s : Core) (cut : Option Nat) (now deposit27 direct27 : Nat) : CarryEvent :=
  ⟨s.sequence + 1, now, s.roll.effective cut.isSome now, s.weightRevision, deposit27, direct27⟩

/-- An event of one lane, given out at once as far as it is not deposited. -/
def Core.logged (s : Core) (key : Key) (e : CarryEvent) : Core :=
  Core.setLane { s with sequence := s.sequence + 1 } key { s.lanes key with
    events := (s.lanes key).events ++ [e]
    book := (s.lanes key).book.noted e
    totalNotified27 := (s.lanes key).totalNotified27 + (e.direct27 + e.deposit27) }

/-- A new point of one account's weight, and its place in the list when it joins. -/
def Core.weigh (s : Core) (now : Nat) (account : Address) (roll : Roll Address) (joins : Bool) : Core :=
  { s with
    sequence := s.sequence + 1
    weightRevision := s.weightRevision + 1
    roll := roll
    weights := Function.update s.weights account (s.weights account ++
      [⟨s.sequence + 1, now, roll.eligible account, roll.accountExpiry account,
        roll.accountGeneration account⟩])
    participated := if joins = true then Function.update s.participated account true
      else s.participated
    participants := if joins = true then s.participants ++ [(account, now)] else s.participants }

/-- The weights of the current mode are what counts. -/
structure Ready (cut : Option Nat) (r : Roll Address) : Prop where
  weighed : Weighed r cut.isSome
  synced : cut.isSome = true → r.modeGeneration = 1

inductive Move (cut : Option Nat) (now : Nat) : Core → Core → Prop where
  | switch {s : Core} (on : cut.isSome = true) (old : s.roll.modeGeneration = 0) :
      Move cut now s { s with
        sequence := s.sequence + 1
        weightRevision := s.weightRevision + 1
        weightEvents := s.weightEvents ++ [⟨s.sequence + 1, now, 0, s.weightRevision + 1, 0, 0⟩]
        roll := s.roll.switch }
  /-- One account's weight changes, with a point in its history; a new earner joins the list. -/
  | weighs {s : Core} (account : Address) (roll : Roll Address) (joins : Bool)
      (mode : roll.modeGeneration = s.roll.modeGeneration)
      (others : ∀ b, b ≠ account → roll.eligible b = s.roll.eligible b ∧
        roll.accountGeneration b = s.roll.accountGeneration b ∧
        roll.accountExpiry b = s.roll.accountExpiry b)
      (weighed : Weighed roll cut.isSome)
      (fresh : joins = true → s.participated account = false)
      (known : joins = false → roll.eligible account ≠ 0 →
        s.roll.eligible account ≠ 0 ∨ s.participated account = true) :
      Move cut now s (s.weigh now account roll joins)
  | logsWeight {s : Core} (ready : Ready cut s.roll) :
      Move cut now s { s with
        sequence := s.sequence + 1
        weightEvents := s.weightEvents ++ [s.event cut now 0 0] }
  /-- A lane's own event: a deposit of the carry, or an amount given out at once. -/
  | logsLane {s : Core} (key : Key) (deposit27 direct27 : Nat) (ready : Ready cut s.roll)
      (present : (s.lanes key).present = true)
      (weighty : direct27 ≠ 0 → s.roll.effective cut.isSome now ≠ 0) :
      Move cut now s (s.logged key (s.event cut now deposit27 direct27))
  | reads {s : Core} (key : Key) (e : CarryEvent) (cursors : Cursors) (book : Book) (unlocked : Nat)
      (present : (s.lanes key).present = true)
      (first : next CarryEvent.seq s.weightEvents (s.lanes key).events (s.lanes key).cursors =
        some (e, cursors))
      (read : (s.lanes key).book.absorb e = .ok (book, unlocked)) :
      Move cut now s (s.setLane key { s.lanes key with book := book, cursors := cursors })
  | registers {s : Core} (key : Key) (absent : (s.lanes key).present = false) :
      Move cut now s (s.setLane key { s.lanes key with
        present := true
        cursors := { (s.lanes key).cursors with left := s.weightEvents.length }
        born := s.weightEvents.length })
  | names {s : Core} (key : Key) (entrySource : Address) (present : (s.lanes key).present = true) :
      Move cut now s (s.setLane key { s.lanes key with entrySource := entrySource })
  | elects {s : Core} (key : Key) (present : (s.lanes key).present = true) :
      Move cut now s { s with v2Lane := some key }
  | seals {s : Core} (key : Key) (epoch : Nat) (present : (s.lanes key).present = true)
      (read : s.pending key = []) (past : epoch < now / day) :
      Move cut now s (s.setLane key { s.lanes key with
        rewardSealed := Function.update (s.lanes key).rewardSealed epoch true })

def Moves (cut : Option Nat) (now : Nat) : Core → Core → Prop := Relation.ReflTransGen (Move cut now)

variable {cut : Option Nat} {now : Nat} {s mid after : State} {account quote asset : Address} {c : Config}
  {k : Controller} {env : Env} {amount epoch kind : Nat} {key : Key} {l : Lane} {complete : Bool}
  {p : EpochPolicy} {pool : Source}

/-- A call's moves, and the weights it leaves. -/
structure Passes (cut : Option Nat) (now : Nat) (s after : State) : Prop where
  moves : Moves cut now s.core after.core
  weighed : Weighed after.roll cut.isSome

theorem Passes.refl (weighed : Weighed s.roll cut.isSome) : Passes cut now s s := ⟨.refl, weighed⟩

theorem Passes.trans (first : Passes cut now s mid) (second : Passes cut now mid after) : Passes cut now s after :=
  ⟨Relation.ReflTransGen.trans first.moves second.moves, second.weighed⟩

/-- What does not show in the core is no move. -/
theorem Passes.same (weighed : Weighed s.roll cut.isSome) (same : after.core = s.core) : Passes cut now s after := by
  have roll : after.roll = s.roll := congrArg Core.roll same
  refine ⟨?_, roll ▸ weighed⟩
  rw [same]
  exact .refl

theorem Passes.one (weighed : Weighed after.roll cut.isSome) (move : Move cut now s.core after.core) :
    Passes cut now s after :=
  ⟨.single move, weighed⟩

/-! Weights. -/

theorem syncMode_passes (weighed : Weighed s.roll cut.isSome) :
    Passes cut now s (syncMode s cut now) ∧ Ready cut (syncMode s cut now).roll ∧
      (syncMode s cut now).stakedOf = s.stakedOf := by
  unfold syncMode
  by_cases turns : cut.isSome = true ∧ s.roll.modeGeneration = 0
  · rw [if_pos turns]
    have switched : Weighed s.roll.switch cut.isSome := by
      rw [turns.1] at weighed ⊢
      exact weighed.switched turns.2
    exact ⟨.one switched (.switch turns.1 turns.2), ⟨switched, fun _ => rfl⟩, rfl⟩
  · rw [if_neg turns]
    refine ⟨.refl weighed, ⟨weighed, fun on => ?_⟩, rfl⟩
    rcases weighed.mode with zero | ⟨one, _⟩
    · exact absurd ⟨on, zero⟩ turns
    · exact one

/-- In the current mode nothing is left to switch. -/
theorem syncMode_ready (ready : Ready cut s.roll) : syncMode s cut now = s := by
  refine if_neg ?_
  rintro ⟨on, zero⟩
  have one := ready.synced on
  omega

theorem checkpointWeight_passes (ready : Ready cut s.roll) :
    Passes cut now s (checkpointWeight s cut now) ∧ (checkpointWeight s cut now).roll = s.roll ∧
      (checkpointWeight s cut now).stakedOf = s.stakedOf := by
  unfold checkpointWeight
  rw [syncMode_ready ready]
  exact ⟨.one ready.weighed (.logsWeight ready), rfl, rfl⟩

theorem syncAccount_passes (weighed : Weighed s.roll cut.isSome) (done : syncAccount s cut now account = .ok after) :
    Passes cut now s after ∧ Ready cut after.roll ∧
      after.roll.accountGeneration account = after.roll.modeGeneration ∧
      after.stakedOf = s.stakedOf := by
  have synced : Passes cut now s _ ∧ _ := syncMode_passes weighed
  obtain ⟨passes, ready, staked⟩ := synced
  rw [syncAccount] at done
  generalize syncMode s cut now = synced at passes ready staked done
  simp only [ite_ok, bind_ok, pure_ok] at done
  rcases done with ⟨touched, done⟩ | ⟨idle, rfl⟩
  · have cleared : ∃ roll : Roll Address, Weighed (roll.cleared account) cut.isSome ∧
        roll.modeGeneration = synced.roll.modeGeneration ∧
        (∀ b, roll.eligible b = synced.roll.eligible b ∧
          roll.accountGeneration b = synced.roll.accountGeneration b ∧
          roll.accountExpiry b = synced.roll.accountExpiry b) ∧
        weightPoint { synced with roll := roll.cleared account } account now = after := by
      rcases done with ⟨⟨current, some⟩, roll, retired, rfl⟩ | ⟨kept, roll, rfl, rfl⟩
      · have one : synced.roll.modeGeneration = 1 := by
          rcases touched with migrated | ⟨one, _⟩
          · exact absurd migrated current
          · exact one
        obtain ⟨_, _, rest⟩ := retire_ok ready.weighed retired
        refine ⟨roll, ready.weighed.retired one ((not_not.mp current).trans one) retired, ?_,
          fun b => ?_, rfl⟩
        · rw [rest]
        · rw [rest]
          exact ⟨rfl, rfl, rfl⟩
      · refine ⟨_, ?_, rfl, fun _ => ⟨rfl, rfl, rfl⟩, rfl⟩
        by_cases migrated : synced.roll.accountGeneration account ≠ synced.roll.modeGeneration
        · exact ready.weighed.migrated migrated
        · -- an expired account with nothing left to retire has no weight
          rcases touched with old | ⟨_, some, _⟩
          · exact absurd old migrated
          · exact absurd ⟨migrated, some⟩ kept
    obtain ⟨roll, weighed, mode, others, rfl⟩ := cleared
    refine ⟨passes.trans (.one weighed (.weighs account (roll.cleared account) false mode ?_ weighed
      (fun no => absurd no (by decide)) fun _ some => ?_)), ⟨weighed, fun on => ?_⟩, ?_, staked⟩
    · intro b ne
      have kept := others b
      simp only [Roll.cleared, Function.update_of_ne ne]
      exact kept
    · exact absurd (by simp [Roll.cleared]) some
    · exact mode.trans (ready.synced on)
    · simp [weightPoint, Roll.cleared]
  · refine ⟨passes, ready, ?_, staked⟩
    by_contra migrated
    exact idle (.inl migrated)

/-- An idle account that may earn gets the expiry of its credential; nothing else changes. -/
theorem qualify_ok {earns : Bool} (done : qualify c s k env account = (earns, after)) :
    after = s ∨ ∃ expiry, expiry < 2 ^ 32 ∧
      earns = true ∧ after = { s with roll := { s.roll with
        accountExpiry := Function.update s.roll.accountExpiry account expiry } } := by
  unfold qualify at done
  split at done
  · cases done
    exact .inl rfl
  · split at done
    · cases done
      exact .inl rfl
    · simp only at done
      split at done
      · cases done
        exact .inl rfl
      · cases done
        refine .inr ⟨_, ?_, rfl, rfl⟩
        unfold eligibilityExpiry
        simp only
        split
        · decide
        · exact UInt32.toNat_lt _

/-- The point of a reweighed account, and its place in the list. -/
theorem core_weigh (s : State) (roll : Roll Address) (account : Address) (now : Nat) (joins : Prop) [Decidable joins] :
    (weightPoint { s with
      roll := roll
      participated := if joins then Function.update s.participated account true else s.participated
      participants := if joins then s.participants ++ [(account, now)] else s.participants }
        account now).core = s.core.weigh now account roll (decide joins) := by
  simp only [Core.weigh, decide_eq_true_eq]
  rfl

theorem reweigh_passes (ready : Ready cut s.roll) (current : s.roll.accountGeneration account = s.roll.modeGeneration)
    (done : reweigh c s k env account = .ok after) : Passes cut env.now s after := by
  rw [reweigh] at done
  generalize chosen : (if s.stakedOf account = 0 then (false, s)
    else if s.roll.eligible account ≠ 0 then (true, s) else qualify c s k env account) = pair at done
  obtain ⟨earns, middle⟩ := pair
  have prepared : ∃ base : Roll Address, middle = { s with roll := base } ∧
      Weighed base cut.isSome ∧ base.accountGeneration account = base.modeGeneration ∧
      base.modeGeneration = s.roll.modeGeneration ∧
      (∀ b, b ≠ account → base.eligible b = s.roll.eligible b ∧
        base.accountGeneration b = s.roll.accountGeneration b ∧
        base.accountExpiry b = s.roll.accountExpiry b) ∧
      (base = s.roll ∨ s.roll.eligible account = 0 ∧ s.stakedOf account ≠ 0 ∧ earns = true) := by
    have untouched : ∀ b, b ≠ account → s.roll.eligible b = s.roll.eligible b ∧
        s.roll.accountGeneration b = s.roll.accountGeneration b ∧
        s.roll.accountExpiry b = s.roll.accountExpiry b := fun b _ => ⟨rfl, rfl, rfl⟩
    split at chosen
    · cases chosen
      exact ⟨s.roll, rfl, ready.weighed, current, rfl, untouched, .inl rfl⟩
    · next staked =>
      split at chosen
      · cases chosen
        exact ⟨s.roll, rfl, ready.weighed, current, rfl, untouched, .inl rfl⟩
      · next idle =>
        rw [not_not] at idle
        rcases qualify_ok chosen with rfl | ⟨expiry, small, yes, rfl⟩
        · exact ⟨_, rfl, ready.weighed, current, rfl, untouched, .inl rfl⟩
        · refine ⟨_, rfl, ready.weighed.qualified idle small, current, rfl, fun b ne => ⟨rfl, rfl, ?_⟩,
            .inr ⟨idle, staked, yes⟩⟩
          simp [Function.update_of_ne ne]
  obtain ⟨base, rfl, weighed, generation, mode, others, origin⟩ := prepared
  simp only [ite_ok, bind_ok, pure_ok] at done
  rcases done with ⟨still, rfl⟩ | ⟨_, roll, weighs, rfl⟩
  · rcases origin with rfl | ⟨idle, staked, rfl⟩
    · exact .refl ready.weighed
    · rw [idle] at still
      exact absurd still staked
  · obtain ⟨reweighed, eq⟩ := weighed.reweighed generation weighs
    refine .one reweighed ?_
    rw [core_weigh]
    apply Move.weighs account roll
    · rw [eq]
      exact mode
    · intro b ne
      rw [eq]
      simp only [Function.update_of_ne ne]
      exact others b ne
    · exact reweighed
    · intro joins
      exact (of_decide_eq_true joins).2
    · intro stays _
      have known := of_decide_eq_false stays
      by_cases idle : s.roll.eligible account = 0
      · right
        by_contra unseen
        exact known ⟨idle, Bool.eq_false_of_not_eq_true unseen⟩
      · exact .inl idle

theorem onEligibilityChange_passes (weighed : Weighed s.roll cut.isSome)
    (done : onEligibilityChange s k cut env account = .ok after) : Passes cut env.now s after := by
  simp only [onEligibilityChange, bind_ok, require_ok] at done
  obtain ⟨_, _, synced, first, done⟩ := done
  obtain ⟨passes, ready, current, _⟩ := syncAccount_passes weighed first
  have checked : Passes cut env.now synced _ ∧ _ := checkpointWeight_passes ready
  obtain ⟨second, roll, _⟩ := checked
  rw [← roll] at ready current
  generalize checkpointWeight synced cut env.now = checked at second ready current done
  refine (passes.trans second).trans ?_
  simp only [ite_ok, pure_ok] at done
  rcases done with ⟨some, done⟩ | ⟨_, rfl⟩
  · have taken : ∃ tree, (checked.roll.modeGeneration = 1 →
          DyadicTree.sub 32 checked.roll.expiryWeights (checked.roll.accountExpiry account)
            (checked.roll.eligible account) = (.ok tree : Tx _)) ∧
        (checked.roll.modeGeneration ≠ 1 → tree = checked.roll.expiryWeights) ∧
        checked.roll.eligible account ≤ checked.roll.totalEligible ∧
        after = weightPoint { checked with roll := { checked.roll with
          expiryWeights := tree
          eligible := Function.update checked.roll.eligible account 0
          totalEligible := checked.roll.totalEligible - checked.roll.eligible account
          accountExpiry := Function.update checked.roll.accountExpiry account 0 } }
            account env.now := by
      simp only [bind_ok, pure_ok, sub_ok] at done
      rcases done with ⟨one, tree, out, _, ⟨covered, rfl⟩, rfl⟩ | ⟨other, _, rfl, _, ⟨covered, rfl⟩, rfl⟩
      · exact ⟨tree, fun _ => out, fun other => absurd one other, covered, rfl⟩
      · exact ⟨_, fun one => absurd one other, fun _ => rfl, covered, rfl⟩
    obtain ⟨tree, out, kept, covered, rfl⟩ := taken
    have withdrawn := ready.weighed.withdrawn current out kept (Nat.sub_add_cancel covered)
      (Nat.two_pow_pos 32)
    refine .one withdrawn (.weighs account _ false rfl (fun b ne => ?_) withdrawn
      (fun no => absurd no (by decide)) fun _ some => ?_)
    · exact ⟨Function.update_of_ne ne _ _, rfl, Function.update_of_ne ne _ _⟩
    · exact absurd (Function.update_self ..) some
  · exact .refl ready.weighed

theorem syncEligibility_passes (weighed : Weighed s.roll cut.isSome)
    (done : syncEligibility c s k cut env account = .ok after) : Passes cut env.now s after := by
  simp only [syncEligibility, bind_ok] at done
  obtain ⟨synced, first, done⟩ := done
  obtain ⟨passes, ready, current, _⟩ := syncAccount_passes weighed first
  have checked : Passes cut env.now synced _ ∧ _ := checkpointWeight_passes ready
  obtain ⟨second, roll, _⟩ := checked
  rw [← roll] at ready current
  exact (passes.trans second).trans (reweigh_passes ready current done)

theorem stake_passes {beneficiary : Address} (weighed : Weighed s.roll cut.isSome)
    (done : stake c s k cut env beneficiary amount = .ok after) : Passes cut env.now s after := by
  simp only [stake, bind_ok, require_ok] at done
  obtain ⟨_, _, _, _, _, _, synced, first, _, _, done⟩ := done
  obtain ⟨passes, ready, current, _⟩ := syncAccount_passes weighed first
  have checked : Passes cut env.now synced _ ∧ _ := checkpointWeight_passes ready
  obtain ⟨second, roll, _⟩ := checked
  rw [← roll] at ready current
  have reweighed := reweigh_passes (by exact ready) (by exact current) done
  exact (passes.trans second).trans ⟨reweighed.moves, reweighed.weighed⟩

theorem unstake_passes {receiver : Address} (weighed : Weighed s.roll cut.isSome)
    (done : unstake c s k cut env amount receiver = .ok after) : Passes cut env.now s after := by
  simp only [unstake, bind_ok, require_ok, pure_ok] at done
  obtain ⟨_, _, synced, first, _, _, _, _, _, done, _, _, rfl⟩ := done
  obtain ⟨passes, ready, current, _⟩ := syncAccount_passes weighed first
  have checked : Passes cut env.now synced _ ∧ _ := checkpointWeight_passes ready
  obtain ⟨second, roll, _⟩ := checked
  rw [← roll] at ready current
  have reweighed := reweigh_passes (by exact ready) (by exact current) done
  exact (passes.trans second).trans ⟨reweighed.moves, reweighed.weighed⟩

/-! Lanes. -/

theorem setLane_core (same : l.reading = (s.lanes key).reading) : (s.setLane key l).core = s.core := by
  rw [core_setLane, same]
  exact setLane_same s.core key

/-- A policy stamp does not show in the core. -/
theorem stampPolicy_core (done : stampPolicy s k cut env key epoch = .ok after) : after.core = s.core := by
  simp only [stampPolicy, ite_ok, bind_ok, pure_ok] at done
  rcases done with ⟨_, p, _, mask, _, rfl⟩ | ⟨_, rfl⟩
  · rw [core_setLane]
    exact setLane_same s.core key
  · rfl

theorem processEvent_core {e : CarryEvent} {cursors : Cursors}
    (done : processEvent s k cut env key e cursors = .ok after) : ∃ book unlocked,
      (s.lanes key).book.absorb e = .ok (book, unlocked) ∧
      after.core = s.core.setLane key { s.core.lanes key with book := book, cursors := cursors } := by
  simp only [processEvent, bind_ok] at done
  obtain ⟨⟨book, unlocked⟩, read, done⟩ := done
  refine ⟨book, unlocked, read, ?_⟩
  have moved : after.core = (s.setLane key { s.lanes key with book := book, cursors := cursors }).core := by
    simp only [ite_ok, pure_ok] at done
    rcases done with ⟨_, stamped⟩ | ⟨_, rfl⟩
    · exact stampPolicy_core stamped
    · rfl
  rw [moved, core_setLane]
  rfl

/-- Cursors at the ends of both logs have read everything. -/
theorem pending_ends {s : Core} (left : (s.lanes key).cursors.left = s.weightEvents.length)
    (right : (s.lanes key).cursors.right = (s.lanes key).events.length) : s.pending key = [] := by
  rw [Core.pending, unread, left, right, List.drop_length, List.drop_length]
  exact nil_merged []

theorem processCarry_passes (n : Nat) (weighed : Weighed s.roll cut.isSome)
    (present : (s.lanes key).present = true) (done : processCarry k cut env key n s = .ok (after, complete)) :
    Passes cut now s after ∧ (after.lanes key).present = true ∧
      (complete = true → after.core.pending key = []) := by
  induction n generalizing s with
  | zero =>
    simp only [processCarry, pure_ok, Prod.mk.injEq] at done
    obtain ⟨rfl, rfl⟩ := done
    refine ⟨.refl weighed, present, fun all => ?_⟩
    obtain ⟨left, right⟩ := of_decide_eq_true all
    exact pending_ends left right
  | succ n ih =>
    rw [processCarry] at done
    split at done
    · next none =>
      simp only [pure_ok, Prod.mk.injEq] at done
      obtain ⟨rfl, rfl⟩ := done
      exact ⟨.refl weighed, present, fun _ => next_none none⟩
    · next e cursors first =>
      simp only [bind_ok] at done
      obtain ⟨middle, read, done⟩ := done
      obtain ⟨book, unlocked, absorbed, core⟩ := processEvent_core read
      have roll : middle.roll = s.roll := congrArg Core.roll core
      have move : Move cut now s.core middle.core := by
        rw [core]
        exact .reads key e cursors book unlocked present first absorbed
      have still : (middle.lanes key).present = true := by
        have lane := congrArg (fun x : Core => (x.lanes key).present) core
        simp only [Core.setLane, Function.update_self] at lane
        exact lane.trans present
      have step : Passes cut now s middle := .one (roll ▸ weighed) move
      obtain ⟨later, kept, read⟩ := ih step.weighed still done
      exact ⟨step.trans later, kept, read⟩

/-- An event of a lane that brings nothing. -/
theorem logEvent_passes (ready : Ready cut s.roll) (present : (s.lanes key).present = true) :
    Passes cut now s (logEvent s cut now key 0 0) := by
  have move : Move cut now s.core _ :=
    .logsLane key 0 0 ready present (fun some => absurd rfl some)
  refine .one ready.weighed ?_
  rw [logEvent, core_setLane]
  exact move

@[simp]
theorem setLane_setLane (s : State) (key : Key) (first second : Lane) :
    (s.setLane key first).setLane key second = s.setLane key second := by
  simp [State.setLane]

@[simp]
theorem setLane_lanes (s : State) (key : Key) (l : Lane) : (s.setLane key l).lanes key = l := by
  simp [State.setLane]

theorem releaseCarry_passes {maxSteps : Nat} (weighed : Weighed s.roll cut.isSome)
    (done : releaseCarry s k cut env key maxSteps = .ok (after, complete)) : Passes cut env.now s after := by
  simp only [releaseCarry, bind_ok, require_ok] at done
  obtain ⟨_, ⟨present, _⟩, done⟩ := done
  have synced : Passes cut env.now s _ ∧ _ := syncMode_passes weighed
  obtain ⟨passes, ready, _⟩ := synced
  have still : ((syncMode s cut env.now).lanes key).present = true := by
    unfold syncMode
    split
    · exact present
    · exact present
  have logged : Passes cut env.now _ _ := logEvent_passes ready still
  have there : ((logEvent (syncMode s cut env.now) cut env.now key 0 0).lanes key).present = true := by
    simp [logEvent, State.setLane, still]
  exact (passes.trans logged).trans (processCarry_passes maxSteps logged.weighed there done).1

theorem syncMode_lanes (s : State) (cut : Option Nat) (now : Nat) : (syncMode s cut now).lanes = s.lanes := by
  unfold syncMode
  split
  · rfl
  · rfl

/-- A notification is one event: a deposit while nobody weighs, else an amount given out. -/
theorem notify_passes {amount27 : Nat} (weighed : Weighed s.roll cut.isSome) (present : (s.lanes key).present = true)
    (done : notify s k cut env key amount27 = .ok after) : Passes cut env.now s after := by
  simp only [notify, bind_ok, require_ok] at done
  obtain ⟨_, some, done⟩ := done
  have synced : Passes cut env.now s _ ∧ _ := syncMode_passes weighed
  obtain ⟨passes, ready, _⟩ := synced
  have still : ((syncMode s cut env.now).lanes key).present = true := by
    rwa [syncMode_lanes]
  generalize syncMode s cut env.now = t at passes ready still done
  refine passes.trans ?_
  simp only [logEvent, setLane_setLane, setLane_lanes] at done
  by_cases idle : effectiveEligible t cut env.now = 0
  · simp only [idle, ne_eq, not_true_eq_false, if_false, if_true, pure_ok] at done
    subst done
    refine .one ready.weighed ?_
    have move : Move cut env.now t.core (t.core.logged key (t.core.event cut env.now amount27 0)) :=
      .logsLane key amount27 0 ready still (fun some => absurd rfl some)
    have event : t.core.event cut env.now amount27 0 =
        ⟨t.sequence + 1, env.now, 0, t.weightRevision, amount27, 0⟩ :=
      congrArg (fun d => CarryEvent.mk (t.sequence + 1) env.now d t.weightRevision amount27 0) idle
    rw [event] at move
    rw [core_setLane]
    convert move using 2
    simp [Lane.reading, Core.logged, Book.noted]
    rfl
  · simp only [idle, ne_eq, not_false_eq_true, if_false, if_true, distribute, setLane_lanes,
      setLane_setLane, bind_ok, require_ok] at done
    obtain ⟨_, _, done⟩ := done
    have core := stampPolicy_core done
    have move : Move cut env.now t.core (t.core.logged key (t.core.event cut env.now 0 amount27)) :=
      .logsLane key 0 amount27 ready still (fun _ => idle)
    refine .one ?_ ?_
    · have roll := congrArg Core.roll core
      rw [core_setLane] at roll
      have same : after.roll = t.roll := roll
      rw [same]
      exact ready.weighed
    rw [core, core_setLane]
    convert move using 2
    simp [Lane.reading, Core.logged, Book.noted, Core.event, some]
    rfl

theorem registerLane_passes {source : Source} (weighed : Weighed s.roll cut.isSome)
    (done : registerLane c s k cut env source quote kind p = .ok (after, key)) :
    Passes cut now s after ∧ key = laneKey source p.asset kind ∧ (after.lanes key).present = true := by
  simp only [registerLane, bind_ok, require_ok, pure_ok, Prod.mk.injEq] at done
  obtain ⟨_, _, _, absent, mask, _, rfl, rfl⟩ := done
  have move : Move cut now s.core _ := .registers (laneKey source p.asset kind) absent
  refine ⟨.one weighed ?_, rfl, by simp⟩
  rw [core_setLane]
  exact move

/-- Where a named source reads its lane to the end. -/
theorem processCarry_reads {n : Nat} (weighed : Weighed s.roll cut.isSome) (present : (s.lanes key).present = true)
    (done : processCarry k cut env key n s = .ok (after, complete)) (all : complete = true) :
    Passes cut now s after ∧ (after.lanes key).present = true ∧ after.core.pending key = [] := by
  obtain ⟨passes, kept, read⟩ := processCarry_passes n weighed present done
  exact ⟨passes, kept, read all⟩

theorem sealSource_passes (weighed : Weighed s.roll cut.isSome)
    (named : ∀ key, (s.lanes key).entrySource ≠ 0 → (s.lanes key).present = true)
    (done : sealSource s k cut env key epoch = .ok after) : Passes cut env.now s after := by
  simp only [sealSource, bind_ok, require_ok, pure_ok, Prod.exists] at done
  obtain ⟨_, ⟨sender, real, _, past, _⟩, middle, complete, read, _, all, _, _, _, _, _, _, _, _, rfl⟩ :=
    done
  have present := named key (sender ▸ real)
  obtain ⟨passes, kept, none⟩ := processCarry_reads weighed present read all
  have move : Move cut env.now middle.core _ := .seals key epoch kept none past
  refine passes.trans (.one passes.weighed ?_)
  rw [core_setLane]
  exact move

theorem stageEpochs_reading (epochs : List Nat) {last : Lane} {payment paid : Nat}
    (done : stageEpochs s cut key account epochs l payment = .ok (last, paid)) : last.reading = l.reading := by
  induction epochs generalizing l payment with
  | nil =>
    cases done
    rfl
  | cons epoch rest ih =>
    simp only [stageEpochs, bind_ok] at done
    obtain ⟨_, _, done⟩ := done
    exact (ih done).trans rfl

theorem stageSource_passes {epochs : List Nat} (weighed : Weighed s.roll cut.isSome)
    (named : ∀ key, (s.lanes key).entrySource ≠ 0 → (s.lanes key).present = true)
    (done : stageSource s k cut env key account epochs asset = .ok after) : Passes cut env.now s after := by
  simp only [stageSource, bind_ok, require_ok, Prod.exists] at done
  obtain ⟨_, ⟨sender, real, _⟩, _, _, middle, complete, read, _, all, l, payment, staged, done⟩ := done
  have present := named key (sender ▸ real)
  have synced : Passes cut env.now s _ ∧ _ := syncMode_passes weighed
  obtain ⟨passes, ready, _⟩ := synced
  have still : ((syncMode s cut env.now).lanes key).present = true := by rwa [syncMode_lanes]
  have logged : Passes cut env.now _ _ := logEvent_passes ready still
  have there : ((logEvent (syncMode s cut env.now) cut env.now key 0 0).lanes key).present = true := by
    simp [logEvent, still]
  obtain ⟨reads, _⟩ := processCarry_reads logged.weighed there read all
  have reading := stageEpochs_reading epochs staged
  refine (passes.trans logged).trans (reads.trans (.same reads.weighed ?_))
  simp only [ite_ok, bind_ok, require_ok, pure_ok] at done
  rcases done with ⟨_, _, _, _, _, _, _, rfl⟩ | ⟨_, rfl⟩
  · exact setLane_core reading
  · exact setLane_core reading

/-! The contract. -/

theorem onFeeCredit_passes (weighed : Weighed s.roll cut.isSome)
    (done : onFeeCredit c s k cut env pool quote kind amount = .ok after) : Passes cut env.now s after := by
  -- the lane is the pool's own, an older one it is pointed at, or a new one
  have opened : ∃ middle key, Passes cut env.now s middle ∧ (middle.lanes key).present = true ∧
      notify middle k cut env key (amount * RewardToken.precision) = .ok after := by
    simp only [onFeeCredit, bind_ok, require_ok] at done
    obtain ⟨_, _, done⟩ := done
    split at done
    · simp only [bind_ok, require_ok, pure_ok, Prod.exists, Prod.mk.injEq] at done
      obtain ⟨_, key, ⟨rfl, rfl⟩, _, ⟨present, _⟩, done⟩ := done
      exact ⟨_, _, .refl weighed, present, done⟩
    · split at done
      · simp [bind_ok, throw_ok] at done
      · next p _ =>
        split at done
        · simp only [bind_ok, require_ok, pure_ok, Prod.exists, Prod.mk.injEq] at done
          obtain ⟨_, rfl, _, _, ⟨rfl, rfl⟩, _, ⟨present, _⟩, done⟩ := done
          refine ⟨_, _, .same weighed ?_, present, done⟩
          exact (core_setLane ..).trans (setLane_same s.core _)
        · simp only [bind_ok, require_ok, pure_ok] at done
          obtain ⟨⟨t, own⟩, registered, _, rfl, _, rfl, _, ⟨present, _⟩, done⟩ := done
          have opened : Passes cut env.now s t ∧ _ := registerLane_passes weighed registered
          have first := opened.1
          refine ⟨_, _, first.trans (.same first.weighed ?_), present, done⟩
          exact (core_setLane ..).trans (setLane_same t.core _)
  obtain ⟨middle, key, passes, present, done⟩ := opened
  exact passes.trans (notify_passes passes.weighed present done)

/-- A field of a lane that the core leaves out. -/
theorem Passes.funds (passes : Passes cut now s mid) (same : l.reading = (mid.lanes key).reading) :
    Passes cut now s (mid.setLane key l) :=
  passes.trans (.same passes.weighed (setLane_core same))

theorem notifyV2Budget_passes {lot : Nat} (weighed : Weighed s.roll cut.isSome)
    (elected : ∀ key, s.v2Lane = some key → (s.lanes key).present = true)
    (done : notifyV2Budget s k cut env lot amount = .ok after) : Passes cut env.now s after := by
  simp only [notifyV2Budget, bind_ok, require_ok] at done
  obtain ⟨_, _, done⟩ := done
  split at done
  · exact absurd done (by simp [throw_ok])
  · next key chosen =>
    simp only [bind_ok, pure_ok] at done
    obtain ⟨middle, notified, rfl⟩ := done
    have present := elected key chosen
    have passes := notify_passes (by exact weighed) (by exact present) notified
    exact Passes.funds ⟨passes.moves, passes.weighed⟩ rfl

theorem notifyProtocolDeskCredit_passes {amount27 : Nat} (weighed : Weighed s.roll cut.isSome)
    (done : notifyProtocolDeskCredit c s k cut env pool epoch asset kind amount27 = .ok after) :
    Passes cut env.now s after := by
  simp only [notifyProtocolDeskCredit, bind_ok, require_ok] at done
  obtain ⟨_, _, done⟩ := done
  generalize (if kind = 0 then s.protocolPolicy.asset else asset) = paid at done
  split at done
  · next present =>
    simp only [pure_ok, bind_ok] at done
    obtain ⟨_, rfl, done⟩ := done
    exact notify_passes weighed present done
  · simp only [pure_ok, bind_ok] at done
    obtain ⟨⟨t, own⟩, registered, _, rfl, done⟩ := done
    have opened : Passes cut env.now s _ ∧ _ := registerLane_passes weighed registered
    obtain ⟨first, rfl, present⟩ := opened
    exact first.trans (notify_passes first.weighed present done)

theorem fundProtocolDesk_passes (weighed : Weighed s.roll cut.isSome)
    (done : fundProtocolDesk s env pool epoch asset kind amount = .ok after) : Passes cut now s after := by
  simp only [fundProtocolDesk, bind_ok, require_ok, ite_ok, pure_ok] at done
  obtain ⟨_, _, _, _, ⟨_, _, _, rfl⟩ | ⟨_, _, _, _, _, rfl⟩⟩ := done
  · exact (Passes.refl weighed).funds rfl
  · exact (Passes.refl weighed).funds rfl

theorem configureSource_passes {source : Source} (weighed : Weighed s.roll cut.isSome)
    (done : configureSource c s k cut env source quote kind p = .ok after) : Passes cut now s after := by
  simp only [configureSource, bind_ok, require_ok, pure_ok] at done
  obtain ⟨_, _, _, _, ⟨t, own⟩, registered, rfl⟩ := done
  have opened : Passes cut now s _ ∧ _ := registerLane_passes weighed registered
  refine opened.1.trans (.same opened.1.weighed ?_)
  exact (core_setLane ..).trans (setLane_same t.core _)

theorem configureV2_passes {notifier : Address} (weighed : Weighed s.roll cut.isSome)
    (done : configureV2 c s k cut env notifier p = .ok after) : Passes cut now s after := by
  simp only [configureV2, bind_ok, require_ok, pure_ok] at done
  obtain ⟨_, _, ⟨t, own⟩, registered, rfl⟩ := done
  have opened : Passes cut now { s with v2Notifier := notifier } t ∧ _ :=
    registerLane_passes (by exact weighed) registered
  obtain ⟨passes, _, present⟩ := opened
  have move : Move cut now t.core _ := .elects own present
  exact .trans ⟨passes.moves, passes.weighed⟩ (.one passes.weighed move)

theorem createEntrySource_passes (weighed : Weighed s.roll cut.isSome)
    (done : createEntrySource s env key = .ok after) : Passes cut now s after := by
  simp only [createEntrySource, bind_ok, require_ok, ite_ok, pure_ok] at done
  obtain ⟨_, present, ⟨_, rfl⟩ | ⟨_, rfl⟩⟩ := done
  · have move : Move cut now s.core _ := .names key env.created present
    refine .one weighed ?_
    rw [core_setLane]
    exact move
  · exact .refl weighed

/-- One call, in which the lanes that were named or chosen before are there. -/
theorem step_passes {call : Call} (weighed : Weighed s.roll (k.cutoff env.now).isSome)
    (named : ∀ key, (s.lanes key).entrySource ≠ 0 → (s.lanes key).present = true)
    (elected : ∀ key, s.v2Lane = some key → (s.lanes key).present = true)
    (taken : step c s k env call = .ok after) : Passes (k.cutoff env.now) env.now s after := by
  cases call with
  | stake beneficiary amount => exact stake_passes weighed taken
  | unstake amount receiver => exact unstake_passes weighed taken
  | syncEligibility account => exact syncEligibility_passes weighed taken
  | onEligibilityChange account => exact onEligibilityChange_passes weighed taken
  | releaseCarry key maxSteps =>
    simp only [step, bind_ok, pure_ok] at taken
    obtain ⟨⟨t, complete⟩, done, rfl⟩ := taken
    exact releaseCarry_passes weighed done
  | sealSource key epoch => exact sealSource_passes weighed named taken
  | stageSource key account epochs asset => exact stageSource_passes weighed named taken
  | onFeeCredit pool quote kind amount => exact onFeeCredit_passes weighed taken
  | notifyV2Budget lot amount => exact notifyV2Budget_passes weighed elected taken
  | notifyProtocolDeskCredit pool epoch asset kind amount27 =>
    exact notifyProtocolDeskCredit_passes weighed taken
  | fundProtocolDesk pool epoch asset kind amount => exact fundProtocolDesk_passes weighed taken
  | configureSource source quote kind p => exact configureSource_passes weighed taken
  | configureV2 notifier p => exact configureV2_passes weighed taken
  | configureProtocolDesk notifier p =>
    simp only [step, configureProtocolDesk, bind_ok, require_ok, pure_ok] at taken
    obtain ⟨_, _, _, _, rfl⟩ := taken
    exact .same weighed rfl
  | configureEligibilityAssets assets =>
    simp only [step, configureEligibilityAssets, bind_ok, require_ok, pure_ok] at taken
    obtain ⟨_, _, _, _, rfl⟩ := taken
    exact .same weighed rfl
  | configureRewardSchedules v2 protocol =>
    simp only [step, configureRewardSchedules, bind_ok, require_ok, pure_ok] at taken
    obtain ⟨_, _, _, _, rfl⟩ := taken
    exact .same weighed rfl
  | configureRewards manager payout =>
    simp only [step, configureRewards, bind_ok, require_ok, pure_ok] at taken
    obtain ⟨_, _, rfl⟩ := taken
    exact .same weighed rfl
  | createEntrySource key => exact createEntrySource_passes weighed taken

end Solonpad.Staking
