import Solonpad.RewardVault
import Solonpad.StakingRoster

/-!
The reward vault's copy of its sources' participants. A source shows its participants by index and,
for an ended epoch, a bound below which nobody is missing or moves. The vault copies a prefix of that
list that reaches the bounds of all its allocations, so the index of a sealed allocation is the
source's own.
-/

namespace Solonpad.RewardVault

open Checked
open Chain (Address)

variable {W : Type} {turn : W → W → Prop}

/-- A source's participants, as its world goes on by `turn`. Everyone below the bound of an epoch
stays there, and whoever is credited in the epoch is below it, once. -/
structure Directory (turn : W → W → Prop) where
  participantAt : W → Nat → Option Address
  queueSnapshot : W → Nat → Option (Nat × Nat)
  credit : W → Address → Nat → Nat
  stays : ∀ {w after epoch bound revision}, Relation.ReflTransGen turn w after →
    queueSnapshot w epoch = some (bound, revision) → ∀ i, i < bound →
      participantAt after i = participantAt w i ∧ (participantAt w i).isSome = true
  complete : ∀ {w after epoch bound revision}, Relation.ReflTransGen turn w after →
    queueSnapshot w epoch = some (bound, revision) → ∀ a, credit after a epoch ≠ 0 →
      ∃ i, i < bound ∧ participantAt after i = some a ∧ ∀ j, participantAt after j = some a → j = i

/-- The vault's peers show what the directories say, and a transfer is a part of the world's going on. -/
structure Reads (turn : W → W → Prop) (d : Address → Directory turn) (x : Peers W) : Prop where
  queueSnapshot : ∀ w source epoch shown, x.queueSnapshot w source epoch = .ok shown →
    (d source).queueSnapshot w epoch = some shown
  participantAt : ∀ w source i a, x.participantAt w source i = .ok a →
    (d source).participantAt w i = some a
  transfer : ∀ w asset receiver amount after, x.transfer w asset receiver amount = .ok after →
    Relation.ReflTransGen turn w after
  refund : ∀ w amount after, x.refund w amount = .ok after → Relation.ReflTransGen turn w after

inductive Action where
  | returnRefund (amount : Nat)
  | sendOrphan (asset treasury : Address) (raw : Nat)
  | registerAllocation (id : Nat) (source : Address) (epoch cohort : Nat) (asset : Address) (total : Nat)
  | recordDelivery (id raw : Nat)
  | stageCredit (account : Address) (ids : List Nat) (asset : Address)
  | registerParticipants (source : Address) (most : Nat)
  | sealParticipantIndex (id : Nat)

def step (c : Config) (b : Balance W) (x : Peers W) (s : State W) (sender : Address) (action : Action) :
    Tx (State W) :=
  match action with
  | .returnRefund amount => returnRefund c x s sender amount
  | .sendOrphan asset treasury raw => sendOrphan c b x s sender asset treasury raw
  | .registerAllocation id source epoch cohort asset total =>
    registerAllocation c x s sender id source epoch cohort asset total
  | .recordDelivery id raw => recordDelivery c b s sender id raw
  | .stageCredit account ids asset => do
    let (s, _) ← stageCredit c b x s sender account ids asset
    pure s
  | .registerParticipants source most => registerParticipants x s source most
  | .sealParticipantIndex id => do
    let store ← sealParticipantIndex s.store id
    pure ⟨store, s.world⟩

/-- Anyone calls the vault, or the sources go on. -/
inductive Passes (c : Config) (b : Balance W) (d : Address → Directory turn) (s : State W) :
    State W → Prop where
  | call (x : Peers W) (reads : Reads turn d x) (sender : Address) (action : Action) {after : State W}
      (taken : step c b x s sender action = .ok after) : Passes c b d s after
  | world {w : W} (goes : turn s.world w) : Passes c b d s ⟨s.store, w⟩

variable {c : Config} {b : Balance W} {d : Address → Directory turn} {x : Peers W} {s after : State W} {w : W}
  {governance : Address} {k : Eligibility.Controller} {epoch bound id now : Nat} {store : Store}

/-! The copied prefix. -/

/-- A bound that the source once showed for an epoch. -/
def Shown (d : Directory turn) (w : W) (epoch bound : Nat) : Prop :=
  ∃ past revision, Relation.ReflTransGen turn past w ∧ d.queueSnapshot past epoch = some (bound, revision)

theorem Shown.later {d : Directory turn} {after : W} (shown : Shown d w epoch bound)
    (goes : Relation.ReflTransGen turn w after) : Shown d after epoch bound := by
  obtain ⟨past, revision, before, snapshot⟩ := shown
  exact ⟨past, revision, before.trans goes, snapshot⟩

/-- Below a bound that was shown, nobody moves from here on. -/
theorem Shown.stays {d : Directory turn} {after : W} (shown : Shown d w epoch bound)
    (goes : Relation.ReflTransGen turn w after) {i : Nat} (below : i < bound) :
    d.participantAt after i = d.participantAt w i := by
  obtain ⟨past, revision, before, snapshot⟩ := shown
  rw [(d.stays before snapshot i below).1, (d.stays (before.trans goes) snapshot i below).1]

/-- A source's copy: its first participants, no further than some bound it showed. -/
structure Copied (d : Directory turn) (s : Store) (w : W) (source : Address) : Prop where
  length : (s.participants source).length = s.sourceCursor source
  within : s.sourceCursor source ≤ s.requiredSourceBound source
  shown : s.requiredSourceBound source = 0 ∨ ∃ epoch, Shown d w epoch (s.requiredSourceBound source)
  same : ∀ i, i < s.sourceCursor source → (s.participants source)[i]? = d.participantAt w i

/-- An allocation's bound, and its seal. -/
structure Bounded (d : Directory turn) (s : Store) (w : W) (id : Nat) : Prop where
  shown : (s.allocations id).source ≠ 0 → Shown d w (s.allocations id).epoch (s.sourceBounds id)
  sealed_ : s.participantIndexSealed id = true → (s.allocations id).source ≠ 0 ∧
    s.participantUpperBound id = s.sourceBounds id ∧
    s.sourceBounds id ≤ s.sourceCursor (s.allocations id).source

structure Indexed (d : Address → Directory turn) (s : State W) : Prop where
  copied : ∀ source, Copied (d source) s.store s.world source
  bounded : ∀ id, Bounded (d (s.store.allocations id).source) s.store s.world id

theorem Copied.later {d : Directory turn} {after : W} {source : Address} (copied : Copied d store w source)
    (goes : Relation.ReflTransGen turn w after) : Copied d store after source := by
  obtain ⟨length, within, shown, same⟩ := copied
  refine ⟨length, within, ?_, fun i below => ?_⟩
  · rcases shown with none | ⟨epoch, shown⟩
    · exact .inl none
    · exact .inr ⟨epoch, shown.later goes⟩
  · rcases shown with none | ⟨epoch, shown⟩
    · omega
    · rw [shown.stays goes (below.trans_le within)]
      exact same i below

theorem Indexed.later (indexed : Indexed d s) (goes : Relation.ReflTransGen turn s.world w) :
    Indexed d ⟨s.store, w⟩ := by
  constructor
  · intro source
    exact (indexed.copied source).later goes
  · intro id
    obtain ⟨shown, done⟩ := indexed.bounded id
    exact ⟨fun known => (shown known).later goes, done⟩

/-- The stores whose index is the same, up to what was delivered and staged. -/
structure Unindexed (s after : Store) : Prop where
  participants : after.participants = s.participants
  cursor : after.sourceCursor = s.sourceCursor
  required : after.requiredSourceBound = s.requiredSourceBound
  bounds : after.sourceBounds = s.sourceBounds
  upper : after.participantUpperBound = s.participantUpperBound
  sealed_ : after.participantIndexSealed = s.participantIndexSealed
  source : ∀ id, (after.allocations id).source = (s.allocations id).source
  epoch : ∀ id, (after.allocations id).epoch = (s.allocations id).epoch

theorem Indexed.same (indexed : Indexed d s) (same : Unindexed s.store store) : Indexed d ⟨store, s.world⟩ := by
  obtain ⟨participants, cursor, required, bounds, upper, sealed_, source, epoch⟩ := same
  constructor
  · intro a
    obtain ⟨length, within, shown, copies⟩ := indexed.copied a
    exact ⟨by rwa [participants, cursor], by rwa [cursor, required], by rwa [required],
      by rwa [participants, cursor]⟩
  · intro id
    obtain ⟨shown, done⟩ := indexed.bounded id
    rw [source]
    exact ⟨by rwa [source, epoch, bounds], by rwa [sealed_, upper, bounds, source, cursor]⟩

theorem copyParticipants_ok {d : Directory turn} {w : W} {source : Address}
    (reads : ∀ i a, x.participantAt w source i = .ok a → d.participantAt w i = some a) (n cursor : Nat)
    {copied done_ : List Address} (long : copied.length = cursor)
    (done : copyParticipants x w source n cursor copied = .ok done_) :
    done_.length = cursor + n ∧ (∀ i, i < cursor → done_[i]? = copied[i]?) ∧
      ∀ i, cursor ≤ i → i < cursor + n → done_[i]? = d.participantAt w i := by
  induction n generalizing cursor copied with
  | zero =>
    cases done
    exact ⟨long, fun _ _ => rfl, fun i low high => absurd low (by omega)⟩
  | succ n ih =>
    simp only [copyParticipants, bind_ok] at done
    obtain ⟨a, shown, done⟩ := done
    have longer : (copied ++ [a]).length = cursor + 1 := by
      rw [List.length_append, long]
      rfl
    obtain ⟨length, old, new⟩ := ih (cursor + 1) longer done
    refine ⟨by omega, fun i below => ?_, fun i low high => ?_⟩
    · rw [old i (by omega), List.getElem?_append_left (by omega)]
    · by_cases here : i = cursor
      · subst here
        rw [old i (by omega), List.getElem?_append_right (by omega), long, Nat.sub_self]
        exact (reads i a shown).symm
      · exact new i (by omega) (by omega)

/-! Calls. -/

theorem sendExactly_goes {error : VaultError} {asset receiver amount : Nat} (reads : Reads turn d x)
    (done : sendExactly c b x s error asset receiver amount = .ok after) :
    after.store = s.store ∧ Relation.ReflTransGen turn s.world after.world := by
  simp only [sendExactly, bind_ok, require_ok, pure_ok] at done
  obtain ⟨world, moved, _, _, rfl⟩ := done
  exact ⟨rfl, reads.transfer _ _ _ _ _ moved⟩

theorem stageOne_unindexed {w : W} {account asset id delta : Nat} {store next : Store}
    (done : stageOne x w account asset id store = .ok (next, delta)) : Unindexed store next := by
  simp only [stageOne, bind_ok, require_ok, ite_ok, sub_ok, pure_ok, Prod.mk.injEq] at done
  obtain ⟨_, _, ⟨_, rfl, _⟩ | ⟨_, _, _, _, _, _, _, _, _, rfl, _⟩⟩ := done
  · exact ⟨rfl, rfl, rfl, rfl, rfl, rfl, fun _ => rfl, fun _ => rfl⟩
  · exact ⟨rfl, rfl, rfl, rfl, rfl, rfl, fun _ => rfl, fun _ => rfl⟩

theorem Unindexed.trans {first second third : Store} (one : Unindexed first second)
    (two : Unindexed second third) : Unindexed first third :=
  ⟨two.participants.trans one.participants, two.cursor.trans one.cursor, two.required.trans one.required,
    two.bounds.trans one.bounds, two.upper.trans one.upper, two.sealed_.trans one.sealed_,
    fun id => (two.source id).trans (one.source id), fun id => (two.epoch id).trans (one.epoch id)⟩

theorem stageAll_unindexed {w : W} {account asset amount : Nat} (ids : List Nat) {store next : Store}
    (done : stageAll x w account asset ids store = .ok (next, amount)) : Unindexed store next := by
  induction ids generalizing store amount with
  | nil =>
    cases done
    exact ⟨rfl, rfl, rfl, rfl, rfl, rfl, fun _ => rfl, fun _ => rfl⟩
  | cons id rest ih =>
    simp only [stageAll, bind_ok, pure_ok, Prod.mk.injEq] at done
    obtain ⟨⟨middle, delta⟩, one, ⟨last, more⟩, others, rfl, _⟩ := done
    exact (stageOne_unindexed one).trans (ih others)

theorem registerAllocation_indexed {sender source asset : Address} {id epoch cohort total : Nat}
    (reads : Reads turn d x) (indexed : Indexed d s)
    (done : registerAllocation c x s sender id source epoch cohort asset total = .ok after) : Indexed d after := by
  simp only [registerAllocation, bind_ok, require_ok, pure_ok] at done
  obtain ⟨_, ⟨_, free, _⟩, ⟨bound, revision⟩, snapshot, rfl⟩ := done
  have shows := reads.queueSnapshot _ _ _ _ snapshot
  have now : Shown (d source) s.world epoch bound := ⟨s.world, revision, .refl, shows⟩
  constructor
  · intro a
    obtain ⟨length, within, shown, same⟩ := indexed.copied a
    by_cases more : s.store.requiredSourceBound source < bound
    · by_cases own : a = source
      · subst own
        refine ⟨length, ?_, ?_, same⟩
        · simp only [if_pos more, Function.update_self]
          omega
        · simp only [if_pos more, Function.update_self]
          exact .inr ⟨epoch, now⟩
      · refine ⟨length, ?_, ?_, same⟩
        · simp only [if_pos more, Function.update_of_ne own]
          exact within
        · simp only [if_pos more, Function.update_of_ne own]
          exact shown
    · refine ⟨length, ?_, ?_, same⟩
      · simp only [if_neg more]
        exact within
      · simp only [if_neg more]
        exact shown
  · intro n
    obtain ⟨shown, done_⟩ := indexed.bounded n
    by_cases own : n = id
    · subst own
      constructor
      · intro _
        simp only [Function.update_self]
        exact now
      · intro closed
        exact absurd free (done_ closed).1
    · simp only [Function.update_of_ne own]
      constructor
      · simp only [Function.update_of_ne own]
        exact shown
      · simp only [Function.update_of_ne own]
        exact done_

theorem registerParticipants_indexed {source : Address} {most : Nat} (reads : Reads turn d x)
    (indexed : Indexed d s) (done : registerParticipants x s source most = .ok after) : Indexed d after := by
  simp only [registerParticipants, bind_ok, require_ok, pure_ok] at done
  obtain ⟨_, _, copied, copies, rfl⟩ := done
  obtain ⟨length, within, shown, same⟩ := indexed.copied source
  obtain ⟨long, old, new⟩ := copyParticipants_ok (reads.participantAt s.world source) _ _ length copies
  generalize stops : min (s.store.sourceCursor source + most) (s.store.requiredSourceBound source) = stop
  rw [stops] at long new
  have order : s.store.sourceCursor source ≤ stop := by omega
  constructor
  · intro a
    by_cases own : a = source
    · subst own
      refine ⟨?_, ?_, shown, fun i below => ?_⟩
      · simp only [Function.update_self]
        omega
      · simp only [Function.update_self]
        omega
      · simp only [Function.update_self] at below ⊢
        by_cases early : i < s.store.sourceCursor a
        · rw [old i early]
          exact same i early
        · exact new i (by omega) (by omega)
    · obtain ⟨length', within', shown', same'⟩ := indexed.copied a
      constructor
      · simpa only [Function.update_of_ne own] using length'
      · simpa only [Function.update_of_ne own] using within'
      · exact shown'
      · simpa only [Function.update_of_ne own] using same'
  · intro id
    obtain ⟨bound, done_⟩ := indexed.bounded id
    refine ⟨bound, fun closed => ?_⟩
    obtain ⟨known, upper, far⟩ := done_ closed
    refine ⟨known, upper, ?_⟩
    by_cases own : (s.store.allocations id).source = source
    · simp only [own, Function.update_self]
      rw [own] at far
      omega
    · simp only [Function.update_of_ne own]
      exact far

theorem sealParticipantIndex_indexed {id : Nat} {store : Store} (indexed : Indexed d s)
    (done : sealParticipantIndex s.store id = .ok store) : Indexed d ⟨store, s.world⟩ := by
  simp only [sealParticipantIndex, bind_ok, require_ok, ite_ok, pure_ok] at done
  obtain ⟨_, ⟨known, far⟩, ⟨_, rfl⟩ | ⟨_, rfl⟩⟩ := done
  · exact indexed
  · constructor
    · intro a
      obtain ⟨length, within, shown, same⟩ := indexed.copied a
      exact ⟨length, within, shown, same⟩
    intro n
    obtain ⟨shown, done_⟩ := indexed.bounded n
    refine ⟨shown, fun closed => ?_⟩
    by_cases own : n = id
    · subst own
      simp only [Function.update_self]
      exact ⟨known, trivial, far⟩
    · simp only [Function.update_of_ne own] at closed ⊢
      exact done_ closed

theorem step_indexed {sender : Address} {action : Action} (reads : Reads turn d x) (indexed : Indexed d s)
    (done : step c b x s sender action = .ok after) : Indexed d after := by
  cases action with
  | returnRefund amount =>
    simp only [step, returnRefund, bind_ok, require_ok, pure_ok] at done
    obtain ⟨_, _, world, moved, rfl⟩ := done
    exact indexed.later (reads.refund _ _ _ moved)
  | sendOrphan asset treasury raw =>
    simp only [step, sendOrphan, bind_ok, require_ok] at done
    obtain ⟨_, _, moved⟩ := done
    obtain ⟨store, goes⟩ := sendExactly_goes reads moved
    have later := indexed.later goes
    rwa [← store] at later
  | registerAllocation id source epoch cohort asset total => exact registerAllocation_indexed reads indexed done
  | recordDelivery id raw =>
    simp only [step, recordDelivery, bind_ok, require_ok, sub_ok, pure_ok] at done
    obtain ⟨_, _, _, _, _, _, _, _, rfl⟩ := done
    apply indexed.same
    refine ⟨rfl, rfl, rfl, rfl, rfl, rfl, fun n => ?_, fun n => ?_⟩
    · by_cases own : n = id
      · subst own
        simp
      · simp [own]
    · by_cases own : n = id
      · subst own
        simp
      · simp [own]
  | stageCredit account ids asset =>
    simp only [step, stageCredit, bind_ok, require_ok, ite_ok, pure_ok] at done
    obtain ⟨_, ⟨_, _, ⟨store, amount⟩, staged, done⟩, rfl⟩ := done
    have same := indexed.same (stageAll_unindexed ids staged)
    rcases done with ⟨_, next, moved, rfl⟩ | ⟨_, rfl⟩
    · obtain ⟨kept, goes⟩ := sendExactly_goes reads moved
      have settled : Unindexed store { store with
          totalStaged := Function.update store.totalStaged asset (store.totalStaged asset + amount) } :=
        ⟨rfl, rfl, rfl, rfl, rfl, rfl, fun _ => rfl, fun _ => rfl⟩
      have later := (same.same settled).later goes
      rwa [← kept] at later
    · exact same
  | registerParticipants source most => exact registerParticipants_indexed reads indexed done
  | sealParticipantIndex id =>
    simp only [step, bind_ok, pure_ok] at done
    obtain ⟨store, closed, rfl⟩ := done
    exact sealParticipantIndex_indexed indexed closed

theorem run_indexed (run : Relation.ReflTransGen (Passes c b d) s after) (indexed : Indexed d s) : Indexed d after := by
  induction run with
  | refl => exact indexed
  | tail _ passes ih =>
    cases passes with
    | call x reads sender action taken => exact step_indexed reads ih taken
    | world goes => exact ih.later (.single goes)

theorem start_indexed (d : Address → Directory turn) (w : W) : Indexed d ⟨.empty, w⟩ := by
  constructor
  · intro source
    exact ⟨rfl, le_rfl, .inl rfl, fun i below => absurd below (Nat.not_lt_zero i)⟩
  · intro id
    exact ⟨fun known => absurd rfl known, fun closed => by cases closed⟩

/-- The index of a sealed allocation is its source's, up to the bound. -/
theorem Indexed.view (indexed : Indexed d s) (closed : s.store.participantIndexSealed id = true) (i : Nat)
    (a : Address) :
    participantAt s.store id i = .ok a ↔ i < s.store.participantUpperBound id ∧
      (d (s.store.allocations id).source).participantAt s.world i = some a := by
  obtain ⟨known, upper, far⟩ := (indexed.bounded id).sealed_ closed
  have copied := indexed.copied (s.store.allocations id).source
  simp only [participantAt, bind_ok, require_ok]
  constructor
  · rintro ⟨_, ⟨_, below⟩, found⟩
    have same := copied.same i (by omega)
    cases at_ : (s.store.participants (s.store.allocations id).source)[i]? with
    | none =>
      rw [at_] at found
      cases found
    | some account =>
      rw [at_] at found same
      cases found
      exact ⟨below, same.symm⟩
  · rintro ⟨below, shown⟩
    refine ⟨(), ⟨closed, below⟩, ?_⟩
    rw [copied.same i (by omega), shown]
    rfl

/-- Who is credited in a sealed allocation's epoch is in its index, once. -/
theorem Indexed.complete (indexed : Indexed d s) (closed : s.store.participantIndexSealed id = true) (a : Address)
    (some : (d (s.store.allocations id).source).credit s.world a (s.store.allocations id).epoch ≠ 0) :
    ∃ i, i < s.store.participantUpperBound id ∧ participantAt s.store id i = .ok a ∧
      ∀ j, participantAt s.store id j = .ok a → j = i := by
  obtain ⟨known, upper, far⟩ := (indexed.bounded id).sealed_ closed
  obtain ⟨past, revision, goes, snapshot⟩ := (indexed.bounded id).shown known
  obtain ⟨i, below, at_, unique⟩ := (d (s.store.allocations id).source).complete goes snapshot a some
  refine ⟨i, by omega, (indexed.view closed i a).mpr ⟨by omega, at_⟩, fun j shown => ?_⟩
  exact unique j ((indexed.view closed j a).mp shown).2

/-! The two kinds of sources. -/

/-- A reward token as it goes on from its deployment. -/
abbrev Token (c : RewardToken.Config) (governance : Address) (k : Eligibility.Controller) (now : Nat) :=
  { sys : RewardToken.System // RewardToken.Run c governance (RewardToken.start c k now) sys }

def Token.Turns {c : RewardToken.Config} {governance : Address} {k : Eligibility.Controller} {now : Nat}
    (w after : Token c governance k now) : Prop :=
  RewardToken.Turn c governance w.1 after.1

theorem Token.run {c : RewardToken.Config} {w after : Token c governance k now}
    (goes : Relation.ReflTransGen Token.Turns w after) : RewardToken.Run c governance w.1 after.1 := by
  induction goes with
  | refl => exact .refl
  | tail _ turn ih => exact ih.tail turn

def holders (c : RewardToken.Config) (governance : Address) (k : Eligibility.Controller) (now : Nat) :
    Directory (Token.Turns : Token c governance k now → _ → Prop) where
  participantAt w i := RewardToken.participantAt w.1.token i
  queueSnapshot w epoch := RewardToken.queueSnapshot w.1.token w.1.now epoch
  credit w a epoch :=
    match w.1.token.epochCredit27 (w.1.token.cutoff w.1.controller w.1.now) a epoch with
    | .ok credit => credit
    | .error _ => 0
  stays := by
    intro w after epoch bound revision goes snapshot i below
    by_cases ended : epoch < w.1.now / Eligibility.day
    · obtain ⟨n, ⟨_, shown⟩, _, stay, _⟩ :=
        RewardToken.participants_complete w.2 (Token.run goes) ended
      rw [shown] at snapshot
      cases snapshot
      exact stay i below
    · rw [RewardToken.queueSnapshot, if_neg ended] at snapshot
      cases snapshot
  complete := by
    intro w after epoch bound revision goes snapshot a some
    by_cases ended : epoch < w.1.now / Eligibility.day
    · obtain ⟨n, ⟨_, shown⟩, _, stay, found⟩ :=
        RewardToken.participants_complete w.2 (Token.run goes) ended
      rw [shown] at snapshot
      cases snapshot
      cases read : after.1.token.epochCredit27 (after.1.token.cutoff after.1.controller after.1.now) a epoch
        with
      | error _ => simp [read] at some
      | ok credit =>
        rw [read] at some
        obtain ⟨i, below, at_, unique⟩ := found a credit read some
        exact ⟨i, below, (stay i below).1.trans at_, unique⟩
    · rw [RewardToken.queueSnapshot, if_neg ended] at snapshot
      cases snapshot

/-- The staking contract as it goes on from its deployment. -/
abbrev Stakers (c : Staking.Config) (governance : Address) (k : Eligibility.Controller) (now : Nat) :=
  { sys : Staking.System // Staking.Run c governance (Staking.start k now) sys }

def Stakers.Turns {c : Staking.Config} {governance : Address} {k : Eligibility.Controller} {now : Nat}
    (w after : Stakers c governance k now) : Prop :=
  Staking.Turn c governance w.1 after.1

theorem Stakers.run {c : Staking.Config} {w after : Stakers c governance k now}
    (goes : Relation.ReflTransGen Stakers.Turns w after) : Staking.Run c governance w.1 after.1 := by
  induction goes with
  | refl => exact .refl
  | tail _ turn ih => exact ih.tail turn

def lane (c : Staking.Config) (governance : Address) (k : Eligibility.Controller) (now : Nat)
    (key : Staking.Key) : Directory (Stakers.Turns : Stakers c governance k now → _ → Prop) where
  participantAt w i := Staking.participantAt w.1.staking i
  queueSnapshot w epoch := Staking.sourceQueueSnapshot w.1.staking w.1.now key epoch
  credit w a epoch := Staking.sourceCredit w.1.staking (w.1.controller.cutoff w.1.now) key a epoch
  stays := by
    intro w after epoch bound revision goes snapshot i below
    by_cases ended : epoch < w.1.now / Eligibility.day
    · obtain ⟨n, ⟨_, shown⟩, _, stay, _⟩ := Staking.lane_participants w.2 (Stakers.run goes) key ended
      rw [shown] at snapshot
      cases snapshot
      exact stay i below
    · rw [Staking.sourceQueueSnapshot, if_neg ended] at snapshot
      cases snapshot
  complete := by
    intro w after epoch bound revision goes snapshot a some
    by_cases ended : epoch < w.1.now / Eligibility.day
    · obtain ⟨n, ⟨_, shown⟩, _, stay, found⟩ := Staking.lane_participants w.2 (Stakers.run goes) key ended
      rw [shown] at snapshot
      cases snapshot
      obtain ⟨i, below, at_, unique⟩ := found a some
      exact ⟨i, below, (stay i below).1.trans at_, unique⟩
    · rw [Staking.sourceQueueSnapshot, if_neg ended] at snapshot
      cases snapshot

/-- Whoever is credited in an ended epoch, by a reward token or on a lane of the staking contract,
stands in the participant list once, below the bound of the epoch; and the index of a sealed
allocation is its source's up to the bound, so walking it meets every creditor exactly once. -/
theorem creditors_enumerated :
    (∀ {c : RewardToken.Config} {governance : Address} {k : Eligibility.Controller} {now : Nat}
      {sys final : RewardToken.System}, RewardToken.Run c governance (RewardToken.start c k now) sys →
      RewardToken.Run c governance sys final → ∀ epoch, epoch < sys.now / Eligibility.day →
        ∃ bound revision, RewardToken.queueSnapshot sys.token sys.now epoch = some (bound, revision) ∧
          ∀ a credit, final.token.epochCredit27 (final.token.cutoff final.controller final.now) a epoch =
            .ok credit → credit ≠ 0 → ∃ i, i < bound ∧ RewardToken.participantAt sys.token i = some a ∧
              ∀ j, RewardToken.participantAt final.token j = some a → j = i) ∧
    (∀ {c : Staking.Config} {governance : Address} {k : Eligibility.Controller} {now : Nat}
      {sys final : Staking.System}, Staking.Run c governance (Staking.start k now) sys →
      Staking.Run c governance sys final → ∀ key epoch, epoch < sys.now / Eligibility.day →
        ∃ bound revision,
          Staking.sourceQueueSnapshot sys.staking sys.now key epoch = some (bound, revision) ∧
          ∀ a, Staking.sourceCredit final.staking (final.controller.cutoff final.now) key a epoch ≠ 0 →
            ∃ i, i < bound ∧ Staking.participantAt sys.staking i = some a ∧
              ∀ j, Staking.participantAt final.staking j = some a → j = i) ∧
    ∀ {W : Type} {turn : W → W → Prop} {c : Config} {b : Balance W} {d : Address → Directory turn} {w : W}
      {s : State W}, Relation.ReflTransGen (Passes c b d) ⟨.empty, w⟩ s →
      ∀ id bound revision, queueSnapshot s.store id = .ok (bound, revision) →
        (∀ i a, participantAt s.store id i = .ok a ↔ i < bound ∧
          (d (s.store.allocations id).source).participantAt s.world i = some a) ∧
        ∀ a, (d (s.store.allocations id).source).credit s.world a (s.store.allocations id).epoch ≠ 0 →
          ∃ i, i < bound ∧ participantAt s.store id i = .ok a ∧
            ∀ j, participantAt s.store id j = .ok a → j = i := by
  refine ⟨?_, ?_, ?_⟩
  · intro c governance k now sys final reached further epoch ended
    obtain ⟨bound, ⟨revision, shown⟩, _, _, found⟩ :=
      RewardToken.participants_complete reached further ended
    exact ⟨bound, revision, shown, found⟩
  · intro c governance k now sys final reached further key epoch ended
    obtain ⟨bound, ⟨revision, shown⟩, _, _, found⟩ := Staking.lane_participants reached further key ended
    exact ⟨bound, revision, shown, found⟩
  · intro W turn c b d w s run id bound revision snapshot
    have indexed := run_indexed run (start_indexed d w)
    simp only [queueSnapshot, bind_ok, require_ok, pure_ok, Prod.mk.injEq] at snapshot
    obtain ⟨_, closed, rfl, _⟩ := snapshot
    exact ⟨indexed.view closed, indexed.complete closed⟩

/-! A vault whose only source is one directory. -/

def shows (d : Directory turn) : Peers W where
  queueSnapshot := fun w _ epoch =>
    match d.queueSnapshot w epoch with
    | some shown => pure shown
    | none => throw (.revert .peer)
  participantAt := fun w _ i =>
    match d.participantAt w i with
    | some a => pure a
    | none => throw (.revert .peer)
  creditOf := fun w _ account epoch _ => pure (d.credit w account epoch)
  transfer := fun _ _ _ _ => throw (.revert .peer)
  refund := fun _ _ => throw (.revert .peer)

theorem shows_reads (d : Directory turn) : Reads turn (fun _ => d) (shows d) := by
  constructor
  · intro w source epoch shown done
    simp only [shows] at done
    split at done
    · next found =>
      cases done
      exact found
    · cases done
  · intro w source i a done
    simp only [shows] at done
    split at done
    · next found =>
      cases done
      exact found
    · cases done
  · intro w asset receiver amount after done
    cases done
  · intro w amount after done
    cases done

/-- An ended epoch of two participants is registered, copied and sealed. -/
theorem sealed_two {d : Directory turn} {w : W} {revision first second : Nat}
    (snapshot : d.queueSnapshot w 0 = some (2, revision)) (one : d.participantAt w 0 = some first)
    (two : d.participantAt w 1 = some second) (c : Config) (b : Balance W) :
    ∃ s, Relation.ReflTransGen (Passes c b fun _ => d) ⟨.empty, w⟩ s ∧ s.world = w ∧
      queueSnapshot s.store 1 = .ok (2, 0) ∧ (s.store.allocations 1).epoch = 0 := by
  have reads := shows_reads d
  have shown : (shows d).queueSnapshot w 5 0 = .ok (2, revision) := by
    simp only [shows, snapshot]
    rfl
  have copied : copyParticipants (shows d) w 5 2 0 [] = .ok [first, second] := by
    simp only [copyParticipants, shows, one, two]
    rfl
  have registered : ∃ s, step c b (shows d) ⟨.empty, w⟩ c.manager (.registerAllocation 1 5 0 0 7 10) =
      .ok s ∧ s.world = w ∧ s.store.sourceCursor 5 = 0 ∧ s.store.requiredSourceBound 5 = 2 ∧
      s.store.knownSource 5 = true ∧ s.store.participants 5 = [] ∧ s.store.sourceBounds 1 = 2 ∧
      s.store.allocations 1 = ⟨5, 0, 0, 7, 10, 0, 0⟩ ∧ s.store.participantIndexSealed 1 = false := by
    simp only [step, registerAllocation, bind_ok, require_ok, pure_ok]
    exact ⟨_, ⟨(), ⟨trivial, rfl, by decide⟩, _, shown, rfl⟩, rfl, rfl, rfl, rfl, rfl, rfl, rfl, rfl⟩
  obtain ⟨s, taken, world, cursor, required, known, none, bound, allocation, open_⟩ := registered
  have enrolled : ∃ t, step c b (shows d) s c.manager (.registerParticipants 5 64) = .ok t ∧
      t.world = w ∧ t.store.sourceCursor 5 = 2 ∧ t.store.sourceBounds 1 = 2 ∧
      t.store.allocations 1 = ⟨5, 0, 0, 7, 10, 0, 0⟩ ∧ t.store.participantIndexSealed 1 = false := by
    simp only [step, registerParticipants, bind_ok, require_ok, pure_ok, cursor, required, none, world]
    exact ⟨_, ⟨(), ⟨known, by decide⟩, _, copied, rfl⟩, rfl, by simp, bound, allocation, open_⟩
  obtain ⟨t, taken', world', cursor', bound', allocation', open'⟩ := enrolled
  have closed : ∃ u, step c b (shows d) t c.manager (.sealParticipantIndex 1) = .ok u ∧ u.world = w ∧
      queueSnapshot u.store 1 = .ok (2, 0) ∧ (u.store.allocations 1).epoch = 0 := by
    simp only [step, sealParticipantIndex, queueSnapshot, bind_ok, require_ok, ite_ok, pure_ok, allocation',
      bound', cursor', open']
    refine ⟨_, ⟨_, ⟨(), by decide, .inr ⟨by decide, rfl⟩⟩, rfl⟩, world', ?_, ?_⟩
    · simp [allocation']
    · simp [allocation']
  obtain ⟨u, taken'', world'', snapshot', epoch⟩ := closed
  refine ⟨u, ?_, world'', snapshot', epoch⟩
  have first : Relation.ReflTransGen (Passes c b fun _ => d) ⟨.empty, w⟩ s :=
    .single (.call (shows d) reads c.manager _ taken)
  exact (first.tail (.call (shows d) reads c.manager _ taken')).tail (.call (shows d) reads c.manager _ taken'')

/-- The token's first day, a day later: its two holders, and what the second one earned. -/
theorem two_holders : ∃ sys, RewardToken.Run RewardToken.sample 9 (RewardToken.start RewardToken.sample .empty 100)
      sys ∧ sys.now = 86400 ∧ sys.token.participants = [(10, 200), (11, 200)] ∧
    sys.token.epochCredit27 (sys.token.cutoff sys.controller sys.now) 11 0 = .ok (27 * 10 ^ 27 / 4) := by
  obtain ⟨sys, reached, passed⟩ := RewardToken.Run.of_calls (c := RewardToken.sample) 9 .empty 100
    RewardToken.twoHolders (fun sys => decide (sys.now ≤ 86400 ∧
      sys.token.participants = [(10, 200), (11, 200)]) &&
      match sys.token.epochCredit27 (sys.token.cutoff sys.controller 86400) 11 0 with
      | .ok credit => decide (credit = 27 * 10 ^ 27 / 4)
      | .error _ => false) (by decide)
  rw [Bool.and_eq_true] at passed
  obtain ⟨order, listed⟩ := of_decide_eq_true passed.1
  refine ⟨_, reached.tail (.wait 86400 order), rfl, listed, ?_⟩
  have earned := passed.2
  split at earned
  · next credit read => rw [read, of_decide_eq_true earned]
  · cases earned

/-- The day of the two holders is sealed, and the second holder is met once; so is a staker. -/
theorem creditors_enumerated_two :
    (∃ sys, RewardToken.Run RewardToken.sample 9 (RewardToken.start RewardToken.sample .empty 100) sys ∧
      ∃ i, RewardToken.participantAt sys.token i = some 11 ∧
        ∀ j, RewardToken.participantAt sys.token j = some 11 → j = i) ∧
    (∃ sys, Staking.Run Staking.sample 9 (Staking.start .empty 100) sys ∧
      ∃ i, Staking.participantAt sys.staking i = some 11 ∧
        ∀ j, Staking.participantAt sys.staking j = some 11 → j = i) ∧
    ∃ (w : Token RewardToken.sample 9 .empty 100) (s : State (Token RewardToken.sample 9 .empty 100)),
      Relation.ReflTransGen (Passes ⟨40, 41, 50⟩ (fun _ _ _ => 0)
        fun _ => holders RewardToken.sample 9 .empty 100) ⟨.empty, w⟩ s ∧
      ∃ i, i < 2 ∧ participantAt s.store 1 i = .ok 11 ∧ ∀ j, participantAt s.store 1 j = .ok 11 → j = i := by
  obtain ⟨sys, reached, now, listed, earned⟩ := two_holders
  have ended : 0 < sys.now / Eligibility.day := by
    rw [now]
    decide
  refine ⟨?_, ?_, ?_⟩
  · obtain ⟨bound, revision, _, found⟩ := creditors_enumerated.1 reached .refl 0 ended
    obtain ⟨i, _, at_, unique⟩ := found 11 _ earned (by decide)
    exact ⟨sys, reached, i, at_, unique⟩
  · obtain ⟨stakers, staked, passed⟩ := Staking.Run.of_calls (c := Staking.sample) 9 .empty 100
      Staking.sealedLane (fun sys => decide (0 < sys.now / Eligibility.day ∧
        Staking.sourceCredit sys.staking (sys.controller.cutoff sys.now) Staking.sampleLane 11 0 ≠ 0))
      (by decide)
    obtain ⟨past, some⟩ := of_decide_eq_true passed
    obtain ⟨bound, revision, _, found⟩ := creditors_enumerated.2.1 staked .refl Staking.sampleLane 0 past
    obtain ⟨i, _, at_, unique⟩ := found 11 some
    exact ⟨stakers, staked, i, at_, unique⟩
  · let w : Token RewardToken.sample 9 .empty 100 := ⟨sys, reached⟩
    have joined : Enrolment.joinedBefore sys.token.participants ((0 + 1) * Eligibility.day) = 2 := by
      rw [listed]
      decide
    have snapshot : (holders RewardToken.sample 9 .empty 100).queueSnapshot w 0 =
        some (2, sys.token.payouts.cumulativeDelivered 0 + 1) := by
      simp only [holders, RewardToken.queueSnapshot, w]
      rw [if_pos ended, joined]
    have one : (holders RewardToken.sample 9 .empty 100).participantAt w 0 = some 10 := by
      simp only [holders, RewardToken.participantAt, w, listed]
      rfl
    have two : (holders RewardToken.sample 9 .empty 100).participantAt w 1 = some 11 := by
      simp only [holders, RewardToken.participantAt, w, listed]
      rfl
    obtain ⟨s, run, world, closed, epoch⟩ := sealed_two snapshot one two ⟨40, 41, 50⟩ (fun _ _ _ => 0)
    refine ⟨w, s, run, (creditors_enumerated.2.2 run 1 2 0 closed).2 11 ?_⟩
    rw [world, epoch]
    simp only [holders, w, earned]
    decide

end Solonpad.RewardVault
