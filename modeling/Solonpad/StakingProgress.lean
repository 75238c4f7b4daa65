import Solonpad.StakingRuns

/-!
Whether a lane can be read to its end. While the carry's clock has room every event can be read;
what may stop a lane is the policy of an epoch whose first payment is read late, since in mode A an
asset outside the required basket gets no policy. A page that reads two events more than makes up
for the event its own call logs.
-/

namespace Solonpad.Staking

open Checked CarryStream Eligibility ExpiringWeights MergedLog
open Chain (Address)

variable {c : Config} {governance : Address} {cut : Option Nat} {now : Nat} {k : Controller} {env : Env}
  {s mid after : State} {key : Key} {e : CarryEvent}

/-! Events. -/

theorem Streams.covered {stream : Stream} {deposits : List Deposit} (streams : Streams stream deposits) :
    stream.released ≤ stream.deposited := by
  have unlocked := streams.unlocked
  omega

/-- Until the clock's range ends an event can be read. -/
theorem absorb_total {b : Book} (running : Running b.stream e.time) (range : e.time + duration ≤ clockMax) :
    ∃ after unlocked, b.absorb e = .ok (after, unlocked) ∧ Running after.stream e.time := by
  have checked : ∃ middle amount, checkpoint StakingError.clockOverflow b.stream
      (decide (e.denominator ≠ 0)) e.time = .ok (middle, amount) ∧ Running middle e.time :=
    running.checkpoint _ range
  obtain ⟨middle, amount, done, later⟩ := checked
  obtain ⟨deposits, streams⟩ := running.streams
  have positive : amount ≠ 0 → e.denominator ≠ 0 := by
    intro some
    exact of_decide_eq_true ((checkpoint_ok done (Streams.covered streams)).2.2.2 some)
  have carried : ∃ stream, checkpointCarry b.stream e = .ok (stream, amount) ∧
      Running stream e.time := by
    rw [checkpointCarry, done]
    by_cases deposits : e.deposit27 ≠ 0
    · exact ⟨_, by simp only [bind, Except.bind, if_pos deposits]; rfl, later.deposit e.deposit27⟩
    · exact ⟨_, by simp only [bind, Except.bind, if_neg deposits]; rfl, later⟩
  obtain ⟨stream, carried, kept⟩ := carried
  rw [Book.absorb, carried]
  by_cases some : amount ≠ 0
  · simp only [bind, Except.bind, if_pos some, require, if_pos (positive some)]
    exact ⟨_, _, rfl, kept⟩
  · simp only [bind, Except.bind, if_neg some]
    exact ⟨_, _, rfl, kept⟩

/-- The stream of a book runs behind every event that it has read. -/
theorem Replays.running {log consumed : List CarryEvent} {b : Book} (replays : Replays log consumed b)
    (ordered : consumed.Pairwise fun earlier later => earlier.time ≤ later.time)
    (range : ∀ e ∈ consumed, e.time + duration ≤ clockMax) {t : Nat} (late : ∀ e ∈ consumed, e.time ≤ t) :
    Running b.stream t := by
  induction replays generalizing t with
  | empty => exact .empty t
  | logs e _ ih =>
    rw [noted_stream]
    exact ih ordered range late
  | reads e _ read ih =>
    obtain ⟨early, _, last⟩ := List.pairwise_append.mp ordered
    have before := ih early (fun other member => range other (List.mem_append_left _ member))
      (fun other member => last other member e (List.mem_singleton_self e))
    obtain ⟨own, unlocked, done, running⟩ :=
      absorb_total before (range e (List.mem_append_right _ (List.mem_singleton_self e)))
    rw [read] at done
    cases done
    exact running.later (late e (List.mem_append_right _ (List.mem_singleton_self e)))

/-- The next event of a lane can be read. -/
theorem Founded.readable {s : Core} (founded : Founded cut now s) (present : (s.lanes key).present = true)
    (range : now + duration ≤ clockMax) {rest : List CarryEvent} (first : s.pending key = e :: rest) :
    ∃ after unlocked, (s.lanes key).book.absorb e = .ok (after, unlocked) := by
  obtain ⟨clock, sound⟩ := founded
  have fits := sound.lanes key present
  obtain ⟨consumed, split, replays⟩ := fits.replays
  rw [first] at split
  have past : ∀ other ∈ s.log key, other.time ≤ now := by
    intro other member
    rw [(sound.logged member).stands.timed]
    exact sound.running.past _
  have ordered : (s.log key).Pairwise fun earlier later => earlier.time ≤ later.time := by
    apply fits.rising.imp_of_mem
    intro earlier later before behind order
    rw [(sound.logged before).stands.timed, (sound.logged behind).stands.timed]
    exact sound.running.mono (Nat.le_of_lt order)
  rw [← split] at ordered past
  obtain ⟨early, _, last⟩ := List.pairwise_append.mp ordered
  have running := replays.running early
    (fun other member => by have := past other (List.mem_append_left _ member); omega)
    (fun other member => last other member e (List.mem_cons_self ..))
  have own := past e (List.mem_append_right _ (List.mem_cons_self ..))
  obtain ⟨book, unlocked, done, _⟩ := absorb_total running (by omega)
  exact ⟨book, unlocked, done⟩

/-! Policies. -/

/-- An epoch's policy is stamped, or can be: it resolves, and in mode A its asset is in the basket. -/
def Stampable (s : State) (k : Controller) (cut : Option Nat) (env : Env) (key : Key) (epoch : Nat) :
    Prop :=
  ((s.lanes key).epochPolicies epoch).asset ≠ 0 ∨ ∃ p, policyOf s env key epoch = .ok p ∧
    (cut.isSome = true → k.assetIds p.asset ≠ 0 ∧ hasBit s.requiredAssetMask (k.assetIds p.asset - 1))

/-- Policies that could be stamped still can. -/
structure Tolerant (key : Key) (s after : State) : Prop where
  policy : ∀ env epoch, ((after.lanes key).epochPolicies epoch).asset = 0 →
    ((s.lanes key).epochPolicies epoch).asset = 0 ∧ policyOf after env key epoch = policyOf s env key epoch
  basket : ∀ bit, hasBit s.requiredAssetMask bit → hasBit after.requiredAssetMask bit

theorem Tolerant.refl (key : Key) (s : State) : Tolerant key s s :=
  ⟨fun _ _ unset => ⟨unset, rfl⟩, fun _ known => known⟩

theorem Tolerant.trans (first : Tolerant key s mid) (second : Tolerant key mid after) : Tolerant key s after := by
  refine ⟨fun env epoch unset => ?_, fun bit known => second.basket bit (first.basket bit known)⟩
  obtain ⟨still, same⟩ := second.policy env epoch unset
  obtain ⟨before, same'⟩ := first.policy env epoch still
  exact ⟨before, same.trans same'⟩

theorem Tolerant.stampable (tolerant : Tolerant key s after) {epoch : Nat}
    (stampable : Stampable s k cut env key epoch) : Stampable after k cut env key epoch := by
  by_cases unset : ((after.lanes key).epochPolicies epoch).asset = 0
  · obtain ⟨before, same⟩ := tolerant.policy env epoch unset
    rcases stampable with stamped | ⟨p, resolved, basket⟩
    · exact absurd before stamped
    · refine .inr ⟨p, same.trans resolved, fun on => ?_⟩
      exact ⟨(basket on).1, tolerant.basket _ (basket on).2⟩
  · exact .inl unset

theorem hasBit_or {mask other bit : Nat} (known : hasBit mask bit) : hasBit (mask ||| other) bit := by
  intro none
  rw [Nat.and_or_distrib_right, Nat.or_eq_zero_iff] at none
  exact known none.1

theorem stampPolicy_total {epoch : Nat} (stampable : Stampable s k cut env key epoch) :
    ∃ after, stampPolicy s k cut env key epoch = .ok after ∧ Tolerant key s after := by
  rw [stampPolicy]
  by_cases unset : ((s.lanes key).epochPolicies epoch).asset = 0
  · rcases stampable with stamped | ⟨p, resolved, basket⟩
    · exact absurd unset stamped
    have enters : ∃ mask, basketMask k cut s.requiredAssetMask p.asset = .ok mask ∧
        ∀ bit, hasBit s.requiredAssetMask bit → hasBit mask bit := by
      rw [basketMask]
      by_cases on : cut.isSome = true
      · obtain ⟨bound, known⟩ := basket on
        simp only [if_pos on, bind, Except.bind, require]
        rw [if_pos ⟨bound, known⟩]
        exact ⟨_, rfl, fun bit known => known⟩
      · rw [if_neg on]
        refine ⟨_, rfl, fun bit known => ?_⟩
        split
        · exact hasBit_or known
        · exact known
    obtain ⟨mask, entered, kept⟩ := enters
    simp only [if_pos unset, resolved, entered, bind, Except.bind]
    refine ⟨_, rfl, fun env other still => ?_, kept⟩
    have before : ((s.lanes key).epochPolicies other).asset = 0 := by
      by_cases same : other = epoch
      · rw [same]
        exact unset
      · simpa [Function.update_of_ne same] using still
    refine ⟨before, ?_⟩
    simp only [setLane_lanes] at still
    simp only [policyOf, setLane_lanes, still, before]
    rfl
  · rw [if_neg unset]
    exact ⟨s, rfl, .refl key s⟩

/-! Pages. -/

theorem processEvent_total {cursors : Cursors} {book : Book} {unlocked : Nat}
    (read : (s.lanes key).book.absorb e = .ok (book, unlocked)) (stampable : Stampable s k cut env key (e.time / day)) :
    ∃ after, processEvent s k cut env key e cursors = .ok after ∧ Tolerant key s after := by
  have moved : Tolerant key s (s.setLane key { s.lanes key with book := book, cursors := cursors }) := by
    refine ⟨fun env epoch unset => ?_, fun bit known => known⟩
    rw [setLane_lanes] at unset
    refine ⟨unset, ?_⟩
    simp only [policyOf, setLane_lanes]
    rfl
  simp only [processEvent, read, bind, Except.bind]
  by_cases some : unlocked ≠ 0
  · obtain ⟨after, done, tolerant⟩ := stampPolicy_total (moved.stampable stampable)
    rw [if_pos some]
    exact ⟨after, done, moved.trans tolerant⟩
  · rw [if_neg some]
    exact ⟨_, rfl, moved⟩

theorem processEvent_pending {cursors : Cursors}
    (first : next CarryEvent.seq s.weightEvents (s.lanes key).events (s.lanes key).cursors = some (e, cursors))
    (done : processEvent s k cut env key e cursors = .ok after) :
    s.core.pending key = e :: after.core.pending key ∧
      ((s.lanes key).present = true → (after.lanes key).present = true ∧ Move cut now s.core after.core) := by
  obtain ⟨book, unlocked, read, core⟩ := processEvent_core done
  constructor
  · rw [core, Core.pending, Core.pending, setLane_lane]
    exact next_some first
  · intro present
    have lane := congrArg (fun x : Core => (x.lanes key).present) core
    simp only [setLane_lane] at lane
    rw [core]
    exact ⟨lane.trans present, .reads key e cursors book unlocked present first read⟩

/-- A page reads as many events as it may. -/
theorem processCarry_total (n : Nat) (founded : Founded cut now s.core)
    (present : (s.lanes key).present = true) (range : now + duration ≤ clockMax)
    (stampable : ∀ e ∈ s.core.pending key, Stampable s k cut env key (e.time / day)) :
    ∃ after complete, processCarry k cut env key n s = .ok (after, complete) ∧
      after.core.pending key = (s.core.pending key).drop n ∧ Tolerant key s after ∧
      after.roll = s.roll := by
  induction n generalizing s with
  | zero => exact ⟨s, _, rfl, rfl, .refl key s, rfl⟩
  | succ n ih =>
    rw [processCarry]
    cases first : nextEvent s key with
    | none =>
      have read : s.core.pending key = [] := next_none first
      refine ⟨s, true, rfl, ?_, .refl key s, rfl⟩
      rw [read, List.drop_nil]
    | some pair =>
      obtain ⟨e, cursors⟩ := pair
      have split : s.core.pending key = e :: _ := next_some first
      obtain ⟨book, unlocked, read⟩ := founded.readable present range split
      have stepped : ∃ mid, processEvent s k cut env key e cursors = .ok mid ∧ Tolerant key s mid :=
        processEvent_total read (stampable e (by rw [split]; exact List.mem_cons_self ..))
      obtain ⟨mid, done, tolerant⟩ := stepped
      have stepped : _ ∧ (_ → _ ∧ Move cut now s.core mid.core) := processEvent_pending first done
      obtain ⟨pending, moves⟩ := stepped
      obtain ⟨still, move⟩ := moves present
      obtain ⟨_, _, _, core⟩ := processEvent_core done
      have roll : mid.roll = s.roll := congrArg Core.roll core
      have later : ∀ other ∈ mid.core.pending key, Stampable mid k cut env key (other.time / day) := by
        intro other member
        apply tolerant.stampable
        apply stampable other
        rw [pending]
        exact List.mem_cons_of_mem _ member
      obtain ⟨after, complete, rest, dropped, more, kept⟩ := ih (founded.move move).1 still later
      refine ⟨after, complete, ?_, ?_, tolerant.trans more, kept.trans roll⟩
      · simp only [done, bind, Except.bind]
        exact rest
      · rw [pending, List.drop_succ_cons]
        exact dropped

/-! Calls. -/

theorem logEvent_core (s : State) (cut : Option Nat) (now : Nat) (key : Key) :
    (logEvent s cut now key 0 0).core = s.core.logged key (s.core.event cut now 0 0) := by
  rw [logEvent, core_setLane]
  rfl

theorem logEvent_tolerant (s : State) (cut : Option Nat) (now : Nat) (key : Key) :
    Tolerant key s (logEvent s cut now key 0 0) := by
  refine ⟨fun env epoch unset => ?_, fun bit known => known⟩
  rw [logEvent, setLane_lanes] at unset
  refine ⟨unset, ?_⟩
  simp only [policyOf, logEvent, setLane_lanes]
  rfl

theorem logged_pending {s : Core} (founded : Founded cut now s) (present : (s.lanes key).present = true)
    (seq : e.seq = s.sequence + 1) : (s.logged key e).pending key = s.pending key ++ [e] := by
  obtain ⟨clock, sound⟩ := founded
  have lane : (s.logged key e).lanes key = { s.lanes key with
      events := (s.lanes key).events ++ [e]
      book := (s.lanes key).book.noted e
      totalNotified27 := (s.lanes key).totalNotified27 + (e.direct27 + e.deposit27) } :=
    setLane_lane _ _ _
  rw [Core.pending, Core.pending, lane]
  apply unread_right (sound.lanes key present).within
  intro other member
  have := (sound.weightEvents other member).stands.old
  omega

theorem weighted_pending {s : Core} (founded : Founded cut now s) (present : (s.lanes key).present = true)
    (roll : Roll Address) (weightRevision : Nat) (seq : e.seq = s.sequence + 1) :
    (s.weighted roll weightRevision e).pending key = s.pending key ++ [e] := by
  obtain ⟨clock, sound⟩ := founded
  apply unread_left (sound.lanes key present).within
  intro other member
  have := (sound.laneEvents key other member).stands.old
  omega

/-- The switch to mode A, when it is due, is one event. -/
theorem syncMode_pending (founded : Founded cut now s.core) (present : (s.lanes key).present = true) :
    ∃ new, (syncMode s cut now).core.pending key = s.core.pending key ++ new ∧
      (∀ e ∈ new, e.time = now) ∧
      (new = [] ∧ (syncMode s cut now).roll.modeGeneration = s.roll.modeGeneration ∨
        new.length = 1 ∧ s.roll.modeGeneration = 0 ∧
          (syncMode s cut now).roll.modeGeneration = 1) := by
  unfold syncMode
  by_cases turns : cut.isSome = true ∧ s.roll.modeGeneration = 0
  · rw [if_pos turns]
    refine ⟨[_], weighted_pending founded present s.roll.switch (s.weightRevision + 1) rfl, ?_,
      .inr ⟨rfl, turns.2, rfl⟩⟩
    intro e only
    rw [List.mem_singleton.mp only]
  · rw [if_neg turns]
    refine ⟨[], (List.append_nil _).symm, ?_, .inl ⟨rfl, rfl⟩⟩
    intro e member
    cases member

theorem syncMode_tolerant (s : State) (cut : Option Nat) (now : Nat) (key : Key) :
    Tolerant key s (syncMode s cut now) := by
  unfold syncMode
  split
  · exact ⟨fun env epoch unset => ⟨unset, rfl⟩, fun bit known => known⟩
  · exact .refl key s

/-- A call logs an event, after the switch to mode A if that is due, and then reads a page. -/
theorem releaseCarry_total {page : Nat} (founded : Founded cut env.now s.core)
    (present : (s.lanes key).present = true) (range : env.now + duration ≤ clockMax) (positive : 0 < page)
    (bounded : page ≤ 256) (stampable : ∀ e ∈ s.core.pending key, Stampable s k cut env key (e.time / day))
    (today : Stampable s k cut env key (env.now / day)) :
    ∃ after complete new, releaseCarry s k cut env key page = .ok (after, complete) ∧
      after.core.pending key = (s.core.pending key ++ new).drop page ∧
      (∀ e ∈ new, e.time = env.now) ∧ Tolerant key s after ∧
      (new.length = 1 ∧ after.roll.modeGeneration = s.roll.modeGeneration ∨
        new.length = 2 ∧ s.roll.modeGeneration = 0 ∧ after.roll.modeGeneration = 1) := by
  have weighed : Weighed s.roll cut.isSome := by
    obtain ⟨clock, sound⟩ := founded
    exact sound.weighed
  obtain ⟨switched, pending, dated, turned⟩ := syncMode_pending founded present
  have synced : Passes cut env.now s _ ∧ _ := syncMode_passes weighed
  obtain ⟨passes, ready, _⟩ := synced
  have tolerant := syncMode_tolerant s cut env.now key
  have still : ((syncMode s cut env.now).lanes key).present = true := by rwa [syncMode_lanes]
  have held := (founded.moves passes.moves).1
  rw [releaseCarry]
  generalize syncMode s cut env.now = t at pending turned passes ready tolerant still held
  -- the lane's own event
  have logs : Passes cut env.now t _ := logEvent_passes ready still
  have own := logged_pending held still (e := t.core.event cut env.now 0 0) rfl
  rw [← logEvent_core] at own
  have logged := (held.moves logs.moves).1
  have there : ((logEvent t cut env.now key 0 0).lanes key).present = true := by simp [logEvent, still]
  have roll : (logEvent t cut env.now key 0 0).roll = t.roll := rfl
  have accepts := tolerant.trans (logEvent_tolerant t cut env.now key)
  generalize logEvent t cut env.now key 0 0 = u at own logged there roll accepts
  have all : u.core.pending key = s.core.pending key ++ (switched ++ [t.core.event cut env.now 0 0]) := by
    rw [own, pending, List.append_assoc]
  have new : ∀ e ∈ switched ++ [t.core.event cut env.now 0 0], e.time = env.now := by
    intro e member
    rcases List.mem_append.mp member with first | only
    · exact dated e first
    · rw [List.mem_singleton.mp only]
      rfl
  have readable : ∀ e ∈ u.core.pending key, Stampable u k cut env key (e.time / day) := by
    intro e member
    apply accepts.stampable
    rw [all] at member
    rcases List.mem_append.mp member with older | fresh
    · exact stampable e older
    · rw [new e fresh]
      exact today
  obtain ⟨after, complete, done, dropped, more, kept⟩ :=
    processCarry_total page logged there range readable
  refine ⟨after, complete, switched ++ [t.core.event cut env.now 0 0], ?_, ?_, new,
    accepts.trans more, ?_⟩
  · rw [require, if_pos ⟨present, positive, bounded⟩]
    exact done
  · rw [dropped, all]
  · rw [kept, roll]
    rcases turned with ⟨rfl, same⟩ | ⟨one, zero, mode⟩
    · exact .inl ⟨rfl, same⟩
    · refine .inr ⟨?_, zero, mode⟩
      rw [List.length_append, one]
      rfl

/-- `releaseCarry` again and again, each time in its own surroundings and with its own page. -/
def releases (k : Controller) (key : Key) : List (Env × Nat) → State → Tx State
  | [], s => pure s
  | (env, page) :: rest, s => do
    let (s, _) ← releaseCarry s k (k.cutoff env.now) env key page
    releases k key rest s

/-- Calls at times one after the other, with pages from two to 256 events, while the clock has room. -/
def Admitted : Nat → List (Env × Nat) → Prop
  | _, [] => True
  | now, (env, page) :: rest =>
    now ≤ env.now ∧ env.now + duration ≤ clockMax ∧ 2 ≤ page ∧ page ≤ 256 ∧ Admitted env.now rest

instance decidableAdmitted : (now : Nat) → (calls : List (Env × Nat)) → Decidable (Admitted now calls)
  | _, [] => inferInstanceAs (Decidable True)
  | _, (env, _) :: rest =>
    have := decidableAdmitted env.now rest
    inferInstanceAs (Decidable (_ ∧ _ ∧ _ ∧ _ ∧ _))

/-- Every call gets a policy for the epochs of unread events, and of the calls. -/
def Resolved (s : State) (k : Controller) (key : Key) (calls : List (Env × Nat)) : Prop :=
  ∀ call ∈ calls, ∀ time,
    ((∃ e ∈ pending s key, e.time = time) ∨ ∃ other ∈ calls, other.1.now = time) →
      Stampable s k (k.cutoff call.1.now) call.1 key (time / day)

theorem releaseCarry_founded {page : Nat} {complete : Bool} (founded : Founded cut env.now s.core)
    (done : releaseCarry s k cut env key page = .ok (after, complete)) :
    Founded cut env.now after.core ∧ (after.lanes key).present = true := by
  have weighed : Weighed s.roll cut.isSome := by
    obtain ⟨clock, sound⟩ := founded
    exact sound.weighed
  have passes := releaseCarry_passes weighed done
  refine ⟨(founded.moves passes.moves).1, ?_⟩
  simp only [releaseCarry, bind_ok, require_ok] at done
  obtain ⟨_, ⟨present, _⟩, done⟩ := done
  have synced : Passes cut env.now s _ ∧ _ := syncMode_passes weighed
  obtain ⟨_, ready, _⟩ := synced
  have still : ((syncMode s cut env.now).lanes key).present = true := by rwa [syncMode_lanes]
  have logged : Passes cut env.now _ _ := logEvent_passes ready still
  have there : ((logEvent (syncMode s cut env.now) cut env.now key 0 0).lanes key).present = true := by
    simp [logEvent, still]
  have carried : Passes cut env.now _ after ∧ _ := processCarry_passes page logged.weighed there done
  exact carried.2.1

/-- The calls go through, and each but the first takes at least one event off what is unread. -/
theorem releases_total (calls : List (Env × Nat)) {now : Nat} {s : State} (founded : Founded (k.cutoff now) now s.core)
    (present : (s.lanes key).present = true) (admitted : Admitted now calls) (resolved : Resolved s k key calls) :
    ∃ final, releases k key calls s = .ok final ∧
      (s.core.pending key = [] → final.core.pending key = []) ∧
      (final.core.pending key).length ≤
        (s.core.pending key).length + (1 - s.roll.modeGeneration) - calls.length := by
  induction calls generalizing now s with
  | nil => exact ⟨s, rfl, fun read => read, by simp⟩
  | cons call rest ih =>
    obtain ⟨env, page⟩ := call
    obtain ⟨order, range, least, most, admitted⟩ := admitted
    have here : (env, page) ∈ (env, page) :: rest := List.mem_cons_self ..
    have waited := founded.wait order
    have stampable : ∀ e ∈ s.core.pending key, Stampable s k (k.cutoff env.now) env key (e.time / day) :=
      fun e member => resolved _ here e.time (.inl ⟨e, member, rfl⟩)
    have today := resolved _ here env.now (.inr ⟨_, here, rfl⟩)
    obtain ⟨mid, complete, new, done, dropped, dated, tolerant, grown⟩ :=
      releaseCarry_total waited present range (by omega) most stampable today
    obtain ⟨held, still⟩ := releaseCarry_founded waited done
    have later : Resolved mid k key rest := by
      intro other member time named
      apply tolerant.stampable
      apply resolved other (List.mem_cons_of_mem _ member) time
      rcases named with ⟨e, unread, rfl⟩ | ⟨call, member, rfl⟩
      · have kept : e ∈ s.core.pending key ++ new := by
          have inside : e ∈ mid.core.pending key := unread
          rw [dropped] at inside
          exact List.mem_of_mem_drop inside
        rcases List.mem_append.mp kept with older | fresh
        · exact .inl ⟨e, older, rfl⟩
        · exact .inr ⟨_, here, (dated e fresh).symm⟩
      · exact .inr ⟨call, List.mem_cons_of_mem _ member, rfl⟩
    obtain ⟨final, rest', read, length⟩ := ih held still admitted later
    have count : (mid.core.pending key).length = (s.core.pending key).length + new.length - page := by
      rw [dropped, List.length_drop, List.length_append]
    have few : new.length ≤ page := by
      rcases grown with ⟨one, _⟩ | ⟨two, _⟩
      · omega
      · omega
    refine ⟨final, ?_, ?_, ?_⟩
    · simp only [releases, done, bind, Except.bind]
      exact rest'
    · intro none
      apply read
      rw [none] at count
      exact List.length_eq_zero_iff.mp (by simp only [List.length_nil] at count; omega)
    · by_cases none : (mid.core.pending key).length = 0
      · rw [read (List.length_eq_zero_iff.mp none)]
        exact Nat.zero_le _
      · rw [List.length_cons]
        rcases grown with ⟨one, same⟩ | ⟨two, zero, mode⟩
        · rw [same] at length
          omega
        · rw [mode] at length
          rw [zero]
          omega

/-- A lane that has read its log took every event as it was logged. And as long as epochs get their
policies, calls with pages of two events or more never fail, and more calls than there are unread
events reach the end. -/
theorem lazy_is_eager {k : Controller} {now : Nat} {sys : System}
    (reached : Run c governance (start k now) sys) (key : Key)
    (present : (sys.staking.lanes key).present = true) :
    (pending sys.staking key = [] →
      eager (sys.staking.core.log key) Book.empty = .ok (sys.staking.lanes key).book) ∧
    ∀ calls, Admitted sys.now calls → Resolved sys.staking sys.controller key calls →
      ∃ final, releases sys.controller key calls sys.staking = .ok final ∧
        ((pending sys.staking key).length < calls.length → pending final key = []) := by
  obtain ⟨whole, _⟩ := run_whole reached (start_whole k now)
  constructor
  · intro read
    obtain ⟨clock, sound⟩ := whole
    obtain ⟨consumed, split, replays⟩ := (sound.lanes key present).replays
    have none : sys.staking.core.pending key = [] := read
    rw [none, List.append_nil] at split
    rw [split] at replays
    exact replays.eager_ok
  · intro calls admitted resolved
    obtain ⟨final, done, _, length⟩ := releases_total calls whole present admitted resolved
    refine ⟨final, done, fun more => ?_⟩
    have same : (pending sys.staking key).length = (sys.staking.core.pending key).length := rfl
    exact List.length_eq_zero_iff.mp (show (final.core.pending key).length = 0 by omega)

/-- Pages of two events, one day after the other. -/
def dailyPages : List (Env × Nat) :=
  [(calls 4 100000, 2), (calls 4 186400, 2), (calls 4 272800, 2), (calls 4 359200, 2), (calls 4 445600, 2),
    (calls 4 532000, 2)]

theorem lazy_is_eager_two :
    (∃ sys, Run sample 9 (start .empty 100) sys ∧
      eager (sys.staking.core.log sampleLane) Book.empty = .ok (sys.staking.lanes sampleLane).book) ∧
    ∃ sys final, Run sample 9 (start .empty 100) sys ∧
      releases sys.controller sampleLane dailyPages sys.staking = .ok final ∧
      pending final sampleLane = [] := by
  constructor
  · obtain ⟨sys, reached, passed⟩ := Run.of_calls (c := sample) 9 .empty 100 twoStakers
      (fun sys => decide ((sys.staking.lanes sampleLane).present = true ∧
        (sys.staking.lanes sampleLane).cursors.left = sys.staking.weightEvents.length ∧
        (sys.staking.lanes sampleLane).cursors.right = (sys.staking.lanes sampleLane).events.length))
      (by decide)
    obtain ⟨present, left, right⟩ := of_decide_eq_true passed
    have read : sys.staking.core.pending sampleLane = [] := pending_ends left right
    exact ⟨sys, reached, (lazy_is_eager reached sampleLane present).1 read⟩
  · obtain ⟨sys, reached, passed⟩ := Run.of_calls (c := sample) 9 .empty 100 (twoStakers.take 5)
      (fun sys => decide ((sys.staking.lanes sampleLane).present = true ∧
        (sys.staking.lanes sampleLane).kind = 0 ∧ (sys.staking.lanes sampleLane).ledgerLane = true ∧
        sys.staking.automaticPool (sys.staking.lanes sampleLane).source = false ∧
        sys.controller.effectiveEpoch = 0 ∧ sys.now ≤ 300 ∧
        sys.staking.weightEvents.length + (sys.staking.lanes sampleLane).events.length < 6))
      (by decide)
    obtain ⟨present, kind, ledger, manual, off, order, few⟩ := of_decide_eq_true passed
    have admitted : Admitted sys.now dailyPages := by
      have later : Admitted 300 dailyPages := by decide
      exact ⟨order.trans (by decide), later.2⟩
    have resolved : Resolved sys.staking sys.controller sampleLane dailyPages := by
      intro call member time _
      by_cases unset : ((sys.staking.lanes sampleLane).epochPolicies (time / day)).asset = 0
      · refine .inr ⟨⟨(sys.staking.lanes sampleLane).asset, (sys.staking.lanes sampleLane).assetId,
          (sys.staking.lanes sampleLane).version, (sys.staking.lanes sampleLane).policy⟩, ?_, fun on => ?_⟩
        · simp only [policyOf, unset, kind, ledger, manual, ne_eq, not_true_eq_false, if_false,
            Bool.false_eq_true, Bool.true_eq_false, and_false, bind, Except.bind, pure, Except.pure]
          rfl
        · simp [Controller.cutoff, Controller.enabled, off] at on
      · exact .inl unset
    obtain ⟨final, done, ends⟩ :=
      (lazy_is_eager reached sampleLane present).2 dailyPages admitted resolved
    refine ⟨sys, final, reached, done, ends ?_⟩
    have bound : (pending sys.staking sampleLane).length ≤
        sys.staking.weightEvents.length + (sys.staking.lanes sampleLane).events.length := by
      rw [pending, unread, length_merged, List.length_drop, List.length_drop]
      omega
    exact bound.trans_lt few

/-- Mode A begins on the fifth day. -/
def gated : Controller := { Controller.empty with effectiveEpoch := 5 }

/-- A lane of stock 7, which no basket holds: its fee waits for the first stakers. -/
def looseLane : Key := laneKey (.raw 5) 7 1

def looseCalls : List (Env × Call) :=
  [(calls 4 100, .configureSource (.raw 5) 7 1 ⟨7, 1, 1, 1⟩), (calls 3 100, .onFeeCredit (.raw 5) 7 1 7),
    (calls 10 200, .stake 10 (10 ^ 18)), (calls 11 90000, .stake 11 (10 ^ 18))]

/-- Read in mode A, the lane gets no policy for the day its carry began to unlock; and read when the
carry's clock has no room left, an event is refused. -/
theorem releaseCarry_refused :
    (∃ sys, Run sample 9 (start gated 100) sys ∧ (sys.staking.lanes looseLane).present = true ∧
      sys.now ≤ 500000 ∧ ∀ result, releaseCarry sys.staking sys.controller
        (sys.controller.cutoff 500000) (calls 4 500000) looseLane 256 ≠ .ok result) ∧
    ∃ sys, Run sample 9 (start .empty 100) sys ∧ (sys.staking.lanes looseLane).present = true ∧
      sys.now ≤ 2 ^ 33 ∧ ∀ result, releaseCarry sys.staking sys.controller
        (sys.controller.cutoff (2 ^ 33)) (calls 4 (2 ^ 33)) looseLane 256 ≠ .ok result := by
  have fails : ∀ (call : Tx (State × Bool)), call.isOk = false → ∀ result, call ≠ .ok result := by
    rintro _ no result rfl
    cases no
  constructor
  · obtain ⟨sys, reached, passed⟩ := Run.of_calls (c := sample) 9 gated 100 looseCalls
      (fun sys => decide ((sys.staking.lanes looseLane).present = true ∧ sys.now ≤ 500000 ∧
        (releaseCarry sys.staking sys.controller (sys.controller.cutoff 500000) (calls 4 500000)
          looseLane 256).isOk = false)) (by decide)
    obtain ⟨present, order, refused⟩ := of_decide_eq_true passed
    exact ⟨sys, reached, present, order, fails _ refused⟩
  · obtain ⟨sys, reached, passed⟩ := Run.of_calls (c := sample) 9 .empty 100 looseCalls
      (fun sys => decide ((sys.staking.lanes looseLane).present = true ∧ sys.now ≤ 2 ^ 33 ∧
        (releaseCarry sys.staking sys.controller (sys.controller.cutoff (2 ^ 33)) (calls 4 (2 ^ 33))
          looseLane 256).isOk = false)) (by decide)
    obtain ⟨present, order, refused⟩ := of_decide_eq_true passed
    exact ⟨sys, reached, present, order, fails _ refused⟩

end Solonpad.Staking
