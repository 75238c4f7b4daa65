import Solonpad.RewardCalls
import Solonpad.Transition

/-!
Runs of the reward token with its eligibility controller. Every call keeps what the histories, the
weights and the budgets say and adds to the log of distributions only events of its own time; mode
A may begin between two calls. So a credit is the replay of the log, the credits of an epoch with
its rounding are its budget, and a day that ended gets no further event.
-/

namespace Solonpad.RewardToken

open Checked Checkpoints CarryStream DyadicTree RunningTotal Eligibility
open Chain (Address)

variable {c : Config} {governance : Address} {s mid after : State} {cut : Option Nat} {now : Nat} {env : Env}
  {epochs : List Nat} {sys : System}

/-! Settings and payouts. -/

/-- Settings and payouts differ, and not the choice of a controller. -/
structure Settles (s after : State) : Prop where
  rest : after = { s with
    setup := after.setup
    payouts := after.payouts
    epochAsset := after.epochAsset }
  controller : after.setup.eligibilityController = s.setup.eligibilityController

theorem Settles.refl (s : State) : Settles s s := ⟨rfl, rfl⟩

theorem Settles.trans (first : Settles s mid) (second : Settles mid after) : Settles s after := by
  refine ⟨?_, second.controller.trans first.controller⟩
  rw [second.rest, first.rest]

theorem includeRewardAsset_settles {k : Controller} {asset : Address}
    (done : includeRewardAsset s k asset = .ok after) : Settles s after := by
  simp only [includeRewardAsset, ite_ok, bind_ok, require_ok, pure_ok] at done
  rcases done with ⟨_, rfl⟩ | ⟨_, _, _, ⟨_, _, _, rfl⟩ | ⟨_, rfl⟩⟩
  · exact .refl s
  · exact ⟨rfl, rfl⟩
  · exact ⟨rfl, rfl⟩

theorem includeAll_settles {k : Controller} {self : Address} (policies : List (Address × PurchasePolicy))
    (s : State) (done : includeAll k env self policies s = .ok after) : Settles s after := by
  induction policies generalizing s with
  | nil =>
    cases done
    exact .refl _
  | cons policy rest ih =>
    simp only [includeAll, bind_ok, require_ok] at done
    obtain ⟨_, _, mid, included, done⟩ := done
    exact (includeRewardAsset_settles included).trans (ih mid done)

theorem claimAssets_settles {k : Controller} (assets : List Address) (s : State)
    (done : claimAssets k cut env epochs assets s = .ok after) : Settles s after := by
  induction assets generalizing s with
  | nil =>
    cases done
    exact .refl _
  | cons asset rest ih =>
    simp only [claimAssets, bind_ok, require_ok, ite_ok] at done
    obtain ⟨_, _, ⟨payouts, payment⟩, _, ⟨_, _, _, done⟩ | ⟨_, done⟩⟩ := done
    · apply Settles.trans _ (ih _ done)
      exact ⟨rfl, rfl⟩
    · apply Settles.trans _ (ih _ done)
      exact ⟨rfl, rfl⟩

/-! One call. -/

/-- What a call does to a state that is sound for its time. -/
structure Steps (k : Controller) (now : Nat) (s after : State) : Prop where
  sound : Sound after (after.cutoff k now) now
  balanced : Balanced s → Balanced after
  grown : Grown now s after

variable {k : Controller}

theorem Settles.cutoff (settles : Settles s after) (k : Controller) (now : Nat) :
    after.cutoff k now = s.cutoff k now := by
  rw [State.cutoff, State.cutoff, settles.controller]

theorem Settles.steps (settles : Settles s after) (sound : Sound s (s.cutoff k now) now) : Steps k now s after := by
  have books : Books s after := by
    rw [Books, settles.rest]
  have same : after.carry = s.carry := by rw [settles.rest]
  refine ⟨?_, ?_, .of_eq ?_⟩
  · rw [settles.cutoff]
    apply sound.books books
    rw [same]
    exact sound.kept.covered
  · intro balanced
    exact balanced.same (by rw [settles.rest]) (by rw [settles.rest]) same
  · rw [settles.rest]

theorem Through.steps (through : Through (s.cutoff k now) now s after) : Steps k now s after := by
  refine ⟨?_, through.balanced, through.grown⟩
  rw [← through.linked rfl]
  exact through.sound

theorem Steps.trans (first : Steps k now s mid)
    (second : Sound mid (mid.cutoff k now) now → Steps k now mid after) : Steps k now s after :=
  ⟨(second first.sound).sound, fun balanced => (second first.sound).balanced (first.balanced balanced),
    first.grown.trans (second first.sound).grown⟩

/-- A token that was never credited has moved no index. -/
theorem uncredited (kept : Kept s) (balanced : Balanced s) (none : s.totalCredited = 0) (t : Nat) :
    paidBefore s.credits t = 0 := by
  obtain ⟨spent, sums, eq⟩ := balanced
  have still : ∀ event ∈ s.credits, event.delta = 0 := by
    intro event member
    have budget : s.epochBudget event.epoch = 0 := by
      have := sums.entry_le event.epoch
      omega
    have epoch := kept.epochs event.epoch
    rw [budget, Nat.zero_mul] at epoch
    have paid : event.delta * event.denominator ≤ paidIn s.credits event.epoch := by
      apply List.le_sum_of_mem
      exact List.mem_map.mpr ⟨event, member, if_pos rfl⟩
    have positive := (kept.weights event member).2
    have zero : event.delta * event.denominator = 0 := by omega
    rcases Nat.mul_eq_zero.mp zero with none | none
    · exact none
    · exact absurd none positive
  apply List.sum_eq_zero
  intro value member
  obtain ⟨event, inside, rfl⟩ := List.mem_map.mp member
  rw [still event inside, ite_self]

/-- The controller may be chosen only before the first credit. -/
theorem configureEligibility_steps (sound : Sound s (s.cutoff k env.now) env.now) (balanced : Balanced s)
    (done : configureEligibility c s k env = .ok after) : Steps k env.now s after := by
  simp only [configureEligibility, bind_ok, require_ok, pure_ok] at done
  obtain ⟨_, _, _, ⟨unset, none⟩, mask, _, rfl⟩ := done
  obtain ⟨passed, indexed, points, current, weighed, kept⟩ := sound
  have off : s.cutoff k env.now = Option.none := by
    rw [State.cutoff, if_neg (by rw [unset]; exact Bool.false_ne_true)]
  have first : s.modeGeneration = 0 := by
    rcases weighed.mode with zero | ⟨_, some⟩
    · exact zero
    · rw [off] at some
      cases some
  have still : ∀ t, s.indexBefore t = 0 := by
    intro t
    rw [indexed.index, uncredited kept balanced none]
  refine ⟨⟨?_, indexed.same rfl rfl rfl, ?_, fun a => (current a).same rfl rfl rfl (fun _ => rfl), ?_,
    kept.same rfl rfl rfl rfl kept.covered⟩, fun balanced => balanced.same rfl rfl rfl, .of_eq rfl⟩
  · intro start begun
    simp only [State.cutoff, if_true, Controller.cutoff] at begun
    split at begun
    · next on =>
      cases begun
      exact (enabled_iff.mp on).2
    · cases begun
  · have before : Points { s with
        setup := { s.setup with eligibilityController := true, requiredAssetMask := mask } }
        (s.cutoff k env.now) env.now := points.same rfl rfl rfl rfl
    apply before.switch
    intro p t
    exact (still _).trans (still _).symm
  · obtain ⟨_, generation, whole, expiring, narrow, small, alive, fixed⟩ := weighed
    exact ⟨.inl first, generation, whole, expiring, narrow, small, alive, fixed⟩

theorem stageCredit_steps {account asset : Address} (sound : Sound s (s.cutoff k env.now) env.now)
    (done : stageCredit s (s.cutoff k env.now) env account epochs asset = .ok after) : Steps k env.now s after := by
  simp only [stageCredit, bind_ok, require_ok, ite_ok, pure_ok] at done
  obtain ⟨_, _, _, _, _, _, released, release, ⟨payouts, payment⟩, _, done⟩ := done
  apply (releaseCarry_through sound release).steps.trans
  intro sound
  have settles : Settles released after := by
    rcases done with ⟨_, _, _, rfl⟩ | ⟨_, rfl⟩
    · exact ⟨rfl, rfl⟩
    · exact ⟨rfl, rfl⟩
  exact settles.steps sound

theorem claim_steps {assets : List Address} (sound : Sound s (s.cutoff k env.now) env.now)
    (done : claim s k (s.cutoff k env.now) env epochs assets = .ok after) : Steps k env.now s after := by
  simp only [claim, bind_ok, require_ok, ite_ok, pure_ok] at done
  obtain ⟨_, _, released, release, _, _, done⟩ := done
  apply (releaseCarry_through sound release).steps.trans
  intro sound
  rcases done with ⟨_, rfl⟩ | ⟨_, claimed⟩
  · exact (Settles.refl _).steps sound
  · exact (claimAssets_settles assets released claimed).steps sound

/-- The calls that set something, seal or deliver. -/
theorem settings_settle (call : Call) (done : step c s k env call = .ok after) (plain : match call with
      | .configureEligibility | .onFeeCredit .. | .releaseCarry | .transfer .. | .syncEligibility _
      | .onEligibilityChange _ | .stageCredit .. | .claim .. => False
      | _ => True) : Settles s after := by
  cases call with
  | configureEligibility | onFeeCredit | releaseCarry | transfer | syncEligibility
  | onEligibilityChange | stageCredit | claim => cases plain
  | configureAssetSchedule schedule =>
    simp only [step, configureAssetSchedule, bind_ok, require_ok] at done
    obtain ⟨_, _, _, _, _, _, done⟩ := done
    apply Settles.trans _ (includeAll_settles _ _ done)
    exact ⟨rfl, rfl⟩
  | configureRounds manager policy =>
    simp only [step, configureRounds, bind_ok, require_ok, pure_ok] at done
    obtain ⟨_, _, _, _, rfl⟩ := done
    exact ⟨rfl, rfl⟩
  | declareEpochRewardPolicy epoch asset policy =>
    simp only [step, declareEpochRewardPolicy, bind_ok, require_ok, pure_ok] at done
    obtain ⟨_, _, _, _, mid, included, rfl⟩ := done
    exact (includeRewardAsset_settles included).trans ⟨rfl, rfl⟩
  | configurePayout payout =>
    simp only [step, configurePayout, bind_ok, require_ok, pure_ok] at done
    obtain ⟨_, _, _, _, rfl⟩ := done
    exact ⟨rfl, rfl⟩
  | configurePool pool quote kind =>
    simp only [step, configurePool, bind_ok, require_ok] at done
    obtain ⟨_, _, _, _, done⟩ := done
    apply Settles.trans _ (includeRewardAsset_settles done)
    exact ⟨rfl, rfl⟩
  | setDefaultRewardAsset asset =>
    simp only [step, setDefaultRewardAsset, bind_ok, require_ok, pure_ok] at done
    obtain ⟨_, _, _, _, rfl⟩ := done
    exact ⟨rfl, rfl⟩
  | declareEpochAsset epoch asset =>
    simp only [step, declareEpochAsset, bind_ok, require_ok, pure_ok] at done
    obtain ⟨_, _, _, _, _, _, mid, included, rfl⟩ := done
    exact (includeRewardAsset_settles included).trans ⟨rfl, rfl⟩
  | checkpointExpiry time =>
    simp only [step, checkpointExpiry, bind_ok, require_ok, ite_ok, pure_ok] at done
    obtain ⟨_, _, ⟨_, _, _, rfl⟩ | ⟨_, rfl⟩⟩ := done
    · exact ⟨rfl, rfl⟩
    · exact .refl _
  | deliver epoch asset amount =>
    simp only [step, deliver, bind_ok, require_ok, pure_ok] at done
    obtain ⟨_, _, _, _, _, _, _, _, rfl⟩ := done
    exact ⟨rfl, rfl⟩
  | sealReward epoch cohort =>
    simp only [step, sealReward, bind_ok, require_ok, pure_ok] at done
    obtain ⟨sealed, ⟨_, _, _, _, _, _, _, _, _, _, _, _, rfl⟩, rfl⟩ := done
    exact ⟨rfl, rfl⟩

theorem step_steps {call : Call} (sound : Sound s (s.cutoff k env.now) env.now) (balanced : Balanced s)
    (done : step c s k env call = .ok after) : Steps k env.now s after := by
  cases call with
  | configureEligibility => exact configureEligibility_steps sound balanced done
  | onFeeCredit pool quote kind amount =>
    obtain ⟨kept, balances, grown, setup⟩ := onFeeCredit_keeps sound done
    refine ⟨?_, balances, grown⟩
    have same : after.cutoff k env.now = s.cutoff k env.now := by
      rw [State.cutoff, State.cutoff, setup]
    rwa [same]
  | releaseCarry => exact (releaseCarry_through sound done).steps
  | transfer sender receiver amount => exact (update_through sound rfl done).steps
  | syncEligibility account => exact (syncEligibility_through sound rfl done).steps
  | onEligibilityChange account => exact (onEligibilityChange_through sound done).steps
  | stageCredit account epochs asset => exact stageCredit_steps sound done
  | claim epochs assets => exact claim_steps sound done
  | configureAssetSchedule | configureRounds | declareEpochRewardPolicy | configurePayout | configurePool
  | setDefaultRewardAsset | declareEpochAsset | checkpointExpiry | deliver | sealReward =>
    exact (settings_settle _ done trivial).steps sound

/-! Runs. -/

/-- What every reachable state satisfies. -/
structure Whole (sys : System) : Prop where
  sound : Sound sys.token (sys.token.cutoff sys.controller sys.now) sys.now
  balanced : Balanced sys.token

/-- What every turn leaves of the past. -/
structure Later (sys next : System) : Prop where
  order : sys.now ≤ next.now
  grown : ∃ new, next.token.credits = new ++ sys.token.credits ∧ ∀ event ∈ new, sys.now ≤ event.time

theorem Later.refl (sys : System) : Later sys sys :=
  ⟨le_rfl, [], rfl, fun _ member => by cases member⟩

theorem Later.trans {first second third : System} (early : Later first second)
    (late : Later second third) : Later first third := by
  obtain ⟨order, older, grown, dated⟩ := early
  obtain ⟨order', newer, grown', dated'⟩ := late
  refine ⟨order.trans order', newer ++ older, by rw [grown', grown, List.append_assoc], ?_⟩
  intro event member
  rcases List.mem_append.mp member with new | old
  · exact order.trans (dated' event new)
  · exact dated event old

theorem cutoff_none_of_unset (unset : s.setup.eligibilityController = false) (k : Controller) (now : Nat) :
    s.cutoff k now = none := by
  rw [State.cutoff, if_neg (by rw [unset]; exact Bool.false_ne_true)]

/-- Time may start mode A, after every event so far. -/
theorem Sound.wait (sound : Sound s (s.cutoff k now) now) {later : Nat} (order : now ≤ later) :
    Sound s (s.cutoff k later) later := by
  obtain ⟨passed, indexed, points, current, weighed, kept⟩ := sound
  have turned : s.cutoff k later = s.cutoff k now ∨
      s.cutoff k now = none ∧ ∃ start, s.cutoff k later = some start ∧ now < start := by
    by_cases set : s.setup.eligibilityController = true
    · simp only [State.cutoff, if_pos set]
      exact k.cutoff_later order
    · left
      rw [State.cutoff, State.cutoff, if_neg set, if_neg set]
  have begun : Passed (s.cutoff k later) later := by
    intro start eq
    simp only [State.cutoff, Controller.cutoff] at eq
    split at eq
    · split at eq
      · next on =>
        cases eq
        exact (enabled_iff.mp on).2
      · cases eq
    · cases eq
  rcases turned with same | ⟨off, start, on, after⟩
  · rw [same] at begun ⊢
    exact ⟨begun, indexed.later order, points.later order, current, weighed, kept⟩
  · rw [on] at begun ⊢
    rw [off] at points weighed
    refine ⟨begun, indexed.later order, ?_, current, ?_, kept⟩
    · exact (points.switch (fun p t => indexed.unread after p t)).later order
    · have zero : s.modeGeneration = 0 := by
        rcases weighed.mode with zero | ⟨_, some⟩
        · exact zero
        · cases some
      obtain ⟨_, generation, whole, expiring, narrow, small, alive, fixed⟩ := weighed
      exact ⟨.inl zero, generation, whole, expiring, narrow, small, alive, fixed⟩

theorem turn_whole {next : System} (turn : Turn c governance sys next) (whole : Whole sys) :
    Whole next ∧ Later sys next := by
  obtain ⟨sound, balanced⟩ := whole
  cases turn with
  | wait now order => exact ⟨⟨sound.wait order, balanced⟩, order, (Later.refl sys).grown⟩
  | govern env action order taken =>
    have waited := sound.wait order
    have same := step_cutoff governance taken
    refine ⟨⟨?_, balanced⟩, order, (Later.refl sys).grown⟩
    simp only [State.cutoff] at waited ⊢
    rwa [same]
  | call env call order taken =>
    have steps := step_steps (sound.wait order) balanced taken
    obtain ⟨new, grown, dated⟩ := steps.grown
    refine ⟨⟨steps.sound, steps.balanced balanced⟩, order, new, grown, ?_⟩
    intro event member
    rw [dated event member]
    exact order

def Run (c : Config) (governance : Address) : System → System → Prop :=
  Relation.ReflTransGen (Turn c governance)

theorem run_whole {final : System} (run : Run c governance sys final) (whole : Whole sys) :
    Whole final ∧ Later sys final := by
  induction run with
  | refl => exact ⟨whole, .refl sys⟩
  | tail _ turn ih =>
    obtain ⟨held, later⟩ := ih
    obtain ⟨kept, next⟩ := turn_whole turn held
    exact ⟨kept, later.trans next⟩

/-- A token fresh from its constructor, under a controller in any state. -/
def start (c : Config) (k : Controller) (now : Nat) : System := ⟨deployed c now, k, now⟩

theorem start_whole (c : Config) (k : Controller) (now : Nat) : Whole (start c k now) := by
  have off : (start c k now).token.cutoff k now = none := cutoff_none_of_unset rfl k now
  constructor
  · show Sound (start c k now).token ((start c k now).token.cutoff k now) now
    rw [off]
    constructor
    · intro start eq
      cases eq
    · exact ⟨.empty _, fun _ => rfl, fun _ _ => rfl, fun _ member => by cases member⟩
    · refine ⟨fun _ => .empty _, ?_, ?_, fun _ _ => rfl⟩
      · intro _ _ member
        cases member
      · intro _ _ member
        cases member
    · intro a
      exact .unseen_idle rfl rfl
    · constructor
      · exact .inl rfl
      · exact fun _ => le_rfl
      · exact fun _ => Totals.zero
      · intro t
        apply Totals.zero.of_eq
        · intro a
          simp [State.expiring, start, deployed]
        · exact suffixSum_empty t
      · exact fun _ => Nat.zero_le _
      · exact fun _ => Nat.two_pow_pos 32
      · exact fun _ _ _ => rfl
      · exact Nat.zero_add _
    · refine ⟨?_, ?_, fun _ => rfl, le_rfl⟩
      · intro _ member
        cases member
      intro e
      simp [State.liveRemainder, start, deployed, paidIn]
  · exact ⟨0, Totals.zero, rfl⟩

/-! What a reachable token says. -/

theorem Whole.epochCredit27_ok (whole : Whole sys) (a : Address) (e : Nat) :
    sys.token.epochCredit27 (sys.token.cutoff sys.controller sys.now) a e =
      .ok (replay sys.token.credits a e) := by
  obtain ⟨_, indexed, points, _⟩ := whole.sound
  have upper := points.earned a ((e + 1) * day)
  have lower := points.earned a (e * day)
  have split := replay_between sys.token.credits a e (fun event member => (indexed.dated event member).2)
  have covered : replayBefore sys.token.credits a (e * day) ≤
      replayBefore sys.token.credits a ((e + 1) * day) := by omega
  rw [State.epochCredit27, earnedBefore_ok, earnedBefore_ok, upper, lower]
  simp only [bind, Except.bind, Checked.sub, if_pos covered]
  congr 1
  omega

/-- The log of distributions explains every credit, and only grows: each term is what the weight
of an account then, times what the event moved the index by, was when the event happened. -/
theorem credit_replays {k : Controller} {now : Nat} {sys : System}
    (reached : Run c governance (start c k now) sys) :
    (∀ a e, sys.token.epochCredit27 (sys.token.cutoff sys.controller sys.now) a e =
      .ok (replay sys.token.credits a e)) ∧
    ∀ final, Run c governance sys final →
      ∃ new, final.token.credits = new ++ sys.token.credits ∧ ∀ event ∈ new, sys.now ≤ event.time := by
  obtain ⟨whole, _⟩ := run_whole reached (start_whole c k now)
  constructor
  · intro a e
    exact whole.epochCredit27_ok a e
  · intro final further
    exact (run_whole further whole).2.grown

/-! A run that can be evaluated. -/

def System.call (c : Config) (sys : System) (call : Env × Call) : Tx System := do
  let token ← step c sys.token sys.controller call.1 call.2
  pure ⟨token, sys.controller, call.1.now⟩

theorem Run.of_calls {c : Config} (governance : Address) (k : Controller) (now : Nat) (calls : List (Env × Call))
    (test : System → Bool)
    (passes : (Transition.run (System.call c) (fun sys call => sys.now ≤ call.1.now)
      (start c k now) calls).any test = true) :
    ∃ sys, Run c governance (start c k now) sys ∧ test sys = true := by
  obtain ⟨sys, reached, passed⟩ := Transition.run_passes _ _ calls _ test passes
  refine ⟨sys, ?_, passed⟩
  refine reached.invariant .refl ?_
  intro before call after run taken
  obtain ⟨order, taken⟩ := taken
  simp only [System.call, bind_ok, pure_ok] at taken
  obtain ⟨token, taken, rfl⟩ := taken
  exact run.tail (.call call.1 call.2 order taken)

/-- The strategy is 2, the ledger 3 and the configurator 4. -/
def sample : Config := ⟨1, 2, 3, 4, fun _ => false⟩

def calls (sender now : Nat) : Env :=
  ⟨sender, now, fun _ => true, ⟨fun _ => ⟨0, 0, 0, 0, 0, false⟩, fun _ => false⟩, fun _ => 0,
    fun _ => true, fun _ _ => true⟩

/-- Two holders with a quarter and three quarters of what is out, and a fee of nine. -/
def twoHolders : List (Env × Call) :=
  [(calls 4 100, .setDefaultRewardAsset 7), (calls 4 100, .configurePool 5 0 0),
    (calls 2 200, .transfer 2 10 (10 ^ 18)), (calls 2 200, .transfer 2 11 (3 * 10 ^ 18)),
    (calls 3 200, .onFeeCredit 5 0 0 9), (calls 10 200, .transfer 10 11 (10 ^ 18))]

/-- What came in first came in before the second holder's weight moved in the same second. -/
theorem credit_replays_two : ∃ sys, Run sample 9 (start sample .empty 100) sys ∧
    replay sys.token.credits 11 0 = 27 * 10 ^ 27 / 4 ∧
    sys.token.epochCredit27 (sys.token.cutoff sys.controller sys.now) 11 0 = .ok (27 * 10 ^ 27 / 4) := by
  obtain ⟨sys, reached, passed⟩ := Run.of_calls (c := sample) 9 .empty 100 twoHolders
    (fun sys => decide (replay sys.token.credits 11 0 = 27 * 10 ^ 27 / 4)) (by decide)
  have value := of_decide_eq_true passed
  refine ⟨sys, reached, value, ?_⟩
  rw [← value]
  exact (credit_replays reached).1 11 0

/-- All accounts together earn what the events of an epoch gave out. -/
theorem replay_totals (credits : List Credited) (epoch : Nat)
    (weights : ∀ event ∈ credits, Totals event.weight event.denominator) :
    Totals (fun a => replay credits a epoch) (paidIn credits epoch) := by
  induction credits with
  | nil => exact Totals.zero
  | cons event rest ih =>
    have older := ih (fun other member => weights other (List.mem_cons_of_mem _ member))
    have own := (weights event (List.mem_cons_self ..)).scale event.delta
    simp only [replay_cons, paidIn_cons]
    by_cases same : event.epoch = epoch
    · simp only [if_pos same, Nat.mul_comm event.delta]
      exact own.add older
    · simp only [if_neg same, Nat.zero_add]
      exact older

/-- Every credited unit is in one epoch's budget or in the carry, and an epoch's budget is what its
accounts earned, its dust and the remainder that is still live. -/
theorem rewards_conserved {k : Controller} {now : Nat} {sys : System}
    (reached : Run c governance (start c k now) sys) :
    (∀ e, ∃ credit sum,
      (∀ a, sys.token.epochCredit27 (sys.token.cutoff sys.controller sys.now) a e = .ok (credit a)) ∧
      Totals credit sum ∧
      sum + sys.token.epochDust27 e + sys.token.liveRemainder e = sys.token.epochBudget e * precision) ∧
    ∃ budgets, Totals sys.token.epochBudget budgets ∧
      sys.token.carry.released ≤ sys.token.carry.deposited + sys.token.carry.pendingDeposit ∧
      sys.token.totalCredited + sys.token.carry.released =
        budgets + (sys.token.carry.deposited + sys.token.carry.pendingDeposit) := by
  obtain ⟨whole, _⟩ := run_whole reached (start_whole c k now)
  have kept := whole.sound.kept
  constructor
  · intro e
    refine ⟨fun a => replay sys.token.credits a e, _, fun a => whole.epochCredit27_ok a e, ?_,
      kept.epochs e⟩
    exact replay_totals _ e (fun event member => (kept.weights event member).1)
  · obtain ⟨budgets, sums, total⟩ := whole.balanced
    have covered := kept.covered
    refine ⟨budgets, sums, by omega, ?_⟩
    rw [Stream.held] at total
    omega

theorem rewards_conserved_two : ∃ sys, Run sample 9 (start sample .empty 100) sys ∧
    sys.token.totalCredited = 9 ∧ ∃ budgets, Totals sys.token.epochBudget budgets ∧
      9 + sys.token.carry.released =
        budgets + (sys.token.carry.deposited + sys.token.carry.pendingDeposit) := by
  obtain ⟨sys, reached, passed⟩ := Run.of_calls (c := sample) 9 .empty 100 twoHolders
    (fun sys => decide (sys.token.totalCredited = 9)) (by decide)
  have total := of_decide_eq_true passed
  obtain ⟨budgets, sums, _, balanced⟩ := (rewards_conserved reached).2
  exact ⟨sys, reached, total, budgets, sums, by rw [← total, balanced]⟩

/-- A day that has ended gets no event any more. -/
theorem Later.frozen {next : System} (later : Later sys next) {epoch : Nat} (ended : (epoch + 1) * day ≤ sys.now)
    (dated : ∀ event ∈ next.token.credits, event.epoch = event.time / day) (a : Address) :
    replay next.token.credits a epoch = replay sys.token.credits a epoch ∧
      budgetIn next.token.credits epoch = budgetIn sys.token.credits epoch := by
  obtain ⟨_, new, grown, after⟩ := later
  rw [grown] at dated ⊢
  clear grown
  induction new with
  | nil => exact ⟨rfl, rfl⟩
  | cons event rest ih =>
    have other : event.epoch ≠ epoch := by
      rintro rfl
      have own := dated event (List.mem_append_left _ (List.mem_cons_self ..))
      have time := after event (List.mem_cons_self ..)
      have next : event.time < (event.epoch + 1) * day := by
        rw [own, day]
        omega
      omega
    have older := ih (fun other member => dated other (List.mem_cons_of_mem _ member))
      (fun other member => after other (List.mem_cons_of_mem _ member))
    rw [List.cons_append, replay_cons, budgetIn_cons, if_neg other, if_neg other]
    simpa using older

end Solonpad.RewardToken
