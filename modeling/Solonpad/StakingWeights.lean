import Solonpad.StakingRuns

/-!
Weights while eligibility gating is off. Staking and syncing leave an ordinary account with its
whole stake as weight, and no other call looks at weights; but a callback of the registry takes the
weight of its account away in any mode, and only the account's next stake or sync brings it back.
-/

namespace Solonpad.Staking

open Checked CarryStream Eligibility ExpiringWeights RunningTotal
open Chain (Address)

variable {c : Config} {governance : Address} {cut : Option Nat} {now : Nat} {k : Controller} {env : Env}
  {s mid after : State} {key : Key} {kind : Nat} {account : Address} {sys next : System}

/-- No account of the system. -/
structure Ordinary (c : Config) (k : Controller) (a : Address) : Prop where
  self : a ≠ c.self
  ledger : a ≠ c.ledger
  solon : a ≠ c.solon
  vault : k.systemVaultMask a = 0

/-- Every ordinary account weighs its stake. -/
def Even (c : Config) (k : Controller) (s : State) : Prop :=
  ∀ a, Ordinary c k a → s.roll.eligible a = s.stakedOf a

/-! Calls that do not look at weights. -/

structure Steady (s after : State) : Prop where
  roll : after.roll = s.roll
  staked : after.stakedOf = s.stakedOf

theorem Steady.refl (s : State) : Steady s s := ⟨rfl, rfl⟩

theorem Steady.trans (first : Steady s mid) (second : Steady mid after) : Steady s after :=
  ⟨second.roll.trans first.roll, second.staked.trans first.staked⟩

theorem Steady.even (steady : Steady s after) (even : Even c k s) : Even c k after := by
  intro a ordinary
  rw [steady.roll, steady.staked]
  exact even a ordinary

theorem syncMode_off (s : State) (now : Nat) : syncMode s none now = s :=
  if_neg fun on => Bool.false_ne_true on.1

theorem stampPolicy_steady {epoch : Nat} (done : stampPolicy s k cut env key epoch = .ok after) : Steady s after := by
  simp only [stampPolicy, ite_ok, bind_ok, pure_ok] at done
  rcases done with ⟨_, _, _, _, _, rfl⟩ | ⟨_, rfl⟩
  · exact ⟨rfl, rfl⟩
  · exact .refl _

theorem processCarry_steady (n : Nat) {s : State} {complete : Bool}
    (done : processCarry k cut env key n s = .ok (after, complete)) : Steady s after := by
  induction n generalizing s with
  | zero =>
    simp only [processCarry, pure_ok, Prod.mk.injEq] at done
    obtain ⟨rfl, _⟩ := done
    exact .refl _
  | succ n ih =>
    rw [processCarry] at done
    split at done
    · simp only [pure_ok, Prod.mk.injEq] at done
      obtain ⟨rfl, _⟩ := done
      exact .refl _
    · simp only [bind_ok, processEvent, ite_ok, pure_ok] at done
      obtain ⟨mid, ⟨_, _, ⟨_, stamped⟩ | ⟨_, rfl⟩⟩, done⟩ := done
      · apply Steady.trans _ (ih done)
        have steady := stampPolicy_steady stamped
        exact ⟨steady.roll, steady.staked⟩
      · apply Steady.trans _ (ih done)
        exact ⟨rfl, rfl⟩

theorem notify_steady {amount27 : Nat} (done : notify s k none env key amount27 = .ok after) : Steady s after := by
  simp only [notify, bind_ok, require_ok, ite_ok, pure_ok, distribute] at done
  obtain ⟨_, _, ⟨_, _, _, stamped⟩ | ⟨_, rfl⟩⟩ := done
  · have steady := stampPolicy_steady stamped
    rw [syncMode_off] at steady
    exact ⟨steady.roll, steady.staked⟩
  · rw [syncMode_off]
    exact ⟨rfl, rfl⟩

theorem registerLane_steady {source : Source} {quote : Address} {p : EpochPolicy}
    (done : registerLane c s k cut env source quote kind p = .ok (after, key)) : Steady s after := by
  simp only [registerLane, bind_ok, require_ok, pure_ok, Prod.mk.injEq] at done
  obtain ⟨_, _, _, _, _, _, rfl, _⟩ := done
  exact ⟨rfl, rfl⟩

theorem onFeeCredit_steady {pool : Source} {quote : Address} {amount : Nat}
    (done : onFeeCredit c s k none env pool quote kind amount = .ok after) : Steady s after := by
  have opened : ∃ mid key, Steady s mid ∧
      notify mid k none env key (amount * RewardToken.precision) = .ok after := by
    simp only [onFeeCredit, bind_ok, require_ok] at done
    obtain ⟨_, _, done⟩ := done
    split at done
    · simp only [bind_ok, require_ok, pure_ok] at done
      obtain ⟨_, rfl, _, _, done⟩ := done
      exact ⟨_, _, .refl s, done⟩
    · split at done
      · simp [bind_ok, throw_ok] at done
      · split at done
        · simp only [bind_ok, require_ok, pure_ok] at done
          obtain ⟨_, rfl, _, rfl, _, _, done⟩ := done
          refine ⟨_, _, ?_, done⟩
          exact ⟨rfl, rfl⟩
        · simp only [bind_ok, require_ok, pure_ok] at done
          obtain ⟨⟨t, own⟩, registered, _, rfl, _, rfl, _, _, done⟩ := done
          have steady := registerLane_steady registered
          refine ⟨_, _, ?_, done⟩
          exact ⟨steady.roll, steady.staked⟩
  obtain ⟨mid, key, steady, done⟩ := opened
  exact steady.trans (notify_steady done)

theorem notifyProtocolDeskCredit_steady {pool : Source} {epoch : Nat} {asset : Address} {amount27 : Nat}
    (done : notifyProtocolDeskCredit c s k none env pool epoch asset kind amount27 = .ok after) : Steady s after := by
  simp only [notifyProtocolDeskCredit, bind_ok, require_ok] at done
  obtain ⟨_, _, done⟩ := done
  generalize (if kind = 0 then s.protocolPolicy.asset else asset) = paid at done
  split at done
  · simp only [pure_ok, bind_ok] at done
    obtain ⟨_, rfl, done⟩ := done
    exact notify_steady done
  · simp only [pure_ok, bind_ok] at done
    obtain ⟨⟨t, own⟩, registered, _, rfl, done⟩ := done
    exact (registerLane_steady registered).trans (notify_steady done)

/-- The calls that look at weights. -/
def Call.weighs : Call → Bool
  | .stake .. | .unstake .. | .syncEligibility _ | .onEligibilityChange _ => true
  | _ => false

theorem step_steady {call : Call} (off : k.cutoff env.now = none) (other : call.weighs = false)
    (taken : step c s k env call = .ok after) : Steady s after := by
  cases call with
  | stake | unstake | syncEligibility | onEligibilityChange => cases other
  | releaseCarry key maxSteps =>
    simp only [step, off, releaseCarry, bind_ok, require_ok, pure_ok] at taken
    obtain ⟨⟨t, complete⟩, ⟨_, _, done⟩, rfl⟩ := taken
    have steady := processCarry_steady maxSteps done
    rw [syncMode_off] at steady
    exact ⟨steady.roll, steady.staked⟩
  | sealSource key epoch =>
    simp only [step, off, sealSource, bind_ok, require_ok, pure_ok, Prod.exists] at taken
    obtain ⟨_, _, mid, complete, read, _, _, _, _, _, _, _, _, _, _, rfl⟩ := taken
    have steady := processCarry_steady 256 read
    exact ⟨steady.roll, steady.staked⟩
  | stageSource key account epochs asset =>
    simp only [step, off, stageSource, bind_ok, require_ok, Prod.exists, ite_ok, pure_ok] at taken
    obtain ⟨_, _, _, _, mid, complete, read, _, _, _, _, _, done⟩ := taken
    have steady := processCarry_steady 256 read
    rw [syncMode_off] at steady
    rcases done with ⟨_, _, _, _, _, _, _, rfl⟩ | ⟨_, rfl⟩
    · exact ⟨steady.roll, steady.staked⟩
    · exact ⟨steady.roll, steady.staked⟩
  | onFeeCredit pool quote kind amount =>
    simp only [step, off] at taken
    exact onFeeCredit_steady taken
  | notifyV2Budget lot amount =>
    simp only [step, off, notifyV2Budget, bind_ok, require_ok] at taken
    obtain ⟨_, _, taken⟩ := taken
    split at taken
    · exact absurd taken (by simp [throw_ok])
    · simp only [bind_ok, pure_ok] at taken
      obtain ⟨mid, notified, rfl⟩ := taken
      have steady := notify_steady notified
      exact ⟨steady.roll, steady.staked⟩
  | notifyProtocolDeskCredit pool epoch asset kind amount27 =>
    simp only [step, off] at taken
    exact notifyProtocolDeskCredit_steady taken
  | fundProtocolDesk pool epoch asset kind amount =>
    simp only [step, fundProtocolDesk, bind_ok, require_ok, ite_ok, pure_ok] at taken
    obtain ⟨_, _, _, _, ⟨_, _, _, rfl⟩ | ⟨_, _, _, _, _, rfl⟩⟩ := taken
    · exact ⟨rfl, rfl⟩
    · exact ⟨rfl, rfl⟩
  | configureSource source quote kind p =>
    simp only [step, configureSource, bind_ok, require_ok, pure_ok] at taken
    obtain ⟨_, _, _, _, ⟨t, own⟩, registered, rfl⟩ := taken
    have steady := registerLane_steady registered
    exact ⟨steady.roll, steady.staked⟩
  | configureV2 notifier p =>
    simp only [step, configureV2, bind_ok, require_ok, pure_ok] at taken
    obtain ⟨_, _, ⟨t, own⟩, registered, rfl⟩ := taken
    have steady := registerLane_steady registered
    exact ⟨steady.roll, steady.staked⟩
  | configureProtocolDesk notifier p =>
    simp only [step, configureProtocolDesk, bind_ok, require_ok, pure_ok] at taken
    obtain ⟨_, _, _, _, rfl⟩ := taken
    exact ⟨rfl, rfl⟩
  | configureEligibilityAssets assets =>
    simp only [step, configureEligibilityAssets, bind_ok, require_ok, pure_ok] at taken
    obtain ⟨_, _, _, _, rfl⟩ := taken
    exact ⟨rfl, rfl⟩
  | configureRewardSchedules v2 protocol =>
    simp only [step, configureRewardSchedules, bind_ok, require_ok, pure_ok] at taken
    obtain ⟨_, _, _, _, rfl⟩ := taken
    exact ⟨rfl, rfl⟩
  | configureRewards manager payout =>
    simp only [step, configureRewards, bind_ok, require_ok, pure_ok] at taken
    obtain ⟨_, _, rfl⟩ := taken
    exact ⟨rfl, rfl⟩
  | createEntrySource key =>
    simp only [step, createEntrySource, bind_ok, require_ok, ite_ok, pure_ok] at taken
    obtain ⟨_, _, ⟨_, rfl⟩ | ⟨_, rfl⟩⟩ := taken
    · exact ⟨rfl, rfl⟩
    · exact .refl _

/-! Calls that do. -/

/-- Nothing is left to bring up to date. -/
theorem syncAccount_off (weighed : Weighed s.roll false) (done : syncAccount s none now account = .ok after) :
    after = s := by
  have zero : s.roll.modeGeneration = 0 := by
    rcases weighed.mode with zero | ⟨_, on⟩
    · exact zero
    · cases on
  have current := weighed.generation account
  simp only [syncAccount, syncMode_off, ite_ok, pure_ok] at done
  rcases done with ⟨migrated | ⟨one, _⟩, _⟩ | ⟨_, rfl⟩
  · omega
  · omega
  · rfl

/-- An ordinary account that is reweighed weighs its stake, and no other weight moves. -/
theorem reweigh_off (zero : s.roll.modeGeneration = 0) (done : reweigh c s k env account = .ok after) :
    after.stakedOf = s.stakedOf ∧
      (Ordinary c k account → after.roll.eligible account = s.stakedOf account) ∧
      ∀ a, a ≠ account → after.roll.eligible a = s.roll.eligible a := by
  have qualified : ∀ earns middle, qualify c s k env account = (earns, middle) →
      middle = s ∧ (Ordinary c k account → earns = true) := by
    intro earns middle asked
    rw [qualify, if_pos zero] at asked
    split at asked
    · next system =>
      cases asked
      refine ⟨rfl, fun ordinary => ?_⟩
      rcases system with wrong | wrong | wrong | wrong
      · exact absurd wrong ordinary.self
      · exact absurd wrong ordinary.ledger
      · exact absurd wrong ordinary.solon
      · exact absurd ordinary.vault wrong
    · cases asked
      exact ⟨rfl, fun _ => rfl⟩
  rw [reweigh] at done
  generalize chosen : (if s.stakedOf account = 0 then (false, s)
    else if s.roll.eligible account ≠ 0 then (true, s) else qualify c s k env account) = pair at done
  obtain ⟨earns, middle⟩ := pair
  have fair : middle = s ∧ (Ordinary c k account →
      (if earns = true then s.stakedOf account else 0) = s.stakedOf account) := by
    split at chosen
    · next none =>
      cases chosen
      exact ⟨rfl, fun _ => none.symm⟩
    · split at chosen
      · cases chosen
        exact ⟨rfl, fun _ => rfl⟩
      · obtain ⟨same, yes⟩ := qualified earns middle chosen
        exact ⟨same, fun ordinary => if_pos (yes ordinary)⟩
  obtain ⟨rfl, fair⟩ := fair
  simp only [ite_ok, bind_ok, pure_ok] at done
  rcases done with ⟨still, rfl⟩ | ⟨_, roll, weighs, rfl⟩
  · exact ⟨rfl, fun ordinary => still.symm.trans (fair ordinary), fun _ _ => rfl⟩
  · have weights : roll.eligible = Function.update middle.roll.eligible account
        (if earns = true then middle.stakedOf account else 0) := by
      simp only [Roll.reweigh, bind_ok, ite_ok, pure_ok] at weighs
      rcases weighs with ⟨_, _, ⟨_, _, _, rfl⟩ | ⟨_, _, _, rfl⟩⟩
      · rfl
      · rfl
    refine ⟨rfl, fun ordinary => ?_, fun a ne => ?_⟩
    · exact (congrFun weights account).trans ((Function.update_self ..).trans (fair ordinary))
    · exact (congrFun weights a).trans (Function.update_of_ne ne ..)

/-- The staked balance of one account moves, and its weight is set anew. -/
theorem restaked_even {t : State} (even : Even c k s) (zero : t.roll.modeGeneration = 0)
    (roll : t.roll.eligible = s.roll.eligible) (stakes : ∀ a, a ≠ account → t.stakedOf a = s.stakedOf a)
    (done : reweigh c t k env account = .ok after) : Even c k after := by
  obtain ⟨kept, own, others⟩ := reweigh_off zero done
  intro a ordinary
  rw [kept]
  by_cases same : a = account
  · subst same
    exact own ordinary
  · rw [others a same, roll, stakes a same]
    exact even a ordinary

theorem checkpointWeight_off (s : State) (now : Nat) : Steady s (checkpointWeight s none now) := by
  rw [checkpointWeight, syncMode_off]
  exact ⟨rfl, rfl⟩

/-- The registry takes the weight of an ordinary account away while gating is off. -/
def Silences (c : Config) (k : Controller) (s : State) (env : Env) : Call → Prop
  | .onEligibilityChange account =>
    k.cutoff env.now = none ∧ Ordinary c k account ∧ s.roll.eligible account ≠ 0
  | _ => False

theorem step_even {call : Call} (weighed : Weighed s.roll (k.cutoff env.now).isSome)
    (off : k.cutoff env.now = none) (even : Even c k s) (calm : ¬ Silences c k s env call)
    (taken : step c s k env call = .ok after) : Even c k after := by
  rw [off] at weighed
  have zero : s.roll.modeGeneration = 0 := by
    rcases weighed.mode with zero | ⟨_, on⟩
    · exact zero
    · cases on
  cases call with
  | stake beneficiary amount =>
    simp only [step, off, stake, bind_ok, require_ok] at taken
    obtain ⟨_, _, _, _, _, _, synced, first, _, _, done⟩ := taken
    obtain rfl := syncAccount_off weighed first
    obtain ⟨roll, staked⟩ := checkpointWeight_off synced env.now
    refine restaked_even even ?_ ?_ (fun a ne => ?_) done
    · exact (congrArg Roll.modeGeneration roll).trans zero
    · exact congrArg Roll.eligible roll
    · exact (Function.update_of_ne ne ..).trans (congrFun staked a)
  | unstake amount receiver =>
    simp only [step, off, unstake, bind_ok, require_ok, pure_ok] at taken
    obtain ⟨_, _, synced, first, _, _, _, _, _, done, _, _, rfl⟩ := taken
    obtain rfl := syncAccount_off weighed first
    obtain ⟨roll, staked⟩ := checkpointWeight_off synced env.now
    refine restaked_even even ?_ ?_ (fun a ne => ?_) done
    · exact (congrArg Roll.modeGeneration roll).trans zero
    · exact congrArg Roll.eligible roll
    · exact (Function.update_of_ne ne ..).trans (congrFun staked a)
  | syncEligibility account =>
    simp only [step, off, syncEligibility, bind_ok] at taken
    obtain ⟨synced, first, done⟩ := taken
    obtain rfl := syncAccount_off weighed first
    obtain ⟨roll, staked⟩ := checkpointWeight_off synced env.now
    refine restaked_even even ?_ ?_ (fun a ne => congrFun staked a) done
    · exact (congrArg Roll.modeGeneration roll).trans zero
    · exact congrArg Roll.eligible roll
  | onEligibilityChange account =>
    simp only [step, off, onEligibilityChange, bind_ok, require_ok, ite_ok, pure_ok] at taken
    obtain ⟨_, _, synced, first, done⟩ := taken
    obtain rfl := syncAccount_off weighed first
    simp only [checkpointWeight, syncMode_off] at done
    rcases done with ⟨some, ⟨one, _⟩ | ⟨_, _, _, _, _, rfl⟩⟩ | ⟨_, rfl⟩
    · exact absurd (zero.symm.trans one) (by decide)
    · -- only an account of the system lost its weight
      intro a ordinary
      have ne : a ≠ account := by
        rintro rfl
        exact calm ⟨off, ordinary, some⟩
      exact (Function.update_of_ne ne ..).trans (even a ordinary)
    · exact even
  | _ => exact (step_steady off rfl taken).even even

/-! Runs. -/

/-- A turn in which no weight is taken away while gating is off. -/
inductive CalmTurn (c : Config) (governance : Address) (sys : System) : System → Prop where
  | wait (now : Nat) (order : sys.now ≤ now) : CalmTurn c governance sys { sys with now := now }
  | govern (env : Eligibility.Env) (action : Eligibility.Action) (order : sys.now ≤ env.now)
      {after : Controller} (taken : Eligibility.step governance sys.controller env action = .ok after) :
      CalmTurn c governance sys ⟨sys.staking, after, env.now⟩
  | call (env : Env) (call : Call) (order : sys.now ≤ env.now) {after : State}
      (taken : step c sys.staking sys.controller env call = .ok after)
      (calm : ¬ Silences c sys.controller sys.staking env call) :
      CalmTurn c governance sys ⟨after, sys.controller, env.now⟩

def CalmRun (c : Config) (governance : Address) : System → System → Prop :=
  Relation.ReflTransGen (CalmTurn c governance)

theorem CalmTurn.turn (turn : CalmTurn c governance sys next) : Turn c governance sys next := by
  cases turn with
  | wait now order => exact .wait now order
  | govern env action order taken => exact .govern env action order taken
  | call env call order taken calm => exact .call env call order taken

/-- Governance makes accounts part of the system, and never ordinary again. -/
theorem step_ordinary {action : Eligibility.Action} {env : Eligibility.Env} {later : Controller}
    (taken : Eligibility.step governance k env action = .ok later) {a : Address}
    (ordinary : Ordinary c later a) : Ordinary c k a := by
  refine ⟨ordinary.self, ordinary.ledger, ordinary.solon, ?_⟩
  have vault := ordinary.vault
  cases action with
  | bindSystemVault account assetMask =>
    simp only [Eligibility.step, bindSystemVault, bind_ok, require_ok, pure_ok] at taken
    obtain ⟨_, _, _, ⟨_, _, some, _⟩, rfl⟩ := taken
    simp only at vault
    by_cases same : a = account
    · subst same
      rw [Function.update_self] at vault
      exact absurd vault some
    · rwa [Function.update_of_ne same] at vault
  | scheduleEnable registry policy epoch =>
    simp only [Eligibility.step, scheduleEnable, bind_ok, require_ok, pure_ok] at taken
    obtain ⟨_, _, _, _, rfl⟩ := taken
    exact vault
  | cancelEnable =>
    simp only [Eligibility.step, cancelEnable, bind_ok, require_ok, pure_ok] at taken
    obtain ⟨_, _, _, _, rfl⟩ := taken
    exact vault
  | bindAsset asset id =>
    simp only [Eligibility.step, bindAsset, bind_ok, require_ok, pure_ok] at taken
    obtain ⟨_, _, _, _, rfl⟩ := taken
    exact vault

theorem enabled_off {k : Controller} {now : Nat} (off : k.enabled now = false) : k.cutoff now = none :=
  if_neg (by rw [off]; exact Bool.false_ne_true)

theorem CalmTurn.even (turn : CalmTurn c governance sys next) (whole : sys.Whole)
    (even : sys.controller.cutoff sys.now = none → Even c sys.controller sys.staking)
    (off : next.controller.cutoff next.now = none) : Even c next.controller next.staking := by
  have before : ∀ {later}, sys.now ≤ later → sys.controller.cutoff later = none →
      sys.controller.cutoff sys.now = none := by
    intro later order none
    rcases sys.controller.cutoff_later order with same | ⟨off, _⟩
    · exact same.symm.trans none
    · exact off
  cases turn with
  | wait now order => exact even (before order off)
  | govern env action order taken =>
    rw [step_cutoff governance taken] at off
    intro a ordinary
    exact even (before order off) a (step_ordinary taken ordinary)
  | call env call order taken calm =>
    have waited := whole.wait order
    obtain ⟨clock, sound⟩ := waited
    exact step_even sound.weighed off (even (before order off)) calm taken

/-- While gating is off, every ordinary account weighs its stake in a run in which no callback takes
a weight away; and the total is the sum of the weights. -/
theorem gating_off_weights {k : Controller} {now : Nat} {sys : System}
    (reached : CalmRun c governance (start k now) sys) (off : sys.controller.enabled sys.now = false) :
    (∀ a, Ordinary c sys.controller a → sys.staking.roll.eligible a = sys.staking.stakedOf a) ∧
      Totals sys.staking.roll.eligible sys.staking.roll.totalEligible := by
  have even : sys.Whole ∧
      (sys.controller.cutoff sys.now = none → Even c sys.controller sys.staking) := by
    clear off
    induction reached with
    | refl => exact ⟨start_whole k now, fun _ _ _ => rfl⟩
    | tail _ turn ih =>
      obtain ⟨whole, even⟩ := ih
      exact ⟨(turn_whole turn.turn whole).1, turn.even whole even⟩
  obtain ⟨⟨clock, sound⟩, even⟩ := even
  refine ⟨even (enabled_off off), sound.weighed.whole ?_⟩
  rcases sound.weighed.mode with zero | ⟨_, on⟩
  · exact zero
  · rw [enabled_off off] at on
    cases on

theorem CalmRun.of_calls {c : Config} (governance : Address) (k : Controller) (now : Nat) (calls : List (Env × Call))
    (calm : ∀ call ∈ calls, ∀ s, ¬ Silences c k s call.1 call.2) (test : System → Bool)
    (passes : (Transition.run (System.call c) (fun sys call => sys.now ≤ call.1.now)
      (start k now) calls).any test = true) :
    ∃ sys, CalmRun c governance (start k now) sys ∧ test sys = true := by
  have runs : ∀ (calls : List (Env × Call)) (sys : System), sys.controller = k →
      (∀ call ∈ calls, ∀ s, ¬ Silences c k s call.1 call.2) →
      (Transition.run (System.call c) (fun sys call => sys.now ≤ call.1.now) sys calls).any test = true →
      ∃ final, CalmRun c governance sys final ∧ test final = true := by
    intro calls
    induction calls with
    | nil =>
      intro sys _ _ passes
      exact ⟨sys, .refl, passes⟩
    | cons call rest ih =>
      intro sys same calm passes
      rw [Transition.run] at passes
      split at passes
      · next order =>
        split at passes
        · next next taken =>
          simp only [System.call, bind_ok, pure_ok] at taken
          obtain ⟨staking, taken, rfl⟩ := taken
          obtain ⟨final, run, passed⟩ := ih ⟨staking, sys.controller, call.1.now⟩ same
            (fun other member => calm other (List.mem_cons_of_mem _ member)) passes
          have quiet := calm call (List.mem_cons_self ..) sys.staking
          rw [← same] at quiet
          exact ⟨final, .head (.call call.1 call.2 order taken quiet) run, passed⟩
        · cases passes
      · cases passes
  exact runs calls (start k now) rfl calm passes

/-- Two stakers, in a run whose callbacks are none. -/
theorem gating_off_weights_two : ∃ sys, CalmRun sample 9 (start .empty 100) sys ∧
    3 * 10 ^ 18 = sys.staking.roll.eligible 11 := by
  obtain ⟨sys, reached, passed⟩ := CalmRun.of_calls (c := sample) 9 .empty 100 twoStakers
    (by
      intro call member s
      simp only [twoStakers, List.mem_cons, List.not_mem_nil, or_false] at member
      rcases member with rfl | rfl | rfl | rfl | rfl | rfl <;> exact id)
    (fun sys => decide (sys.controller.effectiveEpoch = 0 ∧ sys.controller.systemVaultMask 11 = 0 ∧
      sys.staking.stakedOf 11 = 3 * 10 ^ 18)) (by decide)
  obtain ⟨off, vault, staked⟩ := of_decide_eq_true passed
  have disabled : sys.controller.enabled sys.now = false := by simp [Controller.enabled, off]
  refine ⟨sys, reached, ?_⟩
  rw [(gating_off_weights reached disabled).1 11 ⟨by decide, by decide, by decide, vault⟩, staked]

/-- Gating is scheduled for the fifth day, under registry 50. -/
def scheduled : Controller := { Controller.empty with registry := 50, policyHash := 1, effectiveEpoch := 5 }

/-- A staker registers before gating is on, and weighs nothing from then on. -/
theorem callback_silences : ∃ sys, Run sample 9 (start scheduled 100) sys ∧
    sys.controller.enabled sys.now = false ∧ Ordinary sample sys.controller 10 ∧
    sys.staking.roll.eligible 10 = 0 ∧ sys.staking.stakedOf 10 = 10 ^ 18 := by
  obtain ⟨sys, reached, passed⟩ := Run.of_calls (c := sample) 9 scheduled 100
    [(calls 10 200, .stake 10 (10 ^ 18)), (calls 50 300, .onEligibilityChange 10)]
    (fun sys => decide (sys.controller.enabled sys.now = false ∧ sys.controller.systemVaultMask 10 = 0 ∧
      sys.staking.roll.eligible 10 = 0 ∧ sys.staking.stakedOf 10 = 10 ^ 18)) (by decide)
  obtain ⟨off, vault, none, staked⟩ := of_decide_eq_true passed
  exact ⟨sys, reached, off, ⟨by decide, by decide, by decide, vault⟩, none, staked⟩

end Solonpad.Staking
