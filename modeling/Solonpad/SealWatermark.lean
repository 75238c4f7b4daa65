import Solonpad.RoundKeeper

/-!
What lies below a watermark. A past day of a token keeps its budget, and a past epoch of a lane gets only what the
lane has not read yet. So an epoch that was final when it was read stays so, but for deposits among the unread events:
the state of the carry does not show them, and they may still unlock into it.
-/

namespace Solonpad.RoundKeeper

open Checked Eligibility Transition
open Chain (Address)
open RewardToken (precision)
open Staking (Key)

/-- Nothing brings the epoch of a source to a unit any more: a token's budget is empty, and a lane is short however
much it reads. -/
def World.Starved (w : World) (epoch : Nat) : Source → Prop
  | .token address => ∃ token, w.tokens address = some token ∧ token.epochBudget epoch = 0
  | .lane key => (w.staking.lanes key).present = true ∧ w.staking.core.Short key epoch

/-- Sealed, or without a unit in every later state of the chain. -/
def Final (c : Config) (w : World) (epoch : Nat) (source : Source) : Prop :=
  w.rewardSealed epoch source = true ∨
    ∀ later, Reachable (fun before event after => before.step c event = .ok after) w later →
      later.budget epoch source = 0

/-- Until its watermark passes the epoch, every scan of the source looks at it: the first epoch is not after it, and
it is not behind the look-back. -/
def Scoped (c : Config) (source : Source) (epoch : Nat) (s : State) : Action → Prop
  | .scan own firstEpoch => own = source → s.watermark source < epoch →
      firstEpoch ≤ epoch ∧ s.today ≤ epoch + c.lookbackEpochs
  | _ => True

/-- Where the views of a lane show neither a seal, nor a unit, nor a pending carry, none of the events it has not read
brings a deposit before the epoch's stakers, or what it unlocks is less than a unit. -/
def World.Shown (w : World) (epoch : Nat) : Source → Prop
  | .token _ => True
  | .lane key => w.carryPending (.lane key) = false → w.rewardSealed epoch (.lane key) = false →
      w.credited epoch (.lane key) < precision →
        Staking.Unhidden epoch (w.staking.core.pending key) ∨ w.staking.core.Short key epoch

/-- Scans look at the epoch until it is passed, and are shown what can still come of it. -/
def Watched (c : Config) (source : Source) (epoch : Nat) (s : State) (action : Action) : Prop :=
  Scoped c source epoch s action ∧ match action with
    | .scan own _ => own = source → s.watermark source < epoch → epoch < s.today → s.world.Shown epoch source
    | _ => True

instance (c : Config) (source : Source) (epoch : Nat) (s : State) :
    (action : Action) → Decidable (Scoped c source epoch s action)
  | .scan _ _ => inferInstanceAs (Decidable (_ → _ → _ ∧ _))
  | .chain _ | .tick | .viewSealed _ | .viewCredit _ | .viewNextRound _ _ | .advance | .crash =>
    inferInstanceAs (Decidable True)

variable {c : Config} {w after : World} {event : Event} {epoch : Nat} {source : Source} {scan : Scan}
  {viewed : Nat}

/-! What an event of the chain leaves alone. -/

/-- Each contract stands on its histories. -/
structure World.Whole (w : World) : Prop where
  tokens : ∀ address token, w.tokens address = some token → RewardToken.Whole ⟨token, w.controller, w.now⟩
  staking : Staking.System.Whole ⟨w.staking, w.controller, w.now⟩

/-- A launched token, or a registered lane. -/
def World.Present (w : World) : Source → Prop
  | .token address => ∃ token, w.tokens address = some token
  | .lane key => (w.staking.lanes key).present = true

theorem World.knows_present (known : w.knows source = true) : w.Present source := by
  cases source with
  | token address => exact Option.isSome_iff_exists.mp known
  | lane key => exact (of_decide_eq_true known).1

/-- An event is a turn of every token there is. -/
theorem step_token (done : w.step c event = .ok after) {address : Address} {token : RewardToken.State}
    (there : w.tokens address = some token) : ∃ next, after.tokens address = some next ∧
      RewardToken.Turn (c.token address) c.governance ⟨token, w.controller, w.now⟩
        ⟨next, after.controller, after.now⟩ := by
  cases event with
  | wait now =>
    simp only [World.step, bind_ok, require_ok, pure_ok] at done
    obtain ⟨_, order, rfl⟩ := done
    exact ⟨token, there, .wait now order⟩
  | govern env action =>
    simp only [World.step, bind_ok, require_ok, relay_ok, pure_ok] at done
    obtain ⟨_, order, controller, taken, rfl⟩ := done
    exact ⟨token, there, .govern env action order taken⟩
  | launch own =>
    simp only [World.step, bind_ok, require_ok, pure_ok] at done
    obtain ⟨_, fresh, rfl⟩ := done
    have ne : address ≠ own := by
      rintro rfl
      rw [there] at fresh
      cases fresh
    refine ⟨token, ?_, .wait w.now le_rfl⟩
    simp only [Function.update_of_ne ne]
    exact there
  | token own env call =>
    simp only [World.step, bind_ok, require_ok] at done
    obtain ⟨_, order, done⟩ := done
    split at done
    · cases done
    · next other found =>
      simp only [bind_ok, relay_ok, pure_ok] at done
      obtain ⟨next, taken, rfl⟩ := done
      by_cases same : address = own
      · subst same
        rw [there] at found
        cases found
        exact ⟨next, Function.update_self .., .call env call order taken⟩
      · refine ⟨token, ?_, .wait env.now order⟩
        simp only [Function.update_of_ne same]
        exact there
  | staking env call =>
    simp only [World.step, bind_ok, require_ok, relay_ok, pure_ok] at done
    obtain ⟨_, order, staking, _, rfl⟩ := done
    exact ⟨token, there, .wait env.now order⟩

/-- An event is a turn of the staking contract. -/
theorem step_staking (done : w.step c event = .ok after) :
    Staking.Turn c.staking c.governance ⟨w.staking, w.controller, w.now⟩
      ⟨after.staking, after.controller, after.now⟩ := by
  cases event with
  | wait now =>
    simp only [World.step, bind_ok, require_ok, pure_ok] at done
    obtain ⟨_, order, rfl⟩ := done
    exact .wait now order
  | govern env action =>
    simp only [World.step, bind_ok, require_ok, relay_ok, pure_ok] at done
    obtain ⟨_, order, controller, taken, rfl⟩ := done
    exact .govern env action order taken
  | launch own =>
    simp only [World.step, bind_ok, require_ok, pure_ok] at done
    obtain ⟨_, _, rfl⟩ := done
    exact .wait w.now le_rfl
  | token own env call =>
    simp only [World.step, bind_ok, require_ok] at done
    obtain ⟨_, order, done⟩ := done
    split at done
    · cases done
    · simp only [bind_ok, relay_ok, pure_ok] at done
      obtain ⟨next, _, rfl⟩ := done
      exact .wait env.now order
  | staking env call =>
    simp only [World.step, bind_ok, require_ok, relay_ok, pure_ok] at done
    obtain ⟨_, order, staking, taken, rfl⟩ := done
    exact .call env call order taken

/-- A token that was not there before has just been launched. -/
theorem step_fresh (done : w.step c event = .ok after) {address : Address} {next : RewardToken.State}
    (absent : w.tokens address = none) (there : after.tokens address = some next) :
    next = RewardToken.deployed (c.token address) after.now := by
  have stays : after.tokens = w.tokens → next = RewardToken.deployed (c.token address) after.now := by
    intro same
    rw [same, absent] at there
    cases there
  cases event with
  | wait =>
    simp only [World.step, bind_ok, require_ok, pure_ok] at done
    obtain ⟨_, _, rfl⟩ := done
    exact stays rfl
  | govern | staking =>
    simp only [World.step, bind_ok, require_ok, relay_ok, pure_ok] at done
    obtain ⟨_, _, _, _, rfl⟩ := done
    exact stays rfl
  | launch own =>
    simp only [World.step, bind_ok, require_ok, pure_ok] at done
    obtain ⟨_, _, rfl⟩ := done
    by_cases same : address = own
    · subst same
      simp only [Function.update_self] at there
      cases there
      rfl
    · simp only [Function.update_of_ne same, absent] at there
      cases there
  | token own env call =>
    simp only [World.step, bind_ok, require_ok] at done
    obtain ⟨_, _, done⟩ := done
    split at done
    · cases done
    · next other taken =>
      simp only [bind_ok, relay_ok, pure_ok] at done
      obtain ⟨_, _, rfl⟩ := done
      have ne : address ≠ own := by
        rintro rfl
        rw [absent] at taken
        cases taken
      simp only [Function.update_of_ne ne, absent] at there
      cases there

theorem step_whole (done : w.step c event = .ok after) (whole : w.Whole) : after.Whole := by
  constructor
  · intro address next there
    cases found : w.tokens address with
    | some token =>
      obtain ⟨same, kept, turn⟩ := step_token done found
      rw [there] at kept
      cases kept
      exact (RewardToken.turn_whole turn (whole.tokens address token found)).1
    | none =>
      rw [step_fresh done found there]
      exact RewardToken.start_whole (c.token address) after.controller after.now
  · exact (Staking.turn_whole (step_staking done) whole.staking).1

/-- What an event leaves of every source: its seals, a starved epoch of the past, and a lane's credits. -/
structure Leaves (w after : World) : Prop where
  order : w.now ≤ after.now
  present : ∀ source, w.Present source → after.Present source
  sealed : ∀ source epoch, w.rewardSealed epoch source = true → after.rewardSealed epoch source = true
  starved : ∀ source epoch, (epoch + 1) * day ≤ w.now → w.Starved epoch source → after.Starved epoch source
  grows : ∀ key epoch, w.Present (.lane key) →
    w.credited epoch (.lane key) ≤ after.credited epoch (.lane key)

theorem step_leaves (done : w.step c event = .ok after) (whole : w.Whole) : Leaves w after := by
  have turn := step_staking done
  obtain ⟨_, order, _, keeps⟩ := Staking.turn_whole turn whole.staking
  constructor
  · exact order
  · intro source there
    cases source with
    | token address =>
      obtain ⟨token, found⟩ := there
      obtain ⟨next, kept, _⟩ := step_token done found
      exact ⟨next, kept⟩
    | lane key => exact (Staking.turn_late turn whole.staking there).present
  · intro source epoch sealed
    cases source with
    | token address =>
      cases found : w.tokens address with
      | none => simp [World.rewardSealed, found] at sealed
      | some token =>
        obtain ⟨next, kept, turn⟩ := step_token done found
        simp only [World.rewardSealed, found] at sealed
        simp only [World.rewardSealed, kept]
        exact RewardToken.turn_sealed turn sealed
    | lane key => exact (keeps.closed key epoch sealed).1
  · intro source epoch past starved
    cases source with
    | token address =>
      obtain ⟨token, found, empty⟩ := starved
      obtain ⟨next, kept, turn⟩ := step_token done found
      refine ⟨next, kept, ?_⟩
      exact (RewardToken.turn_frozen turn (whole.tokens address token found) past).trans empty
    | lane key =>
      have late := Staking.turn_late turn whole.staking starved.1
      exact ⟨late.present, late.short epoch past starved.2⟩
  · intro key epoch there
    exact (Staking.turn_late turn whole.staking there).grows epoch

/-- A starved epoch has no whole unit. -/
theorem World.Starved.empty (starved : w.Starved epoch source) : w.budget epoch source = 0 := by
  cases source with
  | token address =>
    obtain ⟨token, found, empty⟩ := starved
    simp only [World.budget, World.credited, found, empty]
  | lane key => exact Nat.div_eq_of_lt starved.2.now

/-- A past epoch that is sealed or starved. -/
structure World.Settled (w : World) (epoch : Nat) (source : Source) : Prop where
  past : (epoch + 1) * day ≤ w.now
  either : w.rewardSealed epoch source = true ∨ w.Starved epoch source

theorem World.Settled.later (settled : w.Settled epoch source) (leaves : Leaves w after) :
    after.Settled epoch source := by
  refine ⟨settled.past.trans leaves.order, ?_⟩
  rcases settled.either with sealed | starved
  · exact .inl (leaves.sealed source epoch sealed)
  · exact .inr (leaves.starved source epoch settled.past starved)

theorem World.Settled.final (settled : w.Settled epoch source) (whole : w.Whole) : Final c w epoch source := by
  rcases settled.either with sealed | starved
  · exact .inl sealed
  · right
    intro later reached
    have kept : later.Whole ∧ (epoch + 1) * day ≤ later.now ∧ later.Starved epoch source := by
      induction reached with
      | start => exact ⟨whole, settled.past, starved⟩
      | next _ done ih =>
        obtain ⟨whole, past, starved⟩ := ih
        have leaves := step_leaves done whole
        exact ⟨step_whole done whole, past.trans leaves.order, leaves.starved source epoch past starved⟩
    exact kept.2.2.empty

/-! One scan. -/

/-- The watermark passes over final epochs alone, and over none that was not read. -/
theorem advance_final (isFinal : Nat → Bool) (count first : Nat) :
    (first : Int) - 1 ≤ advance isFinal (List.range' first count) (first - 1) ∧
      ∀ epoch : Nat, first ≤ epoch → (epoch : Int) ≤ advance isFinal (List.range' first count) (first - 1) →
        epoch < first + count ∧ isFinal epoch = true := by
  induction count generalizing first with
  | zero =>
    refine ⟨le_rfl, fun epoch low high => ?_⟩
    simp only [List.range'_zero, advance] at high
    omega
  | succ count ih =>
    rw [List.range'_succ, advance]
    by_cases goes : (first : Int) = first - 1 + 1 ∧ isFinal first = true
    · rw [if_pos goes]
      obtain ⟨least, passed⟩ := ih (first + 1)
      have same : ((first + 1 : Nat) : Int) - 1 = first := by omega
      rw [same] at least passed
      refine ⟨by omega, fun epoch low high => ?_⟩
      by_cases here : epoch = first
      · subst here
        exact ⟨by omega, goes.2⟩
      · obtain ⟨inside, final⟩ := passed epoch (by omega) high
        exact ⟨by omega, final⟩
    · rw [if_neg goes]
      refine ⟨le_rfl, fun epoch low high => ?_⟩
      omega

/-- What the answers so far say of an epoch that the scan looks at. -/
structure Judged (w : World) (scan : Scan) (epoch : Nat) : Prop where
  past : (epoch + 1) * day ≤ w.now
  sealed : scan.sealed epoch = some true → w.rewardSealed epoch scan.source = true
  empty : ∀ address, scan.source = .token address → scan.credit epoch = some 0 → w.Starved epoch scan.source
  carry : ∀ key, scan.source = .lane key → scan.carryPending = false →
    w.rewardSealed epoch scan.source = true ∨ w.Starved epoch scan.source ∨
      precision ≤ w.credited epoch scan.source ∧
        ∀ credit, scan.credit epoch = some credit → precision ≤ credit

theorem Judged.settled (judged : Judged w scan epoch) (final : scan.isFinal epoch = true) :
    w.Settled epoch scan.source := by
  refine ⟨judged.past, ?_⟩
  rw [Scan.isFinal, Bool.or_eq_true] at final
  rcases final with sealed | final
  · exact .inl (judged.sealed (by simpa using sealed))
  · split at final
    · next address own => exact .inr (judged.empty address own (by simpa using final))
    · next key own =>
      rw [Bool.and_eq_true, Option.any_eq_true] at final
      obtain ⟨⟨credit, answered, low⟩, idle⟩ := final
      rcases judged.carry key own (by simpa using idle) with sealed | starved | ⟨_, high⟩
      · exact .inl sealed
      · exact .inr starved
      · have less := of_decide_eq_true low
        have more := high credit answered
        omega

theorem Judged.later (judged : Judged w scan epoch) (present : w.Present scan.source)
    (leaves : Leaves w after) : Judged after scan epoch := by
  constructor
  · exact judged.past.trans leaves.order
  · intro sealed
    exact leaves.sealed _ _ (judged.sealed sealed)
  · intro address own empty
    exact leaves.starved _ _ judged.past (judged.empty address own empty)
  · intro key own idle
    rcases judged.carry key own idle with sealed | starved | ⟨high, answered⟩
    · exact .inl (leaves.sealed _ _ sealed)
    · exact .inr (.inl (leaves.starved _ _ judged.past starved))
    · rw [own] at present high ⊢
      exact .inr (.inr ⟨high.trans (leaves.grows key epoch present), answered⟩)

/-- Where the state of the carry shows nothing pending, and the condition holds, an epoch without a unit stays so. -/
theorem carry_starved {key : Key} (whole : w.Whole) (present : w.Present (.lane key))
    (idle : w.carryPending (.lane key) = false) (shown : w.Shown epoch (.lane key))
    (unsealed : w.rewardSealed epoch (.lane key) = false) (low : w.credited epoch (.lane key) < precision) :
    w.Starved epoch (.lane key) := by
  refine ⟨present, ?_⟩
  rcases shown idle unsealed low with unhidden | short
  · obtain ⟨clock, sound⟩ := whole.staking
    have fits := sound.lanes key present
    obtain ⟨consumed, _, replays⟩ := fits.replays
    obtain ⟨left, right⟩ := fits.within
    have paused := of_decide_eq_false idle
    by_cases unread : 0 < w.staking.weightEvents.length - (w.staking.lanes key).cursors.left +
        (w.staking.lanes key).events.length - (w.staking.lanes key).cursors.right
    · have spent := not_lt.mp fun more => paused ⟨unread, more⟩
      exact unhidden.short ⟨replays.balanced.covered, spent⟩ low
    · have none : w.staking.core.pending key = [] := by
        simp only [Staking.core_lanes, Staking.Lane.reading] at left right
        change _ ≤ w.staking.weightEvents.length at left
        apply Staking.pending_ends
        · change (w.staking.lanes key).cursors.left = w.staking.weightEvents.length
          omega
        · change (w.staking.lanes key).cursors.right = (w.staking.lanes key).events.length
          omega
      rw [Staking.Core.Short, none]
      exact low
  · exact short

variable {s next : State} {k : Controller} {now : Nat}

/-- The scan of a source stands on its watermark, and looks at the epoch unless the watermark has passed it. -/
structure Fits (s : State) (scan : Scan) (epoch : Nat) : Prop where
  present : s.world.Present scan.source
  behind : s.watermark scan.source + 1 ≤ scan.fromEpoch
  within : s.watermark scan.source < epoch → scan.fromEpoch ≤ epoch
  judged : scan.fromEpoch ≤ epoch → epoch < scan.today → Judged s.world scan epoch

structure Sound (source : Source) (epoch : Nat) (s : State) : Prop where
  whole : s.world.Whole
  clock : s.nowSec ≤ s.world.now
  settled : (epoch : Int) ≤ s.watermark source → s.world.Settled epoch source
  fits : ∀ scan, s.scan = some scan → scan.source = source → Fits s scan epoch

/-- An epoch before today has ended. -/
theorem today_past (clock : s.nowSec ≤ s.world.now) (early : epoch < s.today) : (epoch + 1) * day ≤ s.world.now := by
  have whole : s.nowSec / day * day ≤ s.nowSec := Nat.div_mul_le_self _ _
  have least : (epoch + 1) * day ≤ s.nowSec / day * day := Nat.mul_le_mul_right day early
  exact (least.trans whole).trans clock

theorem begin_fits (sound : Sound source epoch s) (known : s.world.knows source = true) (firstEpoch : Nat)
    (watched : Watched c source epoch s (.scan source firstEpoch)) :
    Fits { s with scan := some (s.begin c.lookbackEpochs source firstEpoch) }
      (s.begin c.lookbackEpochs source firstEpoch) epoch := by
  have present := World.knows_present known
  have behind : s.watermark source + 1 ≤ s.fromEpoch c.lookbackEpochs firstEpoch source := by
    rw [State.fromEpoch]
    omega
  constructor
  · exact present
  · exact behind
  · intro beyond
    obtain ⟨first, back⟩ := watched.1 rfl beyond
    change s.fromEpoch c.lookbackEpochs firstEpoch source ≤ epoch
    rw [State.fromEpoch]
    change s.watermark source < epoch at beyond
    omega
  · intro low early
    have beyond : s.watermark source < epoch := by
      change s.fromEpoch c.lookbackEpochs firstEpoch source ≤ epoch at low
      omega
    have shown := watched.2 rfl beyond early
    constructor
    · exact today_past sound.clock early
    · intro answered
      cases answered
    · intro address own answered
      cases answered
    · rintro key rfl idle
      by_cases sealed : s.world.rewardSealed epoch (.lane key) = true
      · exact .inl sealed
      · by_cases low : s.world.credited epoch (.lane key) < precision
        · exact .inr (.inl (carry_starved sound.whole present idle shown (Bool.eq_false_of_not_eq_true sealed) low))
        · exact .inr (.inr ⟨not_lt.mp low, nofun⟩)

/-! One step. -/

theorem Fits.same {given : Scan} (fits : Fits s scan epoch) (source : given.source = scan.source)
    (fromEpoch : given.fromEpoch = scan.fromEpoch) (today : given.today = scan.today)
    (judged : Judged s.world scan epoch → Judged s.world given epoch) :
    Fits { s with scan := some given } given epoch := by
  constructor
  · rw [source]
    exact fits.present
  · rw [source, fromEpoch]
    exact fits.behind
  · rw [source, fromEpoch]
    exact fits.within
  · rw [fromEpoch, today]
    exact fun low early => judged (fits.judged low early)

/-- A view keeps what the scan stands on when it keeps what the answers say. -/
theorem view_sound {given : Scan → Scan} (done : view s viewed given = .ok next)
    (source' : ∀ scan, (given scan).source = scan.source)
    (fromEpoch : ∀ scan, (given scan).fromEpoch = scan.fromEpoch) (today : ∀ scan, (given scan).today = scan.today)
    (judged : ∀ scan, s.world.Present scan.source → Judged s.world scan epoch → Judged s.world (given scan) epoch)
    (sound : Sound source epoch s) : Sound source epoch next := by
  unfold view at done
  split at done
  · cases done
  · next scan found =>
    simp only [bind_ok, require_ok, pure_ok] at done
    obtain ⟨_, _, rfl⟩ := done
    refine ⟨sound.whole, sound.clock, sound.settled, ?_⟩
    rintro _ ⟨⟩ own
    have fits := sound.fits scan found ((source' scan).symm.trans own)
    exact fits.same (source' scan) (fromEpoch scan) (today scan) (judged scan fits.present)

theorem viewCredit_judged (present : s.world.Present scan.source) (judged : Judged s.world scan epoch) :
    Judged s.world { scan with
      credit := Function.update scan.credit viewed (some (s.world.credited viewed scan.source)) } epoch := by
  by_cases same : epoch = viewed
  · subst same
    constructor
    · exact judged.past
    · exact judged.sealed
    · intro address own empty
      simp only [Function.update_self, Option.some.injEq] at empty
      change scan.source = _ at own
      rw [own] at present empty
      change s.world.Starved epoch scan.source
      rw [own]
      obtain ⟨token, found⟩ := present
      simp only [World.credited, found] at empty
      exact ⟨token, found, empty⟩
    · intro key own idle
      rcases judged.carry key own idle with sealed | starved | ⟨high, _⟩
      · exact .inl sealed
      · exact .inr (.inl starved)
      · refine .inr (.inr ⟨high, ?_⟩)
        intro credit answered
        simp only [Function.update_self, Option.some.injEq] at answered
        rw [← answered]
        exact high
  · constructor
    · exact judged.past
    · exact judged.sealed
    · intro address own empty
      simp only [Function.update_of_ne same] at empty
      exact judged.empty address own empty
    · intro key own idle
      simp only [Function.update_of_ne same]
      exact judged.carry key own idle

theorem viewSealed_judged (judged : Judged s.world scan epoch) :
    Judged s.world { scan with
      sealed := Function.update scan.sealed viewed (some (s.world.rewardSealed viewed scan.source)) } epoch := by
  refine ⟨judged.past, ?_, judged.empty, judged.carry⟩
  intro answered
  by_cases same : epoch = viewed
  · subst same
    simpa using answered
  · simp only [Function.update_of_ne same] at answered
    exact judged.sealed answered

/-- The watermark moves over the epochs that the scan has judged. -/
theorem advance_sound (found : s.scan = some scan) (schedule : List (Source × Nat)) (sound : Sound source epoch s) :
    Sound source epoch { advanceWatermark s scan with scan := none, schedule := schedule } := by
  unfold advanceWatermark
  simp only
  split
  · next more =>
    refine ⟨sound.whole, sound.clock, fun below => ?_, nofun⟩
    by_cases own : scan.source = source
    · subst own
      have fits := sound.fits scan found rfl
      have behind := fits.behind
      have start : max (s.watermark scan.source) ((scan.fromEpoch : Int) - 1) = scan.fromEpoch - 1 := by omega
      simp only [State.watermark, Function.update_self, Option.getD_some] at below start
      rw [start] at below
      by_cases old : (epoch : Int) ≤ s.watermark scan.source
      · exact sound.settled old
      · have low := fits.within (not_le.mp old)
        obtain ⟨_, passed⟩ := advance_final scan.isFinal (scan.today - scan.fromEpoch) scan.fromEpoch
        obtain ⟨inside, final⟩ := passed epoch low below
        exact (fits.judged low (by omega)).settled final
    · rw [State.watermark] at below
      simp only [Function.update_of_ne (Ne.symm own)] at below
      exact sound.settled below
  · exact ⟨sound.whole, sound.clock, sound.settled, nofun⟩

theorem step_sound {action : Action} (done : accepts c s action next)
    (watched : Watched c source epoch s action) (sound : Sound source epoch s) : Sound source epoch next := by
  cases action with
  | chain event =>
    simp only [accepts, step, bind_ok, pure_ok] at done
    obtain ⟨world, done, rfl⟩ := done
    have leaves := step_leaves done sound.whole
    refine ⟨step_whole done sound.whole, sound.clock.trans leaves.order, fun below => ?_, ?_⟩
    · exact (sound.settled below).later leaves
    · intro scan found own
      have fits := sound.fits scan found own
      exact ⟨leaves.present _ fits.present, fits.behind, fits.within,
        fun low early => (fits.judged low early).later fits.present leaves⟩
  | tick =>
    simp only [accepts, step, bind_ok, require_ok, pure_ok] at done
    obtain ⟨_, idle, rfl⟩ := done
    refine ⟨sound.whole, le_rfl, sound.settled, ?_⟩
    intro scan found
    change s.scan = some scan at found
    rw [found] at idle
    cases idle
  | scan own firstEpoch =>
    simp only [accepts, step, bind_ok, require_ok, pure_ok] at done
    obtain ⟨_, ⟨_, known⟩, rfl⟩ := done
    refine ⟨sound.whole, sound.clock, sound.settled, ?_⟩
    rintro _ ⟨⟩ same
    change own = source at same
    subst same
    exact begin_fits sound known firstEpoch watched
  | viewSealed viewed =>
    exact view_sound done (fun _ => rfl) (fun _ => rfl) (fun _ => rfl) (fun _ _ => viewSealed_judged) sound
  | viewCredit viewed =>
    exact view_sound done (fun _ => rfl) (fun _ => rfl) (fun _ => rfl) (fun _ => viewCredit_judged) sound
  | viewNextRound viewed answers =>
    refine view_sound done (fun _ => rfl) (fun _ => rfl) (fun _ => rfl) ?_ sound
    intro scan _ judged
    exact ⟨judged.past, judged.sealed, judged.empty, judged.carry⟩
  | advance =>
    simp only [accepts, step] at done
    split at done
    · cases done
    · next scan found =>
      simp only [bind_ok, require_ok, pure_ok] at done
      obtain ⟨_, _, rfl⟩ := done
      exact advance_sound found _ sound
  | crash =>
    cases done
    exact ⟨sound.whole, sound.clock, sound.settled, fun _ found => by cases found⟩

/-! Whole runs. -/

theorem deployed_sound (k : Controller) (now : Nat) (source : Source) (epoch : Nat) :
    Sound source epoch (deployed k now) := by
  refine ⟨⟨nofun, Staking.start_whole k now⟩, le_rfl, ?_, nofun⟩
  intro below
  change (epoch : Int) ≤ -1 at below
  omega

theorem reachable_sound (reached : Reachable (restrict (accepts c) (Watched c source epoch)) (deployed k now) s) :
    Sound source epoch s :=
  reached.invariant (deployed_sound k now source epoch) (fun _ _ _ sound taken => step_sound taken.2 taken.1 sound)

/-- No event of a scanned lane has brought a deposit. -/
def Plain (c : Config) (source : Source) (epoch : Nat) (s : State) (action : Action) : Prop :=
  Scoped c source epoch s action ∧ match source with
    | .token _ => True
    | .lane key => ∀ e ∈ s.world.staking.weightEvents ++ (s.world.staking.lanes key).events, e.deposit27 = 0

instance (c : Config) (source : Source) (epoch : Nat) (s : State) (action : Action) :
    Decidable (Plain c source epoch s action) :=
  match source with
  | .token _ => inferInstanceAs (Decidable (_ ∧ True))
  | .lane _ => inferInstanceAs (Decidable (_ ∧ ∀ e ∈ _, _))

theorem Plain.watched {action : Action} (plain : Plain c source epoch s action) : Watched c source epoch s action := by
  obtain ⟨looks, empty⟩ := plain
  refine ⟨looks, ?_⟩
  split
  · intro _ _ _
    cases source with
    | token address => trivial
    | lane key =>
      intro _ _ _
      left
      have unread : ∀ e ∈ s.world.staking.core.pending key, e.deposit27 = 0 := by
        intro e member
        rcases MergedLog.mem_merged.mp member with weight | own
        · exact empty e (List.mem_append_left _ (List.mem_of_mem_drop weight))
        · exact empty e (List.mem_append_right _ (List.mem_of_mem_drop own))
      apply List.Pairwise.imp_of_mem _ (List.pairwise_of_forall fun _ _ => trivial)
      intro e later member _ _ brings
      exact absurd (unread e member) brings
  · trivial

def sample : Config := ⟨fun _ => RewardToken.sample, Staking.sample, 9, 30⟩

def sampleSource : Source := .lane Staking.sampleLane

def sampleCall (sender now : Nat) (call : Staking.Call) : Action := .chain (.staking (Staking.calls sender now) call)

/-- A scan of the epochs before `today`. -/
def sampleScan (today : Nat) : List Action :=
  [.tick, .scan sampleSource 0] ++
    (List.range today).flatMap (fun epoch => [.viewSealed epoch, .viewCredit epoch]) ++ [.advance]

def sampleActions : List Action :=
  ([sampleCall 4 100 (.configureSource (.raw 5) 0 0 ⟨7, 1, 1, 1⟩), sampleCall 10 200 (.stake 10 (10 ^ 18)),
    sampleCall 3 300 (.onFeeCredit (.raw 5) 0 0 9), sampleCall 4 90000 (.createEntrySource Staking.sampleLane)] :
      List Action) ++
    sampleScan 1 ++ ([sampleCall 20 90100 (.sealSource Staking.sampleLane 0),
      sampleCall 11 90200 (.stake 11 (10 ^ 18)), .chain (.wait 180000)] : List Action) ++ sampleScan 2

def sampleEnds (s : State) : Bool := decide (s.watermark sampleSource = 1)

theorem sample_run : ∃ s,
    Reachable (restrict (accepts sample) (Plain sample sampleSource 1)) (deployed .empty 100) s ∧
      sampleEnds s = true :=
  run_passes (step sample) (Plain sample sampleSource 1) sampleActions (deployed .empty 100) sampleEnds
    (by decide)

end Solonpad.RoundKeeper
