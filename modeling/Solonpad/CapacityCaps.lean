import Solonpad.CapacitySums

/-!
The issuance caps hold. Only a reservation raises the exposure, and it is admitted
within every limit; an asset's own exposure also rises when a reservation made for
another asset is issued as this one. While no limit is lowered the exposure stays
within its caps, and the public lane never takes the reward lane's share.
-/

namespace Solonpad.Capacity

open Checked Chain RunningTotal Transition

variable {Key : Type} {before after : State Key} {action : Action Key}

/-- The limits as they stand after a reservation of `usd` for `asset` on `lane`. -/
structure Within (s : State Key) (lane : Nat) (asset : Address) (usd : Nat) : Prop where
  run : usd ≤ s.lRun
  total : s.exposureUsd ≤ s.totalCap
  publicLane : lane = 0 → s.exposureUsd ≤ s.publicCap
  assetCap : (s.assetCap asset).set = true → s.assetExposureUsd asset ≤ (s.assetCap asset).cap
  unreviewed : s.unreviewedUsd ≤ s.uRun ∨
    lane = 1 ∧ s.unreviewedRewardUsd ≤ s.rewardUnreviewedShare

/-- A reservation that is issued as an asset it was not made for. -/
def Action.Reissues (s : State Key) (asset : Address) : Action Key → Prop
  | .finalizeBuy key named _ =>
    named = asset ∧ (s.tickets key).state = .reserved ∧ (s.tickets key).asset ≠ asset
  | _ => False

/-- An asset's first cap lowers nothing as long as the asset is not above it yet. -/
structure Unlowered (before after : State Key) : Prop where
  total : before.totalCap ≤ after.totalCap
  assetCap : ∀ asset, (after.assetCap asset).set = true →
    (before.assetCap asset).set = true ∧
        (before.assetCap asset).cap ≤ (after.assetCap asset).cap ∨
      (before.assetCap asset).set = false ∧
        before.assetExposureUsd asset ≤ (after.assetCap asset).cap

/-- The caps beside the dollars the reward lane has reserved so far. -/
structure Tally (Key : Type) where
  caps : State Key
  rewards : Nat

def Action.rewardUsd : Action Key → Nat
  | .reserveFor _ _ usd => usd
  | _ => 0

def Tally.Capped (run : Tally Key) : Prop :=
  run.caps.exposureUsd ≤ run.caps.totalCap ∧
    run.caps.exposureUsd ≤ run.caps.publicCap + run.rewards

def Tally.AssetsCapped (run : Tally Key) : Prop :=
  ∀ asset, (run.caps.assetCap asset).set = true →
    run.caps.assetExposureUsd asset ≤ (run.caps.assetCap asset).cap

theorem Unlowered.of_same (total : after.totalCap = before.totalCap)
    (assetCap : after.assetCap = before.assetCap) : Unlowered before after :=
  ⟨total.ge, fun asset capped => .inl (by rw [assetCap] at capped ⊢; exact ⟨capped, le_rfl⟩)⟩

theorem publicCap_mono (raised : before.totalCap ≤ after.totalCap) : before.publicCap ≤ after.publicCap := by
  simp only [State.publicCap, State.rewardReserve, shareOf, rewardShareBps]
  omega

variable [DecidableEq Key]

theorem reserved_exposure (s : State Key) (key : Key) (lane : Nat) (asset : Address) (usd : Nat) :
    (s.reserved key lane asset usd).exposureUsd = s.exposureUsd + usd := by
  simp only [State.exposureUsd, State.reserved]
  omega

theorem reserved_assetExposure (s : State Key) (key : Key) (lane : Nat) (asset : Address)
    (usd : Nat) (other : Address) : (s.reserved key lane asset usd).assetExposureUsd other =
      s.assetExposureUsd other + if asset = other then usd else 0 := by
  simp only [State.assetExposureUsd, State.reserved, moved_in]
  omega

theorem reserved_within (s : State Key) (key : Key) (lane : Nat) (asset : Address) (usd : Nat)
    (lanes : lane = 0 ∨ lane = 1) (admitted : Admitted s lane asset usd) :
    Within (s.reserved key lane asset usd) lane asset usd where
  run := admitted.run
  total := reserved_exposure s key lane asset usd ▸ admitted.total
  publicLane := reserved_exposure s key lane asset usd ▸ admitted.publicLane
  assetCap := by
    rw [reserved_assetExposure, if_pos rfl]
    exact admitted.assetCap
  unreviewed := by
    rcases admitted.unreviewed with room | ⟨reward, share⟩
    · exact .inl room
    · obtain rfl : lane = 1 := by omega
      exact .inr ⟨rfl, share⟩

/-- What raises the exposure of one asset. -/
theorem move_assetExposure {s : State Key} (exact : Exact s) (move : Move s action after) (asset : Address) :
    after.assetExposureUsd asset ≤ s.assetExposureUsd asset ∨
      (∃ lane usd, action.Reserves lane asset usd ∧ Within after lane asset usd) ∨
      action.Reissues s asset := by
  cases move with
  | reserveFor key named usd _ _ admitted =>
    by_cases same : named = asset
    · subst same
      have within := reserved_within s key 1 named usd (.inr rfl) admitted
      exact .inr (.inl ⟨1, usd, .reward key named usd, within⟩)
    · exact .inl (by simp [reserved_assetExposure, same])
  | reservePublicFor key named usd _ _ admitted =>
    by_cases same : named = asset
    · subst same
      have within := reserved_within s key 0 named usd (.inl rfl) admitted
      exact .inr (.inl ⟨0, usd, .publicly key named usd, within⟩)
    · exact .inl (by simp [reserved_assetExposure, same])
  | releaseUnsent key held =>
    left
    simp only [State.assetExposureUsd, State.dropped, Function.update_apply]
    grind
  | release key held =>
    left
    simp only [State.assetExposureUsd, State.dropped, Function.update_apply]
    grind
  | issued key named raw held =>
    obtain ⟨whole, part⟩ := exact.inflight_le key held
    by_cases reissued : named = asset ∧ (s.tickets key).asset ≠ asset
    · exact .inr (.inr ⟨reissued.1, held, reissued.2⟩)
    · left
      simp only [State.assetExposureUsd, State.issued, Function.update_apply]
      grind
  | beginRedeem key named raw usd unused basis =>
    left
    simp only [State.assetExposureUsd, State.redeeming, Function.update_apply]
    grind
  | finalizeRedeem key reviewed held =>
    left
    simp only [State.assetExposureUsd, State.redeemed, Function.update_apply]
    grind
  | revertRedeem key held =>
    obtain ⟨whole, part⟩ := exact.redeeming_le key held
    left
    simp only [State.assetExposureUsd, State.reverted, Function.update_apply]
    grind
  | markSent | recorded | markReviewed | ignored | configured => exact .inl le_rfl

theorem move_reserves {s : State Key} (move : Move s action after) (lane : Nat) (asset : Address) (usd : Nat)
    (reserves : action.Reserves lane asset usd) : Within after lane asset usd := by
  cases reserves with
  | reward key asset usd =>
    cases move with
    | reserveFor _ _ _ _ _ admitted => exact reserved_within s key 1 asset usd (.inr rfl) admitted
    | ignored _ late => exact late.elim
    | configured _ configures => exact configures.elim
  | publicly key asset usd =>
    cases move with
    | reservePublicFor _ _ _ _ _ admitted =>
      exact reserved_within s key 0 asset usd (.inl rfl) admitted
    | ignored _ late => exact late.elim
    | configured _ configures => exact configures.elim

/-! Runs in which no limit is lowered. -/

def unlowered (before : Tally Key) (call : Call Key) (after : Tally Key) : Prop :=
  accepts before.caps call after.caps ∧ Unlowered before.caps after.caps ∧
    after.rewards = before.rewards + call.action.rewardUsd

/-- Every reservation is issued as the asset it was made for. -/
def matched (before : Tally Key) (call : Call Key) : Prop :=
  ∀ asset, ¬ call.action.Reissues before.caps asset

theorem unlowered_balanced (owner guardian : Address) (run : Tally Key)
    (reached : Reachable unlowered ⟨deployed owner guardian, 0⟩ run) : Balanced run.caps :=
  reached.invariant (deployed_balanced owner guardian)
    (fun _ call _ balanced taken => move_balanced balanced (step_move _ _ call taken.1))

theorem unlowered_exposure {before after : Tally Key} {call : Call Key} (balanced : Balanced before.caps)
    (within : before.Capped) (taken : unlowered before call after) : after.Capped := by
  obtain ⟨accepted, kept, counted⟩ := taken
  have move := step_move _ _ call accepted
  have publicCap := publicCap_mono kept.total
  have total := kept.total
  simp only [Tally.Capped] at within ⊢
  rcases move_exposure balanced.toExact move with lower | ⟨lane, asset, usd, reserves, _, raised⟩
  · omega
  · have bounds := move_reserves move lane asset usd reserves
    refine ⟨bounds.total, ?_⟩
    generalize named : call.action = action at reserves counted
    cases reserves with
    | reward =>
      simp only [Action.rewardUsd] at counted
      omega
    | publicly =>
      have := bounds.publicLane rfl
      omega

theorem matched_assetExposure {before after : Tally Key} {call : Call Key} (balanced : Balanced before.caps)
    (within : before.AssetsCapped) (taken : restrict unlowered matched before call after) : after.AssetsCapped := by
  obtain ⟨named, accepted, kept, _⟩ := taken
  intro asset capped
  have move := step_move _ _ call accepted
  rcases move_assetExposure balanced.toExact move asset with
    lower | ⟨lane, usd, _, bounds⟩ | reissued
  · rcases kept.assetCap asset capped with ⟨already, raised⟩ | ⟨_, below⟩
    · have := within asset already
      omega
    · omega
  · exact bounds.assetCap capped
  · exact absurd reissued (named asset)

theorem issuance_caps_hold (owner guardian : Address) :
    (∀ s : State Key, Reachable accepts (deployed owner guardian) s →
      ∀ call after, accepts s call after →
        (s.exposureUsd < after.exposureUsd → ∃ lane asset usd, call.action.Reserves lane asset usd) ∧
        (∀ asset, s.assetExposureUsd asset < after.assetExposureUsd asset →
          (∃ lane usd, call.action.Reserves lane asset usd) ∨ call.action.Reissues s asset) ∧
        (∀ lane asset usd, call.action.Reserves lane asset usd → Within after lane asset usd)) ∧
      (∀ run : Tally Key, Reachable unlowered ⟨deployed owner guardian, 0⟩ run →
        run.Capped) ∧
      (∀ run : Tally Key,
        Reachable (restrict unlowered matched) ⟨deployed owner guardian, 0⟩ run →
        run.AssetsCapped) := by
  refine ⟨fun s reached call after taken => ?_, fun run reached => ?_, fun run reached => ?_⟩
  · have exact := (reachable_balanced owner guardian s reached).toExact
    have move := step_move s after call taken
    refine ⟨fun rises => ?_, fun asset rises => ?_, move_reserves move⟩
    · rcases move_exposure exact move with lower | ⟨lane, asset, usd, reserves, _⟩
      · omega
      · exact ⟨lane, asset, usd, reserves⟩
    · rcases move_assetExposure exact move asset with lower | ⟨lane, usd, reserves, _⟩ | reissued
      · omega
      · exact .inl ⟨lane, usd, reserves⟩
      · exact .inr reissued
  · exact reached.invariant_under (unlowered_balanced owner guardian)
      (by simp [Tally.Capped, deployed, State.exposureUsd])
      (fun _ _ _ balanced within taken => unlowered_exposure balanced within taken)
  · exact reached.invariant_under
      (fun run earlier => unlowered_balanced owner guardian run earlier.unrestricted)
      (by simp [Tally.AssetsCapped, deployed])
      (fun _ _ _ balanced within taken => matched_assetExposure balanced within taken)

theorem issuance_caps_hold_reserved :
    Within boundReserved 0 7 20 ∧ boundReserved.exposureUsd ≤ boundReserved.totalCap := by
  have holds := @issuance_caps_hold Nat _ 1 2
  have reached : Reachable accepts (deployed 1 2) bound := .next .start bound_accepted
  have binds : unlowered ⟨deployed 1 2, 0⟩ ⟨1, 0, .bind 3 4⟩ ⟨bound, 0⟩ :=
    ⟨bound_accepted, .of_same rfl rfl, rfl⟩
  have reserves : unlowered ⟨bound, 0⟩ ⟨3, 0, .reservePublicFor 0 7 20⟩ ⟨boundReserved, 0⟩ :=
    ⟨boundReserved_accepted, .of_same rfl rfl, rfl⟩
  exact ⟨(holds.1 bound reached _ _ boundReserved_accepted).2.2 0 7 20 (.publicly 0 7 20),
    (holds.2.1 _ (.next (.next .start binds) reserves)).1⟩

/-- A reservation for asset 7 that is issued as asset 8 raises the exposure of 8. -/
theorem reissue_raises_exposure : ∃ s after : State Nat,
    Reachable accepts (deployed 1 2) s ∧ accepts s ⟨3, 0, .finalizeBuy 0 8 1⟩ after ∧
      s.assetExposureUsd 8 < after.assetExposureUsd 8 :=
  ⟨boundReserved, boundReserved.issued 0 8 1,
    .next (.next .start bound_accepted) boundReserved_accepted, rfl, by decide⟩

end Solonpad.Capacity
