import Solonpad.Capacity

/-!
Everything an accepted call of the capacity controller can do, said once. Each
function's result is a state in plain arithmetic together with the guards the
checked code passed, and `step_move` reads an external call as one move. Every
invariant is then a case analysis over the moves.
-/

namespace Solonpad.Capacity

open Checked Chain

variable {Key : Type}

/-- A key that may be reserved: never used, or closed before anything was sent. -/
def Ticket.Free (ticket : Ticket) : Prop :=
  ticket.state = .none ∨ ticket.state = .closed ∧ ticket.sent = false

/-- What `_checkAsset` established when it raised no error. -/
structure Admitted (s : State Key) (lane : Nat) (asset : Address) (usd : Nat) : Prop where
  positive : usd ≠ 0
  run : usd ≤ s.lRun
  unreviewed : s.unreviewedUsd + usd ≤ s.uRun ∨
    lane ≠ 0 ∧ s.unreviewedRewardUsd + usd ≤ s.rewardUnreviewedShare
  total : s.exposureUsd + usd ≤ s.totalCap
  publicLane : lane = 0 → s.exposureUsd + usd ≤ s.publicCap
  assetCap : (s.assetCap asset).set = true → s.assetExposureUsd asset + usd ≤ (s.assetCap asset).cap
  fits : s.exposureUsd + usd < 2 ^ 256

theorem unreviewedFull_ok (s : State Key) (lane usd : Nat) (passed : unreviewedFull s lane usd = .ok false) :
    s.unreviewedUsd + usd ≤ s.uRun ∨
      lane ≠ 0 ∧ s.unreviewedRewardUsd + usd ≤ s.rewardUnreviewedShare := by
  simp only [unreviewedFull, bind_ok, sub_ok, add_ok, ite_ok, pure_ok, decide_eq_false_iff_not,
    Nat.not_lt, Bool.true_eq_false, and_false, false_or] at passed
  obtain ⟨_, _, ⟨_, _, _, _, _, _, _, ⟨_, rfl⟩, room⟩ | ⟨other, _, ⟨_, rfl⟩, judged⟩⟩ := passed
  · exact .inl room
  rcases judged with ⟨_, _, ⟨_, rfl⟩, room⟩ | ⟨share, _⟩
  · exact .inl room
  · exact .inr ⟨other, share⟩

theorem check_ok (s : State Key) (lane usd : Nat) (passed : check s lane usd = .ok none) :
    usd ≠ 0 ∧ usd ≤ s.lRun ∧ unreviewedFull s lane usd = .ok false ∧
      s.exposureUsd + usd < 2 ^ 256 ∧ ¬ (lane = 0 ∧ s.publicCap < s.exposureUsd + usd) ∧
      s.exposureUsd + usd ≤ s.totalCap := by
  simp only [check, ite_ok, bind_ok, pure_ok, add_ok, reduceCtorEq, and_false, false_or,
    and_true, Bool.not_eq_true] at passed
  obtain ⟨positive, run, full, judged, notFull, exposure, ⟨fits, rfl⟩, publicLane, total⟩ := passed
  subst notFull
  exact ⟨positive, by omega, judged, fits, publicLane, by omega⟩

theorem checkAsset_ok (s : State Key) (lane : Nat) (asset : Address) (usd : Nat)
    (passed : checkAsset s lane asset usd = .ok none) : Admitted s lane asset usd := by
  simp only [checkAsset, bind_ok] at passed
  obtain ⟨refused, checked, rest⟩ := passed
  cases refused with
  | some error => simp [pure_ok] at rest
  | none =>
    obtain ⟨positive, run, full, fits, publicLane, total⟩ := check_ok s lane usd checked
    refine ⟨positive, run, unreviewedFull_ok s lane usd full, total, ?_, ?_, fits⟩
    · intro lane0
      have := fun above => publicLane ⟨lane0, above⟩
      omega
    · intro capped
      simp only [capped, ite_true, bind_ok, add_ok, ite_ok, pure_ok, reduceCtorEq, and_false,
        false_or, and_true] at rest
      obtain ⟨_, ⟨_, rfl⟩, within⟩ := rest
      omega

theorem addUnreviewed_ok (s after : State Key) (lane usd : Nat) (added : addUnreviewed s lane usd = .ok after) :
    after = { s with
      unreviewedUsd := s.unreviewedUsd + usd
      unreviewedRewardUsd := s.unreviewedRewardUsd + if lane = 1 then usd else 0 } := by
  simp only [addUnreviewed, bind_ok, add_ok, ite_ok, pure_ok] at added
  obtain ⟨_, ⟨_, rfl⟩, ⟨reward, _, ⟨_, rfl⟩, rfl⟩ | ⟨other, rfl⟩⟩ := added
  · simp [reward]
  · simp [other]

theorem subUnreviewed_ok (s after : State Key) (lane usd : Nat) (taken : subUnreviewed s lane usd = .ok after) :
    after = { s with
      unreviewedUsd := s.unreviewedUsd - usd
      unreviewedRewardUsd := s.unreviewedRewardUsd - if lane = 1 then usd else 0 } := by
  simp only [subUnreviewed, bind_ok, sub_ok, ite_ok, pure_ok] at taken
  obtain ⟨_, ⟨_, rfl⟩, ⟨reward, _, ⟨_, rfl⟩, rfl⟩ | ⟨other, rfl⟩⟩ := taken
  · simp [reward]
  · simp [other]

variable [DecidableEq Key]

/-! The states the operations lead to. -/

def State.reserved (s : State Key) (key : Key) (lane : Nat) (asset : Address) (usd : Nat) :
    State Key :=
  { s with
    tickets := Function.update s.tickets key ⟨.reserved, lane, false, true, asset, usd, 0⟩
    inflightUsd := s.inflightUsd + usd
    inflightUsdOf := Function.update s.inflightUsdOf asset (s.inflightUsdOf asset + usd)
    unreviewedUsd := s.unreviewedUsd + usd
    unreviewedRewardUsd := s.unreviewedRewardUsd + if lane = 1 then usd else 0 }

def State.sent (s : State Key) (key : Key) : State Key :=
  s.setTicket key { s.tickets key with sent := true }

def State.dropped (s : State Key) (key : Key) (unsent : Bool) : State Key :=
  let t := s.tickets key
  { s with
    tickets := Function.update s.tickets key
      (if unsent then .blank else { t with state := .closed, unreviewed := false })
    inflightUsd := s.inflightUsd - t.usd
    inflightUsdOf := Function.update s.inflightUsdOf t.asset (s.inflightUsdOf t.asset - t.usd)
    unreviewedUsd := s.unreviewedUsd - if t.unreviewed then t.usd else 0
    unreviewedRewardUsd :=
      s.unreviewedRewardUsd - if t.unreviewed = true ∧ t.lane = 1 then t.usd else 0 }

/-- Raw shares issued under a key that holds no reservation. -/
def State.recorded (s : State Key) (asset : Address) (raw : Nat) : State Key :=
  { s with issuedRaw := Function.update s.issuedRaw asset (s.issuedRaw asset + raw) }

def State.issued (s : State Key) (key : Key) (asset : Address) (raw : Nat) : State Key :=
  let t := s.tickets key
  { s with
    issuedRaw := Function.update s.issuedRaw asset (s.issuedRaw asset + raw)
    tickets := Function.update s.tickets key { t with state := .issued, asset := asset, raw := raw }
    inflightUsd := s.inflightUsd - t.usd
    inflightUsdOf := Function.update s.inflightUsdOf t.asset (s.inflightUsdOf t.asset - t.usd)
    issuedUsd := s.issuedUsd + t.usd
    issuedUsdOf := Function.update s.issuedUsdOf asset (s.issuedUsdOf asset + t.usd) }

def State.redeeming (s : State Key) (key : Key) (asset : Address) (raw usd : Nat) : State Key :=
  let taken := min raw (s.issuedRaw asset)
  { s with
    tickets := Function.update s.tickets key ⟨.redeeming, 0, true, false, asset, usd, taken⟩
    issuedRaw := Function.update s.issuedRaw asset (s.issuedRaw asset - taken)
    issuedUsdOf := Function.update s.issuedUsdOf asset (s.issuedUsdOf asset - usd)
    issuedUsd := s.issuedUsd - usd
    redeemingUsd := s.redeemingUsd + usd
    redeemingUsdOf := Function.update s.redeemingUsdOf asset (s.redeemingUsdOf asset + usd) }

def State.redeemed (s : State Key) (key : Key) (reviewed : Bool) : State Key :=
  let t := s.tickets key
  { s with
    tickets := Function.update s.tickets key
      { t with state := .closed, unreviewed := if reviewed then t.unreviewed else true }
    redeemingUsd := s.redeemingUsd - t.usd
    redeemingUsdOf := Function.update s.redeemingUsdOf t.asset (s.redeemingUsdOf t.asset - t.usd)
    unreviewedUsd := s.unreviewedUsd + if reviewed then 0 else t.usd
    unreviewedRewardUsd :=
      s.unreviewedRewardUsd + if reviewed = false ∧ t.lane = 1 then t.usd else 0 }

def State.reverted (s : State Key) (key : Key) : State Key :=
  let t := s.tickets key
  { s with
    tickets := Function.update s.tickets key { t with state := .closed }
    redeemingUsd := s.redeemingUsd - t.usd
    redeemingUsdOf := Function.update s.redeemingUsdOf t.asset (s.redeemingUsdOf t.asset - t.usd)
    issuedUsd := s.issuedUsd + t.usd
    issuedRaw := Function.update s.issuedRaw t.asset (s.issuedRaw t.asset + t.raw)
    issuedUsdOf := Function.update s.issuedUsdOf t.asset (s.issuedUsdOf t.asset + t.usd) }

def State.reviewed (s : State Key) (key : Key) : State Key :=
  let t := s.tickets key
  { s with
    tickets := Function.update s.tickets key { t with unreviewed := false }
    unreviewedUsd := s.unreviewedUsd - t.usd
    unreviewedRewardUsd := s.unreviewedRewardUsd - if t.lane = 1 then t.usd else 0 }

/-! Each operation's result, with the guards it passed. -/

theorem reserve_ok (s after : State Key) (key : Key) (lane : Nat) (asset : Address) (usd : Nat)
    (done : reserve s key lane asset usd = .ok after) :
    asset ≠ 0 ∧ (s.tickets key).Free ∧ Admitted s lane asset usd ∧
      after = s.reserved key lane asset usd := by
  simp only [reserve, bind_ok, require_ok] at done
  obtain ⟨_, real, _, usable, _, unsent, refused, admitted, rest⟩ := done
  cases refused with
  | some error => simp [throw_ok] at rest
  | none =>
    simp only [bind_ok, add_ok] at rest
    obtain ⟨_, ⟨_, rfl⟩, _, ⟨_, rfl⟩, added⟩ := rest
    refine ⟨real, ?_, checkAsset_ok s lane asset usd admitted, addUnreviewed_ok _ _ _ _ added⟩
    rcases usable with unused | closed
    · exact .inl unused
    · exact .inr ⟨closed, by simpa [closed] using unsent⟩

theorem markSent_ok (s after : State Key) (sender : Address) (key : Key) (done : markSent s sender key = .ok after) :
    sender = s.hub ∧ (s.tickets key).state = .reserved ∧ after = s.sent key := by
  simp only [markSent, bind_ok, require_ok, pure_ok] at done
  obtain ⟨_, allowed, _, held, rfl⟩ := done
  exact ⟨allowed, held, rfl⟩

theorem drop_ok (s after : State Key) (key : Key) (unsent : Bool)
    (done : drop s key unsent = .ok after) : after = s.dropped key unsent := by
  simp only [drop, bind_ok, sub_ok, ite_ok, pure_ok] at done
  obtain ⟨_, ⟨_, rfl⟩, _, ⟨_, rfl⟩, ⟨counted, _, taken, rfl⟩ | ⟨uncounted, _, rfl, rfl⟩⟩ := done
  · rw [subUnreviewed_ok _ _ _ _ taken]
    simp [State.dropped, State.setTicket, counted]
  · simp [State.dropped, State.setTicket, uncounted]

theorem releaseUnsent_ok (s after : State Key) (sender : Address) (key : Key)
    (done : releaseUnsent s sender key = .ok after) : (s.tickets key).state = .reserved ∧
      (s.tickets key).sent = false ∧ after = s.dropped key true := by
  simp only [releaseUnsent, bind_ok, require_ok] at done
  obtain ⟨_, _, _, held, _, unsent, dropped⟩ := done
  exact ⟨held, unsent, drop_ok s after key true dropped⟩

theorem release_ok (s after : State Key) (sender : Address) (key : Key) (done : release s sender key = .ok after) :
    (s.tickets key).state = .reserved ∧ after = s.dropped key false ∨
      (s.tickets key).state ≠ .reserved ∧ after = s := by
  simp only [release, bind_ok, require_ok, ite_ok, pure_ok] at done
  obtain ⟨_, _, ⟨held, dropped⟩ | ⟨idle, rfl⟩⟩ := done
  · exact .inl ⟨held, drop_ok s after key false dropped⟩
  · exact .inr ⟨idle, rfl⟩

theorem finalizeBuy_ok (s after : State Key) (sender : Address) (key : Key) (asset : Address)
    (raw : Nat) (done : finalizeBuy s sender key asset raw = .ok after) :
    (s.tickets key).state = .reserved ∧ after = s.issued key asset raw ∨
      (s.tickets key).state ≠ .reserved ∧ after = s.recorded asset raw := by
  simp only [finalizeBuy, bind_ok, require_ok, add_ok, sub_ok, ite_ok, pure_ok] at done
  obtain ⟨_, _, _, ⟨_, rfl⟩, ⟨held, _, ⟨_, rfl⟩, _, ⟨_, rfl⟩, _, ⟨_, rfl⟩, _, ⟨_, rfl⟩, rfl⟩ |
    ⟨unmatched, rfl⟩⟩ := done
  · exact .inl ⟨held, rfl⟩
  · exact .inr ⟨unmatched, rfl⟩

theorem beginRedeem_ok (s after : State Key) (sender : Address) (key : Key) (asset : Address)
    (raw : Nat) (done : beginRedeem s sender key asset raw = .ok after) :
    (s.tickets key).state = .none ∧
      ∃ usd ≤ s.issuedUsdOf asset, after = s.redeeming key asset raw usd := by
  simp only [beginRedeem, bind_ok, require_ok, add_ok, sub_ok, ite_ok, pure_ok] at done
  obtain ⟨_, _, _, unused, ⟨_, usd, _, rest⟩ | ⟨_, usd, _, rest⟩⟩ := done
  all_goals
    obtain ⟨_, ⟨_, rfl⟩, _, ⟨basis, rfl⟩, _, ⟨_, rfl⟩, _, ⟨_, rfl⟩, _, ⟨_, rfl⟩, rfl⟩ := rest
    exact ⟨unused, usd, basis, rfl⟩

theorem finalizeRedeem_ok (s after : State Key) (sender : Address) (key : Key) (reviewed : Bool)
    (done : finalizeRedeem s sender key reviewed = .ok after) :
    (s.tickets key).state = .redeeming ∧ after = s.redeemed key reviewed ∨
      (s.tickets key).state ≠ .redeeming ∧ after = s := by
  simp only [finalizeRedeem, bind_ok, require_ok, sub_ok, ite_ok, pure_ok] at done
  obtain ⟨_, _, ⟨held, _, ⟨_, rfl⟩, _, ⟨_, rfl⟩, closed⟩ | ⟨idle, rfl⟩⟩ := done
  · refine .inl ⟨held, ?_⟩
    rcases closed with ⟨proven, rfl⟩ | ⟨unproven, added⟩
    · simp [State.redeemed, State.setTicket, proven]
    · rw [addUnreviewed_ok _ _ _ _ added]
      simp [State.redeemed, State.setTicket, unproven]
  · exact .inr ⟨idle, rfl⟩

theorem revertRedeem_ok (s after : State Key) (sender : Address) (key : Key)
    (done : revertRedeem s sender key = .ok after) :
    (s.tickets key).state = .redeeming ∧ after = s.reverted key ∨
      (s.tickets key).state ≠ .redeeming ∧ after = s := by
  simp only [revertRedeem, bind_ok, require_ok, add_ok, sub_ok, ite_ok, pure_ok] at done
  obtain ⟨_, _, ⟨held, _, ⟨_, rfl⟩, _, ⟨_, rfl⟩, _, ⟨_, rfl⟩, _, ⟨_, rfl⟩, _, ⟨_, rfl⟩, rfl⟩ |
    ⟨idle, rfl⟩⟩ := done
  · exact .inl ⟨held, rfl⟩
  · exact .inr ⟨idle, rfl⟩

theorem markReviewed_ok (s after : State Key) (sender : Address) (key : Key)
    (done : markReviewed s sender key = .ok after) :
    (s.tickets key).unreviewed = true ∧ after = s.reviewed key ∨
      (s.tickets key).unreviewed = false ∧ after = s := by
  simp only [markReviewed, bind_ok, require_ok, ite_ok, pure_ok] at done
  obtain ⟨_, _, ⟨held, taken⟩ | ⟨idle, rfl⟩⟩ := done
  · exact .inl ⟨held, subUnreviewed_ok _ _ _ _ taken⟩
  · exact .inr ⟨by simpa using idle, rfl⟩

/-! The moves. -/

/-- A result that arrives for a ticket it no longer applies to is ignored. -/
def Action.Ignored (s : State Key) : Action Key → Prop
  | .release key => (s.tickets key).state ≠ .reserved
  | .finalizeRedeem key _ => (s.tickets key).state ≠ .redeeming
  | .revertRedeem key => (s.tickets key).state ≠ .redeeming
  | .markReviewed key => (s.tickets key).unreviewed = false
  | _ => False

/-- The calls that set roles, limits, caps or proposals. -/
def Action.Configures : Action Key → Prop
  | .bind .. | .lowerLimits .. | .proposeLimits .. | .executeLimits | .setMinOrder ..
  | .setAssetCap .. | .lowerAssetCap .. | .proposeAssetCap .. | .executeAssetCap .. => True
  | _ => False

inductive Move (s : State Key) : Action Key → State Key → Prop where
  | reserveFor (key : Key) (asset : Address) (usd : Nat) (real : asset ≠ 0)
      (free : (s.tickets key).Free) (admitted : Admitted s 1 asset usd) :
      Move s (.reserveFor key asset usd) (s.reserved key 1 asset usd)
  | reservePublicFor (key : Key) (asset : Address) (usd : Nat) (real : asset ≠ 0)
      (free : (s.tickets key).Free) (admitted : Admitted s 0 asset usd) :
      Move s (.reservePublicFor key asset usd) (s.reserved key 0 asset usd)
  | markSent (key : Key) (held : (s.tickets key).state = .reserved) :
      Move s (.markSent key) (s.sent key)
  | releaseUnsent (key : Key) (held : (s.tickets key).state = .reserved)
      (unsent : (s.tickets key).sent = false) : Move s (.releaseUnsent key) (s.dropped key true)
  | release (key : Key) (held : (s.tickets key).state = .reserved) :
      Move s (.release key) (s.dropped key false)
  | recorded (key : Key) (asset : Address) (raw : Nat)
      (unmatched : (s.tickets key).state ≠ .reserved) :
      Move s (.finalizeBuy key asset raw) (s.recorded asset raw)
  | issued (key : Key) (asset : Address) (raw : Nat) (held : (s.tickets key).state = .reserved) :
      Move s (.finalizeBuy key asset raw) (s.issued key asset raw)
  | beginRedeem (key : Key) (asset : Address) (raw usd : Nat)
      (unused : (s.tickets key).state = .none) (basis : usd ≤ s.issuedUsdOf asset) :
      Move s (.beginRedeem key asset raw) (s.redeeming key asset raw usd)
  | finalizeRedeem (key : Key) (reviewed : Bool) (held : (s.tickets key).state = .redeeming) :
      Move s (.finalizeRedeem key reviewed) (s.redeemed key reviewed)
  | revertRedeem (key : Key) (held : (s.tickets key).state = .redeeming) :
      Move s (.revertRedeem key) (s.reverted key)
  | markReviewed (key : Key) (held : (s.tickets key).unreviewed = true) :
      Move s (.markReviewed key) (s.reviewed key)
  | ignored (action : Action Key) (late : action.Ignored s) : Move s action s
  | configured (action : Action Key) (configures : action.Configures)
      (hub rewardManager : Address) (lRun uRun totalCap minOrderUsd : Nat) (pendingLimits : Limits)
      (assetCap : Address → AssetCap) (pendingAssetCap : Address → PendingAssetCap) :
      Move s action { s with
        hub := hub, rewardManager := rewardManager, lRun := lRun, uRun := uRun
        totalCap := totalCap, minOrderUsd := minOrderUsd, pendingLimits := pendingLimits
        assetCap := assetCap, pendingAssetCap := pendingAssetCap }

/-- Every accepted external call is one move. -/
theorem step_move (s after : State Key) (call : Call Key) (taken : step s call = .ok after) :
    Move s call.action after := by
  obtain ⟨sender, now, action⟩ := call
  cases action with
  | reserveFor key asset usd =>
    simp only [step, reserveFor, bind_ok, require_ok] at taken
    obtain ⟨_, _, reserved⟩ := taken
    obtain ⟨real, free, admitted, rfl⟩ := reserve_ok s after key 1 asset usd reserved
    exact .reserveFor key asset usd real free admitted
  | reservePublicFor key asset usd =>
    simp only [step, reservePublicFor, bind_ok, require_ok] at taken
    obtain ⟨_, _, reserved⟩ := taken
    obtain ⟨real, free, admitted, rfl⟩ := reserve_ok s after key 0 asset usd reserved
    exact .reservePublicFor key asset usd real free admitted
  | markSent key =>
    obtain ⟨_, held, rfl⟩ := markSent_ok s after sender key taken
    exact .markSent key held
  | releaseUnsent key =>
    obtain ⟨held, unsent, rfl⟩ := releaseUnsent_ok s after sender key taken
    exact .releaseUnsent key held unsent
  | release key =>
    rcases release_ok s after sender key taken with ⟨held, rfl⟩ | ⟨late, rfl⟩
    · exact .release key held
    · exact .ignored _ late
  | finalizeBuy key asset raw =>
    rcases finalizeBuy_ok s after sender key asset raw taken with ⟨held, rfl⟩ | ⟨unmatched, rfl⟩
    · exact .issued key asset raw held
    · exact .recorded key asset raw unmatched
  | beginRedeem key asset raw =>
    obtain ⟨unused, usd, basis, rfl⟩ := beginRedeem_ok s after sender key asset raw taken
    exact .beginRedeem key asset raw usd unused basis
  | finalizeRedeem key reviewed =>
    rcases finalizeRedeem_ok s after sender key reviewed taken with ⟨held, rfl⟩ | ⟨late, rfl⟩
    · exact .finalizeRedeem key reviewed held
    · exact .ignored _ late
  | revertRedeem key =>
    rcases revertRedeem_ok s after sender key taken with ⟨held, rfl⟩ | ⟨late, rfl⟩
    · exact .revertRedeem key held
    · exact .ignored _ late
  | markReviewed key =>
    rcases markReviewed_ok s after sender key taken with ⟨held, rfl⟩ | ⟨late, rfl⟩
    · exact .markReviewed key held
    · exact .ignored _ late
  | bind hub rewardManager =>
    simp only [step, bind, bind_ok, require_ok, pure_ok] at taken
    obtain ⟨_, _, _, _, _, _, rfl⟩ := taken
    exact .configured _ (by exact trivial) _ _ _ _ _ _ _ _ _
  | lowerLimits lRun uRun totalCap =>
    simp only [step, lowerLimits, bind_ok, require_ok, pure_ok] at taken
    obtain ⟨_, _, _, _, rfl⟩ := taken
    split <;> exact .configured _ (by exact trivial) _ _ _ _ _ _ _ _ _
  | proposeLimits lRun uRun totalCap =>
    simp only [step, proposeLimits, bind_ok, require_ok, pure_ok] at taken
    obtain ⟨_, _, _, _, rfl⟩ := taken
    exact .configured _ (by exact trivial) _ _ _ _ _ _ _ _ _
  | executeLimits =>
    simp only [step, executeLimits, bind_ok, require_ok, pure_ok] at taken
    obtain ⟨_, _, _, _, _, _, rfl⟩ := taken
    exact .configured _ (by exact trivial) _ _ _ _ _ _ _ _ _
  | setMinOrder usd =>
    simp only [step, setMinOrder, bind_ok, require_ok, pure_ok] at taken
    obtain ⟨_, _, _, _, rfl⟩ := taken
    exact .configured _ (by exact trivial) _ _ _ _ _ _ _ _ _
  | setAssetCap asset cap =>
    simp only [step, setAssetCap, bind_ok, require_ok, pure_ok] at taken
    obtain ⟨_, _, _, _, _, _, rfl⟩ := taken
    exact .configured _ (by exact trivial) _ _ _ _ _ _ _ _ _
  | lowerAssetCap asset cap =>
    simp only [step, lowerAssetCap, bind_ok, require_ok, pure_ok] at taken
    obtain ⟨_, _, _, _, rfl⟩ := taken
    exact .configured _ (by exact trivial) _ _ _ _ _ _ _ _ _
  | proposeAssetCap asset cap =>
    simp only [step, proposeAssetCap, bind_ok, require_ok, pure_ok] at taken
    obtain ⟨_, _, _, _, rfl⟩ := taken
    exact .configured _ (by exact trivial) _ _ _ _ _ _ _ _ _
  | executeAssetCap asset =>
    simp only [step, executeAssetCap, bind_ok, require_ok, pure_ok] at taken
    obtain ⟨_, _, _, _, rfl⟩ := taken
    exact .configured _ (by exact trivial) _ _ _ _ _ _ _ _ _

end Solonpad.Capacity
