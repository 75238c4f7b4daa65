import Solonpad.CapacityMoves
import Solonpad.Transition

/-!
The capacity sums are exact: each running sum is the total of the tickets it
stands for, whatever the order of calls. So the subtractions of a release, a
finalisation, a redemption, a revert or a review are always covered, and the
calls a cross-chain result depends on fail only where a sum leaves 256 bits.
-/

namespace Solonpad.Capacity

open Checked Chain RunningTotal Transition

variable {Key : Type} {s after : State Key} {action : Action Key}

/-! What one ticket adds to each sum. -/

def Ticket.inflight (ticket : Ticket) : Nat :=
  if ticket.state = .reserved then ticket.usd else 0

def Ticket.inflightOf (ticket : Ticket) (asset : Address) : Nat :=
  if ticket.state = .reserved ∧ ticket.asset = asset then ticket.usd else 0

def Ticket.redeeming (ticket : Ticket) : Nat :=
  if ticket.state = .redeeming then ticket.usd else 0

def Ticket.redeemingOf (ticket : Ticket) (asset : Address) : Nat :=
  if ticket.state = .redeeming ∧ ticket.asset = asset then ticket.usd else 0

def Ticket.pending (ticket : Ticket) : Nat :=
  if ticket.unreviewed then ticket.usd else 0

def Ticket.pendingReward (ticket : Ticket) : Nat :=
  if ticket.unreviewed = true ∧ ticket.lane = 1 then ticket.usd else 0

structure Exact (s : State Key) : Prop where
  inflight : Totals (fun key => (s.tickets key).inflight) s.inflightUsd
  inflightOf : ∀ asset, Totals (fun key => (s.tickets key).inflightOf asset) (s.inflightUsdOf asset)
  redeeming : Totals (fun key => (s.tickets key).redeeming) s.redeemingUsd
  redeemingOf : ∀ asset,
    Totals (fun key => (s.tickets key).redeemingOf asset) (s.redeemingUsdOf asset)
  issued : Totals s.issuedUsdOf s.issuedUsd
  unreviewed : Totals (fun key => (s.tickets key).pending) s.unreviewedUsd
  unreviewedReward : Totals (fun key => (s.tickets key).pendingReward) s.unreviewedRewardUsd

/-- A ticket that a later operation marks or overwrites does not count as unreviewed,
and a redemption keeps the lane and the sent mark it was opened with. -/
structure Ticket.Regular (ticket : Ticket) : Prop where
  quiet : ticket.state = .none ∨ ticket.state = .redeeming ∨
    ticket.state = .closed ∧ ticket.sent = false → ticket.unreviewed = false
  redeem : ticket.state = .redeeming → ticket.lane = 0 ∧ ticket.sent = true

/-- The exact sums with what else the calls rely on. -/
structure Balanced (s : State Key) : Prop extends Exact s where
  regular : ∀ key, (s.tickets key).Regular
  fits : s.exposureUsd < 2 ^ 256

theorem deployed_balanced (owner guardian : Address) :
    Balanced (deployed owner guardian : State Key) where
  inflight := Totals.zero.of_eq (fun _ => rfl) rfl
  inflightOf := fun _ => Totals.zero.of_eq (fun _ => rfl) rfl
  redeeming := Totals.zero.of_eq (fun _ => rfl) rfl
  redeemingOf := fun _ => Totals.zero.of_eq (fun _ => rfl) rfl
  issued := Totals.zero
  unreviewed := Totals.zero.of_eq (fun _ => rfl) rfl
  unreviewedReward := Totals.zero.of_eq (fun _ => rfl) rfl
  regular := fun _ => ⟨fun _ => rfl, fun held => by cases held⟩
  fits := by simp [State.exposureUsd, deployed]

/-! Every ticket is covered by the sums it is part of. -/

theorem Exact.inflight_le (exact : Exact s) (key : Key) (held : (s.tickets key).state = .reserved) :
    (s.tickets key).usd ≤ s.inflightUsd ∧
      (s.tickets key).usd ≤ s.inflightUsdOf (s.tickets key).asset := by
  have whole := exact.inflight.entry_le key
  have part := (exact.inflightOf (s.tickets key).asset).entry_le key
  simp only [Ticket.inflight, Ticket.inflightOf, held, true_and, if_true] at whole part
  exact ⟨whole, part⟩

theorem Exact.redeeming_le (exact : Exact s) (key : Key) (held : (s.tickets key).state = .redeeming) :
    (s.tickets key).usd ≤ s.redeemingUsd ∧
      (s.tickets key).usd ≤ s.redeemingUsdOf (s.tickets key).asset := by
  have whole := exact.redeeming.entry_le key
  have part := (exact.redeemingOf (s.tickets key).asset).entry_le key
  simp only [Ticket.redeeming, Ticket.redeemingOf, held, true_and, if_true] at whole part
  exact ⟨whole, part⟩

theorem Exact.unreviewed_le (exact : Exact s) (key : Key) (counted : (s.tickets key).unreviewed = true) :
    (s.tickets key).usd ≤ s.unreviewedUsd ∧
      ((s.tickets key).lane = 1 → (s.tickets key).usd ≤ s.unreviewedRewardUsd) := by
  have whole := exact.unreviewed.entry_le key
  have part := exact.unreviewedReward.entry_le key
  simp only [Ticket.pending, Ticket.pendingReward, counted, true_and, if_true] at whole part
  exact ⟨whole, fun reward => by simpa [reward] using part⟩

theorem Exact.reward_le (exact : Exact s) : s.unreviewedRewardUsd ≤ s.unreviewedUsd := by
  refine exact.unreviewedReward.le exact.unreviewed ?_
  intro key
  by_cases counted : (s.tickets key).unreviewed = true
  · simp only [Ticket.pending, Ticket.pendingReward, counted]
    split <;> simp
  · simp [Ticket.pending, Ticket.pendingReward, counted]

/-- A free ticket counts in no sum. -/
theorem Balanced.free (balanced : Balanced s) (key : Key) (free : (s.tickets key).Free) :
    (s.tickets key).state ≠ .reserved ∧
      (s.tickets key).state ≠ .redeeming ∧ (s.tickets key).unreviewed = false := by
  have quiet := (balanced.regular key).quiet
  rcases free with unused | ⟨closed, unsent⟩
  · exact ⟨by simp [unused], by simp [unused], quiet (.inl unused)⟩
  · exact ⟨by simp [closed], by simp [closed], quiet (.inr (.inr ⟨closed, unsent⟩))⟩

/-! A sum keyed by asset that moves at one asset. -/

theorem moved_in (sums : Address → Nat) (asset : Address) (usd : Nat) (other : Address) :
    Function.update sums asset (sums asset + usd) other =
      sums other + if asset = other then usd else 0 := by
  by_cases same : asset = other
  · subst same; simp
  · simp [same, Ne.symm same]

theorem moved_out (sums : Address → Nat) (asset : Address) (usd : Nat) (covered : usd ≤ sums asset) (other : Address) :
    Function.update sums asset (sums asset - usd) other + (if asset = other then usd else 0) =
      sums other := by
  by_cases same : asset = other
  · subst same; simp [covered]
  · simp [same, Ne.symm same]

variable [DecidableEq Key]

/-- Rewriting one ticket keeps the sums exact when each sum moves by the ticket's own difference. -/
theorem Exact.rewrite (exact : Exact s) (key : Key) (ticket : Ticket)
    (tickets : after.tickets = Function.update s.tickets key ticket)
    (inflight : after.inflightUsd + (s.tickets key).inflight = s.inflightUsd + ticket.inflight)
    (inflightOf : ∀ asset, after.inflightUsdOf asset + (s.tickets key).inflightOf asset =
      s.inflightUsdOf asset + ticket.inflightOf asset)
    (redeeming : after.redeemingUsd + (s.tickets key).redeeming = s.redeemingUsd + ticket.redeeming)
    (redeemingOf : ∀ asset, after.redeemingUsdOf asset + (s.tickets key).redeemingOf asset =
      s.redeemingUsdOf asset + ticket.redeemingOf asset)
    (issued : Totals after.issuedUsdOf after.issuedUsd)
    (unreviewed : after.unreviewedUsd + (s.tickets key).pending = s.unreviewedUsd + ticket.pending)
    (unreviewedReward : after.unreviewedRewardUsd + (s.tickets key).pendingReward =
      s.unreviewedRewardUsd + ticket.pendingReward) :
    Exact after where
  inflight := exact.inflight.rewrite (fun _ => Ticket.inflight) key ticket tickets inflight
  inflightOf := fun asset =>
    (exact.inflightOf asset).rewrite (fun _ t => t.inflightOf asset) key ticket tickets
      (inflightOf asset)
  redeeming := exact.redeeming.rewrite (fun _ => Ticket.redeeming) key ticket tickets redeeming
  redeemingOf := fun asset =>
    (exact.redeemingOf asset).rewrite (fun _ t => t.redeemingOf asset) key ticket tickets
      (redeemingOf asset)
  issued := issued
  unreviewed := exact.unreviewed.rewrite (fun _ => Ticket.pending) key ticket tickets unreviewed
  unreviewedReward :=
    exact.unreviewedReward.rewrite (fun _ => Ticket.pendingReward) key ticket tickets
      unreviewedReward

theorem reserved_exact (balanced : Balanced s) (key : Key) (lane : Nat) (asset : Address) (usd : Nat)
    (free : (s.tickets key).Free) : Exact (s.reserved key lane asset usd) := by
  have idle := balanced.free key free
  refine balanced.rewrite key _ rfl ?_ ?_ ?_ ?_ balanced.issued ?_ ?_
  all_goals simp [State.reserved, Ticket.inflight, Ticket.inflightOf, Ticket.redeeming,
    Ticket.redeemingOf, Ticket.pending, Ticket.pendingReward, idle]
  exact moved_in s.inflightUsdOf asset usd

theorem dropped_exact (exact : Exact s) (key : Key) (unsent : Bool)
    (held : (s.tickets key).state = .reserved) : Exact (s.dropped key unsent) := by
  have ⟨whole, part⟩ := exact.inflight_le key held
  have counted := exact.unreviewed_le key
  refine exact.rewrite key _ rfl ?_ ?_ ?_ ?_ exact.issued ?_ ?_
  all_goals cases unsent
  all_goals simp [State.dropped, Ticket.inflight, Ticket.inflightOf, Ticket.redeeming,
    Ticket.redeemingOf, Ticket.pending, Ticket.pendingReward, Ticket.blank, held]
  any_goals exact moved_out s.inflightUsdOf _ _ part
  all_goals grind

theorem issued_exact (exact : Exact s) (key : Key) (asset : Address) (raw : Nat)
    (held : (s.tickets key).state = .reserved) : Exact (s.issued key asset raw) := by
  have ⟨whole, part⟩ := exact.inflight_le key held
  have issued := exact.issued.credit asset (s.tickets key).usd
  refine exact.rewrite key _ rfl ?_ ?_ ?_ ?_ issued rfl rfl
  all_goals simp [State.issued, Ticket.inflight, Ticket.inflightOf, Ticket.redeeming,
    Ticket.redeemingOf, held]
  · omega
  · exact moved_out s.inflightUsdOf _ _ part

theorem redeeming_exact (balanced : Balanced s) (key : Key) (asset : Address) (raw usd : Nat)
    (unused : (s.tickets key).state = .none) (basis : usd ≤ s.issuedUsdOf asset) :
    Exact (s.redeeming key asset raw usd) := by
  have quiet := (balanced.regular key).quiet (.inl unused)
  have issued := balanced.issued.debit asset usd basis
  refine balanced.rewrite key _ rfl ?_ ?_ ?_ ?_ issued ?_ ?_
  all_goals simp [State.redeeming, Ticket.inflight, Ticket.inflightOf, Ticket.redeeming,
    Ticket.redeemingOf, Ticket.pending, Ticket.pendingReward, unused, quiet]
  exact moved_in s.redeemingUsdOf asset usd

theorem redeemed_exact (balanced : Balanced s) (key : Key) (reviewed : Bool)
    (held : (s.tickets key).state = .redeeming) : Exact (s.redeemed key reviewed) := by
  have ⟨whole, part⟩ := balanced.redeeming_le key held
  have quiet := (balanced.regular key).quiet (.inr (.inl held))
  have lane := ((balanced.regular key).redeem held).1
  refine balanced.rewrite key _ rfl ?_ ?_ ?_ ?_ balanced.issued ?_ ?_
  all_goals simp [State.redeemed, Ticket.inflight, Ticket.inflightOf, Ticket.redeeming,
    Ticket.redeemingOf, Ticket.pending, Ticket.pendingReward, held, quiet, lane]
  · omega
  · exact moved_out s.redeemingUsdOf _ _ part
  · cases reviewed <;> simp

theorem reverted_exact (exact : Exact s) (key : Key) (held : (s.tickets key).state = .redeeming) :
    Exact (s.reverted key) := by
  have ⟨whole, part⟩ := exact.redeeming_le key held
  have issued := exact.issued.credit (s.tickets key).asset (s.tickets key).usd
  refine exact.rewrite key _ rfl ?_ ?_ ?_ ?_ issued rfl rfl
  all_goals simp [State.reverted, Ticket.inflight, Ticket.inflightOf, Ticket.redeeming,
    Ticket.redeemingOf, held]
  · omega
  · exact moved_out s.redeemingUsdOf _ _ part

theorem reviewed_exact (exact : Exact s) (key : Key) (held : (s.tickets key).unreviewed = true) :
    Exact (s.reviewed key) := by
  have counted := exact.unreviewed_le key held
  refine exact.rewrite key _ rfl rfl (fun _ => rfl) rfl (fun _ => rfl) exact.issued ?_ ?_
  all_goals simp [State.reviewed, Ticket.pending, Ticket.pendingReward, held]
  · omega
  · split <;> omega

theorem move_exact (balanced : Balanced s) (move : Move s action after) : Exact after := by
  have exact := balanced.toExact
  cases move with
  | reserveFor key asset usd _ free => exact reserved_exact balanced key 1 asset usd free
  | reservePublicFor key asset usd _ free => exact reserved_exact balanced key 0 asset usd free
  | markSent key =>
    exact exact.rewrite key _ rfl rfl (fun _ => rfl) rfl (fun _ => rfl) exact.issued rfl rfl
  | releaseUnsent key held => exact dropped_exact exact key true held
  | release key held => exact dropped_exact exact key false held
  | issued key asset raw held => exact issued_exact exact key asset raw held
  | beginRedeem key asset raw usd unused basis =>
    exact redeeming_exact balanced key asset raw usd unused basis
  | finalizeRedeem key reviewed held => exact redeemed_exact balanced key reviewed held
  | revertRedeem key held => exact reverted_exact exact key held
  | markReviewed key held => exact reviewed_exact exact key held
  | recorded | configured =>
    exact ⟨exact.inflight, exact.inflightOf, exact.redeeming, exact.redeemingOf, exact.issued,
      exact.unreviewed, exact.unreviewedReward⟩
  | ignored => exact exact

theorem move_regular (regular : ∀ key, (s.tickets key).Regular) (move : Move s action after) (key : Key) :
    (after.tickets key).Regular := by
  have rewritten : ∀ (moved : Key) (ticket : Ticket), ticket.Regular →
      (Function.update s.tickets moved ticket key).Regular := by
    intro moved ticket kept
    by_cases same : key = moved
    · subst same
      simpa using kept
    · simpa [same] using regular key
  cases move with
  | reserveFor moved | reservePublicFor moved | markSent moved held | issued moved asset raw held =>
    exact rewritten moved _ ⟨by simp_all, by simp_all⟩
  | releaseUnsent moved | release moved =>
    exact rewritten moved _ ⟨by simp [Ticket.blank], by simp [Ticket.blank]⟩
  | beginRedeem moved => exact rewritten moved _ ⟨by simp, by simp⟩
  | revertRedeem moved held | finalizeRedeem moved reviewed held =>
    have sent := ((regular moved).redeem held).2
    exact rewritten moved _ ⟨by simp [sent], by simp⟩
  | markReviewed moved held => exact rewritten moved _ ⟨by simp, (regular moved).redeem⟩
  | recorded | ignored | configured => exact regular key

/-- A reservation on a lane, for an asset and an amount. -/
inductive Action.Reserves : Action Key → Nat → Address → Nat → Prop where
  | reward (key : Key) (asset : Address) (usd : Nat) :
      Action.Reserves (.reserveFor key asset usd) 1 asset usd
  | publicly (key : Key) (asset : Address) (usd : Nat) :
      Action.Reserves (.reservePublicFor key asset usd) 0 asset usd

/-- Only a reservation raises the exposure. -/
theorem move_exposure (exact : Exact s) (move : Move s action after) : after.exposureUsd ≤ s.exposureUsd ∨
      ∃ lane asset usd, action.Reserves lane asset usd ∧ Admitted s lane asset usd ∧
        after.exposureUsd = s.exposureUsd + usd := by
  cases move with
  | reserveFor key asset usd _ _ admitted =>
    refine .inr ⟨1, asset, usd, .reward key asset usd, admitted, ?_⟩
    simp only [State.exposureUsd, State.reserved]
    omega
  | reservePublicFor key asset usd _ _ admitted =>
    refine .inr ⟨0, asset, usd, .publicly key asset usd, admitted, ?_⟩
    simp only [State.exposureUsd, State.reserved]
    omega
  | issued key asset raw held =>
    have covered := exact.inflight_le key held
    left
    simp only [State.exposureUsd, State.issued]
    omega
  | beginRedeem key asset raw usd unused basis =>
    have covered := exact.issued.entry_le asset
    left
    simp only [State.exposureUsd, State.redeeming]
    omega
  | revertRedeem key held =>
    have covered := exact.redeeming_le key held
    left
    simp only [State.exposureUsd, State.reverted]
    omega
  | markSent | releaseUnsent | release | recorded | finalizeRedeem | markReviewed | ignored
  | configured =>
    left
    simp only [State.exposureUsd, State.sent, State.setTicket, State.dropped, State.recorded,
      State.redeemed, State.reviewed]
    omega

theorem move_balanced (balanced : Balanced s) (move : Move s action after) : Balanced after := by
  refine ⟨move_exact balanced move, move_regular balanced.regular move, ?_⟩
  have fits := balanced.fits
  rcases move_exposure balanced.toExact move with lower | ⟨_, _, _, _, admitted, raised⟩
  · omega
  · exact raised ▸ admitted.fits

def accepts (s : State Key) (call : Call Key) (after : State Key) : Prop :=
  step s call = .ok after

theorem reachable_balanced (owner guardian : Address) (s : State Key)
    (reached : Reachable accepts (deployed owner guardian) s) : Balanced s :=
  reached.invariant (deployed_balanced owner guardian)
    (fun _ call _ balanced taken => move_balanced balanced (step_move _ _ call taken))

/-- Deployed by 1 with guardian 2, then bound to the hub 3 and the reward manager 4. -/
def bound : State Nat := { deployed 1 2 with hub := 3, rewardManager := 4 }

/-- The bound caps with one public reservation of asset 7. -/
def boundReserved : State Nat := bound.reserved 0 0 7 20

theorem bound_accepted : accepts (deployed 1 2) ⟨1, 0, .bind 3 4⟩ bound := rfl

theorem boundReserved_accepted : accepts bound ⟨3, 0, .reservePublicFor 0 7 20⟩ boundReserved := rfl

end Solonpad.Capacity
