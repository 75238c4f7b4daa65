import Solonpad.HubProgress
import Solonpad.HubResults

/-!
What a Bought result does to a buy that waits for it. The stock is minted, the unused reserve is paid back,
and the money held for the order leaves as late money.
-/

namespace Solonpad.Hub

open Checked Chain Messages

variable {c : Config} {s after : State} {env : Env} {id : Nat} {r : Result} {canonical : Bool}

/-- Who gets what is left of an order's own reserve. -/
def State.reserveTo (s : State) (id : Nat) : Address :=
  if (s.orders id).lane = 1 then s.roles.opsVault else (s.orders id).user

theorem sent_balance (s : State) (recipient : Address) (amount : Nat) :
    (s.sent c recipient amount).money.balance =
      if recipient = c.self then s.money.balance else s.money.balance - amount := by
  unfold State.sent
  split <;> rfl

theorem push_balance (s : State) (env : Env) (k id : Nat) (recipient : Address) (amount : Nat) :
    (push c s env k id recipient amount).money.balance =
      if env.accepts k = true ∧ amount ≤ s.money.balance then
        if recipient = c.self then s.money.balance else s.money.balance - amount
      else s.money.balance := by
  unfold push
  split
  · exact sent_balance s recipient amount
  · rfl

/-- A payment moves the balance by the balance, whatever else the hub holds. -/
theorem pay_balance {other : State} (balance : other.money.balance = s.money.balance)
    (roles : other.roles = s.roles) (env : Env) (k own id : Nat) (recipient : Address) (amount : Nat) :
    (pay c other env k own recipient amount false).money.balance =
      (pay c s env k id recipient amount false).money.balance := by
  unfold pay
  split
  · exact balance
  · simp only [push_balance, roles, balance, Bool.false_eq_true, if_false]

theorem pay_order (s : State) (env : Env) (k id : Nat) (recipient : Address) (amount : Nat) :
    ∃ debt, (pay c s env k id recipient amount false).orders id = (s.orders id).indebted debt := by
  obtain ⟨balance, debt, watch, paid, _⟩ := pay_spec (c := c) s env k id recipient amount false
  rw [paid]
  exact ⟨debt, Function.update_self ..⟩

theorem pay_frame (s : State) (env : Env) (k id : Nat) (recipient : Address) (amount : Nat) :
    (pay c s env k id recipient amount false).roles = s.roles ∧
      (pay c s env k id recipient amount false).arc = s.arc := by
  obtain ⟨balance, debt, watch, paid, _⟩ := pay_spec (c := c) s env k id recipient amount false
  rw [paid]
  exact ⟨rfl, rfl⟩

theorem lateTo_deal {other : State} {o next : Order} (roles : other.roles = s.roles) (deal : next.deal = o.deal)
    (outcome : next.outcome = o.outcome) (amount : Nat) : lateTo other next amount = lateTo s o amount := by
  obtain ⟨user, _, kind, amountIn, lane, _⟩ := deal_spec deal
  simp only [lateTo, roles, user, kind, amountIn, lane, outcome]

/-- Late money leaves in one payment, none if there is none. -/
theorem flushHeld_pays_late {k : Nat} (done : flushHeld c s env k id = .ok after) :
    ∃ middle : State, middle.roles = s.roles ∧ middle.arc = s.arc ∧ middle.money.balance = s.money.balance ∧
      (middle.orders id).deal = (s.orders id).deal ∧ (middle.orders id).phase = (s.orders id).phase ∧
      after = pay c middle env k id (lateTo s (s.orders id) (s.orders id).held) (s.orders id).held false := by
  simp only [flushHeld, ite_ok, bind_ok, pure_ok] at done
  rcases done with ⟨nothing, rfl⟩ | ⟨_, middle, freed, rfl⟩
  · refine ⟨s, rfl, rfl, rfl, rfl, rfl, ?_⟩
    rw [nothing, pay, if_pos rfl]
  · obtain ⟨_, same⟩ := (unescrow_ok _ middle _).mp freed
    have orders : middle.orders id = { s.orders id with held := 0 } := by
      rw [← same]
      exact Function.update_self ..
    have roles : middle.roles = s.roles := by rw [← same]; rfl
    have late : lateTo middle { s.orders id with held := 0 } (s.orders id).held =
        lateTo s (s.orders id) (s.orders id).held := lateTo_deal roles rfl rfl _
    rw [late]
    refine ⟨middle, roles, ?_, ?_, ?_, ?_, rfl⟩
    · rw [← same]
      rfl
    · rw [← same]
      rfl
    · rw [orders]
      rfl
    · rw [orders]
      rfl

/-- A reserve is paid back, then what is held. -/
theorem flushed_late {recipient : Address} {extra : Nat}
    (done : flushHeld c (pay c s env 0 id recipient extra false) env 1 id = .ok after) :
    ∃ middle : State, middle.roles = s.roles ∧ after.arc = s.arc ∧
      (after.orders id).deal = (s.orders id).deal ∧ (after.orders id).phase = (s.orders id).phase ∧
      middle.money.balance = (pay c s env 0 id recipient extra false).money.balance ∧
      after.money = (pay c middle env 1 id (lateTo s (s.orders id) (s.orders id).held)
        (s.orders id).held false).money := by
  obtain ⟨first, own⟩ := pay_order (c := c) s env 0 id recipient extra
  obtain ⟨roles, arc⟩ := pay_frame (c := c) s env 0 id recipient extra
  obtain ⟨middle, kept, coins, balance, deal, phase, rfl⟩ := flushHeld_pays_late done
  have late : lateTo (pay c s env 0 id recipient extra false)
      ((pay c s env 0 id recipient extra false).orders id) = lateTo s (s.orders id) :=
    funext fun amount => lateTo_deal roles (by rw [own]; rfl) (by rw [own]; rfl) amount
  have same : ((pay c s env 0 id recipient extra false).orders id).held = (s.orders id).held := by rw [own]; rfl
  rw [late, same]
  obtain ⟨second, paid⟩ := pay_order (c := c) middle env 1 id (lateTo s (s.orders id) (s.orders id).held)
    (s.orders id).held
  obtain ⟨_, minted⟩ := pay_frame (c := c) middle env 1 id (lateTo s (s.orders id) (s.orders id).held)
    (s.orders id).held
  refine ⟨middle, kept.trans roles, minted.trans (coins.trans arc), ?_, ?_, balance, rfl⟩
  · rw [paid]
    have dealt : (middle.orders id).deal = (s.orders id).deal := by rw [deal, own]; rfl
    exact dealt
  · rw [paid]
    have phased : (middle.orders id).phase = (s.orders id).phase := by rw [phase, own]; rfl
    exact phased

structure Fills (c : Config) (s : State) (env : Env) (id : Nat) (r : Result) (after : State) : Prop where
  minted : ∃ token, (s.arc (s.orders id).underlying).mint
      (if (s.orders id).lane = 1 then c.self else (s.orders id).user) r.amountOut = .ok token ∧
    after.arc = Function.update s.arc (s.orders id).underlying token
  filled : (after.orders id).status = .filled ∧ (after.orders id).outcome = some .bought
  deal : (after.orders id).deal = (s.orders id).deal
  flushed : ∃ middle : State, middle.roles = s.roles ∧
    middle.money.balance = (pay c s env 0 id (s.reserveTo id) (s.orders id).extra false).money.balance ∧
    after.money = (pay c middle env 1 id (lateTo middle (after.orders id) (s.orders id).held)
      (s.orders id).held false).money

theorem settleBought_fills {changed : Bool} (buy : (s.orders id).kind = .buy) (open' : unanswered (s.orders id))
    (done : settleBought c s env id r canonical = .ok (after, changed)) : Fills c s env id r after := by
  have live : ¬ (s.orders id).status = .cancelled := by
    obtain ⟨_, dispatched | ⟨_, escalated⟩⟩ := open' <;> simp [*]
  simp only [settleBought, ite_ok, bind_ok, pure_ok, unescrow_ok, removeOpen_ok, Prod.mk.injEq, not_not] at done
  rcases done with ⟨sell, _⟩ | ⟨_, ⟨⟨cancelled, _⟩, _⟩ | ⟨_, ⟨closed, _⟩ |
    ⟨_, middle, issued, _, ⟨fee, rfl⟩, _, ⟨left, rfl⟩, flushed, done, _, ⟨opened, _, rfl⟩, rfl, _⟩⟩⟩
  · exact absurd buy sell
  · exact absurd cancelled live
  · exact absurd open' closed
  · obtain ⟨watch, token, booked, reviewed, minted, _, _, rfl⟩ := issue_ok _ _ _ _ _ _ _ issued
    obtain ⟨before, roles, arc, deal, phase, balance, money⟩ := flushed_late done
    obtain ⟨settled, watched, reconciled, same, _⟩ := markSettled_spec
      { flushed with opened := opened } env.now id r.ref canonical
    simp only [State.set, State.accrue, Function.update_self] at arc deal phase balance money
    rw [same]
    obtain ⟨status, outcome, _⟩ := phase_spec phase
    refine ⟨⟨token, minted, arc⟩, ?_, ?_, before, roles, ?_, ?_⟩
    · simp only [Function.update_self]
      exact ⟨status, outcome⟩
    · simp only [Function.update_self]
      exact deal
    · exact balance.trans (pay_balance (by rfl) (by rfl) env 0 id id (s.reserveTo id) _)
    · refine Eq.trans money (congrArg (fun recipient => (pay c before env 1 id recipient _ false).money) ?_)
      refine lateTo_deal (by exact roles.symm) ?_ ?_ _
      · simp only [Function.update_self]
        exact deal.symm
      · simp only [Function.update_self]
        exact outcome.symm

end Solonpad.Hub
