import Solonpad.VaultMoves
import Solonpad.Transition

/-!
What the vault holds covers what it owes. The settlement balance covers the funding, the
proceeds and the claimable settlement booked for refs and accounts; the balance of every
other token covers its entitlement and its claimables. Both books are exact sums of
their entries.
-/

namespace Solonpad.Vault

open Checked Chain Messages RunningTotal Transition

variable {c : Config} {s after : State} {o : Order} {done : Executed} {call : Call}

/-! What one transfer does to a balance and to what is claimable. -/

theorem pay_spec (s : State) (token recipient : Address) (amount : Nat) :
    ∃ balanceOf, s.pay c token recipient amount = { s with balanceOf := balanceOf } ∧
      (∀ other, other ≠ token → balanceOf other = s.balanceOf other) ∧
      s.balanceOf token ≤ balanceOf token + amount := by
  unfold State.pay
  split
  · exact ⟨s.balanceOf, rfl, fun _ _ => rfl, by omega⟩
  · refine ⟨Function.update s.balanceOf token (s.balanceOf token - amount), rfl,
      fun other differs => by simp [differs], ?_⟩
    simp only [Function.update_self]
    omega

def State.owes (s : State) (token recipient : Address) (amount : Nat) : State :=
  { s with
    claimable := Function.update s.claimable token
      (Function.update (s.claimable token) recipient (s.claimable token recipient + amount))
    claimableTotal := Function.update s.claimableTotal token (s.claimableTotal token + amount) }

theorem push_cases (s : State) (token recipient : Address) (amount : Nat) (accepted : Bool) :
    amount = 0 ∧ push c s token recipient amount accepted = s ∨
      push c s token recipient amount accepted = s.pay c token recipient amount ∨
      push c s token recipient amount accepted = s.owes token recipient amount := by
  unfold push
  split
  · next none => exact .inl ⟨none, rfl⟩
  split
  · exact .inr (.inl rfl)
  · exact .inr (.inr rfl)

/-- A push leaves the other tokens alone, keeps the claimables exact and never eats into
a reserve the balance covered on top of the amount. -/
theorem push_spec (s : State) (token recipient : Address) (amount : Nat) (accepted : Bool) :
    ∃ balanceOf claimable claimableTotal, push c s token recipient amount accepted =
        { s with balanceOf := balanceOf, claimable := claimable, claimableTotal := claimableTotal } ∧
      (∀ other, other ≠ token → balanceOf other = s.balanceOf other ∧
        claimableTotal other = s.claimableTotal other) ∧
      (∀ reserve, reserve + s.claimableTotal token + amount ≤ s.balanceOf token →
        reserve + claimableTotal token ≤ balanceOf token) ∧
      ((∀ other, Totals (s.claimable other) (s.claimableTotal other)) →
        ∀ other, Totals (claimable other) (claimableTotal other)) := by
  rcases push_cases (c := c) s token recipient amount accepted with
    ⟨none, same⟩ | paid | owed
  · rw [same]
    exact ⟨s.balanceOf, s.claimable, s.claimableTotal, rfl, fun _ _ => ⟨rfl, rfl⟩,
      fun _ _ => by omega, fun exact => exact⟩
  · obtain ⟨balanceOf, moved, others, enough⟩ := pay_spec (c := c) s token recipient amount
    rw [paid, moved]
    exact ⟨balanceOf, s.claimable, s.claimableTotal, rfl,
      fun other differs => ⟨others other differs, rfl⟩, fun _ _ => by omega, fun exact => exact⟩
  · rw [owed]
    refine ⟨s.balanceOf, (s.owes token recipient amount).claimable,
      (s.owes token recipient amount).claimableTotal, rfl,
      fun other differs => by simp [State.owes, differs], fun _ covered => ?_, fun exact other => ?_⟩
    · simp only [State.owes, Function.update_self]
      omega
    · by_cases same : other = token
      · subst same
        simpa [State.owes] using (exact other).credit recipient amount
      · simpa [State.owes, same] using exact other

theorem tradedBalance_other (balanceOf : Address → Nat) {paid bought token : Address} (fill : Fill)
    (notPaid : token ≠ paid) (notBought : token ≠ bought) :
    tradedBalance balanceOf paid bought fill token = balanceOf token := by
  simp [tradedBalance, notPaid, notBought]

theorem Traded.paid {paid bought : Address} {amountIn minOut out : Nat} {fill : Fill}
    (traded : Traded s paid bought amountIn minOut fill out) (differ : paid ≠ bought) :
    s.balanceOf paid ≤ tradedBalance s.balanceOf paid bought fill paid + amountIn := by
  have allowed := traded.allowed
  simp only [tradedBalance, Function.update_of_ne differ, Function.update_self]
  omega

/-! The books. -/

structure Ledger (s : State) : Prop where
  funding : Totals s.funding s.fundingTotal
  proceeds : Totals s.proceeds s.proceedsTotal
  claimable : ∀ token, Totals (s.claimable token) (s.claimableTotal token)

theorem deployed_ledger (owner bridger : Address) : Ledger (deployed owner bridger) :=
  ⟨Totals.zero, Totals.zero, fun _ => Totals.zero⟩

theorem executes_ledger (ledger : Ledger s) (executes : Executes c s o done) : Ledger done.state := by
  cases executes with
  | failed => exact ledger
  | bought own fill shares listed buy positive covered =>
    exact ⟨ledger.funding.debit o.ref own covered, ledger.proceeds, ledger.claimable⟩
  | sold fill out => exact ⟨ledger.funding, ledger.proceeds.credit o.ref out, ledger.claimable⟩

theorem taken_ledger (ledger : Ledger s) (ref : Ref) : Ledger (s.taken ref) :=
  ⟨ledger.funding.update ref 0, ledger.proceeds.update ref 0, ledger.claimable⟩

theorem push_ledger (ledger : Ledger s) (token recipient : Address) (amount : Nat) (accepted : Bool) :
    Ledger (push c s token recipient amount accepted) := by
  obtain ⟨_, _, _, pushed, _, _, exact⟩ := push_spec (c := c) s token recipient amount accepted
  rw [pushed]
  exact ⟨ledger.funding, ledger.proceeds, exact ledger.claimable⟩

theorem pay_ledger (ledger : Ledger s) (token recipient : Address) (amount : Nat) :
    Ledger (s.pay c token recipient amount) := by
  obtain ⟨_, paid, _⟩ := pay_spec (c := c) s token recipient amount
  rw [paid]
  exact ⟨ledger.funding, ledger.proceeds, ledger.claimable⟩

/-- The books of a state that agrees on every book. -/
theorem Ledger.keep (ledger : Ledger s) (funding : after.funding = s.funding)
    (fundingTotal : after.fundingTotal = s.fundingTotal) (proceeds : after.proceeds = s.proceeds)
    (proceedsTotal : after.proceedsTotal = s.proceedsTotal) (claimable : after.claimable = s.claimable)
    (claimableTotal : after.claimableTotal = s.claimableTotal) : Ledger after := by
  refine ⟨?_, ?_, ?_⟩
  · rw [funding, fundingTotal]
    exact ledger.funding
  · rw [proceeds, proceedsTotal]
    exact ledger.proceeds
  · rw [claimable, claimableTotal]
    exact ledger.claimable

theorem handedOver_ledger (ledger : Ledger s) (d : Deliver) (accepted : Bool) : Ledger (s.handedOver c d accepted) :=
  (push_ledger (taken_ledger ledger d.ref) _ _ _ _).keep rfl rfl rfl rfl rfl rfl

theorem unclaimed_ledger (ledger : Ledger s) (sender token : Address) : Ledger (s.unclaimed sender token) := by
  refine ⟨ledger.funding, ledger.proceeds, fun other => ?_⟩
  by_cases same : other = token
  · subst same
    simpa [State.unclaimed] using (ledger.claimable other).update sender 0
  · simpa [State.unclaimed, same] using ledger.claimable other

theorem move_ledger (ledger : Ledger s) (move : Move c s call after) : Ledger after := by
  cases move with
  | answers _ o waiting _ done fee executes =>
    have before : Ledger ({ s with waiting := waiting }.settles o.ref) :=
      ledger.keep rfl rfl rfl rfl rfl rfl
    exact (executes_ledger before executes).keep rfl rfl rfl rfl rfl rfl
  | funded sender _ ref _ got =>
    exact ⟨ledger.funding.credit ref _, ledger.proceeds, ledger.claimable⟩
  | returned _ _ ref => exact (taken_ledger ledger ref).keep rfl rfl rfl rfl rfl rfl
  | handsOver _ _ d => exact handedOver_ledger ledger d _
  | closesUnanswered _ _ d =>
    have before : Ledger (s.closed d.ref d.underlying .failed 0) :=
      ledger.keep rfl rfl rfl rfl rfl rfl
    exact handedOver_ledger before d _
  | deliversStock _ _ d =>
    have before : Ledger (s.delivering d) := ledger.keep rfl rfl rfl rfl rfl rfl
    exact (push_ledger before _ _ _ _).keep rfl rfl rfl rfl rfl rfl
  | deliversSale _ _ d fill =>
    have before : Ledger ((s.delivering d).traded d.underlying c.settlement fill) :=
      ledger.keep rfl rfl rfl rfl rfl rfl
    exact (push_ledger before _ _ _ _).keep rfl rfl rfl rfl rfl rfl
  | claimed sender _ token => exact pay_ledger (unclaimed_ledger ledger sender token) _ _ _
  | withdraws | skims => exact pay_ledger ledger _ _ _
  | ignored | waits | checkpoints | withdrawsNative | migrates | lists | enables | configured
  | donated | received => exact ledger.keep rfl rfl rfl rfl rfl rfl

/-! Settlement. -/

def Solvent (c : Config) (s : State) : Prop :=
  s.settlementLiabilities c ≤ s.balanceOf c.settlement

theorem executes_solvent (solvent : Solvent c s) (unlisted : ¬ s.listed c.settlement)
    (executes : Executes c s o done) : Solvent c done.state := by
  simp only [Solvent, State.settlementLiabilities] at solvent ⊢
  cases executes with
  | failed => exact solvent
  | bought own fill shares listed buy positive covered part total advance traded =>
    have differ : c.settlement ≠ o.underlying := fun same => unlisted (same ▸ listed)
    have paid := traded.paid differ
    simp only [State.freeSettlement, State.settlementLiabilities] at advance
    simp only [State.bought]
    omega
  | sold fill out listed sell positive covered traded =>
    have landed := traded.landed
    simp only [State.sold]
    omega

/-- Handing a ref's money over moves a liability, it does not add one. -/
theorem handedOver_solvent (ledger : Ledger s) (solvent : Solvent c s) (d : Deliver) (accepted : Bool) :
    Solvent c (s.handedOver c d accepted) := by
  have funding := ledger.funding.entry_le d.ref
  have proceeds := ledger.proceeds.entry_le d.ref
  obtain ⟨_, _, _, pushed, _, covered, _⟩ := push_spec (c := c) (s.taken d.ref) c.settlement
    d.recipient (s.funding d.ref + s.proceeds d.ref) accepted
  simp only [Solvent, State.settlementLiabilities] at solvent ⊢
  have enough := covered (s.fundingTotal - s.funding d.ref + (s.proceedsTotal - s.proceeds d.ref))
  simp only [State.handedOver, handOver, pushed, State.log]
  simp only [State.taken] at enough ⊢
  omega

theorem move_solvent (ledger : Ledger s) (solvent : Solvent c s) (unlisted : ¬ s.listed c.settlement)
    (move : Move c s call after) : Solvent c after := by
  cases move with
  | answers _ o waiting _ done fee executes =>
    exact executes_solvent (by exact solvent) (by exact unlisted) executes
  | funded sender _ ref _ got =>
    simp only [Solvent, State.settlementLiabilities, State.funded, Function.update_self] at solvent ⊢
    omega
  | returned _ _ ref pulled answered owed held =>
    have funding := ledger.funding.entry_le ref
    have proceeds := ledger.proceeds.entry_le ref
    simp only [Solvent, State.settlementLiabilities, State.returned, Function.update_self] at solvent ⊢
    omega
  | handsOver _ _ d => exact handedOver_solvent ledger solvent d _
  | closesUnanswered _ _ d =>
    have before : Ledger (s.closed d.ref d.underlying .failed 0) :=
      ledger.keep rfl rfl rfl rfl rfl rfl
    exact handedOver_solvent before solvent d _
  | deliversStock _ _ d _ accepted unanswered some listed =>
    have differ : c.settlement ≠ d.underlying := fun same => unlisted (same ▸ listed)
    obtain ⟨_, _, _, pushed, others, _⟩ := push_spec (c := c) (s.delivering d) d.underlying
      d.recipient d.shares accepted
    have ⟨balance, claimable⟩ := others c.settlement differ
    simp only [Solvent, State.settlementLiabilities, State.deliveredStock, pushed, State.log,
      balance, claimable]
    exact solvent
  | deliversSale _ _ d fill out accepted unanswered some listed covered mode traded =>
    obtain ⟨_, _, _, pushed, _, covered, _⟩ := push_spec (c := c)
      ((s.delivering d).traded d.underlying c.settlement fill) c.settlement d.recipient out accepted
    have landed := traded.landed
    have enough := covered (s.fundingTotal + s.proceedsTotal)
    simp only [Solvent, State.settlementLiabilities] at solvent
    simp only [Solvent, State.settlementLiabilities, State.deliveredSale, pushed, State.log]
    simp only [State.traded, State.delivering] at landed enough ⊢
    exact enough (by omega)
  | claimed sender _ token =>
    have total := (ledger.claimable token).entry_le sender
    obtain ⟨_, paid, others, enough⟩ := pay_spec (c := c) (s.unclaimed sender token) token sender
      (s.claimable token sender)
    simp only [Solvent, State.settlementLiabilities] at solvent ⊢
    simp only [State.claimed, paid]
    simp only [State.unclaimed] at others enough ⊢
    by_cases same : c.settlement = token
    · subst same
      simp only [Function.update_self]
      omega
    · rw [others c.settlement same, Function.update_of_ne same]
      exact solvent
  | withdraws _ _ token recipient amount _ _ free =>
    obtain ⟨_, paid, others, enough⟩ := pay_spec (c := c) s token recipient amount
    simp only [Solvent, State.settlementLiabilities] at solvent ⊢
    simp only [State.freeSettlement, State.settlementLiabilities] at free
    simp only [paid]
    by_cases same : c.settlement = token
    · subst same
      have := free rfl
      omega
    · rw [others c.settlement same]
      exact solvent
  | migrates _ _ underlying settlementIn minShares fill shares listed free traded =>
    have differ : c.settlement ≠ underlying := fun same => unlisted (same ▸ listed)
    have paid := traded.paid differ
    simp only [Solvent, State.settlementLiabilities] at solvent ⊢
    simp only [State.freeSettlement, State.settlementLiabilities] at free
    simp only [State.migrated]
    omega
  | skims _ _ underlying _ listed =>
    have differ : c.settlement ≠ underlying := fun same => unlisted (same ▸ listed)
    obtain ⟨_, paid, others, _⟩ := pay_spec (c := c) s underlying c.treasury
      (s.balanceOf underlying - (s.entitledOf underlying + s.claimableTotal underlying))
    simp only [Solvent, State.settlementLiabilities, paid, others c.settlement differ]
    exact solvent
  | donated _ _ token amount =>
    simp only [Solvent, State.settlementLiabilities] at solvent ⊢
    by_cases same : c.settlement = token
    · subst same
      simp only [Function.update_self]
      omega
    · simpa [same] using solvent
  | ignored | waits | checkpoints | withdrawsNative | lists | enables | configured | received =>
    exact solvent

/-! Listings are permanent. -/

theorem executes_listings (executes : Executes c s o done) : done.state.listings = s.listings := by
  cases executes with
  | failed | bought | sold => rfl

theorem pay_listings (s : State) (token recipient : Address) (amount : Nat) :
    (s.pay c token recipient amount).listings = s.listings := by
  obtain ⟨_, paid, _⟩ := pay_spec (c := c) s token recipient amount
  rw [paid]

theorem push_listings (s : State) (token recipient : Address) (amount : Nat) (accepted : Bool) :
    (push c s token recipient amount accepted).listings = s.listings := by
  obtain ⟨_, _, _, pushed, _⟩ := push_spec (c := c) s token recipient amount accepted
  rw [pushed]

theorem move_listings (move : Move c s call after) :
    after.listings = s.listings ∨
      (∃ underlying supported, underlying ≠ 0 ∧ call.action = .listStock underlying supported ∧
        after.listings = Function.update s.listings underlying ⟨underlying, true⟩) ∨
      ∃ underlying enabled, after.listings =
        Function.update s.listings underlying { s.listings underlying with enabled := enabled } := by
  cases move with
  | answers _ o waiting _ done fee executes =>
    have same := executes_listings executes
    exact .inl same
  | handsOver _ _ d | closesUnanswered _ _ d | deliversStock _ _ d | deliversSale _ _ d =>
    exact .inl (push_listings _ _ _ _ _)
  | claimed | withdraws | skims => exact .inl (pay_listings _ _ _ _)
  | lists _ _ underlying supported real =>
    exact .inr (.inl ⟨underlying, supported, real, rfl, rfl⟩)
  | enables _ _ underlying enabled => exact .inr (.inr ⟨underlying, enabled, rfl⟩)
  | ignored | waits | funded | returned | checkpoints | withdrawsNative | migrates | configured
  | donated | received => exact .inl rfl

theorem move_listed (move : Move c s call after) (underlying : Address) :
    (s.listed underlying → after.listed underlying) ∧
      (after.listed underlying → s.listed underlying ∨
        ∃ supported, call.action = .listStock underlying supported) := by
  simp only [State.listed]
  rcases move_listings move with same | ⟨named, supported, real, action, listings⟩ |
    ⟨named, enabled, listings⟩
  · rw [same]
    exact ⟨id, .inl⟩
  · rw [listings]
    by_cases here : underlying = named
    · subst here
      exact ⟨fun _ => by simpa using real, fun _ => .inr ⟨supported, action⟩⟩
    · simp only [Function.update_of_ne here]
      exact ⟨id, .inl⟩
  · rw [listings]
    by_cases here : underlying = named
    · subst here
      simp only [Function.update_self]
      exact ⟨id, .inl⟩
    · simp only [Function.update_of_ne here]
      exact ⟨id, .inl⟩

def Action.lists (token : Address) : Action → Bool
  | .listStock underlying _ => decide (underlying = token)
  | _ => false

/-- No call lists the settlement token as a stock. -/
def keepsSettlement (c : Config) (_ : State) (call : Call) : Prop :=
  call.action.lists c.settlement = false

instance (s : State) (call : Call) : Decidable (keepsSettlement c s call) :=
  inferInstanceAs (Decidable (_ = _))

structure Custody (c : Config) (s : State) : Prop where
  ledger : Ledger s
  solvent : Solvent c s
  unlisted : ¬ s.listed c.settlement

theorem move_custody (custody : Custody c s) (kept : keepsSettlement c s call) (move : Move c s call after) :
    Custody c after := by
  refine ⟨move_ledger custody.ledger move,
    move_solvent custody.ledger custody.solvent custody.unlisted move, fun listed => ?_⟩
  rcases (move_listed move c.settlement).2 listed with already | ⟨supported, action⟩
  · exact custody.unlisted already
  · rw [keepsSettlement, action] at kept
    simp [Action.lists] at kept

theorem settlement_solvent (owner bridger : Address) (s : State)
    (reached : Reachable (restrict (accepts c) (keepsSettlement c)) (deployed owner bridger) s) :
    s.fundingTotal + s.proceedsTotal + s.claimableTotal c.settlement ≤ s.balanceOf c.settlement ∧
      Totals s.funding s.fundingTotal ∧ Totals s.proceeds s.proceedsTotal ∧
      Totals (s.claimable c.settlement) (s.claimableTotal c.settlement) := by
  have initially : Custody c (deployed owner bridger) :=
    ⟨deployed_ledger owner bridger, Nat.le_refl 0, fun listed => listed rfl⟩
  have custody : Custody c s := reached.invariant initially
    (fun before call after kept taken =>
      move_custody kept taken.1 (step_move c before after call taken.2))
  exact ⟨custody.solvent, custody.ledger.funding, custody.ledger.proceeds,
    custody.ledger.claimable c.settlement⟩

/-- The vault 100 with settlement token 7. -/
def sample : Config := ⟨100, 7, 1, 50, 51, 52⟩

/-- Stock 8 is listed and bought once out of money paid in for the order, of which 5 is left. -/
def boughtOnce : List Call :=
  [⟨1, 0, .listStock 8 true⟩, ⟨9, 0, .fund (.order 0) 25 25⟩,
    ⟨9, 0, .lzReceive 1 ⟨.order 0, 8, .buy, 20, 3⟩ (some ⟨20, 4, 4⟩) 0⟩]

theorem settlement_solvent_bought :
    ∃ s, Reachable (restrict (accepts sample) (keepsSettlement sample)) (deployed 1 2) s ∧
      s.fundingTotal = 5 ∧
      s.fundingTotal + s.proceedsTotal + s.claimableTotal 7 ≤ s.balanceOf 7 := by
  obtain ⟨s, reached, passed⟩ := run_passes (step sample) (keepsSettlement sample) boughtOnce
    (deployed 1 2) (fun s => decide (s.fundingTotal = 5)) (by decide)
  exact ⟨s, reached, by simpa using passed, (settlement_solvent 1 2 s reached).1⟩

/-! Stock. -/

/-- Every token but the settlement covers its entitlement and its claimables; one that is
not listed has neither. -/
structure Backed (c : Config) (s : State) : Prop where
  covered : ∀ token, token ≠ c.settlement →
    s.entitledOf token + s.claimableTotal token ≤ s.balanceOf token
  unlisted : ∀ token, token ≠ c.settlement → ¬ s.listed token →
    s.entitledOf token = 0 ∧ s.claimableTotal token = 0

theorem executes_backed (backed : Backed c s) (executes : Executes c s o done) : Backed c done.state := by
  cases executes with
  | failed => exact backed
  | bought own fill shares listed buy positive covered part total advance traded =>
    refine ⟨fun token other => ?_, fun token other unlisted => ?_⟩
    · have before := backed.covered token other
      by_cases same : token = o.underlying
      · subst same
        have landed := traded.landed
        simp only [State.bought, Function.update_self]
        omega
      · simp only [State.bought, Function.update_of_ne same,
          tradedBalance_other s.balanceOf fill other same]
        exact before
    · have differ : token ≠ o.underlying := fun same => unlisted (same ▸ listed)
      simpa [State.bought, differ] using backed.unlisted token other unlisted
  | sold fill out listed sell positive covered traded =>
    refine ⟨fun token other => ?_, fun token other unlisted => ?_⟩
    · have before := backed.covered token other
      by_cases same : token = o.underlying
      · subst same
        have paid := traded.paid other
        simp only [State.sold, Function.update_self]
        omega
      · simp only [State.sold, Function.update_of_ne same,
          tradedBalance_other s.balanceOf fill same other]
        exact before
    · have differ : token ≠ o.underlying := fun same => unlisted (same ▸ listed)
      simpa [State.sold, differ] using backed.unlisted token other unlisted

/-- What a push may use up: the amount on top of a reserve its own token covers. -/
theorem push_backed (token recipient : Address) (amount : Nat) (accepted : Bool)
    (covered : ∀ other, other ≠ c.settlement → s.entitledOf other + s.claimableTotal other +
      (if other = token then amount else 0) ≤ s.balanceOf other)
    (unlisted : ∀ other, other ≠ c.settlement → ¬ s.listed other → s.entitledOf other = 0 ∧ s.claimableTotal other = 0)
    (listed : token = c.settlement ∨ s.listed token) : Backed c (push c s token recipient amount accepted) := by
  obtain ⟨_, _, _, pushed, others, enough, _⟩ := push_spec (c := c) s token recipient amount accepted
  rw [pushed]
  refine ⟨fun other stock => ?_, fun other stock free => ?_⟩
  · have before := covered other stock
    by_cases same : other = token
    · subst same
      simp only [if_true] at before
      exact enough _ before
    · have ⟨balance, claimable⟩ := others other same
      simp only [if_neg same] at before
      simp only [balance, claimable]
      omega
  · have differ : other ≠ token := by
      rintro rfl
      rcases listed with settlement | listed
      · exact stock settlement
      · exact free listed
    simp only [(others other differ).2]
    exact unlisted other stock free

theorem pay_backed (token recipient : Address) (amount : Nat)
    (covered : ∀ other, other ≠ c.settlement → s.entitledOf other + s.claimableTotal other +
      (if other = token then amount else 0) ≤ s.balanceOf other)
    (unlisted : ∀ other, other ≠ c.settlement → ¬ s.listed other →
      s.entitledOf other = 0 ∧ s.claimableTotal other = 0) : Backed c (s.pay c token recipient amount) := by
  obtain ⟨_, paid, others, enough⟩ := pay_spec (c := c) s token recipient amount
  rw [paid]
  refine ⟨fun other stock => ?_, unlisted⟩
  have before := covered other stock
  by_cases same : other = token
  · subst same
    simp only [if_true] at before
    simp only []
    omega
  · simp only [if_neg same] at before
    simp only [others other same]
    omega

theorem move_backed (ledger : Ledger s) (backed : Backed c s) (move : Move c s call after) : Backed c after := by
  have covered := backed.covered
  have unlisted := backed.unlisted
  cases move with
  | answers _ o waiting _ done fee executes =>
    have before : Backed c ({ s with waiting := waiting }.settles o.ref) := ⟨covered, unlisted⟩
    have executed := executes_backed before executes
    exact ⟨executed.covered, executed.unlisted⟩
  | funded sender _ ref _ got =>
    refine ⟨fun token stock => ?_, unlisted⟩
    simpa [State.funded, stock] using covered token stock
  | returned _ _ ref pulled =>
    refine ⟨fun token stock => ?_, unlisted⟩
    simpa [State.returned, stock] using covered token stock
  | handsOver _ _ d _ accepted =>
    have pushed : Backed c (push c (s.taken d.ref) c.settlement d.recipient
        (s.funding d.ref + s.proceeds d.ref) accepted) := by
      refine push_backed _ _ _ _ (fun token stock => ?_) unlisted (.inl rfl)
      rw [if_neg stock]
      exact covered token stock
    exact ⟨pushed.covered, pushed.unlisted⟩
  | closesUnanswered _ _ d _ accepted =>
    have pushed : Backed c (push c ((s.closed d.ref d.underlying .failed 0).taken d.ref)
        c.settlement d.recipient (s.funding d.ref + s.proceeds d.ref) accepted) := by
      refine push_backed _ _ _ _ (fun token stock => ?_) unlisted (.inl rfl)
      rw [if_neg stock]
      exact covered token stock
    exact ⟨pushed.covered, pushed.unlisted⟩
  | deliversStock _ _ d _ accepted unanswered some listed entitled =>
    have pushed : Backed c (push c (s.delivering d) d.underlying d.recipient d.shares accepted) := by
      refine push_backed _ _ _ _ (fun token stock => ?_) (fun token stock free => ?_) (.inr listed)
      · have before := covered token stock
        simp only [State.delivering, Function.update_apply]
        split
        · next same => subst same; omega
        · omega
      · have differ : token ≠ d.underlying := fun same => free (same ▸ listed)
        simpa [State.delivering, differ] using unlisted token stock free
    exact ⟨pushed.covered, pushed.unlisted⟩
  | deliversSale _ _ d fill out accepted unanswered some listed entitled mode traded =>
    have pushed : Backed c (push c ((s.delivering d).traded d.underlying c.settlement fill)
        c.settlement d.recipient out accepted) := by
      refine push_backed _ _ _ _ (fun token stock => ?_) (fun token stock free => ?_) (.inl rfl)
      · have before := covered token stock
        rw [if_neg stock]
        by_cases same : token = d.underlying
        · subst same
          have paid := traded.paid stock
          simp only [State.traded, State.delivering, Function.update_self] at paid ⊢
          omega
        · simpa [State.traded, State.delivering, same, tradedBalance_other _ fill same stock]
            using before
      · have differ : token ≠ d.underlying := fun same => free (same ▸ listed)
        simpa [State.delivering, State.traded, differ] using unlisted token stock free
    exact ⟨pushed.covered, pushed.unlisted⟩
  | claimed sender _ token _ held =>
    refine pay_backed _ _ _ (fun other stock => ?_) (fun other stock free => ?_)
    · have before := covered other stock
      have total := (ledger.claimable token).entry_le sender
      simp only [State.unclaimed, Function.update_apply]
      split
      · next same => subst same; omega
      · omega
    · have none := unlisted other stock free
      refine ⟨none.1, ?_⟩
      simp only [State.unclaimed, Function.update_apply]
      split
      · next same => subst same; omega
      · exact none.2
  | withdraws _ _ token recipient amount _ free _ held =>
    refine pay_backed _ _ _ (fun other stock => ?_) unlisted
    have before := covered other stock
    split
    · next same =>
      subst same
      have none := unlisted other stock free
      omega
    · omega
  | migrates _ _ underlying settlementIn minShares fill shares listed free traded =>
    refine ⟨fun token stock => ?_, fun token stock free => ?_⟩
    · have before := covered token stock
      by_cases same : token = underlying
      · subst same
        have landed := traded.landed
        simp only [State.migrated, Function.update_self]
        omega
      · simp only [State.migrated, Function.update_of_ne same,
          tradedBalance_other s.balanceOf fill stock same]
        exact before
    · have differ : token ≠ underlying := fun same => free (same ▸ listed)
      simpa [State.migrated, differ] using unlisted token stock free
  | skims _ _ underlying _ listed =>
    refine pay_backed _ _ _ (fun token stock => ?_) unlisted
    have before := covered token stock
    split
    · next same => subst same; omega
    · omega
  | donated _ _ token amount =>
    refine ⟨fun other stock => ?_, unlisted⟩
    have before := covered other stock
    simp only [Function.update_apply]
    split
    · next same => subst same; omega
    · exact before
  | lists _ _ underlying supported real =>
    refine ⟨covered, fun token stock free => unlisted token stock (fun listed => free ?_)⟩
    exact (move_listed (.lists (c := c) 0 0 underlying supported real) token).1 listed
  | enables _ _ underlying enabled =>
    refine ⟨covered, fun token stock free => unlisted token stock (fun listed => free ?_)⟩
    exact (move_listed (.enables (c := c) 0 0 underlying enabled) token).1 listed
  | ignored | waits | checkpoints | withdrawsNative | configured | received =>
    exact ⟨covered, unlisted⟩

theorem stock_backed (owner bridger : Address) (s : State)
    (reached : Reachable (accepts c) (deployed owner bridger) s) (underlying : Address)
    (stock : underlying ≠ c.settlement) :
    s.entitledOf underlying + s.claimableTotal underlying ≤ s.balanceOf underlying ∧
      Totals (s.claimable underlying) (s.claimableTotal underlying) := by
  have initially : Ledger (deployed owner bridger) ∧ Backed c (deployed owner bridger) :=
    ⟨deployed_ledger owner bridger, fun _ _ => Nat.le_refl 0, fun _ _ _ => ⟨rfl, rfl⟩⟩
  have ⟨ledger, backed⟩ : Ledger s ∧ Backed c s := by
    induction reached with
    | start => exact initially
    | next _ taken ih =>
      have move := step_move c _ _ _ taken
      exact ⟨move_ledger ih.1 move, move_backed ih.1 ih.2 move⟩
  exact ⟨backed.covered underlying stock, ledger.claimable underlying⟩

theorem stock_backed_bought : ∃ s, Reachable (accepts sample) (deployed 1 2) s ∧
    s.entitledOf 8 = 4 ∧ s.entitledOf 8 + s.claimableTotal 8 ≤ s.balanceOf 8 := by
  obtain ⟨s, reached, passed⟩ := run_passes (step sample) (fun _ _ => True) boughtOnce
    (deployed 1 2) (fun s => decide (s.entitledOf 8 = 4)) (by decide)
  have reached := reached.unrestricted
  exact ⟨s, reached, by simpa using passed, (stock_backed 1 2 s reached 8 (by decide)).1⟩

/-- Were the settlement token itself listed, the float could be spent out of its backing. -/
theorem listed_settlement_drained : ∃ s, Reachable (accepts sample) (deployed 1 2) s ∧
    s.listed 7 ∧ s.balanceOf 7 < s.entitledOf 7 + s.claimableTotal 7 := by
  have ran := run_passes (step sample) (fun _ _ => True)
    [⟨1, 0, .listStock 7 true⟩, ⟨1, 0, .listStock 8 true⟩, ⟨1, 0, .setFloatEnabled true⟩,
      ⟨9, 0, .fund (.order 0) 10 10⟩,
      ⟨9, 0, .lzReceive 1 ⟨.order 0, 7, .buy, 10, 0⟩ (some ⟨10, 20, 10⟩) 0⟩,
      ⟨9, 0, .lzReceive 1 ⟨.order 1, 8, .buy, 20, 0⟩ (some ⟨20, 5, 5⟩) 0⟩]
    (deployed 1 2)
    (fun s => decide (s.listed 7 ∧ s.balanceOf 7 < s.entitledOf 7 + s.claimableTotal 7)) (by decide)
  obtain ⟨s, reached, drained⟩ := ran
  exact ⟨s, reached.unrestricted, by simpa using drained⟩

end Solonpad.Vault
