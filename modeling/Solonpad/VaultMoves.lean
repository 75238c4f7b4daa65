import Solonpad.ReserveVault

/-!
Everything an accepted call of the reserve vault can do, said once: what a trade and an
execution can lead to, then one move for each way a call ends.
-/

namespace Solonpad.Vault

open Checked Chain Messages

variable (c : Config)

/-! The states the operations lead to. -/

def tradedBalance (balanceOf : Address → Nat) (paid bought : Address) (fill : Fill) : Address → Nat :=
  let balanceOf := Function.update balanceOf paid (balanceOf paid - fill.pulled)
  Function.update balanceOf bought (balanceOf bought + fill.delivered)

def State.traded (s : State) (paid bought : Address) (fill : Fill) : State :=
  { s with balanceOf := tradedBalance s.balanceOf paid bought fill }

/-- A trade the vault accepted: within its allowance and its balance, and never credited for
more than landed. -/
structure Traded (s : State) (paid bought : Address) (amountIn minOut : Nat) (fill : Fill)
    (out : Nat) : Prop where
  allowed : fill.pulled ≤ amountIn
  held : fill.pulled ≤ s.balanceOf paid
  landed : s.balanceOf bought + out ≤ tradedBalance s.balanceOf paid bought fill bought
  floor : minOut ≤ out

def State.spent (s : State) (o : Order) (own : Nat) : State :=
  { s with
    funding := Function.update s.funding o.ref (s.funding o.ref - own)
    fundingTotal := s.fundingTotal - own
    advanced := Function.update s.advanced o.ref (s.advanced o.ref + (o.amountIn - own)) }

def State.bought (s : State) (o : Order) (own : Nat) (fill : Fill) (shares : Nat) : State :=
  { s with
    funding := Function.update s.funding o.ref (s.funding o.ref - own)
    fundingTotal := s.fundingTotal - own
    advanced := Function.update s.advanced o.ref (s.advanced o.ref + (o.amountIn - own))
    balanceOf := tradedBalance s.balanceOf c.settlement o.underlying fill
    entitledOf := Function.update s.entitledOf o.underlying (s.entitledOf o.underlying + shares) }

def State.sold (s : State) (o : Order) (fill : Fill) (out : Nat) : State :=
  { s with
    balanceOf := tradedBalance s.balanceOf o.underlying c.settlement fill
    entitledOf := Function.update s.entitledOf o.underlying (s.entitledOf o.underlying - o.amountIn)
    proceeds := Function.update s.proceeds o.ref (s.proceeds o.ref + out)
    proceedsTotal := s.proceedsTotal + out }

def State.settles (s : State) (ref : Ref) : State :=
  { s with settled := Function.update s.settled ref true }

def Executed.answered (done : Executed) (o : Order) (fee : Nat) : State :=
  let s := done.state
  let seq := toUint64 s.results.length
  let r : Result := ⟨o.ref, o.underlying, done.outcome, o.amountIn, done.amountOut, seq⟩
  { s with
    results := s.results ++ [r]
    outbox := s.outbox ++ [r]
    native := s.native - fee
    events := s.events ++ [.orderExecuted o.ref o.underlying done.outcome o.amountIn done.amountOut
      seq done.reason] }

def State.waits (s : State) (o : Order) : State :=
  { s with
    waiting := Function.update s.waiting o.ref o
    events := s.events ++ [.orderWaitingFunds o.ref o.amountIn (s.funding o.ref)] }

def State.funded (s : State) (sender : Address) (ref : Ref) (got : Nat) : State :=
  let toFloat := min (s.advanced ref) got
  { s with
    balanceOf := Function.update s.balanceOf c.settlement (s.balanceOf c.settlement + got)
    advanced := Function.update s.advanced ref (s.advanced ref - toFloat)
    funding := Function.update s.funding ref (s.funding ref + (got - toFloat))
    fundingTotal := s.fundingTotal + (got - toFloat)
    events := s.events ++ [.funded ref sender got toFloat] }

def State.taken (s : State) (ref : Ref) : State :=
  { s with
    funding := Function.update s.funding ref 0
    fundingTotal := s.fundingTotal - s.funding ref
    proceeds := Function.update s.proceeds ref 0
    proceedsTotal := s.proceedsTotal - s.proceeds ref }

def State.returned (s : State) (ref : Ref) (pulled : Nat) : State :=
  { s with
    funding := Function.update s.funding ref 0
    fundingTotal := s.fundingTotal - s.funding ref
    proceeds := Function.update s.proceeds ref 0
    proceedsTotal := s.proceedsTotal - s.proceeds ref
    balanceOf := Function.update s.balanceOf c.settlement (s.balanceOf c.settlement - pulled)
    events := s.events ++ [.fundsReturned ref (s.funding ref) (s.proceeds ref)] }

def State.handedOver (s : State) (d : Deliver) (accepted : Bool) : State :=
  handOver c ⟨s.taken d.ref, s.funding d.ref, s.proceeds d.ref⟩ d accepted

/-- A ref that the canonical lane closes before the vault answered it, with the record it leaves. -/
def State.closed (s : State) (ref : Ref) (underlying : Address) (outcome : Outcome)
    (amountIn : Nat) : State :=
  { s with
    settled := Function.update s.settled ref true
    waiting := Function.update s.waiting ref Order.blank
    results := s.results ++
      [⟨ref, underlying, outcome, amountIn, 0, toUint64 s.results.length⟩] }

/-- A canonical delivery leaves the entitlement and the log before anything moves. -/
def State.delivering (s : State) (d : Deliver) : State :=
  { s with
    settled := Function.update s.settled d.ref true
    waiting := Function.update s.waiting d.ref Order.blank
    entitledOf := Function.update s.entitledOf d.underlying (s.entitledOf d.underlying - d.shares)
    results := s.results ++
      [⟨d.ref, d.underlying, .sold, d.shares, 0, toUint64 s.results.length⟩] }

def State.deliveredStock (s : State) (d : Deliver) (accepted : Bool) : State :=
  (push c (s.delivering d) d.underlying d.recipient d.shares accepted).log
    (.delivered d.ref d.underlying d.recipient .stock d.shares)

def State.deliveredSale (s : State) (d : Deliver) (fill : Fill) (out : Nat) (accepted : Bool) :
    State :=
  (push c ((s.delivering d).traded d.underlying c.settlement fill) c.settlement d.recipient out
    accepted).log (.delivered d.ref d.underlying d.recipient .settlement out)

def State.unclaimed (s : State) (sender token : Address) : State :=
  { s with
    claimable := Function.update s.claimable token (Function.update (s.claimable token) sender 0)
    claimableTotal := Function.update s.claimableTotal token
      (s.claimableTotal token - s.claimable token sender) }

def State.claimed (s : State) (sender token : Address) : State :=
  (s.unclaimed sender token).pay c token sender (s.claimable token sender)

def State.migrated (s : State) (underlying : Address) (settlementIn shares : Nat) (fill : Fill) :
    State :=
  { s with
    balanceOf := tradedBalance s.balanceOf c.settlement underlying fill
    entitledOf := Function.update s.entitledOf underlying (s.entitledOf underlying + shares)
    migrationNonce := Function.update s.migrationNonce underlying (s.migrationNonce underlying + 1)
    results := s.results ++ [⟨.migration underlying (s.migrationNonce underlying), underlying, .bought,
      toUint128 settlementIn, toUint128 shares, toUint64 s.results.length⟩] }

def State.enables (s : State) (underlying : Address) (enabled : Bool) : State :=
  let listing := { s.listings underlying with enabled := enabled }
  { s with listings := Function.update s.listings underlying listing }

/-! Trades and executions. -/

theorem trade_ok (s after : State) (paid bought : Address) (amountIn minOut out : Nat)
    (filled : Option Fill) (done : trade s paid bought amountIn minOut filled = .ok (after, out)) :
    ∃ fill, filled = some fill ∧ Traded s paid bought amountIn minOut fill out ∧
      after = s.traded paid bought fill := by
  cases filled with
  | none => simp [trade, throw_ok] at done
  | some fill =>
    simp only [trade, bind_ok, require_ok, sub_ok, pure_ok, Prod.mk.injEq] at done
    obtain ⟨_, ⟨allowed, held⟩, _, ⟨landed, rfl⟩, _, floor, rfl, rfl⟩ := done
    refine ⟨fill, rfl, ⟨allowed, held, ?_, by omega⟩, rfl⟩
    simp only [tradedBalance]
    split <;> omega

inductive Executes (s : State) (o : Order) : Executed → Prop where
  | failed (reason : String) : Executes s o (failed s reason)
  | bought (own : Nat) (fill : Fill) (shares : Nat) (listed : s.listed o.underlying)
      (buy : o.side = .buy) (positive : o.amountIn ≠ 0)
      (covered : own ≤ s.funding o.ref) (part : own ≤ o.amountIn) (total : own ≤ s.fundingTotal)
      (advance : own = o.amountIn ∨ s.floatEnabled = true ∧ o.amountIn - own ≤ s.freeSettlement c)
      (traded : Traded s c.settlement o.underlying o.amountIn o.minOut fill shares) :
      Executes s o ⟨s.bought c o own fill shares, .bought, toUint128 shares, ""⟩
  | sold (fill : Fill) (out : Nat) (listed : s.listed o.underlying) (sell : o.side = .sell)
      (positive : o.amountIn ≠ 0) (covered : o.amountIn ≤ s.entitledOf o.underlying)
      (traded : Traded s o.underlying c.settlement o.amountIn o.minOut fill out) :
      Executes s o ⟨s.sold c o fill out, .sold, toUint128 out, ""⟩

/-- Money that was set aside for a buy the venue refused is back where it was. -/
theorem refund_spent (s : State) (o : Order) (own : Nat) (covered : own ≤ s.funding o.ref)
    (total : own ≤ s.fundingTotal) : { s.spent o own with
      funding := Function.update (s.spent o own).funding o.ref ((s.spent o own).funding o.ref + own)
      fundingTotal := (s.spent o own).fundingTotal + own
      advanced := Function.update (s.spent o own).advanced o.ref
        ((s.spent o own).advanced o.ref - (o.amountIn - own)) } = s := by
  have funding : s.funding o.ref - own + own = s.funding o.ref := by omega
  have fundingTotal : s.fundingTotal - own + own = s.fundingTotal := by omega
  simp [State.spent, funding, fundingTotal]

theorem executeBuy_ok (s : State) (o : Order) (filled : Option Fill) (done : Executed)
    (listed : s.listed o.underlying) (buy : o.side = .buy) (positive : o.amountIn ≠ 0)
    (ran : executeBuy c s o filled = .ok done) : Executes c s o done := by
  simp only [executeBuy] at ran
  generalize split : (if s.funding o.ref < o.amountIn then s.funding o.ref else o.amountIn) = own at ran
  have covered : own ≤ s.funding o.ref := by rw [← split]; split <;> omega
  have part : own ≤ o.amountIn := by rw [← split]; split <;> omega
  simp only [ite_ok, bind_ok, sub_ok, pure_ok] at ran
  obtain ⟨_, rfl⟩ | ⟨advance, _, ⟨total, rfl⟩, ran⟩ := ran
  · exact .failed "funding"
  cases venue : venueBuy c (s.spent o own) o.underlying o.amountIn o.minOut filled with
  | error fault =>
    simp only [State.spent] at venue
    simp only [venue, pure_ok] at ran
    rw [← ran]
    have := refund_spent s o own covered total
    simp only [State.spent] at this
    rw [this]
    exact .failed "venue buy"
  | ok traded =>
    obtain ⟨after, shares⟩ := traded
    obtain ⟨fill, rfl, trades, rfl⟩ := trade_ok _ _ _ _ _ _ _ _ venue
    simp only [State.spent] at venue
    simp only [venue, pure_ok] at ran
    rw [← ran]
    refine .bought own fill shares listed buy positive covered part total ?_
      ⟨trades.allowed, trades.held, trades.landed, trades.floor⟩
    by_cases whole : own = o.amountIn
    · exact .inl whole
    · right
      simp only [not_and_or, not_or, Bool.not_eq_false] at advance
      rcases advance with none | ⟨enabled, free⟩
      · omega
      · exact ⟨enabled, by omega⟩

theorem executeSell_ok (s : State) (o : Order) (filled : Option Fill) (listed : s.listed o.underlying)
    (sell : o.side = .sell) (positive : o.amountIn ≠ 0) : Executes c s o (executeSell c s o filled) := by
  simp only [executeSell]
  split
  · exact .failed "entitlement"
  · split
    · next after out venue =>
      obtain ⟨fill, rfl, trades, rfl⟩ := trade_ok _ _ _ _ _ _ _ _ venue
      exact .sold fill out listed sell positive (by omega) trades
    · exact .failed "venue sell"

theorem execute_ok (s : State) (o : Order) (filled : Option Fill) (done : Executed)
    (ran : execute c s o filled = .ok done) : Executes c s o done := by
  simp only [execute, ite_ok, pure_ok, not_not] at ran
  obtain ⟨_, rfl⟩ | ⟨listed, ⟨_, rfl⟩ | ⟨positive, ran⟩⟩ := ran
  · exact .failed "not listed"
  · exact .failed "zero amount"
  · cases side : o.side with
    | buy =>
      simp only [side, ite_ok, pure_ok] at ran
      obtain ⟨_, rfl⟩ | ⟨_, ⟨_, rfl⟩ | ⟨_, ran⟩⟩ := ran
      · exact .failed "paused"
      · exact .failed "disabled"
      · exact executeBuy_ok c s o filled done listed side positive ran
    | sell =>
      simp only [side, pure_ok] at ran
      exact ran ▸ executeSell_ok c s o filled listed side positive

theorem settleAndSend_ok (s after : State) (o : Order) (filled : Option Fill) (fee : Nat)
    (sent : settleAndSend c s o filled fee = .ok after) :
    ∃ done, Executes c (s.settles o.ref) o done ∧ after = done.answered o fee := by
  simp only [settleAndSend, bind_ok, require_ok, pure_ok] at sent
  obtain ⟨done, ran, _, _, rfl⟩ := sent
  exact ⟨done, execute_ok c _ o filled done ran, rfl⟩

theorem takeLiabilities_ok (s : State) (ref : Ref) (taken : Taken)
    (done : takeLiabilities s ref = .ok taken) : s.funding ref ≤ s.fundingTotal ∧
      s.proceeds ref ≤ s.proceedsTotal ∧ taken = ⟨s.taken ref, s.funding ref, s.proceeds ref⟩ := by
  simp only [takeLiabilities, bind_ok, sub_ok, pure_ok] at done
  obtain ⟨_, ⟨funding, rfl⟩, _, ⟨proceeds, rfl⟩, rfl⟩ := done
  exact ⟨funding, proceeds, rfl⟩

/-- A ref that is owed nothing has nothing to take. -/
theorem taken_nothing (s : State) (ref : Ref) (none : s.funding ref + s.proceeds ref = 0) : s.taken ref = s := by
  have funding : s.funding ref = 0 := by omega
  have proceeds : s.proceeds ref = 0 := by omega
  have fundings : Function.update s.funding ref 0 = s.funding := by rw [← funding]; simp
  have allProceeds : Function.update s.proceeds ref 0 = s.proceeds := by rw [← proceeds]; simp
  simp [State.taken, funding, proceeds, fundings, allProceeds]

theorem safeTransfer_ok (s after : State) (token recipient : Address) (amount : Nat)
    (accepted : Bool) (done : safeTransfer c s token recipient amount accepted = .ok after) :
    amount ≤ s.balanceOf token ∧ after = s.pay c token recipient amount := by
  simp only [safeTransfer, bind_ok, require_ok, pure_ok] at done
  obtain ⟨_, ⟨_, covered⟩, rfl⟩ := done
  exact ⟨covered, rfl⟩

/-! The moves. -/

/-- The calls that set roles, switches and listings' flags. -/
def Action.Configures : Action → Prop
  | .setBridger .. | .executeBridger | .setKeeper .. | .setFloatEnabled .. | .closeMigration
  | .pause | .unpause | .setGuardian .. => True
  | _ => False

/-- How an order comes to be answered, and what then still waits. -/
inductive Origin (settled : Ref → Bool) (waiting : Ref → Order) :
    Action → Order → (Ref → Order) → Prop where
  | voided (srcEid : Nat) (o : Order) (fill : Option Fill) (fee : Nat)
      (unanswered : settled o.ref = false) (buy : o.side = .buy) (void : o.amountIn = 0) :
      Origin settled waiting (.lzReceive srcEid o fill fee) o
        (Function.update waiting o.ref Order.blank)
  | received (srcEid : Nat) (o : Order) (fill : Option Fill) (fee : Nat)
      (unanswered : settled o.ref = false) (absent : (waiting o.ref).underlying = 0) :
      Origin settled waiting (.lzReceive srcEid o fill fee) o waiting
  | funded (ref : Ref) (fill : Option Fill) (fee : Nat)
      (unanswered : settled ref = false) (present : (waiting ref).underlying ≠ 0) :
      Origin settled waiting (.executeFunded ref fill fee) (waiting ref)
        (Function.update waiting ref Order.blank)

inductive Move (s : State) : Call → State → Prop where
  | ignored (call : Call) (ref : Ref) (why : String)
      (order : (∃ srcEid o fill fee, call.action = .lzReceive srcEid o fill fee) ∨
        ∃ d fill accepted, call.action = .deliver d fill accepted) :
      Move s call (s.log (.orderIgnored ref why))
  | waits (sender now srcEid : Nat) (o : Order) (fill : Option Fill) (fee : Nat)
      (unanswered : s.settled o.ref = false) (absent : (s.waiting o.ref).underlying = 0)
      (buy : o.side = .buy) (positive : o.amountIn ≠ 0) (unfunded : ¬ fundable c s o) :
      Move s ⟨sender, now, .lzReceive srcEid o fill fee⟩ (s.waits o)
  | answers (call : Call) (o : Order) (waiting : Ref → Order)
      (origin : Origin s.settled s.waiting call.action o waiting) (done : Executed) (fee : Nat)
      (executes : Executes c ({ s with waiting := waiting }.settles o.ref) o done) :
      Move s call (done.answered o fee)
  | funded (sender now : Nat) (ref : Ref) (amount got : Nat) :
      Move s ⟨sender, now, .fund ref amount got⟩ (s.funded c sender ref got)
  | returned (sender now : Nat) (ref : Ref) (pulled : Nat) (answered : s.settled ref = true)
      (owed : pulled ≤ s.funding ref + s.proceeds ref) (held : pulled ≤ s.balanceOf c.settlement) :
      Move s ⟨sender, now, .returnFunds ref pulled⟩ (s.returned c ref pulled)
  | handsOver (sender now : Nat) (d : Deliver) (fill : Option Fill) (accepted : Bool)
      (answered : s.settled d.ref = true) (none : d.shares = 0) :
      Move s ⟨sender, now, .deliver d fill accepted⟩ (s.handedOver c d accepted)
  | closesUnanswered (sender now : Nat) (d : Deliver) (fill : Option Fill) (accepted : Bool)
      (unanswered : s.settled d.ref = false) (none : d.shares = 0) :
      Move s ⟨sender, now, .deliver d fill accepted⟩
        ((s.closed d.ref d.underlying .failed 0).handedOver c d accepted)
  | deliversStock (sender now : Nat) (d : Deliver) (fill : Option Fill) (accepted : Bool)
      (unanswered : s.settled d.ref = false) (some : d.shares ≠ 0) (listed : s.listed d.underlying)
      (covered : d.shares ≤ s.entitledOf d.underlying) :
      Move s ⟨sender, now, .deliver d fill accepted⟩ (s.deliveredStock c d accepted)
  | deliversSale (sender now : Nat) (d : Deliver) (fill : Fill) (out : Nat) (accepted : Bool)
      (unanswered : s.settled d.ref = false) (some : d.shares ≠ 0) (listed : s.listed d.underlying)
      (covered : d.shares ≤ s.entitledOf d.underlying) (mode : d.mode = .settlement)
      (traded : Traded (s.delivering d) d.underlying c.settlement d.shares 0 fill out) :
      Move s ⟨sender, now, .deliver d (.some fill) accepted⟩ (s.deliveredSale c d fill out accepted)
  | claimed (sender now : Nat) (token : Address) (accepted : Bool)
      (held : s.claimable token sender ≤ s.balanceOf token) :
      Move s ⟨sender, now, .claim token accepted⟩ (s.claimed c sender token)
  | checkpoints (sender now : Nat) (further : s.checkpointedThrough ≤ toUint64 s.results.length) :
      Move s ⟨sender, now, .checkpoint⟩ { s with checkpointedThrough := toUint64 s.results.length }
  | withdrawsNative (sender now : Nat) (recipient : Address) (amount : Nat) (accepted : Bool) :
      Move s ⟨sender, now, .withdrawFloat 0 recipient amount accepted⟩
        { s with native := s.native - amount }
  | withdraws (sender now : Nat) (token recipient : Address) (amount : Nat) (accepted : Bool)
      (unlisted : ¬ s.listed token) (free : token = c.settlement → amount ≤ s.freeSettlement c)
      (held : amount ≤ s.balanceOf token) :
      Move s ⟨sender, now, .withdrawFloat token recipient amount accepted⟩
        (s.pay c token recipient amount)
  | migrates (sender now : Nat) (underlying : Address) (settlementIn minShares : Nat) (fill : Fill)
      (shares : Nat) (listed : s.listed underlying) (free : settlementIn ≤ s.freeSettlement c)
      (traded : Traded s c.settlement underlying settlementIn minShares fill shares) :
      Move s ⟨sender, now, .migrateIn underlying settlementIn minShares (.some fill)⟩
        (s.migrated c underlying settlementIn shares fill)
  | skims (sender now : Nat) (underlying : Address) (accepted : Bool)
      (listed : s.listed underlying) :
      Move s ⟨sender, now, .skimExcess underlying accepted⟩ (s.pay c underlying c.treasury
        (s.balanceOf underlying - (s.entitledOf underlying + s.claimableTotal underlying)))
  | lists (sender now : Nat) (underlying : Address) (supported : Bool) (real : underlying ≠ 0) :
      Move s ⟨sender, now, .listStock underlying supported⟩
        { s with listings := Function.update s.listings underlying ⟨underlying, true⟩ }
  | enables (sender now : Nat) (underlying : Address) (enabled : Bool) :
      Move s ⟨sender, now, .setEnabled underlying enabled⟩ (s.enables underlying enabled)
  | configured (call : Call) (configures : call.action.Configures) (guardian keeper : Address)
      (paused : Bool) (bridger : Address) (pendingBridger : Pending)
      (floatEnabled migrationOpen : Bool) :
      Move s call { s with
        guardian := guardian, keeper := keeper, paused := paused, bridger := bridger
        pendingBridger := pendingBridger, floatEnabled := floatEnabled
        migrationOpen := migrationOpen }
  | donated (sender now : Nat) (token : Address) (amount : Nat) :
      Move s ⟨sender, now, .donate token amount⟩ { s with
        balanceOf := Function.update s.balanceOf token (s.balanceOf token + amount) }
  | received (sender now amount : Nat) :
      Move s ⟨sender, now, .receive amount⟩ { s with native := s.native + amount }

theorem lzReceive_move (s after : State) (sender now srcEid : Nat) (o : Order)
    (fill : Option Fill) (fee : Nat) (taken : lzReceive c s srcEid o fill fee = .ok after) :
    Move c s ⟨sender, now, .lzReceive srcEid o fill fee⟩ after := by
  simp only [lzReceive, bind_ok, require_ok, ite_ok, pure_ok] at taken
  obtain ⟨_, _, ⟨_, rfl⟩ | ⟨fresh, taken⟩⟩ := taken
  · exact .ignored _ _ _ (.inl ⟨srcEid, o, fill, fee, rfl⟩)
  simp only [Bool.not_eq_true] at fresh
  rcases taken with ⟨⟨buy, void⟩, sent⟩ | ⟨notVoid, ⟨_, rfl⟩ | ⟨absent, taken⟩⟩
  · obtain ⟨done, executes, rfl⟩ := settleAndSend_ok c _ _ _ _ _ sent
    exact .answers _ o _ (.voided srcEid o fill fee fresh buy void) done fee executes
  · exact .ignored _ _ _ (.inl ⟨srcEid, o, fill, fee, rfl⟩)
  · simp only [ne_eq, not_not] at absent
    rcases taken with ⟨⟨buy, unfunded⟩, rfl⟩ | ⟨_, sent⟩
    · have positive : o.amountIn ≠ 0 := by simpa [buy] using notVoid
      exact .waits sender now srcEid o fill fee fresh absent buy positive unfunded
    · obtain ⟨done, executes, rfl⟩ := settleAndSend_ok c _ _ _ _ _ sent
      exact .answers _ o _ (.received srcEid o fill fee fresh absent) done fee executes

theorem deliver_move (s after : State) (sender now : Nat) (d : Deliver) (fill : Option Fill)
    (accepted : Bool) (taken : deliver c s sender d fill accepted = .ok after) :
    Move c s ⟨sender, now, .deliver d fill accepted⟩ after := by
  simp only [deliver, bind_ok, require_ok, ite_ok, pure_ok] at taken
  obtain ⟨_, _, ⟨answered, taken⟩ | ⟨fresh, taken⟩⟩ := taken
  · rcases taken with ⟨none, funds, took, taken⟩ | ⟨_, rfl⟩
    · obtain ⟨_, _, rfl⟩ := takeLiabilities_ok s d.ref funds took
      rcases taken with ⟨nothing, rfl⟩ | ⟨_, rfl⟩
      · rw [taken_nothing s d.ref nothing]
        exact .ignored _ _ _ (.inr ⟨d, fill, accepted, rfl⟩)
      · exact .handsOver sender now d fill accepted answered none
    · exact .ignored _ _ _ (.inr ⟨d, fill, accepted, rfl⟩)
  simp only [Bool.not_eq_true] at fresh
  rcases taken with ⟨none, funds, took, rfl⟩ | ⟨some, _, listed, _, covered, taken⟩
  · obtain ⟨_, _, rfl⟩ := takeLiabilities_ok _ d.ref funds took
    exact .closesUnanswered sender now d fill accepted fresh none
  have covered : d.shares ≤ s.entitledOf d.underlying := Nat.not_lt.mp covered
  have stock : Move c s ⟨sender, now, .deliver d fill accepted⟩ (s.deliveredStock c d accepted) :=
    .deliversStock sender now d fill accepted fresh some listed covered
  cases mode : d.mode with
  | stock =>
    simp only [mode, pure_ok] at taken
    exact taken ▸ stock
  | settlement =>
    simp only [mode] at taken
    split at taken
    · next sold out venue =>
      obtain ⟨fill, rfl, trades, rfl⟩ := trade_ok _ _ _ _ _ _ _ _ venue
      simp only [pure_ok] at taken
      rw [← taken]
      exact .deliversSale sender now d fill out accepted fresh some listed covered mode trades
    · simp only [pure_ok] at taken
      exact taken ▸ stock

theorem returnFunds_move (s after : State) (sender now : Nat) (ref : Ref) (pulled : Nat)
    (taken : returnFunds c s sender ref pulled = .ok after) :
    Move c s ⟨sender, now, .returnFunds ref pulled⟩ after := by
  simp only [returnFunds, bind_ok, require_ok, pure_ok] at taken
  obtain ⟨_, _, _, answered, funds, took, _, _, _, ⟨owed, held⟩, rfl⟩ := taken
  obtain ⟨_, _, rfl⟩ := takeLiabilities_ok s ref funds took
  exact .returned sender now ref pulled answered owed held

theorem withdrawFloat_move (s after : State) (sender now token recipient : Nat) (amount : Nat)
    (accepted : Bool) (taken : withdrawFloat c s sender token recipient amount accepted = .ok after) :
    Move c s ⟨sender, now, .withdrawFloat token recipient amount accepted⟩ after := by
  simp only [withdrawFloat, bind_ok, require_ok, ite_ok, pure_ok] at taken
  obtain ⟨_, _, _, _, ⟨rfl, _, _, rfl⟩ | ⟨_, _, unlisted, _, free, moved⟩⟩ := taken
  · exact .withdrawsNative sender now recipient amount accepted
  · obtain ⟨held, rfl⟩ := safeTransfer_ok c _ _ _ _ _ _ moved
    exact .withdraws sender now token recipient amount accepted unlisted free held

theorem migrateIn_move (s after : State) (sender now underlying settlementIn minShares : Nat) (fill : Option Fill)
    (taken : migrateIn c s sender underlying settlementIn minShares fill = .ok after) :
    Move c s ⟨sender, now, .migrateIn underlying settlementIn minShares fill⟩ after := by
  simp only [migrateIn, bind_ok, require_ok, add_ok, pure_ok] at taken
  obtain ⟨_, _, _, _, _, listed, _, _, _, free, ⟨traded, shares⟩, venue, _, ⟨_, rfl⟩, rfl⟩ := taken
  obtain ⟨fill, rfl, trades, rfl⟩ := trade_ok _ _ _ _ _ _ _ _ venue
  exact .migrates sender now underlying settlementIn minShares fill shares listed free trades

theorem configured_move (s after : State) (call : Call) (configures : call.action.Configures)
    (taken : step c s call = .ok after) : Move c s call after := by
  obtain ⟨sender, now, action⟩ := call
  cases action with
  | setBridger bridger =>
    simp only [step, setBridger, bind_ok, require_ok, ite_ok, pure_ok] at taken
    obtain ⟨_, _, _, _, ⟨_, rfl⟩ | ⟨_, rfl⟩⟩ := taken
    · exact .configured _ configures _ _ _ _ _ _ _
    · exact .configured _ configures _ _ _ _ _ _ _
  | executeBridger =>
    simp only [step, executeBridger, bind_ok, require_ok, pure_ok] at taken
    obtain ⟨_, _, _, _, rfl⟩ := taken
    exact .configured _ configures _ _ _ _ _ _ _
  | setFloatEnabled | setKeeper | closeMigration | setGuardian =>
    simp only [step, setFloatEnabled, setKeeper, closeMigration, setGuardian, bind_ok, require_ok,
      pure_ok] at taken
    obtain ⟨_, _, rfl⟩ := taken
    exact .configured _ configures _ _ _ _ _ _ _
  | pause | unpause =>
    simp only [step, pause, unpause, bind_ok, require_ok, pure_ok] at taken
    obtain ⟨_, _, _, _, rfl⟩ := taken
    exact .configured _ configures _ _ _ _ _ _ _
  | _ => exact configures.elim

/-- Every accepted call is one move. -/
theorem step_move (s after : State) (call : Call) (taken : step c s call = .ok after) : Move c s call after := by
  obtain ⟨sender, now, action⟩ := call
  cases action with
  | lzReceive srcEid o fill fee => exact lzReceive_move c s after sender now srcEid o fill fee taken
  | fund ref amount got =>
    simp only [step, fund, bind_ok, require_ok, pure_ok] at taken
    obtain ⟨_, _, rfl⟩ := taken
    have least : (if s.advanced ref < got then s.advanced ref else got) = min (s.advanced ref) got := by
      split <;> omega
    rw [least]
    exact .funded sender now ref amount got
  | executeFunded ref fill fee =>
    simp only [step, executeFunded, bind_ok, require_ok, not_or, Bool.not_eq_true] at taken
    obtain ⟨_, ⟨present, unanswered⟩, _, _, sent⟩ := taken
    obtain ⟨done, executes, rfl⟩ := settleAndSend_ok c _ _ _ _ _ sent
    exact .answers _ _ _ (.funded ref fill fee unanswered present) done fee executes
  | returnFunds ref pulled => exact returnFunds_move c s after sender now ref pulled taken
  | deliver d fill accepted => exact deliver_move c s after sender now d fill accepted taken
  | claim token accepted =>
    simp only [step, claim, bind_ok, require_ok, sub_ok] at taken
    obtain ⟨_, _, _, ⟨_, rfl⟩, moved⟩ := taken
    obtain ⟨held, rfl⟩ := safeTransfer_ok c _ _ _ _ _ _ moved
    exact .claimed sender now token accepted held
  | checkpoint =>
    simp only [step, checkpoint, bind_ok, require_ok, sub_ok, pure_ok] at taken
    obtain ⟨_, _, _, ⟨further, _⟩, rfl⟩ := taken
    exact .checkpoints sender now further
  | withdrawFloat token recipient amount accepted =>
    exact withdrawFloat_move c s after sender now token recipient amount accepted taken
  | migrateIn underlying settlementIn minShares fill =>
    exact migrateIn_move c s after sender now underlying settlementIn minShares fill taken
  | skimExcess underlying accepted =>
    simp only [step, skimExcess, bind_ok, require_ok] at taken
    obtain ⟨_, _, _, listed, _, _, moved⟩ := taken
    obtain ⟨_, rfl⟩ := safeTransfer_ok c _ _ _ _ _ _ moved
    exact .skims sender now underlying accepted listed
  | listStock underlying supported =>
    simp only [step, listStock, bind_ok, require_ok, pure_ok] at taken
    obtain ⟨_, _, _, real, _, _, _, _, rfl⟩ := taken
    exact .lists sender now underlying supported real
  | setEnabled underlying enabled =>
    simp only [step, setEnabled, bind_ok, require_ok, pure_ok] at taken
    obtain ⟨_, _, _, _, rfl⟩ := taken
    exact .enables sender now underlying enabled
  | donate token amount =>
    simp only [step, pure_ok] at taken
    exact taken ▸ .donated sender now token amount
  | receive amount =>
    simp only [step, pure_ok] at taken
    exact taken ▸ .received sender now amount
  | setBridger | executeBridger | setKeeper | setFloatEnabled | closeMigration | pause | unpause
  | setGuardian => exact configured_move c s after _ trivial taken

end Solonpad.Vault
