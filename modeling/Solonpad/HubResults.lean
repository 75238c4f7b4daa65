import Solonpad.HubSteps

/-!
What the vault's results do to the books. Each outcome is one move that books the result,
followed by the payments the order's new status calls for.
-/

namespace Solonpad.Hub

open Checked Chain Messages

variable {c : Config} {p : Promises} {a : Action} {o : Order}

/-! Minting and marking. -/

theorem checkStale_spec (s : State) (now : Nat) : ∃ watch, checkStale s now = { s with watch := watch } := by
  unfold checkStale
  dsimp only
  split
  · exact ⟨_, rfl⟩
  · split
    · exact ⟨_, rfl⟩
    · exact ⟨_, rfl⟩

theorem mint_ok (s after : State) (env : Env) (underlying recipient : Address) (shares : Nat)
    (canonical : Bool) (minted : mint s env underlying recipient shares canonical = .ok after) :
    ∃ watch token, (s.arc underlying).mint recipient shares = .ok token ∧
      after = { s with watch := watch, arc := Function.update s.arc underlying token } := by
  simp only [mint, ite_ok, bind_ok, require_ok, onArc_ok] at minted
  rcases minted with ⟨_, token, minted, rfl⟩ | ⟨_, _, _, _, _, token, minted, rfl⟩
  · exact ⟨s.watch, token, minted, rfl⟩
  · obtain ⟨watch, checked⟩ := checkStale_spec s env.now
    rw [checked] at minted ⊢
    exact ⟨_, token, minted, rfl⟩

theorem issue_ok (s after : State) (env : Env) (o : Order) (recipient : Address) (r : Result)
    (canonical : Bool) (issued : issue c s env o recipient r canonical = .ok after) :
    ∃ watch token booked reviewed,
      (s.arc o.underlying).mint recipient r.amountOut = .ok token ∧
      Capacity.finalizeBuy s.capacity c.self o.capKey o.underlying r.amountOut = .ok booked ∧
      (reviewed = booked ∨ Capacity.markReviewed booked c.self o.capKey = .ok reviewed) ∧
      after = { s with
        watch := watch, arc := Function.update s.arc o.underlying token, capacity := reviewed } := by
  simp only [issue, bind_ok, onCapacity_ok, ite_ok, pure_ok] at issued
  obtain ⟨_, minted, _, ⟨booked, finalized, rfl⟩, issued⟩ := issued
  obtain ⟨watch, token, credited, rfl⟩ := mint_ok _ _ _ _ _ _ _ minted
  rcases issued with ⟨_, reviewed, marked, rfl⟩ | ⟨_, rfl⟩
  · exact ⟨watch, token, booked, reviewed, credited, finalized, .inr marked, rfl⟩
  · exact ⟨watch, token, booked, booked, credited, finalized, .inl rfl, rfl⟩

/-- A canonical result marks its ref, the fast lane's its order. -/
theorem markSettled_spec (s : State) (now id : Nat) (ref : Ref) (canonical : Bool) :
    ∃ settled watch reconciled, markSettled s now id ref canonical = { s with
      orders := Function.update s.orders id { s.orders id with lzSettled := settled }
      watch := watch, reconciled := reconciled } ∧
    (reconciled = s.reconciled ∨ reconciled = Function.update s.reconciled ref true) ∧
    watch.payWindowStart = s.watch.payWindowStart ∧ watch.paidInWindow = s.watch.paidInWindow := by
  unfold markSettled
  split
  · refine ⟨(s.orders id).lzSettled, s.watch, _, ?_, .inr rfl, rfl, rfl⟩
    simp only [Function.update_eq_self]
  · exact ⟨true, _, s.reconciled, rfl, .inl rfl, rfl, rfl⟩

theorem marked_moves (s : State) (id : Nat) (watch : Watch) (reconciled : Ref → Bool)
    (marked : reconciled = s.reconciled ∨ reconciled = Function.update s.reconciled (.order id) true) :
    Moves c p a s { s with watch := watch, reconciled := reconciled } := by
  refine .head (watches s watch) ?_
  rcases marked with rfl | rfl
  · exact .refl
  · exact .single (.marks id)

theorem markSettled_moves (s : State) (now id : Nat) (canonical : Bool) (placed : id < s.orderCount) :
    Moves c p a s (markSettled s now id (.order id) canonical) := by
  obtain ⟨settled, watch, reconciled, same, marked, _⟩ := markSettled_spec s now id (.order id) canonical
  rw [same]
  refine .head (kept_move s id { s.orders id with lzSettled := settled } placed rfl rfl rfl rfl rfl) ?_
  exact marked_moves { s with orders := _ } id watch reconciled marked

theorem reviewed_moves (s : State) (booked reviewed : Capacity.State CapKey) (key : CapKey)
    (marked : reviewed = booked ∨ Capacity.markReviewed booked c.self key = .ok reviewed) :
    Moves c p a { s with capacity := booked } { s with capacity := reviewed } := by
  rcases marked with rfl | marked
  · exact .refl
  · exact .single (.reviews key reviewed marked)

/-! The orders a result leaves, before the money it moves. -/

def Order.orphan (o : Order) (raw : Nat) : Order :=
  { o with orphaned := true, rawOut := raw, outcome := some .bought }

def Order.filledBy (o : Order) (now raw : Nat) : Order :=
  { o with
    status := .filled, settledAt := now, amountOut := raw, rawOut := raw, outcome := some .bought
    custodyRaw := if o.lane = 1 then raw else o.custodyRaw }

def Order.failedAs (o : Order) (settled : Bool) : Order :=
  { o with outcome := some .failed, rawOut := 0, lzSettled := settled }

/-- A buy that a failure still answers, and the regular order it leaves. -/
theorem failed_open (buy : o.kind = .buy)
    (other : ¬ (o.kind = .buy ∧ o.status = .cancelled ∧ o.advanced = true ∧ o.outcome = none))
    (open' : ¬ (¬ unanswered o ∧ o.status ≠ .pending ∧
      ¬ (o.kind ≠ .buy ∧ o.status = .escalated ∧ o.outcome = none) ∧
      ¬ (o.kind = .buy ∧ o.status = .cancelled ∧ o.advanced = true ∧ o.outcome = none))) :
    unanswered o ∨ o.status = .pending := by
  by_contra neither
  rw [not_or] at neither
  exact open' ⟨neither.1, neither.2, fun late => late.1 buy, other⟩

theorem failed_regular (regular : o.Regular) (buy : o.kind = .buy) (live : unanswered o ∨ o.status = .pending)
    (settled : Bool) (now : Nat) :
    ({ o.failedAs settled with settledAt := now, status := .returning } : Order).Regular := by
  refine regular.next rfl ?_ (regular.waits rfl ?_)
  · rw [buy]
    exact (answered_proper regular.proper).2.1 buy live 0
  · rcases live with ⟨_, dispatched | ⟨_, escalated⟩⟩ | pending <;> simp [*]

theorem sells (other : ¬ o.kind = .buy) : o.kind = .sell := by
  cases kind : o.kind with
  | buy => exact absurd kind other
  | sell => rfl

/-! What a sale brings, and when the float pays it. -/

def saleFee (o : Order) (raw : Nat) : Nat := raw * scale * o.feeBps / bps

def saleNet (o : Order) (raw : Nat) : Nat := raw * scale - saleFee o raw

/-- A sell that a sale still answers. -/
def saleOpen (o : Order) : Prop :=
  o.kind = .sell ∧ (o.status = .dispatched ∨ o.status = .pending ∨ o.status = .escalated) ∧
    o.outcome = none

instance (o : Order) : Decidable (saleOpen o) := inferInstanceAs (Decidable (_ ∧ _))

/-- The sale's money is not back, and the float is on, has it and may pay it. -/
def floatPays (s : State) (now id raw : Nat) : Prop :=
  ¬ isBack (s.orders id).held (saleNet (s.orders id) raw) ∧ s.terms.floatEnabled = true ∧
    saleNet (s.orders id) raw ≤ s.money.available ∧
    saleNet (s.orders id) raw ≤ payAllowance s now

instance (s : State) (now id raw : Nat) : Decidable (floatPays s now id raw) :=
  inferInstanceAs (Decidable (_ ∧ _))

def Order.soldAs (o : Order) (now raw : Nat) (settled : Bool) (out : Nat) : Order :=
  { o with
    settledAt := now, fee := saleFee o raw, rawOut := raw, outcome := some .sold
    lzSettled := settled, amountOut := out, status := if raw = 0 then .filled else .proceeds }

/-! The three outcomes. -/

section

variable {s after : State} {env : Env} {id : Nat} {r : Result} {canonical changed : Bool}
  (placed : id < s.orderCount) (regular : (s.orders id).Regular)
  (applies : a.result = some (r, canonical)) (ref : r.ref = .order id)

include placed applies ref

/-- Stock for a buy the float refunded goes to the treasury; nothing else of the order moves. -/
theorem orphan_moves (outcome : r.outcome = .bought) (buy : (s.orders id).kind = .buy)
    (cancelled : (s.orders id).status = .cancelled) (advanced : (s.orders id).advanced = true)
    (none : (s.orders id).outcome = none) {issued : State}
    (done : issue c s env (s.orders id) s.roles.treasury r canonical = .ok issued) :
    Moves c p a s (issued.set id ((s.orders id).orphan r.amountOut)) := by
  obtain ⟨watch, token, booked, reviewed, minted, finalized, marked, rfl⟩ :=
    issue_ok _ _ _ _ _ _ _ done
  have entry : Entry s.money (s.orders id) s.money ((s.orders id).orphan r.amountOut) 0 := by
    constructor
    · simp [Order.orphan, Order.inEscrow, Order.holdsFee, cancelled]
    · rfl
    · exact le_rfl
  have orphaned : Move c p a { s with watch := watch } { s with
      watch := watch, orders := Function.update s.orders id ((s.orders id).orphan r.amountOut)
      capacity := booked, arc := Function.update s.arc (s.orders id).underlying token } :=
    .bought id r canonical ((s.orders id).orphan r.amountOut) s.money s.roles.treasury token booked
      placed applies ref outcome rfl buy rfl
      (.inr ⟨cancelled, advanced, none, by simp [Order.phase, Order.orphan, cancelled, advanced]⟩)
      entry minted finalized
  exact .head (watches s watch) (.head orphaned
    (reviewed_moves { s with watch := watch, orders := _, arc := _ } booked reviewed _ marked))

/-- The stock is minted and the fee earned. -/
theorem filled_moves (outcome : r.outcome = .bought) (buy : (s.orders id).kind = .buy)
    (open' : unanswered (s.orders id)) (recipient : Address) {issued : State}
    (done : issue c s env (s.orders id) recipient r canonical = .ok issued)
    (fee : (s.orders id).fee ≤ s.money.escrowed) : Moves c p a s { issued with
      orders := Function.update s.orders id ((s.orders id).filledBy env.now r.amountOut)
      money := { s.money with
        escrowed := s.money.escrowed - (s.orders id).fee
        accruedFees := s.money.accruedFees + (s.orders id).fee } } := by
  obtain ⟨watch, token, booked, reviewed, minted, finalized, marked, rfl⟩ :=
    issue_ok _ _ _ _ _ _ _ done
  have held : (s.orders id).inEscrow =
      ((s.orders id).filledBy env.now r.amountOut).inEscrow + (s.orders id).fee := by
    obtain ⟨none, dispatched | ⟨_, escalated⟩⟩ := open'
    · simp [Order.filledBy, Order.inEscrow, Order.holdsFee, buy, dispatched]
      omega
    · simp [Order.filledBy, Order.inEscrow, Order.holdsFee, buy, escalated, none]
      omega
  have entry : Entry s.money (s.orders id) { s.money with
      escrowed := s.money.escrowed - (s.orders id).fee
      accruedFees := s.money.accruedFees + (s.orders id).fee }
      ((s.orders id).filledBy env.now r.amountOut) 0 := by
    constructor
    · dsimp only
      omega
    · rfl
    · simp only [Money.liabilities]
      omega
  have bought : Move c p a { s with watch := watch } { s with
      watch := watch
      orders := Function.update s.orders id ((s.orders id).filledBy env.now r.amountOut)
      money := { s.money with
        escrowed := s.money.escrowed - (s.orders id).fee
        accruedFees := s.money.accruedFees + (s.orders id).fee }
      capacity := booked, arc := Function.update s.arc (s.orders id).underlying token } :=
    .bought id r canonical _ _ recipient token booked placed applies ref outcome rfl buy rfl
      (.inl ⟨open', rfl⟩) entry minted finalized
  exact .head (watches s watch) (.head bought (reviewed_moves
    { s with watch := watch, orders := _, money := _, arc := _ } booked reviewed _ marked))

theorem settleBought_moves (outcome : r.outcome = .bought)
    (done : settleBought c s env id r canonical = .ok (after, changed)) : Moves c p a s after := by
  simp only [settleBought, ite_ok, bind_ok, pure_ok, unescrow_ok, removeOpen_ok,
    Prod.mk.injEq, not_not] at done
  rcases done with ⟨_, rfl, _⟩ | ⟨buy, ⟨⟨cancelled, advanced, _, none⟩, _, issued, rfl, _⟩ |
    ⟨_, ⟨_, rfl, _⟩ | ⟨open', middle, issued, _, ⟨fee, rfl⟩, _, ⟨left, rfl⟩, _, flushed, _,
      ⟨opened, _, rfl⟩, rfl, _⟩⟩⟩
  · exact .refl
  · rw [ref]
    have orphaned := orphan_moves (c := c) (p := p) placed applies ref outcome buy cancelled advanced none issued
    exact orphaned.trans (markSettled_moves _ _ _ _ (placed.trans_le orphaned.grows))
  · exact .refl
  · rw [ref]
    have same : middle.orders = s.orders ∧ middle.money = s.money := by
      obtain ⟨_, _, _, _, _, _, _, rfl⟩ := issue_ok _ _ _ _ _ _ _ issued
      exact ⟨rfl, rfl⟩
    simp only [State.set, State.accrue, Function.update_self, Function.update_idem, same] at fee left flushed
    have bought := filled_moves (c := c) (p := p) placed applies ref outcome buy open' _ issued fee
    have released := released_next (c := c) (p := p) (a := a)
      { middle with orders := s.orders } env 0 id ((s.orders id).filledBy env.now r.amountOut)
      { (s.orders id).filledBy env.now r.amountOut with extra := 0 }
      { s.money with
        escrowed := s.money.escrowed - (s.orders id).fee
        accruedFees := s.money.accruedFees + (s.orders id).fee }
      (if (s.orders id).lane = 1 then middle.roles.opsVault else (s.orders id).user) 0
      (s.orders id).extra 0 (s.orders id).extra 0 false (placed.trans_le bought.grows) rfl
      (.keeps _ rfl (.inl rfl)) (fun _ => rfl) left (escrow_extra _ 0).symm rfl (by omega)
      (Nat.zero_le _)
    have paid := bought.trans released
    have flushes := flushHeld_moves (c := c) (p := p) (a := a) _ _ env 1 id
      (placed.trans_le (Moves.grows paid)) flushed
    have settled := (paid.trans flushes).tail (reopens _ opened)
    exact settled.trans (markSettled_moves _ _ _ _ (placed.trans_le (Moves.grows settled)))

variable (env) in
/-- A sale is booked, whatever pays it. -/
theorem sold_moves (outcome : r.outcome = .sold) (sell : (s.orders id).kind = .sell)
    (none : (s.orders id).outcome = none)
    (open' : (s.orders id).status = .dispatched ∨ (s.orders id).status = .pending ∨
      (s.orders id).status = .escalated) (settled : Bool) (out : Nat) (watch : Watch)
    (reconciled : Ref → Bool) (capacity : Capacity.State CapKey)
    (marked : reconciled = s.reconciled ∨
      reconciled = Function.update s.reconciled (.order id) true)
    (booked : Capacity.finalizeRedeem s.capacity c.self (s.orders id).capKey canonical =
      .ok capacity) : Moves c p a s { s with
      orders := Function.update s.orders id ((s.orders id).soldAs env.now r.amountOut settled out)
      capacity := capacity, watch := watch, reconciled := reconciled } := by
  have entry : Entry s.money (s.orders id) s.money
      ((s.orders id).soldAs env.now r.amountOut settled out) 0 := by
    constructor
    · rw [escrow_sell sell, escrow_sell (by exact sell)]
      rfl
    · rfl
    · exact le_rfl
  have sold : Move c p a s { s with
      orders := Function.update s.orders id ((s.orders id).soldAs env.now r.amountOut settled out)
      capacity := capacity } :=
    .sold id r canonical _ capacity placed applies ref outcome rfl sell none open' rfl rfl entry booked
  exact .head sold (marked_moves { s with orders := _, capacity := _ } id watch reconciled marked)

omit applies ref in
variable (env) in
/-- The float pays a sold order; what is held for it counts towards that. -/
theorem floatPaid_moves (o next : Order) (m : Money) (leaves fee amount drawn : Nat) (deal : next.deal = o.deal)
    (float : ¬ p.unfloated) (sell : o.kind = .sell) (proceeds : o.status = .proceeds)
    (refund : next.refundReady = o.refundReady) (phase : next.phase = (.filled, o.outcome, true, o.rawOut))
    (held : leaves ≤ m.escrowed) (left : o.inEscrow = next.inEscrow + leaves) (owed : next.owed = o.owed)
    (enough : amount + fee ≤ leaves + drawn) (free : p.ample → drawn ≤ m.available) :
    Moves c p a { s with orders := Function.update s.orders id o, money := m }
      (pay c { s with
        orders := Function.update s.orders id next
        money := { m with
          escrowed := m.escrowed - leaves, accruedFees := m.accruedFees + fee } }
        env 0 id o.user amount true) := by
  obtain ⟨money, debt, watch, paid, entry⟩ := released_spec (c := c)
    { s with orders := Function.update s.orders id o, money := m } env 0 id next o.user 0 leaves fee
    amount drawn true held (by simpa only [Function.update_self] using left)
    (by simpa only [Function.update_self] using owed) (by omega)
  simp only [Function.update_self, Function.update_idem, Nat.add_zero] at paid entry
  rw [paid]
  have floated := Move.floatPaid (c := c) (p := p) (a := a)
    (s := { s with orders := Function.update s.orders id o, money := m }) id (next.indebted debt)
    money drawn placed
  simp only [Function.update_self, Function.update_idem] at floated
  exact .tail (.single (floated deal float sell proceeds refund phase entry free)) (watches _ watch)

/-- A sold order is paid from what came back for it, from the float or not yet. -/
theorem settleSold_moves (outcome : r.outcome = .sold) (unfloated : p.unfloated → s.terms.floatEnabled = false)
    (ample : p.ample → saleOpen (s.orders id) → floatPays s env.now id r.amountOut →
      r.amountOut * scale ≤ s.money.available + (s.orders id).held)
    (done : settleSold c s env id r canonical = .ok (after, changed)) : Moves c p a s after := by
  simp only [settleSold, ite_ok, bind_ok, pure_ok, onCapacity_ok, sub_ok, removeOpen_ok,
    unescrow_ok, Prod.mk.injEq] at done
  rcases done with ⟨_, rfl, _⟩ | ⟨buy, ⟨_, rfl, _⟩ | ⟨live, _, ⟨within, rfl⟩, _,
    ⟨capacity, booked, rfl⟩, done⟩⟩
  · exact .refl
  · exact .refl
  rw [ref] at done
  obtain ⟨open', none⟩ := not_or.mp live
  have sell := sells buy
  obtain ⟨settled, watch, reconciled, same, marked, window, used⟩ := markSettled_spec
    { s.set id { s.orders id with
        settledAt := env.now, fee := r.amountOut * scale * (s.orders id).feeBps / bps
        rawOut := r.amountOut, outcome := some .sold } with capacity := capacity }
    env.now id (.order id) canonical
  rw [same] at done
  clear same
  simp only [State.set, Function.update_self, Function.update_idem] at done
  have seen := fun out => sold_moves (c := c) (p := p) env placed applies ref outcome sell
    (not_not.mp none) (not_not.mp open') settled out watch reconciled capacity marked booked
  rcases done with ⟨nothing, _, ⟨opened, _, rfl⟩, _, flushed, rfl, _⟩ | ⟨some', done⟩
  · have zero : r.amountOut = 0 := by simpa [scale] using nothing
    have closed := (seen (s.orders id).amountOut).tail (reopens _ opened)
    simp only [Order.soldAs, if_pos zero] at closed
    exact closed.trans (flushHeld_moves _ _ env 0 id (by exact placed) flushed)
  have nonzero : r.amountOut ≠ 0 := fun zero => some' (by simp [zero])
  have proceeds : ((s.orders id).soldAs env.now r.amountOut settled
      (saleNet (s.orders id) r.amountOut)).status = .proceeds := if_neg nonzero
  have booked := seen (saleNet (s.orders id) r.amountOut)
  rcases done with ⟨back, _, paid, rfl, _⟩ | ⟨away, ⟨⟨enabled, affordable, allowed⟩, _, ⟨held, rfl⟩,
    _, ⟨opened, _, rfl⟩, rfl, _⟩ | ⟨_, rfl, _⟩⟩
  · obtain ⟨fee, opened, least, held, rfl⟩ := payHeldProceeds_ok _ _ env id
      (by simpa only [Function.update_self] using back) paid
    simp only [Function.update_self, Function.update_idem] at least held ⊢
    have paid := released_next (c := c) (p := p) (a := a) { s with
      capacity := capacity, watch := watch, reconciled := reconciled, opened := opened } env 0 id
      ((s.orders id).soldAs env.now r.amountOut settled (saleNet (s.orders id) r.amountOut))
      { (s.orders id).soldAs env.now r.amountOut settled (saleNet (s.orders id) r.amountOut) with
        held := 0, fee := fee, amountOut := (s.orders id).held - fee, status := .filled } s.money
      (s.orders id).user 0 (s.orders id).held fee ((s.orders id).held - fee) 0 false placed rfl
      (.paid _ sell proceeds rfl rfl) (fun _ => rfl) held
      (by rw [escrow_sell (by exact sell), escrow_sell (by exact sell)]; simp [Order.soldAs]; omega)
      rfl (by omega) (Nat.zero_le _)
    exact (booked.tail (reopens _ opened)).trans paid
  · have same : payAllowance { s with watch := watch } env.now = payAllowance s env.now := by
      unfold payAllowance
      dsimp only
      rw [window, used]
      rfl
    have pays : floatPays s env.now id r.amountOut :=
      ⟨away, enabled, affordable, same ▸ allowed⟩
    have covers := fun promised =>
      ample promised ⟨sell, not_not.mp open', not_not.mp none⟩ pays
    change saleFee (s.orders id) r.amountOut ≤ r.amountOut * scale at within
    have paid := floatPaid_moves (c := c) (p := p) (a := a) (s := { s with
        capacity := capacity, watch := watch, reconciled := reconciled, opened := opened }) env
      placed ((s.orders id).soldAs env.now r.amountOut settled (saleNet (s.orders id) r.amountOut))
      { (s.orders id).soldAs env.now r.amountOut settled (saleNet (s.orders id) r.amountOut) with
        held := 0, advanced := true, status := .filled } s.money (s.orders id).held
      (saleFee (s.orders id) r.amountOut) (saleNet (s.orders id) r.amountOut)
      (r.amountOut * scale - (s.orders id).held) rfl
      (fun off => by simp [unfloated off] at enabled) sell proceeds rfl rfl held
      (by rw [escrow_sell (by exact sell), escrow_sell (by exact sell)]; simp [Order.soldAs]; omega)
      rfl (by unfold saleNet; omega) (fun promised => by have := covers promised; omega)
    simp only [State.accrue, Function.update_self, Function.update_idem]
    exact (booked.tail (reopens _ opened)).trans paid
  · simp only [Order.soldAs, if_neg nonzero] at booked
    exact booked

/-- The float refunded a buy that failed: what comes back is the float's. -/
theorem failedAdvanced_moves (outcome : r.outcome = .failed) (buy : (s.orders id).kind = .buy)
    (cancelled : (s.orders id).status = .cancelled) (advanced : (s.orders id).advanced = true)
    (none : (s.orders id).outcome = none) (settled : Bool) (watch : Watch) (reconciled : Ref → Bool)
    (capacity : Capacity.State CapKey)
    (marked : reconciled = s.reconciled ∨ reconciled = Function.update s.reconciled (.order id) true)
    (booked : Capacity.release s.capacity c.self (s.orders id).capKey = .ok capacity) :
    Moves c p a s { s with
      orders := Function.update s.orders id ((s.orders id).failedAs settled)
      capacity := capacity, watch := watch, reconciled := reconciled } := by
  have entry : Entry s.money (s.orders id) s.money ((s.orders id).failedAs settled) 0 := by
    constructor
    · simp [Order.failedAs, Order.inEscrow, Order.holdsFee, cancelled]
    · rfl
    · exact le_rfl
  have failed : Move c p a s { s with
      orders := Function.update s.orders id ((s.orders id).failedAs settled)
      capacity := capacity } :=
    .buyFailed id r canonical _ capacity placed applies ref outcome rfl buy
      (.inr ⟨cancelled, advanced, none, by simp [Order.phase, Order.failedAs, cancelled, advanced]⟩)
      rfl (fun _ => entry) booked
  exact .head failed (marked_moves { s with orders := _, capacity := _ } id watch reconciled marked)

variable (env) in
/-- A buy that failed waits for its money; its fee and reserve wait with it. -/
theorem buyFailed_moves (outcome : r.outcome = .failed) (buy : (s.orders id).kind = .buy)
    (open' : unanswered (s.orders id) ∨ (s.orders id).status = .pending)
    (trusted : p.trusted → (s.orders id).status ≠ .pending) (settled : Bool) (watch : Watch) (reconciled : Ref → Bool)
    (capacity : Capacity.State CapKey)
    (marked : reconciled = s.reconciled ∨ reconciled = Function.update s.reconciled (.order id) true)
    (booked : Capacity.release s.capacity c.self (s.orders id).capKey = .ok capacity) :
    Moves c p a s { s with
      orders := Function.update s.orders id
        { (s.orders id).failedAs settled with settledAt := env.now, status := .returning }
      capacity := capacity, watch := watch, reconciled := reconciled } := by
  have entry : p.trusted → Entry s.money (s.orders id) s.money
      { (s.orders id).failedAs settled with settledAt := env.now, status := .returning } 0 := by
    intro promised
    constructor
    · rcases open' with ⟨none, dispatched | ⟨_, escalated⟩⟩ | pending
      · simp [Order.failedAs, Order.inEscrow, Order.holdsFee, buy, dispatched]
      · simp [Order.failedAs, Order.inEscrow, Order.holdsFee, buy, escalated, none]
      · exact absurd pending (trusted promised)
    · rfl
    · exact le_rfl
  have failed : Move c p a s { s with
      orders := Function.update s.orders id
        { (s.orders id).failedAs settled with settledAt := env.now, status := .returning }
      capacity := capacity } :=
    .buyFailed id r canonical _ capacity placed applies ref outcome rfl buy (.inl ⟨open', rfl⟩)
      rfl entry booked
  exact .head failed (marked_moves { s with orders := _, capacity := _ } id watch reconciled marked)

variable (env) in
/-- A sell that failed gives its shares back. -/
theorem sellFailed_moves (outcome : r.outcome = .failed) (sell : (s.orders id).kind = .sell)
    (open' : (s.orders id).outcome = none ∧
      ((s.orders id).status = .dispatched ∨ (s.orders id).status = .escalated) ∨
      (s.orders id).status = .pending)
    (settled : Bool) (watch : Watch) (reconciled : Ref → Bool) (token : Token) (capacity : Capacity.State CapKey)
    (marked : reconciled = s.reconciled ∨ reconciled = Function.update s.reconciled (.order id) true)
    (minted : (s.arc (s.orders id).underlying).mint (s.orders id).user (s.orders id).amountIn = .ok token)
    (booked : Capacity.revertRedeem s.capacity c.self (s.orders id).capKey = .ok capacity) :
    Moves c p a s { s with
      orders := Function.update s.orders id
        { (s.orders id).failedAs settled with status := .cancelled, settledAt := env.now }
      arc := Function.update s.arc (s.orders id).underlying token
      capacity := capacity, watch := watch, reconciled := reconciled } := by
  have entry : Entry s.money (s.orders id) s.money
      { (s.orders id).failedAs settled with status := .cancelled, settledAt := env.now } 0 := by
    constructor
    · rw [escrow_sell sell, escrow_sell (by exact sell)]
      rfl
    · rfl
    · exact le_rfl
  have failed : Move c p a s { s with
      orders := Function.update s.orders id
        { (s.orders id).failedAs settled with status := .cancelled, settledAt := env.now }
      arc := Function.update s.arc (s.orders id).underlying token, capacity := capacity } :=
    .sellFailed id r canonical _ token capacity placed applies ref outcome rfl sell open' rfl rfl
      entry minted booked
  exact .head failed
    (marked_moves { s with orders := _, arc := _, capacity := _ } id watch reconciled marked)

include regular in
theorem settleFailed_moves (outcome : r.outcome = .failed)
    (trusted : p.trusted → (s.orders id).kind = .buy → (s.orders id).status ≠ .pending)
    (done : settleFailed c s env id r canonical = .ok (after, changed)) : Moves c p a s after := by
  simp only [settleFailed, ite_ok, bind_ok, pure_ok, onCapacity_ok, onArc_ok, removeOpen_ok,
    Prod.mk.injEq] at done
  rw [ref] at done
  obtain ⟨settled, watch, reconciled, same, marked, _⟩ := markSettled_spec
    (s.set id { s.orders id with outcome := some .failed, rawOut := 0 }) env.now id (.order id) canonical
  rw [same] at done
  clear same
  simp only [State.set, Function.update_self, Function.update_idem] at done
  rcases done with ⟨_, rfl, _⟩ | ⟨open', ⟨buy, _, ⟨capacity, booked, rfl⟩,
    ⟨⟨_, cancelled, advanced, none⟩, rfl, _⟩ | ⟨other, _, closed, rfl, _⟩⟩ |
    ⟨sell, _, ⟨opened, _, rfl⟩, _, ⟨token, minted, rfl⟩, _, ⟨capacity, booked, rfl⟩, _, flushed,
      rfl, _⟩⟩
  · exact .refl
  · exact failedAdvanced_moves placed applies ref outcome buy cancelled advanced none settled watch
      reconciled capacity marked booked
  · have live := failed_open buy other open'
    have failed := buyFailed_moves (c := c) (p := p) env placed applies ref outcome buy live
      (fun promised => trusted promised buy) settled watch reconciled capacity marked booked
    simp only [Function.update_self, Function.update_idem] at closed
    refine failed.trans (closeReturnedBuy_moves _ _ env id _ (by exact placed) ?_ ?_ closed)
    · simp only [Function.update_self]
      exact failed_regular regular buy live settled env.now
    · simp only [Function.update_self]
  · have live : (s.orders id).outcome = none ∧
        ((s.orders id).status = .dispatched ∨ (s.orders id).status = .escalated) ∨
        (s.orders id).status = .pending := by
      by_contra neither
      rw [not_or] at neither
      refine open' ⟨fun live => neither.1 ⟨live.1, ?_⟩, neither.2,
        fun late => neither.1 ⟨late.2.2, .inr late.2.1⟩, fun float => sell float.1⟩
      rcases live.2 with dispatched | ⟨buy, _⟩
      · exact .inl dispatched
      · exact absurd buy sell
    have failed := sellFailed_moves (c := c) (p := p) env placed applies ref outcome
      (sells sell) live settled watch reconciled token capacity marked minted booked
    exact (failed.tail (reopens _ opened)).trans
      (flushHeld_moves _ _ env 0 id (by exact placed) flushed)

include regular in
theorem settle_moves (trusted : p.trusted → (s.orders id).kind = .buy → (s.orders id).status ≠ .pending)
    (unfloated : p.unfloated → s.terms.floatEnabled = false)
    (ample : p.ample → r.outcome = .sold → saleOpen (s.orders id) →
      floatPays s env.now id r.amountOut → r.amountOut * scale ≤ s.money.available + (s.orders id).held)
    (done : settle c s env id r canonical = .ok (after, changed)) : Moves c p a s after := by
  unfold settle at done
  cases outcome : r.outcome with
  | bought =>
    rw [outcome] at done
    exact settleBought_moves placed applies ref outcome done
  | sold =>
    rw [outcome] at done
    exact settleSold_moves placed applies ref outcome unfloated
      (fun promised => ample promised outcome) done
  | failed =>
    rw [outcome] at done
    exact settleFailed_moves placed regular applies ref outcome trusted done

omit applies in
theorem review_moves (done : review c s id r = .ok after) : Moves c p a s after := by
  simp only [review, ite_ok, onCapacity_ok, pure_ok] at done
  rw [ref] at done
  rcases done with ⟨_, capacity, marked, rfl⟩ | ⟨_, rfl⟩
  · exact .head (.marks id) (.single (.reviews _ capacity marked))
  · have disputed := kept_move (c := c) (p := p) (a := a) s id
      { s.orders id with disputed := true } placed rfl rfl rfl rfl rfl
    exact .head disputed (.head (watches _ s.watch.halt) (.single (.marks id)))

end

theorem migrationMint_moves (s after : State) (r : Result)
    (applies : a.result = some (r, true)) (underlying : Address) (nonce : Nat)
    (ref : r.ref = .migration underlying nonce) (unproven : s.reconciled r.ref = false)
    (done : migrationMint c { s with reconciled := Function.update s.reconciled r.ref true } r =
      .ok after) : Moves c p a s after := by
  simp only [migrationMint, bind_ok, require_ok, onArc_ok, onCapacity_ok, not_or, not_not] at done
  obtain ⟨_, ⟨outcome, _⟩, _, same, _, _, _, ⟨token, minted, rfl⟩, capacity, booked, rfl⟩ := done
  rw [ref] at same
  obtain rfl : underlying = r.underlying := same
  exact .single (.migrated r r.underlying nonce s.roles.treasury token capacity applies ref rfl
    outcome unproven minted booked)

end Solonpad.Hub
