import Solonpad.HubFrames
import Solonpad.IndexedList

/-!
The hub's list of open orders beside what decides whether an order belongs on it: its kind, its status and its
outcome. A call places one order, rewrites one where it stands, or closes one and takes it off the list.
-/

namespace Solonpad.Hub

open Checked Chain Messages IndexedList

variable {c : Config} {s middle after : State} {env : Env} {id : Nat} {k amount shares : Nat}
  {recipient underlying : Address} {canonical changed : Bool} {b : Book} {r : Result} {mode : DeliverMode}

/-- What an order's place on the list hangs on. -/
structure Stance where
  kind : Kind
  status : Status
  outcome : Option Outcome

def Order.stance (o : Order) : Stance := ⟨o.kind, o.status, o.outcome⟩

/-- The orders that belong on the list. -/
def Stance.isOpen (t : Stance) : Prop :=
  t.status = .pending ∨ t.status = .funded ∨ t.status = .dispatched ∨ t.status = .returning ∨
    t.status = .proceeds ∨ t.kind = .buy ∧ t.status = .escalated ∧ t.outcome = none

structure Book where
  opened : OpenOrders
  orderCount : Nat
  stances : Nat → Stance

def State.book (s : State) : Book := ⟨s.opened, s.orderCount, fun id => (s.orders id).stance⟩

def Book.write (b : Book) (id : Nat) (t : Stance) : Book := { b with stances := Function.update b.stances id t }

def Book.relist (b : Book) (opened : OpenOrders) : Book := { b with opened := opened }

/-- An order rewritten and taken off the list. -/
def Book.Closes (b : Book) (id : Nat) (t : Stance) (after : Book) : Prop :=
  ∃ opened, b.opened.remove id = .ok opened ∧ after = (b.write id t).relist opened

@[simp] theorem Book.write_self (b : Book) (id : Nat) (t : Stance) : (b.write id t).stances id = t :=
  Function.update_self ..

@[simp] theorem Book.write_write (b : Book) (id : Nat) (first second : Stance) :
    (b.write id first).write id second = b.write id second := by
  simp only [Book.write, Function.update_idem]

@[simp] theorem Book.write_stance (s : State) (id : Nat) : s.book.write id (s.orders id).stance = s.book := by
  have same : Function.update s.book.stances id (s.orders id).stance = s.book.stances := Function.update_eq_self ..
  simp only [Book.write, same]

/-! Primitives. -/

theorem book_set (s : State) (id : Nat) (o : Order) : (s.set id o).book = s.book.write id o.stance := by
  simp only [State.book, State.set, Book.write, Book.mk.injEq, true_and]
  funext other
  by_cases same : other = id
  · rw [same, Function.update_self, Function.update_self]
  · rw [Function.update_of_ne same, Function.update_of_ne same]

/-- An order rewritten with its stance kept. -/
theorem book_rewrite (s : State) (id : Nat) (o : Order) (same : o.stance = (s.orders id).stance) :
    (s.set id o).book = s.book := by
  rw [book_set, same, Book.write_stance]

theorem book_push (s : State) (env : Env) (k id : Nat) (recipient : Address) (amount : Nat) :
    (push c s env k id recipient amount).book = s.book := by
  unfold push
  split
  · unfold State.sent
    split <;> rfl
  · exact book_rewrite s id _ rfl

theorem book_pay (s : State) (env : Env) (k id : Nat) (recipient : Address) (amount : Nat) (fromFloat : Bool) :
    (pay c s env k id recipient amount fromFloat).book = s.book := by
  unfold pay
  split
  · rfl
  · dsimp only
    split
    · exact book_push ..
    · exact book_push ..

theorem book_exitPay (s : State) (env : Env) (id : Nat) (recipient : Address) (amount : Nat) :
    (Exits.pay c s env id recipient amount).book = s.book := by
  unfold Exits.pay
  split
  · rfl
  · exact book_push ..

theorem book_escrow (s : State) (amount : Nat) : (s.escrow amount).book = s.book := rfl

theorem book_accrue (s : State) (fee : Nat) : (s.accrue fee).book = s.book := rfl

theorem book_transfer (done : transfer c s env k recipient amount = .ok after) : after.book = s.book := by
  obtain ⟨balance, rfl, _⟩ := transfer_ok _ _ _ _ _ _ done
  rfl

theorem book_unescrow (done : s.unescrow amount = .ok after) : after.book = s.book := by
  obtain ⟨_, rfl⟩ := (unescrow_ok s after amount).mp done
  rfl

theorem book_onArc {call : Token → Tx Token} (done : s.onArc underlying call = .ok after) : after.book = s.book := by
  obtain ⟨token, _, rfl⟩ := (onArc_ok s after underlying call).mp done
  rfl

theorem book_onCapacity {call : Capacity.State CapKey → Tx (Capacity.State CapKey)}
    (done : s.onCapacity call = .ok after) : after.book = s.book := by
  obtain ⟨capacity, _, rfl⟩ := (onCapacity_ok s after call).mp done
  rfl

theorem book_mark (s : State) (now id : Nat) (ref : Ref) (canonical : Bool) :
    (markSettled s now id ref canonical).book = s.book := by
  cases canonical with
  | true => rfl
  | false => exact book_rewrite s id { s.orders id with lzSettled := true } rfl

theorem book_mint (done : mint s env underlying recipient shares canonical = .ok after) : after.book = s.book := by
  simp only [mint, ite_ok, bind_ok, require_ok] at done
  rcases done with ⟨_, minted⟩ | ⟨_, _, _, _, _, minted⟩
  · exact book_onArc minted
  · obtain ⟨watch, same⟩ := checkStale_spec s env.now
    rw [book_onArc minted, same]
    rfl

/-- The last step of a closing: the order leaves the list as it was rewritten. -/
theorem book_removeOpen {t : Stance} (rewritten : s.book = b.write id t)
    (done : removeOpen s id = .ok after) : b.Closes id t after.book := by
  obtain ⟨opened, removed, rfl⟩ := (removeOpen_ok s after id).mp done
  have same : s.opened = b.opened := congrArg Book.opened rewritten
  exact ⟨opened, same ▸ removed, congrArg (fun b => Book.relist b opened) rewritten⟩

/-! What a call does to the order it is about. -/

/-- The order is rewritten and stands where it stood, or it is closed. -/
inductive Book.Keeps (b : Book) (id : Nat) : Book → Prop where
  | rewritten (t : Stance) (same : t.isOpen ↔ (b.stances id).isOpen) : Keeps b id (b.write id t)
  | closed (t : Stance) (shut : ¬ t.isOpen) (after : Book) (closes : b.Closes id t after) : Keeps b id after

theorem Book.Keeps.refl (b : Book) (id : Nat) : b.Keeps id b := by
  have kept : b.Keeps id (b.write id (b.stances id)) := .rewritten (b.stances id) Iff.rfl
  simpa only [Book.write, Function.update_eq_self] using kept

theorem Book.Keeps.same {after : Book} (same : after = b) : b.Keeps id after := same ▸ .refl b id

theorem Book.Closes.of_write {after : Book} {first second : Stance}
    (closes : (b.write id first).Closes id second after) : b.Closes id second after := by
  obtain ⟨opened, removed, rfl⟩ := closes
  exact ⟨opened, removed, by rw [Book.write_write]⟩

/-- A rewriting before it. -/
theorem Book.Keeps.of_write {after : Book} {t : Stance} (same : t.isOpen ↔ (b.stances id).isOpen)
    (next : (b.write id t).Keeps id after) : b.Keeps id after := by
  cases next with
  | rewritten final kept =>
    rw [Book.write_write]
    rw [Book.write_self] at kept
    exact .rewritten final (kept.trans same)
  | closed final shut after closes => exact .closed final shut after closes.of_write

theorem shut_filled (kind : Kind) (outcome : Option Outcome) : ¬ Stance.isOpen ⟨kind, .filled, outcome⟩ := by
  simp [Stance.isOpen]

theorem shut_cancelled (kind : Kind) (outcome : Option Outcome) : ¬ Stance.isOpen ⟨kind, .cancelled, outcome⟩ := by
  simp [Stance.isOpen]

/-! The settlement rules. -/

theorem flushHeld_book (done : flushHeld c s env k id = .ok after) : after.book = s.book := by
  simp only [flushHeld, ite_ok, bind_ok, pure_ok] at done
  rcases done with ⟨_, rfl⟩ | ⟨_, held, freed, rfl⟩
  · rfl
  · rw [book_pay, book_unescrow freed, book_rewrite]
    rfl

theorem payHeldProceeds_book (done : payHeldProceeds c s env id = .ok after) :
    ¬ isBack (s.orders id).held (s.orders id).amountOut ∧ after.book = s.book ∨
      s.book.Closes id ⟨(s.orders id).kind, .filled, (s.orders id).outcome⟩ after.book := by
  simp only [payHeldProceeds, ite_ok, bind_ok, pure_ok] at done
  rcases done with ⟨away, rfl⟩ | ⟨_, held, freed, removed, closed, rfl⟩
  · exact .inl ⟨away, rfl⟩
  · refine .inr ?_
    rw [book_pay]
    refine book_removeOpen ?_ closed
    have orders : held.orders id = { s.orders id with held := 0 } := by
      obtain ⟨_, rfl⟩ := (unescrow_ok _ _ _).mp freed
      exact Function.update_self ..
    rw [book_set, book_accrue, book_unescrow freed, book_rewrite _ _ _ (by rfl)]
    exact congrArg (s.book.write id) (by simp only [Order.stance, State.accrue, orders])

theorem payHeldProceeds_tends (done : payHeldProceeds c s env id = .ok after) : s.book.Keeps id after.book := by
  rcases payHeldProceeds_book done with ⟨_, same⟩ | closes
  · exact .same same
  · exact .closed _ (shut_filled _ _) _ closes

theorem closeReturnedBuy_tends {force : Bool} (done : closeReturnedBuy c s env id force = .ok after) :
    s.book.Keeps id after.book := by
  simp only [closeReturnedBuy, ite_ok, bind_ok, pure_ok, sub_ok] at done
  rcases done with ⟨_, rfl⟩ | ⟨_, ⟨_, rfl⟩ | ⟨_, removed, closed, paid⟩⟩
  · exact .refl _ _
  · exact .refl _ _
  have closes := book_removeOpen (book_set s id _) closed
  suffices after.book = removed.book from .closed _ (shut_cancelled _ _) _ (this ▸ closes)
  rcases paid with ⟨_, freed, pooled, rfl⟩ | ⟨_, _, _, freed, pooled, ⟨_, rfl⟩ | ⟨_, rfl⟩⟩
  · rw [book_pay, book_unescrow pooled, book_rewrite]
    rfl
  · rw [book_pay, book_unescrow pooled, book_rewrite _ _ _ (by rfl), book_rewrite]
    rfl
  · rw [book_unescrow pooled, book_rewrite _ _ _ (by rfl), book_rewrite]
    rfl

theorem refundBuy_tends (done : refundBuy c s env id = .ok after) : s.book.Keeps id after.book := by
  simp only [refundBuy, ite_ok, bind_ok, pure_ok] at done
  obtain ⟨removed, closed, freed, pooled, paid⟩ := done
  have closes := book_removeOpen (book_set s id _) closed
  suffices after.book = removed.book from .closed _ (shut_cancelled _ _) _ (this ▸ closes)
  rcases paid with ⟨_, rfl⟩ | ⟨_, rfl⟩
  · rw [book_pay, book_escrow, book_rewrite _ _ _ (by rfl), book_unescrow pooled, book_rewrite]
    rfl
  · rw [book_pay, book_unescrow pooled, book_rewrite]
    rfl

theorem requestCancel_tends (done : Settlement.requestCancel c s env id = .ok after) : s.book.Keeps id after.book := by
  simp only [Settlement.requestCancel, ite_ok, bind_ok, pure_ok] at done
  rcases done with ⟨_, removed, closed, freed, pooled, paid⟩ | ⟨_, rfl⟩
  · have asked : (s.set id { s.orders id with cancelRequested := true }).book = s.book := book_rewrite _ _ _ rfl
    have closes := book_removeOpen (book_set _ id _) closed
    rw [asked] at closes
    suffices after.book = removed.book from .closed _ (shut_cancelled _ _) _ (this ▸ closes)
    rw [← paid, book_pay, book_rewrite _ _ _ (by rfl), book_unescrow pooled]
  · exact .same (book_rewrite _ _ _ rfl)

theorem cancelBuy_tends (done : cancelBuy c s env id = .ok after) : s.book.Keeps id after.book := by
  simp only [cancelBuy, ite_ok, bind_ok, require_ok] at done
  obtain ⟨_, _, _, _, ⟨_, _, _, refunded⟩ | ⟨_, _, _, _, _, requested⟩⟩ := done
  · exact refundBuy_tends refunded
  · exact requestCancel_tends requested

/-- A launched buy is funded; else it was refunded or queues again. -/
theorem launch_book {routeFee dust : Nat} {launched : Bool}
    (done : Settlement.launch c s env id routeFee dust = .ok (after, launched)) :
    launched = false ∧ s.book.Keeps id after.book ∨ ∃ t, t.isOpen ∧ after.book = s.book.write id t := by
  simp only [Settlement.launch, ite_ok, bind_ok, require_ok, pure_ok, Prod.mk.injEq] at done
  obtain ⟨_, _, fits, _, ⟨_, ⟨_, _, refunded, rfl, rfl⟩ | ⟨_, rfl, rfl⟩⟩ |
    ⟨_, booked, reserved, marked, sent, freed, paid, _, _, rfl, _⟩⟩ := done
  · exact .inl ⟨rfl, refundBuy_tends refunded⟩
  · exact .inl ⟨rfl, .refl _ _⟩
  · have kept : booked.book = s.book := by
      rcases reserved with ⟨_, reserved⟩ | ⟨_, rfl⟩
      · exact book_onCapacity reserved
      · rfl
    have taken : freed.book = s.book.write id (s.orders id).stance := by
      rw [book_unescrow paid, book_set, book_onCapacity sent, kept]
      rfl
    have funded := book_set freed id { freed.orders id with status := .funded, dispatchedAt := env.now }
    rw [taken, Book.write_write] at funded
    exact .inr ⟨_, .inr (.inl rfl), funded⟩

/-- Money booked to an order leaves its stance. -/
theorem credited_book (s : State) (id amount : Nat) (o : Order) (same : o.stance = (s.orders id).stance) :
    ((s.set id o).escrow amount).book = s.book := by
  rw [book_escrow, book_rewrite s id o same]

theorem receiveReturn_tends (done : Settlement.receiveReturn c s env id amount = .ok after) :
    s.book.Keeps id after.book := by
  simp only [Settlement.receiveReturn, ite_ok, pure_ok] at done
  have credited := credited_book s id amount
    { s.orders id with held := (s.orders id).held + amount } rfl
  rcases done with ⟨_, rfl⟩ | ⟨_, ⟨_, ⟨_, closed⟩ | ⟨_, ⟨_, paid⟩ | ⟨_, rfl⟩⟩⟩ | ⟨_, rfl⟩⟩
  · exact .refl _ _
  · exact credited ▸ closeReturnedBuy_tends closed
  · exact credited ▸ payHeldProceeds_tends paid
  · exact .same credited
  · exact .same (book_pay ..)

theorem subsidize_tends (done : Settlement.subsidize c s env id amount = .ok after) : s.book.Keeps id after.book := by
  simp only [Settlement.subsidize, ite_ok, pure_ok] at done
  have credited := credited_book s id amount
    { s.orders id with extra := (s.orders id).extra + amount } rfl
  rcases done with ⟨_, closed⟩ | ⟨_, rfl⟩
  · exact credited ▸ closeReturnedBuy_tends closed
  · exact .same credited

theorem takeReward_book {key : CapKey} {status raw refund : Nat}
    (done : takeReward c s env key = .ok (after, status, raw, refund)) : after.book = s.book := by
  simp only [takeReward, ite_ok, bind_ok, pure_ok, require_ok, Prod.mk.injEq] at done
  obtain ⟨_, _, _, _, ⟨_, moved, handed, rfl, _⟩ | ⟨_, ⟨_, freed, paid, moved, sent, rfl, _⟩ | ⟨_, rfl, _⟩⟩⟩ := done
  · rw [book_onArc handed, book_rewrite]
    rfl
  · rw [book_transfer sent, book_unescrow paid, book_rewrite]
    rfl
  · rfl

theorem claimPay_book (done : claimPay c s env id recipient = .ok after) : after.book = s.book := by
  simp only [claimPay, bind_ok, require_ok, sub_ok] at done
  obtain ⟨_, _, _, _, sent⟩ := done
  exact (book_transfer sent).trans (book_rewrite s id _ rfl)

theorem voidClaimable_book (done : Settlement.voidClaimable s id amount = .ok after) : after.book = s.book := by
  simp only [Settlement.voidClaimable, bind_ok, require_ok, sub_ok, pure_ok] at done
  obtain ⟨_, _, _, _, rfl⟩ := done
  exact book_rewrite s id _ rfl

/-! Results. -/

theorem issue_book {o : Order} (done : issue c s env o recipient r canonical = .ok after) : after.book = s.book := by
  simp only [issue, bind_ok, ite_ok, pure_ok] at done
  obtain ⟨credited, minted, booked, finalized, ⟨_, reviewed⟩ | ⟨_, rfl⟩⟩ := done
  · rw [book_onCapacity reviewed, book_onCapacity finalized, book_mint minted]
  · rw [book_onCapacity finalized, book_mint minted]

theorem settleBought_tends (done : settleBought c s env id r canonical = .ok (after, changed)) :
    s.book.Keeps id after.book := by
  simp only [settleBought, ite_ok, bind_ok, pure_ok, Prod.mk.injEq] at done
  rcases done with ⟨_, rfl, _⟩ | ⟨_, ⟨cancelled, issued, done, rfl, _⟩ | ⟨_, ⟨_, rfl, _⟩ |
    ⟨_, issued, done, taken, fee, freed, extra, flushed, held, removed, closed, rfl, _⟩⟩⟩
  · exact .refl _ _
  · have shut : ¬ (s.book.stances id).isOpen := by
      have status : (s.book.stances id).status = .cancelled := cancelled.1
      simp [Stance.isOpen, status]
    have moved := book_set issued id
      { s.orders id with orphaned := true, rawOut := r.amountOut, outcome := some .bought }
    rw [issue_book done] at moved
    rw [book_mark, moved]
    refine .rewritten _ (iff_of_false ?_ shut)
    simp [Order.stance, Stance.isOpen, cancelled.1]
  · exact .refl _ _
  · have answered : flushed.book = s.book.write id ⟨(s.orders id).kind, .filled, some .bought⟩ := by
      rw [flushHeld_book held, book_pay, book_unescrow extra, book_rewrite _ _ _ (by rfl), book_accrue,
        book_unescrow fee, book_set, issue_book done]
      rfl
    have closes := book_removeOpen answered closed
    rw [book_mark]
    exact .closed _ (shut_filled _ _) _ closes

/-- A sale that leaves its order waiting for the money meets one that is still listed. -/
def SaleListed (s : State) (now id : Nat) (r : Result) : Prop :=
  saleOpen (s.orders id) → (s.orders id).status = .escalated →
    r.amountOut = 0 ∨ isBack (s.orders id).held (saleNet (s.orders id) r.amountOut) ∨
      floatPays s now id r.amountOut

instance (s : State) (now id : Nat) (r : Result) : Decidable (SaleListed s now id r) :=
  inferInstanceAs (Decidable (_ → _ → _))

/-- Marking a result as settled touches neither what the float can pay nor what the order holds. -/
theorem mark_float (s : State) (now id : Nat) (ref : Ref) (canonical : Bool) :
    (markSettled s now id ref canonical).terms = s.terms ∧
      (markSettled s now id ref canonical).money = s.money ∧
      payAllowance (markSettled s now id ref canonical) now = payAllowance s now ∧
      ((markSettled s now id ref canonical).orders id).held = (s.orders id).held := by
  cases canonical with
  | true => exact ⟨rfl, rfl, rfl, rfl⟩
  | false =>
    refine ⟨rfl, rfl, rfl, ?_⟩
    simp [markSettled, State.set]

theorem settleSold_tends (listed : SaleListed s env.now id r)
    (done : settleSold c s env id r canonical = .ok (after, changed)) : s.book.Keeps id after.book := by
  simp only [settleSold, ite_ok, bind_ok, pure_ok, sub_ok, Prod.mk.injEq] at done
  rcases done with ⟨_, rfl, _⟩ | ⟨buy, ⟨_, rfl, _⟩ | ⟨live, net, ⟨_, netted⟩, booked, finalized, done⟩⟩
  · exact .refl _ _
  · exact .refl _ _
  obtain ⟨open', none⟩ := not_or.mp live
  have sold : (markSettled booked env.now id r.ref canonical).book =
      s.book.write id ⟨(s.orders id).kind, (s.orders id).status, some .sold⟩ := by
    rw [book_mark, book_onCapacity finalized, book_set]
    rfl
  obtain ⟨terms, money, allowance, held⟩ := mark_float booked env.now id r.ref canonical
  obtain ⟨capacity, _, rfl⟩ := (onCapacity_ok _ _ _).mp finalized
  generalize markSettled _ env.now id r.ref canonical = marked at *
  rcases done with ⟨nothing, removed, closed, flushed, emptied, rfl, _⟩ | ⟨some', ⟨back, paid, proceeds, rfl, _⟩ |
    ⟨away, ⟨float, freed, emptied, removed, closed, paid, _⟩ | ⟨unpaid, rfl, _⟩⟩⟩
  · -- nothing for the holder here
    have closes := book_removeOpen (book_set _ id _) closed
    rw [sold] at closes
    rw [flushHeld_book emptied]
    exact .closed _ (shut_filled _ _) _ closes.of_write
  · have priced := book_rewrite marked id { marked.orders id with amountOut := net } rfl
    rcases payHeldProceeds_book proceeds with ⟨away, _⟩ | closes
    · simp only [State.set, Function.update_self, held] at away
      exact absurd back away
    · rw [priced, sold] at closes
      exact .closed _ (shut_filled _ _) _ closes.of_write
  · have priced : freed.book = s.book.write id ⟨(s.orders id).kind, (s.orders id).status, some .sold⟩ := by
      rw [book_unescrow emptied, book_rewrite _ _ _ (by rfl), sold]
    have filled := book_set freed id { freed.orders id with held := 0, advanced := true, status := .filled }
    rw [priced, Book.write_write] at filled
    have closes := book_removeOpen ((book_accrue _ _).trans filled) closed
    suffices after.book = removed.book from .closed _ (shut_filled _ _) _ (this ▸ closes)
    rw [← paid, book_pay]
  · -- the order waits for the money in `proceeds`, where it was on the list before
    have waiting := book_set marked id { marked.orders id with amountOut := net, status := .proceeds }
    rw [sold, Book.write_write] at waiting
    have open_before : (s.book.stances id).isOpen := by
      rcases not_not.mp open' with dispatched | pending | escalated
      · exact .inr (.inr (.inl dispatched))
      · exact .inl pending
      · exfalso
        rcases listed ⟨sells buy, .inr (.inr escalated), not_not.mp none⟩ escalated with zero | back | float
        · exact some' (by rw [zero, Nat.zero_mul])
        · exact away (netted ▸ back)
        · obtain ⟨_, enabled, affordable, allowed⟩ := float
          have allowed : net ≤ payAllowance marked env.now := by
            rw [allowance, netted]
            exact allowed
          refine unpaid ⟨?_, ?_, allowed⟩
          · change marked.terms.floatEnabled = true
            rw [terms]
            exact enabled
          · change net ≤ marked.money.available
            rw [money, netted]
            exact affordable
    have moved : s.book.Keeps id (s.book.write id
        { marked.orders id with amountOut := net, status := .proceeds : Order }.stance) :=
      .rewritten _ (iff_of_true (by simp [Order.stance, Stance.isOpen]) open_before)
    rw [← waiting] at moved
    simpa only [State.set, Function.update_self, Function.update_idem] using moved

theorem settleFailed_tends (done : settleFailed c s env id r canonical = .ok (after, changed)) :
    s.book.Keeps id after.book := by
  simp only [settleFailed, ite_ok, bind_ok, pure_ok, Prod.mk.injEq] at done
  rcases done with ⟨_, rfl, _⟩ | ⟨live, done⟩
  · exact .refl _ _
  have failed : (markSettled (s.set id { s.orders id with outcome := some .failed, rawOut := 0 }) env.now id r.ref
      canonical).book = s.book.write id ⟨(s.orders id).kind, (s.orders id).status, some .failed⟩ := by
    rw [book_mark, book_set]
    rfl
  generalize markSettled _ env.now id r.ref canonical = marked at *
  rcases done with ⟨buy, released, freed, ⟨float, rfl, _⟩ | ⟨other, returned, closed, rfl, _⟩⟩ |
    ⟨_, removed, closed, minted, undone, reverted, booked, flushed, held, rfl, _⟩
  · -- the float had closed the order before
    rw [book_onCapacity freed, failed]
    refine .rewritten _ (iff_of_false ?_ ?_)
    · simp [Stance.isOpen, float.2.1]
    · simp [State.book, Order.stance, Stance.isOpen, float.2.1]
  · have open_before : (s.book.stances id).isOpen := by
      rcases failed_open buy other live with ⟨none, dispatched | ⟨_, escalated⟩⟩ | pending
      · exact .inr (.inr (.inl dispatched))
      · exact .inr (.inr (.inr (.inr (.inr ⟨buy, escalated, none⟩))))
      · exact .inl pending
    have returning := book_set released id
      { released.orders id with settledAt := env.now, status := .returning }
    rw [book_onCapacity freed, failed, Book.write_write] at returning
    have kept := closeReturnedBuy_tends closed
    rw [returning] at kept
    exact kept.of_write (iff_of_true (by simp [Order.stance, Stance.isOpen]) open_before)
  · have closes := book_removeOpen (book_set marked id _) closed
    rw [failed] at closes
    rw [flushHeld_book held, book_onCapacity booked, book_onArc undone]
    exact .closed _ (shut_cancelled _ _) _ closes.of_write

theorem settle_tends (listed : r.outcome = .sold → SaleListed s env.now id r)
    (done : settle c s env id r canonical = .ok (after, changed)) : s.book.Keeps id after.book := by
  unfold settle at done
  split at done
  · exact settleBought_tends done
  · next sold => exact settleSold_tends (listed sold) done
  · exact settleFailed_tends done

theorem review_book (done : review c s id r = .ok after) : after.book = s.book := by
  simp only [review, ite_ok, pure_ok] at done
  rcases done with ⟨_, reviewed⟩ | ⟨_, rfl⟩
  · rw [book_onCapacity reviewed]
    rfl
  · exact book_rewrite s id { s.orders id with disputed := true } rfl

/-! The exits and the messages to the vault. -/

/-- An order that is open or cancelled stays so when its message goes out. -/
theorem dispatchOrder_tends {value : Nat} {refundTo : Address} {void : Bool}
    (live : (s.book.stances id).isOpen ∨ (s.book.stances id).status = .cancelled)
    (done : dispatchOrder c s env id value refundTo void = .ok after) : s.book.Keeps id after.book := by
  obtain ⟨balance, at_, rfl, _⟩ := dispatchOrder_ok _ _ _ _ _ _ _ done
  have told := book_set s id ((s.orders id).told at_ (s.orders id).extra (s.orders id).voided)
  have moved : s.book.Keeps id (s.book.write id
      ((s.orders id).told at_ (s.orders id).extra (s.orders id).voided).stance) := by
    refine .rewritten _ ?_
    by_cases cancelled : (s.orders id).status = .cancelled
    · refine iff_of_false ?_ ?_
      · simp [Order.stance, Order.told, Stance.isOpen, cancelled]
      · simp [State.book, Order.stance, Stance.isOpen, cancelled]
    · refine iff_of_true ?_ (live.resolve_right cancelled)
      simp [Order.stance, Order.told, Stance.isOpen, cancelled]
  rw [← told] at moved
  exact moved

theorem dispatchFromReserve_tends (live : (s.book.stances id).isOpen)
    (done : dispatchFromReserve c s env id = .ok after) : s.book.Keeps id after.book := by
  simp only [dispatchFromReserve, bind_ok, require_ok] at done
  obtain ⟨_, _, freed, paid, sent⟩ := done
  have kept : freed.book = s.book := by
    rw [book_unescrow paid, book_rewrite]
    rfl
  rw [← kept] at live ⊢
  exact dispatchOrder_tends (.inl live) sent

theorem sendDeliver_book {paid : Nat}
    (done : sendDeliver c s env k underlying shares recipient mode paid = .ok after) : after.book = s.book := by
  obtain ⟨balance, rfl, _⟩ := sendDeliver_ok _ _ _ _ _ _ _ _ _ done
  rfl

theorem escalate_tends (done : Exits.escalate c s env id recipient = .ok after) : s.book.Keeps id after.book := by
  simp only [Exits.escalate, bind_ok, require_ok] at done
  obtain ⟨_, sell, _, _, _, _, _, _, removed, closed, sent⟩ := done
  have closes := book_removeOpen (book_set s id _) closed
  rw [sendDeliver_book sent]
  refine .closed _ ?_ _ closes
  simp [Order.stance, Stance.isOpen, sell]

/-- A buy whose money is on its way back has failed. -/
theorem Order.Regular.failed {o : Order} (regular : o.Regular) (returning : o.status = .returning) :
    o.outcome = some .failed := by
  have proper := regular.proper
  simp only [Order.phase, (regular.returning returning).1, returning] at proper
  rcases outcome : o.outcome with _ | _ | _ | _ <;> simp_all [Proper]

theorem escalateAnswered_tends (regular : (s.orders id).Regular)
    (done : escalateAnswered c s env id recipient = .ok after) : s.book.Keeps id after.book := by
  simp only [escalateAnswered, bind_ok, require_ok, ite_ok] at done
  obtain ⟨_, answered, _, _, removed, closed, paid⟩ := done
  have closes := book_removeOpen (book_set s id _) closed
  have shut : ¬ Stance.isOpen ⟨(s.orders id).kind, .escalated, (s.orders id).outcome⟩ := by
    by_cases returning : (s.orders id).status = .returning
    · simp [Stance.isOpen, regular.failed returning]
    · have proceeds : (s.orders id).status = .proceeds := by
        by_contra neither
        exact answered ⟨returning, neither⟩
      simp [Stance.isOpen, regular.proceeds proceeds]
  suffices after.book = removed.book from .closed _ shut _ (this ▸ closes)
  rcases paid with ⟨_, freed, pooled, sent⟩ | ⟨_, freed, pooled, _, _, sent⟩
  · rw [sendDeliver_book sent, book_exitPay, book_rewrite _ _ _ (by rfl), book_unescrow pooled]
  · rw [sendDeliver_book sent, book_exitPay, book_accrue, book_rewrite _ _ _ (by rfl), book_unescrow pooled]

theorem escalateFunds_tends (regular : (s.orders id).Regular)
    (done : Exits.escalateFunds c s env id recipient = .ok after) : s.book.Keeps id after.book := by
  simp only [Exits.escalateFunds, bind_ok, require_ok, ite_ok] at done
  obtain ⟨_, _, _, _, ⟨⟨buy, none, _, live⟩, _, _, sent⟩ | ⟨_, answered⟩⟩ := done
  · -- the result still decides, so the buy stays listed
    have open_before : (s.book.stances id).isOpen := by
      rcases live with funded | dispatched
      · exact .inr (.inl funded)
      · exact .inr (.inr (.inl dispatched))
    rw [sendDeliver_book sent, book_set]
    refine .rewritten _ (iff_of_true ?_ open_before)
    exact .inr (.inr (.inr (.inr (.inr ⟨buy, rfl, none⟩))))
  · exact escalateAnswered_tends regular answered

/-- Who may void has an open order, or one the float refunded. -/
theorem checkVoid_book {operator : Bool} {paid lzFee : Nat}
    (done : checkVoid s id operator paid lzFee = .ok after) : after.book = s.book ∧
      ((s.book.stances id).isOpen ∨ (s.book.stances id).status = .cancelled) := by
  simp only [checkVoid, bind_ok, require_ok, ite_ok, pure_ok] at done
  obtain ⟨_, allowed, kept⟩ := done
  have live : (s.book.stances id).isOpen ∨ (s.book.stances id).status = .cancelled := by
    rw [not_or, not_or, not_not] at allowed
    rcases not_not.mp allowed.2.2 with ⟨_, cancelled⟩ | ⟨funded | dispatched, _⟩
    · exact .inr cancelled
    · exact .inl (.inr (.inl funded))
    · exact .inl (.inr (.inr (.inl dispatched)))
  refine ⟨?_, live⟩
  rcases kept with ⟨_, rfl⟩ | ⟨_, _, _, _, _, freed⟩
  · rfl
  · rw [book_unescrow freed, book_rewrite]
    rfl

theorem cancelReward_tends (done : Exits.cancelReward c s env id = .ok after) : s.book.Keeps id after.book := by
  simp only [Exits.cancelReward, bind_ok, require_ok] at done
  obtain ⟨_, _, middle, refunded, released⟩ := done
  rw [book_onCapacity released]
  exact refundBuy_tends refunded

/-! Placing. -/

/-- A new order, listed last. -/
def Book.place (b : Book) (t : Stance) : Book where
  opened := b.opened.push b.orderCount
  orderCount := b.orderCount + 1
  stances := Function.update b.stances b.orderCount t

theorem place_book (user underlying : Address) (kind : Kind) (status : Status) (amountIn minOut fee : Nat) :
    (place s env user underlying kind status amountIn minOut fee).book = s.book.place ⟨kind, status, none⟩ := by
  have placed := book_set s s.orderCount { Order.blank with
    user := user, underlying := underlying, kind := kind, status := status, createdAt := env.now
    amountIn := amountIn, minOut := minOut, fee := fee
    feeBps := if kind = .buy then s.terms.buyFeeBps else s.terms.sellFeeBps
    route := (s.terms.listings underlying).route, capKey := .order s.orderCount }
  exact congrArg (fun b : Book => (⟨s.opened.push s.orderCount, s.orderCount + 1, b.stances⟩ : Book)) placed

theorem placeBuy_book {user : Address} {usdcIn minShares extra lane fee : Nat} {placed : Placed}
    (done : placeBuy s env user underlying usdcIn minShares extra lane fee = .ok placed) :
    placed.state.book = s.book.place ⟨.buy, .pending, none⟩ := by
  simp only [placeBuy, bind_ok, ite_ok, pure_ok] at done
  obtain ⟨_, _, rfl⟩ := done
  rw [book_escrow, book_rewrite _ _ _ (by rfl), place_book]

theorem beginReward_book {key : CapKey} {receiver : Address} {budget minRaw path : Nat}
    (done : beginReward s env key underlying budget minRaw receiver path = .ok after) :
    after.book = s.book.place ⟨.buy, .pending, none⟩ := by
  simp only [beginReward, bind_ok, require_ok, sub_ok, pure_ok] at done
  obtain ⟨_, _, _, _, _, _, placed, bought, rfl⟩ := done
  change (placed.state.set s.orderCount { placed.state.orders s.orderCount with capKey := key }).book = _
  rw [book_rewrite _ _ _ (by rfl), placeBuy_book bought]

theorem Book.place_write (b : Book) (t : Stance) : (b.place t).write b.orderCount t = b.place t := by
  simp only [Book.place, Book.write, Function.update_idem]

/-- A placed order that a call may touch once more. -/
theorem canonicalRedeem_closes (done : Exits.canonicalRedeem c s env underlying shares recipient mode = .ok after) :
    (s.book.place ⟨.sell, .escalated, none⟩).Closes s.orderCount ⟨.sell, .escalated, none⟩ after.book := by
  simp only [Exits.canonicalRedeem, bind_ok, require_ok, sub_ok, ite_ok, pure_ok] at done
  obtain ⟨_, _, _, _, burned, taken, taxed, charged, _, _, _, _, booked, begun, removed, closed, sent⟩ := done
  have kept : taxed.book = s.book := by
    rcases charged with ⟨_, minted⟩ | ⟨_, rfl⟩
    · rw [book_onArc minted, book_onArc taken]
    · exact book_onArc taken
  have count : taxed.orderCount = s.orderCount := congrArg Book.orderCount kept
  rw [count] at closed
  rw [sendDeliver_book sent]
  refine book_removeOpen ?_ closed
  have written := Book.place_write s.book ⟨.sell, .escalated, none⟩
  rw [book_onCapacity begun, place_book, kept]
  exact written.symm

theorem requestSell_tends {minOut : Nat} (done : requestSell c s env underlying shares minOut = .ok after) :
    (s.book.place ⟨.sell, .pending, none⟩).Keeps s.orderCount after.book := by
  simp only [requestSell, bind_ok, require_ok, ite_ok, pure_ok] at done
  obtain ⟨_, _, _, _, burned, taken, booked, begun, sent⟩ := done
  have kept : burned.book = s.book := by
    rw [book_onArc taken]
    rfl
  have count : burned.orderCount = s.orderCount := congrArg Book.orderCount kept
  have placed : booked.book = s.book.place ⟨.sell, .pending, none⟩ := by
    rw [book_onCapacity begun, place_book, kept]
  rcases sent with ⟨_, sent⟩ | ⟨_, rfl⟩
  · rw [count] at sent
    rw [← placed]
    refine dispatchOrder_tends (.inl ?_) sent
    rw [placed]
    have stance : (s.book.place ⟨.sell, .pending, none⟩).stances s.orderCount = ⟨.sell, .pending, none⟩ :=
      Function.update_self ..
    rw [stance]
    exact .inl rfl
  · exact .same placed

/-! The entry points. -/

/-- What an accepted call does to the list: nothing, something about one order, or a new order that
stays listed or leaves at once. -/
inductive Books (b after : Book) : Prop where
  | same (same : after = b)
  | tends (id : Nat) (kept : b.Keeps id after)
  | places (t : Stance) (open' : t.isOpen) (kept : (b.place t).Keeps b.orderCount after)
  | passes (t : Stance) (shut : ¬ t.isOpen) (closes : (b.place t).Closes b.orderCount t after)

/-- Every sale a call applies meets a listed order or settles its order at once. -/
def SalesListed (s : State) (call : Call) : Prop :=
  ∀ answer ∈ call.answer, answer.2.outcome = .sold → SaleListed s call.env.now answer.1 answer.2

instance (s : State) (call : Call) : Decidable (SalesListed s call) :=
  inferInstanceAs (Decidable (∀ _ ∈ _, _ → _))

theorem lzReceive_books {srcEid : Nat} (listed : SalesListed s ⟨env, .lzReceive srcEid r⟩)
    (done : lzReceive c s env srcEid r = .ok after) : Books s.book after.book := by
  obtain ⟨id, changed, named, _, settled⟩ := lzReceive_applies done
  have answers : (id, r) ∈ Call.answer ⟨env, .lzReceive srcEid r⟩ := answer_order rfl named
  exact .tends id (settle_tends (listed _ answers) settled)

theorem reconcile_books (listed : SalesListed s ⟨env, .reconcile r⟩)
    (done : reconcile c s env r = .ok after) : Books s.book after.book := by
  cases named : r.ref with
  | order id =>
    have answers : (id, r) ∈ Call.answer ⟨env, .reconcile r⟩ := answer_order rfl named
    obtain ⟨_, ⟨_, reviewed⟩ | ⟨_, changed, settled⟩⟩ := reconcile_applies named done
    · exact .same (review_book reviewed)
    · exact .tends id (settle_tends (listed _ answers) settled)
  | migration underlying nonce =>
    simp only [reconcile, named, bind_ok, require_ok, migrationMint] at done
    obtain ⟨_, _, _, _, _, _, _, _, _, _, middle, minted, booked⟩ := done
    refine .same ?_
    rw [book_onCapacity booked, book_onArc minted]
    rfl

theorem launch_books {routeFee dust : Nat} (done : launch c s env id routeFee dust = .ok after) :
    Books s.book after.book := by
  simp only [launch, known, bind_ok, require_ok, ite_ok, pure_ok, Prod.exists] at done
  obtain ⟨_, _, _, _, _, _, _, queued, middle, launched, first, second⟩ := done
  have pending : (s.orders id).status = .pending := by
    by_contra other
    exact queued (.inl other)
  refine .tends id ?_
  rcases launch_book first with ⟨rfl, kept⟩ | ⟨t, open', funded⟩
  · rcases second with ⟨⟨never, _⟩, _⟩ | ⟨_, rfl⟩
    · cases never
    · exact kept
  · have same : t.isOpen ↔ (s.book.stances id).isOpen := iff_of_true open' (.inl pending)
    rcases second with ⟨_, sent⟩ | ⟨_, rfl⟩
    · have live : (middle.book.stances id).isOpen := by
        rw [funded, Book.write_self]
        exact open'
      have told := dispatchFromReserve_tends live sent
      rw [funded] at told
      exact told.of_write same
    · exact funded ▸ .rewritten t same

theorem step_books {call : Call} (regular : Regular s) (listed : SalesListed s call)
    (taken : step c s call = .ok after) : Books s.book after.book := by
  obtain ⟨env, action⟩ := call
  cases action with
  | requestBuy underlying usdcIn minSharesOut =>
    simp only [step, requestBuy, bind_ok, require_ok, pure_ok] at taken
    obtain ⟨_, _, _, _, _, _, _, _, placed, bought, _, _, rfl⟩ := taken
    have filed := placeBuy_book bought
    exact .places ⟨.buy, .pending, none⟩ (.inl rfl) (.same filed)
  | requestSell underlying sharesIn minUsdcOut =>
    exact .places ⟨.sell, .pending, none⟩ (.inl rfl) (requestSell_tends taken)
  | beginFunding orderId underlying budget18 minRawOut receiver path =>
    simp only [step, beginFunding, live, Hub.listed, bind_ok, require_ok] at taken
    obtain ⟨_, _, _, _, _, _, done⟩ := taken
    have filed := beginReward_book done
    exact .places ⟨.buy, .pending, none⟩ (.inl rfl) (.same filed)
  | canonicalRedeem underlying sharesIn recipient mode =>
    simp only [step, canonicalRedeem, bind_ok] at taken
    obtain ⟨_, _, done⟩ := taken
    have closes := canonicalRedeem_closes done
    exact .passes ⟨.sell, .escalated, none⟩ (by simp [Stance.isOpen]) closes
  | launch id routeFee dust => exact launch_books taken
  | dispatch id =>
    simp only [step, dispatch, known, bind_ok, require_ok] at taken
    obtain ⟨_, _, _, allowed, _, _, sent⟩ := taken
    refine .tends id (dispatchOrder_tends (s := s.deposit env.value) (.inl ?_) sent)
    split at allowed
    · exact .inr (.inl allowed)
    · exact .inl allowed
  | cancel id =>
    simp only [step, cancel, known, bind_ok, require_ok] at taken
    obtain ⟨_, _, done⟩ := taken
    exact .tends id (cancelBuy_tends done)
  | escalate id recipient =>
    simp only [step, escalate, known, bind_ok, require_ok] at taken
    obtain ⟨_, _, done⟩ := taken
    exact .tends id (escalate_tends (s := s.deposit env.value) done)
  | escalateFunds id recipient =>
    simp only [step, escalateFunds, known, bind_ok, require_ok] at taken
    obtain ⟨_, _, done⟩ := taken
    exact .tends id (escalateFunds_tends (s := s.deposit env.value) (regular.orders id) done)
  | voidOrder id =>
    simp only [step, voidOrder, known, bind_ok, require_ok] at taken
    obtain ⟨_, _, checked, done, sent⟩ := taken
    obtain ⟨kept, live⟩ := checkVoid_book done
    rw [← kept] at live
    have told := dispatchOrder_tends live sent
    rw [kept] at told
    exact .tends id told
  | cancelReward id =>
    simp only [step, cancelReward, known, bind_ok, require_ok] at taken
    obtain ⟨_, _, _, _, done⟩ := taken
    exact .tends id (cancelReward_tends done)
  | claim id =>
    simp only [step, claim, known, bind_ok, require_ok] at taken
    obtain ⟨_, _, done⟩ := taken
    exact .same (claimPay_book done)
  | receiveReturn id =>
    simp only [step, receiveReturn, bind_ok, require_ok] at taken
    obtain ⟨_, _, done⟩ := taken
    exact .tends id (receiveReturn_tends (s := s.deposit env.value) done)
  | submitFundedBuy orderId =>
    simp only [step, submitFundedBuy, rewardId, bind_ok, require_ok, pure_ok] at taken
    obtain ⟨_, _, id, ⟨_, _, rfl⟩, _, _, _, funded, done⟩ := taken
    exact .tends _ (dispatchFromReserve_tends (.inr (.inl funded)) done)
  | requestCancel orderId =>
    simp only [step, requestCancel, rewardId, bind_ok, require_ok, pure_ok] at taken
    obtain ⟨id, ⟨_, _, rfl⟩, _, _, _, _, done⟩ := taken
    exact .tends _ (requestCancel_tends done)
  | claimResult orderId =>
    simp only [step, claimResult, bind_ok, pure_ok] at taken
    obtain ⟨result, done, rfl⟩ := taken
    exact .same (takeReward_book done)
  | subsidize id =>
    simp only [step, subsidize, known, bind_ok, require_ok] at taken
    obtain ⟨_, _, done⟩ := taken
    exact .tends id (subsidize_tends (s := s.deposit env.value) done)
  | lzReceive srcEid r => exact lzReceive_books listed taken
  | reconcile r => exact reconcile_books listed taken
  | checkStale =>
    simp only [step, pure_ok] at taken
    obtain ⟨watch, same⟩ := checkStale_spec s env.now
    rw [same] at taken
    exact .same (taken ▸ rfl)
  | voidClaimable id amount evidence =>
    simp only [step, voidClaimable, known, bind_ok, require_ok] at taken
    obtain ⟨_, _, _, _, _, _, done⟩ := taken
    exact .same (voidClaimable_book done)
  | claimFees =>
    simp only [step, claimFees, send, bind_ok, require_ok, ite_ok, pure_ok] at taken
    obtain ⟨_, _, ⟨_, rfl⟩ | ⟨_, sent⟩⟩ := taken
    · exact .same rfl
    · have kept := book_transfer sent
      exact .same kept
  | fundFloat =>
    simp only [step, pure_ok] at taken
    exact .same (taken ▸ rfl)
  | withdrawFloat recipient amount =>
    simp only [step, withdrawFloat, send, bind_ok, require_ok, ite_ok, pure_ok] at taken
    obtain ⟨_, _, _, _, _, _, ⟨_, rfl⟩ | ⟨_, sent⟩⟩ := taken
    · exact .same rfl
    · exact .same (book_transfer sent)
  | transferArc underlying holder receiver amount =>
    have moved : s.onArc underlying (Token.transfer · holder receiver amount) = .ok after := taken
    exact .same (book_onArc moved)
  | capacity action =>
    simp only [step, bind_ok, require_ok] at taken
    obtain ⟨_, _, booked⟩ := taken
    exact .same (book_onCapacity booked)
  | setMintLimitBps | setPayLimit | setKeeper | setGuardian | setRewardAdapter | setFloatEnabled | haltMints
  | resumeMints =>
    simp only [step, setMintLimitBps, setPayLimit, setKeeper, setGuardian, setRewardAdapter, setFloatEnabled,
      haltMints, resumeMints, ownerOnly, bind_ok, require_ok, pure_ok] at taken
    obtain ⟨_, _, rfl⟩ := taken
    exact .same rfl
  | setTreasury | setEnabled | setMintFloor | pause | unpause | lowerFees =>
    simp only [step, setTreasury, setEnabled, setMintFloor, pause, unpause, lowerFees, State.setListing, Hub.listed,
      ownerOnly, bind_ok, require_ok, pure_ok] at taken
    obtain ⟨_, _, _, _, rfl⟩ := taken
    exact .same rfl
  | setCanonicalGate | listStock | proposeRoute | executeRoute =>
    simp only [step, setCanonicalGate, listStock, proposeRoute, executeRoute, State.setListing, Hub.listed,
      ownerOnly, bind_ok, require_ok, pure_ok] at taken
    obtain ⟨_, _, _, _, _, _, rfl⟩ := taken
    exact .same rfl

end Solonpad.Hub
