import Solonpad.BuybackExecutor
import Solonpad.OpsVault

/-!
The budgets of the buyback executor and of the operations vault. A total is the sum of what it stands
for and is covered by the contract's coin, in every book a call can find, an open payment's included;
what was paid once is marked, and marks stay.
-/

namespace Solonpad.BuybackExecutor

open Checked LockedCalls RunningTotal Transition

structure Budgeted (b : Book) : Prop where
  total : Totals (fun id => (b.lots id).budget - (b.lots id).spent) b.totalBudget
  backed : b.totalBudget ≤ b.balance
  within : ∀ id, (b.lots id).spent ≤ (b.lots id).budget
  once : b.purchases.Nodup

/-- The mark that keeps a purchase from a second execution. -/
def Marked (b : Book) : PurchaseId → Prop
  | .whole lot => (b.lots lot).executed = true
  | .part _ nonce => b.nonceUsed nonce = true

structure Sound (b : Book) : Prop extends Budgeted b where
  funded : ∀ id, (b.lots id).executed = true → (b.lots id).budget ≠ 0
  marked : ∀ id ∈ b.purchases, Marked b id

def During (b : Book) (p : Purchase) : Prop := Marked b p.id ∧ p.id ∉ b.purchases

variable {b after : Book}

theorem deployed_sound (signer balance : Nat) : Sound (deployed signer balance) where
  total := Totals.zero
  backed := Nat.zero_le _
  within := fun _ => Nat.le_refl _
  once := .nil
  funded := fun _ executed => by cases executed
  marked := fun _ member => by cases member

/-- A book that differs in wiring, policy and more coin only. -/
theorem Sound.kept (sound : Sound b) (after : Book) (lots : after.lots = b.lots) (nonces : after.nonceUsed = b.nonceUsed)
    (total : after.totalBudget = b.totalBudget) (balance : b.balance ≤ after.balance)
    (purchases : after.purchases = b.purchases) :
    Sound after ∧ ∀ p, During b p → During after p := by
  have marks : ∀ id, Marked b id → Marked after id := by
    intro id marked
    cases id with
    | whole lot => rwa [Marked, lots]
    | part lot nonce => rwa [Marked, nonces]
  refine ⟨⟨⟨lots ▸ total ▸ sound.total, ?_, lots ▸ sound.within, purchases ▸ sound.once⟩,
    lots ▸ sound.funded, ?_⟩, ?_⟩
  · rw [total]
    exact sound.backed.trans balance
  · intro id member
    exact marks id (sound.marked id (purchases ▸ member))
  · intro p during
    exact ⟨marks p.id during.1, purchases ▸ during.2⟩

/-- A new lot, whose amount has already arrived. -/
theorem recordFund_sound {id : LotId} {amount : Nat} {protocolDesk : Bool}
    (taken : recordFund b id amount protocolDesk = .ok after) (sound : Sound b)
    (arrived : b.totalBudget + amount ≤ b.balance) : Sound after ∧ ∀ p, During b p → During after p := by
  simp only [recordFund, bind_ok, require_ok, pure_ok] at taken
  obtain ⟨_, ⟨_, positive, vacant⟩, rfl⟩ := taken
  have empty : (b.lots id).executed ≠ true := fun executed => sound.funded id executed vacant
  have marks : ∀ purchase, Marked b purchase → Marked { b with
      lots := Function.update b.lots id ⟨amount, 0, protocolDesk, false, 0⟩
      totalBudget := b.totalBudget + amount } purchase := by
    intro purchase marked
    cases purchase with
    | whole lot =>
      have apart : lot ≠ id := fun same => empty (same ▸ marked)
      simpa only [Marked, Function.update_of_ne apart] using marked
    | part lot nonce => exact marked
  refine ⟨⟨⟨?_, ?_, ?_, sound.once⟩, ?_, ?_⟩, ?_⟩
  · refine sound.total.rewrite (fun _ (l : Lot) => l.budget - l.spent) id _ rfl ?_
    have nothing : (b.lots id).budget - (b.lots id).spent = 0 := by omega
    simp only [nothing]
    omega
  · exact arrived
  · intro lot
    by_cases same : lot = id
    · subst same
      simp
    · simpa only [Function.update_of_ne same] using sound.within lot
  · intro lot
    by_cases same : lot = id
    · subst same
      simp
    · simpa only [Function.update_of_ne same] using sound.funded lot
  · intro purchase member
    exact marks purchase (sound.marked purchase member)
  · intro p during
    exact ⟨marks p.id during.1, during.2⟩

theorem free_sound {c : Config} {call : Free} (taken : free c b call = .ok after) (sound : Sound b) :
    Sound after ∧ ∀ p, During b p → During after p := by
  cases call with
  | configureSources sender converter router =>
    simp only [free, configureSources, bind_ok, require_ok, pure_ok] at taken
    obtain ⟨_, _, rfl⟩ := taken
    exact sound.kept _ rfl rfl rfl (Nat.le_refl _) rfl
  | schedulePricePolicy sender now signer version =>
    simp only [free, schedulePricePolicy, bind_ok, require_ok, pure_ok] at taken
    obtain ⟨_, _, rfl⟩ := taken
    exact sound.kept _ rfl rfl rfl (Nat.le_refl _) rfl
  | activatePricePolicy now =>
    simp only [free, activatePricePolicy, bind_ok, require_ok, pure_ok] at taken
    obtain ⟨_, _, rfl⟩ := taken
    exact sound.kept _ rfl rfl rfl (Nat.le_refl _) rfl
  | receive sender value =>
    simp only [free, receive, bind_ok, require_ok, pure_ok] at taken
    obtain ⟨_, _, rfl⟩ := taken
    exact sound.kept _ rfl rfl rfl (Nat.le_add_right ..) rfl
  | forced value =>
    cases taken
    exact sound.kept _ rfl rfl rfl (Nat.le_add_right ..) rfl
  | fundFromConverter sender id value =>
    simp only [free, fundFromConverter, bind_ok, require_ok] at taken
    obtain ⟨_, _, taken⟩ := taken
    have richer := sound.kept ({ b with balance := b.balance + value }) rfl rfl rfl
      (Nat.le_add_right ..) rfl
    have recorded := recordFund_sound taken richer.1 (Nat.add_le_add_right sound.backed value)
    exact ⟨recorded.1, fun p during => recorded.2 p (richer.2 p during)⟩
  | fundV2 sender id value protocolDesk =>
    simp only [free, fundV2, bind_ok, require_ok] at taken
    obtain ⟨_, _, taken⟩ := taken
    have richer := sound.kept ({ b with balance := b.balance + value }) rfl rfl rfl
      (Nat.le_add_right ..) rfl
    have recorded := recordFund_sound taken richer.1 (Nat.add_le_add_right sound.backed value)
    exact ⟨recorded.1, fun p during => recorded.2 p (richer.2 p during)⟩

theorem collectLedger_sound {poolId amount paid : Nat} {known claimed : Bool}
    (taken : collectLedger b poolId amount known claimed paid = .ok after) (sound : Sound b) : Sound after := by
  simp only [collectLedger, bind_ok, require_ok] at taken
  obtain ⟨_, _, _, _, _, exact_, taken⟩ := taken
  have richer := sound.kept ({ b with
    balance := b.balance + paid
    poolCollectionNonce := Function.update b.poolCollectionNonce poolId
      (b.poolCollectionNonce poolId + 1) }) rfl rfl rfl (Nat.le_add_right ..) rfl
  refine (recordFund_sound taken richer.1 ?_).1
  show b.totalBudget + amount ≤ b.balance + paid
  have backed := sound.backed
  omega

/-- A purchase opens: its lot and the total give the same amount, and its mark is set. -/
theorem execute_sound {now : Nat} {q : Quote} {signed : Bool} {p : Purchase}
    (taken : execute b now q signed = .ok (after, p)) (sound : Sound b) : Sound after ∧ During after p := by
  simp only [execute, bind_ok, require_ok, pure_ok, sub_ok] at taken
  obtain ⟨left, ⟨fits, rfl⟩, _, ⟨open_, enough, positive, _⟩, _, ⟨_, _, _, _, _, _, fresh⟩, _, _, total,
    ⟨_, rfl⟩, balance, ⟨_, rfl⟩, same⟩ := taken
  obtain ⟨rfl, rfl⟩ := Prod.mk.inj same
  -- no mark is lost, and the new one was not there
  have marks : ∀ purchase, Marked b purchase → Marked { b with
      nonceUsed := Function.update b.nonceUsed q.nonce true
      lots := Function.update b.lots q.lotId { b.lots q.lotId with
        spent := (b.lots q.lotId).spent + q.budget
        executed := decide ((b.lots q.lotId).spent + q.budget = (b.lots q.lotId).budget) }
      totalBudget := b.totalBudget - q.budget
      balance := b.balance - q.budget } purchase := by
    intro purchase marked
    cases purchase with
    | whole lot =>
      have apart : lot ≠ q.lotId := by
        rintro rfl
        rw [Marked, open_] at marked
        cases marked
      simpa only [Marked, Function.update_of_ne apart] using marked
    | part lot nonce =>
      by_cases same : nonce = q.nonce
      · subst same
        exact Function.update_self ..
      · simpa only [Marked, Function.update_of_ne same] using marked
  refine ⟨⟨⟨?_, ?_, ?_, sound.once⟩, ?_, ?_⟩, ?_, ?_⟩
  · refine sound.total.rewrite (fun _ (l : Lot) => l.budget - l.spent) q.lotId _ rfl ?_
    have := sound.total.entry_le q.lotId
    simp only at this ⊢
    omega
  · have backed := sound.backed
    show b.totalBudget - q.budget ≤ b.balance - q.budget
    omega
  · intro lot
    by_cases same : lot = q.lotId
    · subst same
      simp only [Function.update_self]
      omega
    · simpa only [Function.update_of_ne same] using sound.within lot
  · intro lot
    by_cases same : lot = q.lotId
    · subst same
      simp only [Function.update_self]
      omega
    · simpa only [Function.update_of_ne same] using sound.funded lot
  · intro purchase member
    exact marks purchase (sound.marked purchase member)
  · split
    · next whole =>
      simp only [Marked, Function.update_self, decide_eq_true_eq]
      omega
    · exact Function.update_self ..
  · intro member
    have marked := sound.marked _ member
    split at marked
    · rw [Marked, open_] at marked
      cases marked
    · rw [Marked, fresh] at marked
      cases marked

theorem conclude_sound {p : Purchase} {a : Answer} (taken : conclude b p a = .ok after) (sound : Sound b)
    (during : During b p) : Sound after := by
  simp only [conclude, bind_ok, require_ok, pure_ok] at taken
  obtain ⟨_, _, _, _, _, _, rfl⟩ := taken
  obtain ⟨mark, new⟩ := during
  have lots : ∀ id, (Function.update b.lots p.quote.lotId { b.lots p.quote.lotId with
        bought := (b.lots p.quote.lotId).bought + a.received } id).budget = (b.lots id).budget ∧
      (Function.update b.lots p.quote.lotId { b.lots p.quote.lotId with
        bought := (b.lots p.quote.lotId).bought + a.received } id).spent = (b.lots id).spent ∧
      (Function.update b.lots p.quote.lotId { b.lots p.quote.lotId with
        bought := (b.lots p.quote.lotId).bought + a.received } id).executed = (b.lots id).executed := by
    intro id
    by_cases same : id = p.quote.lotId
    · subst same
      simp
    · simp [Function.update_of_ne same]
  refine ⟨⟨?_, sound.backed, ?_, ?_⟩, ?_, ?_⟩
  · refine sound.total.of_eq (fun id => ?_) rfl
    rw [(lots id).1, (lots id).2.1]
  · intro id
    rw [(lots id).1, (lots id).2.1]
    exact sound.within id
  · refine List.nodup_append.mpr ⟨sound.once, List.nodup_singleton _, ?_⟩
    intro id member other only
    rw [List.mem_singleton.mp only]
    rintro rfl
    exact new member
  · intro id executed
    rw [(lots id).1]
    exact sound.funded id ((lots id).2.2 ▸ executed)
  · intro id member
    have marked : Marked b id := by
      rcases List.mem_append.mp member with old | only
      · exact sound.marked id old
      · exact List.mem_singleton.mp only ▸ mark
    cases id with
    | whole lot => exact (lots lot).2.2.trans marked
    | part lot nonce => exact marked

theorem keeps (c : Config) : Keeps (contract c) Sound During where
  free _ _ _ taken sound := free_sound taken sound
  whole _ _ _ taken sound := collectLedger_sound taken sound
  enter _ _ _ _ taken sound := execute_sound taken sound
  leave _ _ _ _ taken sound during := conclude_sound taken sound during

end Solonpad.BuybackExecutor

namespace Solonpad.OpsVault

open Checked LockedCalls RunningTotal Transition

structure Budgeted (b : Book) : Prop where
  total : Totals b.budget b.totalBudget
  backed : b.totalBudget ≤ b.balance
  once : b.paid.Nodup

structure Sound (b : Book) : Prop extends Budgeted b where
  marked : ∀ receipt ∈ b.paid, b.paidReceipt receipt = true

def During (b : Book) (receipt : Receipt) : Prop := b.paidReceipt receipt = true ∧ receipt ∉ b.paid

variable {b after : Book} {receipt : Receipt}

theorem deployed_sound (balance : Nat) : Sound (deployed balance) where
  total := Totals.zero
  backed := Nat.zero_le _
  once := .nil
  marked := fun _ member => by cases member

/-- A book that differs in wiring and more coin only. -/
theorem Sound.kept (sound : Sound b) (after : Book) (budget : after.budget = b.budget)
    (total : after.totalBudget = b.totalBudget) (balance : b.balance ≤ after.balance)
    (marks : after.paidReceipt = b.paidReceipt) (paid : after.paid = b.paid) :
    Sound after ∧ ∀ receipt, During b receipt → During after receipt := by
  refine ⟨⟨⟨budget ▸ total ▸ sound.total, ?_, paid ▸ sound.once⟩, ?_⟩, ?_⟩
  · rw [total]
    exact sound.backed.trans balance
  · rw [marks, paid]
    exact sound.marked
  · intro receipt during
    rw [During, marks, paid]
    exact during

/-- Budget for coin that nothing else counts. -/
theorem fund_sound {version amount : Nat} (sound : Sound b) (excess : b.totalBudget + amount ≤ b.balance) :
    Sound (b.fund version amount) ∧ ∀ receipt, During b receipt → During (b.fund version amount) receipt :=
  ⟨⟨⟨sound.total.credit version amount, excess, sound.once⟩, sound.marked⟩, fun _ during => during⟩

theorem free_sound {c : Config} {call : Free} (taken : free c b call = .ok after) (sound : Sound b) :
    Sound after ∧ ∀ receipt, During b receipt → During after receipt := by
  cases call with
  | configureTarget sender kind target =>
    simp only [free, configureTarget, bind_ok, require_ok, pure_ok] at taken
    obtain ⟨_, _, rfl⟩ := taken
    exact sound.kept _ rfl rfl (Nat.le_refl _) rfl rfl
  | configureFeeTarget sender kind target hasCode =>
    simp only [free, configureFeeTarget, bind_ok, require_ok, pure_ok] at taken
    obtain ⟨_, _, rfl⟩ := taken
    exact sound.kept _ rfl rfl (Nat.le_refl _) rfl rfl
  | configureSubsidyTarget sender kind target hasCode =>
    simp only [free, configureSubsidyTarget, bind_ok, require_ok, pure_ok] at taken
    obtain ⟨_, _, rfl⟩ := taken
    exact sound.kept _ rfl rfl (Nat.le_refl _) rfl rfl
  | configureDesk sender desk vault hasCode =>
    simp only [free, configureDesk, bind_ok, require_ok, pure_ok] at taken
    obtain ⟨_, _, rfl⟩ := taken
    exact sound.kept _ rfl rfl (Nat.le_refl _) rfl rfl
  | receive value =>
    cases taken
    exact sound.kept _ rfl rfl (Nat.le_add_right ..) rfl rfl
  | receiveBudget sender version value =>
    simp only [free, receiveBudget, bind_ok, require_ok, pure_ok] at taken
    obtain ⟨_, _, rfl⟩ := taken
    have richer := sound.kept ({ b with balance := b.balance + value }) rfl rfl
      (Nat.le_add_right ..) rfl rfl
    exact fund_sound richer.1 (Nat.add_le_add_right sound.backed value)
  | fundBudget version value =>
    simp only [free, fundBudget, bind_ok, require_ok, pure_ok] at taken
    obtain ⟨_, _, rfl⟩ := taken
    have richer := sound.kept ({ b with balance := b.balance + value }) rfl rfl
      (Nat.le_add_right ..) rfl rfl
    exact fund_sound richer.1 (Nat.add_le_add_right sound.backed value)
  | scheduleUnbudgeted sender now version amount =>
    simp only [free, scheduleUnbudgeted, bind_ok, require_ok, pure_ok] at taken
    obtain ⟨_, _, rfl⟩ := taken
    exact sound.kept _ rfl rfl (Nat.le_refl _) rfl rfl
  | allocateUnbudgeted now version amount =>
    simp only [free, allocateUnbudgeted, bind_ok, require_ok, pure_ok, sub_ok] at taken
    obtain ⟨excess, ⟨covered, rfl⟩, _, ⟨_, _, enough⟩, rfl⟩ := taken
    have cleared := sound.kept ({ b with
      unbudgetedSchedule := Function.update b.unbudgetedSchedule (version, amount) 0 }) rfl rfl
      (Nat.le_refl _) rfl rfl
    refine fund_sound cleared.1 ?_
    show b.totalBudget + amount ≤ b.balance
    omega

/-- A payment opens: its purpose and the total give the same amount, and its receipt is marked. -/
theorem pay_sound {version amount : Nat} (taken : pay b receipt version amount = .ok after) (sound : Sound b)
    (fresh : b.paidReceipt receipt = false) : Sound after ∧ During after receipt := by
  simp only [pay, bind_ok, pure_ok, sub_ok] at taken
  obtain ⟨left, ⟨enough, rfl⟩, total, ⟨_, rfl⟩, balance, ⟨_, rfl⟩, rfl⟩ := taken
  have backed := sound.backed
  refine ⟨⟨⟨sound.total.debit version amount enough, ?_, sound.once⟩, ?_⟩, Function.update_self .., ?_⟩
  · exact Nat.sub_le_sub_right backed amount
  · intro other member
    by_cases same : other = receipt
    · subst same
      exact Function.update_self ..
    · simpa only [Function.update_of_ne same] using sound.marked other member
  · intro member
    have marked := sound.marked receipt member
    rw [fresh] at marked
    cases marked

theorem payment_sound {call : Payment} (taken : payment b call = .ok (after, receipt)) (sound : Sound b) :
    Sound after ∧ During after receipt := by
  cases call with
  | expense now e verified =>
    simp only [payment, payExpense, bind_ok, require_ok, pure_ok] at taken
    obtain ⟨_, ⟨_, _, _, fresh, _⟩, _, _, _, _, paid, taken, same⟩ := taken
    obtain ⟨rfl, rfl⟩ := Prod.mk.inj same
    split at taken
    · have tipped := sound.kept ({ b with
        tippedOrder := Function.update b.tippedOrder e.orderId true }) rfl rfl (Nat.le_refl _) rfl rfl
      exact pay_sound taken tipped.1 fresh
    · exact pay_sound taken sound fresh
  | deskSurcharge sender lotId firstTokenId cards desk nextTokenId surchargeUSDC18 =>
    simp only [payment, payDeskSurcharge, bind_ok, require_ok, pure_ok] at taken
    obtain ⟨_, _, _, _, _, fresh, _, _, paid, taken, same⟩ := taken
    obtain ⟨rfl, rfl⟩ := Prod.mk.inj same
    exact pay_sound taken sound fresh

theorem conclude_sound {accepted : Bool} (taken : conclude b receipt accepted = .ok after) (sound : Sound b)
    (during : During b receipt) : Sound after := by
  simp only [conclude, bind_ok, require_ok, pure_ok] at taken
  obtain ⟨_, _, rfl⟩ := taken
  obtain ⟨mark, new⟩ := during
  refine ⟨⟨sound.total, sound.backed, ?_⟩, ?_⟩
  · refine List.nodup_append.mpr ⟨sound.once, List.nodup_singleton _, ?_⟩
    intro other member last only
    rw [List.mem_singleton.mp only]
    rintro rfl
    exact new member
  · intro other member
    rcases List.mem_append.mp member with old | only
    · exact sound.marked other old
    · exact List.mem_singleton.mp only ▸ mark

theorem keeps (c : Config) : Keeps (contract c) Sound During where
  free _ _ _ taken sound := free_sound taken sound
  whole _ call _ _ _ := call.elim
  enter _ _ _ _ taken sound := payment_sound taken sound
  leave _ _ _ _ taken sound during := conclude_sound taken sound during

end Solonpad.OpsVault

namespace Solonpad.OperatingBudgets

open LockedCalls Transition

/-- In every reachable state of either contract, also while a payment is open. -/
theorem budgets_hold :
    (∀ (c : BuybackExecutor.Config) (signer balance : Nat) s,
      Reachable (Step (BuybackExecutor.contract c)) ⟨BuybackExecutor.deployed signer balance, none⟩ s →
        BuybackExecutor.Budgeted s.book) ∧
    (∀ (c : OpsVault.Config) (balance : Nat) s,
      Reachable (Step (OpsVault.contract c)) ⟨OpsVault.deployed balance, none⟩ s →
        OpsVault.Budgeted s.book) := by
  constructor
  · intro c signer balance s reached
    exact ((BuybackExecutor.keeps c).run (BuybackExecutor.deployed_sound signer balance) reached).1.toBudgeted
  · intro c balance s reached
    exact ((OpsVault.keeps c).run (OpsVault.deployed_sound balance) reached).1.toBudgeted

/-! A lot of 100 of which 30 are spent, and a budget of 50 of which a receipt is paid 20. -/

def buyer : BuybackExecutor.Config := ⟨1, 2⟩

def sample : BuybackExecutor.Execute := ⟨10, ⟨.given 7, 30, 5, 1, 10, 20, 1⟩, true⟩

theorem buyer_reaches : ∃ s, Reachable (Step (BuybackExecutor.contract buyer))
      ⟨BuybackExecutor.deployed 3 0, none⟩ s ∧
    s.book.purchases = [.part (.given 7) 1] ∧ s.book.totalBudget = 70 := by
  have wired := Reachable.next .start (show Step (BuybackExecutor.contract buyer)
    ⟨BuybackExecutor.deployed 3 0, none⟩ (.free (.configureSources 1 4 5)) _ from .free rfl)
  have funded := Reachable.next wired (show Step _ _ (.free (.fundV2 5 (.given 7) 100 false)) _ from .free rfl)
  have opened := Reachable.next funded (show Step _ _ (.enter sample) _ from .enter rfl)
  exact ⟨_, .next opened (show Step _ _ (.leave ⟨6, 6, true, true⟩) _ from .leave rfl), rfl, rfl⟩

def operator : OpsVault.Config := ⟨1, 2⟩

theorem operator_reaches : ∃ s, Reachable (Step (OpsVault.contract operator)) ⟨OpsVault.deployed 0, none⟩ s ∧
    s.book.paid = [.given 9] ∧ s.book.totalBudget = 30 := by
  have wired := Reachable.next .start (show Step (OpsVault.contract operator)
    ⟨OpsVault.deployed 0, none⟩ (.free (.configureTarget 1 0 4)) _ from .free rfl)
  have funded := Reachable.next wired (show Step _ _ (.free (.fundBudget 3 50)) _ from .free rfl)
  have opened := Reachable.next funded
    (show Step _ _ (.enter (.expense 10 ⟨6, 0, .given 9, 20, 3, 20⟩ true)) _ from .enter rfl)
  exact ⟨_, .next opened (show Step _ _ (.leave true) _ from .leave rfl), rfl, rfl⟩

theorem budgets_hold_spent :
    (∃ s : Situation BuybackExecutor.Book BuybackExecutor.Purchase,
      s.book.purchases = [.part (.given 7) 1] ∧ BuybackExecutor.Budgeted s.book) ∧
    ∃ s : Situation OpsVault.Book OpsVault.Receipt,
      s.book.paid = [.given 9] ∧ OpsVault.Budgeted s.book := by
  obtain ⟨bought, purchases, executed, _⟩ := buyer_reaches
  obtain ⟨paid, payments, receipts, _⟩ := operator_reaches
  exact ⟨⟨bought, executed, budgets_hold.1 buyer 3 0 bought purchases⟩,
    ⟨paid, receipts, budgets_hold.2 operator 0 paid payments⟩⟩

end Solonpad.OperatingBudgets
