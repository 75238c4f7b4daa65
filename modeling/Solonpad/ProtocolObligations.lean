import Solonpad.ProtocolVault

/-!
The obligations of the protocol vault. Its coin covers what is locked apart from the operating buffer in
every book, an open payment's included, and the buffer as well while surplus or an Ops budget is on its way.
A pot's commitments fit its cash and only grow. A governed call ran for a schedule call of its own call
data, two days older at least, and no two for the same one.
-/

namespace Solonpad.ProtocolVault

open Checked LockedCalls RunningTotal Transition

variable (c : Config)

/-- The action an event is about. -/
def Event.action : Event → Nat
  | .scheduled action _ => action
  | .ran data _ => c.keccak256 data

def Event.schedules (action : Nat) : Event → Bool
  | .scheduled other _ => other = action
  | .ran _ _ => false

def Event.executes (action : Nat) : Event → Bool
  | .scheduled _ _ => false
  | .ran data _ => c.keccak256 data = action

/-- The last event about an action is a schedule call that lets it run from `due` on. -/
def Due (history : List Event) (action due : Nat) : Prop :=
  ∃ earlier at_ since, history = earlier ++ .scheduled action at_ :: since ∧ due = at_ + 48 * hours ∧
    ∀ event ∈ since, event.action c ≠ action

/-- Each governed call that ran found its action due. -/
def Warranted (history : List Event) : Prop :=
  ∀ earlier data now later, history = earlier ++ .ran data now :: later →
    ∃ due, Due c earlier (c.keccak256 data) due ∧ due ≤ now

/-- No more governed calls of an action than schedule calls for it. -/
def Counted (history : List Event) : Prop :=
  ∀ action, history.countP (Event.executes c action) ≤ history.countP (Event.schedules action)

structure Timed (scheduledAt : Nat → Nat) (history : List Event) : Prop where
  warranted : Warranted c history
  due : ∀ action, scheduledAt action ≠ 0 → Due c history action (scheduledAt action)
  counted : ∀ action, history.countP (Event.executes c action) +
    (if scheduledAt action = 0 then 0 else 1) ≤ history.countP (Event.schedules action)

variable {c} {scheduledAt : Nat → Nat} {history : List Event} {sender id destinationId amount balance : Nat}
  {frame : Frame} {s : Situation Book Frame}

theorem Timed.counts (timed : Timed c scheduledAt history) : Counted c history := by
  intro action
  have := timed.counted action
  omega

/-- An event about one action leaves what is due for the others. -/
theorem Due.later {action due : Nat} (found : Due c history action due) {event : Event}
    (other : event.action c ≠ action) : Due c (history ++ [event]) action due := by
  obtain ⟨earlier, at_, since, rfl, same, quiet⟩ := found
  refine ⟨earlier, at_, since ++ [event], by simp, same, ?_⟩
  intro last member
  rcases List.mem_append.mp member with old | new
  · exact quiet last old
  · rw [List.mem_singleton.mp new]
    exact other

/-- A list that ends in one element, split at an element: at the last one, or before it. -/
theorem snoc_split {α : Type*} {list earlier later : List α} {last middle : α}
    (same : list ++ [last] = earlier ++ middle :: later) :
    (list = earlier ∧ last = middle) ∨ ∃ rest, list = earlier ++ middle :: rest := by
  rcases List.eq_nil_or_concat later with rfl | ⟨rest, other, rfl⟩
  · obtain ⟨front, tail⟩ := List.append_inj' same rfl
    exact .inl ⟨front, List.head_eq_of_cons_eq tail⟩
  · have shape : list ++ [last] = (earlier ++ middle :: rest) ++ [other] := by
      rw [same]
      simp
    exact .inr ⟨rest, (List.append_inj' shape rfl).1⟩

/-- A schedule call adds nothing that ran and makes its action due. -/
theorem Timed.schedule (timed : Timed c scheduledAt history) (action now : Nat) :
    Timed c (Function.update scheduledAt action (now + 48 * hours))
      (history ++ [.scheduled action now]) where
  warranted := by
    intro earlier data when later same
    rcases snoc_split same with ⟨-, clash⟩ | ⟨rest, found⟩
    · cases clash
    · exact timed.warranted earlier data when rest found
  due := by
    intro other pending
    by_cases same : other = action
    · subst same
      rw [Function.update_self]
      exact ⟨history, now, [], rfl, rfl, fun _ member => absurd member List.not_mem_nil⟩
    · rw [Function.update_of_ne same] at pending ⊢
      exact (timed.due other pending).later (Ne.symm same)
  counted := by
    intro other
    have before := timed.counted other
    simp only [List.countP_append, List.countP_singleton, Event.executes, Event.schedules]
    by_cases same : other = action
    · subst same
      simp only [Function.update_self, decide_true, if_true, Bool.false_eq_true, if_false]
      split <;> omega
    · simp only [Function.update_of_ne same, Ne.symm same, decide_false, Bool.false_eq_true, if_false]
      exact before

/-- A governed call runs while its action is due, and spends that. -/
theorem Timed.run (timed : Timed c scheduledAt history) (data : Calldata) (now : Nat)
    (pending : scheduledAt (c.keccak256 data) ≠ 0) (reached : scheduledAt (c.keccak256 data) ≤ now) :
    Timed c (Function.update scheduledAt (c.keccak256 data) 0) (history ++ [.ran data now]) where
  warranted := by
    intro earlier other when later same
    rcases snoc_split same with ⟨rfl, last⟩ | ⟨rest, found⟩
    · cases last
      exact ⟨_, timed.due _ pending, reached⟩
    · exact timed.warranted earlier other when rest found
  due := by
    intro action open_
    by_cases same : action = c.keccak256 data
    · subst same
      rw [Function.update_self] at open_
      exact absurd rfl open_
    · rw [Function.update_of_ne same] at open_ ⊢
      exact (timed.due action open_).later (Ne.symm same)
  counted := by
    intro action
    have before := timed.counted action
    simp only [List.countP_append, List.countP_singleton, Event.executes, Event.schedules]
    by_cases same : action = c.keccak256 data
    · subst same
      rw [if_neg pending] at before
      simpa using before
    · simp only [Function.update_of_ne same, Ne.symm same, decide_false, Bool.false_eq_true, if_false]
      exact before

/-! What every book keeps. -/

structure Obligations (b : Book) : Prop where
  funded : b.liabilities + b.executionBudget + b.potCash ≤ b.balance
  pots : Totals (fun id => (b.pots id).cash) b.potCash
  within : ∀ id, (b.pots id).committed + (b.pots id).inFlight + (b.pots id).reserved ≤ (b.pots id).cash

/-- What is locked, the operating buffer included, is there. -/
def Covered (b : Book) : Prop := b.locked ≤ b.balance

/-- No pot's commitments get smaller. -/
structure Grows (b after : Book) : Prop where
  committed : ∀ id, (b.pots id).committed ≤ (after.pots id).committed
  inFlight : ∀ id, (b.pots id).inFlight ≤ (after.pots id).inFlight
  reserved : ∀ id, (b.pots id).reserved ≤ (after.pots id).reserved

variable (c) in
structure Sound (b : Book) : Prop extends Obligations b where
  vacant : ∀ id, (b.pots id).source = 0 → (b.pots id).cash = 0
  timed : Timed c b.scheduledAt b.history

/-- Surplus or an Ops budget is on its way. -/
def Frame.Draws : Frame → Prop
  | .surplus amount => amount ≠ 0
  | .ops => True
  | .pot | .ledger _ _ => False

/-- Meanwhile the buffer stays. -/
def During (b : Book) (frame : Frame) : Prop := frame.Draws → Covered b

/-- One call of the vault: what it keeps, and that a covered book stays covered. -/
structure Kept (c : Config) (b after : Book) : Prop where
  sound : Sound c after
  covered : Covered b → Covered after
  grows : Grows b after

theorem Grows.refl (b : Book) : Grows b b :=
  ⟨fun _ => Nat.le_refl _, fun _ => Nat.le_refl _, fun _ => Nat.le_refl _⟩

theorem Grows.trans {b middle after : Book} (first : Grows b middle) (second : Grows middle after) : Grows b after :=
  ⟨fun id => (first.committed id).trans (second.committed id),
    fun id => (first.inFlight id).trans (second.inFlight id),
    fun id => (first.reserved id).trans (second.reserved id)⟩

theorem Grows.same {b after : Book} (pots : after.pots = b.pots) : Grows b after := by
  constructor <;> intro id <;> rw [pots]

variable {b after : Book}

theorem deployed_sound (balance : Nat) : Sound c (deployed balance) where
  funded := Nat.zero_le _
  pots := Totals.zero
  within := fun _ => Nat.le_refl _
  vacant := fun _ _ => rfl
  timed := {
    warranted := by
      intro earlier data now later none
      simp [deployed] at none
    due := fun _ pending => absurd rfl pending
    counted := fun _ => Nat.le_refl _ }

theorem Kept.trans {middle : Book} (first : Kept c b middle) (second : Kept c middle after) : Kept c b after :=
  ⟨second.sound, fun covered => second.covered (first.covered covered), first.grows.trans second.grows⟩

/-- A book that differs in wiring, receipts, counters and more coin only. -/
theorem Sound.kept (sound : Sound c b) (after : Book) (liabilities : after.liabilities = b.liabilities)
    (budget : after.executionBudget = b.executionBudget) (buffer : after.operatingBuffer = b.operatingBuffer)
    (pots : after.pots = b.pots) (cash : after.potCash = b.potCash) (balance : b.balance ≤ after.balance)
    (scheduled : after.scheduledAt = b.scheduledAt) (history : after.history = b.history) :
    Kept c b after where
  sound := by
    refine ⟨⟨?_, pots ▸ cash ▸ sound.pots, pots ▸ sound.within⟩, pots ▸ sound.vacant,
      scheduled ▸ history ▸ sound.timed⟩
    rw [liabilities, budget, cash]
    exact sound.funded.trans balance
  covered := by
    intro covered
    unfold Covered Book.locked at covered ⊢
    rw [liabilities, budget, buffer, cash]
    exact covered.trans balance
  grows := .same pots

theorem consume_kept {now : Nat} {data : Calldata} (taken : consume c b sender now data = .ok after)
    (sound : Sound c b) : Kept c b after := by
  simp only [consume, bind_ok, require_ok, pure_ok] at taken
  obtain ⟨_, ⟨_, pending, reached⟩, rfl⟩ := taken
  exact ⟨⟨⟨sound.funded, sound.pots, sound.within⟩, sound.vacant, sound.timed.run data now pending reached⟩,
    fun covered => covered, .same rfl⟩

theorem schedule_kept {now action : Nat} (taken : schedule c b sender now action = .ok after)
    (sound : Sound c b) : Kept c b after := by
  simp only [schedule, bind_ok, require_ok, pure_ok] at taken
  obtain ⟨_, _, rfl⟩ := taken
  exact ⟨⟨⟨sound.funded, sound.pots, sound.within⟩, sound.vacant, sound.timed.schedule action now⟩,
    fun covered => covered, .same rfl⟩

theorem revenue_kept {value : Nat} (taken : revenue b sender id value = .ok after) (sound : Sound c b) :
    Kept c b after := by
  simp only [revenue, bind_ok, require_ok, pure_ok] at taken
  obtain ⟨_, _, rfl⟩ := taken
  exact sound.kept _ rfl rfl rfl rfl rfl (Nat.le_refl _) rfl rfl

theorem setCommitments_kept {debt budget buffer : Nat}
    (taken : setCommitments b debt budget buffer = .ok after) (sound : Sound c b) : Kept c b after := by
  simp only [setCommitments, bind_ok, require_ok, pure_ok] at taken
  obtain ⟨_, _, _, _, _, enough, rfl⟩ := taken
  refine ⟨⟨⟨?_, sound.pots, sound.within⟩, sound.vacant, sound.timed⟩, fun _ => enough, .same rfl⟩
  show debt + budget + b.potCash ≤ b.balance
  omega

/-! Pots. -/

/-- A pot rewritten to commitments no smaller than they were, for coin that moves with its cash. -/
theorem Sound.pot (sound : Sound c b) (id : Nat) (p : Pot) (cash balance : Nat)
    (total : cash + (b.pots id).cash = b.potCash + p.cash) (moved : b.balance + cash ≤ balance + b.potCash)
    (within : p.committed + p.inFlight + p.reserved ≤ p.cash) (vacant : p.source = 0 → p.cash = 0)
    (committed : (b.pots id).committed ≤ p.committed) (inFlight : (b.pots id).inFlight ≤ p.inFlight)
    (reserved : (b.pots id).reserved ≤ p.reserved) :
    Kept c b { b.setPot id p with potCash := cash, balance := balance } where
  sound := by
    refine ⟨⟨?_, sound.pots.rewrite (fun _ (p : Pot) => p.cash) id p rfl total, ?_⟩, ?_, sound.timed⟩
    · have funded := sound.funded
      show b.liabilities + b.executionBudget + cash ≤ balance
      omega
    · intro other
      by_cases same : other = id
      · subst same
        simpa only [Book.setPot, Function.update_self] using within
      · simpa only [Book.setPot, Function.update_of_ne same] using sound.within other
    · intro other
      by_cases same : other = id
      · subst same
        simpa only [Book.setPot, Function.update_self] using vacant
      · simpa only [Book.setPot, Function.update_of_ne same] using sound.vacant other
  covered := by
    intro covered
    unfold Covered Book.locked Book.setPot at *
    dsimp only
    omega
  grows := by
    constructor <;> intro other <;> by_cases same : other = id
    · subst same
      simpa only [Book.setPot, Function.update_self] using committed
    · simp only [Book.setPot, Function.update_of_ne same, Nat.le_refl]
    · subst same
      simpa only [Book.setPot, Function.update_self] using inFlight
    · simp only [Book.setPot, Function.update_of_ne same, Nat.le_refl]
    · subst same
      simpa only [Book.setPot, Function.update_self] using reserved
    · simp only [Book.setPot, Function.update_of_ne same, Nat.le_refl]

theorem registerPot_kept {source destination : Nat} {hasCode : Bool}
    (taken : registerPot c b id source destinationId destination hasCode = .ok after) (sound : Sound c b) :
    Kept c b after := by
  simp only [registerPot, bind_ok, require_ok, pure_ok] at taken
  obtain ⟨_, ⟨_, _, _, _, _, free⟩, rfl⟩ := taken
  have empty := sound.vacant id free
  have within := sound.within id
  refine sound.pot id ⟨source, destinationId, destination, 0, 0, 0, 0⟩ b.potCash b.balance ?_
    (Nat.le_refl _) (Nat.le_refl _) (fun _ => rfl) ?_ ?_ ?_
  · rw [empty]
  all_goals
    dsimp only
    omega

theorem fundPot_kept {sender : Caller} {value : Nat} (taken : fundPot b sender id value = .ok after)
    (sound : Sound c b) : Kept c b after := by
  simp only [fundPot, bind_ok, require_ok, pure_ok] at taken
  obtain ⟨_, ⟨own, _⟩, rfl⟩ := taken
  have within := sound.within id
  refine sound.pot id { b.pots id with cash := (b.pots id).cash + value } _ _ ?_ ?_ ?_ ?_ (Nat.le_refl _)
    (Nat.le_refl _) (Nat.le_refl _)
  · dsimp only
    omega
  · omega
  · dsimp only
    omega
  · intro none
    exact absurd (own.trans none) sender.2

theorem commitPot_kept {assigned inFlight reserved : Nat}
    (taken : commitPot b sender id assigned inFlight reserved = .ok after) (sound : Sound c b) : Kept c b after := by
  simp only [commitPot, bind_ok, require_ok, pure_ok] at taken
  obtain ⟨_, _, _, ⟨committed, flying, held, fits⟩, rfl⟩ := taken
  exact sound.pot id
    { b.pots id with committed := assigned, inFlight := inFlight, reserved := reserved } b.potCash b.balance
    rfl (Nat.le_refl _) fits (sound.vacant id) committed flying held

theorem routeUnallocatedPot_kept (taken : routeUnallocatedPot b id amount destinationId = .ok (after, frame))
    (sound : Sound c b) : Kept c b after ∧ During after frame := by
  simp only [routeUnallocatedPot, bind_ok, require_ok, pure_ok, sub_ok] at taken
  obtain ⟨_, ⟨_, rfl⟩, _, ⟨_, rfl⟩, _, ⟨_, rfl⟩, _, ⟨_, _, enough⟩, _, ⟨_, rfl⟩, _, ⟨_, rfl⟩, _, ⟨_, rfl⟩,
    same⟩ := taken
  obtain ⟨rfl, rfl⟩ := Prod.mk.inj same
  refine ⟨sound.pot id { b.pots id with cash := (b.pots id).cash - amount } _ _ ?_ ?_ ?_ ?_ (Nat.le_refl _)
    (Nat.le_refl _) (Nat.le_refl _), False.elim⟩
  · dsimp only
    omega
  · omega
  · dsimp only
    omega
  · intro none
    have empty := sound.vacant id none
    dsimp only
    omega

/-! Payments. -/

theorem withdrawSurplus_kept {recipient : Nat} (taken : withdrawSurplus c b recipient amount = .ok (after, frame))
    (sound : Sound c b) : Kept c b after ∧ During after frame := by
  simp only [withdrawSurplus, bind_ok, require_ok, pure_ok, sub_ok] at taken
  obtain ⟨_, ⟨_, within⟩, _, ⟨_, rfl⟩, same⟩ := taken
  obtain ⟨rfl, rfl⟩ := Prod.mk.inj same
  have funded := sound.funded
  unfold Book.availableSurplus Book.locked at within
  refine ⟨⟨⟨⟨?_, sound.pots, sound.within⟩, sound.vacant, sound.timed⟩, ?_, .same rfl⟩, ?_⟩
  · show b.liabilities + b.executionBudget + b.potCash ≤ b.balance - amount
    split at within <;> omega
  · intro covered
    unfold Covered Book.locked at *
    dsimp only
    split at within <;> omega
  · intro draws
    have positive : amount ≠ 0 := draws
    unfold Covered Book.locked
    dsimp only
    split at within <;> omega

theorem allocateOps_kept {version : Nat} (taken : allocateOps b amount version = .ok (after, frame))
    (sound : Sound c b) : Kept c b after ∧ During after frame := by
  simp only [allocateOps, bind_ok, require_ok, pure_ok, sub_ok] at taken
  obtain ⟨_, ⟨_, _, budgeted⟩, _, covered, _, ⟨_, rfl⟩, _, ⟨_, rfl⟩, same⟩ := taken
  obtain ⟨rfl, rfl⟩ := Prod.mk.inj same
  have left : Covered { b with
      executionBudget := b.executionBudget - amount, balance := b.balance - amount } := by
    unfold Covered Book.locked at *
    dsimp only
    omega
  refine ⟨⟨⟨⟨?_, sound.pots, sound.within⟩, sound.vacant, sound.timed⟩, fun _ => left, .same rfl⟩, fun _ => left⟩
  have funded := sound.funded
  show b.liabilities + (b.executionBudget - amount) + b.potCash ≤ b.balance - amount
  omega

theorem collectLedger_kept {ours : Bool} (taken : collectLedger b amount ours = .ok (after, frame))
    (sound : Sound c b) : Kept c b after ∧ During after frame := by
  simp only [collectLedger, bind_ok, require_ok, pure_ok] at taken
  obtain ⟨_, _, same⟩ := taken
  obtain ⟨rfl, rfl⟩ := Prod.mk.inj same
  exact ⟨⟨sound, fun covered => covered, .refl _⟩, False.elim⟩

theorem conclude_kept {accepted : Bool} (taken : conclude b frame accepted = .ok after) (sound : Sound c b) :
    Kept c b after := by
  cases frame <;> simp only [conclude, bind_ok, require_ok, pure_ok] at taken
  case ledger beforeBalance amount =>
    obtain ⟨_, _, _, _, rfl⟩ := taken
    exact sound.kept _ rfl rfl rfl rfl rfl (Nat.le_refl _) rfl rfl
  all_goals
    obtain ⟨_, _, rfl⟩ := taken
    exact ⟨sound, fun covered => covered, .refl _⟩

/-! Whole calls. -/

theorem free_kept {call : Free} (taken : free c b call = .ok after) (sound : Sound c b) : Kept c b after := by
  cases call with
  | receive value =>
    cases taken
    exact sound.kept _ rfl rfl rfl rfl rfl (Nat.le_add_right ..) rfl rfl
  | enablePool poolId ours enabled =>
    simp only [free, enablePool, bind_ok, require_ok, pure_ok] at taken
    obtain ⟨_, _, rfl⟩ := taken
    exact sound.kept _ rfl rfl rfl rfl rfl (Nat.le_refl _) rfl rfl
  | configureSources sender converter desk =>
    simp only [free, configureSources, bind_ok, require_ok, pure_ok] at taken
    obtain ⟨_, _, rfl⟩ := taken
    exact sound.kept _ rfl rfl rfl rfl rfl (Nat.le_refl _) rfl rfl
  | fundFromConverter sender id value =>
    simp only [free, fundFromConverter, bind_ok, require_ok, pure_ok] at taken
    obtain ⟨_, _, credited, taken, rfl⟩ := taken
    have richer := sound.kept ({ b with balance := b.balance + value }) rfl rfl rfl rfl rfl
      (Nat.le_add_right ..) rfl rfl
    have counted := revenue_kept taken richer.sound
    exact (richer.trans counted).trans
      (counted.sound.kept _ rfl rfl rfl rfl rfl (Nat.le_refl _) rfl rfl)
  | receiveDeskProtocol sender id value =>
    simp only [free, receiveDeskProtocol, bind_ok, require_ok, pure_ok] at taken
    obtain ⟨_, _, credited, taken, rfl⟩ := taken
    have richer := sound.kept ({ b with balance := b.balance + value }) rfl rfl rfl rfl rfl
      (Nat.le_add_right ..) rfl rfl
    have counted := revenue_kept taken richer.sound
    exact (richer.trans counted).trans
      (counted.sound.kept _ rfl rfl rfl rfl rfl (Nat.le_refl _) rfl rfl)
  | schedule sender now action => exact schedule_kept taken sound
  | setCommitments sender now debt budget buffer rest =>
    simp only [free, bind_ok] at taken
    obtain ⟨_, consumed, taken⟩ := taken
    have spent := consume_kept consumed sound
    exact spent.trans (setCommitments_kept taken spent.sound)
  | registerPot sender now id source destinationId destination rest hasCode =>
    simp only [free, bind_ok] at taken
    obtain ⟨_, consumed, taken⟩ := taken
    have spent := consume_kept consumed sound
    exact spent.trans (registerPot_kept taken spent.sound)
  | fundPot sender id value => exact fundPot_kept taken sound
  | commitPot sender id assigned inFlight reserved => exact commitPot_kept taken sound

theorem payment_kept {call : Payment} (taken : payment c b call = .ok (after, frame)) (sound : Sound c b) :
    Kept c b after ∧ During after frame := by
  cases call with
  | withdrawSurplus sender now recipient amount rest =>
    simp only [payment, bind_ok] at taken
    obtain ⟨_, consumed, taken⟩ := taken
    have spent := consume_kept consumed sound
    obtain ⟨kept, during⟩ := withdrawSurplus_kept taken spent.sound
    exact ⟨spent.trans kept, during⟩
  | allocateOps sender now amount version rest =>
    simp only [payment, bind_ok] at taken
    obtain ⟨_, consumed, taken⟩ := taken
    have spent := consume_kept consumed sound
    obtain ⟨kept, during⟩ := allocateOps_kept taken spent.sound
    exact ⟨spent.trans kept, during⟩
  | routeUnallocatedPot sender now id amount destinationId rest =>
    simp only [payment, bind_ok] at taken
    obtain ⟨_, consumed, taken⟩ := taken
    have spent := consume_kept consumed sound
    obtain ⟨kept, during⟩ := routeUnallocatedPot_kept taken spent.sound
    exact ⟨spent.trans kept, during⟩
  | collectLedger amount ours => exact collectLedger_kept taken sound

theorem During.kept (during : During b frame) (kept : Kept c b after) : During after frame :=
  fun draws => kept.covered (during draws)

/-- Measured from one book, so that what has grown since is part of it. -/
theorem keeps (first : Book) :
    Keeps (contract c) (fun b => Sound c b ∧ Grows first b) During where
  free _ _ _ taken sound := by
    have kept := free_kept taken sound.1
    exact ⟨⟨kept.sound, sound.2.trans kept.grows⟩, fun _ during => during.kept kept⟩
  whole _ call _ _ _ := call.elim
  enter _ _ _ _ taken sound := by
    obtain ⟨kept, during⟩ := payment_kept taken sound.1
    exact ⟨⟨kept.sound, sound.2.trans kept.grows⟩, during⟩
  leave _ _ _ _ taken sound _ := by
    have kept := conclude_kept taken sound.1
    exact ⟨kept.sound, sound.2.trans kept.grows⟩

/-! Runs. -/

theorem run_sound (reached : Reachable (Step (contract c)) ⟨deployed balance, none⟩ s) :
    LockedCalls.Sound (fun b => Sound c b ∧ Grows (deployed balance) b) During s :=
  (keeps (deployed balance)).run ⟨deployed_sound balance, .refl _⟩ reached

def sample : Config where
  self := 9
  governance := 1
  treasury := 2
  keccak256 data := match data.call with
    | .setCommitments _ _ _ => 11
    | .withdrawSurplus _ _ => 12
    | .allocateOps _ _ => 13
    | .registerPot _ _ _ _ => 14
    | .routeUnallocatedPot _ _ _ => 15

def governor : Caller := ⟨1, Nat.one_ne_zero⟩

end Solonpad.ProtocolVault
