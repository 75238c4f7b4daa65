import Solonpad.PayoutCustody
import Solonpad.RewardShares
import Solonpad.RoundLedger

/-!
The reward vault between the round manager that delivers to it and the payout vault that stages from
it. Whatever other contracts do while they answer is a chain of calls that anyone could make. The
shares, the totals and their cover hold through all of it; an orphan that is sent on takes only what
its round's result brought.
-/

namespace Solonpad.RewardVault

open Checked RunningTotal
open Chain (Address)

/-- The two vaults and what is around them. -/
abbrev World (R : Type) := Payout.State (State R)

variable {R : Type} (c : Config) (p : Payout.Config) (b : Balance R) (k : Credits)

def holds : Payout.Balance (State R) := fun v => b v.world

/-- The payout vault's peers, where this vault is one of the sources. -/
structure Hosted (y : Payout.Peers (State R)) (x : Peers R) (w : World R) : Prop where
  own : ∀ v account ids asset, y.stageCredit v c.self account ids asset =
    relay .peer (stageCredit c b x v p.self account ids asset)
  other : ∀ v source account ids asset after amount, source ≠ c.self →
    y.stageCredit v source account ids asset = .ok (after, amount) →
      after.store = v.store ∧ ∀ a, b v.world a c.self ≤ b after.world a c.self
  transfer : ∀ v asset receiver amount after, y.transfer v asset receiver amount = .ok after →
    after.store = v.store ∧ ∀ a, b v.world a c.self ≤ b after.world a c.self
  spares : Spares c b x
  fair : Fair k x w.world.store w.world.world

/-- What anyone can do. -/
inductive Open (w : World R) : World R → Prop where
  | payout (y : Payout.Peers (State R)) (x : Peers R) (hosted : Hosted c p b k y x w) (env : Payout.Env)
      (action : Payout.Action) {after : World R}
      (taken : Payout.step p (holds b) y w env action = .ok after) : Open w after
  | registers (x : Peers R) (source : Address) (most : Nat) {vault : State R}
      (taken : registerParticipants x w.world source most = .ok vault) : Open w ⟨w.store, vault⟩
  | seals (id : Nat) {store : Store} (taken : sealParticipantIndex w.world.store id = .ok store) :
      Open w ⟨w.store, ⟨store, w.world.world⟩⟩
  | rest (rest : R) (spares : ∀ a, b w.world.world a c.self ≤ b rest a c.self) :
      Open w ⟨w.store, ⟨w.world.store, rest⟩⟩

def Opens : World R → World R → Prop := Relation.ReflTransGen (Open c p b k)

/-- The round manager's peers: the vault's answers are its functions, the others' are open. -/
structure Hosts (x : Rounds.Peers (World R)) : Prop where
  registerAllocation : ∀ w id entry asset after, x.registerAllocation w id entry asset = .ok after →
    ∃ (y : Peers R) (vault : State R), registerAllocation c y w.world c.manager id entry.source
        entry.epoch entry.cohort asset entry.creditTotal = .ok vault ∧ after = ⟨w.store, vault⟩ ∧
      (vault.store.allocations id).Within k
  recordDelivery : ∀ w id raw after, x.recordDelivery w id raw = .ok after →
    ∃ vault, recordDelivery c b w.world c.manager id raw = .ok vault ∧ after = ⟨w.store, vault⟩
  sendOrphan : ∀ w asset treasury raw after, x.sendOrphan w asset treasury raw = .ok after →
    ∃ (y : Peers R) (vault : State R), Spares c b y ∧
      sendOrphan c b y w.world c.manager asset treasury raw = .ok vault ∧ after = ⟨w.store, vault⟩
  returnRefund : ∀ w amount after, x.returnRefund w amount = .ok after →
    ∃ (y : Peers R) (vault : State R), (∀ v n rest, y.refund v n = .ok rest →
        ∀ a, b v a c.self ≤ b rest a c.self) ∧
      returnRefund c y w.world c.manager amount = .ok vault ∧ after = ⟨w.store, vault⟩
  sealReward : ∀ w source epoch cohort after budget total kind,
    x.sealReward w source epoch cohort = .ok (after, budget, total, kind) → Opens c p b k w after
  reserveFor : ∀ w orderId asset amount after, x.reserveFor w orderId asset amount = .ok after →
    Opens c p b k w after
  releaseUnsent : ∀ w orderId after, x.releaseUnsent w orderId = .ok after → Opens c p b k w after
  onRoundFinalized : ∀ store w id after, x.onRoundFinalized store w id = .ok after →
    Opens c p b k w after
  startFunding : ∀ w adapter orderId budget minRaw deadline after,
    x.startFunding w adapter orderId budget minRaw deadline = .ok after → Opens c p b k w after
  submit : ∀ w adapter orderId after, x.submit w adapter orderId = .ok after → Opens c p b k w after
  requestCancel : ∀ w adapter orderId after, x.requestCancel w adapter orderId = .ok after →
    Opens c p b k w after
  consumeResult : ∀ w adapter orderId after outcome raw refund,
    x.consumeResult w adapter orderId = .ok (after, outcome, raw, refund) → Opens c p b k w after

/-- The manager's and the vault's native coin, and the vault's stock. -/
def money (manager vault : World R → Nat) : Rounds.Balances (World R) :=
  ⟨manager, vault, fun w asset => b w.world.world asset c.self⟩

/-- The manager takes a call, or anyone does anything else. -/
inductive Turn (g : Rounds.Config) (m n : World R → Nat) (s : Rounds.State (World R)) :
    Rounds.State (World R) → Prop where
  | manager (x : Rounds.Peers (World R)) (hosts : Hosts c p b k x) (env : Rounds.Env)
      (action : Rounds.Action) {after : Rounds.State (World R)}
      (taken : Rounds.step g (money c b m n) x s env action = .ok after) : Turn g m n s after
  | world {w : World R} (opens : Open c p b k s.world w) : Turn g m n s ⟨s.store, w⟩

def Run (g : Rounds.Config) (m n : World R → Nat) :
    Rounds.State (World R) → Rounds.State (World R) → Prop :=
  Relation.ReflTransGen (Turn c p b k g m n)

variable {c p b k}

/-! What holds of the two vaults. -/

structure Settled (c : Config) (b : Balance R) (k : Credits) (w : World R) : Prop where
  whole : Whole c b k w.world
  told : ∀ account asset, Told w.world.store account asset (w.store.staged c.self account asset)

/-- Deliveries stay and staging goes on. -/
structure Later (s after : Store) : Prop where
  allocations : after.allocations = s.allocations
  delivered : after.totalDelivered = s.totalDelivered
  staged : ∀ asset, s.totalStaged asset ≤ after.totalStaged asset

theorem Later.refl (s : Store) : Later s s := ⟨rfl, rfl, fun _ => le_rfl⟩

theorem Later.trans {s middle after : Store} (first : Later s middle) (second : Later middle after) : Later s after :=
  ⟨second.allocations.trans first.allocations, second.delivered.trans first.delivered,
    fun asset => (first.staged asset).trans (second.staged asset)⟩

variable {w after : World R} {vault : State R} {v next : State R} {y : Payout.Peers (State R)} {x : Peers R}
  {asset id : Nat} {at_ : World R}

theorem Whole.grown (whole : Whole c b k v) (store : next.store = v.store)
    (grown : ∀ a, b v.world a c.self ≤ b next.world a c.self) : Whole c b k next := by
  obtain ⟨sound, tallied, covers⟩ := whole
  constructor
  · rwa [store]
  · rwa [store]
  · intro asset
    have held := covers asset
    have more := grown asset
    rw [store]
    omega

theorem Whole.same {store : Store} (whole : Whole c b k v) (same : Same v.store store)
    (totals : store.totalStaged = v.store.totalStaged) : Whole c b k ⟨store, v.world⟩ := by
  obtain ⟨sound, tallied, covers⟩ := whole
  refine ⟨sound.same same, tallied.same same totals, ?_⟩
  intro asset
  rw [same.delivered, totals]
  exact covers asset

/-- What does not touch the vaults keeps them. -/
theorem Settled.beside (settled : Settled c b k w) (store : after.world.store = w.world.store)
    (staged : ∀ account asset, after.store.staged c.self account asset = w.store.staged c.self account asset)
    (grown : ∀ a, b w.world.world a c.self ≤ b after.world.world a c.self) :
    Settled c b k after ∧ Later w.world.store after.world.store := by
  refine ⟨⟨settled.whole.grown store grown, fun account asset => ?_⟩, ?_⟩
  · rw [store, staged]
    exact settled.told account asset
  · rw [store]
    exact .refl _

theorem pay_settled {account amount : Nat} (hosted : Hosted c p b k y x at_) (settled : Settled c b k w)
    (done : Payout.pay p (holds b) y w account asset = .ok (after, amount)) :
    Settled c b k after ∧ Later w.world.store after.world.store := by
  simp only [Payout.pay, ite_ok, pure_ok, Prod.mk.injEq, bind_ok, require_ok, sub_ok] at done
  rcases done with ⟨_, rfl, _⟩ | ⟨_, _, _, _, ⟨_, rfl⟩, world, moved, _, _, rfl, _⟩
  · exact ⟨settled, .refl _⟩
  · obtain ⟨store, grown⟩ := hosted.transfer _ _ _ _ _ moved
    apply settled.beside store ?_ grown
    intro a other
    rfl

theorem claimAssets_settled {account : Address} (hosted : Hosted c p b k y x at_) (gas : Nat → Bool)
    (assets : List Address) (i : Nat) (settled : Settled c b k w) :
    Settled c b k (Payout.claimAssets p (holds b) y gas account i assets w).1 ∧
      Later w.world.store (Payout.claimAssets p (holds b) y gas account i assets w).1.world.store := by
  induction assets generalizing i w with
  | nil => exact ⟨settled, .refl _⟩
  | cons asset rest ih =>
    rw [Payout.claimAssets]
    split
    · next next amount gone =>
      obtain ⟨_, paid⟩ := (attempted_some _ _ _).mp gone
      obtain ⟨between, first⟩ := pay_settled hosted settled paid
      obtain ⟨last, second⟩ := ih (i + 1) between
      exact ⟨last, first.trans second⟩
    · exact ih (i + 1) settled

theorem wired_settled {call : Payout.Store → Payout.Tx Payout.Store} (settled : Settled c b k w)
    (done : w.wired call = .ok after) (wires : ∀ store, call w.store = .ok store → Payout.Wired w.store store) :
    Settled c b k after ∧ Later w.world.store after.world.store := by
  simp only [Payout.State.wired, bind_ok, pure_ok] at done
  obtain ⟨store, called, rfl⟩ := done
  refine settled.beside ?_ ?_ ?_
  · rfl
  · intro account asset
    rw [(wires store called).staged]
  · intro a
    exact le_rfl

theorem stageCredit_settled {source account amount : Nat} {ids : List Nat} (hosted : Hosted c p b k y x w)
    (settled : Settled c b k w)
    (done : Payout.stageCredit p (holds b) y w source account ids asset = .ok (after, amount)) :
    Settled c b k after ∧ Later w.world.store after.world.store := by
  simp only [Payout.stageCredit, bind_ok, require_ok, pure_ok, Prod.mk.injEq] at done
  obtain ⟨_, _, _, _, ⟨v, brought⟩, answer, _, _, rfl, rfl⟩ := done
  by_cases own : source = c.self
  · subst own
    rw [hosted.own, relay_ok] at answer
    obtain ⟨whole, told, _, allocations, delivered, staged⟩ :=
      stageCredit_page hosted.spares hosted.fair settled.whole answer
    refine ⟨⟨whole, fun a other => ?_⟩, allocations, delivered, staged⟩
    refine (told a other _ (settled.told a other)).of_eq (fun _ => rfl) ?_
    have noted := Payout.note_staged (w.store.owe account asset (w.store.readyRaw account asset + brought))
      c.self account asset brought c.self a other
    simp only [true_and] at noted
    exact noted
  · obtain ⟨store, grown⟩ := hosted.other _ _ _ _ _ _ _ own answer
    apply settled.beside store ?_ grown
    intro a other
    have noted := Payout.note_staged (w.store.owe account asset (w.store.readyRaw account asset + brought))
      source account asset brought c.self a other
    rw [if_neg (fun eq => own eq.1.symm)] at noted
    exact noted

/-- Whatever anyone does keeps what holds, and delivers nothing. -/
theorem Open.settled (move : Open c p b k w after) (settled : Settled c b k w) :
    Settled c b k after ∧ Later w.world.store after.world.store := by
  cases move with
  | payout y x hosted env action taken =>
    cases action with
    | configureFactory factory =>
      simp only [Payout.step] at taken
      apply wired_settled settled taken
      intro store called
      simp only [Payout.configureFactory, bind_ok, require_ok, pure_ok] at called
      obtain ⟨_, _, rfl⟩ := called
      exact ⟨rfl, rfl, rfl, rfl⟩
    | registerSource source =>
      simp only [Payout.step] at taken
      apply wired_settled settled taken
      intro store called
      simp only [Payout.registerSource, bind_ok, require_ok] at called
      obtain ⟨_, _, called⟩ := called
      exact Payout.addSource_wired called
    | configureRewardModules desk staking =>
      simp only [Payout.step] at taken
      apply wired_settled settled taken
      intro store called
      simp only [Payout.configureRewardModules, bind_ok, require_ok, pure_ok] at called
      obtain ⟨_, _, _, _, rfl⟩ := called
      exact ⟨rfl, rfl, rfl, rfl⟩
    | configureDistributor distributor =>
      simp only [Payout.step] at taken
      apply wired_settled settled taken
      intro store called
      simp only [Payout.configureDistributor, bind_ok, require_ok, pure_ok] at called
      obtain ⟨_, _, rfl⟩ := called
      exact ⟨rfl, rfl, rfl, rfl⟩
    | stageCredit source account epochs asset =>
      simp only [Payout.step, bind_ok, pure_ok] at taken
      obtain ⟨⟨next, amount⟩, staged, rfl⟩ := taken
      exact stageCredit_settled hosted settled staged
    | claim assets =>
      simp only [Payout.step, Payout.claim, bind_ok, require_ok, pure_ok] at taken
      obtain ⟨_, ⟨_, _, rfl⟩, rfl⟩ := taken
      exact claimAssets_settled hosted env.gas assets 0 settled
    | claimFor account asset =>
      simp only [Payout.step, Payout.claimFor, bind_ok, require_ok, pure_ok] at taken
      obtain ⟨⟨next, amount⟩, ⟨_, _, paid⟩, rfl⟩ := taken
      exact pay_settled hosted settled paid
  | registers x source most taken =>
    simp only [registerParticipants, bind_ok, require_ok, pure_ok] at taken
    obtain ⟨_, _, copied, _, rfl⟩ := taken
    have same : Same w.world.store { w.world.store with
        participants := Function.update w.world.store.participants source copied
        sourceCursor := Function.update w.world.store.sourceCursor source
          (min (w.world.store.sourceCursor source + most) (w.world.store.requiredSourceBound source)) } :=
      ⟨rfl, rfl, rfl, rfl, rfl⟩
    exact ⟨⟨settled.whole.same same rfl, fun a other => (settled.told a other).same same⟩, rfl, rfl,
      fun _ => le_rfl⟩
  | seals id taken =>
    simp only [sealParticipantIndex, bind_ok, require_ok, ite_ok, pure_ok] at taken
    obtain ⟨_, _, ⟨_, rfl⟩ | ⟨_, rfl⟩⟩ := taken
    · exact ⟨settled, .refl _⟩
    · have same : Same w.world.store { w.world.store with
          participantIndexSealed := Function.update w.world.store.participantIndexSealed id true
          participantUpperBound := Function.update w.world.store.participantUpperBound id
            (w.world.store.sourceBounds id) } := ⟨rfl, rfl, rfl, rfl, rfl⟩
      exact ⟨⟨settled.whole.same same rfl, fun a other => (settled.told a other).same same⟩, rfl, rfl,
        fun _ => le_rfl⟩
  | rest rest spares =>
    refine settled.beside ?_ ?_ ?_
    · rfl
    · intro account asset
      rfl
    · exact spares

theorem Opens.settled (moves : Opens c p b k w after) (settled : Settled c b k w) :
    Settled c b k after ∧ Later w.world.store after.world.store := by
  induction moves with
  | refl => exact ⟨settled, .refl _⟩
  | tail _ move ih =>
    obtain ⟨between, first⟩ := ih
    obtain ⟨last, second⟩ := move.settled between
    exact ⟨last, first.trans second⟩

/-! The manager's calls. -/

theorem ofAsset_eq {s next : Store} {asset : Address} {number other : Nat → Nat}
    (same : (next.allocations id).asset = (s.allocations id).asset ∧ other id = number id ∨
      number id = 0 ∧ other id = 0) : ofAsset next asset other id = ofAsset s asset number id := by
  rcases same with ⟨asset_, eq⟩ | ⟨none, none'⟩
  · rw [ofAsset, ofAsset, asset_, eq]
  · rw [ofAsset, ofAsset, none, none', ite_self, ite_self]

theorem registerAllocation_whole {sender source asset : Address} {epoch cohort total : Nat}
    (within : (next.store.allocations id).Within k) (whole : Whole c b k v)
    (done : registerAllocation c x v sender id source epoch cohort asset total = .ok next) :
    Whole c b k next ∧ ∀ account other sent, Told v.store account other sent →
      Told next.store account other sent := by
  simp only [registerAllocation, bind_ok, require_ok, pure_ok] at done
  obtain ⟨_, ⟨_, free, _⟩, ⟨bound, revision⟩, _, rfl⟩ := done
  obtain ⟨⟨unused, shares, staged, delivered⟩, tallied, covers⟩ := whole
  obtain ⟨idle, never, undelivered⟩ := unused id free
  have unstaged : v.store.allocationStaged id = 0 := (staged id).unique (Totals.zero.of_eq idle rfl)
  simp only [Function.update_self] at within
  let opened : Store := { v.store with
    allocations := Function.update v.store.allocations id ⟨source, epoch, cohort, asset, total, 0, 0⟩ }
  -- nothing was counted for this id yet, so its asset may change
  have counts : ∀ other (number : Nat → Nat), number id = 0 →
      ∀ n, ofAsset opened other number n = ofAsset v.store other number n := by
    intro other number none n
    apply ofAsset_eq
    by_cases same : n = id
    · subst same
      exact .inr ⟨none, none⟩
    · simp [opened, same]
  refine ⟨⟨⟨?_, ?_, staged, ?_⟩, ?_, covers⟩, ?_⟩
  · intro n none
    by_cases same : n = id
    · subst same
      exact ⟨idle, never, by simp⟩
    · simp only [Function.update_of_ne same] at none
      obtain ⟨idle', never', undelivered'⟩ := unused n none
      exact ⟨idle', never', by simpa only [Function.update_of_ne same] using undelivered'⟩
  · intro n known
    by_cases same : n = id
    · subst same
      refine ⟨by simpa only [Function.update_self] using within, fun a => ?_, fun a => ?_⟩
      · simp only [Function.update_self, idle, never, Nat.mul_zero, Nat.zero_div]
      · simp only [never, Nat.zero_le]
    · simp only [Function.update_of_ne same] at known
      obtain ⟨fits, owed, past⟩ := shares n known
      exact ⟨by simpa only [Function.update_of_ne same] using fits,
        by simpa only [Function.update_of_ne same] using owed,
        by simpa only [Function.update_of_ne same] using past⟩
  · intro other
    refine (delivered other).of_eq (fun n => ?_) rfl
    apply ofAsset_eq
    by_cases same : n = id
    · subst same
      exact .inr ⟨undelivered, by simp⟩
    · simp [same]
  · intro other
    exact (tallied other).of_eq (counts other _ unstaged) rfl
  · intro account other sent told
    exact told.of_eq (counts other _ (idle account)) rfl

theorem recordDelivery_whole {sender raw : Nat} (whole : Whole c b k v)
    (done : recordDelivery c b v sender id raw = .ok next) :
    Whole c b k next ∧ ∀ account other sent, Told v.store account other sent →
      Told next.store account other sent := by
  simp only [recordDelivery, bind_ok, require_ok, sub_ok, pure_ok] at done
  obtain ⟨_, _, _, known, _, ⟨ordered, rfl⟩, _, due, rfl⟩ := done
  obtain ⟨⟨unused, shares, staged, delivered⟩, tallied, covers⟩ := whole
  let a := v.store.allocations id
  let grown : Store := { v.store with
    allocations := Function.update v.store.allocations id
      { a with cumulativeDelivered := a.cumulativeDelivered + raw, revision := a.revision + 1 } }
  have assets : ∀ n, (grown.allocations n).asset = (v.store.allocations n).asset := by
    intro n
    by_cases same : n = id
    · subst same
      simp [grown, a]
    · simp [grown, same]
  refine ⟨⟨⟨?_, ?_, staged, ?_⟩, ?_, ?_⟩, ?_⟩
  · intro n none
    by_cases same : n = id
    · subst same
      simp only [Function.update_self] at none
      exact absurd none known
    · simp only [Function.update_of_ne same] at none
      obtain ⟨idle, never, undelivered⟩ := unused n none
      exact ⟨idle, never, by simpa only [Function.update_of_ne same] using undelivered⟩
  · intro n registered
    by_cases same : n = id
    · subst same
      obtain ⟨fits, owed, past⟩ := shares n known
      refine ⟨?_, fun account => ?_, fun account => ?_⟩
      · simp only [Function.update_self]
        exact fits
      · simp only [Function.update_self]
        exact owed account
      · have before := past account
        simp only [Function.update_self]
        omega
    · simp only [Function.update_of_ne same] at registered
      obtain ⟨fits, owed, past⟩ := shares n registered
      exact ⟨by simpa only [Function.update_of_ne same] using fits,
        by simpa only [Function.update_of_ne same] using owed,
        by simpa only [Function.update_of_ne same] using past⟩
  · intro other
    have before := delivered other
    have others : ∀ n, n ≠ id → (Function.update v.store.allocations id { v.store.allocations id with
        cumulativeDelivered := (v.store.allocations id).cumulativeDelivered + raw,
        revision := (v.store.allocations id).revision + 1 }) n = v.store.allocations n :=
      fun n apart => Function.update_of_ne apart _ _
    by_cases own : (v.store.allocations id).asset = other
    · subst own
      apply before.moved id
      · intro n apart
        simp only [ofAsset, others n apart]
      · simp only [ofAsset, Function.update_self, if_true]
        omega
    · refine before.of_eq (fun n => ?_) ?_
      · by_cases same : n = id
        · subst same
          simp [ofAsset, own]
        · simp only [ofAsset, others n same]
      · simp only [Function.update_of_ne (Ne.symm own)]
  · intro other
    refine (tallied other).of_eq (fun n => ?_) rfl
    exact ofAsset_eq (.inl ⟨assets n, rfl⟩)
  · intro other
    have held := covers other
    by_cases own : other = (v.store.allocations id).asset
    · subst own
      simp only [Function.update_self] at due ordered ⊢
      omega
    · simp only [Function.update_of_ne own]
      exact held
  · intro account other sent told
    refine told.of_eq (fun n => ?_) rfl
    exact ofAsset_eq (.inl ⟨assets n, rfl⟩)

/-- An orphan takes only what had come in. -/
theorem sendOrphan_settled {sender treasury raw : Nat} (spares : Spares c b x) (before : Settled c b k at_)
    (settled : Settled c b k w) (later : Later at_.world.store w.world.store)
    (brought : b w.world.world asset c.self = b at_.world.world asset c.self + raw)
    (done : sendOrphan c b x w.world sender asset treasury raw = .ok v) : Settled c b k ⟨w.store, v⟩ := by
  simp only [sendOrphan, bind_ok, require_ok] at done
  obtain ⟨_, _, moved⟩ := done
  obtain ⟨store, sent, others⟩ := sendExactly_ok spares moved
  refine ⟨⟨by rw [store]; exact settled.whole.sound, by rw [store]; exact settled.whole.tallied, ?_⟩,
    fun account other => by rw [store]; exact settled.told account other⟩
  intro other
  simp only [store]
  by_cases own : other = asset
  · subst own
    have held := before.whole.covers other
    have staged := later.staged other
    rw [later.delivered]
    omega
  · have held := settled.whole.covers other
    have more := others other own
    omega

theorem recordParts_settled {x : Rounds.Peers (World R)} (hosts : Hosts c p b k x)
    (parts : List Rounds.Part) {s after : Rounds.State (World R)} (settled : Settled c b k s.world)
    (done : Rounds.recordParts x parts s = .ok after) : Settled c b k after.world := by
  induction parts generalizing s with
  | nil =>
    cases done
    exact settled
  | cons part rest ih =>
    simp only [Rounds.recordParts, bind_ok] at done
    obtain ⟨world, recorded, done⟩ := done
    obtain ⟨vault, called, rfl⟩ := hosts.recordDelivery _ _ _ _ recorded
    obtain ⟨whole, told⟩ := recordDelivery_whole settled.whole called
    exact ih ⟨whole, fun account asset => told account asset _ (settled.told account asset)⟩ done

variable {g : Rounds.Config} {m n : World R → Nat} {s final : Rounds.State (World R)}

theorem turn_settled (turn : Turn c p b k g m n s final) (settled : Settled c b k s.world) :
    Settled c b k final.world := by
  cases turn with
  | world opens => exact (opens.settled settled).1
  | manager x hosts env action taken =>
    cases Rounds.step_moves taken with
    | wires wired => exact settled
    | seals answer received registered =>
      have between := ((hosts.sealReward _ _ _ _ _ _ _ _ answer).settled settled).1
      obtain ⟨y, vault, called, rfl, within⟩ := hosts.registerAllocation _ _ _ _ _ registered
      obtain ⟨whole, told⟩ := registerAllocation_whole within between.whole called
      exact ⟨whole, fun account asset => told account asset _ (between.told account asset)⟩
    | reserves routed minimum some taken costs reserved =>
      exact ((hosts.reserveFor _ _ _ _ _ reserved).settled settled).1
    | starts status sent => exact ((hosts.startFunding _ _ _ _ _ _ _ sent).settled settled).1
    | pokes status funded => exact settled
    | submits status sent => exact ((hosts.submit _ _ _ _ sent).settled settled).1
    | cancels status covered released told =>
      have between := ((hosts.releaseUnsent _ _ _ released).settled settled).1
      exact ((hosts.onRoundFinalized _ _ _ _ told).settled between).1
    | requests status sent => exact ((hosts.requestCancel _ _ _ _ sent).settled settled).1
    | waits status consumed => exact ((hosts.consumeResult _ _ _ _ _ _ _ consumed.answer).settled settled).1
    | refunds status covered answer back released told =>
      have between := ((hosts.consumeResult _ _ _ _ _ _ _ answer.answer).settled settled).1
      obtain ⟨y, vault, spares, called, rfl⟩ := hosts.returnRefund _ _ _ back
      simp only [returnRefund, bind_ok, require_ok, pure_ok] at called
      obtain ⟨_, _, rest, refunded, rfl⟩ := called
      have returned : Open c p b k _ _ := .rest rest (spares _ _ _ refunded)
      have next := (returned.settled between).1
      exact ((hosts.onRoundFinalized _ _ _ _ told).settled next).1
    | settles status sent enough covered answer recorded released told =>
      have between := ((hosts.consumeResult _ _ _ _ _ _ _ answer.answer).settled settled).1
      have next := recordParts_settled hosts _ between recorded
      exact ((hosts.onRoundFinalized _ _ _ _ told).settled next).1
    | orphans status first answer sent =>
      obtain ⟨between, later⟩ := (hosts.consumeResult _ _ _ _ _ _ _ answer.answer).settled settled
      obtain ⟨y, vault, spares, called, rfl⟩ := hosts.sendOrphan _ _ _ _ _ sent
      exact sendOrphan_settled spares settled between later answer.stock called

theorem run_settled (run : Run c p b k g m n s final) (settled : Settled c b k s.world) :
    Settled c b k final.world := by
  induction run with
  | refl => exact settled
  | tail _ turn ih => exact turn_settled turn ih

/-- The vaults as they are deployed. -/
def start (store : Payout.Store) (rest : R) : World R := ⟨store, ⟨.empty, rest⟩⟩

theorem start_settled {sources : List Address} {store : Payout.Store}
    (deployed : Payout.deploy y sources .empty = .ok store) (rest : R) : Settled c b k (start store rest) := by
  obtain ⟨sound, tallied, told⟩ := Sound.empty (k := k)
  refine ⟨⟨sound, tallied, fun _ => Nat.zero_le _⟩, ?_⟩
  intro account asset
  rw [start, (Payout.deploy_wired deployed).staged]
  exact told account asset

/-- Whoever is staged whenever has the floor of the share of what was delivered by then, and that is
what the payout vault got; no more is staged than delivered, what is left to stage is held, and
nothing refuses a staging, which brings an account up to all that was delivered. -/
theorem staging_exact {y : Payout.Peers (State R)} {sources : List Address} {store : Payout.Store}
    {rest : R} (deployed : Payout.deploy y sources .empty = .ok store)
    (reached : Run c p b k g m n ⟨.empty, start store rest⟩ s) :
    (∀ id account, (s.world.world.store.allocations id).source ≠ 0 →
      s.world.world.store.creditedToPayout id account =
        (s.world.world.store.allocations id).credit k account * s.world.world.store.deliveredAt id account /
          (s.world.world.store.allocations id).creditTotal) ∧
    (∀ account asset, Totals (ofAsset s.world.world.store asset fun id =>
        s.world.world.store.creditedToPayout id account) (s.world.store.staged c.self account asset)) ∧
    (∀ id, Totals (s.world.world.store.creditedToPayout id) (s.world.world.store.allocationStaged id) ∧
      s.world.world.store.allocationStaged id ≤
        (s.world.world.store.allocations id).cumulativeDelivered) ∧
    (∀ asset, s.world.world.store.totalStaged asset ≤ s.world.world.store.totalDelivered asset ∧
      s.world.world.store.totalDelivered asset - s.world.world.store.totalStaged asset ≤
        b s.world.world.world asset c.self) ∧
    ∀ (x : Peers R) account ids asset, Spares c b x →
      Fair k x s.world.world.store s.world.world.world → ids.length ≤ 20 →
      Answered k x s.world.world.store s.world.world.world account ids →
      Honest c b x s.world.world.world asset →
      ∃ after amount, stageCredit c b x s.world.world c.payout account ids asset = .ok (after, amount) ∧
        ∀ id ∈ ids, (s.world.world.store.allocations id).asset = asset →
          after.store.creditedToPayout id account = (s.world.world.store.allocations id).credit k account *
            (s.world.world.store.allocations id).cumulativeDelivered /
              (s.world.world.store.allocations id).creditTotal := by
  obtain ⟨whole, told⟩ := run_settled reached (start_settled deployed rest)
  refine ⟨fun id account known => (whole.sound.shares id known).credited account, told,
    fun id => ⟨whole.sound.staged id, whole.sound.covered id⟩, fun asset => ?_, ?_⟩
  · have below := whole.sound.totals (whole.tallied.any asset) asset
    have held := whole.covers asset
    simp only [if_true, Nat.add_zero] at below
    omega
  · intro x account ids asset spares fair page answered honest
    obtain ⟨⟨after, amount⟩, staged⟩ := stageCredit_total whole fair page answered honest
    refine ⟨after, amount, staged, fun id member same => ?_⟩
    obtain ⟨whole', _, came, allocations, _, _⟩ := stageCredit_page spares fair whole staged
    have known : (after.store.allocations id).source ≠ 0 := by
      rw [allocations]
      exact (answered id member).1
    rw [(whole'.sound.shares id known).credited account, came id member same, allocations]

/-! A run that can be evaluated: the vault is 40 and the payout vault 50; of five credits 10 has two
and 11 three. -/

structure Purse where
  manager : Nat
  stock : Address → Address → Nat

def sample : Config := ⟨40, 41, 50⟩

def samplePayout : Payout.Config := ⟨50, 4⟩

def sampleStock : Balance Purse := Purse.stock

def sampleCredits : Credits := fun _ _ _ account => if account = 10 then 2 else if account = 11 then 3 else 0

def sources : Peers Purse where
  queueSnapshot := fun _ _ _ => pure (2, 1)
  participantAt := fun _ _ i => pure (10 + i)
  creditOf := fun _ source account epoch cohort => pure (sampleCredits source epoch cohort account)
  transfer := fun w asset receiver amount =>
    if w.stock asset 40 < amount then throw (.revert .peer)
    else
      let sent := Function.update (w.stock asset) 40 (w.stock asset 40 - amount)
      pure { w with
        stock := Function.update w.stock asset
          (Function.update sent receiver (sent receiver + amount)) }
  refund := fun w _ => pure w

def stagers : Payout.Peers (State Purse) where
  hasCode := fun _ => true
  stageCredit := fun v source account ids asset =>
    if source = 40 then relay .peer (stageCredit sample sampleStock sources v 50 account ids asset)
    else throw (.revert .peer)
  canReceiveStock := fun _ _ _ => false
  transfer := fun _ _ _ _ => throw (.revert .peer)

theorem sources_spare : Spares sample sampleStock sources := by
  intro w asset receiver amount after other done apart
  simp only [sources, ite_ok, pure_ok] at done
  rcases done with ⟨_, failed⟩ | ⟨_, rfl⟩
  · cases failed
  · simp [sampleStock, apart]

theorem stagers_hosted (w : World Purse) : Hosted sample samplePayout sampleStock sampleCredits stagers sources w := by
  constructor
  · intro v account ids asset
    rfl
  · intro v source account ids asset after amount apart done
    simp only [stagers, ite_ok] at done
    rcases done with ⟨same, _⟩ | ⟨_, failed⟩
    · exact absurd same apart
    · cases failed
  · intro v asset receiver amount after done
    cases done
  · exact sources_spare
  · intro id account credit _ answer
    cases answer
    rfl

/-- The round manager's peers with this vault among them. -/
def hosts : Rounds.Peers (World Purse) where
  hasCode := fun _ => true
  resolve := fun _ _ _ => pure ⟨7, 8, 9, 10, 0, 0, true, 0⟩
  rewardPolicy := fun _ _ _ _ => pure ⟨1, 1, 0, 0⟩
  sealReward := fun w _ _ _ => pure (⟨w.store, ⟨w.world.store, { w.world.world with
    manager := w.world.world.manager + 300 * 10 ^ 18 }⟩⟩, 300 * 10 ^ 18, 5, 0)
  registerAllocation := fun w id entry asset =>
    if entry.creditTotal < 5 then throw (.revert .peer)
    else do
      let vault ← relay .peer (registerAllocation sample sources w.world 41 id entry.source entry.epoch
        entry.cohort asset entry.creditTotal)
      pure ⟨w.store, vault⟩
  lRun := fun _ => pure (10 ^ 24)
  reserveFor := fun w _ _ _ => pure w
  releaseUnsent := fun w _ => pure w
  releaseFinalized := fun _ _ => pure ()
  onRoundFinalized := fun _ w _ => pure w
  startFunding := fun w _ _ budget _ _ => pure ⟨w.store, ⟨w.world.store, { w.world.world with
    manager := w.world.world.manager - budget }⟩⟩
  funded := fun _ _ _ => pure true
  submit := fun w _ _ => pure w
  requestCancel := fun w _ _ => pure w
  consumeResult := fun w _ _ => pure (⟨w.store, ⟨w.world.store, { w.world.world with
    stock := Function.update w.world.world.stock 7 (Function.update (w.world.world.stock 7) 40
      (w.world.world.stock 7 40 + 7)) }⟩⟩, 1, 7, 0)
  returnRefund := fun _ _ => throw (.revert .peer)
  sendOrphan := fun _ _ _ _ => throw (.revert .peer)
  recordDelivery := fun w id raw => do
    let vault ← relay .peer (recordDelivery sample sampleStock w.world 41 id raw)
    pure ⟨w.store, vault⟩

theorem sampleCredits_within {a : Allocation} (enough : 5 ≤ a.creditTotal) : a.Within sampleCredits := by
  refine ⟨by omega, 5, ?_, enough⟩
  have parts := (Totals.single 10 2).add (Totals.single 11 3)
  refine parts.of_eq (fun account => ?_) rfl
  by_cases ten : account = 10
  · subst ten
    rfl
  · by_cases eleven : account = 11
    · subst eleven
      rfl
    · simp [Allocation.credit, sampleCredits, ten, eleven, Ne.symm ten, Ne.symm eleven]

theorem hosts_host : Hosts sample samplePayout sampleStock sampleCredits hosts := by
  have beside : ∀ (w : World Purse) (rest : Purse), (∀ a, w.world.world.stock a 40 ≤ rest.stock a 40) →
      Opens sample samplePayout sampleStock sampleCredits w ⟨w.store, ⟨w.world.store, rest⟩⟩ := by
    intro w rest grown
    exact .single (.rest rest grown)
  constructor
  case registerAllocation =>
    intro w id entry asset after done
    simp only [hosts, ite_ok, bind_ok, relay_ok, pure_ok] at done
    rcases done with ⟨_, failed⟩ | ⟨enough, vault, registered, rfl⟩
    · cases failed
    · refine ⟨sources, vault, registered, rfl, sampleCredits_within ?_⟩
      simp only [registerAllocation, bind_ok, require_ok, pure_ok] at registered
      obtain ⟨_, _, _, _, rfl⟩ := registered
      simp only [Function.update_self]
      omega
  case recordDelivery =>
    intro w id raw after done
    simp only [hosts, bind_ok, relay_ok, pure_ok] at done
    obtain ⟨vault, recorded, rfl⟩ := done
    exact ⟨vault, recorded, rfl⟩
  case sendOrphan =>
    intro w asset treasury raw after done
    cases done
  case returnRefund =>
    intro w amount after done
    cases done
  case sealReward =>
    intro w source epoch cohort after budget total kind done
    cases done
    exact beside w _ (fun _ => le_rfl)
  case startFunding =>
    intro w adapter orderId budget minRaw deadline after done
    cases done
    exact beside w _ (fun _ => le_rfl)
  case consumeResult =>
    intro w adapter orderId after outcome raw refund done
    cases done
    apply beside
    intro a
    by_cases seven : a = 7
    · subst seven
      simp
    · simp [seven]
  all_goals
    intros
    rename_i done
    cases done
    exact .refl

abbrev Call := (Rounds.Env × Rounds.Action) ⊕ (Payout.Env × Payout.Action)

def sampleMoney : Rounds.Balances (World Purse) :=
  money sample sampleStock (fun w => w.world.world.manager) (fun _ => 0)

def sampleStep (s : Rounds.State (World Purse)) : Call → Rounds.Tx (Rounds.State (World Purse))
  | .inl call => Rounds.step Rounds.sample sampleMoney hosts s call.1 call.2
  | .inr call => do
    let w ← relay .peer (Payout.step samplePayout (holds sampleStock) stagers s.world call.1 call.2)
    pure ⟨s.store, w⟩

theorem Run.of_calls (start : Rounds.State (World Purse)) (calls : List Call) (test : Rounds.State (World Purse) → Bool)
    (passes : (Transition.run sampleStep (fun _ _ => True) start calls).any test = true) :
    ∃ s, Run sample samplePayout sampleStock sampleCredits Rounds.sample
      (fun w => w.world.world.manager) (fun _ => 0) start s ∧ test s = true := by
  obtain ⟨s, reached, passed⟩ := Transition.run_passes _ _ calls _ test passes
  refine ⟨s, ?_, passed⟩
  refine reached.invariant .refl ?_
  intro before call after run taken
  obtain ⟨_, taken⟩ := taken
  cases call with
  | inl call => exact run.tail (.manager hosts hosts_host call.1 call.2 taken)
  | inr call =>
    simp only [sampleStep, bind_ok, relay_ok, pure_ok] at taken
    obtain ⟨w, taken, rfl⟩ := taken
    exact run.tail (.world (.payout stagers sources (stagers_hosted _) call.1 call.2 taken))

/-- A round delivers seven, and both are staged: two fifths and three fifths of it, rounded down. -/
def twoStagings : List Call :=
  (Rounds.twoRounds.map .inl).take 8 ++
    [.inr (⟨9, fun _ => true⟩, .stageCredit 40 10 [1] 7), .inr (⟨9, fun _ => true⟩, .stageCredit 40 11 [1] 7)]

def trusting : Payout.Store :=
  { Payout.Store.empty with trustedSource := Function.update (fun _ => false) 40 true }

theorem staging_exact_two : ∃ s, Run sample samplePayout sampleStock sampleCredits Rounds.sample
      (fun w => w.world.world.manager) (fun _ => 0) ⟨.empty, start trusting ⟨0, fun _ _ => 0⟩⟩ s ∧
    s.world.world.store.creditedToPayout 1 11 = 3 * 7 / 5 ∧
    s.world.world.store.totalDelivered 7 - s.world.world.store.totalStaged 7 ≤ 1 := by
  have deployed : Payout.deploy stagers [40] .empty = .ok trusting := rfl
  obtain ⟨s, reached, passed⟩ := Run.of_calls ⟨.empty, start trusting ⟨0, fun _ _ => 0⟩⟩ twoStagings
    (fun s => decide ((s.world.world.store.allocations 1).source ≠ 0 ∧
      (s.world.world.store.allocations 1).creditTotal = 5 ∧ s.world.world.store.deliveredAt 1 11 = 7 ∧
      s.world.world.world.stock 7 40 = 1)) (by decide)
  obtain ⟨known, total, delivered, held⟩ := of_decide_eq_true passed
  obtain ⟨shares, _, _, covers, _⟩ := staging_exact deployed reached
  have share := shares 1 11 known
  rw [total, delivered] at share
  exact ⟨s, reached, share, (covers 7).2.trans held.le⟩

end Solonpad.RewardVault
