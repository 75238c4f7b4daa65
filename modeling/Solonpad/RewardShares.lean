import Solonpad.RewardVault

/-!
Shares of a delivery. By fixed credits, which add up to no more than an allocation's total, everyone
who was staged has the floor of a share of what was delivered then. The floors of all shares stay
within what was delivered, so no check on credit or coverage refuses a staging, and what is left to
stage of an asset is held.
-/

namespace Solonpad.RewardVault

open Checked RunningTotal
open Chain (Address)

variable {W : Type} {c : Config} {b : Balance W} {x : Peers W} {s after : Store}
  {account asset id delta amount : Nat} {w : W}

/-- What a source credits an account with in an epoch and cohort. -/
abbrev Credits := Address → Nat → Nat → Address → Nat

variable {k : Credits} {ids : List Nat}

def Allocation.credit (k : Credits) (a : Allocation) (account : Address) : Nat :=
  k a.source a.epoch a.cohort account

/-- The credits add up to no more than the allocation's total. -/
def Allocation.Within (k : Credits) (a : Allocation) : Prop :=
  0 < a.creditTotal ∧ ∃ sum, Totals (a.credit k) sum ∧ sum ≤ a.creditTotal

/-- A table below everyone's share of a delivery adds up to no more than the delivery. -/
theorem Allocation.Within.bound {a : Allocation} (within : a.Within k) {table : Address → Nat} {total delivered : Nat}
    (sums : Totals table total) (below : ∀ account, table account ≤ a.credit k account * delivered / a.creditTotal) :
    total ≤ delivered := by
  obtain ⟨positive, sum, credits, fits⟩ := within
  have scaled : total * a.creditTotal ≤ sum * delivered := by
    apply (sums.scale a.creditTotal).le (credits.scale delivered)
    intro account
    exact (Nat.mul_le_mul_right _ (below account)).trans (Nat.div_mul_le_self _ _)
  have most : sum * delivered ≤ delivered * a.creditTotal := by
    rw [Nat.mul_comm delivered]
    exact Nat.mul_le_mul_right delivered fits
  exact Nat.le_of_mul_le_mul_right (scaled.trans most) positive

/-- An allocation's account, as of what was delivered when it was last staged. -/
structure Shares (k : Credits) (s : Store) (id : Nat) : Prop where
  within : (s.allocations id).Within k
  credited : ∀ account, s.creditedToPayout id account = (s.allocations id).credit k account *
    s.deliveredAt id account / (s.allocations id).creditTotal
  past : ∀ account, s.deliveredAt id account ≤ (s.allocations id).cumulativeDelivered

/-- An id that was never registered. -/
structure Unused (s : Store) (id : Nat) : Prop where
  credited : ∀ account, s.creditedToPayout id account = 0
  deliveredAt : ∀ account, s.deliveredAt id account = 0
  delivered : (s.allocations id).cumulativeDelivered = 0

/-- What of an asset an allocation's number counts for. -/
def ofAsset (s : Store) (asset : Address) (number : Nat → Nat) (id : Nat) : Nat :=
  if (s.allocations id).asset = asset then number id else 0

structure Sound (k : Credits) (s : Store) : Prop where
  unused : ∀ id, (s.allocations id).source = 0 → Unused s id
  shares : ∀ id, (s.allocations id).source ≠ 0 → Shares k s id
  staged : ∀ id, Totals (s.creditedToPayout id) (s.allocationStaged id)
  delivered : ∀ asset, Totals (ofAsset s asset fun id => (s.allocations id).cumulativeDelivered)
    (s.totalDelivered asset)

/-- The asset's staged total, where `more` is not written yet. -/
def Tallied (s : Store) (asset more : Nat) : Prop :=
  ∀ other, Totals (ofAsset s other s.allocationStaged)
    (s.totalStaged other + if other = asset then more else 0)

/-- What the payout vault was sent for an account in an asset. -/
def Told (s : Store) (account asset sent : Nat) : Prop :=
  Totals (ofAsset s asset fun id => s.creditedToPayout id account) sent

theorem Sound.empty : Sound k .empty ∧ Tallied .empty 0 0 ∧ ∀ account asset, Told .empty account asset 0 := by
  have zero : ∀ asset, Totals (ofAsset .empty asset fun _ => 0) 0 := by
    intro asset
    exact Totals.zero.of_eq (fun id => by simp [ofAsset]) rfl
  refine ⟨⟨fun id _ => ⟨fun _ => rfl, fun _ => rfl, rfl⟩, fun id known => absurd rfl known, fun id => .zero,
    zero⟩, fun asset => ?_, fun account asset => zero asset⟩
  exact (zero asset).of_eq (fun id => rfl) (by simp [Store.empty])

/-- The stores that differ in the participant index only, or in what is staged in all. -/
structure Same (s after : Store) : Prop where
  allocations : after.allocations = s.allocations
  credited : after.creditedToPayout = s.creditedToPayout
  staged : after.allocationStaged = s.allocationStaged
  deliveredAt : after.deliveredAt = s.deliveredAt
  delivered : after.totalDelivered = s.totalDelivered

theorem Sound.same (sound : Sound k s) (same : Same s after) : Sound k after := by
  obtain ⟨allocations, credited, staged, at_, delivered⟩ := same
  constructor
  · intro id none
    rw [allocations] at none
    obtain ⟨idle, never, blank⟩ := sound.unused id none
    exact ⟨by rwa [credited], by rwa [at_], by rwa [allocations]⟩
  · intro id known
    rw [allocations] at known
    obtain ⟨within, owed, past⟩ := sound.shares id known
    exact ⟨by rwa [allocations], by rwa [allocations, credited, at_], by rwa [allocations, at_]⟩
  · rw [credited, staged]
    exact sound.staged
  · intro asset
    rw [delivered]
    refine (sound.delivered asset).of_eq (fun id => ?_) rfl
    simp only [ofAsset, allocations]

theorem Told.same {sent : Nat} (told : Told s account asset sent) (same : Same s after) :
    Told after account asset sent := by
  refine told.of_eq (fun id => ?_) rfl
  simp only [ofAsset, same.allocations, same.credited]

theorem Tallied.same (tallied : Tallied s asset amount) (same : Same s after)
    (totals : after.totalStaged = s.totalStaged) : Tallied after asset amount := by
  intro other
  refine (tallied other).of_eq (fun id => ?_) (by rw [totals])
  simp only [ofAsset, same.allocations, same.staged]

theorem Shares.le (shares : Shares k s id) (account : Address) :
    s.creditedToPayout id account ≤ (s.allocations id).credit k account *
      (s.allocations id).cumulativeDelivered / (s.allocations id).creditTotal := by
  rw [shares.credited account]
  exact Nat.div_le_div_right (Nat.mul_le_mul_left _ (shares.past account))

/-- No allocation stages more than it was delivered. -/
theorem Sound.covered (sound : Sound k s) (id : Nat) :
    s.allocationStaged id ≤ (s.allocations id).cumulativeDelivered := by
  by_cases unused : (s.allocations id).source = 0
  · have none := (sound.unused id unused).credited
    have zero : s.allocationStaged id = 0 := (sound.staged id).unique (Totals.zero.of_eq none rfl)
    omega
  · exact (sound.shares id unused).within.bound (sound.staged id) (sound.shares id unused).le

theorem Sound.totals (sound : Sound k s) (tallied : Tallied s asset amount) (other : Address) :
    (s.totalStaged other + if other = asset then amount else 0) ≤ s.totalDelivered other := by
  apply (tallied other).le (sound.delivered other)
  intro id
  unfold ofAsset
  split
  · exact sound.covered id
  · exact le_rfl

/-! One staging. -/

/-- The store once an account has its share of an allocation. -/
def Store.shared (s : Store) (id account delta : Nat) : Store :=
  { s with
    allocationStaged := Function.update s.allocationStaged id (s.allocationStaged id + delta)
    creditedToPayout := Function.update s.creditedToPayout id
      (Function.update (s.creditedToPayout id) account (s.creditedToPayout id account + delta))
    deliveredAt := Function.update s.deliveredAt id
      (Function.update (s.deliveredAt id) account (s.allocations id).cumulativeDelivered) }

@[simp]
theorem shared_allocations : (s.shared id account delta).allocations = s.allocations := rfl

@[simp]
theorem shared_totalStaged : (s.shared id account delta).totalStaged = s.totalStaged := rfl

theorem shared_credited (s : Store) (id account delta other a : Nat) :
    (s.shared id account delta).creditedToPayout other a = s.creditedToPayout other a +
      if other = id ∧ a = account then delta else 0 := by
  by_cases same : other = id
  · subst same
    by_cases own : a = account
    · subst own
      simp [Store.shared]
    · simp [Store.shared, own]
  · simp [Store.shared, same]

theorem shared_deliveredAt (s : Store) (id account delta other a : Nat) :
    (s.shared id account delta).deliveredAt other a =
      if other = id ∧ a = account then (s.allocations id).cumulativeDelivered
      else s.deliveredAt other a := by
  by_cases same : other = id
  · subst same
    by_cases own : a = account
    · subst own
      simp [Store.shared]
    · simp [Store.shared, own]
  · simp [Store.shared, same]

theorem shared_staged (s : Store) (id account delta other : Nat) :
    (s.shared id account delta).allocationStaged other = s.allocationStaged other +
      if other = id then delta else 0 := by
  by_cases same : other = id
  · subst same
    simp [Store.shared]
  · simp [Store.shared, same]

/-- What a staging of one allocation does. -/
structure Gives (k : Credits) (s : Store) (account asset id delta : Nat) (after : Store) : Prop where
  known : (s.allocations id).source ≠ 0
  same : (s.allocations id).asset = asset
  owed : s.creditedToPayout id account + delta = (s.allocations id).credit k account *
    (s.allocations id).cumulativeDelivered / (s.allocations id).creditTotal
  store : after = s.shared id account delta

/-- The sources answer by the fixed credits. -/
def Fair (k : Credits) (x : Peers W) (s : Store) (w : W) : Prop :=
  ∀ id account credit, (s.allocations id).source ≠ 0 →
    x.creditOf w (s.allocations id).source account (s.allocations id).epoch (s.allocations id).cohort =
      .ok credit → credit = (s.allocations id).credit k account

theorem stageOne_gives (fair : Fair k x s w) (done : stageOne x w account asset id s = .ok (after, delta)) :
    Gives k s account asset id delta after ∨
      after = s ∧ delta = 0 ∧ (s.allocations id).asset ≠ asset := by
  simp only [stageOne, bind_ok, require_ok, ite_ok, sub_ok, pure_ok, Prod.mk.injEq] at done
  obtain ⟨_, known, ⟨apart, rfl, rfl⟩ | ⟨same, credit, answer, _, _, _, ⟨covered, rfl⟩, _, _, rfl, rfl⟩⟩ :=
    done
  · exact .inr ⟨rfl, rfl, apart⟩
  · have told := fair id account credit known answer
    subst told
    have owed := Nat.add_sub_cancel' covered
    refine .inl ⟨known, not_not.mp same, owed, ?_⟩
    rw [Store.shared, owed]

theorem Gives.sound (gives : Gives k s account asset id delta after) (sound : Sound k s) : Sound k after := by
  obtain ⟨known, same, owed, rfl⟩ := gives
  constructor
  · intro other unused
    have ne : other ≠ id := fun eq => known (eq ▸ unused)
    obtain ⟨credited, at_, blank⟩ := sound.unused other unused
    refine ⟨fun a => ?_, fun a => ?_, blank⟩
    · rw [shared_credited, if_neg (fun eq => ne eq.1), credited]
    · rw [shared_deliveredAt, if_neg (fun eq => ne eq.1), at_]
  · intro other registered
    obtain ⟨within, credited, past⟩ := sound.shares other registered
    refine ⟨within, fun a => ?_, fun a => ?_⟩
    · rw [shared_credited, shared_deliveredAt]
      by_cases own : other = id ∧ a = account
      · rw [if_pos own, if_pos own, own.1, own.2]
        exact owed
      · rw [if_neg own, if_neg own]
        exact credited a
    · rw [shared_deliveredAt]
      split
      · next own => exact own.1 ▸ le_rfl
      · exact past a
  · intro other
    rw [shared_staged]
    by_cases eq : other = id
    · subst eq
      apply (sound.staged other).moved account
      · intro a apart
        rw [shared_credited, if_neg (fun own => apart own.2)]
        rfl
      · rw [shared_credited]
        simp only [and_self, if_true]
        omega
    · rw [if_neg eq]
      refine (sound.staged other).of_eq (fun a => ?_) rfl
      rw [shared_credited, if_neg (fun own => eq own.1)]
      rfl
  · exact sound.delivered

theorem Gives.tallied (gives : Gives k s account asset id delta after) (tallied : Tallied s asset amount) :
    Tallied after asset (amount + delta) := by
  obtain ⟨_, same, _, rfl⟩ := gives
  intro other
  have before := tallied other
  by_cases own : other = asset
  · subst own
    apply before.moved id
    · intro n ne
      simp only [ofAsset, shared_allocations, shared_staged, if_neg ne, Nat.add_zero]
    · simp only [ofAsset, shared_allocations, shared_totalStaged, shared_staged, same, if_true]
      omega
  · refine before.of_eq (fun n => ?_) ?_
    · simp only [ofAsset, shared_allocations, shared_staged]
      by_cases eq : n = id
      · subst eq
        rw [if_neg (by rw [same]; exact Ne.symm own), if_neg (by rw [same]; exact Ne.symm own)]
      · rw [if_neg eq]
        rfl
    · rw [if_neg own, if_neg own]
      rfl

theorem Gives.told (gives : Gives k s account asset id delta after) {a other sent : Nat}
    (told : Told s a other sent) : Told after a other (sent + if a = account ∧ other = asset then delta else 0) := by
  obtain ⟨_, same, _, rfl⟩ := gives
  by_cases own : a = account ∧ other = asset
  · obtain ⟨rfl, rfl⟩ := own
    apply told.moved id
    · intro n ne
      simp only [ofAsset, shared_allocations, shared_credited, ne, false_and, if_false, Nat.add_zero]
    · simp only [ofAsset, shared_allocations, shared_credited, same, if_true, and_self]
      omega
  · refine told.of_eq (fun n => ?_) ?_
    · simp only [ofAsset, shared_allocations, shared_credited]
      by_cases eq : n = id ∧ a = account
      · have apart : (s.allocations n).asset ≠ other := by
          rw [eq.1, same]
          exact fun back => own ⟨eq.2, back.symm⟩
        rw [if_neg apart, if_neg apart]
      · rw [if_neg eq]
        rfl
    · rw [if_neg own]
      rfl

/-! A page of stagings. -/

/-- What a page of stagings does for one account in one asset. -/
structure Page (k : Credits) (account asset : Nat) (ids : List Nat) (s : Store) (amount : Nat)
    (after : Store) : Prop where
  sound : Sound k s → Sound k after
  tallied : ∀ more, Tallied s asset more → Tallied after asset (more + amount)
  told : ∀ a other sent, Told s a other sent →
    Told after a other (sent + if a = account ∧ other = asset then amount else 0)
  rest : after = { s with
    allocationStaged := after.allocationStaged, creditedToPayout := after.creditedToPayout
    deliveredAt := after.deliveredAt }
  staged : ∀ id ∈ ids, (s.allocations id).asset = asset →
    after.deliveredAt id account = (s.allocations id).cumulativeDelivered
  others : ∀ id a, a ≠ account ∨ id ∉ ids → after.deliveredAt id a = s.deliveredAt id a ∧
    after.creditedToPayout id a = s.creditedToPayout id a

theorem Page.one (gives : Gives k s account asset id delta after) : Page k account asset [id] s delta after := by
  refine ⟨gives.sound, fun more tallied => gives.tallied tallied, fun a other sent told => gives.told told,
    ?_, ?_, ?_⟩
  · rw [gives.store]
    rfl
  · intro n member _
    rw [List.mem_singleton.mp member, gives.store, shared_deliveredAt, if_pos ⟨rfl, rfl⟩]
  · intro n a apart
    have other : ¬ (n = id ∧ a = account) := by
      rintro ⟨rfl, rfl⟩
      rcases apart with ne | ne
      · exact ne rfl
      · exact ne (List.mem_singleton_self n)
    rw [gives.store, shared_deliveredAt, shared_credited, if_neg other, if_neg other]
    exact ⟨rfl, rfl⟩

theorem Page.skips (apart : (s.allocations id).asset ≠ asset) : Page k account asset [id] s 0 s := by
  refine ⟨fun sound => sound, fun more tallied => tallied, fun a other sent told => ?_, rfl, ?_,
    fun _ _ _ => ⟨rfl, rfl⟩⟩
  · exact told.of_eq (fun _ => rfl) (by split <;> rfl)
  · intro n member same
    rw [List.mem_singleton.mp member] at same
    exact absurd same apart

theorem Page.cons {middle : Store} (first : Page k account asset [id] s delta middle)
    (second : Page k account asset ids middle amount after) :
    Page k account asset (id :: ids) s (delta + amount) after := by
  have same : middle.allocations = s.allocations := by rw [first.rest]
  refine ⟨fun sound => second.sound (first.sound sound), fun more tallied => ?_, fun a other sent told => ?_,
    ?_, ?_, ?_⟩
  · rw [← Nat.add_assoc]
    exact second.tallied _ (first.tallied _ tallied)
  · have later := second.told _ _ _ (first.told _ _ _ told)
    refine later.of_eq (fun _ => rfl) ?_
    split <;> omega
  · rw [second.rest, first.rest]
  · intro n member asset_
    by_cases later : n ∈ ids
    · have staged := second.staged n later (by rw [same]; exact asset_)
      rw [staged, same]
    · rcases List.mem_cons.mp member with rfl | inside
      · rw [(second.others n account (.inr later)).1]
        exact first.staged n (List.mem_singleton_self n) asset_
      · exact absurd inside later
  · intro n a apart
    have before : a ≠ account ∨ n ∉ [id] :=
      apart.imp (fun ne => ne) (fun out inside => out (List.mem_cons.mpr (.inl (List.mem_singleton.mp inside))))
    have after_ : a ≠ account ∨ n ∉ ids :=
      apart.imp (fun ne => ne) (fun out inside => out (List.mem_cons_of_mem _ inside))
    rw [(second.others n a after_).1, (second.others n a after_).2]
    exact first.others n a before

theorem stageAll_page (ids : List Nat) {s : Store} (fair : Fair k x s w)
    (done : stageAll x w account asset ids s = .ok (after, amount)) : Page k account asset ids s amount after := by
  induction ids generalizing s amount with
  | nil =>
    cases done
    refine ⟨fun sound => sound, fun more tallied => tallied, fun a other sent told => ?_, rfl, ?_,
      fun _ _ _ => ⟨rfl, rfl⟩⟩
    · exact told.of_eq (fun _ => rfl) (by split <;> rfl)
    · intro n member
      cases member
  | cons id rest ih =>
    simp only [stageAll, bind_ok, pure_ok, Prod.mk.injEq] at done
    obtain ⟨⟨middle, delta⟩, one, ⟨last, more⟩, others, rfl, rfl⟩ := done
    have first : Page k account asset [id] s delta middle := by
      rcases stageOne_gives fair one with gives | ⟨rfl, rfl, apart⟩
      · exact .one gives
      · exact .skips apart
    have fair' : Fair k x middle w := by
      intro n a credit
      rw [first.rest]
      exact fair n a credit
    exact first.cons (ih fair' others)

/-! A staging that is not refused. -/

/-- The sources answer the credits of these allocations. -/
def Answered (k : Credits) (x : Peers W) (s : Store) (w : W) (account : Address) (ids : List Nat) : Prop :=
  ∀ id ∈ ids, (s.allocations id).source ≠ 0 ∧
    x.creditOf w (s.allocations id).source account (s.allocations id).epoch (s.allocations id).cohort =
      .ok ((s.allocations id).credit k account)

theorem stageOne_total (sound : Sound k s) (known : (s.allocations id).source ≠ 0)
    (answer : x.creditOf w (s.allocations id).source account (s.allocations id).epoch
      (s.allocations id).cohort = .ok ((s.allocations id).credit k account)) :
    ∃ result, stageOne x w account asset id s = .ok result := by
  have shares := sound.shares id known
  have covered := shares.le account
  have fits : (s.allocations id).credit k account ≤ (s.allocations id).creditTotal := by
    obtain ⟨_, sum, credits, most⟩ := shares.within
    exact (credits.entry_le account).trans most
  simp only [stageOne, bind_ok, require_ok, ite_ok, sub_ok, pure_ok]
  by_cases apart : (s.allocations id).asset ≠ asset
  · exact ⟨_, (), known, .inl ⟨apart, rfl⟩⟩
  · -- the share of this account joins the others' and all stay within the delivery
    have gives : Gives k s account asset id _ _ :=
      ⟨known, not_not.mp apart, Nat.add_sub_cancel' covered, rfl⟩
    have within := (gives.sound sound).covered id
    rw [shared_staged, if_pos rfl, shared_allocations] at within
    exact ⟨_, (), known, .inr ⟨apart, _, answer, (), fits, _, ⟨covered, rfl⟩, (), within, rfl⟩⟩

theorem stageAll_total (ids : List Nat) {s : Store} (sound : Sound k s) (fair : Fair k x s w)
    (answered : Answered k x s w account ids) : ∃ result, stageAll x w account asset ids s = .ok result := by
  induction ids generalizing s with
  | nil => exact ⟨_, rfl⟩
  | cons id rest ih =>
    obtain ⟨known, answer⟩ := answered id (List.mem_cons_self ..)
    obtain ⟨⟨middle, delta⟩, one⟩ : ∃ result, stageOne x w account asset id s = .ok result :=
      stageOne_total sound known answer
    have kept : middle.allocations = s.allocations ∧ Sound k middle := by
      rcases stageOne_gives fair one with gives | ⟨rfl, _, _⟩
      · exact ⟨by rw [gives.store]; rfl, gives.sound sound⟩
      · exact ⟨rfl, sound⟩
    obtain ⟨same, sound'⟩ := kept
    have fair' : Fair k x middle w := by
      intro n a credit
      rw [same]
      exact fair n a credit
    have answered' : Answered k x middle w account rest := by
      intro n member
      rw [same]
      exact answered n (List.mem_cons_of_mem _ member)
    obtain ⟨⟨last, amount⟩, others⟩ := ih sound' fair' answered'
    refine ⟨(last, delta + amount), ?_⟩
    simp only [stageAll, bind_ok, pure_ok]
    exact ⟨_, one, _, others, rfl⟩

/-! The vault's calls. -/

/-- What is left to stage of an asset is held. -/
def Covers (c : Config) (b : Balance W) (s : Store) (w : W) : Prop :=
  ∀ asset, s.totalDelivered asset ≤ b w asset c.self + s.totalStaged asset

/-- A token takes nothing of the vault's other stock. -/
def Spares (c : Config) (b : Balance W) (x : Peers W) : Prop :=
  ∀ w asset receiver amount after other, x.transfer w asset receiver amount = .ok after →
    other ≠ asset → b w other c.self ≤ b after other c.self

theorem sendExactly_ok {s after : State W} {error : VaultError} {receiver : Address}
    (spares : Spares c b x) (done : sendExactly c b x s error asset receiver amount = .ok after) :
    after.store = s.store ∧ b after.world asset c.self + amount = b s.world asset c.self ∧
      ∀ other, other ≠ asset → b s.world other c.self ≤ b after.world other c.self := by
  simp only [sendExactly, bind_ok, require_ok, pure_ok] at done
  obtain ⟨world, moved, _, ⟨_, sent⟩, rfl⟩ := done
  exact ⟨rfl, sent, fun other apart => spares _ _ _ _ _ other moved apart⟩

/-- A vault's whole account: shares, totals and what they are covered by. -/
structure Whole (c : Config) (b : Balance W) (k : Credits) (s : State W) : Prop where
  sound : Sound k s.store
  tallied : Tallied s.store 0 0
  covers : Covers c b s.store s.world

theorem Tallied.any (tallied : Tallied s asset 0) (other : Address) : Tallied s other 0 := by
  intro a
  refine (tallied a).of_eq (fun _ => rfl) ?_
  split <;> split <;> rfl

/-- What one staging call leaves: the page, the totals and exactly its amount gone. -/
theorem stageCredit_page {s after : State W} {sender : Address} (spares : Spares c b x)
    (fair : Fair k x s.store s.world) (whole : Whole c b k s)
    (done : stageCredit c b x s sender account ids asset = .ok (after, amount)) :
    Whole c b k after ∧ (∀ a other sent, Told s.store a other sent →
        Told after.store a other (sent + if a = account ∧ other = asset then amount else 0)) ∧
      (∀ id ∈ ids, (s.store.allocations id).asset = asset →
        after.store.deliveredAt id account = (s.store.allocations id).cumulativeDelivered) ∧
      after.store.allocations = s.store.allocations ∧
      after.store.totalDelivered = s.store.totalDelivered ∧
      ∀ other, s.store.totalStaged other ≤ after.store.totalStaged other := by
  simp only [stageCredit, bind_ok, require_ok, ite_ok, pure_ok, Prod.mk.injEq] at done
  obtain ⟨_, _, ⟨store, due⟩, paged, done⟩ := done
  have page := stageAll_page ids fair paged
  have sound := page.sound whole.sound
  have tallied := page.tallied 0 (whole.tallied.any asset)
  rw [Nat.zero_add] at tallied
  have delivered : store.totalDelivered = s.store.totalDelivered := by rw [page.rest]
  have staged : store.totalStaged = s.store.totalStaged := by rw [page.rest]
  have same : store.allocations = s.store.allocations := by rw [page.rest]
  rcases done with ⟨some, next, moved, rfl, rfl⟩ | ⟨none, rfl, rfl⟩
  · obtain ⟨kept, sent, others⟩ := sendExactly_ok spares moved
    refine ⟨⟨?_, ?_, ?_⟩, ?_, ?_, ?_, ?_, ?_⟩
    · rw [kept]
      exact sound.same ⟨rfl, rfl, rfl, rfl, rfl⟩
    · intro other
      rw [kept]
      refine (tallied other).of_eq (fun _ => rfl) ?_
      by_cases own : other = asset
      · subst own
        simp
      · simp [own]
    · intro other
      have held := whole.covers other
      simp only [kept, delivered]
      by_cases own : other = asset
      · subst own
        simp only [Function.update_self, staged]
        simp only at sent
        omega
      · have more := others other own
        simp only at more
        rw [Function.update_of_ne own, staged]
        omega
    · intro a other told_ told
      rw [kept]
      exact page.told a other told_ told
    · intro id member asset_
      rw [kept]
      exact page.staged id member asset_
    · rw [kept]
      exact same
    · rw [kept]
      exact delivered
    · intro other
      simp only [kept]
      by_cases own : other = asset
      · subst own
        rw [Function.update_self, staged]
        omega
      · rw [Function.update_of_ne own, staged]
  · have zero : due = 0 := by omega
    subst zero
    refine ⟨⟨sound, (tallied.any 0), ?_⟩, page.told, page.staged, same, delivered, ?_⟩
    · intro other
      rw [delivered, staged]
      exact whole.covers other
    · intro other
      rw [staged]

/-- A token that is asked for what the vault holds moves it, exactly. -/
def Honest (c : Config) (b : Balance W) (x : Peers W) (w : W) (asset : Address) : Prop :=
  ∀ amount, amount ≤ b w asset c.self → ∃ after, x.transfer w asset c.payout amount = .ok after ∧
    b after asset c.payout = b w asset c.payout + amount ∧
    b after asset c.self + amount = b w asset c.self

/-- Nothing refuses a staging. -/
theorem stageCredit_total {s : State W} (whole : Whole c b k s) (fair : Fair k x s.store s.world)
    (page : ids.length ≤ 20) (answered : Answered k x s.store s.world account ids)
    (honest : Honest c b x s.world asset) : ∃ result, stageCredit c b x s c.payout account ids asset = .ok result := by
  obtain ⟨⟨store, due⟩, paged⟩ : ∃ result, stageAll x s.world account asset ids s.store = .ok result :=
    stageAll_total ids whole.sound fair answered
  have done := stageAll_page ids fair paged
  have tallied := done.tallied 0 (whole.tallied.any asset)
  have fits := (done.sound whole.sound).totals tallied asset
  have delivered : store.totalDelivered = s.store.totalDelivered := by rw [done.rest]
  have staged : store.totalStaged = s.store.totalStaged := by rw [done.rest]
  have held := whole.covers asset
  rw [if_pos rfl, delivered, staged] at fits
  simp only [stageCredit, bind_ok, require_ok, ite_ok, pure_ok]
  by_cases some : 0 < due
  · obtain ⟨world, moved, brought, sent⟩ := honest due (by omega)
    let last : Store := { store with
      totalStaged := Function.update store.totalStaged asset (store.totalStaged asset + due) }
    have sending : sendExactly c b x ⟨last, s.world⟩ .stageDelta asset c.payout due = .ok ⟨last, world⟩ := by
      simp only [sendExactly, bind_ok, require_ok, pure_ok]
      exact ⟨world, moved, (), ⟨brought, sent⟩, rfl⟩
    exact ⟨_, (), ⟨trivial, page⟩, _, paged, .inl ⟨some, _, sending, rfl⟩⟩
  · exact ⟨_, (), ⟨trivial, page⟩, _, paged, .inr ⟨some, rfl⟩⟩

end Solonpad.RewardVault
