import Solonpad.RoundMoves
import Solonpad.Transition
import Mathlib.Logic.Equiv.List

/-!
The books of the round manager. Every unit of an entry's budget is available, pending in the one
live round that holds a slice of it, or settled; and the manager's native balance backs what is
available and what is reserved but not sent. Both hold after every turn, whatever the other
contracts do with their own state.
-/

namespace Solonpad.Rounds

open Checked
open Chain (Address)
open Hub (RoundOrderId)
open RunningTotal Transition

/-- A round that holds its slices in `pending`. -/
def Status.live : Status → Bool
  | .reserved | .funding | .funded | .submitted | .quarantined => true
  | .none | .settled | .refunded | .cancelledUnsent => false

theorem Round.awaits.live {r : Round} (awaits : r.awaits) : r.status.live = true := by
  rcases awaits with held | held | held | held <;> rw [held] <;> rfl

/-- What an entry spent in a round that settled. -/
def settledShare (s : Store) (e : EntryId) (id : RoundId) : Nat :=
  if (s.rounds id).status = .settled then share (s.slices id) e else 0

def reservedBudget (s : Store) (id : RoundId) : Nat :=
  if (s.rounds id).status = .reserved then (s.rounds id).budget18 else 0

/-- A live round holds a slice of the entry. -/
def InRound (s : Store) (e : EntryId) (id : RoundId) : Prop :=
  (s.rounds id).status.live = true ∧ ∃ slice ∈ s.slices id, slice.entryId = e

/-- The books of entries and rounds. -/
structure Booked (s : Store) : Prop where
  fresh : ∀ id, s.nextRoundId < id → s.rounds id = Round.blank ∧ s.slices id = []
  unborn : ∀ e, s.nextEntryId < e →
    s.entries e = Entry.blank ∧ s.available e = 0 ∧ s.pending e = 0
  known : ∀ id, ∀ slice ∈ s.slices id, slice.entryId ≤ s.nextEntryId
  distinct : ∀ id, (s.slices id).Pairwise fun a b => a.entryId ≠ b.entryId
  positive : ∀ id, ∀ slice ∈ s.slices id, 0 < slice.budget18
  budget : ∀ id, (s.rounds id).budget18 = ((s.slices id).map Slice.budget18).sum
  exact : ∀ id, (s.rounds id).status.live = true → ∀ slice ∈ s.slices id,
    s.pending slice.entryId = slice.budget18
  single : ∀ e id other, InRound s e id → InRound s e other → id = other
  held : ∀ e, s.pending e ≠ 0 → ∃ id, InRound s e id
  conserved : ∀ e, ∃ settled, Totals (settledShare s e) settled ∧
    s.available e + s.pending e + settled = (s.entries e).budget18

/-- An amount of money backs what is available or reserved. -/
def Backed (s : Store) (money : Nat) : Prop :=
  ∃ idle reserved, Totals s.available idle ∧ Totals (reservedBudget s) reserved ∧
    idle + reserved ≤ money

theorem share_totals (items : List Slice) : Totals (share items) (items.map Slice.budget18).sum := by
  induction items with
  | nil => exact Totals.zero
  | cons slice rest ih =>
    exact ((Totals.single slice.entryId slice.budget18).add ih).of_eq (fun _ => rfl) rfl

/-- The stores that agree on everything the books are about. -/
structure SameBooks (s after : Store) : Prop where
  entries : after.entries = s.entries
  nextEntryId : after.nextEntryId = s.nextEntryId
  available : after.available = s.available
  pending : after.pending = s.pending
  rounds : after.rounds = s.rounds
  slices : after.slices = s.slices
  nextRoundId : after.nextRoundId = s.nextRoundId

variable {s after : Store} {items : List Slice} {c : Config} {money other : Nat} {b : Balances W}
  {x : Peers W}

theorem Wired.same (wired : Wired s after) : SameBooks s after := by
  rw [wired]
  exact ⟨rfl, rfl, rfl, rfl, rfl, rfl, rfl⟩

theorem Booked.same (booked : Booked s) (same : SameBooks s after) : Booked after := by
  obtain ⟨entries, nextEntryId, available, pending, rounds, slices, nextRoundId⟩ := same
  have shares : ∀ e, settledShare after e = settledShare s e := by
    intro e
    funext id
    simp only [settledShare, rounds, slices]
  constructor
  · simpa only [nextRoundId, rounds, slices] using booked.fresh
  · simpa only [nextEntryId, entries, available, pending] using booked.unborn
  · simpa only [slices, nextEntryId] using booked.known
  · simpa only [slices] using booked.distinct
  · simpa only [slices] using booked.positive
  · simpa only [rounds, slices] using booked.budget
  · simpa only [rounds, slices, pending] using booked.exact
  · simpa only [InRound, rounds, slices] using booked.single
  · simpa only [InRound, pending, rounds, slices] using booked.held
  · simpa only [shares, available, pending, entries] using booked.conserved

/-! Sealing. -/

theorem Booked.sealed (booked : Booked s) (key : Address × Nat × Nat) (entry : Entry) :
    Booked (s.sealed key entry) := by
  have old : ∀ e, e ≤ s.nextEntryId → e ≠ s.nextEntryId + 1 := fun e before => by omega
  constructor
  · exact booked.fresh
  · intro e later
    have ne : e ≠ s.nextEntryId + 1 := by
      simp only [Store.sealed] at later
      omega
    simp only [Store.sealed, Function.update_of_ne ne]
    apply booked.unborn
    simp only [Store.sealed] at later
    omega
  · intro id slice member
    exact Nat.le_succ_of_le (booked.known id slice member)
  · exact booked.distinct
  · exact booked.positive
  · exact booked.budget
  · exact booked.exact
  · exact booked.single
  · exact booked.held
  · intro e
    obtain ⟨settled, sums, conserved⟩ := booked.conserved e
    by_cases same : e = s.nextEntryId + 1
    · subst same
      obtain ⟨_, idle, none⟩ := booked.unborn _ (Nat.lt_succ_self _)
      have absent : ∀ id, settledShare s (s.nextEntryId + 1) id = 0 := by
        intro id
        rw [settledShare, share_absent (fun slice member => old _ (booked.known id slice member)),
          ite_self]
      refine ⟨0, Totals.zero.of_eq absent rfl, ?_⟩
      simp only [Store.sealed, Function.update_self, none, Nat.add_zero]
    · refine ⟨settled, sums, ?_⟩
      simpa only [Store.sealed, Function.update_of_ne same] using conserved

/-! One round's record. -/

/-- A live round stays live with the same budget: nothing moves. -/
theorem Booked.retouched (booked : Booked s) (id : RoundId) (r : Round) (before : (s.rounds id).status.live = true)
    (live : r.status.live = true) (budget : r.budget18 = (s.rounds id).budget18) : Booked (s.setRound id r) := by
  have born : id ≤ s.nextRoundId := by
    by_contra later
    rw [(booked.fresh id (Nat.lt_of_not_le later)).1] at before
    cases before
  have status : ∀ other, ((s.setRound id r).rounds other).status.live =
      (s.rounds other).status.live := by
    intro other
    by_cases same : other = id
    · subst same
      simp [Store.setRound, before, live]
    · simp [Store.setRound, same]
  have rounds : ∀ e other, InRound (s.setRound id r) e other ↔ InRound s e other := by
    intro e other
    rw [InRound, InRound, status]
    rfl
  have unsettled : (s.rounds id).status ≠ .settled := by
    intro settled
    rw [settled] at before
    cases before
  have unsettled' : r.status ≠ .settled := by
    intro settled
    rw [settled] at live
    cases live
  constructor
  · intro other later
    have ne : other ≠ id := by
      rintro rfl
      exact absurd later (Nat.not_lt.mpr born)
    simpa only [Store.setRound, Function.update_of_ne ne] using booked.fresh other later
  · exact booked.unborn
  · exact booked.known
  · exact booked.distinct
  · exact booked.positive
  · intro other
    by_cases same : other = id
    · subst same
      simp only [Store.setRound, Function.update_self, budget]
      exact booked.budget other
    · simp only [Store.setRound, Function.update_of_ne same]
      exact booked.budget other
  · intro other alive
    rw [status] at alive
    exact booked.exact other alive
  · intro e other another first second
    exact booked.single e other another ((rounds e other).mp first) ((rounds e another).mp second)
  · intro e nonzero
    obtain ⟨other, inside⟩ := booked.held e nonzero
    exact ⟨other, (rounds e other).mpr inside⟩
  · intro e
    obtain ⟨settled, sums, conserved⟩ := booked.conserved e
    refine ⟨settled, sums.of_eq ?_ rfl, conserved⟩
    intro other
    by_cases same : other = id
    · subst same
      simp [settledShare, Store.setRound, unsettled, unsettled']
    · simp [settledShare, Store.setRound, same]

/-- A live round closes: its slices leave `pending`, and are settled or available again. -/
theorem Booked.closed (booked : Booked s) (id : RoundId) (r : Round) (refund : Bool)
    (before : (s.rounds id).status.live = true) (ended : r.status.live = false)
    (outcome : refund = false ↔ r.status = .settled) (budget : r.budget18 = (s.rounds id).budget18) :
    Booked ((s.setRound id r).closed refund (s.slices id)) := by
  have born : id ≤ s.nextRoundId := by
    by_contra later
    rw [(booked.fresh id (Nat.lt_of_not_le later)).1] at before
    cases before
  have others : ∀ other, other ≠ id → (s.setRound id r).rounds other = s.rounds other := by
    intro other ne
    simp [Store.setRound, ne]
  have own : (s.setRound id r).rounds id = r := by simp [Store.setRound]
  have closed : ¬ ((s.setRound id r).rounds id).status.live = true := by
    rw [own, ended]
    decide
  -- the round's share of an entry is the entry's whole `pending`, or nothing
  have whole : ∀ e, share (s.slices id) e = 0 ∨ share (s.slices id) e = s.pending e := by
    intro e
    by_cases member : ∃ slice ∈ s.slices id, slice.entryId = e
    · obtain ⟨slice, inside, rfl⟩ := member
      right
      rw [share_own (booked.distinct id) inside, booked.exact id before slice inside]
    · left
      exact share_absent (fun slice inside same => member ⟨slice, inside, same⟩)
  have earlier : ∀ e other, InRound ((s.setRound id r).closed refund (s.slices id)) e other →
      other ≠ id ∧ InRound s e other := by
    intro e other inside
    have ne : other ≠ id := by
      rintro rfl
      exact closed inside.1
    refine ⟨ne, ?_, inside.2⟩
    have live := inside.1
    simpa only [Store.closed, others other ne] using live
  have unsettled : (s.rounds id).status ≠ .settled := by
    intro settled
    rw [settled] at before
    cases before
  constructor
  · intro other later
    have ne : other ≠ id := by
      rintro rfl
      exact absurd later (Nat.not_lt.mpr born)
    simp only [Store.closed, others other ne]
    exact booked.fresh other later
  · intro e later
    obtain ⟨blank, idle, none⟩ := booked.unborn e later
    have nothing := whole e
    have absent : share (s.slices id) e = 0 := by omega
    refine ⟨blank, ?_, ?_⟩
    · simp [Store.closed, Store.setRound, idle, absent]
    · simp [Store.closed, Store.setRound, none]
  · exact booked.known
  · exact booked.distinct
  · exact booked.positive
  · intro other
    by_cases same : other = id
    · subst same
      simp only [Store.closed, own, budget]
      exact booked.budget other
    · simp only [Store.closed, others other same]
      exact booked.budget other
  · intro other live slice member
    have inside : InRound ((s.setRound id r).closed refund (s.slices id)) slice.entryId other :=
      ⟨live, slice, member, rfl⟩
    obtain ⟨ne, inside⟩ := earlier _ _ inside
    have absent : share (s.slices id) slice.entryId = 0 := by
      apply share_absent
      intro mine held same
      exact ne (booked.single _ other id inside ⟨before, mine, held, same⟩)
    simp only [Store.closed, absent, Nat.sub_zero]
    exact booked.exact other inside.1 slice member
  · intro e other another first second
    exact booked.single e other another (earlier e other first).2 (earlier e another second).2
  · intro e nonzero
    simp only [Store.closed, Store.setRound] at nonzero
    obtain ⟨other, live, slice, member, rfl⟩ := booked.held e (by omega)
    have ne : other ≠ id := by
      rintro rfl
      rw [share_own (booked.distinct other) member, booked.exact other live slice member] at nonzero
      omega
    refine ⟨other, ?_, slice, member, rfl⟩
    simpa only [Store.closed, others other ne] using live
  · intro e
    obtain ⟨settled, sums, conserved⟩ := booked.conserved e
    have taken := whole e
    have mine : settledShare s e id = 0 := by
      rw [settledShare, if_neg unsettled]
    have elsewhere : ∀ other, other ≠ id →
        settledShare ((s.setRound id r).closed refund (s.slices id)) e other =
          settledShare s e other := by
      intro other ne
      simp only [settledShare, Store.closed, others other ne]
      rfl
    cases refund with
    | false =>
      have now : settledShare ((s.setRound id r).closed false (s.slices id)) e id =
          share (s.slices id) e := by
        simp only [settledShare, Store.closed, own, if_pos (outcome.mp rfl)]
        rfl
      refine ⟨settled + share (s.slices id) e, sums.moved id elsewhere (by omega), ?_⟩
      simp only [Store.closed, Store.setRound, Bool.false_eq_true, if_false]
      omega
    | true =>
      have open_ : r.status ≠ .settled := by
        intro done
        cases outcome.mpr done
      have now : settledShare ((s.setRound id r).closed true (s.slices id)) e id = 0 := by
        simp only [settledShare, Store.closed, own, if_neg open_]
      refine ⟨settled, sums.moved id elsewhere (by omega), ?_⟩
      simp only [Store.closed, Store.setRound, if_true]
      omega

/-! A new round. -/

/-- The store gained one reserved round with its slices. -/
structure Gains (items : List Slice) (s after : Store) : Prop where
  entries : after.entries = s.entries
  nextEntryId : after.nextEntryId = s.nextEntryId
  nextRoundId : after.nextRoundId = s.nextRoundId + 1
  available : ∀ e, after.available e + share items e = s.available e
  pending : ∀ e, after.pending e = s.pending e + share items e
  slices : after.slices = Function.update s.slices (s.nextRoundId + 1) items
  others : ∀ other, other ≠ s.nextRoundId + 1 → after.rounds other = s.rounds other
  status : (after.rounds (s.nextRoundId + 1)).status = .reserved
  budget : (after.rounds (s.nextRoundId + 1)).budget18 = (items.map Slice.budget18).sum
  known : ∀ slice ∈ items, (s.entries slice.entryId).source ≠ 0
  positive : ∀ slice ∈ items, 0 < slice.budget18
  idle : ∀ slice ∈ items, s.pending slice.entryId = 0
  distinct : items.Pairwise fun a b => a.entryId ≠ b.entryId

theorem Booked.gains (booked : Booked s) (gains : Gains items s after) : Booked after := by
  obtain ⟨blank, none⟩ := booked.fresh _ (Nat.lt_succ_self s.nextRoundId)
  have new : after.slices (s.nextRoundId + 1) = items := by
    rw [gains.slices, Function.update_self]
  have old : ∀ other, other ≠ s.nextRoundId + 1 → after.slices other = s.slices other := by
    intro other ne
    rw [gains.slices, Function.update_of_ne ne]
  have born : ∀ slice ∈ items, slice.entryId ≤ s.nextEntryId := by
    intro slice member
    by_contra later
    apply gains.known slice member
    rw [(booked.unborn _ (Nat.lt_of_not_le later)).1]
    rfl
  -- an entry of the new round was in no live round before
  have apart : ∀ slice ∈ items, ∀ other, ¬ InRound s slice.entryId other := by
    rintro slice member other ⟨live, mine, held, same⟩
    have full := booked.exact other live mine held
    have some := booked.positive other mine held
    rw [same, gains.idle slice member] at full
    omega
  have earlier : ∀ e other, InRound after e other → other ≠ s.nextRoundId + 1 → InRound s e other := by
    rintro e other ⟨live, inside⟩ ne
    rw [gains.others other ne] at live
    rw [old other ne] at inside
    exact ⟨live, inside⟩
  have later : ∀ e other, InRound s e other → InRound after e other := by
    rintro e other ⟨live, inside⟩
    have ne : other ≠ s.nextRoundId + 1 := by
      rintro rfl
      rw [blank] at live
      cases live
    exact ⟨by rwa [gains.others other ne], by rwa [old other ne]⟩
  constructor
  · intro other beyond
    rw [gains.nextRoundId] at beyond
    have ne : other ≠ s.nextRoundId + 1 := Nat.ne_of_gt beyond
    rw [gains.others other ne, old other ne]
    exact booked.fresh other (Nat.lt_of_succ_lt beyond)
  · intro e beyond
    rw [gains.nextEntryId] at beyond
    obtain ⟨entry, idle, nothing⟩ := booked.unborn e beyond
    have absent : share items e = 0 := by
      apply share_absent
      rintro slice member rfl
      exact absurd beyond (Nat.not_lt.mpr (born slice member))
    have available := gains.available e
    refine ⟨by rw [gains.entries, entry], by omega, ?_⟩
    rw [gains.pending, nothing, absent]
  · intro other slice member
    rw [gains.nextEntryId]
    by_cases same : other = s.nextRoundId + 1
    · rw [same, new] at member
      exact born slice member
    · rw [old other same] at member
      exact booked.known other slice member
  · intro other
    by_cases same : other = s.nextRoundId + 1
    · rw [same, new]
      exact gains.distinct
    · rw [old other same]
      exact booked.distinct other
  · intro other slice member
    by_cases same : other = s.nextRoundId + 1
    · rw [same, new] at member
      exact gains.positive slice member
    · rw [old other same] at member
      exact booked.positive other slice member
  · intro other
    by_cases same : other = s.nextRoundId + 1
    · rw [same, new]
      exact gains.budget
    · rw [gains.others other same, old other same]
      exact booked.budget other
  · intro other live slice member
    rw [gains.pending]
    by_cases same : other = s.nextRoundId + 1
    · rw [same, new] at member
      rw [gains.idle slice member, share_own gains.distinct member, Nat.zero_add]
    · have inside := earlier slice.entryId other ⟨live, slice, member, rfl⟩ same
      have absent : share items slice.entryId = 0 := by
        apply share_absent
        intro mine held shared
        exact apart mine held other (by rwa [shared])
      rw [old other same] at member
      rw [absent, Nat.add_zero]
      exact booked.exact other inside.1 slice member
  · intro e other another first second
    by_cases same : other = s.nextRoundId + 1 <;> by_cases same' : another = s.nextRoundId + 1
    · rw [same, same']
    · obtain ⟨slice, member, rfl⟩ := first.2
      rw [same, new] at member
      exact absurd (earlier _ _ second same') (apart slice member another)
    · obtain ⟨slice, member, rfl⟩ := second.2
      rw [same', new] at member
      exact absurd (earlier _ _ first same) (apart slice member other)
    · exact booked.single e other another (earlier e other first same) (earlier e another second same')
  · intro e nonzero
    by_cases member : ∃ slice ∈ items, slice.entryId = e
    · refine ⟨s.nextRoundId + 1, ?_, by rwa [new]⟩
      rw [gains.status]
      rfl
    · rw [gains.pending, share_absent (fun slice inside same => member ⟨slice, inside, same⟩),
        Nat.add_zero] at nonzero
      obtain ⟨other, inside⟩ := booked.held e nonzero
      exact ⟨other, later e other inside⟩
  · intro e
    obtain ⟨settled, sums, conserved⟩ := booked.conserved e
    refine ⟨settled, sums.of_eq ?_ rfl, ?_⟩
    · intro other
      by_cases same : other = s.nextRoundId + 1
      · rw [same, settledShare, settledShare, gains.status, blank]
        rfl
      · rw [settledShare, settledShare, gains.others other same, old other same]
    · have available := gains.available e
      rw [gains.pending, gains.entries]
      omega

/-- Reserving slices for a new round adds that round. -/
theorem Reserves.gains {policy : Policy} {route : Route} {minRaw deadline : Nat} {store : Store} (booked : Booked s)
    (taken : Reserves c (s.nextRoundId + 1) [] items (s.opened policy route minRaw deadline items.length) store)
    (orderId : RoundOrderId) : Gains items s (store.linked (s.nextRoundId + 1) orderId) := by
  obtain ⟨blank, none⟩ := booked.fresh _ (Nat.lt_succ_self s.nextRoundId)
  constructor
  · rw [taken.rest]
    rfl
  · rw [taken.rest]
    rfl
  · rw [taken.rest]
    rfl
  · exact taken.available
  · exact taken.pending
  · have slices := taken.slices
    simp only [Store.opened, Store.setRound, none, List.nil_append] at slices
    exact slices
  · intro other ne
    have kept := taken.others other ne
    simpa only [Store.linked, Store.opened, Store.setRound, Function.update_of_ne ne] using kept
  · simp only [Store.linked, Store.setRound, Function.update_self]
  · have budget := taken.budget
    simp only [Store.opened, Store.setRound, Function.update_self, blank] at budget
    simp only [Store.linked, Store.setRound, Function.update_self, budget]
    exact Nat.zero_add _
  · exact taken.known
  · exact taken.positive
  · exact taken.idle
  · exact taken.distinct

/-! Money. -/

theorem Backed.more (backed : Backed s money) (more : money ≤ other) : Backed s other := by
  obtain ⟨idle, reserved, available, budgets, bound⟩ := backed
  exact ⟨idle, reserved, available, budgets, by omega⟩

theorem Backed.same (backed : Backed s money) (same : SameBooks s after) : Backed after money := by
  obtain ⟨idle, reserved, available, budgets, bound⟩ := backed
  have left : after.available = s.available := same.available
  have right : reservedBudget after = reservedBudget s := by
    funext id
    rw [reservedBudget, reservedBudget, same.rounds]
  exact ⟨idle, reserved, by rwa [left], by rwa [right], bound⟩

theorem Backed.sealed (booked : Booked s) (backed : Backed s money) (key : Address × Nat × Nat)
    (entry : Entry) : Backed (s.sealed key entry) (money + entry.budget18) := by
  obtain ⟨idle, reserved, available, budgets, bound⟩ := backed
  obtain ⟨_, none, _⟩ := booked.unborn _ (Nat.lt_succ_self s.nextEntryId)
  have added := available.credit (s.nextEntryId + 1) entry.budget18
  rw [none, Nat.zero_add] at added
  exact ⟨idle + entry.budget18, reserved, added, budgets, by omega⟩

theorem Backed.gains (booked : Booked s) (backed : Backed s money) (gains : Gains items s after) :
    Backed after money := by
  obtain ⟨idle, reserved, available, budgets, bound⟩ := backed
  obtain ⟨rest, left, split⟩ := available.split (share_totals items) gains.available
  obtain ⟨blank, _⟩ := booked.fresh _ (Nat.lt_succ_self s.nextRoundId)
  refine ⟨rest, reserved + (items.map Slice.budget18).sum, left,
    budgets.moved (s.nextRoundId + 1) ?_ ?_, by omega⟩
  · intro other ne
    rw [reservedBudget, reservedBudget, gains.others other ne]
  · rw [reservedBudget, reservedBudget, if_pos gains.status, gains.budget, blank]
    rfl

/-- A round that is not reserved any more frees its reservation. -/
theorem reserved_freed {reserved : Nat} (budgets : Totals (reservedBudget s) reserved) (id : RoundId)
    (r : Round) (status : r.status ≠ .reserved) :
    ∃ rest, Totals (reservedBudget (s.setRound id r)) rest ∧ rest + reservedBudget s id = reserved := by
  have held := budgets.entry_le id
  refine ⟨reserved - reservedBudget s id, budgets.moved id ?_ ?_, by omega⟩
  · intro other ne
    simp only [reservedBudget, Store.setRound, Function.update_of_ne ne]
  · have gone : reservedBudget (s.setRound id r) id = 0 := by
      simp only [reservedBudget, Store.setRound, Function.update_self, if_neg status]
    omega

theorem Backed.retouched (backed : Backed s money) (id : RoundId) (r : Round) (status : r.status ≠ .reserved)
    (enough : money ≤ other + reservedBudget s id) : Backed (s.setRound id r) other := by
  obtain ⟨idle, reserved, available, budgets, bound⟩ := backed
  obtain ⟨rest, freed, split⟩ := reserved_freed budgets id r status
  exact ⟨idle, rest, available, freed, by omega⟩

theorem Backed.closed (booked : Booked s) (backed : Backed s money) (id : RoundId) (r : Round) (refund : Bool)
    (status : r.status ≠ .reserved)
    (enough : money + (if refund then (s.rounds id).budget18 else 0) ≤ other + reservedBudget s id) :
    Backed ((s.setRound id r).closed refund (s.slices id)) other := by
  obtain ⟨idle, reserved, available, budgets, bound⟩ := backed
  obtain ⟨rest, freed, split⟩ := reserved_freed budgets id r status
  have worth := booked.budget id
  cases refund with
  | false =>
    simp only [Bool.false_eq_true, if_false] at enough
    exact ⟨idle, rest, available.of_eq (fun _ => rfl) rfl, freed, by omega⟩
  | true =>
    simp only [if_true] at enough
    refine ⟨idle + ((s.slices id).map Slice.budget18).sum, rest, ?_, freed, by omega⟩
    exact (available.add (share_totals (s.slices id))).of_eq (fun _ => rfl) rfl

/-! Turns. -/

/-- The books are kept and the money is there. -/
structure Sound (b : Balances W) (s : State W) : Prop where
  booked : Booked s.store
  backed : Backed s.store (b.manager s.world)

theorem Sound.of {world : W} (booked : Booked s) (backed : Backed s (b.manager world)) : Sound b ⟨s, world⟩ :=
  ⟨booked, backed⟩

theorem recordParts_ok (spares : Spares b x) (parts : List Part) {s after : State W}
    (done : recordParts x parts s = .ok after) :
    after.store = { s.store with delivered := after.store.delivered } ∧
      b.manager s.world ≤ b.manager after.world := by
  induction parts generalizing s with
  | nil =>
    cases done
    exact ⟨rfl, le_rfl⟩
  | cons part rest ih =>
    simp only [recordParts, bind_ok] at done
    obtain ⟨world, recorded, done⟩ := done
    obtain ⟨store, grown⟩ := ih done
    exact ⟨store, (spares.recordDelivery _ _ _ _ recorded).trans grown⟩

theorem move_sound {now : Nat} {s after : State W} (spares : Spares b x) (sound : Sound b s)
    (move : Move c b x now s after) : Sound b after := by
  obtain ⟨booked, backed⟩ := sound
  cases move with
  | wires wired => exact ⟨booked.same wired.same, backed.same wired.same⟩
  | seals answer received registered =>
    have kept := spares.registerAllocation _ _ _ _ _ registered
    exact ⟨booked.sealed _ _, (backed.sealed booked _ _).more (received ▸ kept)⟩
  | reserves routed minimum some taken costs reserved =>
    have gains := taken.gains booked
    have kept := spares.reserveFor _ _ _ _ _ reserved
    exact ⟨booked.gains (gains _), (backed.gains booked (gains _)).more kept⟩
  | @starts id _ status sent =>
    have live : (s.store.rounds id).status.live = true := by
      rw [status]
      rfl
    have paid := spares.startFunding _ _ _ _ _ _ _ sent
    have worth : reservedBudget s.store id = (s.store.rounds id).budget18 := by
      rw [reservedBudget, if_pos status]
    have same : SameBooks (s.store.setStatus id .funding) (s.store.started id) :=
      ⟨rfl, rfl, rfl, rfl, rfl, rfl, rfl⟩
    apply Sound.of
    · exact (booked.retouched id _ live (by rfl) (by rfl)).same same
    · exact (backed.retouched id _ (by simp) (by omega)).same same
  | @pokes id status funded =>
    have live : (s.store.rounds id).status.live = true := by
      rcases status with status | ⟨status, _⟩ <;> rw [status] <;> rfl
    apply Sound.of
    · exact booked.retouched id _ live (by rfl) (by rfl)
    · exact backed.retouched id _ (by simp) (Nat.le_add_right _ _)
  | @submits id _ status sent =>
    have live : (s.store.rounds id).status.live = true := by
      rw [status]
      rfl
    have kept := spares.submit _ _ _ _ sent
    apply Sound.of
    · exact booked.retouched id _ live (by rfl) (by rfl)
    · exact backed.retouched id _ (by simp) (by omega)
  | @cancels id _ _ status covered released told =>
    have live : (s.store.rounds id).status.live = true := by
      rw [status]
      rfl
    have worth : reservedBudget s.store id = (s.store.rounds id).budget18 := by
      rw [reservedBudget, if_pos status]
    have kept := spares.releaseUnsent _ _ _ released
    have grown := spares.onRoundFinalized _ _ _ _ told
    apply Sound.of
    · exact booked.closed id _ true live (by rfl) (by simp) (by rfl)
    · exact backed.closed booked id _ true (by simp) (by rw [if_pos rfl]; omega)
  | @requests id _ status sent =>
    have live : (s.store.rounds id).status.live = true := by
      rcases status with status | status <;> rw [status] <;> rfl
    have ne : (s.store.rounds id).status ≠ .reserved := by
      rcases status with status | status <;> rw [status] <;> decide
    have kept := spares.requestCancel _ _ _ _ sent
    apply Sound.of
    · exact booked.retouched id _ live (by exact live) (by rfl)
    · exact backed.retouched id _ ne (by omega)
  | waits status consumed => exact ⟨booked, backed.more (spares.consumeResult _ _ _ _ _ _ _ consumed.answer)⟩
  | @refunds id _ _ _ status covered answer back released told =>
    have first := spares.consumeResult _ _ _ _ _ _ _ answer.answer
    have second := spares.returnRefund _ _ _ back
    have third := spares.onRoundFinalized _ _ _ _ told
    apply Sound.of
    · exact booked.closed id _ true status.live (by rfl) (by simp) (by rfl)
    · exact backed.closed booked id _ true (by simp) (by rw [if_pos rfl]; omega)
  | @settles id raw _ _ parts paid status sent enough covered answer recorded released told =>
    have first := spares.consumeResult _ _ _ _ _ _ _ answer.answer
    obtain ⟨store, second⟩ := recordParts_ok spares parts recorded
    have third := spares.onRoundFinalized _ _ _ _ told
    simp only at store second third
    have same : SameBooks ((s.store.setRound id { s.store.rounds id with
        delivered := raw, status := .settled }).closed false (s.store.slices id)) paid.store := by
      rw [store]
      exact ⟨rfl, rfl, rfl, rfl, rfl, rfl, rfl⟩
    apply Sound.of
    · exact (booked.closed id _ false status.live (by rfl) (by simp) (by rfl)).same same
    · refine (backed.closed booked id _ false (by simp) ?_).same same
      simp only [Bool.false_eq_true, if_false]
      omega
  | orphans status first answer sent =>
    have kept := spares.consumeResult _ _ _ _ _ _ _ answer.answer
    have grown := spares.sendOrphan _ _ _ _ _ sent
    apply Sound.of
    · exact booked.same ⟨rfl, rfl, rfl, rfl, rfl, rfl, rfl⟩
    · exact (backed.same ⟨rfl, rfl, rfl, rfl, rfl, rfl, rfl⟩).more (kept.trans grown)

theorem Booked.empty : Booked Store.empty := by
  constructor
  · intro id _
    exact ⟨rfl, rfl⟩
  · intro e _
    exact ⟨rfl, rfl, rfl⟩
  · intro id slice member
    cases member
  · intro id
    exact .nil
  · intro id slice member
    cases member
  · intro id
    rfl
  · intro id live
    cases live
  · intro e id other inside
    cases inside.1
  · intro e nonzero
    exact absurd rfl nonzero
  · intro e
    exact ⟨0, Totals.zero.of_eq (fun _ => rfl) rfl, rfl⟩

theorem Sound.start (b : Balances W) (world : W) : Sound b ⟨Store.empty, world⟩ :=
  .of .empty ⟨0, 0, Totals.zero.of_eq (fun _ => rfl) rfl, Totals.zero.of_eq (fun _ => rfl) rfl,
    Nat.zero_le _⟩

theorem turn_sound {s after : State W} (sound : Sound b s) (turn : Turn c b s after) : Sound b after := by
  cases turn with
  | call x env action spares taken => exact move_sound spares sound (step_moves taken)
  | world world spares => exact .of sound.booked (sound.backed.more spares)

/-- The states the manager can be in: any turns after a deployment into any world. -/
def Run (c : Config) (b : Balances W) (s : State W) : Prop :=
  ∃ world, Reachable (fun s (_ : Unit) after => Turn c b s after) ⟨Store.empty, world⟩ s

theorem run_sound {s : State W} (run : Run c b s) : Sound b s := by
  obtain ⟨world, reached⟩ := run
  exact reached.invariant (Sound.start b world) (fun _ _ _ sound turn => turn_sound sound turn)

/-- Entry conservation: an entry's budget is available, pending or settled; `pending` is exactly
the slice of the one live round that holds the entry; and the native balance backs what is
available and what is reserved but not sent. -/
theorem entries_conserved {c : Config} {b : Balances W} {s : State W} (run : Run c b s) :
    (∀ e, ∃ settled, Totals (settledShare s.store e) settled ∧
      s.store.available e + s.store.pending e + settled = (s.store.entries e).budget18) ∧
    (∀ e, s.store.pending e ≠ 0 ↔ ∃ id, InRound s.store e id) ∧
    (∀ e id other, InRound s.store e id → InRound s.store e other → id = other) ∧
    (∀ e id, InRound s.store e id → ∀ slice ∈ s.store.slices id, slice.entryId = e →
      s.store.pending e = slice.budget18) ∧
    ∃ idle reserved, Totals s.store.available idle ∧ Totals (reservedBudget s.store) reserved ∧
      idle + reserved ≤ b.manager s.world := by
  obtain ⟨booked, backed⟩ := run_sound run
  refine ⟨booked.conserved, ?_, booked.single, ?_, backed⟩
  · intro e
    constructor
    · exact booked.held e
    · rintro ⟨id, live, slice, member, rfl⟩
      rw [booked.exact id live slice member]
      exact Nat.ne_of_gt (booked.positive id slice member)
  · rintro e id inside slice member rfl
    exact booked.exact id inside.1 slice member

/-! A run that can be evaluated. -/

/-- What the other contracts hold: the manager's and the vault's money, the vault's stock. -/
structure Purses where
  manager : Nat
  vault : Nat
  stock : Nat

def purses : Balances Purses := ⟨Purses.manager, Purses.vault, fun w _ => w.stock⟩

/-- Peers that seal 300, take a round's money and deliver 7 of the stock for it. -/
def plainPeers : Peers Purses where
  hasCode := fun _ => true
  resolve := fun _ _ _ => pure ⟨7, 8, 9, 10, 0, 0, true, 0⟩
  rewardPolicy := fun _ _ _ _ => pure ⟨1, 1, 0, 0⟩
  sealReward := fun w _ _ _ =>
    pure ({ w with manager := w.manager + 300 * 10 ^ 18 }, 300 * 10 ^ 18, 5, 0)
  registerAllocation := fun w _ _ _ => pure w
  lRun := fun _ => pure (10 ^ 24)
  reserveFor := fun w _ _ _ => pure w
  releaseUnsent := fun w _ => pure w
  releaseFinalized := fun _ _ => pure ()
  onRoundFinalized := fun _ w _ => pure w
  startFunding := fun w _ _ budget _ _ => pure { w with manager := w.manager - budget }
  funded := fun _ _ _ => pure true
  submit := fun w _ _ => pure w
  requestCancel := fun w _ _ => pure w
  consumeResult := fun w _ _ => pure ({ w with stock := w.stock + 7 }, 1, 7, 0)
  returnRefund := fun w amount => pure { w with manager := w.manager + amount }
  sendOrphan := fun w _ _ _ => pure w
  recordDelivery := fun w _ _ => pure w

theorem plainPeers_spare : Spares purses plainPeers := by
  constructor
  case startFunding =>
    intro w _ _ budget _ _ after done
    cases done
    simp only [purses]
    omega
  case returnRefund =>
    intro w amount after done
    cases done
    exact le_rfl
  all_goals
    intros
    rename_i done
    cases done
    exact le_rfl

/-- Calls to one set of peers are a run. -/
theorem Run.of_calls (spares : Spares b x) (world : W) (calls : List (Env × Action)) (test : State W → Bool)
    (passes : (run (fun s call => step c b x s call.1 call.2) (fun _ _ => True)
      ⟨Store.empty, world⟩ calls).any test = true) : ∃ s, Run c b s ∧ test s = true := by
  obtain ⟨s, reached, passed⟩ := run_passes _ _ calls _ test passes
  refine ⟨s, ⟨world, reached.map (fun _ => ()) ?_⟩, passed⟩
  intro before call after taken
  exact .call x call.1 call.2 spares taken.2

def sample : Config where
  governor := 1
  treasury := 2
  digest := fun items => Encodable.encode (items.map fun slice => (slice.entryId, slice.budget18))
  injective := by
    intro left right same
    apply List.map_injective_iff.mpr _ (Encodable.encode_injective same)
    intro a b eq
    cases a
    cases b
    cases eq
    rfl

/-- One entry, a settled round with 100 of it, and a reserved one with 120. -/
def twoRounds : List (Env × Action) :=
  [(⟨1, 10⟩, .configureExecution 3 4), (⟨1, 10⟩, .registerSource 5 6),
    (⟨9, 10⟩, .sealEntry 5 0 0 ⟨1, 1, 0, 0⟩),
    (⟨3, 10⟩, .reserveBatch [1] [100 * 10 ^ 18] 5 50), (⟨9, 10⟩, .start 1), (⟨9, 11⟩, .poke 1),
    (⟨9, 12⟩, .submit 1), (⟨9, 13⟩, .finalize 1),
    (⟨3, 14⟩, .reserveBatch [1] [120 * 10 ^ 18] 5 50)]

theorem entries_conserved_two : ∃ s, Run sample purses s ∧ s.store.pending 1 = 120 * 10 ^ 18 ∧
    ∃ id, InRound s.store 1 id := by
  obtain ⟨s, reached, passed⟩ := Run.of_calls (c := sample) plainPeers_spare ⟨0, 0, 0⟩ twoRounds
    (fun s => decide (s.store.pending 1 = 120 * 10 ^ 18)) (by decide)
  have held := of_decide_eq_true passed
  refine ⟨s, reached, held, ((entries_conserved reached).2.1 1).mp ?_⟩
  rw [held]
  decide

end Solonpad.Rounds
