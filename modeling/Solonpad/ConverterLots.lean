import Mathlib.Data.Nat.Pairing
import Solonpad.StockConverter

/-!
What the converter's lots and orders keep. A live order holds its lots in one state that goes with its
own, so a lot is in one live order at most; every call rewrites one order with its lots, or lots that no
live order holds, and what a sale brought is split among the lots without loss.
-/

namespace Solonpad.StockConverter

open Checked RunningTotal Transition
open Chain (Address)

/-- The state a live order holds its lots in. -/
def OrderState.holds : OrderState → Option LotState
  | .none | .failed => .none
  | .submitted => some .ordered
  | .sold => some .sold
  | .routed => some .routed
  | .waiting => some .waiting

def OrderState.live (state : OrderState) : Prop := state.holds.isSome = true

/-- One for a final order that waits for a subsidy. -/
def State.shortfall (s : State) (id : OrderId) : Nat :=
  if (s.orders id).state = .waiting ∧ s.finalResult id = true then 1 else 0

/-- What a lot was sold for and has not been routed. -/
def Lot.unrouted (l : Lot) : Nat :=
  if l.state = .sold then l.proceeds else 0

structure Conserved (s : State) : Prop where
  single : ∀ a b lot, (s.orders a).state.live → (s.orders b).state.live → lot ∈ s.slices a →
    lot ∈ s.slices b → a = b
  distinct : ∀ id, (s.slices id).Nodup
  whole : ∀ id, (s.orders id).state.live →
    ((s.slices id).map fun lot => (s.lots lot).raw).sum = (s.orders id).raw
  raw : Totals (fun lot => (s.lots lot).raw) s.reservedRaw
  proceeds : ∀ id, (s.orders id).state = .sold ∨ (s.orders id).state = .routed →
    ((s.slices id).map fun lot => (s.lots lot).proceeds).sum = s.paidFor id + s.subsidies id
  once : s.paidLots.Nodup
  shortfalls : Totals s.shortfall s.outstandingShortfalls
  paused : 0 < s.outstandingShortfalls → s.routePaused = true
  backed : ∃ fees unrouted, Totals s.feeBalance fees ∧ Totals (fun lot => (s.lots lot).unrouted) unrouted ∧
    fees + unrouted ≤ s.balance

/-! Largest remainders. -/

theorem winnerFrom_lt (rems : List Nat) (best value i : Nat) (before : best < i) :
    winnerFrom best value i rems < i + rems.length := by
  induction rems generalizing best value i with
  | nil => simpa [winnerFrom] using before
  | cons rem rest ih =>
    rw [winnerFrom, List.length_cons]
    split
    · have := ih i rem (i + 1) (Nat.lt_succ_self i)
      omega
    · have := ih best value (i + 1) (Nat.lt_succ_of_lt before)
      omega

theorem winner_lt {rems : List Nat} (some_ : rems ≠ []) : winner rems < rems.length := by
  cases rems with
  | nil => exact absurd rfl some_
  | cons rem rest =>
    have := winnerFrom_lt rest 0 rem 1 Nat.one_pos
    rw [winner, List.length_cons]
    omega

theorem sum_modify_succ (amounts : List Nat) (i : Nat) (inside : i < amounts.length) :
    (amounts.modify i (· + 1)).sum = amounts.sum + 1 := by
  induction amounts generalizing i with
  | nil => cases inside
  | cons amount rest ih =>
    cases i with
    | zero =>
      simp
      omega
    | succ i =>
      have := ih i (Nat.lt_of_succ_lt_succ inside)
      simp only [List.modify_succ_cons, List.sum_cons]
      omega

/-- Every round awards one unit to a lot of the order. -/
theorem award_sum (left : Nat) (proceeds rems : List Nat) (same : rems.length = proceeds.length)
    (some_ : proceeds ≠ []) : (award left proceeds rems).sum = proceeds.sum + left ∧
      (award left proceeds rems).length = proceeds.length := by
  induction left generalizing proceeds rems with
  | zero => exact ⟨rfl, rfl⟩
  | succ left ih =>
    have inside : winner rems < proceeds.length := by
      rw [← same]
      refine winner_lt ?_
      rintro rfl
      exact some_ (List.eq_nil_of_length_eq_zero same.symm)
    obtain ⟨sum, length⟩ := ih (proceeds.modify (winner rems) (· + 1)) (rems.set (winner rems) 0)
      (by simpa using same) (by simpa using some_)
    rw [sum_modify_succ proceeds _ inside] at sum
    rw [List.length_modify] at length
    exact ⟨by rw [award, sum]; omega, by rw [award, length]⟩

/-- Values handed out by position are the values of a list without repetitions. -/
theorem map_by_position {α : Type} [DecidableEq α] (ids : List α) (values : List Nat) (distinct : ids.Nodup)
    (same : values.length = ids.length) : (ids.map fun id => values.getD (ids.idxOf id) 0) = values := by
  refine List.ext_getElem (by simp [same]) fun i inside bound => ?_
  have inside : i < ids.length := by simpa using inside
  simp only [List.getElem_map]
  rw [distinct.idxOf_getElem i inside, List.getD_eq_getElem?_getD, List.getElem?_eq_getElem bound,
    Option.getD_some]

theorem shares_sum {s : State} {ids : List LotId} {paid total : Nat} {parts : List Nat}
    (split : shares s ids paid total = .ok parts) (some_ : ids ≠ []) :
    parts.sum = paid ∧ parts.length = ids.length := by
  simp only [shares, bind_ok, sub_ok, pure_ok] at split
  obtain ⟨left, ⟨covered, rfl⟩, rfl⟩ := split
  obtain ⟨sum, length⟩ := award_sum (paid - (ids.map fun id => paid * (s.lots id).raw / total).sum)
    (ids.map fun id => paid * (s.lots id).raw / total) (ids.map fun id => paid * (s.lots id).raw % total)
    (by simp) (by simpa using some_)
  exact ⟨by rw [sum]; omega, by rw [length, List.length_map]⟩

theorem allocate_ok {s after : State} {id : OrderId} {paid : Nat} (taken : allocate s id paid = .ok after)
    (distinct : (s.slices id).Nodup) (whole : ((s.slices id).map fun lot => (s.lots lot).raw).sum = (s.orders id).raw) :
    ∃ worth : LotId → Nat, ((s.slices id).map worth).sum = paid ∧
      after = s.setLots (s.slices id) fun lot l => { l with proceeds := worth lot, state := .sold } := by
  simp only [allocate, bind_ok, require_ok, pure_ok] at taken
  obtain ⟨_, positive, parts, split, rfl⟩ := taken
  have some_ : s.slices id ≠ [] := by
    intro none
    rw [none] at whole
    exact positive whole.symm
  obtain ⟨sum, length⟩ := shares_sum split some_
  exact ⟨fun lot => parts.getD ((s.slices id).idxOf lot) 0,
    by rw [map_by_position _ _ distinct length, sum], rfl⟩

/-! One order rewritten with its lots. -/

structure OrderSound (s : State) (id : OrderId) : Prop where
  distinct : (s.slices id).Nodup
  fresh : (s.orders id).state = .none → s.slices id = [] ∧ s.finalResult id = false
  tied : ∀ state, (s.orders id).state.holds = some state → ∀ lot ∈ s.slices id, (s.lots lot).state = state
  whole : (s.orders id).state.live →
    ((s.slices id).map fun lot => (s.lots lot).raw).sum = (s.orders id).raw
  ended : (s.orders id).state = .sold ∨ (s.orders id).state = .routed →
    ((s.slices id).map fun lot => (s.lots lot).proceeds).sum = (s.orders id).actualUSDC18
  submitted : (s.orders id).state = .submitted → s.finalResult id = false
  running : s.finalResult id = false → s.paidFor id = 0 ∧ s.subsidies id = 0
  booked : (s.orders id).actualUSDC18 = s.paidFor id + s.subsidies id

/-- What the balance has to cover for a shortfall before its lots are sold. -/
def State.short (s : State) (id : OrderId) : Nat :=
  s.shortfall id * (s.orders id).actualUSDC18

structure Sound (s : State) : Prop where
  orders : ∀ id, OrderSound s id
  single : ∀ a b lot, (s.orders a).state.live → (s.orders b).state.live → lot ∈ s.slices a →
    lot ∈ s.slices b → a = b
  raw : Totals (fun lot => (s.lots lot).raw) s.reservedRaw
  blank : ∀ lot, (s.lots lot).state = .none → (s.lots lot).raw = 0
  shortfalls : Totals s.shortfall s.outstandingShortfalls
  paused : 0 < s.outstandingShortfalls → s.routePaused = true
  once : s.paidLots.Nodup
  paid : ∀ lot ∈ s.paidLots, (s.lots lot).state = .routed
  backed : ∃ fees unrouted short, Totals s.feeBalance fees ∧
    Totals (fun lot => (s.lots lot).unrouted) unrouted ∧ Totals s.short short ∧
    fees + unrouted + short ≤ s.balance

theorem Sound.conserved {s : State} (sound : Sound s) : Conserved s where
  single := sound.single
  distinct id := (sound.orders id).distinct
  whole id := (sound.orders id).whole
  raw := sound.raw
  proceeds id ended := by rw [(sound.orders id).ended ended, (sound.orders id).booked]
  once := sound.once
  shortfalls := sound.shortfalls
  paused := sound.paused
  backed := by
    obtain ⟨fees, unrouted, short, first, second, _, covered⟩ := sound.backed
    exact ⟨fees, unrouted, first, second, by omega⟩

theorem deployed_sound (balance : Nat) : Sound (deployed balance) where
  orders id := by
    constructor
    · exact .nil
    · exact fun _ => ⟨rfl, rfl⟩
    · intro state holds
      cases holds
    · intro live
      cases live
    · rintro (sold | routed)
      · cases sold
      · cases routed
    · exact fun _ => rfl
    · exact fun _ => ⟨rfl, rfl⟩
    · rfl
  single _ _ _ live := by cases live
  raw := Totals.zero
  blank _ _ := rfl
  shortfalls := Totals.zero
  paused positive := by cases positive
  once := .nil
  paid _ member := by cases member
  backed := by
    have short : Totals (deployed balance).short 0 :=
      Totals.zero.of_eq (fun id => by simp [State.short, deployed, Order.blank]) rfl
    exact ⟨0, 0, 0, Totals.zero, Totals.zero, short, Nat.zero_le _⟩

structure Rewrites (s after : State) (id : OrderId) (o : Order) (ids : List LotId)
    (rewrite : LotId → Lot → Lot) : Prop where
  orders : after.orders = Function.update s.orders id o
  lots : ∀ lot, after.lots lot = if lot ∈ ids then rewrite lot (s.lots lot) else s.lots lot
  slices : after.slices = Function.update s.slices id ids
  finals : ∀ other, other ≠ id → after.finalResult other = s.finalResult other
  paids : ∀ other, other ≠ id → after.paidFor other = s.paidFor other
  subsidies : ∀ other, other ≠ id → after.subsidies other = s.subsidies other
  fees : ∀ other, other ≠ id → after.feeBalance other = s.feeBalance other
  reserved : after.reservedRaw = s.reservedRaw
  raw : ∀ lot l, (rewrite lot l).raw = l.raw
  named : ∀ lot l, (rewrite lot l).state ≠ .none

/-- What the balance has to cover for one order. -/
def State.due (s : State) (id : OrderId) (ids : List LotId) : Nat :=
  s.feeBalance id + (ids.map fun lot => (s.lots lot).unrouted).sum + s.short id

variable {s after : State} {id : OrderId} {o : Order} {ids : List LotId} {rewrite : LotId → Lot → Lot}

/-- The lots of every other live order are not among those rewritten. -/
def Apart (s : State) (id : OrderId) (ids : List LotId) : Prop :=
  ∀ other, other ≠ id → (s.orders other).state.live → ∀ lot ∈ s.slices other, lot ∉ ids

theorem Sound.apart (sound : Sound s) (live : (s.orders id).state.live) : Apart s id (s.slices id) :=
  fun other different going lot member own => different (sound.single other id lot going live member own)

theorem Rewrites.other (w : Rewrites s after id o ids rewrite) {other : OrderId} (different : other ≠ id)
    (apart : Apart s id ids) (sound : OrderSound s other) : OrderSound after other := by
  have order : after.orders other = s.orders other := by rw [w.orders, Function.update_of_ne different]
  have slices : after.slices other = s.slices other := by rw [w.slices, Function.update_of_ne different]
  have lots : (s.orders other).state.live → ∀ lot ∈ s.slices other, after.lots lot = s.lots lot := by
    intro live lot member
    rw [w.lots, if_neg (apart other different live lot member)]
  constructor
  · rw [slices]
    exact sound.distinct
  · rw [order, slices, w.finals other different]
    exact sound.fresh
  · rw [order, slices]
    intro state holds lot member
    have live : (s.orders other).state.live := by rw [OrderState.live, holds, Option.isSome_some]
    rw [lots live lot member]
    exact sound.tied state holds lot member
  · rw [order, slices]
    intro live
    rw [List.map_congr_left fun lot member => by rw [lots live lot member]]
    exact sound.whole live
  · rw [order, slices]
    intro ended
    have live : (s.orders other).state.live := by
      rcases ended with state | state <;> rw [state] <;> rfl
    rw [List.map_congr_left fun lot member => by rw [lots live lot member]]
    exact sound.ended ended
  · rw [order, w.finals other different]
    exact sound.submitted
  · rw [w.finals other different, w.paids other different, w.subsidies other different]
    exact sound.running
  · rw [order, w.paids other different, w.subsidies other different]
    exact sound.booked

theorem Rewrites.shortfall (w : Rewrites s after id o ids rewrite) {other : OrderId} (different : other ≠ id) :
    after.shortfall other = s.shortfall other := by
  rw [State.shortfall, State.shortfall, w.orders, Function.update_of_ne different, w.finals other different]

theorem Rewrites.short (w : Rewrites s after id o ids rewrite) {other : OrderId} (different : other ≠ id) :
    after.short other = s.short other := by
  rw [State.short, State.short, w.shortfall different, w.orders, Function.update_of_ne different]

theorem Rewrites.backed (w : Rewrites s after id o ids rewrite) (sound : Sound s) (distinct : ids.Nodup)
    (covered : s.balance + after.due id ids ≤ after.balance + s.due id ids) :
    ∃ fees unrouted short, Totals after.feeBalance fees ∧
      Totals (fun lot => (after.lots lot).unrouted) unrouted ∧ Totals after.short short ∧
      fees + unrouted + short ≤ after.balance := by
  obtain ⟨fees, unrouted, short, first, second, third, within⟩ := sound.backed
  obtain ⟨fees', first, fees_moved⟩ := first.changed id w.fees
  obtain ⟨unrouted', second, unrouted_moved⟩ := second.changed_list ids distinct fun lot outside =>
    show (after.lots lot).unrouted = (s.lots lot).unrouted by rw [w.lots, if_neg outside]
  obtain ⟨short', third, short_moved⟩ := third.changed id fun other different => w.short different
  refine ⟨fees', unrouted', short', first, second, third, ?_⟩
  unfold State.due at covered
  omega

/-- One order rewritten with its lots keeps everything that it keeps of its own. -/
theorem Sound.rewritten (sound : Sound s) (w : Rewrites s after id o ids rewrite) (apart : Apart s id ids)
    (own : OrderSound after id) (unpaid : ∀ lot ∈ ids, (s.lots lot).state ≠ .routed)
    (count : after.outstandingShortfalls + s.shortfall id = s.outstandingShortfalls + after.shortfall id)
    (paused : 0 < after.outstandingShortfalls → after.routePaused = true)
    (payments : after.paidLots = s.paidLots ∨ (∀ lot ∈ ids, (after.lots lot).state = .routed) ∧
      ∃ rule : LotId → Bool, after.paidLots = s.paidLots ++ ids.filter rule)
    (covered : s.balance + after.due id ids ≤ after.balance + s.due id ids) : Sound after := by
  have distinct : ids.Nodup := by
    have distinct := own.distinct
    rwa [w.slices, Function.update_self] at distinct
  have kept : ∀ lot ∈ s.paidLots, (after.lots lot).state = .routed := by
    intro lot member
    rw [w.lots, if_neg fun inside => unpaid lot inside (sound.paid lot member)]
    exact sound.paid lot member
  constructor
  · intro other
    by_cases same : other = id
    · exact same ▸ own
    · exact w.other same apart (sound.orders other)
  · have exclusive : ∀ other lot, other ≠ id → (after.orders other).state.live →
        lot ∈ after.slices other → lot ∉ ids ∧ (s.orders other).state.live ∧ lot ∈ s.slices other := by
      intro other lot different live member
      rw [w.orders, Function.update_of_ne different] at live
      rw [w.slices, Function.update_of_ne different] at member
      exact ⟨apart other different live lot member, live, member⟩
    have inside : ∀ lot, lot ∈ after.slices id → lot ∈ ids := by
      intro lot member
      rwa [w.slices, Function.update_self] at member
    intro a b lot live_a live_b in_a in_b
    by_cases same_a : a = id
    · by_cases same_b : b = id
      · rw [same_a, same_b]
      · subst same_a
        exact absurd (inside lot in_a) (exclusive b lot same_b live_b in_b).1
    · obtain ⟨outside, was_a, had_a⟩ := exclusive a lot same_a live_a in_a
      by_cases same_b : b = id
      · subst same_b
        exact absurd (inside lot in_b) outside
      · obtain ⟨-, was_b, had_b⟩ := exclusive b lot same_b live_b in_b
        exact sound.single a b lot was_a was_b had_a had_b
  · refine sound.raw.of_eq (fun lot => ?_) w.reserved
    rw [w.lots]
    split
    · rw [w.raw]
    · rfl
  · intro lot none
    rw [w.lots] at none ⊢
    split at none
    · exact absurd none (w.named lot _)
    · next outside =>
      rw [if_neg outside]
      exact sound.blank lot none
  · exact sound.shortfalls.moved id (fun other different => w.shortfall different) count
  · exact paused
  · rcases payments with same | ⟨_, rule, same⟩
    · exact same ▸ sound.once
    · rw [same, List.nodup_append]
      refine ⟨sound.once, distinct.filter _, ?_⟩
      rintro lot member _ new rfl
      exact unpaid lot (List.mem_filter.mp new).1 (sound.paid lot member)
  · intro lot member
    rcases payments with same | ⟨routed, rule, same⟩
    · exact kept lot (same ▸ member)
    · rw [same] at member
      rcases List.mem_append.mp member with old | new
      · exact kept lot old
      · exact routed lot (List.mem_filter.mp new).1
  · exact w.backed sound distinct covered

/-- What the rewritten order keeps of its own. -/
theorem Rewrites.own (w : Rewrites s after id o ids rewrite) (distinct : ids.Nodup) (named : o.state ≠ .none)
    (tied : ∀ state, o.state.holds = some state → ∀ lot l, (rewrite lot l).state = state)
    (whole : (ids.map fun lot => (s.lots lot).raw).sum = o.raw)
    (ended : o.state = .sold ∨ o.state = .routed →
      (ids.map fun lot => (rewrite lot (s.lots lot)).proceeds).sum = o.actualUSDC18)
    (submitted : o.state = .submitted → after.finalResult id = false)
    (running : after.finalResult id = false → after.paidFor id = 0 ∧ after.subsidies id = 0)
    (booked : o.actualUSDC18 = after.paidFor id + after.subsidies id) : OrderSound after id := by
  have order : after.orders id = o := by rw [w.orders, Function.update_self]
  have slices : after.slices id = ids := by rw [w.slices, Function.update_self]
  have lots : ∀ lot ∈ ids, after.lots lot = rewrite lot (s.lots lot) := by
    intro lot member
    rw [w.lots, if_pos member]
  constructor
  · rwa [slices]
  · rw [order]
    exact fun none => absurd none named
  · rw [order, slices]
    intro state holds lot member
    rw [lots lot member]
    exact tied state holds lot _
  · rw [order, slices]
    intro _
    rw [← whole, List.map_congr_left fun lot member => by rw [lots lot member, w.raw]]
  · rw [order, slices]
    intro state
    rw [← ended state, List.map_congr_left fun lot member => by rw [lots lot member]]
  · rwa [order]
  · exact running
  · rwa [order]

theorem unrouted_none (ids : List LotId) (lots : LotId → Lot) (unsold : ∀ lot ∈ ids, (lots lot).state ≠ .sold) :
    (ids.map fun lot => (lots lot).unrouted).sum = 0 := by
  refine List.sum_eq_zero fun worth member => ?_
  obtain ⟨lot, inside, rfl⟩ := List.mem_map.mp member
  rw [Lot.unrouted, if_neg (unsold lot inside)]

theorem unrouted_all (ids : List LotId) (lots : LotId → Lot) (sold : ∀ lot ∈ ids, (lots lot).state = .sold) :
    (ids.map fun lot => (lots lot).unrouted).sum = (ids.map fun lot => (lots lot).proceeds).sum := by
  rw [List.map_congr_left fun lot member => by rw [Lot.unrouted, if_pos (sold lot member)]]

/-- What the rewritten order is due, read from what it and its lots are rewritten to. -/
theorem Rewrites.due (w : Rewrites s after id o ids rewrite) :
    after.due id ids = after.feeBalance id + (ids.map fun lot => (rewrite lot (s.lots lot)).unrouted).sum +
      after.shortfall id * o.actualUSDC18 := by
  rw [State.due, State.short, w.orders, Function.update_self,
    List.map_congr_left fun lot member => by rw [w.lots, if_pos member]]

theorem Rewrites.shortfall_self (w : Rewrites s after id o ids rewrite) :
    after.shortfall id = if o.state = .waiting ∧ after.finalResult id = true then 1 else 0 := by
  rw [State.shortfall, w.orders, Function.update_self]

theorem OrderSound.unsold (own : OrderSound s id) (live : (s.orders id).state.live)
    (unsold : (s.orders id).state ≠ .sold) : ((s.slices id).map fun lot => (s.lots lot).unrouted).sum = 0 := by
  refine unrouted_none _ _ fun lot member sold => ?_
  obtain ⟨state, holds⟩ := Option.isSome_iff_exists.mp live
  rw [own.tied state holds lot member] at sold
  subst sold
  cases same : (s.orders id).state <;> rw [same] at holds <;> cases holds
  exact unsold same

theorem OrderSound.unpaid (own : OrderSound s id) (live : (s.orders id).state.live)
    (unrouted : (s.orders id).state ≠ .routed) : ∀ lot ∈ s.slices id, (s.lots lot).state ≠ .routed := by
  intro lot member routed
  obtain ⟨state, holds⟩ := Option.isSome_iff_exists.mp live
  rw [own.tied state holds lot member] at routed
  subst routed
  cases same : (s.orders id).state <;> rw [same] at holds <;> cases holds
  exact unrouted same

/-- A live order that has not been routed, rewritten with the lots it holds. -/
theorem Sound.turned (sound : Sound s) (live : (s.orders id).state.live) (unrouted : (s.orders id).state ≠ .routed)
    (w : Rewrites s after id o (s.slices id) rewrite) (raw : o.raw = (s.orders id).raw) (named : o.state ≠ .none)
    (tied : ∀ state, o.state.holds = some state → ∀ lot l, (rewrite lot l).state = state)
    (ended : o.state = .sold ∨ o.state = .routed →
      ((s.slices id).map fun lot => (rewrite lot (s.lots lot)).proceeds).sum = o.actualUSDC18)
    (submitted : o.state = .submitted → after.finalResult id = false)
    (running : after.finalResult id = false → after.paidFor id = 0 ∧ after.subsidies id = 0)
    (booked : o.actualUSDC18 = after.paidFor id + after.subsidies id)
    (count : after.outstandingShortfalls + s.shortfall id = s.outstandingShortfalls + after.shortfall id)
    (paused : 0 < after.outstandingShortfalls → after.routePaused = true)
    (payments : after.paidLots = s.paidLots ∨ (∀ lot ∈ s.slices id, (after.lots lot).state = .routed) ∧
      ∃ rule : LotId → Bool, after.paidLots = s.paidLots ++ (s.slices id).filter rule)
    (covered : s.balance + after.due id (s.slices id) ≤ after.balance + s.due id (s.slices id)) : Sound after := by
  have own := sound.orders id
  refine sound.rewritten w (sound.apart live) ?_ (own.unpaid live unrouted) count paused payments covered
  refine w.own own.distinct named tied ?_ ended submitted running booked
  rw [raw]
  exact own.whole live

/-- What an order that still waits for its result has due is its fees. -/
theorem Sound.waiting_due (sound : Sound s) (state : (s.orders id).state = .submitted ∨ (s.orders id).state = .waiting)
    (unfinished : s.finalResult id = false) : s.shortfall id = 0 ∧ s.due id (s.slices id) = s.feeBalance id := by
  have short : s.shortfall id = 0 := by
    rw [State.shortfall, if_neg]
    rintro ⟨-, final⟩
    rw [unfinished] at final
    cases final
  have unsold := (sound.orders id).unsold (by rcases state with same | same <;> rw [same] <;> rfl)
    (by rcases state with same | same <;> rw [same] <;> decide)
  exact ⟨short, by rw [State.due, State.short, short, unsold, Nat.zero_mul, Nat.add_zero]⟩

theorem applyResult_sound {r : Result} (taken : applyResult s id r = .ok after) (sound : Sound s) : Sound after := by
  simp only [applyResult, bind_ok, require_ok, ite_ok, pure_ok] at taken
  obtain ⟨_, ⟨state, unfinished⟩, _, ⟨received, _⟩, taken⟩ := taken
  obtain ⟨short, due⟩ := sound.waiting_due state unfinished
  have live : (s.orders id).state.live := by rcases state with same | same <;> rw [same] <;> rfl
  have unrouted : (s.orders id).state ≠ .routed := by
    rcases state with same | same <;> rw [same] <;> decide
  have own := sound.orders id
  obtain ⟨unpaid, unsubsidized⟩ := own.running unfinished
  rcases taken with ⟨_, _, ⟨paid, _⟩, same⟩ | ⟨_, ⟨_, _, ⟨paid, _⟩, same⟩ | ⟨_, _, _, taken⟩⟩
  · -- The result is not known: the order waits with its lots.
    have w : Rewrites s after id { s.orders id with state := .waiting } (s.slices id)
        fun _ l => { l with state := .waiting } := by
      subst same
      exact ⟨rfl, fun _ => rfl, (Function.update_eq_self ..).symm, fun _ _ => rfl, fun _ _ => rfl,
        fun _ _ => rfl, fun _ _ => rfl, rfl, fun _ _ => rfl, fun _ _ => nofun⟩
    have shortfall : after.shortfall id = 0 := by
      rw [w.shortfall_self, if_neg]
      rintro ⟨-, final⟩
      rw [← same] at final
      rw [show s.finalResult id = true from final] at unfinished
      cases unfinished
    refine sound.turned live unrouted w rfl nofun ?_ ?_ nofun ?_ ?_ ?_ ?_ ?_ ?_
    · intro state holds _ _
      cases holds
      rfl
    · rintro (sold | routed)
      · cases sold
      · cases routed
    · subst same
      exact own.running
    · subst same
      exact own.booked
    · rw [short, shortfall, ← same]
      rfl
    · subst same
      exact sound.paused
    · subst same
      exact .inl rfl
    · rw [w.due, due, shortfall, unrouted_none _ _ (by simp), ← same, Nat.zero_mul]
      show s.balance + (s.feeBalance id + 0 + 0) ≤ s.balance + r.received + s.feeBalance id
      omega
  · -- The sale failed: the lots are idle again, with their raw.
    have w : Rewrites s after id { s.orders id with state := .failed } (s.slices id)
        fun _ l => { l with state := .idle } := by
      subst same
      exact ⟨rfl, fun _ => rfl, (Function.update_eq_self ..).symm,
        fun _ different => Function.update_of_ne different .., fun _ _ => rfl,
        fun _ _ => rfl, fun _ _ => rfl, rfl, fun _ _ => rfl, fun _ _ => nofun⟩
    have shortfall : after.shortfall id = 0 := by
      rw [w.shortfall_self, if_neg]
      rintro ⟨failed, -⟩
      cases failed
    refine sound.turned live unrouted w rfl nofun nofun ?_ nofun ?_ ?_ ?_ ?_ ?_ ?_
    · rintro (sold | routed)
      · cases sold
      · cases routed
    · subst same
      exact fun _ => ⟨unpaid, unsubsidized⟩
    · subst same
      exact own.booked
    · rw [short, shortfall, ← same]
      rfl
    · subst same
      exact sound.paused
    · subst same
      exact .inl rfl
    · rw [w.due, due, shortfall, unrouted_none _ _ (by simp), ← same, Nat.zero_mul]
      show s.balance + (s.feeBalance id + 0 + 0) ≤ s.balance + r.received + s.feeBalance id
      omega
  · rcases taken with ⟨_, same⟩ | ⟨_, taken⟩
    · -- Less than the minimum was paid: a shortfall.
      have w : Rewrites s after id { s.orders id with state := .waiting, actualUSDC18 := r.paid } (s.slices id)
          fun _ l => { l with state := .waiting } := by
        subst same
        exact ⟨rfl, fun _ => rfl, (Function.update_eq_self ..).symm,
          fun _ different => Function.update_of_ne different ..,
          fun _ different => Function.update_of_ne different .., fun _ _ => rfl, fun _ _ => rfl, rfl,
          fun _ _ => rfl, fun _ _ => nofun⟩
      have final : after.finalResult id = true := by
        subst same
        exact Function.update_self ..
      have shortfall : after.shortfall id = 1 := by rw [w.shortfall_self, if_pos ⟨rfl, final⟩]
      refine sound.turned live unrouted w rfl nofun ?_ ?_ nofun ?_ ?_ ?_ ?_ ?_ ?_
      · intro state holds _ _
        cases holds
        rfl
      · rintro (sold | routed)
        · cases sold
        · cases routed
      · rw [final]
        exact nofun
      · subst same
        show r.paid = Function.update s.paidFor id r.paid id + s.subsidies id
        rw [Function.update_self, unsubsidized, Nat.add_zero]
      · rw [short, shortfall, ← same]
        rfl
      · subst same
        exact fun _ => rfl
      · subst same
        exact .inl rfl
      · rw [w.due, due, shortfall, unrouted_none _ _ (by simp), ← same, Nat.one_mul]
        show s.balance + (s.feeBalance id + 0 + r.paid) ≤ s.balance + r.received + s.feeBalance id
        omega
    · -- The order is sold, and its lots share what was paid.
      obtain ⟨worth, sum, same⟩ := allocate_ok taken own.distinct (by
        show _ = (Function.update s.orders id _ id).raw
        rw [Function.update_self]
        exact own.whole live)
      have w : Rewrites s after id { s.orders id with state := .sold, actualUSDC18 := r.paid } (s.slices id)
          fun lot l => { l with proceeds := worth lot, state := .sold } := by
        subst same
        exact ⟨rfl, fun _ => rfl, (Function.update_eq_self ..).symm,
          fun _ different => Function.update_of_ne different ..,
          fun _ different => Function.update_of_ne different .., fun _ _ => rfl, fun _ _ => rfl, rfl,
          fun _ _ => rfl, fun _ _ => nofun⟩
      have shortfall : after.shortfall id = 0 := by
        rw [w.shortfall_self, if_neg]
        rintro ⟨waiting, -⟩
        cases waiting
      refine sound.turned live unrouted w rfl nofun ?_ (fun _ => sum) nofun ?_ ?_ ?_ ?_ ?_ ?_
      · intro state holds _ _
        cases holds
        rfl
      · subst same
        show Function.update s.finalResult id true id = false → _
        rw [Function.update_self]
        exact nofun
      · subst same
        show r.paid = Function.update s.paidFor id r.paid id + s.subsidies id
        rw [Function.update_self, unsubsidized, Nat.add_zero]
      · rw [short, shortfall, same]
        rfl
      · subst same
        exact sound.paused
      · subst same
        exact .inl rfl
      · rw [w.due, due, shortfall, unrouted_all _ _ (by simp), same, Nat.zero_mul]
        show s.balance + (s.feeBalance id + ((s.slices id).map worth).sum + 0) ≤
          s.balance + r.received + s.feeBalance id
        rw [show ((s.slices id).map worth).sum = r.paid from sum]
        omega

theorem route_sound {accepted : Bool} (taken : route s id accepted = .ok after) (sound : Sound s) : Sound after := by
  simp only [route, bind_ok, require_ok, sub_ok, pure_ok] at taken
  obtain ⟨_, state, _, _, balance, ⟨enough, rfl⟩, same⟩ := taken
  have live : (s.orders id).state.live := by rw [state]; rfl
  have own := sound.orders id
  have w : Rewrites s after id { s.orders id with state := .routed } (s.slices id)
      fun _ l => { l with state := .routed } := by
    subst same
    exact ⟨rfl, fun _ => rfl, (Function.update_eq_self ..).symm, fun _ _ => rfl, fun _ _ => rfl,
      fun _ _ => rfl, fun _ _ => rfl, rfl, fun _ _ => rfl, fun _ _ => nofun⟩
  have shortfall : after.shortfall id = 0 := by
    rw [w.shortfall_self, if_neg]
    rintro ⟨waiting, -⟩
    cases waiting
  have short : s.shortfall id = 0 := by
    rw [State.shortfall, if_neg]
    rintro ⟨waiting, -⟩
    rw [state] at waiting
    cases waiting
  refine sound.turned live (by rw [state]; decide) w rfl nofun ?_ (fun _ => own.ended (.inl state)) nofun
    ?_ ?_ ?_ ?_ ?_ ?_
  · intro state holds _ _
    cases holds
    rfl
  · subst same
    exact own.running
  · subst same
    exact own.booked
  · rw [short, shortfall, ← same]
    rfl
  · subst same
    exact sound.paused
  · refine .inr ⟨fun lot member => ?_, fun lot => (s.lots lot).proceeds ≠ 0, by subst same; rfl⟩
    rw [w.lots, if_pos member]
  · have sold := unrouted_all (s.slices id) s.lots (own.tied .sold (by rw [state]; rfl))
    rw [w.due, State.due, State.short, short, shortfall, unrouted_none _ _ (by simp), sold, ← same,
      Nat.zero_mul]
    show s.balance + (s.feeBalance id + 0 + 0) ≤ s.balance - _ + _
    omega

theorem subsidizeShortfall_sound {c : Config} {sender : Address} {value : Nat}
    (taken : subsidizeShortfall c s sender id value = .ok after) (sound : Sound s) : Sound after := by
  simp only [subsidizeShortfall, bind_ok, require_ok, ite_ok, sub_ok, pure_ok] at taken
  obtain ⟨_, ⟨_, _, final, state, _⟩, taken⟩ := taken
  have live : (s.orders id).state.live := by rw [state]; rfl
  have own := sound.orders id
  have short : s.shortfall id = 1 := by rw [State.shortfall, if_pos ⟨state, final⟩]
  have unsold := own.unsold live (by rw [state]; decide)
  have due : s.due id (s.slices id) = s.feeBalance id + (s.orders id).actualUSDC18 := by
    rw [State.due, State.short, short, unsold, Nat.one_mul, Nat.add_zero]
  have booked := own.booked
  rcases taken with ⟨_, outstanding, ⟨counted, rfl⟩, taken⟩ | ⟨_, same⟩
  · obtain ⟨worth, sum, same⟩ := allocate_ok taken own.distinct (by
      show _ = (Function.update s.orders id _ id).raw
      rw [Function.update_self]
      exact own.whole live)
    have w : Rewrites s after id
        { s.orders id with state := .sold, actualUSDC18 := (s.orders id).actualUSDC18 + value } (s.slices id)
        fun lot l => { l with proceeds := worth lot, state := .sold } := by
      subst same
      exact ⟨rfl, fun _ => rfl, (Function.update_eq_self ..).symm, fun _ _ => rfl, fun _ _ => rfl,
        fun _ different => Function.update_of_ne different .., fun _ _ => rfl, rfl, fun _ _ => rfl,
        fun _ _ => nofun⟩
    have shortfall : after.shortfall id = 0 := by
      rw [w.shortfall_self, if_neg]
      rintro ⟨waiting, -⟩
      cases waiting
    refine sound.turned live (by rw [state]; decide) w rfl nofun ?_ (fun _ => sum) nofun ?_ ?_ ?_ ?_ ?_ ?_
    · intro state holds _ _
      cases holds
      rfl
    · subst same
      show s.finalResult id = false → _
      rw [final]
      exact nofun
    · subst same
      show (s.orders id).actualUSDC18 + value =
        s.paidFor id + Function.update s.subsidies id (s.subsidies id + value) id
      rw [Function.update_self, booked, Nat.add_assoc]
    · rw [short, shortfall, same]
      show s.outstandingShortfalls - 1 + 1 = s.outstandingShortfalls + 0
      omega
    · subst same
      exact fun positive => sound.paused (Nat.lt_of_lt_of_le positive (Nat.sub_le ..))
    · subst same
      exact .inl rfl
    · rw [w.due, due, shortfall, unrouted_all _ _ (by simp), same, Nat.zero_mul]
      show s.balance + (s.feeBalance id + ((s.slices id).map worth).sum + 0) ≤ s.balance + value + _
      rw [show ((s.slices id).map worth).sum = _ from sum]
      omega
  · -- The subsidy does not reach the minimum: the lots wait on as they are.
    have w : Rewrites s after id
        { s.orders id with state := .waiting, actualUSDC18 := (s.orders id).actualUSDC18 + value } (s.slices id)
        fun _ l => { l with state := .waiting } := by
      subst same
      refine ⟨?_, fun lot => ?_, (Function.update_eq_self ..).symm, fun _ _ => rfl, fun _ _ => rfl,
        fun _ different => Function.update_of_ne different .., fun _ _ => rfl, rfl,
        fun _ _ => rfl, fun _ _ => nofun⟩
      · rw [← state]
        rfl
      · show s.lots lot = _
        split
        · next member => rw [← own.tied .waiting (by rw [state]; rfl) lot member]
        · rfl
    have final : after.finalResult id = true := by
      subst same
      exact final
    have shortfall : after.shortfall id = 1 := by rw [w.shortfall_self, if_pos ⟨rfl, final⟩]
    refine sound.turned live (by rw [state]; decide) w rfl nofun ?_ ?_ nofun ?_ ?_ ?_ ?_ ?_ ?_
    · intro state holds _ _
      cases holds
      rfl
    · rintro (sold | routed)
      · cases sold
      · cases routed
    · rw [final]
      exact nofun
    · subst same
      show (s.orders id).actualUSDC18 + value =
        s.paidFor id + Function.update s.subsidies id (s.subsidies id + value) id
      rw [Function.update_self, booked, Nat.add_assoc]
    · rw [short, shortfall, ← same]
      rfl
    · subst same
      exact sound.paused
    · subst same
      exact .inl rfl
    · rw [w.due, due, shortfall, unrouted_none _ _ (by simp), ← same, Nat.one_mul]
      show s.balance + (s.feeBalance id + 0 + ((s.orders id).actualUSDC18 + value)) ≤ s.balance + value + _
      omega

/-! Orders submitted, and lots that no order holds. -/

theorem rising_nodup {c : Config} {ids : List LotId} (rising : Rising c ids) : ids.Nodup := by
  have sorted : (ids.map c.word).Pairwise (· < ·) := by
    rw [← List.isChain_iff_pairwise, List.isChain_map]
    induction ids with
    | nil => exact .nil
    | cons first rest ih =>
      cases rest with
      | nil => exact .singleton _
      | cons second rest => exact .cons_cons rising.1 (ih rising.2)
  exact (sorted.imp Nat.ne_of_lt).of_map _ fun _ _ different same => different (by rw [same])

theorem submit_sound {c : Config} {q : Quote} {m : Market} (taken : submit c s q m = .ok after)
    (sound : Sound s) : Sound after := by
  simp only [submit, bind_ok, require_ok, sub_ok, pure_ok] at taken
  obtain ⟨_, ⟨_, _, fresh, _, _⟩, _, _, _, _, _, ⟨_, paid, _⟩, _, _, _, _, _, ⟨rising, idle⟩, _, whole,
    fees, ⟨_, rfl⟩, balance, ⟨enough, rfl⟩, _, _, same⟩ := taken
  have own := sound.orders q.orderId
  obtain ⟨empty, unfinished⟩ := own.fresh fresh
  obtain ⟨unpaid, unsubsidized⟩ := own.running unfinished
  have w : Rewrites s after q.orderId ⟨q.asset, .submitted, q.raw, q.minUSDC18, 0⟩ q.slices
      fun _ l => { l with state := .ordered } := by
    subst same
    refine ⟨rfl, fun _ => rfl, ?_, fun _ _ => rfl, fun _ _ => rfl, fun _ _ => rfl,
      fun _ different => Function.update_of_ne different .., rfl, fun _ _ => rfl, fun _ _ => nofun⟩
    show Function.update s.slices q.orderId (s.slices q.orderId ++ q.slices) = _
    rw [empty, List.nil_append]
  have final : after.finalResult q.orderId = false := by
    subst same
    exact unfinished
  have shortfall : after.shortfall q.orderId = 0 := by
    rw [w.shortfall_self, if_neg]
    rintro ⟨waiting, -⟩
    cases waiting
  have short : s.shortfall q.orderId = 0 := by
    rw [State.shortfall, if_neg]
    rintro ⟨waiting, -⟩
    cases fresh.symm.trans waiting
  -- An idle lot is in no live order.
  have apart : Apart s q.orderId q.slices := by
    intro other _ live lot member inside
    obtain ⟨state, holds⟩ := Option.isSome_iff_exists.mp live
    have tied := (sound.orders other).tied state holds lot member
    rw [(idle lot inside).1] at tied
    subst tied
    cases same : (s.orders other).state <;> rw [same] at holds <;> cases holds
  refine sound.rewritten w apart ?_ (fun lot member => ?_) ?_ ?_ ?_ ?_
  · refine w.own (rising_nodup rising) nofun ?_ whole ?_ (fun _ => final) (fun _ => ?_) ?_
    · intro state holds _ _
      cases holds
      rfl
    · rintro (sold | routed)
      · cases sold
      · cases routed
    · subst same
      exact ⟨unpaid, unsubsidized⟩
    · subst same
      show 0 = s.paidFor q.orderId + s.subsidies q.orderId
      rw [unpaid, unsubsidized]
  · rw [(idle lot member).1]
    decide
  · rw [short, shortfall, ← same]
    rfl
  · subst same
    exact sound.paused
  · subst same
    exact .inl rfl
  · have unsold := unrouted_none q.slices s.lots fun lot member => by
      rw [(idle lot member).1]
      decide
    rw [w.due, State.due, State.short, short, shortfall, unsold, unrouted_none _ _ (by simp), ← same]
    show s.balance + (Function.update s.feeBalance q.orderId (s.feeBalance q.orderId - q.fees18) q.orderId + 0 + 0 * _)
      ≤ s.balance - q.fees18 + _
    rw [Function.update_self]
    omega

/-- A call that leaves the orders as they are: fees may come in for one of them, and lots that no live
order holds may be split or reserved. -/
structure Beside (s after : State) (id : OrderId) : Prop where
  orders : after.orders = s.orders
  slices : after.slices = s.slices
  finals : after.finalResult = s.finalResult
  paids : after.paidFor = s.paidFor
  subsidies : after.subsidies = s.subsidies
  outstanding : after.outstandingShortfalls = s.outstandingShortfalls
  payments : after.paidLots = s.paidLots
  lots : ∀ lot, after.lots lot = s.lots lot ∨
    ((s.lots lot).state = .none ∨ (s.lots lot).state = .idle) ∧ (after.lots lot).state = .idle
  fees : ∀ other, other ≠ id → after.feeBalance other = s.feeBalance other
  covered : s.balance + after.feeBalance id ≤ after.balance + s.feeBalance id

theorem Beside.held (b : Beside s after id) (sound : Sound s) {other : OrderId}
    (live : (s.orders other).state.live) : ∀ lot ∈ s.slices other, after.lots lot = s.lots lot := by
  intro lot member
  rcases b.lots lot with same | ⟨free, -⟩
  · exact same
  · obtain ⟨state, holds⟩ := Option.isSome_iff_exists.mp live
    rw [(sound.orders other).tied state holds lot member] at free
    cases same : (s.orders other).state <;> rw [same] at holds <;> cases holds <;>
      rcases free with none | idle <;> contradiction

theorem Sound.beside (sound : Sound s) (id : OrderId) (b : Beside s after id)
    (raw : Totals (fun lot => (after.lots lot).raw) after.reservedRaw)
    (paused : 0 < s.outstandingShortfalls → after.routePaused = true) : Sound after := by
  have shortfall : after.shortfall = s.shortfall := by
    funext other
    rw [State.shortfall, State.shortfall, b.orders, b.finals]
  have short : after.short = s.short := by
    funext other
    rw [State.short, State.short, shortfall, b.orders]
  constructor
  · intro other
    have own := sound.orders other
    constructor
    · rw [b.slices]
      exact own.distinct
    · rw [b.orders, b.slices, b.finals]
      exact own.fresh
    · rw [b.orders, b.slices]
      intro state holds lot member
      rw [b.held sound (by rw [OrderState.live, holds, Option.isSome_some]) lot member]
      exact own.tied state holds lot member
    · rw [b.orders, b.slices]
      intro live
      rw [List.map_congr_left fun lot member => by rw [b.held sound live lot member]]
      exact own.whole live
    · rw [b.orders, b.slices]
      intro ended
      have live : (s.orders other).state.live := by
        rcases ended with state | state <;> rw [state] <;> rfl
      rw [List.map_congr_left fun lot member => by rw [b.held sound live lot member]]
      exact own.ended ended
    · rw [b.orders, b.finals]
      exact own.submitted
    · rw [b.finals, b.paids, b.subsidies]
      exact own.running
    · rw [b.orders, b.paids, b.subsidies]
      exact own.booked
  · rw [b.orders, b.slices]
    exact sound.single
  · exact raw
  · intro lot none
    rcases b.lots lot with same | ⟨_, idle⟩
    · rw [same] at none ⊢
      exact sound.blank lot none
    · cases idle.symm.trans none
  · rw [shortfall, b.outstanding]
    exact sound.shortfalls
  · rw [b.outstanding]
    exact paused
  · rw [b.payments]
    exact sound.once
  · rw [b.payments]
    intro lot member
    have routed := sound.paid lot member
    rcases b.lots lot with same | ⟨none | idle, -⟩
    · rw [same]
      exact routed
    · cases none.symm.trans routed
    · cases idle.symm.trans routed
  · obtain ⟨fees, unrouted, shorts, first, second, third, within⟩ := sound.backed
    obtain ⟨fees', first, moved⟩ := first.changed id b.fees
    refine ⟨fees', unrouted, shorts, first, second.of_eq (fun lot => ?_) rfl, short ▸ third, ?_⟩
    · rcases b.lots lot with same | ⟨none | idle, now⟩
      · rw [same]
      · rw [Lot.unrouted, Lot.unrouted, none, now]
        rfl
      · rw [Lot.unrouted, Lot.unrouted, idle, now]
        rfl
    · have covered := b.covered
      omega

theorem reserve_sound {pool feeLot bucket : Nat} {answer : Claim}
    (taken : reserve s pool feeLot bucket answer = .ok after) (sound : Sound s) : Sound after := by
  simp only [reserve, bind_ok, require_ok, pure_ok] at taken
  obtain ⟨_, _, _, _, _, none, _, _, rfl⟩ := taken
  refine sound.beside 0 ⟨rfl, rfl, rfl, rfl, rfl, rfl, rfl, fun lot => ?_, fun _ _ => rfl,
    Nat.le_refl _⟩ ?_ sound.paused
  · by_cases same : lot = .reserved pool feeLot bucket answer.quote
    · subst same
      exact .inr ⟨.inl none, by dsimp only; rw [Function.update_self]⟩
    · exact .inl (Function.update_of_ne same ..)
  · refine sound.raw.rewrite (fun (_ : LotId) (l : Lot) => l.raw) _ _ rfl ?_
    rw [sound.blank _ none]
    rfl

structure Splits (s after : State) (id child : LotId) : Prop where
  new : (s.lots child).state = .none
  apart : child ≠ id
  raw : (after.lots id).raw + (after.lots child).raw = (s.lots id).raw
  others : ∀ lot, lot ≠ id → lot ≠ child → after.lots lot = s.lots lot

theorem splitLot_splits {c : Config} {sender : Address} {lot : LotId} {raw : Nat}
    (taken : splitLot c s sender lot raw = .ok after) : Splits s after lot (.slice lot (s.splitNonce lot + 1)) := by
  simp only [splitLot, bind_ok, require_ok, sub_ok, pure_ok] at taken
  obtain ⟨_, _, _, ⟨idle, _⟩, _, new, left, ⟨part, rfl⟩, rfl⟩ := taken
  have apart : LotId.slice lot (s.splitNonce lot + 1) ≠ lot := by
    intro same
    rw [same, idle] at new
    cases new
  refine ⟨new, apart, ?_, fun other different fresh => ?_⟩
  · dsimp only
    rw [Function.update_of_ne (Ne.symm apart), Function.update_self, Function.update_self]
    exact Nat.sub_add_cancel part
  · dsimp only
    rw [Function.update_of_ne fresh, Function.update_of_ne different]

theorem splitLot_sound {c : Config} {sender : Address} {lot : LotId} {raw : Nat}
    (taken : splitLot c s sender lot raw = .ok after) (sound : Sound s) : Sound after := by
  have splits := splitLot_splits taken
  simp only [splitLot, bind_ok, require_ok, sub_ok, pure_ok] at taken
  obtain ⟨_, _, _, ⟨idle, _⟩, _, _, left, _, same⟩ := taken
  obtain ⟨total, raw, moved⟩ := sound.raw.changed_list [lot, .slice lot (s.splitNonce lot + 1)]
    (by simp [Ne.symm splits.apart]) fun other outside =>
      show (after.lots other).raw = (s.lots other).raw by
        simp only [List.mem_cons, List.not_mem_nil, or_false, not_or] at outside
        rw [splits.others other outside.1 outside.2]
  have whole := splits.raw
  have blank := sound.blank _ splits.new
  simp only [List.map_cons, List.map_nil, List.sum_cons, List.sum_nil] at moved
  have reserved : after.reservedRaw = s.reservedRaw := by
    subst same
    rfl
  refine sound.beside 0 ?_ (raw.of_eq (fun _ => rfl) (by omega)) ?_
  · subst same
    refine ⟨rfl, rfl, rfl, rfl, rfl, rfl, rfl, fun other => ?_, fun _ _ => rfl, Nat.le_refl _⟩
    by_cases child : other = .slice lot (s.splitNonce lot + 1)
    · subst child
      exact .inr ⟨.inl splits.new, by dsimp only; rw [Function.update_self]⟩
    · by_cases parent : other = lot
      · subst parent
        exact .inr ⟨.inr idle, by dsimp only; rw [Function.update_of_ne child, Function.update_self]; exact idle⟩
      · exact .inl (splits.others other parent child)
  · subst same
    exact sound.paused

theorem step_sound {c : Config} {action : Action} (taken : step c s action = .ok after) (sound : Sound s) :
    Sound after := by
  cases action with
  | reserve pool feeLot bucket answer => exact reserve_sound taken sound
  | splitLot sender id raw => exact splitLot_sound taken sound
  | submit q m => exact submit_sound taken sound
  | applyResult id r => exact applyResult_sound taken sound
  | route id accepted => exact route_sound taken sound
  | subsidizeShortfall sender id value => exact subsidizeShortfall_sound taken sound
  | receive sender value =>
    simp only [step, receive, bind_ok, require_ok, pure_ok] at taken
    obtain ⟨_, _, rfl⟩ := taken
    exact sound.beside 0 ⟨rfl, rfl, rfl, rfl, rfl, rfl, rfl, fun _ => .inl rfl, fun _ _ => rfl,
      Nat.add_le_add_right (Nat.le_add_right ..) _⟩ sound.raw sound.paused
  | depositFees id value =>
    simp only [step, depositFees, bind_ok, require_ok, pure_ok] at taken
    obtain ⟨_, _, rfl⟩ := taken
    refine sound.beside id ⟨rfl, rfl, rfl, rfl, rfl, rfl, rfl, fun _ => .inl rfl,
      fun _ different => Function.update_of_ne different .., ?_⟩ sound.raw sound.paused
    dsimp only
    rw [Function.update_self]
    omega
  | scheduleRouteResume sender now review =>
    simp only [step, scheduleRouteResume, bind_ok, require_ok, pure_ok] at taken
    obtain ⟨_, _, rfl⟩ := taken
    exact sound.beside 0 ⟨rfl, rfl, rfl, rfl, rfl, rfl, rfl, fun _ => .inl rfl, fun _ _ => rfl,
      Nat.le_refl _⟩ sound.raw sound.paused
  | resumeRoute now =>
    simp only [step, resumeRoute, bind_ok, require_ok, pure_ok] at taken
    obtain ⟨_, ⟨_, cleared, _⟩, rfl⟩ := taken
    refine sound.beside 0 ⟨rfl, rfl, rfl, rfl, rfl, rfl, rfl, fun _ => .inl rfl, fun _ _ => rfl,
      Nat.le_refl _⟩ sound.raw fun positive => ?_
    rw [cleared] at positive
    cases positive
  | forced value =>
    cases taken
    exact sound.beside 0 ⟨rfl, rfl, rfl, rfl, rfl, rfl, rfl, fun _ => .inl rfl, fun _ _ => rfl,
      Nat.add_le_add_right (Nat.le_add_right ..) _⟩ sound.raw sound.paused

/-- In every reachable state lots are in one order each, keep their raw and share what was paid. -/
theorem conversion_conserved (c : Config) (balance : Nat) (s : State)
    (reached : Reachable (fun before action after => step c before action = .ok after) (deployed balance) s) :
    Conserved s ∧ ∀ sender id raw after, splitLot c s sender id raw = .ok after →
      ∃ child, Splits s after id child := by
  have sound : Sound s := reached.invariant (deployed_sound balance) fun _ _ _ sound taken => step_sound taken sound
  exact ⟨sound.conserved, fun _ _ _ _ taken => ⟨_, splitLot_splits taken⟩⟩

/-! A lot of 6 is split into 4 and 2, which one order sells for 7 where the minimum is 10; a subsidy of 4
makes it 11, which the lots share as 7 and 4. -/

def code : LotId → Nat
  | .reserved pool feeLot bucket quote => 2 * Nat.pair pool (Nat.pair feeLot (Nat.pair bucket quote))
  | .slice parent nonce => 2 * Nat.pair (code parent) nonce + 1

theorem code_injective : Function.Injective code := by
  intro first second same
  induction first generalizing second with
  | reserved pool feeLot bucket quote =>
    cases second with
    | reserved pool' feeLot' bucket' quote' =>
      have pairs := Nat.eq_of_mul_eq_mul_left Nat.two_pos same
      simp only [Nat.pair_eq_pair] at pairs
      obtain ⟨rfl, rfl, rfl, rfl⟩ := pairs
      rfl
    | slice parent nonce =>
      simp only [code] at same
      omega
  | slice parent nonce ih =>
    cases second with
    | reserved pool feeLot bucket quote =>
      simp only [code] at same
      omega
    | slice parent' nonce' =>
      have pairs := Nat.eq_of_mul_eq_mul_left Nat.two_pos (Nat.succ.inj same)
      simp only [Nat.pair_eq_pair] at pairs
      obtain ⟨parents, rfl⟩ := pairs
      rw [ih parents]

def sample : Config := ⟨1, 2, 3, 4, 0, code, code_injective⟩

def sampleLot : LotId := .reserved 7 1 4 9

def sampleQuote : Quote := ⟨5, 9, [sampleLot, .slice sampleLot 1], 6, 10, 10, 0, 0, 0, 3⟩

def sampleRun : List Action :=
  [.reserve 7 1 4 ⟨true, 9, 6, 6⟩, .splitLot 1 sampleLot 2, .depositFees 5 3,
    .submit sampleQuote ⟨0, 10, 10, true, true⟩, .applyResult 5 ⟨1, 7, 0, 7, 0⟩, .subsidizeShortfall 3 5 4,
    .route 5 true]

theorem conversion_conserved_routed : ∃ s, Conserved s ∧
    (s.lots sampleLot).proceeds = 7 ∧ (s.lots (.slice sampleLot 1)).proceeds = 4 ∧
    s.paidLots = [sampleLot, .slice sampleLot 1] ∧ s.outstandingShortfalls = 0 ∧ s.routePaused = true := by
  obtain ⟨s, reached, passed⟩ := run_passes (step sample) (fun _ _ => True) sampleRun (deployed 0)
    (fun s => decide ((s.lots sampleLot).proceeds = 7 ∧ (s.lots (.slice sampleLot 1)).proceeds = 4 ∧
      s.paidLots = [sampleLot, .slice sampleLot 1] ∧ s.outstandingShortfalls = 0 ∧ s.routePaused = true))
    (by decide)
  exact ⟨s, (conversion_conserved sample 0 s reached.unrestricted).1, of_decide_eq_true passed⟩

end Solonpad.StockConverter
