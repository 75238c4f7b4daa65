import Solonpad.HubOpenList
import Solonpad.HubSolvency

/-!
Which orders the hub lists as open. A keeper reads the list alone, so an order left off it is never served.
The positions stay exact whatever happens, and the listed orders are the open ones as long as no sale
reaches an escalated sell and leaves it waiting for its proceeds: that sell left the list when it was
escalated, and a result does not list it again.
-/

namespace Solonpad.Hub

open Checked Chain Messages Transition IndexedList

variable {c : Config} {id : Nat} {b after : Book} {t : Stance}

/-- The list with its positions, and who is on it. -/
structure Listed (b : Book) : Prop where
  indexes : Indexes b.opened.index b.opened.ids
  exact : ∀ id, id ∈ b.opened.ids ↔ id < b.orderCount ∧ (b.stances id).isOpen

theorem OpenOrders.remove_spec {l after : OpenOrders} (indexes : Indexes l.index l.ids)
    (removed : l.remove id = .ok after) : Indexes after.index after.ids ∧
      ∀ other, other ∈ after.ids ↔ other ∈ l.ids ∧ other ≠ id := by
  unfold OpenOrders.remove at removed
  dsimp only at removed
  split at removed
  · next unlisted =>
    -- nothing to take out: it runs on orders already removed too
    cases removed
    refine ⟨indexes, fun other => ⟨fun member => ⟨member, ?_⟩, And.left⟩⟩
    rintro rfl
    exact indexes.mem.mp member unlisted
  · next listed =>
    obtain ⟨place, position⟩ := Nat.exists_eq_succ_of_ne_zero listed
    have found := (indexes id place).mp position
    split at removed
    · cases removed
    · next last ends =>
      split at removed
      · cases removed
      · cases removed
        rw [position]
        exact ⟨indexes.swap found ends, indexes.mem_swap found ends⟩

/-- Closing an order leaves a right list where all others were listed right. -/
theorem Listed.closes (indexes : Indexes b.opened.index b.opened.ids)
    (others : ∀ other, other ≠ id → (other ∈ b.opened.ids ↔ other < b.orderCount ∧ (b.stances other).isOpen))
    (shut : ¬ t.isOpen) (closes : b.Closes id t after) : Listed after := by
  obtain ⟨opened, removed, rfl⟩ := closes
  obtain ⟨positions, members⟩ := OpenOrders.remove_spec indexes removed
  refine ⟨positions, fun other => ?_⟩
  change other ∈ opened.ids ↔ other < b.orderCount ∧ (Function.update b.stances id t other).isOpen
  rw [members]
  by_cases same : other = id
  · rw [same, Function.update_self]
    simp [shut]
  · rw [Function.update_of_ne same, others other same]
    simp [same]

theorem Listed.keeps (listed : Listed b) (kept : b.Keeps id after) : Listed after := by
  cases kept with
  | rewritten t same =>
    refine ⟨listed.indexes, fun other => ?_⟩
    change other ∈ b.opened.ids ↔ other < b.orderCount ∧ (Function.update b.stances id t other).isOpen
    by_cases one : other = id
    · rw [one, Function.update_self, same]
      exact listed.exact id
    · rw [Function.update_of_ne one]
      exact listed.exact other
  | closed t shut after closes => exact .closes listed.indexes (fun other _ => listed.exact other) shut closes

/-- No order is listed before it is placed. -/
theorem Listed.unplaced (listed : Listed b) : b.orderCount ∉ b.opened.ids := by
  intro member
  have early := ((listed.exact _).mp member).1
  omega

theorem Listed.placed_indexes (listed : Listed b) (t : Stance) :
    Indexes (b.place t).opened.index (b.place t).opened.ids := listed.indexes.append listed.unplaced

theorem Listed.placed_others (listed : Listed b) (t : Stance) {other : Nat} (earlier : other ≠ b.orderCount) :
    other ∈ (b.place t).opened.ids ↔
      other < (b.place t).orderCount ∧ ((b.place t).stances other).isOpen := by
  change other ∈ b.opened.ids ++ [b.orderCount] ↔
    other < b.orderCount + 1 ∧ (Function.update b.stances b.orderCount t other).isOpen
  rw [List.mem_append, List.mem_singleton, Function.update_of_ne earlier, listed.exact]
  constructor
  · rintro (⟨below, open'⟩ | same)
    · exact ⟨by omega, open'⟩
    · exact absurd same earlier
  · rintro ⟨below, open'⟩
    exact .inl ⟨by omega, open'⟩

theorem Listed.place (listed : Listed b) (open' : t.isOpen) : Listed (b.place t) := by
  refine ⟨listed.placed_indexes t, fun other => ?_⟩
  by_cases new : other = b.orderCount
  · subst new
    change b.orderCount ∈ b.opened.ids ++ [b.orderCount] ↔
      b.orderCount < b.orderCount + 1 ∧ (Function.update b.stances b.orderCount t b.orderCount).isOpen
    rw [Function.update_self]
    simp [open']
  · exact listed.placed_others t new

theorem Listed.step (listed : Listed b) (books : Books b after) : Listed after := by
  cases books with
  | same same => exact same ▸ listed
  | tends id kept => exact listed.keeps kept
  | places t open' kept => exact (listed.place open').keeps kept
  | passes t shut closes =>
    exact .closes (listed.placed_indexes t) (fun _ earlier => listed.placed_others t earlier) shut closes

theorem deployed_listed : Listed (deployed c).book := by
  refine ⟨Indexes.empty, fun id => ?_⟩
  simp [State.book, deployed]

theorem open_list_exact (c : Config) (s : State)
    (reached : Reachable (restrict (accepts c) SalesListed) (deployed c) s) :
    (∀ id place, s.opened.index id = place + 1 ↔ s.opened.ids[place]? = some id) ∧ s.opened.ids.Nodup ∧
      ∀ id, id ∈ s.opened.ids ↔ id < s.orderCount ∧ (s.orders id).stance.isOpen := by
  have listed : Listed s.book := by
    induction reached with
    | start => exact deployed_listed
    | next earlier taken ih =>
      have regular := reachable_regular earlier.unrestricted
      exact ih.step (step_books regular taken.1 taken.2)
  exact ⟨listed.indexes, listed.indexes.nodup, listed.exact⟩

/-- The same call a week and a half later. -/
def later (sender value : Nat) (action : Action) : Call :=
  { by' sender value action with env := { (by' sender value action).env with now := 2 * 10 ^ 6 } }

/-- A dispatched sell is escalated, and the vault's sale of it arrives after that. -/
def soldLate (float : Nat) : List Call :=
  [by' 2 0 (.listStock 50 30 0 60 1),
    by' 2 0 (.setCanonicalGate 70),
    by' 10 0 (.reconcile ⟨.migration 50 0, 50, .bought, 0, 10 ^ 18, 1⟩),
    by' 6 1 (.requestSell 50 (10 ^ 18) 0),
    by' 2 float .fundFloat,
    by' 2 0 (.setFloatEnabled true),
    later 6 (10 ^ 18) (.escalate 0 80),
    later 11 0 (.lzReceive 30 ⟨.order 0, 50, .sold, 10 ^ 18, 10 ^ 8, 2⟩)]

/-- The float pays the sale at once: nothing is left to list. -/
theorem open_list_exact_late : ∃ s, Reachable (restrict (accepts sample) SalesListed) (deployed sample) s ∧
    s.orderCount = 1 ∧ ∀ id, id ∈ s.opened.ids ↔ id < s.orderCount ∧ (s.orders id).stance.isOpen := by
  obtain ⟨s, reached, passed⟩ := run_passes (step sample) SalesListed (soldLate (10 ^ 20)) (deployed sample)
    (fun s => decide (s.orderCount = 1)) (by decide)
  exact ⟨s, reached, of_decide_eq_true passed, (open_list_exact sample s reached).2.2⟩

/-- The float is empty: the sell waits for its proceeds and is not listed. -/
theorem sale_unlisted : ∃ s, Reachable (accepts sample) (deployed sample) s ∧
    ¬ ∀ id, id ∈ s.opened.ids ↔ id < s.orderCount ∧ (s.orders id).stance.isOpen := by
  obtain ⟨s, reached, passed⟩ := run_passes (step sample) (fun _ _ => True) (soldLate 0) (deployed sample)
    (fun s => decide (s.opened.ids = [] ∧ s.orderCount = 1 ∧ (s.orders 0).status = .proceeds)) (by decide)
  obtain ⟨empty, placed, proceeds⟩ := of_decide_eq_true passed
  refine ⟨s, reached.unrestricted, fun exact => ?_⟩
  have listed := (exact 0).mpr ⟨by omega, .inr (.inr (.inr (.inr (.inl proceeds))))⟩
  rw [empty] at listed
  exact List.not_mem_nil listed

end Solonpad.Hub
