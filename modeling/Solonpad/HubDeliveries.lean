import Solonpad.HubCalls

/-!
What the hub hands to the canonical lane. An order with a delivery has left the lanes it could be handed
over from, except for money the vault has already answered about. So of two deliveries for one ref the
later one is sent for a ref that is settled at the vault, given that results come from there.
-/

namespace Solonpad.Hub

open Checked Chain Messages

variable {c : Config} {p : Promises} {a : Action} {s after : State}

/-- The order waits for no first answer in a lane of its own any more. -/
def Order.Handed (o : Order) : Prop :=
  o.status ≠ .pending ∧ o.status ≠ .funded ∧ o.status ≠ .dispatched

/-- `settled` tells of each ref whether the vault has answered it. -/
structure Sent (settled : Ref → Prop) (s : State) : Prop where
  known : ∀ d ∈ s.deliveries, ∃ id, d.ref = .order id ∧ id < s.orderCount ∧ (s.orders id).Handed
  answered : ∀ id, (s.orders id).outcome ≠ none → settled (.order id)
  again : ∀ (i j : Nat) (d e : Deliver), i < j → s.deliveries[i]? = some d → s.deliveries[j]? = some e → d.ref = e.ref →
    settled e.ref

variable {settled : Ref → Prop}

theorem deployed_sent : Sent settled (deployed c) where
  known := fun _ member => absurd member List.not_mem_nil
  answered := fun _ outcome => absurd rfl outcome
  again := fun i _ _ _ _ found _ => by simp [deployed] at found

theorem Sent.mono {other : Ref → Prop} (sent : Sent settled s) (more : ∀ ref, settled ref → other ref) : Sent other s :=
  ⟨sent.known, fun id outcome => more _ (sent.answered id outcome),
    fun i j d e before first second same => more _ (sent.again i j d e before first second same)⟩

/-- One order rewritten, and nothing delivered. -/
theorem Sent.rewrite (sent : Sent settled s) (id : Nat) (next : Order)
    (orders : after.orders = Function.update s.orders id next) (count : after.orderCount = s.orderCount)
    (deliveries : after.deliveries = s.deliveries) (handed : (s.orders id).Handed → next.Handed)
    (answered : next.outcome ≠ none → (s.orders id).outcome ≠ none ∨ settled (.order id)) :
    Sent settled after where
  known := by
    intro d member
    rw [deliveries] at member
    obtain ⟨own, ref, placed, left⟩ := sent.known d member
    refine ⟨own, ref, count ▸ placed, ?_⟩
    rw [orders]
    by_cases same : own = id
    · subst same
      rw [Function.update_self]
      exact handed left
    · rw [Function.update_of_ne same]
      exact left
  answered := by
    intro own outcome
    rw [orders] at outcome
    by_cases same : own = id
    · subst same
      rw [Function.update_self] at outcome
      exact (answered outcome).elim (sent.answered own) (fun told => told)
    · rw [Function.update_of_ne same] at outcome
      exact sent.answered own outcome
  again := by
    rw [deliveries]
    exact sent.again

/-- A new order, and nothing delivered. -/
theorem Sent.place (sent : Sent settled s) (o : Order)
    (orders : after.orders = Function.update s.orders s.orderCount o) (count : after.orderCount = s.orderCount + 1)
    (deliveries : after.deliveries = s.deliveries) (fresh : o.outcome = none) : Sent settled after where
  known := by
    intro d member
    rw [deliveries] at member
    obtain ⟨id, ref, placed, handed⟩ := sent.known d member
    refine ⟨id, ref, by omega, ?_⟩
    rw [orders, Function.update_of_ne (Nat.ne_of_lt placed)]
    exact handed
  answered := by
    intro id outcome
    rw [orders] at outcome
    by_cases same : id = s.orderCount
    · subst same
      rw [Function.update_self] at outcome
      exact absurd fresh outcome
    · rw [Function.update_of_ne same] at outcome
      exact sent.answered id outcome
  again := by
    rw [deliveries]
    exact sent.again

/-- One more delivery, after which its order is handed over. -/
theorem Sent.deliver (sent : Sent settled s) (d : Deliver) (id : Nat) (ref : d.ref = .order id)
    (orders : after.orders = s.orders) (count : after.orderCount = s.orderCount)
    (deliveries : after.deliveries = s.deliveries ++ [d]) (placed : id < s.orderCount) (handed : (s.orders id).Handed)
    (told : (∃ earlier ∈ s.deliveries, earlier.ref = d.ref) → settled d.ref) : Sent settled after where
  known := by
    intro other member
    rw [orders, count]
    rcases List.mem_append.mp (deliveries ▸ member) with old | new
    · exact sent.known other old
    · obtain rfl := List.mem_singleton.mp new
      exact ⟨id, ref, placed, handed⟩
  answered := by
    rw [orders]
    exact sent.answered
  again := by
    intro i j first second before one two same
    rw [deliveries] at one two
    have bound : j < (s.deliveries ++ [d]).length := (List.getElem?_eq_some_iff.mp two).1
    simp only [List.length_append, List.length_singleton] at bound
    rw [List.getElem?_append_left (by omega)] at one
    by_cases last : j = s.deliveries.length
    · rw [last, List.getElem?_append_right (Nat.le_refl _), Nat.sub_self, List.getElem?_cons_zero] at two
      obtain rfl := Option.some.inj two
      exact told ⟨first, List.mem_of_getElem? one, same⟩
    · rw [List.getElem?_append_left (by omega)] at two
      exact sent.again i j first second before one two same

theorem Turn.sent {o next : Order} (turn : Turn o next) : (o.Handed → next.Handed) ∧ next.outcome = o.outcome := by
  cases turn with
  | keeps phase =>
    obtain ⟨status, outcome, -⟩ := phase_spec phase
    refine ⟨?_, outcome⟩
    unfold Order.Handed
    rw [status]
    exact fun handed => handed
  | refunded _ _ _ _ phase | floatRefunded _ _ _ phase | closed _ _ phase | paid _ _ _ phase =>
    obtain ⟨status, outcome, -⟩ := phase_spec phase
    refine ⟨fun _ => ?_, outcome⟩
    unfold Order.Handed
    rw [status]
    exact ⟨nofun, nofun, nofun⟩

/-- A delivery for an order that already has one is for money the vault has answered about. -/
theorem Delivers.told {o : Order} {shares : Nat} (why : Delivers o shares) (regular : o.Regular)
    (handed : o.Handed) : o.outcome ≠ none := by
  obtain ⟨unqueued, unfunded, undispatched⟩ := handed
  cases why with
  | sell _ open' => exact absurd open' (not_or.mpr ⟨undispatched, unqueued⟩)
  | void _ _ _ open' => exact absurd open' (not_or.mpr ⟨unfunded, undispatched⟩)
  | money _ open' =>
    intro none
    have proper := regular.proper
    rcases open' with returning | proceeds
    · simp only [Order.phase, returning, none] at proper
      cases kind : o.kind <;> simp [Proper, kind] at proper
    · simp only [Order.phase, proceeds, none] at proper
      cases kind : o.kind <;> simp [Proper, kind] at proper

/-- The results a call may apply are the vault's. -/
def FromVault (settled : Ref → Prop) (a : Action) : Prop :=
  ∀ r canonical id, a.result = some (r, canonical) → r.ref = .order id → settled (.order id)

theorem move_sent (regular : Regular s) (move : Move c p a s after) (told : FromVault settled a)
    (sent : Sent settled s) : Sent settled after := by
  cases move with
  | controls | funds | migrated | reviews | marks | outside | transfers =>
    exact ⟨sent.known, sent.answered, sent.again⟩
  | turned id next _ _ _ _ turn =>
    obtain ⟨handed, outcome⟩ := turn.sent
    exact sent.rewrite id next rfl rfl rfl handed (fun some => .inl (outcome ▸ some))
  | floatPaid id next _ _ _ _ _ _ _ _ phase =>
    obtain ⟨status, outcome, -⟩ := phase_spec phase
    refine sent.rewrite id next rfl rfl rfl (fun _ => ?_) (fun some => .inl (outcome ▸ some))
    exact ⟨status ▸ nofun, status ▸ nofun, status ▸ nofun⟩
  | placesBuy o _ as => exact sent.place o rfl rfl rfl (phase_spec as.phase).2.1
  | placesReward o _ as => exact sent.place o rfl rfl rfl (phase_spec as.phase).2.1
  | placesSell o _ _ as => exact sent.place o rfl rfl rfl (phase_spec as.phase).2.1
  | redeems o token capacity money recipient mode as =>
    obtain ⟨status, outcome, -⟩ := phase_spec as.phase
    have placed : Sent settled { s with
        orders := Function.update s.orders s.orderCount o, orderCount := s.orderCount + 1
        arc := Function.update s.arc o.underlying token, capacity := capacity, money := money } :=
      sent.place o rfl rfl rfl outcome
    refine placed.deliver _ s.orderCount rfl rfl rfl rfl (Nat.lt_succ_self _) ?_ ?_
    · dsimp only
      rw [Function.update_self]
      exact ⟨status ▸ nofun, status ▸ nofun, status ▸ nofun⟩
    · -- no delivery names an order that was not there
      rintro ⟨earlier, member, same⟩
      obtain ⟨id, ref, older, -⟩ := sent.known earlier member
      cases ref.symm.trans same
      exact absurd older (Nat.lt_irrefl _)
  | launches id next _ _ _ _ _ _ pending _ phase =>
    obtain ⟨-, outcome, -⟩ := phase_spec phase
    exact sent.rewrite id next rfl rfl rfl (fun handed => absurd pending handed.1)
      (fun some => .inl (outcome ▸ some))
  | sends id next _ m _ _ message _ phase =>
    obtain ⟨status, outcome, -⟩ := phase_spec phase
    refine sent.rewrite id next rfl rfl rfl (fun handed => ?_) (fun some => .inl (outcome ▸ some))
    -- only a void leaves for the vault once its order is handed over, and that order is cancelled
    have cancelled : (s.orders id).status = .cancelled := by
      obtain ⟨unqueued, unfunded, undispatched⟩ := handed
      cases message with
      | order open' => exact absurd open' (not_or.mpr ⟨unfunded, fun sell => unqueued sell.2⟩)
      | void _ _ open' =>
        rcases open' with funded | dispatched | cancelled
        · exact absurd funded unfunded
        · exact absurd dispatched undispatched
        · exact cancelled.1
    rw [if_pos cancelled] at status
    exact ⟨status ▸ nofun, status ▸ nofun, status ▸ nofun⟩
  | delivers id next money shares recipient placed _ why _ phase =>
    obtain ⟨status, outcome, -⟩ := phase_spec phase
    have handed : next.Handed := ⟨status ▸ nofun, status ▸ nofun, status ▸ nofun⟩
    have escalated : Sent settled { s with
        orders := Function.update s.orders id next, money := money } :=
      sent.rewrite id next rfl rfl rfl (fun _ => handed) (fun some => .inl (outcome ▸ some))
    refine escalated.deliver _ id rfl rfl rfl rfl placed ?_ ?_
    · dsimp only
      rw [Function.update_self]
      exact handed
    · rintro ⟨earlier, member, same⟩
      obtain ⟨own, ref, -, left⟩ := sent.known earlier member
      cases ref.symm.trans same
      exact sent.answered id (why.told (regular.orders id) left)
  | bought id r canonical next _ _ _ _ _ applies ref _ _ _ _ open' =>
    have result := told r canonical id applies ref
    refine sent.rewrite id next rfl rfl rfl (fun _ => ?_) (fun _ => .inr result)
    rcases open' with ⟨_, phase⟩ | ⟨_, _, _, phase⟩
    all_goals
      obtain ⟨status, -⟩ := phase_spec phase
      exact ⟨status ▸ nofun, status ▸ nofun, status ▸ nofun⟩
  | sold id r canonical next _ _ applies ref _ _ _ _ _ _ phase =>
    have result := told r canonical id applies ref
    refine sent.rewrite id next rfl rfl rfl (fun _ => ?_) (fun _ => .inr result)
    obtain ⟨status, -⟩ := phase_spec phase
    unfold Order.Handed
    rw [status]
    split <;> exact ⟨nofun, nofun, nofun⟩
  | buyFailed id r canonical next _ _ applies ref _ _ _ open' =>
    have result := told r canonical id applies ref
    refine sent.rewrite id next rfl rfl rfl (fun _ => ?_) (fun _ => .inr result)
    rcases open' with ⟨_, phase⟩ | ⟨_, _, _, phase⟩
    all_goals
      obtain ⟨status, -⟩ := phase_spec phase
      exact ⟨status ▸ nofun, status ▸ nofun, status ▸ nofun⟩
  | sellFailed id r canonical next _ _ _ applies ref _ _ _ _ _ phase =>
    have result := told r canonical id applies ref
    refine sent.rewrite id next rfl rfl rfl (fun _ => ?_) (fun _ => .inr result)
    obtain ⟨status, -⟩ := phase_spec phase
    exact ⟨status ▸ nofun, status ▸ nofun, status ▸ nofun⟩
  | withdrawn id next _ _ _ _ _ _ _ phase =>
    obtain ⟨status, outcome, -⟩ := phase_spec phase
    refine sent.rewrite id next rfl rfl rfl (fun _ => ?_) (fun some => .inl (outcome ▸ some))
    exact ⟨status ▸ nofun, status ▸ nofun, status ▸ nofun⟩

theorem Moves.sent (regular : Regular s) (told : FromVault settled a) (moves : Moves c p a s after)
    (sent : Sent settled s) : Sent settled after := by
  induction moves with
  | refl => exact sent
  | tail before move ih => exact move_sent (Moves.regular regular before) move told ih

/-- Deliveries are only added. -/
theorem Moves.deliveries (moves : Moves c p a s after) : s.deliveries <+: after.deliveries := by
  induction moves with
  | refl => exact List.prefix_refl _
  | tail _ move ih =>
    refine ih.trans ?_
    cases move <;> first | exact List.prefix_refl _ | exact List.prefix_append _ _

end Solonpad.Hub
