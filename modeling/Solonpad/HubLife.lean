import Solonpad.HubMoves

/-!
The life of an order: which kinds, statuses and outcomes go together, and what every move of the
books keeps of that.
-/

namespace Solonpad.Hub

open Checked Chain Messages

/-- The phases a buy or a sell can be in. -/
def Proper (kind : Kind) : Status × Option Outcome × Bool × Nat → Prop
  | (status, outcome, advanced, _) =>
    match kind, status, outcome with
    | .buy, .pending, none | .buy, .funded, none | .buy, .dispatched, none
    | .buy, .escalated, none | .buy, .escalated, some .failed | .buy, .returning, some .failed
    | .buy, .filled, some .bought => advanced = false
    | .buy, .cancelled, none | .buy, .cancelled, some .failed => True
    | .buy, .cancelled, some .bought => advanced = true
    | .sell, .pending, none | .sell, .dispatched, none | .sell, .escalated, none
    | .sell, .escalated, some .sold | .sell, .proceeds, some .sold
    | .sell, .cancelled, some .failed => advanced = false
    | .sell, .filled, some .sold => True
    | _, _, _ => False

-- The many equations of `Proper` are made once, here, and not by each proof that takes it apart.
attribute [local grind =] Proper

structure Order.Regular (o : Order) : Prop where
  proper : Proper o.kind o.phase
  fees : o.feeBps ≤ maxFeeBps
  refund : o.refundReady ≠ 0 → o.status = .cancelled
  reward : o.lane = 1 → o.kind = .buy
  lanes : o.lane = 0 ∨ o.lane = 1

structure Regular (s : State) : Prop where
  fresh : ∀ id, s.orderCount ≤ id → s.orders id = Order.blank
  rewards : ∀ key, s.rewardOrder key ≤ s.orderCount
  laned : ∀ key, s.rewardOrder key ≠ 0 → (s.orders (s.rewardOrder key - 1)).lane = 1
  buyFee : s.terms.buyFeeBps ≤ maxFeeBps
  sellFee : s.terms.sellFeeBps ≤ maxFeeBps
  orders : ∀ id, (s.orders id).Regular
  /-- The vault is not told of a queued buy. -/
  sent : ∀ id, s.isSent id → id < s.orderCount ∧
    ¬ ((s.orders id).kind = .buy ∧ (s.orders id).status = .pending)

theorem blank_regular : Order.blank.Regular :=
  ⟨rfl, Nat.zero_le _, fun nonzero => absurd rfl nonzero, (fun reward => by cases reward),
    .inl rfl⟩

variable {c : Config} {o : Order} {s after : State} {p : Promises} {action : Action}

theorem deployed_regular : Regular (deployed c) where
  fresh := fun _ _ => rfl
  rewards := fun _ => Nat.le_refl 0
  laned := fun _ placed => absurd rfl placed
  buyFee := c.capped
  sellFee := c.capped
  orders := fun _ => blank_regular
  sent := by
    rintro id (⟨m, member, _⟩ | ⟨d, member, _⟩) <;> cases member

/-! What a kept deal says field by field. -/

theorem deal_spec {o next : Order} (deal : next.deal = o.deal) :
    next.user = o.user ∧ next.underlying = o.underlying ∧ next.kind = o.kind ∧
      next.amountIn = o.amountIn ∧ next.lane = o.lane ∧ next.feeBps = o.feeBps ∧
      next.capKey = o.capKey := by
  simpa [Order.deal] using deal

theorem phase_spec {next : Order} {status : Status} {outcome : Option Outcome} {advanced : Bool}
    {rawOut : Nat} (phase : next.phase = (status, outcome, advanced, rawOut)) :
    next.status = status ∧ next.outcome = outcome ∧ next.advanced = advanced ∧
      next.rawOut = rawOut := by
  simpa [Order.phase] using phase

/-- An order keeps its regularity through a new proper phase. -/
theorem Order.Regular.next {next : Order} (regular : o.Regular) (deal : next.deal = o.deal)
    (proper : Proper o.kind next.phase) (refund : next.refundReady ≠ 0 → next.status = .cancelled) : next.Regular := by
  obtain ⟨_, _, kind, _, lane, fees, _⟩ := deal_spec deal
  constructor
  · exact kind ▸ proper
  · exact fees ▸ regular.fees
  · exact refund
  · rw [lane, kind]
    exact regular.reward
  · rw [lane]
    exact regular.lanes

/-- A refund that waits is untouched unless the order just closed. -/
theorem Order.Regular.waits {next : Order} (regular : o.Regular) (refund : next.refundReady = o.refundReady)
    (live : o.status ≠ .cancelled) : next.refundReady ≠ 0 → next.status = .cancelled := by
  intro nonzero
  exact absurd (regular.refund (refund ▸ nonzero)) live

theorem Turn.regular {next : Order} (turn : Turn o next) (regular : o.Regular) (deal : next.deal = o.deal) :
    next.Regular ∧ (next.status = .pending → o.status = .pending) := by
  have proper := regular.proper
  cases turn with
  | keeps phase refund =>
    obtain ⟨status, _⟩ := phase_spec phase
    refine ⟨regular.next deal (phase ▸ proper) ?_, fun pending => status ▸ pending⟩
    rw [status]
    rcases refund with same | none
    · exact same ▸ regular.refund
    · exact fun nonzero => absurd none nonzero
  | refunded buy _ pending _ phase =>
    obtain ⟨status, _⟩ := phase_spec phase
    refine ⟨regular.next deal ?_ (fun _ => status), fun _ => pending⟩
    simp only [Order.phase, buy, pending] at proper phase ⊢
    rw [phase]
    cases outcome : o.outcome <;> simp_all [Proper]
  | floatRefunded buy dispatched _ phase =>
    obtain ⟨status, _⟩ := phase_spec phase
    refine ⟨regular.next deal ?_ (fun _ => status), fun pending => by simp_all⟩
    simp only [Order.phase, buy, dispatched] at proper phase ⊢
    rw [phase]
    cases outcome : o.outcome <;> simp_all [Proper]
  | closed buy returning phase =>
    obtain ⟨status, _⟩ := phase_spec phase
    refine ⟨regular.next deal ?_ (fun _ => status), fun pending => by simp_all⟩
    simp only [Order.phase, buy, returning] at proper phase ⊢
    rw [phase]
    rcases outcome : o.outcome with _ | _ | _ | _ <;> simp_all [Proper]
  | paid sell proceeds refund phase =>
    obtain ⟨status, _⟩ := phase_spec phase
    refine ⟨regular.next deal ?_ (regular.waits refund (by simp [proceeds])),
      fun pending => by simp_all⟩
    simp only [Order.phase, sell, proceeds] at proper phase ⊢
    rw [phase]
    rcases outcome : o.outcome with _ | _ | _ | _ <;> simp_all [Proper]

/-- Every move that rewrites one order keeps the books regular. -/
theorem Regular.rewrite (regular : Regular s) (id : Nat) (next : Order)
    (orders : after.orders = Function.update s.orders id next) (count : after.orderCount = s.orderCount)
    (rewards : after.rewardOrder = s.rewardOrder) (terms : after.terms = s.terms) (placed : id < s.orderCount)
    (next_regular : next.Regular) (early : next.status = .pending → (s.orders id).status = .pending)
    (deal : next.deal = (s.orders id).deal)
    (sent : ∀ other, after.isSent other → s.isSent other ∨ other = id ∧ next.status ≠ .pending) :
    Regular after where
  fresh := by
    intro other beyond
    rw [count] at beyond
    rw [orders, Function.update_of_ne (by omega)]
    exact regular.fresh other beyond
  rewards := by
    rw [rewards, count]
    exact regular.rewards
  laned := by
    intro key rewarded
    rw [rewards] at rewarded ⊢
    rw [orders, Function.update_apply]
    split
    · next same =>
      rw [(deal_spec deal).2.2.2.2.1, ← same]
      exact regular.laned key rewarded
    · exact regular.laned key rewarded
  buyFee := terms ▸ regular.buyFee
  sellFee := terms ▸ regular.sellFee
  orders := by
    intro other
    rw [orders, Function.update_apply]
    split
    · exact next_regular
    · exact regular.orders other
  sent := by
    intro other told
    rw [count, orders]
    by_cases same : other = id
    · subst same
      rw [Function.update_self]
      refine ⟨placed, fun queued => ?_⟩
      rcases sent other told with before | ⟨_, left⟩
      · exact (regular.sent other before).2
          ⟨(deal_spec deal).2.2.1 ▸ queued.1, early queued.2⟩
      · exact left queued.2
    · rw [Function.update_of_ne same]
      rcases sent other told with before | ⟨here, _⟩
      · exact regular.sent other before
      · exact absurd here same

theorem Regular.place (regular : Regular s) (o : Order)
    (orders : after.orders = Function.update s.orders s.orderCount o) (count : after.orderCount = s.orderCount + 1)
    (rewards : ∀ key, after.rewardOrder key = s.rewardOrder key ∨ after.rewardOrder key = s.orderCount + 1 ∧ o.lane = 1)
    (terms : after.terms = s.terms) (o_regular : o.Regular)
    (sent : ∀ other, after.isSent other → s.isSent other ∨ other = s.orderCount ∧ o.kind = .sell) : Regular after where
  fresh := by
    intro other beyond
    rw [count] at beyond
    rw [orders, Function.update_of_ne (by omega)]
    exact regular.fresh other (by omega)
  rewards := by
    intro key
    have before := regular.rewards key
    rcases rewards key with same | ⟨here, _⟩
    · omega
    · omega
  laned := by
    intro key rewarded
    have before := regular.rewards key
    rw [orders]
    rcases rewards key with same | ⟨here, lane⟩
    · rw [same] at rewarded ⊢
      rw [Function.update_of_ne (by omega)]
      exact regular.laned key rewarded
    · rw [here, Nat.add_sub_cancel, Function.update_self]
      exact lane
  buyFee := terms ▸ regular.buyFee
  sellFee := terms ▸ regular.sellFee
  orders := by
    intro other
    rw [orders, Function.update_apply]
    split
    · exact o_regular
    · exact regular.orders other
  sent := by
    intro other told
    rw [count, orders]
    rcases sent other told with before | ⟨rfl, sell⟩
    · obtain ⟨known, queued⟩ := regular.sent other before
      rw [Function.update_of_ne (by omega)]
      exact ⟨by omega, queued⟩
    · rw [Function.update_self]
      exact ⟨by omega, fun queued => by simp [sell] at queued⟩

/-- Moves that leave the orders and what was sent alone. -/
theorem Regular.keep (regular : Regular s) (orders : after.orders = s.orders)
    (count : after.orderCount = s.orderCount) (rewards : after.rewardOrder = s.rewardOrder)
    (buyFee : after.terms.buyFeeBps ≤ s.terms.buyFeeBps) (sellFee : after.terms.sellFeeBps ≤ s.terms.sellFeeBps)
    (packets : after.packets = s.packets) (deliveries : after.deliveries = s.deliveries) :
    Regular after where
  fresh := by
    rw [orders, count]
    exact regular.fresh
  rewards := by
    rw [rewards, count]
    exact regular.rewards
  laned := by
    rw [rewards, orders]
    exact regular.laned
  buyFee := buyFee.trans regular.buyFee
  sellFee := sellFee.trans regular.sellFee
  orders := orders ▸ regular.orders
  sent := by
    unfold State.isSent
    rw [packets, deliveries, orders, count]
    exact regular.sent

theorem Sends.ref {id : Nat} {m : Messages.Order} (sends : Sends id o m) : m.ref = .order id := by
  cases sends <;> rfl

theorem Placed.As.regular {kind : Kind} {status : Status} (placed : Placed.As o kind status)
    (proper : Proper kind (status, none, false, 0)) (reward : o.lane = 1 → kind = .buy)
    (lanes : o.lane = 0 ∨ o.lane = 1) : o.Regular where
  proper := by
    rw [placed.kind, placed.phase]
    exact proper
  fees := placed.fees
  refund := fun nonzero => absurd placed.refund nonzero
  reward := by
    rw [placed.kind]
    exact reward
  lanes := lanes

/-- The phases a result leads to. -/
theorem answered_proper {o : Order} (proper : Proper o.kind o.phase) :
    (o.kind = .buy → unanswered o → ∀ rawOut,
      Proper .buy (.filled, some .bought, o.advanced, rawOut)) ∧
    (o.kind = .buy → unanswered o ∨ o.status = .pending → ∀ rawOut,
      Proper .buy (.returning, some .failed, o.advanced, rawOut)) ∧
    (o.kind = .sell → o.status = .dispatched ∨ o.status = .pending ∨ o.status = .escalated →
      o.outcome = none → ∀ rawOut, Proper .sell (.proceeds, some .sold, o.advanced, rawOut) ∧
        Proper .sell (.cancelled, some .failed, o.advanced, rawOut)) := by
  simp only [Order.phase] at proper
  refine ⟨fun buy open' _ => ?_, fun buy open' _ => ?_, fun sell open' none _ => ?_⟩
  · obtain ⟨none, dispatched | ⟨_, escalated⟩⟩ := open'
    · simp_all [Proper]
    · simp_all [Proper]
  · rcases open' with ⟨none, dispatched | ⟨_, escalated⟩⟩ | pending
    · simp_all [Proper]
    · simp_all [Proper]
    · rcases outcome : o.outcome with _ | _ | _ | _ <;> simp_all [Proper]
  · rcases open' with dispatched | pending | escalated <;> simp_all [Proper]

theorem move_regular {p : Promises} {action : Action} {s after : State} (regular : Regular s)
    (move : Move c p action s after) : Regular after := by
  cases move with
  | controls _ terms _ _ buyFee sellFee => exact regular.keep rfl rfl rfl buyFee sellFee rfl rfl
  | funds | migrated | reviews | marks | outside | transfers =>
    exact regular.keep rfl rfl rfl le_rfl le_rfl rfl rfl
  | turned id next _ _ placed deal turn =>
    obtain ⟨next_regular, early⟩ := turn.regular (regular.orders id) deal
    exact regular.rewrite id next rfl rfl rfl rfl placed next_regular early deal
      (fun _ told => .inl told)
  | floatPaid id next _ _ placed deal _ sell proceeds refund phase =>
    have proper := (regular.orders id).proper
    have ended : Proper (s.orders id).kind next.phase := by
      rw [phase]
      simp only [Order.phase, sell, proceeds] at proper ⊢
      rcases outcome : (s.orders id).outcome with _ | _ | _ | _ <;> simp_all [Proper]
    exact regular.rewrite id next rfl rfl rfl rfl placed
      ((regular.orders id).next deal ended
        ((regular.orders id).waits refund (by simp [proceeds])))
      (fun pending => by simp [(phase_spec phase).1] at pending) deal
      (fun _ told => .inl told)
  | placesBuy o _ buy lane =>
    exact regular.place o rfl rfl (fun _ => .inl rfl) rfl
      (buy.regular rfl (fun _ => rfl) (.inl lane)) (fun _ told => .inl told)
  | placesReward o _ buy lane =>
    refine regular.place o rfl rfl (fun key => ?_) rfl
      (buy.regular rfl (fun _ => rfl) (.inr lane)) (fun _ told => .inl told)
    by_cases same : key = o.capKey
    · exact .inr ⟨by simp [same], lane⟩
    · exact .inl (by simp [same])
  | placesSell o _ _ sell lane =>
    exact regular.place o rfl rfl (fun _ => .inl rfl) rfl
      (sell.regular rfl (fun reward => by simp [lane] at reward) (.inl lane)) (fun _ told => .inl told)
  | redeems o _ _ _ _ _ sell lane =>
    refine regular.place o rfl rfl (fun _ => .inl rfl) rfl
      (sell.regular rfl (fun reward => by simp [lane] at reward) (.inl lane)) (fun other told => ?_)
    rcases told with packet | ⟨d, member, ref⟩
    · exact .inl (.inl packet)
    · rw [List.mem_append, List.mem_singleton] at member
      rcases member with earlier | rfl
      · exact .inl (.inr ⟨d, earlier, ref⟩)
      · exact .inr ⟨(Ref.order.inj ref).symm, sell.kind⟩
  | launches id next _ _ _ placed deal buy pending refund phase =>
    have proper := (regular.orders id).proper
    have ended : Proper (s.orders id).kind next.phase := by
      rw [phase]
      simp only [Order.phase, buy, pending] at proper ⊢
      rcases outcome : (s.orders id).outcome with _ | _ | _ | _ <;> simp_all [Proper]
    exact regular.rewrite id next rfl rfl rfl rfl placed
      ((regular.orders id).next deal ended
        ((regular.orders id).waits refund (by simp [pending])))
      (fun _ => pending) deal (fun _ told => .inl told)
  | sends id next _ m placed deal message refund phase =>
    have proper := (regular.orders id).proper
    obtain ⟨status, _⟩ := phase_spec phase
    have left : next.status ≠ .pending := by
      rw [status]
      split <;> simp
    have ended : Proper (s.orders id).kind next.phase := by
      rw [phase]
      simp only [Order.phase] at proper ⊢
      cases message with
      | order open' =>
        rcases kind : (s.orders id).kind <;> rcases outcome : (s.orders id).outcome with _ | _ | _ | _ <;>
          rcases open' with funded | ⟨sell, pending⟩ <;> simp_all [Proper]
      | void buy unanswered open' =>
        rcases open' with funded | dispatched | ⟨cancelled, advanced⟩ <;> simp_all [Proper]
    refine regular.rewrite id next rfl rfl rfl rfl placed
      ((regular.orders id).next deal ended (fun nonzero => ?_)) (fun pending => absurd pending left)
      deal (fun other told => ?_)
    · have closed := (regular.orders id).refund (refund ▸ nonzero)
      simp [status, closed]
    · rcases told with ⟨packet, member, ref⟩ | delivery
      · rw [List.mem_append, List.mem_singleton] at member
        rcases member with earlier | rfl
        · exact .inl (.inl ⟨packet, earlier, ref⟩)
        · exact .inr ⟨(Ref.order.inj (message.ref.symm.trans ref)).symm, left⟩
      · exact .inl (.inr delivery)
  | delivers id next _ shares recipient placed deal why refund phase =>
    have proper := (regular.orders id).proper
    obtain ⟨status, _⟩ := phase_spec phase
    have live : (s.orders id).status ≠ .cancelled := by
      rcases why with ⟨_, open'⟩ | ⟨_, _, _, open'⟩ | ⟨_, open'⟩ <;>
        rcases open' with first | second <;> simp [*]
    have ended : Proper (s.orders id).kind next.phase := by
      rw [phase]
      simp only [Order.phase] at proper ⊢
      cases why with
      | sell sell open' =>
        rcases outcome : (s.orders id).outcome with _ | _ | _ | _ <;>
          rcases open' with dispatched | pending <;> simp_all [Proper]
      | void buy lane unanswered open' =>
        rcases open' with funded | dispatched <;> simp_all [Proper]
      | money lane open' =>
        rcases kind : (s.orders id).kind <;> rcases outcome : (s.orders id).outcome with _ | _ | _ | _ <;>
          rcases open' with returning | proceeds <;> simp_all [Proper]
    refine regular.rewrite id next rfl rfl rfl rfl placed
      ((regular.orders id).next deal ended ((regular.orders id).waits refund live))
      (fun pending => by simp [status] at pending) deal (fun other told => ?_)
    rcases told with packet | ⟨d, member, ref⟩
    · exact .inl (.inl packet)
    · rw [List.mem_append, List.mem_singleton] at member
      rcases member with earlier | rfl
      · exact .inl (.inr ⟨d, earlier, ref⟩)
      · exact .inr ⟨(Ref.order.inj ref).symm, by simp [status]⟩
  | bought id r _ next _ _ _ _ placed _ _ _ deal buy refund open' =>
    have was := (regular.orders id)
    rcases open' with ⟨open', phase⟩ | ⟨cancelled, advanced, none, phase⟩
    · have live : (s.orders id).status ≠ .cancelled := by
        rcases open' with ⟨_, dispatched | ⟨_, escalated⟩⟩ <;> simp [*]
      refine regular.rewrite id next rfl rfl rfl rfl placed (was.next deal ?_ (was.waits refund live))
        (fun pending => by simp [(phase_spec phase).1] at pending) deal
        (fun _ told => .inl told)
      rw [phase, buy]
      exact (answered_proper was.proper).1 buy open' _
    · refine regular.rewrite id next rfl rfl rfl rfl placed
        (was.next deal ?_ (fun _ => (phase_spec phase).1))
        (fun pending => by simp [(phase_spec phase).1] at pending) deal
        (fun _ told => .inl told)
      rw [phase, buy]
      exact rfl
  | sold id r _ next _ placed _ _ _ deal sell none open' refund phase =>
    have was := (regular.orders id)
    obtain ⟨status, _⟩ := phase_spec phase
    have live : (s.orders id).status ≠ .cancelled := by
      rcases open' with dispatched | pending | escalated <;> simp [*]
    refine regular.rewrite id next rfl rfl rfl rfl placed (was.next deal ?_ (was.waits refund live))
      (fun pending => ?_) deal (fun _ told => .inl told)
    · rw [phase, sell]
      split
      · trivial
      · exact ((answered_proper was.proper).2.2 sell open' none _).1
    · rw [status] at pending
      split at pending <;> cases pending
  | buyFailed id r _ next _ placed _ _ _ deal buy open' refund =>
    have was := (regular.orders id)
    rcases open' with ⟨open', phase⟩ | ⟨cancelled, advanced, none, phase⟩
    · have live : (s.orders id).status ≠ .cancelled := by
        rcases open' with ⟨_, dispatched | ⟨_, escalated⟩⟩ | pending <;> simp [*]
      refine regular.rewrite id next rfl rfl rfl rfl placed (was.next deal ?_ (was.waits refund live))
        (fun pending => by simp [(phase_spec phase).1] at pending) deal
        (fun _ told => .inl told)
      rw [phase, buy]
      exact (answered_proper was.proper).2.1 buy open' _
    · refine regular.rewrite id next rfl rfl rfl rfl placed
        (was.next deal ?_ (fun _ => (phase_spec phase).1))
        (fun pending => by simp [(phase_spec phase).1] at pending) deal
        (fun _ told => .inl told)
      rw [phase, buy]
      trivial
  | sellFailed id r _ next _ _ placed _ _ _ deal sell open' refund phase =>
    have was := (regular.orders id)
    have proper := was.proper
    have none : (s.orders id).outcome = none := by
      rcases open' with ⟨none, _⟩ | pending
      · exact none
      · simp only [Order.phase, sell, pending] at proper
        rcases outcome : (s.orders id).outcome with _ | _ | _ | _ <;> simp_all [Proper]
    refine regular.rewrite id next rfl rfl rfl rfl placed
      (was.next deal ?_ (fun _ => (phase_spec phase).1))
      (fun pending => by simp [(phase_spec phase).1] at pending) deal
      (fun _ told => .inl told)
    rw [phase, sell]
    refine ((answered_proper proper).2.2 sell ?_ none _).2
    tauto
  | withdrawn id next _ _ placed deal buy _ pending phase =>
    have was := (regular.orders id)
    have proper := was.proper
    refine regular.rewrite id next rfl rfl rfl rfl placed
      (was.next deal ?_ (fun _ => (phase_spec phase).1)) (fun _ => pending) deal
      (fun _ told => .inl told)
    rw [phase]
    simp only [Order.phase, buy, pending] at proper ⊢
    cases outcome : (s.orders id).outcome <;> simp_all [Proper]

/-- Orders are only added. -/
theorem Moves.grows (moves : Moves c p action s after) : s.orderCount ≤ after.orderCount := by
  induction moves with
  | refl => exact le_rfl
  | tail _ move ih =>
    refine ih.trans ?_
    cases move <;> simp

theorem Moves.regular (regular : Regular s) (moves : Moves c p action s after) : Regular after := by
  induction moves with
  | refl => exact regular
  | tail _ move ih => exact move_regular ih move

end Solonpad.Hub
