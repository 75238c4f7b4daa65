import Solonpad.RoundChain

/-!
What a turn of the contracts leaves. An order is with one adapter for one round, an adapter that has started it knows
it, and what its hub has for it goes only when its round takes its result.
-/

namespace Solonpad.RoundChain

open Checked Rounds
open Chain (Address)
open Hub (RoundOrderId)
open StockAdapter (SignedQuote)

variable {V : Type} {y : System V} {s after : State V} {before next : Store}

/-- The order was handed to the adapter for the round. -/
structure At (s : Store) (r : RoundId) (a : Address) (id : RoundOrderId) : Prop where
  started : (s.rounds r).status.started = true
  adapter : (s.rounds r).adapter = a
  order : (s.rounds r).orderId = id

theorem At.later {r : RoundId} {a : Address} {id : RoundOrderId} (held : At before r a id)
    (later : Later before next) : At next r a id := by
  have known : (before.rounds r).status ≠ .none := by
    intro none
    have started := held.started
    rw [none] at started
    cases started
  obtain ⟨adapter, order⟩ := (later.rounds r).order known
  exact ⟨Status.started_stays held.started (later.rounds r).status, adapter.trans held.adapter,
    order.trans held.order⟩

/-- What one call of the manager leaves outside it. -/
structure Outward (y : System V) (s after : State V) : Prop where
  adapters : ∀ a, StockAdapter.Onward (s.world.2.adapters a) (after.world.2.adapters a)
  ready : ∀ a id, y.ready s.world.2.rest a id → y.ready after.world.2.rest a id ∨
    ∃ r, At s.store r a id ∧ (after.store.rounds r).status.final = true
  begins : ∀ r a id, At after.store r a id → At s.store r a id ∨
    (s.world.2.adapters a).state id = .none ∧ (after.world.2.adapters a).state id ≠ .none ∧
      ∀ t, At after.store t a id → t = r ∨ At s.store t a id

theorem Outward.still (outside : Onward y s.world.2 after.world.2)
    (back : ∀ r a id, At after.store r a id → At s.store r a id) : Outward y s after where
  adapters := outside.adapters
  ready a id held := .inl (outside.ready a id held)
  begins r a id held := .inl (back r a id held)

/-- A round is rewritten that had started before. -/
theorem at_back {id : RoundId} {new : Round} (rounds : next.rounds = Function.update before.rounds id new)
    (started : new.status.started = true → (before.rounds id).status.started = true)
    (adapter : new.adapter = (before.rounds id).adapter) (order : new.orderId = (before.rounds id).orderId)
    (r : RoundId) (a : Address) (o : RoundOrderId) (held : At next r a o) : At before r a o := by
  obtain ⟨begun, place, own⟩ := held
  rw [rounds] at begun place own
  by_cases same : r = id
  · subst same
    rw [Function.update_self] at begun place own
    exact ⟨started begun, adapter.symm.trans place, order.symm.trans own⟩
  · rw [Function.update_of_ne same] at begun place own
    exact ⟨begun, place, own⟩

theorem at_same (rounds : next.rounds = before.rounds) (r : RoundId) (a : Address) (o : RoundOrderId)
    (held : At next r a o) : At before r a o := by
  obtain ⟨begun, place, own⟩ := held
  rw [rounds] at begun place own
  exact ⟨begun, place, own⟩

section Peers

variable {x : Peers (World V)} {now : Nat} {quote : SignedQuote} {before next st : Store} {w w' : World V}
  {a : Address} {id : RoundOrderId}

theorem put_onward {adapter : StockAdapter.State} {rest : V} (own : StockAdapter.Onward (w.2.adapters a) adapter)
    (kept : Keeps y.ready w.2.rest rest) : Onward y w.2 (put w a adapter rest).2 :=
  ⟨onward_update own, kept⟩

theorem Beside.onward (beside : Beside y st w w') : Onward y w.2 w'.2 := beside.aside.onward

theorem submit_onward (served : Served y x now quote before next) (done : x.submit w a id = .ok w') :
    Onward y w.2 w'.2 := by
  obtain ⟨middle, adapter, rest, first, called, second⟩ := served.submit _ _ _ _ done
  obtain ⟨own, sent⟩ := StockAdapter.submit_ok called
  exact (first.onward.trans (put_onward own (y.results.submitFundedBuy _ _ _ _ sent))).trans second.onward

theorem requestCancel_onward (served : Served y x now quote before next) (done : x.requestCancel w a id = .ok w') :
    Onward y w.2 w'.2 := by
  obtain ⟨middle, adapter, rest, first, ⟨rfl, called⟩, second⟩ := served.requestCancel _ _ _ _ done
  have sent := StockAdapter.requestCancel_ok called
  exact (first.onward.trans (put_onward (.refl _) (y.results.requestCancel _ _ _ _ sent))).trans second.onward

/-- The order was new to its adapter and has started there, by its own quote. -/
theorem startFunding_onward {budget minRaw deadline : Nat} (served : Served y x now quote before next)
    (done : x.startFunding w a id budget minRaw deadline = .ok w') :
    Onward y w.2 w'.2 ∧ quote.orderId = id ∧ (w.2.adapters a).state id = .none ∧
      (w'.2.adapters a).state id ≠ .none := by
  obtain ⟨middle, adapter, rest, first, called, second⟩ := served.startFunding _ _ _ _ _ _ _ done
  obtain ⟨own, fresh, begun, onward, sent⟩ := StockAdapter.startFunding_ok called
  refine ⟨(first.onward.trans (put_onward onward (y.results.beginFunding _ _ _ _ _ _ _ sent))).trans second.onward,
    own, ?_, ?_⟩
  · by_contra held
    exact (first.onward.adapters a).started id held fresh
  · apply (second.onward.adapters a).started id
    simp only [put, Function.update_self]
    exact begun

/-- A claim takes what the hub has for its own order only, and finds it when it is there. -/
theorem consumeResult_outside {outcome raw refund : Nat} (served : Served y x now quote before next)
    (done : x.consumeResult w a id = .ok (w', outcome, raw, refund)) :
    (∀ other, StockAdapter.Onward (w.2.adapters other) (w'.2.adapters other)) ∧
      (∀ other order, (other, order) ≠ (a, id) → y.ready w.2.rest other order → y.ready w'.2.rest other order) ∧
      (y.ready w.2.rest a id → outcome ≠ 0) := by
  obtain ⟨middle, adapter, rest, first, called, second⟩ := served.consumeResult _ _ _ _ _ _ _ done
  obtain ⟨own, claimed, given, owed, claim, delivered, sent, paid⟩ := StockAdapter.consumeResult_ok called
  obtain ⟨answer, others⟩ := y.results.claimed _ _ _ _ _ _ _ claim
  have forwarded : Keeps y.ready claimed delivered := by
    rcases sent with rfl | ⟨_, sent⟩
    · exact .refl _ _
    · exact y.results.safeTransfer _ _ _ _ sent
  have refunded : Keeps y.ready delivered rest := by
    rcases paid with rfl | ⟨_, paid⟩
    · exact .refl _ _
    · exact y.results.pay _ _ _ _ paid
  refine ⟨?_, ?_, fun held => answer.mpr (first.aside.ready a id held)⟩
  · intro other
    exact ((first.onward.adapters other).trans (onward_update own other)).trans (second.onward.adapters other)
  · intro other order different held
    have taken := others other order different (first.aside.ready other order held)
    exact second.aside.ready other order (refunded other order (forwarded other order taken))

theorem recordParts_onward (served : Served y x now quote before next) (parts : List Part) {paid : State V}
    {s : State V} (recorded : recordParts x parts s = .ok paid) : Onward y s.world.2 paid.world.2 := by
  induction parts generalizing s with
  | nil =>
    cases recorded
    exact .refl _
  | cons part rest ih =>
    simp only [recordParts, bind_ok] at recorded
    obtain ⟨world, delivered, recorded⟩ := recorded
    exact (served.recordDelivery _ _ _ _ delivered).onward.trans (ih recorded)

theorem told_outside {told : Store} {r : RoundId} (served : Served y x now quote before next)
    (done : x.onRoundFinalized told w r = .ok w') : w'.2 = w.2 := by
  rw [served.told] at done
  simp only [bind_ok, pure_ok] at done
  obtain ⟨q, _, rfl⟩ := done
  rfl

end Peers

variable {x : Peers (World V)} {now : Nat} {quote : SignedQuote} {q next : Batcher.Store} {st : Store}

/-- A result that a round took is gone, and the round is at its end. -/
theorem Outward.took {r : RoundId} {o claimed : Outside V} (began : s.world.2 = o)
    (started : (s.store.rounds r).status.started = true) (final : (after.store.rounds r).status.final = true)
    (adapters : ∀ a, StockAdapter.Onward (o.adapters a) (claimed.adapters a))
    (others : ∀ other order, (other, order) ≠ ((s.store.rounds r).adapter, (s.store.rounds r).orderId) →
      y.ready o.rest other order → y.ready claimed.rest other order)
    (onward : Onward y claimed after.world.2)
    (back : ∀ r a id, At after.store r a id → At s.store r a id) : Outward y s after := by
  subst began
  refine ⟨fun a => (adapters a).trans (onward.adapters a), ?_, fun r a id held => .inl (back r a id held)⟩
  intro a id held
  by_cases own : (a, id) = ((s.store.rounds r).adapter, (s.store.rounds r).orderId)
  · cases own
    exact .inr ⟨r, ⟨started, rfl, rfl⟩, final⟩
  · exact .inl (onward.ready a id (others a id own held))

theorem move_outward (spares : Spares y.purses x) (served : Served y x now quote s.store after.store)
    (move : Move y.manager y.purses x now s after) : Outward y s after := by
  cases move with
  | wires wired =>
    refine .still (.refl _) (at_same ?_)
    rw [wired]
  | seals answer received registered =>
    exact .still ((served.sealReward _ _ _ _ _ _ _ _ answer).onward.trans
      (served.registerAllocation _ _ _ _ _ registered).onward) (at_same rfl)
  | @reserves policy route minRaw deadline items first store _ routed minimum some taken costs reserved =>
    refine .still (served.reserveFor _ _ _ _ _ reserved).onward ?_
    intro r a id held
    obtain ⟨begun, place, own⟩ := held
    simp only [Store.linked, Store.setRound] at begun place own
    by_cases same : r = s.store.nextRoundId + 1
    · -- The new round is reserved.
      rw [same, Function.update_self] at begun
      cases begun
    · rw [Function.update_of_ne same, taken.others r same] at begun place own
      simp only [Store.opened, Store.setRound, Function.update_of_ne same] at begun place own
      exact ⟨begun, place, own⟩
  | @starts id _ status sent =>
    obtain ⟨onward, _, fresh, begun⟩ := startFunding_onward served sent
    refine ⟨onward.adapters, fun a o held => .inl (onward.ready a o held), ?_⟩
    have others : ∀ r a o, At (s.store.started id) r a o → r = id ∨ At s.store r a o := by
      intro r a o held
      by_cases same : r = id
      · exact .inl same
      · obtain ⟨begun, place, own⟩ := held
        simp only [Store.started, Store.setStatus, Store.setRound, Function.update_of_ne same] at begun place own
        exact .inr ⟨begun, place, own⟩
    intro r a o held
    rcases others r a o held with rfl | before
    · obtain ⟨_, place, own⟩ := held
      simp only [Store.started, Store.setStatus, Store.setRound, Function.update_self] at place own
      subst place own
      exact .inr ⟨fresh, begun, fun t held => others t _ _ held⟩
    · exact .inl before
  | @pokes id status funded =>
    refine .still (.refl _) (at_back rfl ?_ rfl rfl)
    intro _
    rcases status with status | ⟨status, _⟩ <;> rw [status] <;> rfl
  | @submits id _ status sent =>
    refine .still (submit_onward served sent) (at_back rfl ?_ rfl rfl)
    intro _
    rw [status]
    rfl
  | @cancels id world _ status covered released told =>
    have kept := told_outside served told
    refine .still ?_ (at_back rfl (fun held => by cases held) rfl rfl)
    dsimp only
    rw [kept]
    exact (served.releaseUnsent _ _ _ released).onward
  | @requests id _ status sent =>
    exact .still (requestCancel_onward served sent) (at_back rfl (fun held => held) rfl rfl)
  | @waits id _ status consumed =>
    obtain ⟨adapters, others, found⟩ := consumeResult_outside served consumed.answer
    refine .still ⟨adapters, ?_⟩ fun _ _ _ held => held
    intro a o held
    by_cases own : (a, o) = ((s.store.rounds id).adapter, (s.store.rounds id).orderId)
    · cases own
      exact absurd rfl (found held)
    · exact others a o own held
  | @refunds id consumed returned _ status covered answer back released told =>
    obtain ⟨adapters, others, _⟩ := consumeResult_outside served answer.answer
    have kept := told_outside served told
    refine .took (r := id) rfl status.started ?_ adapters others ?_ (at_back rfl (fun _ => status.started) rfl rfl)
    · simp only [Store.closed, Store.setRound, Function.update_self]
      rfl
    · dsimp only
      rw [kept]
      exact (served.returnRefund _ _ _ back).onward
  | @settles id raw consumed _ parts paid status sent enough covered answer recorded released told =>
    obtain ⟨adapters, others, _⟩ := consumeResult_outside served answer.answer
    have kept := told_outside served told
    obtain ⟨store, _⟩ := recordParts_ok spares parts recorded
    have rounds : paid.store.rounds = Function.update s.store.rounds id { s.store.rounds id with
        delivered := raw, status := .settled } := by
      rw [store]
      rfl
    refine .took (r := id) rfl status.started ?_ adapters others ?_
      (at_back rounds (fun _ => status.started) rfl rfl)
    · dsimp only
      rw [rounds, Function.update_self]
      rfl
    · dsimp only
      rw [kept]
      exact recordParts_onward served parts recorded
  | @orphans id raw consumed _ status first answer sent =>
    obtain ⟨adapters, others, _⟩ := consumeResult_outside served answer.answer
    refine .took (r := id) rfl ?_ ?_ adapters others (served.sendOrphan _ _ _ _ _ sent).onward (at_same rfl)
    · rw [status]
      rfl
    · dsimp only
      rw [status]
      rfl

/-! The books, the queues and the orders together. -/

structure Known (s : State V) : Prop where
  begun : ∀ r a id, At s.store r a id → (s.world.2.adapters a).state id ≠ .none
  apart : ∀ r t a id, At s.store r a id → At s.store t a id → r = t

theorem Known.outward (known : Known s) (out : Outward y s after) : Known after where
  begun r a id held := by
    rcases out.begins r a id held with before | ⟨_, begun, _⟩
    · exact (out.adapters a).started id (known.begun r a id before)
    · exact begun
  apart r t a id first second := by
    rcases out.begins r a id first with before | ⟨fresh, _, only⟩
    · rcases out.begins t a id second with earlier | ⟨fresh, _, _⟩
      · exact known.apart r t a id before earlier
      · exact absurd fresh (known.begun r a id before)
    · rcases only t second with same | earlier
      · exact same.symm
      · exact absurd fresh (known.begun t a id earlier)

theorem Known.onward (known : Known s) (started : ∀ a id, (s.world.2.adapters a).state id ≠ .none →
    (after.world.2.adapters a).state id ≠ .none) (store : after.store = s.store) : Known after where
  begun r a id held := started a id (known.begun r a id (store ▸ held))
  apart r t a id first second := known.apart r t a id (store ▸ first) (store ▸ second)

structure Chained (y : System V) (s : State V) : Prop where
  kept : Batcher.Kept y.outer s
  calm : Calm s.store
  known : Known s

theorem deployed_chained (rest : V) : Chained y (deployed rest) where
  kept := ⟨Sound.start y.purses _, Batcher.deployed_queued _ _⟩
  calm := .empty
  known := ⟨fun _ _ _ held => absurd held.started nofun, fun _ _ _ _ held => absurd held.started nofun⟩

theorem move_chained (spares : Spares y.purses x) (served : Served y x now quote s.store after.store)
    (chained : Chained y s) (clock : 0 < now) (move : Move y.manager y.purses x now s after) : Chained y after where
  kept := ⟨move_sound spares chained.kept.sound move,
    Batcher.move_queued move spares served.joined chained.kept.sound.booked chained.kept.queued⟩
  calm := chained.calm.later (move_later spares chained.kept.sound.booked chained.calm clock move)
  known := chained.known.outward (move_outward spares served move)

/-! The queues. -/

/-- Queues that only go on. -/
structure Ahead (q next : Batcher.Store) : Prop where
  nextToEnqueue : q.nextToEnqueue ≤ next.nextToEnqueue
  cursor : ∀ group, q.cursor group ≤ next.cursor group

theorem Ahead.refl (q : Batcher.Store) : Ahead q q := ⟨Nat.le_refl _, fun _ => Nat.le_refl _⟩

theorem Ahead.trans {middle : Batcher.Store} (first : Ahead q middle) (second : Ahead middle next) : Ahead q next :=
  ⟨first.nextToEnqueue.trans second.nextToEnqueue, fun group => (first.cursor group).trans (second.cursor group)⟩

theorem enqueue_ahead {id : EntryId} (taken : Batcher.enqueue st q id = .ok next) :
    Ahead q next ∧ next.nextToEnqueue = id + 1 := by
  simp only [Batcher.enqueue, bind_ok, require_ok, pure_ok] at taken
  obtain ⟨_, ⟨rfl, _⟩, rfl⟩ := taken
  exact ⟨⟨Nat.le_succ _, fun _ => Nat.le_refl _⟩, rfl⟩

theorem le_pass (st : Store) (queue : List EntryId) (n head : Nat) : head ≤ Batcher.pass st queue n head := by
  induction n generalizing head with
  | zero => exact Nat.le_refl _
  | succ n ih =>
    unfold Batcher.pass
    split
    · exact Nat.le_refl _
    · split
      · exact (Nat.le_succ _).trans (ih _)
      · exact Nat.le_refl _

theorem advance_ahead {group : Policy} {max : Nat} (taken : Batcher.advance st q group max = .ok next) :
    Ahead q next := by
  simp only [Batcher.advance, bind_ok, require_ok, pure_ok] at taken
  obtain ⟨_, _, rfl⟩ := taken
  refine ⟨Nat.le_refl _, ?_⟩
  intro other
  dsimp only
  by_cases same : other = group
  · subst same
    rw [Function.update_self]
    exact le_pass ..
  · rw [Function.update_of_ne same]

theorem calls_ahead (calls : Batcher.Calls st q next) : Ahead q next := by
  induction calls with
  | refl => exact .refl _
  | enqueue _ id taken ih => exact ih.trans (enqueue_ahead taken).1
  | advance _ group max taken ih => exact ih.trans (advance_ahead taken)

theorem restore_places (st : Store) (q : Batcher.Store) (id : EntryId) :
    (Batcher.restore st q id).queueIndex = q.queueIndex ∧
      (Batcher.restore st q id).nextToEnqueue = q.nextToEnqueue := by
  unfold Batcher.restore
  split
  · exact ⟨rfl, rfl⟩
  · dsimp only
    split <;> exact ⟨rfl, rfl⟩

theorem told_places (items : List Slice) (taken : Batcher.onRoundFinalized st items q = .ok next) :
    next.queueIndex = q.queueIndex ∧ next.nextToEnqueue = q.nextToEnqueue := by
  induction items generalizing q with
  | nil =>
    cases taken
    exact ⟨rfl, rfl⟩
  | cons slice rest ih =>
    simp only [Batcher.onRoundFinalized, bind_ok, require_ok] at taken
    obtain ⟨_, _, taken⟩ := taken
    obtain ⟨index, count⟩ := ih taken
    obtain ⟨index', count'⟩ := restore_places st q slice.entryId
    exact ⟨index.trans index', count.trans count'⟩

/-- A closed round moves a cursor back to an entry it frees, and no further. -/
theorem told_cursor {group : Policy} {target : Nat} (items : List Slice)
    (taken : Batcher.onRoundFinalized st items q = .ok next)
    (spared : ∀ slice ∈ items, Batcher.Fundable st slice.entryId → Batcher.groupKey st slice.entryId = group →
      target ≤ q.queueIndex slice.entryId)
    (passed : target ≤ q.cursor group) : target ≤ next.cursor group := by
  induction items generalizing q with
  | nil =>
    cases taken
    exact passed
  | cons slice rest ih =>
    simp only [Batcher.onRoundFinalized, bind_ok, require_ok] at taken
    obtain ⟨_, _, taken⟩ := taken
    have restored : target ≤ (Batcher.restore st q slice.entryId).cursor group := by
      unfold Batcher.restore
      split
      · exact passed
      · next ready =>
        dsimp only
        split
        · by_cases same : group = Batcher.groupKey st slice.entryId
          · subst same
            dsimp only
            rw [Function.update_self]
            exact spared slice List.mem_cons_self ⟨by omega, by omega⟩ rfl
          · dsimp only
            rwa [Function.update_of_ne same]
        · exact passed
    apply ih taken _ restored
    intro other member ready own
    rw [(restore_places st q slice.entryId).1]
    exact spared other (List.mem_cons_of_mem _ member) ready own

/-- The rounds that close free no entry of the group before a place in its queue. -/
def Spared (s after : State V) (group : Policy) (target : Nat) : Prop :=
  ∀ r, (s.store.rounds r).status.live = true → (after.store.rounds r).status.live = false →
    ∀ slice ∈ after.store.slices r, Batcher.Fundable after.store slice.entryId →
      Batcher.groupKey after.store slice.entryId = group → target ≤ after.world.1.queueIndex slice.entryId

section Queues

variable {group : Policy} {target : Nat}

theorem told_passed {r : RoundId} {w : World V} (served : Served y x now quote s.store after.store)
    (told : x.onRoundFinalized after.store w r = .ok after.world) (live : (s.store.rounds r).status.live = true)
    (closed : (after.store.rounds r).status.live = false) (spared : Spared s after group target)
    (passed : target ≤ w.1.cursor group) : target ≤ after.world.1.cursor group := by
  rw [served.told] at told
  simp only [bind_ok, pure_ok] at told
  obtain ⟨q, restored, same⟩ := told
  have index : after.world.1.queueIndex = w.1.queueIndex := by
    rw [← same]
    exact (told_places _ restored).1
  rw [← same]
  apply told_cursor _ restored _ passed
  intro slice member ready own
  exact index ▸ spared r live closed slice member ready own

theorem told_next {st : Store} {r : RoundId} {w w' : World V} {before next : Store}
    (served : Served y x now quote before next) (told : x.onRoundFinalized st w r = .ok w') :
    w'.1.nextToEnqueue = w.1.nextToEnqueue := by
  rw [served.told] at told
  simp only [bind_ok, pure_ok] at told
  obtain ⟨q, restored, rfl⟩ := told
  exact (told_places _ restored).2

theorem recordParts_ahead {before next : Store} (served : Served y x now quote before next) (parts : List Part)
    {s paid : State V} (recorded : recordParts x parts s = .ok paid) : Ahead s.world.1 paid.world.1 := by
  induction parts generalizing s with
  | nil =>
    cases recorded
    exact .refl _
  | cons part rest ih =>
    simp only [recordParts, bind_ok] at recorded
    obtain ⟨world, delivered, recorded⟩ := recorded
    exact (calls_ahead (served.recordDelivery _ _ _ _ delivered).calls).trans (ih recorded)

/-- What a call of the manager leaves of the queues: they go on, but for the rounds it closes. -/
theorem move_queue (spares : Spares y.purses x) (served : Served y x now quote s.store after.store)
    (move : Move y.manager y.purses x now s after) : s.world.1.nextToEnqueue ≤ after.world.1.nextToEnqueue ∧
      ∀ group target, Spared s after group target → target ≤ s.world.1.cursor group →
        target ≤ after.world.1.cursor group := by
  have on : Ahead s.world.1 after.world.1 → s.world.1.nextToEnqueue ≤ after.world.1.nextToEnqueue ∧
      ∀ group target, Spared s after group target → target ≤ s.world.1.cursor group →
        target ≤ after.world.1.cursor group :=
    fun ahead => ⟨ahead.nextToEnqueue, fun group _ _ passed => passed.trans (ahead.cursor group)⟩
  cases move with
  | wires wired => exact on (.refl _)
  | seals answer received registered =>
    exact on ((calls_ahead (served.sealReward _ _ _ _ _ _ _ _ answer).calls).trans
      (calls_ahead (served.registerAllocation _ _ _ _ _ registered).calls))
  | reserves routed minimum some taken costs reserved =>
    exact on (calls_ahead (served.reserveFor _ _ _ _ _ reserved).calls)
  | starts status sent => exact on (calls_ahead (served.startFunding _ _ _ _ _ _ _ sent).calls)
  | pokes status funded => exact on (.refl _)
  | submits status sent => exact on (calls_ahead (served.submit _ _ _ _ sent).calls)
  | @cancels id world _ status covered released told =>
    have ahead := calls_ahead (served.releaseUnsent _ _ _ released).calls
    refine ⟨ahead.nextToEnqueue.trans (told_next served told).ge, fun group target spared passed => ?_⟩
    refine told_passed served told ?_ ?_ spared (passed.trans (ahead.cursor group))
    · rw [status]
      rfl
    · simp only [Store.closed, Store.setStatus, Store.setRound, Function.update_self]
      rfl
  | requests status sent => exact on (calls_ahead (served.requestCancel _ _ _ _ sent).calls)
  | waits status consumed => exact on (calls_ahead (served.consumeResult _ _ _ _ _ _ _ consumed.answer).calls)
  | @refunds id consumed returned _ status covered answer back released told =>
    have ahead := (calls_ahead (served.consumeResult _ _ _ _ _ _ _ answer.answer).calls).trans
      (calls_ahead (served.returnRefund _ _ _ back).calls)
    refine ⟨ahead.nextToEnqueue.trans (told_next served told).ge, fun group target spared passed => ?_⟩
    refine told_passed served told status.live ?_ spared (passed.trans (ahead.cursor group))
    simp only [Store.closed, Store.setRound, Function.update_self]
    rfl
  | @settles id raw consumed _ parts paid status sent enough covered answer recorded released told =>
    have ahead := (calls_ahead (served.consumeResult _ _ _ _ _ _ _ answer.answer).calls).trans
      (recordParts_ahead served parts recorded)
    obtain ⟨store, _⟩ := recordParts_ok spares parts recorded
    refine ⟨ahead.nextToEnqueue.trans (told_next served told).ge, fun group target spared passed => ?_⟩
    refine told_passed served told status.live ?_ spared (passed.trans (ahead.cursor group))
    dsimp only
    rw [store]
    simp only [Store.closed, Store.setRound, Function.update_self]
    rfl
  | orphans status first answer sent =>
    exact on ((calls_ahead (served.consumeResult _ _ _ _ _ _ _ answer.answer).calls).trans
      (calls_ahead (served.sendOrphan _ _ _ _ _ sent).calls))

end Queues

/-! A turn. -/

/-- What a turn leaves, of the fees of the orders that are watched and the places in the queues that are spared. -/
structure Moved (y : System V) (watched : Address → RoundOrderId → Prop) (spared : Policy → Nat → Prop)
    (s after : State V) : Prop where
  chained : Chained y after
  later : Later s.store after.store
  started : ∀ a id, (s.world.2.adapters a).state id ≠ .none → (after.world.2.adapters a).state id ≠ .none
  fees : ∀ a id, watched a id → (after.world.2.adapters a).state id = .none →
    (s.world.2.adapters a).feeBalance id ≤ (after.world.2.adapters a).feeBalance id
  ready : ∀ a id, y.ready s.world.2.rest a id → y.ready after.world.2.rest a id ∨
    ∃ r, At s.store r a id ∧ (after.store.rounds r).status.final = true
  next : s.world.1.nextToEnqueue ≤ after.world.1.nextToEnqueue
  cursor : ∀ group target, spared group target → target ≤ s.world.1.cursor group →
    target ≤ after.world.1.cursor group

variable {watched : Address → RoundOrderId → Prop} {spared : Policy → Nat → Prop}

theorem Moved.of_move (spares : Spares y.purses x) (served : Served y x now quote s.store after.store)
    (chained : Chained y s) (clock : 0 < now) (move : Move y.manager y.purses x now s after)
    (cursor : ∀ group target, spared group target → target ≤ s.world.1.cursor group →
      target ≤ after.world.1.cursor group) : Moved y watched spared s after where
  chained := move_chained spares served chained clock move
  later := move_later spares chained.kept.sound.booked chained.calm clock move
  started a := ((move_outward spares served move).adapters a).started
  fees a id _ := ((move_outward spares served move).adapters a).fees id
  ready := (move_outward spares served move).ready
  next := (move_queue spares served move).1
  cursor := cursor

/-- A turn in which the manager's storage stands still. -/
theorem Moved.of_still {q : Batcher.Store} {o : Outside V} (chained : Chained y s)
    (turn : Batcher.Turn y.manager y.outer y.self s ⟨s.store, (q, o)⟩) (ahead : Ahead s.world.1 q)
    (started : ∀ a id, (s.world.2.adapters a).state id ≠ .none → (o.adapters a).state id ≠ .none)
    (fees : ∀ a id, watched a id → (o.adapters a).state id = .none →
      (s.world.2.adapters a).feeBalance id ≤ (o.adapters a).feeBalance id)
    (ready : Keeps y.ready s.world.2.rest o.rest) : Moved y watched spared s ⟨s.store, (q, o)⟩ where
  chained := ⟨Batcher.turn_kept chained.kept turn, chained.calm, chained.known.onward started rfl⟩
  later := .refl _
  started := started
  fees := fees
  ready a id held := .inl (ready a id held)
  next := ahead.nextToEnqueue
  cursor group _ _ passed := passed.trans (ahead.cursor group)

theorem reserveBatch_ahead {env : Env} {ids amounts : List Nat} {minRaw deadline : Nat}
    (served : Served y x now quote s.store after.store)
    (done : reserveBatch y.manager x s env ids amounts minRaw deadline = .ok after) : Ahead s.world.1 after.world.1 := by
  simp only [reserveBatch, bind_ok, require_ok, pure_ok] at done
  obtain ⟨_, _, _, _, _, _, _, _, _, _, _, _, _, _, world, reserved, rfl⟩ := done
  exact calls_ahead (served.reserveFor _ _ _ _ _ reserved).calls

theorem start_ahead {env : Env} {id : RoundId} (served : Served y x now quote s.store after.store)
    (done : start x s env id = .ok after) : Ahead s.world.1 after.world.1 := by
  simp only [start, bind_ok, require_ok, pure_ok] at done
  obtain ⟨_, _, world, sent, rfl⟩ := done
  exact calls_ahead (served.startFunding _ _ _ _ _ _ _ sent).calls

end Solonpad.RoundChain
