import Solonpad.RoundManager

/-!
What one call of the round manager does: the loops over a round's slices in closed form, and then
one move for each way a call can change the store, with what its peers were asked for.
-/

namespace Solonpad.Rounds

open Checked
open Chain (Address)
open Hub (RoundOrderId)

/-! Slices. -/

/-- What a list of slices takes of an entry. -/
def share (items : List Slice) (e : EntryId) : Nat :=
  (items.map fun slice => if slice.entryId = e then slice.budget18 else 0).sum

@[simp]
theorem share_nil (e : EntryId) : share [] e = 0 := rfl

@[simp]
theorem share_cons (slice : Slice) (rest : List Slice) (e : EntryId) :
    share (slice :: rest) e = (if slice.entryId = e then slice.budget18 else 0) + share rest e := rfl

variable {items : List Slice} {id : RoundId} {amounts : List Nat}

theorem share_absent {e : EntryId} (absent : ∀ slice ∈ items, slice.entryId ≠ e) : share items e = 0 := by
  induction items with
  | nil => rfl
  | cons slice rest ih =>
    rw [share_cons, if_neg (absent slice (List.mem_cons_self ..)),
      ih (fun other member => absent other (List.mem_cons_of_mem _ member))]

/-- In a list of distinct entries each entry's share is its own slice. -/
theorem share_own (distinct : items.Pairwise fun a b => a.entryId ≠ b.entryId) {slice : Slice}
    (member : slice ∈ items) : share items slice.entryId = slice.budget18 := by
  induction items with
  | nil => cases member
  | cons head rest ih =>
    obtain ⟨apart, distinct⟩ := List.pairwise_cons.mp distinct
    rcases List.mem_cons.mp member with rfl | later
    · rw [share_cons, if_pos rfl, share_absent (fun other inside => (apart other inside).symm)]
      rfl
    · rw [share_cons, if_neg (apart slice later), ih distinct later, Nat.zero_add]

/-- The store once slices left or came back to their entries. -/
def Store.closed (s : Store) (refund : Bool) (items : List Slice) : Store :=
  { s with
    available := fun e => s.available e + if refund then share items e else 0
    pending := fun e => s.pending e - share items e }

theorem closeSlices_ok (refund : Bool) (items : List Slice) {s after : Store}
    (done : closeSlices refund items s = .ok after) :
    after = s.closed refund items ∧ ∀ e, share items e ≤ s.pending e := by
  induction items generalizing s with
  | nil =>
    cases done
    simp [Store.closed]
  | cons slice rest ih =>
    simp only [closeSlices, bind_ok, sub_ok] at done
    obtain ⟨_, ⟨held, rfl⟩, done⟩ := done
    obtain ⟨rfl, covered⟩ := ih done
    constructor
    · simp only [Store.closed, share_cons]
      congr 1
      · funext e
        by_cases same : slice.entryId = e
        · subst same
          cases refund <;> simp [Nat.add_assoc]
        · simp [same, Function.update_of_ne (Ne.symm same)]
      · funext e
        by_cases same : slice.entryId = e
        · subst same
          simp [Nat.sub_sub]
        · simp [same, Function.update_of_ne (Ne.symm same)]
    · intro e
      have later := covered e
      rw [share_cons]
      by_cases same : slice.entryId = e
      · subst same
        simp only [Function.update_self] at later
        simp only [if_true]
        omega
      · simp only [Function.update_of_ne (Ne.symm same)] at later
        simp only [same, if_false]
        omega

/-! Reserving. -/

/-- The store once slices of `items` are reserved for a round. -/
structure Reserves (c : Config) (id : RoundId) (taken items : List Slice) (s after : Store) : Prop where
  available : ∀ e, after.available e + share items e = s.available e
  pending : ∀ e, after.pending e = s.pending e + share items e
  slices : after.slices = Function.update s.slices id (s.slices id ++ items)
  known : ∀ slice ∈ items, (s.entries slice.entryId).source ≠ 0
  positive : ∀ slice ∈ items, 0 < slice.budget18
  idle : ∀ slice ∈ items, s.pending slice.entryId = 0
  apart : ∀ slice ∈ items, ∀ earlier ∈ taken, earlier.entryId ≠ slice.entryId
  distinct : items.Pairwise fun a b => a.entryId ≠ b.entryId
  budget : (after.rounds id).budget18 =
    (s.rounds id).budget18 + (items.map Slice.budget18).sum
  hash : items ≠ [] → (after.rounds id).entriesHash = c.digest (taken ++ items)
  others : ∀ other, other ≠ id → after.rounds other = s.rounds other
  terms : (after.rounds id).asset = (s.rounds id).asset ∧
    (after.rounds id).adapter = (s.rounds id).adapter ∧
    (after.rounds id).minRawOut = (s.rounds id).minRawOut ∧
    (after.rounds id).deadline = (s.rounds id).deadline ∧
    (after.rounds id).status = (s.rounds id).status ∧
    (after.rounds id).submittedAt = (s.rounds id).submittedAt
  rest : after = { s with
    available := after.available, pending := after.pending, slices := after.slices
    rounds := after.rounds }

theorem reserveSlices_ok {c : Config} {first : EntryId} (items taken : List Slice) {s after : Store}
    (done : reserveSlices c id first taken items s = .ok after) : Reserves c id taken items s after := by
  induction items generalizing s taken with
  | nil =>
    cases done
    constructor <;> simp
  | cons slice rest ih =>
    simp only [reserveSlices, reserveSlice, bind_ok, require_ok, sub_ok, pure_ok] at done
    obtain ⟨_, ⟨_, ⟨known, _, positive, held, idle⟩, _, fresh, _, ⟨_, rfl⟩, rfl⟩, done⟩ := done
    have later := ih _ done
    have notAgain : ∀ other ∈ rest, slice.entryId ≠ other.entryId := by
      intro other member
      exact later.apart other member slice (List.mem_append_right _ (List.mem_singleton_self _))
    constructor
    · intro e
      have moved := later.available e
      rw [share_cons]
      by_cases same : slice.entryId = e
      · subst same
        simp only [Function.update_self] at moved
        simp only [if_true]
        omega
      · simp only [Function.update_of_ne (Ne.symm same)] at moved
        simp only [same, if_false]
        omega
    · intro e
      rw [later.pending e, share_cons]
      by_cases same : slice.entryId = e
      · subst same
        simp [Nat.add_assoc]
      · simp [same, Function.update_of_ne (Ne.symm same)]
    · rw [later.slices]
      simp
    · intro other member
      rcases List.mem_cons.mp member with rfl | inside
      · exact known
      · exact later.known other inside
    · intro other member
      rcases List.mem_cons.mp member with rfl | inside
      · exact positive
      · exact later.positive other inside
    · intro other member
      rcases List.mem_cons.mp member with rfl | inside
      · exact idle
      · have before := later.idle other inside
        simpa only [Function.update_of_ne (notAgain other inside).symm] using before
    · intro other member earlier before
      rcases List.mem_cons.mp member with rfl | inside
      · exact fresh earlier before
      · exact later.apart other inside earlier (List.mem_append_left _ before)
    · exact List.pairwise_cons.mpr ⟨notAgain, later.distinct⟩
    · rw [later.budget]
      simp [Nat.add_assoc]
    · intro _
      cases rest with
      | nil =>
        cases done
        simp
      | cons next others =>
        rw [later.hash (by simp)]
        simp
    · intro other ne
      rw [later.others other ne]
      simp [ne]
    · obtain ⟨asset, adapter, minimum, deadline, status, submitted⟩ := later.terms
      simp only [Function.update_self] at asset adapter minimum deadline status submitted
      exact ⟨asset, adapter, minimum, deadline, status, submitted⟩
    · rw [later.rest]

/-! Moves. -/

/-- The stores that differ in wiring only. -/
def Wired (s after : Store) : Prop :=
  after = { s with
    sourcePool := after.sourcePool, batcher := after.batcher, capacity := after.capacity
    sourceFactory := after.sourceFactory, deskModule := after.deskModule
    stakingModule := after.stakingModule
    rewardModulesConfigured := after.rewardModulesConfigured }

/-- The store once an entry is sealed. -/
def Store.sealed (s : Store) (key : Address × Nat × Nat) (entry : Entry) : Store :=
  { s with
    sealedSource := Function.update s.sealedSource key true
    nextEntryId := s.nextEntryId + 1
    entries := Function.update s.entries (s.nextEntryId + 1) entry
    available := Function.update s.available (s.nextEntryId + 1) entry.budget18 }

/-- The store once a round is opened, before it takes its slices. -/
def Store.opened (s : Store) (policy : Policy) (route : Route) (minRaw deadline count : Nat) : Store :=
  { s with nextRoundId := s.nextRoundId + 1 }.setRound (s.nextRoundId + 1)
    { s.rounds (s.nextRoundId + 1) with
      assetId := policy.assetId
      adapterVersion := policy.version
      asset := route.asset
      adapter := route.adapter
      minRawOut := minRaw
      deadline := deadline
      epochMin := 2 ^ 256 - 1
      entryCount := count }

/-- The order id a round with its slices gets. -/
def Store.orderFor (s : Store) (id : RoundId) (minRaw deadline : Nat) : RoundOrderId :=
  ⟨(s.rounds id).entriesHash, minRaw, deadline, s.executionNonce (s.rounds id).entriesHash⟩

/-- The store once a round with its slices gets its order id. -/
def Store.linked (s : Store) (id : RoundId) (orderId : RoundOrderId) : Store :=
  { s with orderRound := Function.update s.orderRound orderId id }.setRound id
    { s.rounds id with sourceNonce := orderId.sourceNonce, orderId := orderId, status := .reserved }

/-- The store once a round's order is on its way. -/
def Store.started (s : Store) (id : RoundId) : Store :=
  { s.setStatus id .funding with
    executionNonce := Function.update s.executionNonce (s.rounds id).entriesHash
      (s.executionNonce (s.rounds id).entriesHash + 1) }

/-- A final result was consumed: the outcome, the stock and the refund that reached the vault. -/
structure Consumed (b : Balances W) (x : Peers W) (r : Round) (world after : W)
    (outcome raw refund : Nat) : Prop where
  answer : x.consumeResult world r.adapter r.orderId = .ok (after, outcome, raw, refund)
  stock : b.stock after r.asset = b.stock world r.asset + raw
  native : b.vault after = b.vault world + refund

/-- A sent round that may still take a final result. -/
def Round.awaits (r : Round) : Prop :=
  r.status = .submitted ∨ r.status = .quarantined ∨ r.status = .funding ∨ r.status = .funded

inductive Move (c : Config) (b : Balances W) (x : Peers W) (now : Nat) (s : State W) :
    State W → Prop where
  | wires {store : Store} (wired : Wired s.store store) : Move c b x now s ⟨store, s.world⟩
  | seals {source asset : Address} {epoch cohort total kind : Nat} {entry : Entry} {world after : W}
      (answer : x.sealReward s.world source epoch cohort = .ok (world, entry.budget18, total, kind))
      (received : b.manager world = b.manager s.world + entry.budget18)
      (registered : x.registerAllocation world (s.store.nextEntryId + 1) entry asset = .ok after) :
      Move c b x now s ⟨s.store.sealed (source, epoch, cohort) entry, after⟩
  | reserves {policy : Policy} {route : Route} {minRaw deadline : Nat} {items : List Slice}
      {first : EntryId} {store : Store} {after : W}
      (routed : x.resolve s.world policy.assetId policy.version = .ok route)
      (minimum : 0 < minRaw) (some : items ≠ [])
      (taken : Reserves c (s.store.nextRoundId + 1) [] items
        (s.store.opened policy route minRaw deadline items.length) store)
      (costs : ∃ minimum limit, minimumBudget x ⟨store, s.world⟩ first = .ok minimum ∧
        runLimit x ⟨store, s.world⟩ = .ok limit ∧
        minimum ≤ (store.rounds (s.store.nextRoundId + 1)).budget18 ∧
        (store.rounds (s.store.nextRoundId + 1)).budget18 ≤ limit)
      (reserved : x.reserveFor s.world (store.orderFor (s.store.nextRoundId + 1) minRaw deadline)
        route.underlying (store.rounds (s.store.nextRoundId + 1)).budget18 = .ok after) :
      Move c b x now s ⟨store.linked (s.store.nextRoundId + 1)
        (store.orderFor (s.store.nextRoundId + 1) minRaw deadline), after⟩
  | starts {id : RoundId} {after : W} (status : (s.store.rounds id).status = .reserved)
      (sent : x.startFunding s.world (s.store.rounds id).adapter (s.store.rounds id).orderId
        (s.store.rounds id).budget18 (s.store.rounds id).minRawOut (s.store.rounds id).deadline =
          .ok after) :
      Move c b x now s ⟨s.store.started id, after⟩
  | pokes {id : RoundId} (status : (s.store.rounds id).status = .funding ∨
        (s.store.rounds id).status = .quarantined ∧ (s.store.rounds id).submittedAt = 0)
      (funded : x.funded s.world (s.store.rounds id).adapter (s.store.rounds id).orderId = .ok true) :
      Move c b x now s ⟨s.store.setStatus id .funded, s.world⟩
  | submits {id : RoundId} {after : W} (status : (s.store.rounds id).status = .funded)
      (sent : x.submit s.world (s.store.rounds id).adapter (s.store.rounds id).orderId = .ok after) :
      Move c b x now s
        ⟨s.store.setRound id { s.store.rounds id with status := .submitted, submittedAt := now }, after⟩
  | cancels {id : RoundId} {world after : W} (status : (s.store.rounds id).status = .reserved)
      (covered : ∀ e, share (s.store.slices id) e ≤ s.store.pending e)
      (released : x.releaseUnsent s.world (s.store.rounds id).orderId = .ok world)
      (told : x.onRoundFinalized
        ((s.store.setStatus id .cancelledUnsent).closed true (s.store.slices id)) world id = .ok after) :
      Move c b x now s
        ⟨(s.store.setStatus id .cancelledUnsent).closed true (s.store.slices id), after⟩
  | requests {id : RoundId} {after : W}
      (status : (s.store.rounds id).status = .submitted ∨ (s.store.rounds id).status = .quarantined)
      (sent : x.requestCancel s.world (s.store.rounds id).adapter (s.store.rounds id).orderId =
        .ok after) :
      Move c b x now s
        ⟨s.store.setRound id { s.store.rounds id with cancelRequested := true }, after⟩
  | waits {id : RoundId} {after : W}
      (status : (s.store.rounds id).awaits)
      (consumed : Consumed b x (s.store.rounds id) s.world after 0 0 0) :
      Move c b x now s ⟨s.store, after⟩
  | refunds {id : RoundId} {consumed returned after : W}
      (status : (s.store.rounds id).awaits)
      (covered : ∀ e, share (s.store.slices id) e ≤ s.store.pending e)
      (answer : Consumed b x (s.store.rounds id) s.world consumed 2 0 (s.store.rounds id).budget18)
      (back : x.returnRefund consumed (s.store.rounds id).budget18 = .ok returned)
      (released : x.releaseFinalized returned (s.store.rounds id).orderId = .ok ())
      (told : x.onRoundFinalized ((s.store.setRound id { s.store.rounds id with
          refunded := (s.store.rounds id).budget18, status := .refunded }).closed true
            (s.store.slices id)) returned id = .ok after) :
      Move c b x now s ⟨(s.store.setRound id { s.store.rounds id with
          refunded := (s.store.rounds id).budget18, status := .refunded }).closed true
            (s.store.slices id), after⟩
  | settles {id : RoundId} {raw : Nat} {consumed after : W} {parts : List Part} {paid : State W}
      (status : (s.store.rounds id).awaits) (sent : (s.store.rounds id).submittedAt ≠ 0)
      (enough : (s.store.rounds id).minRawOut ≤ raw)
      (covered : ∀ e, share (s.store.slices id) e ≤ s.store.pending e)
      (answer : Consumed b x (s.store.rounds id) s.world consumed 1 raw 0)
      (recorded : recordParts x parts ⟨(s.store.setRound id { s.store.rounds id with
          delivered := raw, status := .settled }).closed false (s.store.slices id), consumed⟩ =
            .ok paid)
      (released : x.releaseFinalized paid.world (s.store.rounds id).orderId = .ok ())
      (told : x.onRoundFinalized paid.store paid.world id = .ok after) :
      Move c b x now s ⟨paid.store, after⟩
  | orphans {id : RoundId} {raw : Nat} {consumed after : W}
      (status : (s.store.rounds id).status = .refunded) (first : s.store.orphanConsumed id = false)
      (answer : Consumed b x (s.store.rounds id) s.world consumed 1 raw 0)
      (sent : x.sendOrphan consumed (s.store.rounds id).asset c.treasury raw = .ok after) :
      Move c b x now s
        ⟨{ s.store with orphanConsumed := Function.update s.store.orphanConsumed id true }, after⟩

variable {c : Config} {b : Balances W} {x : Peers W} {env : Env} {s after : State W}

theorem wired_moves {call : Store → Tx Store} (done : s.wired call = .ok after)
    (wires : ∀ store, call s.store = .ok store → Wired s.store store) : Move c b x env.now s after := by
  simp only [State.wired, bind_ok, pure_ok] at done
  obtain ⟨store, called, rfl⟩ := done
  exact .wires (wires store called)

theorem sealEntry_moves {source : Address} {epoch cohort : Nat} {policy : Policy}
    (done : sealEntry b x s source epoch cohort policy = .ok after) : Move c b x env.now s after := by
  simp only [sealEntry, bind_ok, require_ok, sub_ok, pure_ok] at done
  obtain ⟨_, _, actual, _, _, _, route, _, _, _, _, _, ⟨world, budget, total, kind⟩, answer,
    received, ⟨grown, difference⟩, _, ⟨_, _, _, got⟩, last, registered, rfl⟩ := done
  have paid : b.manager world = b.manager s.world + budget := by
    simp only at grown difference got
    omega
  let entry : Entry := ⟨source, s.store.sourcePool source, epoch, cohort, budget, total,
    s.store.nextEntryId + 1, policy⟩
  have sealing : x.sealReward s.world source epoch cohort = .ok (world, entry.budget18, total, kind) :=
    answer
  exact .seals sealing paid registered

theorem requested_length {ids : List Nat} (same : ids.length = amounts.length) :
    (requested ids amounts).length = ids.length := by
  simp [requested, same]

theorem reserveBatch_moves {ids : List Nat} {minRaw deadline : Nat}
    (done : reserveBatch c x s env ids amounts minRaw deadline = .ok after) : Move c b x env.now s after := by
  simp only [reserveBatch, bind_ok, require_ok, pure_ok] at done
  obtain ⟨_, ⟨_, nonempty, _, same, positive, _⟩, route, routed, _, _, store, taken, minimum, least,
    limit, most, _, bounds, last, reserved, rfl⟩ := done
  have count := requested_length same
  rw [← count] at taken
  refine .reserves routed positive ?_ (reserveSlices_ok _ _ taken)
    ⟨minimum, limit, least, most, bounds⟩ reserved
  intro empty
  rw [empty] at count
  simp only [List.length_nil] at count
  omega

theorem start_moves (done : start x s env id = .ok after) : Move c b x env.now s after := by
  simp only [start, bind_ok, require_ok, pure_ok] at done
  obtain ⟨_, ⟨status, _⟩, world, sent, rfl⟩ := done
  exact .starts status sent

theorem poke_moves (done : poke x s id = .ok after) : Move c b x env.now s after := by
  simp only [poke, bind_ok, require_ok, pure_ok] at done
  obtain ⟨_, status, funded, answer, _, rfl, rfl⟩ := done
  exact .pokes status answer

theorem submit_moves (done : submit x s env id = .ok after) : Move c b x env.now s after := by
  simp only [submit, bind_ok, require_ok, pure_ok] at done
  obtain ⟨_, status, world, sent, rfl⟩ := done
  exact .submits status sent

theorem cancelUnsent_moves (done : cancelUnsent x s id = .ok after) : Move c b x env.now s after := by
  simp only [cancelUnsent, bind_ok, require_ok, pure_ok] at done
  obtain ⟨_, status, store, closed, world, released, last, told, rfl⟩ := done
  obtain ⟨rfl, covered⟩ := closeSlices_ok true _ closed
  exact .cancels status covered released told

theorem requestCancel_moves (done : requestCancel x s env id = .ok after) : Move c b x env.now s after := by
  simp only [requestCancel, bind_ok, require_ok, pure_ok] at done
  obtain ⟨_, ⟨status, _⟩, world, sent, rfl⟩ := done
  exact .requests status sent

theorem finalize_moves (done : finalize c b x s id = .ok after) : Move c b x env.now s after := by
  simp only [finalize, bind_ok, require_ok] at done
  obtain ⟨_, open_, ⟨consumed, outcome, raw, refund⟩, answer, _, ⟨stock, native⟩, done⟩ := done
  have live : (s.store.rounds id).status ≠ .refunded → (s.store.rounds id).awaits := by
    intro unpaid
    rcases open_ with held | held | held | held | ⟨held, _⟩
    · exact .inl held
    · exact .inr (.inl held)
    · exact .inr (.inr (.inl held))
    · exact .inr (.inr (.inr held))
    · exact absurd held unpaid
  have read : Consumed b x (s.store.rounds id) s.world consumed outcome raw refund :=
    ⟨answer, stock, native⟩
  simp only [ite_ok, bind_ok, require_ok, pure_ok] at done
  rcases done with ⟨rfl, _, ⟨rfl, rfl, unpaid⟩, rfl⟩ | ⟨_, done⟩
  · exact .waits (live unpaid) read
  rcases done with ⟨rfl, _, ⟨unpaid, rfl, rfl⟩, store, closed, returned, back, _, released, last,
    told, rfl⟩ | ⟨_, _, ⟨rfl, sent, enough, rfl⟩, done⟩
  · obtain ⟨rfl, covered⟩ := closeSlices_ok true _ closed
    exact .refunds (live unpaid) covered read back released told
  rcases done with ⟨paid, last, orphaned, rfl⟩ | ⟨unpaid, store, closed, paid, recorded, _, released,
    last, told, rfl⟩
  · rcases open_ with held | held | held | held | ⟨_, first⟩
    all_goals try (rw [paid] at held; cases held)
    exact .orphans paid first read orphaned
  · obtain ⟨rfl, covered⟩ := closeSlices_ok false _ closed
    simp only [allocate, bind_ok] at recorded
    obtain ⟨left, _, parts, _, recorded⟩ := recorded
    exact .settles (live unpaid) sent enough covered read recorded released told

/-- Every call is one of the moves. -/
theorem step_moves {action : Action} (done : step c b x s env action = .ok after) : Move c b x env.now s after := by
  cases action with
  | configureRewardModules desk staking =>
    simp only [step] at done
    apply wired_moves done
    intro store called
    simp only [configureRewardModules, bind_ok, require_ok, pure_ok] at called
    obtain ⟨_, _, _, _, rfl⟩ := called
    rfl
  | configureSourceFactory factory =>
    simp only [step] at done
    apply wired_moves done
    intro store called
    simp only [configureSourceFactory, bind_ok, require_ok, pure_ok] at called
    obtain ⟨_, _, rfl⟩ := called
    rfl
  | registerSource source pool =>
    simp only [step] at done
    apply wired_moves done
    intro store called
    simp only [registerSource, bind_ok, require_ok, pure_ok] at called
    obtain ⟨_, _, rfl⟩ := called
    rfl
  | configureExecution batcher capacity =>
    simp only [step] at done
    apply wired_moves done
    intro store called
    simp only [configureExecution, bind_ok, require_ok, pure_ok] at called
    obtain ⟨_, _, rfl⟩ := called
    rfl
  | sealEntry source epoch cohort policy => exact sealEntry_moves done
  | reserveBatch ids amounts minRaw deadline => exact reserveBatch_moves done
  | start id => exact start_moves done
  | poke id => exact poke_moves done
  | submit id => exact submit_moves done
  | cancelUnsent id => exact cancelUnsent_moves done
  | requestCancel id => exact requestCancel_moves done
  | applyResult orderId =>
    simp only [step, applyResult, bind_ok, require_ok] at done
    obtain ⟨_, _, done⟩ := done
    exact finalize_moves done
  | finalize id => exact finalize_moves done

end Solonpad.Rounds
