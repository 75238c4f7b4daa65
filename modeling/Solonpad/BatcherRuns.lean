import Solonpad.RewardBatcher

/-!
No fundable entry falls behind its group's cursor. The cursor passes only what cannot be funded then,
and an entry becomes fundable again only when its round closes, which moves the cursor back to it. A
preview then takes distinct entries in queue order, each within its budget.
-/

namespace Solonpad.Batcher

open Checked Rounds Transition
open Chain (Address)

/-- The queues against the manager's storage, where `spared` entries may be behind their cursor. -/
structure Queued (s : Rounds.Store) (q : Store) (spared : List EntryId) : Prop where
  placed : ∀ id, q.enqueued id = true →
    (s.entries id).source ≠ 0 ∧ (q.queues (groupKey s id))[q.queueIndex id]? = some id
  nodup : ∀ group, (q.queues group).Nodup
  early : ∀ group, ∀ id ∈ q.queues group, id < q.nextToEnqueue
  within : ∀ group, q.cursor group ≤ (q.queues group).length
  reached : ∀ id, q.enqueued id = true → id ∉ spared → Fundable s id →
    q.cursor (groupKey s id) ≤ q.queueIndex id

variable {s after : Rounds.Store} {q next : Store} {spared : List EntryId}

theorem deployed_queued (s : Rounds.Store) (spared : List EntryId) : Queued s deployed spared where
  placed _ enqueued := by cases enqueued
  nodup _ := .nil
  early _ _ member := by cases member
  within _ := Nat.le_refl _
  reached _ enqueued := by cases enqueued

/-! The batcher's own calls. -/

theorem enqueue_queued {id : EntryId} (taken : enqueue s q id = .ok next) (queued : Queued s q spared) :
    Queued s next spared := by
  simp only [enqueue, bind_ok, require_ok, pure_ok] at taken
  obtain ⟨_, ⟨rfl, source⟩, rfl⟩ := taken
  have fresh : ∀ group, q.nextToEnqueue ∉ q.queues group := fun group member =>
    absurd (queued.early group _ member) (Nat.lt_irrefl _)
  constructor
  · intro other enqueued
    by_cases same : other = q.nextToEnqueue
    · subst same
      exact ⟨source, by simp⟩
    · simp only [Function.update_of_ne same] at enqueued ⊢
      obtain ⟨known, entry⟩ := queued.placed other enqueued
      refine ⟨known, ?_⟩
      by_cases group : groupKey s other = groupKey s q.nextToEnqueue
      · rw [group] at entry ⊢
        rw [Function.update_self]
        obtain ⟨inside, _⟩ := List.getElem?_eq_some_iff.mp entry
        rw [List.getElem?_append_left inside, entry]
      · rw [Function.update_of_ne group, entry]
  · intro group
    dsimp only
    by_cases same : group = groupKey s q.nextToEnqueue
    · subst same
      rw [Function.update_self]
      refine List.nodup_append.mpr ⟨queued.nodup _, List.nodup_singleton _, ?_⟩
      intro other member last only
      rw [List.mem_singleton.mp only]
      rintro rfl
      exact fresh _ member
    · rw [Function.update_of_ne same]
      exact queued.nodup group
  · intro group other member
    dsimp only at member ⊢
    by_cases same : group = groupKey s q.nextToEnqueue
    · subst same
      rw [Function.update_self] at member
      rcases List.mem_append.mp member with old | only
      · exact Nat.lt_succ_of_lt (queued.early _ other old)
      · exact List.mem_singleton.mp only ▸ Nat.lt_succ_self _
    · rw [Function.update_of_ne same] at member
      exact Nat.lt_succ_of_lt (queued.early group other member)
  · intro group
    by_cases same : group = groupKey s q.nextToEnqueue
    · subst same
      simp only [Function.update_self, List.length_append]
      exact Nat.le_add_right_of_le (queued.within _)
    · simp only [Function.update_of_ne same]
      exact queued.within group
  · intro other enqueued free fundable
    by_cases same : other = q.nextToEnqueue
    · subst same
      simp only [Function.update_self]
      exact queued.within _
    · simp only [Function.update_of_ne same] at enqueued ⊢
      exact queued.reached other enqueued free fundable

theorem pass_spec (s : Rounds.Store) (queue : List EntryId) (n head : Nat) (inside : head ≤ queue.length) :
    head ≤ pass s queue n head ∧ pass s queue n head ≤ queue.length ∧
      ∀ i, head ≤ i → i < pass s queue n head → ∃ id, queue[i]? = some id ∧ ¬ Fundable s id := by
  induction n generalizing head with
  | zero => exact ⟨Nat.le_refl _, inside, fun i low high => absurd low (Nat.not_le.mpr high)⟩
  | succ n ih =>
    unfold pass
    split
    · exact ⟨Nat.le_refl _, inside, fun i low high => absurd low (Nat.not_le.mpr high)⟩
    · next id entry =>
      split
      · next spent =>
        obtain ⟨more, _⟩ := List.getElem?_eq_some_iff.mp entry
        obtain ⟨later, short, between⟩ := ih (head + 1) more
        refine ⟨Nat.le_of_succ_le later, short, ?_⟩
        intro i low high
        by_cases first : i = head
        · refine first ▸ ⟨id, entry, ?_⟩
          rintro ⟨available, free⟩
          omega
        · exact between i (by omega) high
      · exact ⟨Nat.le_refl _, inside, fun i low high => absurd low (Nat.not_le.mpr high)⟩

theorem advance_queued {group : Policy} {max : Nat} (taken : advance s q group max = .ok next)
    (queued : Queued s q spared) : Queued s next spared := by
  simp only [advance, bind_ok, require_ok, pure_ok] at taken
  obtain ⟨_, _, rfl⟩ := taken
  obtain ⟨_, short, between⟩ := pass_spec s (q.queues group) max (q.cursor group) (queued.within group)
  refine ⟨queued.placed, queued.nodup, queued.early, ?_, ?_⟩
  · intro other
    by_cases same : other = group
    · subst same
      simpa using short
    · simpa only [Function.update_of_ne same] using queued.within other
  · intro id enqueued free fundable
    have ahead := queued.reached id enqueued free fundable
    dsimp only
    by_cases same : groupKey s id = group
    · subst same
      rw [Function.update_self]
      by_contra passed
      -- the entry itself would have been passed
      obtain ⟨other, entry, spent⟩ := between _ ahead (Nat.not_le.mp passed)
      rw [(queued.placed id enqueued).2] at entry
      cases entry
      exact spent fundable
    · rw [Function.update_of_ne same]
      exact ahead

theorem Calls.queued (calls : Calls s q next) (queued : Queued s q spared) : Queued s next spared := by
  induction calls with
  | refl => exact queued
  | enqueue earlier id taken ih => exact enqueue_queued taken ih
  | advance earlier group max taken ih => exact advance_queued taken ih

/-! A closed round. -/

theorem restore_queued (id : EntryId) (enqueued : q.enqueued id = true)
    (queued : Queued s q (id :: spared)) : Queued s (restore s q id) spared := by
  unfold restore
  split
  · next spent =>
    refine ⟨queued.placed, queued.nodup, queued.early, queued.within, ?_⟩
    intro other enqueued free fundable
    by_cases same : other = id
    · subst same
      obtain ⟨available, idle⟩ := fundable
      omega
    · exact queued.reached other enqueued (by simp [same, free]) fundable
  · dsimp only
    split
    · next behind =>
      refine ⟨queued.placed, queued.nodup, queued.early, ?_, ?_⟩
      · intro group
        have within := queued.within group
        dsimp only
        by_cases same : group = groupKey s id
        · subst same
          rw [Function.update_self]
          omega
        · rwa [Function.update_of_ne same]
      · intro other enqueued free fundable
        dsimp only
        by_cases same : other = id
        · subst same
          rw [Function.update_self]
        · have ahead := queued.reached other enqueued (by simp [same, free]) fundable
          by_cases group : groupKey s other = groupKey s id
          · rw [group, Function.update_self]
            rw [group] at ahead
            omega
          · rwa [Function.update_of_ne group]
    · next ahead =>
      refine ⟨queued.placed, queued.nodup, queued.early, queued.within, ?_⟩
      intro other enqueued free fundable
      by_cases same : other = id
      · subst same
        exact Nat.not_lt.mp ahead
      · exact queued.reached other enqueued (by simp [same, free]) fundable

theorem told_queued (items : List Slice) (taken : onRoundFinalized s items q = .ok next)
    (queued : Queued s q (items.map Slice.entryId)) : Queued s next [] := by
  induction items generalizing q with
  | nil =>
    cases taken
    exact queued
  | cons slice rest ih =>
    simp only [onRoundFinalized, bind_ok, require_ok] at taken
    obtain ⟨_, enqueued, taken⟩ := taken
    exact ih taken (restore_queued slice.entryId enqueued queued)

/-! The manager's storage moves. -/

/-- The queues stay in order when known entries stay and none but the spared becomes fundable. -/
theorem Queued.store {more : List EntryId} (queued : Queued s q spared)
    (entries : ∀ id, (s.entries id).source ≠ 0 → after.entries id = s.entries id)
    (fundable : ∀ id, (s.entries id).source ≠ 0 → id ∉ more → Fundable after id → Fundable s id ∧ id ∉ spared) :
    Queued after q more := by
  have groups : ∀ id, (s.entries id).source ≠ 0 → groupKey after id = groupKey s id := fun id known => by
    rw [groupKey, groupKey, entries id known]
  refine ⟨?_, queued.nodup, queued.early, queued.within, ?_⟩
  · intro id enqueued
    obtain ⟨known, entry⟩ := queued.placed id enqueued
    rw [groups id known, entries id known]
    exact ⟨known, entry⟩
  · intro id enqueued free ready
    have known := (queued.placed id enqueued).1
    obtain ⟨before, outside⟩ := fundable id known free ready
    rw [groups id known]
    exact queued.reached id enqueued outside before

/-- A move of the store that the queues do not see. -/
theorem Queued.same (queued : Queued s q spared) (entries : after.entries = s.entries)
    (available : after.available = s.available) (pending : after.pending = s.pending) : Queued after q spared := by
  refine queued.store (fun id _ => by rw [entries]) fun id _ free ready => ⟨?_, free⟩
  rwa [Fundable, available, pending] at ready

theorem Queued.sealed (booked : Booked s) (queued : Queued s q []) (key : Address × Nat × Nat)
    (entry : Entry) : Queued (s.sealed key entry) q [] := by
  have known : ∀ id, (s.entries id).source ≠ 0 → id ≠ s.nextEntryId + 1 := by
    rintro id source rfl
    rw [(booked.unborn _ (Nat.lt_succ_self _)).1] at source
    exact source rfl
  refine queued.store ?_ ?_
  · intro id source
    exact Function.update_of_ne (known id source) ..
  · intro id source _ ready
    simpa only [Fundable, Store.sealed, Function.update_of_ne (known id source), List.not_mem_nil,
      not_false_eq_true, and_true] using ready

/-- Slices that leave or come back spare their entries until the batcher is told. -/
theorem Queued.closed (queued : Queued s q []) (after : Rounds.Store) (refund : Bool) (items : List Slice)
    (entries : after.entries = s.entries) (available : after.available = (s.closed refund items).available)
    (pending : after.pending = (s.closed refund items).pending) : Queued after q (items.map Slice.entryId) := by
  refine queued.store (fun id _ => by rw [entries]) ?_
  intro id _ outside ready
  have absent : share items id = 0 := by
    refine share_absent fun slice member same => outside ?_
    exact List.mem_map.mpr ⟨slice, member, same⟩
  rw [Fundable, available, pending] at ready
  simp only [Store.closed, absent] at ready
  refine ⟨⟨?_, by omega⟩, List.not_mem_nil⟩
  have more := ready.1
  split at more <;> omega

variable {V : Type} {c : Config} {b : Balances V} {self : Address} {x : Peers (Store × V)}
  {before closed : Rounds.Store}

theorem recordParts_calls (joined : Joined x before closed) (parts : List Part) {s paid : State (Store × V)}
    (recorded : recordParts x parts s = .ok paid) (queued : Queued closed s.world.1 spared) :
    Queued closed paid.world.1 spared := by
  induction parts generalizing s with
  | nil =>
    cases recorded
    exact queued
  | cons part rest ih =>
    simp only [recordParts, bind_ok] at recorded
    obtain ⟨world, delivered, recorded⟩ := recorded
    exact ih recorded ((joined.recordDelivery _ _ _ _ delivered).queued queued)

theorem told_world {told : Rounds.Store} {w after : Store × V} {id : RoundId}
    (joined : Joined x before closed) (taken : x.onRoundFinalized told w id = .ok after)
    (queued : Queued told w.1 ((told.slices id).map Slice.entryId)) : Queued told after.1 [] := by
  rw [joined.told] at taken
  simp only [bind_ok, pure_ok] at taken
  obtain ⟨q, restored, rfl⟩ := taken
  exact told_queued _ restored queued

/-- What one call of the manager leaves, with all its peers did. -/
theorem move_queued {now : Nat} {s after : State (Store × V)} (move : Move c (shared b) x now s after)
    (spares : Spares (shared b) x) (joined : Joined x s.store after.store) (booked : Booked s.store)
    (queued : Queued s.store s.world.1 []) : Queued after.store after.world.1 [] := by
  cases move with
  | wires wired =>
    have same := wired.same
    exact queued.same same.entries same.available same.pending
  | seals answer received registered =>
    have before := (joined.sealReward _ _ _ _ _ _ _ _ answer).queued queued
    exact (joined.registerAllocation _ _ _ _ _ registered).queued (before.sealed booked _ _)
  | @reserves policy route minRaw deadline items first store _ routed minimum some taken costs reserved =>
    refine (joined.reserveFor _ _ _ _ _ reserved).queued (queued.store ?_ ?_)
    · intro id _
      exact congrFun (congrArg Rounds.Store.entries taken.rest) id
    · rintro id _ _ ⟨available, free⟩
      have took : store.available id + share items id = s.store.available id := taken.available id
      have held : store.pending id = s.store.pending id + share items id := taken.pending id
      have some_ : 0 < store.available id := available
      have none : store.pending id = 0 := free
      exact ⟨⟨by omega, by omega⟩, List.not_mem_nil⟩
  | starts status sent =>
    exact (joined.startFunding _ _ _ _ _ _ _ sent).queued (queued.same rfl rfl rfl)
  | pokes status funded => exact queued.same rfl rfl rfl
  | submits status sent =>
    exact (joined.submit _ _ _ _ sent).queued (queued.same rfl rfl rfl)
  | requests status sent =>
    exact (joined.requestCancel _ _ _ _ sent).queued (queued.same rfl rfl rfl)
  | waits status consumed => exact (joined.consumeResult _ _ _ _ _ _ _ consumed.answer).queued queued
  | orphans status first answer sent =>
    have before := (joined.consumeResult _ _ _ _ _ _ _ answer.answer).queued queued
    exact (joined.sendOrphan _ _ _ _ _ sent).queued (before.same rfl rfl rfl)
  | @cancels id _ _ status covered released told =>
    have spared := queued.closed ((s.store.setStatus id .cancelledUnsent).closed true
      (s.store.slices id)) true (s.store.slices id) rfl rfl rfl
    exact told_world joined told ((joined.releaseUnsent _ _ _ released).queued spared)
  | @refunds id _ _ _ status covered answer back released told =>
    have before := (joined.consumeResult _ _ _ _ _ _ _ answer.answer).queued queued
    have spared := before.closed ((s.store.setRound id { s.store.rounds id with
      refunded := (s.store.rounds id).budget18, status := .refunded }).closed true (s.store.slices id))
      true (s.store.slices id) rfl rfl rfl
    exact told_world joined told ((joined.returnRefund _ _ _ back).queued spared)
  | @settles id raw _ _ parts paid status sent enough covered answer recorded released told =>
    have before := (joined.consumeResult _ _ _ _ _ _ _ answer.answer).queued queued
    have spared := before.closed ((s.store.setRound id { s.store.rounds id with
      delivered := raw, status := .settled }).closed false (s.store.slices id))
      false (s.store.slices id) rfl rfl rfl
    -- the deliveries write only what the batcher does not read
    obtain ⟨store, _⟩ := recordParts_ok spares parts recorded
    have same : paid.store.slices = s.store.slices := by rw [store]; rfl
    have closed : Queued paid.store _ ((paid.store.slices id).map Slice.entryId) :=
      same ▸ spared.same (by rw [store]) (by rw [store]) (by rw [store])
    exact told_world joined told (recordParts_calls joined parts recorded closed)

/-! Runs. -/

/-- The queues and the manager's books together. -/
structure Kept (b : Balances V) (s : State (Store × V)) : Prop where
  sound : Sound (shared b) s
  queued : Queued s.store s.world.1 []

theorem turn_kept {s after : State (Store × V)} (kept : Kept b s) (turn : Turn c b self s after) : Kept b after := by
  obtain ⟨sound, queued⟩ := kept
  cases turn with
  | call x env action spares joined other wires taken =>
    have move := step_moves taken
    exact ⟨move_sound spares sound move, move_queued move spares joined sound.booked queued⟩
  | @execute x y now requested maxBudget minRaw deadline limit items middle _ spares joined joined' some_
      limited preview fifo reserved started =>
    have first : Move c (shared b) x now s middle := reserveBatch_moves reserved
    have second : Move c (shared b) y now middle after := start_moves started
    have between := move_sound spares.1 sound first
    exact ⟨move_sound spares.2 between second, move_queued second spares.2 joined' between.booked
      (move_queued first spares.1 joined sound.booked queued)⟩
  | batcher q calls => exact ⟨.of sound.booked sound.backed, calls.queued queued⟩
  | world world spares => exact ⟨.of sound.booked (sound.backed.more spares), queued⟩

theorem sum_cons (slice : Slice) (rest : List Slice) : sum (slice :: rest) = slice.budget18 + sum rest :=
  List.sum_cons

/-- Peers of the manager beside a batcher, which is told of closed rounds. -/
def beside (x : Peers V) : Peers (Store × V) where
  hasCode := x.hasCode
  resolve w := x.resolve w.2
  rewardPolicy w := x.rewardPolicy w.2
  sealReward w source epoch cohort := do
    let (v, budget, total, kind) ← x.sealReward w.2 source epoch cohort
    pure ((w.1, v), budget, total, kind)
  registerAllocation w id entry asset := do pure (w.1, ← x.registerAllocation w.2 id entry asset)
  lRun w := x.lRun w.2
  reserveFor w orderId asset amount := do pure (w.1, ← x.reserveFor w.2 orderId asset amount)
  releaseUnsent w orderId := do pure (w.1, ← x.releaseUnsent w.2 orderId)
  releaseFinalized w := x.releaseFinalized w.2
  onRoundFinalized s w id := do
    let q ← onRoundFinalized s (s.slices id) w.1
    pure (q, w.2)
  startFunding w adapter orderId budget minRaw deadline := do
    pure (w.1, ← x.startFunding w.2 adapter orderId budget minRaw deadline)
  funded w := x.funded w.2
  submit w adapter orderId := do pure (w.1, ← x.submit w.2 adapter orderId)
  requestCancel w adapter orderId := do pure (w.1, ← x.requestCancel w.2 adapter orderId)
  consumeResult w adapter orderId := do
    let (v, outcome, raw, refund) ← x.consumeResult w.2 adapter orderId
    pure ((w.1, v), outcome, raw, refund)
  returnRefund w amount := do pure (w.1, ← x.returnRefund w.2 amount)
  sendOrphan w asset treasury raw := do pure (w.1, ← x.sendOrphan w.2 asset treasury raw)
  recordDelivery w id raw := do pure (w.1, ← x.recordDelivery w.2 id raw)

theorem beside_joined (x : Peers V) (before after : Rounds.Store) : Joined (beside x) before after := by
  constructor
  case told => exact fun _ _ _ => rfl
  all_goals
    intros
    rename_i done
    simp only [beside, bind_ok, pure_ok, Prod.mk.injEq] at done
    obtain ⟨_, _, done⟩ := done
    first
      | exact done ▸ .refl _
      | exact done.1 ▸ .refl _

theorem beside_spares {x : Peers V} (spares : Spares b x) : Spares (shared b) (beside x) where
  registerAllocation w id entry asset after done := by
    simp only [beside, bind_ok, pure_ok] at done
    obtain ⟨v, done, rfl⟩ := done
    exact spares.registerAllocation _ _ _ _ _ done
  reserveFor w orderId asset amount after done := by
    simp only [beside, bind_ok, pure_ok] at done
    obtain ⟨v, done, rfl⟩ := done
    exact spares.reserveFor _ _ _ _ _ done
  releaseUnsent w orderId after done := by
    simp only [beside, bind_ok, pure_ok] at done
    obtain ⟨v, done, rfl⟩ := done
    exact spares.releaseUnsent _ _ _ done
  onRoundFinalized s w id after done := by
    simp only [beside, bind_ok, pure_ok] at done
    obtain ⟨q, _, rfl⟩ := done
    exact Nat.le_refl _
  startFunding w adapter orderId budget minRaw deadline after done := by
    simp only [beside, bind_ok, pure_ok] at done
    obtain ⟨v, done, rfl⟩ := done
    exact spares.startFunding _ _ _ _ _ _ _ done
  submit w adapter orderId after done := by
    simp only [beside, bind_ok, pure_ok] at done
    obtain ⟨v, done, rfl⟩ := done
    exact spares.submit _ _ _ _ done
  requestCancel w adapter orderId after done := by
    simp only [beside, bind_ok, pure_ok] at done
    obtain ⟨v, done, rfl⟩ := done
    exact spares.requestCancel _ _ _ _ done
  consumeResult w adapter orderId after outcome raw refund done := by
    simp only [beside, bind_ok, pure_ok, Prod.mk.injEq] at done
    obtain ⟨⟨v, _, _, _⟩, done, rfl, _⟩ := done
    exact spares.consumeResult _ _ _ _ _ _ _ done
  returnRefund w amount after done := by
    simp only [beside, bind_ok, pure_ok] at done
    obtain ⟨v, done, rfl⟩ := done
    exact spares.returnRefund _ _ _ done
  sendOrphan w asset treasury raw after done := by
    simp only [beside, bind_ok, pure_ok] at done
    obtain ⟨v, done, rfl⟩ := done
    exact spares.sendOrphan _ _ _ _ _ done
  recordDelivery w id raw after done := by
    simp only [beside, bind_ok, pure_ok] at done
    obtain ⟨v, done, rfl⟩ := done
    exact spares.recordDelivery _ _ _ _ done

inductive Trial where
  | call (env : Env) (action : Action)
  | execute (now : Nat) (requested : List EntryId) (maxBudget minRaw deadline : Nat)
  | enqueue (id : EntryId)
  | advance (group : Policy) (max : Nat)

def ownBatcher (self : Address) : Action → Rounds.Tx Unit
  | .configureExecution batcher _ => require (batcher = self) .required
  | _ => pure ()

/-- One turn of a run with the same peers throughout. -/
def trial (c : Config) (b : Balances V) (self : Address) (x : Peers V) (s : State (Store × V)) :
    Trial → Rounds.Tx (State (Store × V))
  | .call env action => do
    require (env.sender ≠ self) .required
    ownBatcher self action
    step c (shared b) (beside x) s env action
  | .execute now requested maxBudget minRaw deadline => do
    require (0 < requested.length ∧ requested.length ≤ 64) .required
    let limit ← runLimit (beside x) s
    let items ← relay .peer
      (previewBatch s.store s.world.1 limit (groupKey s.store (requested.headD 0)) maxBudget)
    require (items.map Slice.entryId = requested) .required
    let middle ← reserveBatch c (beside x) s ⟨self, now⟩ requested (items.map Slice.budget18) minRaw deadline
    start (beside x) middle ⟨self, now⟩ middle.store.nextRoundId
  | .enqueue id => do
    let q ← relay .peer (enqueue s.store s.world.1 id)
    pure ⟨s.store, (q, s.world.2)⟩
  | .advance group max => do
    let q ← relay .peer (advance s.store s.world.1 group max)
    pure ⟨s.store, (q, s.world.2)⟩

theorem trial_turn {x : Peers V} (spares : Spares b x) {s after : State (Store × V)} {t : Trial}
    (taken : trial c b self x s t = .ok after) : Turn c b self s after := by
  cases t with
  | call env action =>
    simp only [trial, bind_ok, require_ok] at taken
    obtain ⟨_, other, _, wires, taken⟩ := taken
    refine .call (beside x) env action (beside_spares spares) (beside_joined ..) other ?_ taken
    rintro batcher capacity rfl
    exact (require_ok _ _ _).mp wires
  | execute now requested maxBudget minRaw deadline =>
    simp only [trial, bind_ok, require_ok, relay_ok] at taken
    obtain ⟨_, some_, limit, limited, items, preview, _, fifo, middle, reserved, started⟩ := taken
    exact .execute (beside x) (beside x) now requested maxBudget minRaw deadline limit items
      ⟨beside_spares spares, beside_spares spares⟩ (beside_joined ..) (beside_joined ..) some_ limited
      preview fifo reserved started
  | enqueue id =>
    simp only [trial, bind_ok, relay_ok, pure_ok] at taken
    obtain ⟨q, taken, rfl⟩ := taken
    exact .batcher q (.enqueue (.refl _) id taken)
  | advance group max =>
    simp only [trial, bind_ok, relay_ok, pure_ok] at taken
    obtain ⟨q, taken, rfl⟩ := taken
    exact .batcher q (.advance (.refl _) group max taken)

/-- An entry whose first slice settles: its cursor passes it meanwhile and comes back. -/
def sampleTrials : List Trial :=
  [.call ⟨1, 10⟩ (.configureExecution 3 4), .call ⟨1, 10⟩ (.registerSource 5 6),
    .call ⟨9, 10⟩ (.sealEntry 5 0 0 ⟨1, 1, 0, 0⟩), .enqueue 1,
    .execute 10 [1] (100 * 10 ^ 18) 5 50, .advance ⟨1, 1, 0, 0⟩ 5, .call ⟨9, 11⟩ (.poke 1),
    .call ⟨9, 12⟩ (.submit 1), .call ⟨9, 13⟩ (.finalize 1)]

def sampleHolds (s : State (Store × Purses)) : Bool :=
  decide (s.world.1.enqueued 1 = true ∧ Fundable s.store 1 ∧ s.store.available 1 = 200 * 10 ^ 18)

theorem sample_runs : ∃ s, Run sample purses 3 s ∧ sampleHolds s = true := by
  obtain ⟨s, reached, holds⟩ := run_passes (trial sample purses 3 plainPeers) (fun _ _ => True)
    sampleTrials ⟨Rounds.Store.empty, (deployed, ⟨0, 0, 0⟩)⟩ sampleHolds (by decide)
  refine ⟨s, ⟨⟨0, 0, 0⟩, reached.map (fun _ => ()) ?_⟩, holds⟩
  intro before t after taken
  exact trial_turn plainPeers_spare taken.2

end Solonpad.Batcher
