import Solonpad.RoundTasks

/-!
What the keeper's transactions do, and that it lasts: a mined transaction has the effect its request asked for, and no
turn of the contracts undoes it but a withdrawal of fees or a round that frees an entry.
-/

namespace Solonpad.RoundTasks

open Checked Journal Rounds
open Chain (Address)
open Hub (RoundOrderId)
open RoundChain
open StockAdapter (SignedQuote)

variable {V : Type} {y : System V} {s after : RoundChain.State V} {keeper : Address} {now : Nat}
  {watched : Address → RoundOrderId → Prop} {spared : Policy → Nat → Prop} {status : Status}
  {chain : RoundChain.State V} {id : RoundId}

/-- What stays of an effect: fees are there until the order starts. -/
def Lasting (chain : RoundChain.State V) : Request → Prop
  | .depositFees adapter orderId fees18 value => (chain.world.2.adapters adapter).state orderId = .none →
      Effect chain (.depositFees adapter orderId fees18 value)
  | r => Effect chain r

/-- A round that started has its result, or its adapter's hub has one for it. -/
def Resulting (y : System V) (chain : RoundChain.State V) (id : RoundId) : Prop :=
  (chain.store.rounds id).status.started = true ∧ ((chain.store.rounds id).status.final = true ∨
    y.ready chain.world.2.rest (chain.store.rounds id).adapter (chain.store.rounds id).orderId)

/-- What a request was decided on, as far as its transaction needs it. -/
def Due (y : System V) (chain : RoundChain.State V) : Request → Prop
  | .depositFees adapter orderId fees18 value => (chain.world.2.adapters adapter).state orderId = .none →
      fees18 ≤ (chain.world.2.adapters adapter).feeBalance orderId + value
  | .round id .finalize .refunded => (chain.store.rounds id).status = .refunded
  | .round id .finalize _ => Resulting y chain id
  | _ => True

/-! Turns. -/

theorem refunded_stays {later : Status} (held : status = .refunded) (leads : status.leads later = true) :
    later = .refunded := by
  subst held
  exact of_decide_eq_true leads

theorem cancelled_stays {later : Status} (held : status = .cancelledUnsent)
    (leads : status.leads later = true) : later = .cancelledUnsent := by
  subst held
  exact of_decide_eq_true leads

theorem Effect.finalize_of (orphan : status = .refunded → chain.store.orphanConsumed id = true)
    (final : status ≠ .refunded → (chain.store.rounds id).status.final = true) :
    Effect chain (.round id .finalize status) := by
  cases status with
  | refunded => exact orphan rfl
  | _ => exact final nofun

theorem Due.finalize_of (orphan : status = .refunded → (chain.store.rounds id).status = .refunded)
    (resulting : status ≠ .refunded → Resulting y chain id) : Due y chain (.round id .finalize status) := by
  cases status with
  | refunded => exact orphan rfl
  | _ => exact resulting nofun

/-- A result goes only to its round. -/
theorem resulting_moved (known : Known s) (moved : Moved y watched spared s after)
    (resulting : Resulting y s id) : Resulting y after id := by
  obtain ⟨started, result⟩ := resulting
  have held : At s.store id (s.store.rounds id).adapter (s.store.rounds id).orderId := ⟨started, rfl, rfl⟩
  obtain ⟨started', adapter, order⟩ := held.later moved.later
  refine ⟨started', ?_⟩
  rcases result with final | ready
  · exact .inl (Status.final_stays final (moved.later.rounds id).status)
  · rcases moved.ready _ _ ready with kept | ⟨other, taken, final⟩
    · rw [adapter, order]
      exact .inr kept
    · exact .inl (known.apart other id _ _ taken held ▸ final)

theorem lasting_moved {r : Request} (moved : Moved y watched spared s after)
    (places : ∀ group cursor n, r = .advance group cursor n → spared group (cursor + n))
    (fees : ∀ adapter orderId fees18 value, r = .depositFees adapter orderId fees18 value → watched adapter orderId)
    (lasting : Lasting s r) : Lasting after r := by
  cases r with
  | sealEntry source epoch policy => exact moved.later.sealed _ lasting
  | enqueue id => exact lasting.trans_le moved.next
  | advance group cursor n => exact moved.cursor group _ (places group cursor n rfl) lasting
  | depositFees adapter orderId fees18 value =>
    intro fresh
    have before : (s.world.2.adapters adapter).state orderId = .none := by
      by_contra begun
      exact moved.started adapter orderId begun fresh
    have enough := lasting before
    exact enough.trans (moved.fees adapter orderId (fees _ _ _ _ rfl) fresh)
  | executeAndStart plan =>
    obtain ⟨id, started, order⟩ := lasting
    have held : At s.store id (s.store.rounds id).adapter plan.quote.orderId := ⟨started, rfl, order⟩
    exact ⟨id, (held.later moved.later).started, (held.later moved.later).order⟩
  | round id action status =>
    have follows := moved.later.rounds id
    cases action with
    | poke => exact Status.leads_trans lasting follows.status
    | submit => exact follows.submitted lasting
    | cancelUnsent => exact cancelled_stays lasting follows.status
    | requestCancel => exact follows.cancel lasting
    | finalize =>
      apply Effect.finalize_of
      · rintro rfl
        exact moved.later.orphan id lasting
      · intro other
        have final : (s.store.rounds id).status.final = true := by
          cases status <;> first | exact absurd rfl other | exact lasting
        exact Status.final_stays final follows.status

theorem due_moved {r : Request} (known : Known s) (moved : Moved y watched spared s after)
    (fees : ∀ adapter orderId fees18 value, r = .depositFees adapter orderId fees18 value → watched adapter orderId)
    (due : Due y s r) : Due y after r := by
  cases r with
  | depositFees adapter orderId fees18 value =>
    intro fresh
    have before : (s.world.2.adapters adapter).state orderId = .none := by
      by_contra begun
      exact moved.started adapter orderId begun fresh
    have enough := due before
    have more := moved.fees adapter orderId (fees _ _ _ _ rfl) fresh
    omega
  | round id action status =>
    have follows := moved.later.rounds id
    cases action with
    | finalize =>
      apply Due.finalize_of
      · rintro rfl
        exact refunded_stays due follows.status
      · intro other
        refine resulting_moved known moved ?_
        cases status <;> first | exact absurd rfl other | exact due
    | _ => trivial
  | _ => trivial

/-- Whatever the parts of a turn keep, a turn keeps; only `executeAndStart` has more than one. -/
theorem turn_keeps (watched : Address → RoundOrderId → Prop) (spared : Policy → Nat → Prop)
    {P : RoundChain.State V → Prop} {call : Call} (turn : Turn y s call after) (chained : Chained y s)
    (places : ∀ group target, spared group target → Spared s after group target)
    (fees : ∀ adapter sender orderId, call = .refundUnusedFees adapter sender orderId true →
      (s.world.2.adapters adapter).state orderId = .none → (s.world.2.adapters adapter).feeBalance orderId ≠ 0 →
        ¬ watched adapter orderId)
    (kept : ∀ before next, Chained y before → Moved y watched spared before next → P before → P next)
    (holds : P s) : P after := by
  have part := turn.batcher
  cases turn with
  | manager x env action quote clock spares served other wires taken =>
    have move := step_moves taken
    exact kept _ _ chained (.of_move spares served chained clock move
      (fun group target held => (move_queue spares served move).2 group target (places group target held))) holds
  | @executeAndStart x z now requested maxBudget quote limit items middle _ clock spares reserving starting some_
      limited preview fifo reserved started =>
    have ahead := reserveBatch_ahead reserving reserved
    have ahead' := start_ahead starting started
    have first : Move y.manager y.purses x now s middle := reserveBatch_moves reserved
    have second : Move y.manager y.purses z now middle after := start_moves started
    have moved : Moved y watched spared s middle := .of_move spares.1 reserving chained clock first
      fun group _ _ passed => passed.trans (ahead.cursor group)
    have moved' : Moved y watched spared middle after := .of_move spares.2 starting moved.chained clock second
      fun group _ _ passed => passed.trans (ahead'.cursor group)
    exact kept _ _ moved.chained moved' (kept _ _ chained moved holds)
  | enqueue id q taken =>
    exact kept _ _ chained (.of_still chained part (enqueue_ahead taken).1 (fun _ _ held => held)
      (fun _ _ _ _ => Nat.le_refl _) (.refl _ _)) holds
  | advance group max q taken =>
    exact kept _ _ chained (.of_still chained part (advance_ahead taken) (fun _ _ held => held)
      (fun _ _ _ _ => Nat.le_refl _) (.refl _ _)) holds
  | depositFees a id value adapter rest taken ready spares =>
    have own := onward_update (StockAdapter.depositFees_onward taken)
    exact kept _ _ chained (.of_still chained part (.refl _) (fun other => (own other).started)
      (fun other order _ => (own other).fees order) ready) holds
  | refundUnusedFees a sender id accepts adapter rest taken ready spares =>
    obtain ⟨_, orders, others⟩ := StockAdapter.refundUnusedFees_ok taken
    refine kept _ _ chained (.of_still chained part (.refl _) ?_ ?_ ready) holds
    · intro other order held
      by_cases same : other = a
      · subst same
        simpa only [put, Function.update_self, StockAdapter.State.state, orders] using held
      · simpa only [put, Function.update_of_ne same] using held
    · intro other order watches fresh
      by_cases same : other = a
      · subst same
        simp only [Function.update_self, StockAdapter.State.state, orders] at fresh ⊢
        by_cases taken : accepts = true ∧ order = id
        · obtain ⟨rfl, rfl⟩ := taken
          by_contra less
          refine fees other sender order rfl fresh ?_ watches
          omega
        · exact (others order fun accepted same => taken ⟨accepted, same⟩).ge
      · simp only [Function.update_of_ne same]
        exact Nat.le_refl _
  | other o aside spares =>
    exact kept _ _ chained (.of_still chained part (.refl _) (fun a => (aside.onward.adapters a).started)
      (fun a id _ => (aside.onward.adapters a).fees id) aside.ready) holds

/-! Mined transactions. -/

section Calls

variable {x : Peers (World V)} {quote : SignedQuote} {id : RoundId} {env : Env}

theorem sealEntry_effect {source : Address} {epoch cohort : Nat} {policy : Policy}
    (done : sealEntry y.purses x s source epoch cohort policy = .ok after) :
    after.store.sealedSource (source, epoch, cohort) = true := by
  simp only [sealEntry, bind_ok, require_ok, sub_ok, pure_ok] at done
  obtain ⟨_, _, _, _, _, _, _, _, _, _, _, _, _, _, _, _, _, _, _, _, rfl⟩ := done
  exact Function.update_self ..

theorem poke_effect (done : poke x s id = .ok after) : (after.store.rounds id).status = .funded := by
  simp only [poke, bind_ok, require_ok, pure_ok] at done
  obtain ⟨_, _, _, _, _, _, rfl⟩ := done
  simp only [Store.setStatus, Store.setRound, Function.update_self]

theorem submit_effect (done : submit x s env id = .ok after) : (after.store.rounds id).submittedAt = env.now := by
  simp only [submit, bind_ok, require_ok, pure_ok] at done
  obtain ⟨_, _, _, _, rfl⟩ := done
  simp only [Store.setRound, Function.update_self]

theorem cancelUnsent_effect (done : cancelUnsent x s id = .ok after) :
    (after.store.rounds id).status = .cancelledUnsent := by
  simp only [cancelUnsent, bind_ok, require_ok, pure_ok] at done
  obtain ⟨_, _, store, closed, _, _, _, _, rfl⟩ := done
  obtain ⟨rfl, _⟩ := closeSlices_ok true _ closed
  simp only [Store.closed, Store.setStatus, Store.setRound, Function.update_self]

theorem requestCancel_effect (done : requestCancel x s env id = .ok after) :
    (after.store.rounds id).cancelRequested = true := by
  simp only [requestCancel, bind_ok, require_ok, pure_ok] at done
  obtain ⟨_, _, _, _, rfl⟩ := done
  simp only [Store.setRound, Function.update_self]

/-- The order of the round that starts is the one its quote was signed for. -/
theorem start_effect (served : Served y x now quote s.store after.store)
    (done : start x s env id = .ok after) : At after.store id (s.store.rounds id).adapter quote.orderId := by
  simp only [start, bind_ok, require_ok, pure_ok] at done
  obtain ⟨_, _, world, sent, rfl⟩ := done
  have own := (startFunding_onward served sent).2.1
  constructor <;> simp only [Store.setStatus, Store.setRound, Function.update_self]
  · rfl
  · exact own.symm

/-- A result, or none, and then the hub had none. -/
theorem finalize_effect (spares : Spares y.purses x) (served : Served y x now quote s.store after.store)
    (done : finalize y.manager y.purses x s id = .ok after) :
    ((s.store.rounds id).status ≠ .refunded ∧ ((after.store.rounds id).status.final = true ∨
      after.store = s.store ∧ ¬ y.ready s.world.2.rest (s.store.rounds id).adapter (s.store.rounds id).orderId)) ∨
    (s.store.rounds id).status = .refunded ∧ after.store.orphanConsumed id = true ∧
      (after.store.rounds id).status.final = true := by
  simp only [finalize, bind_ok, require_ok] at done
  obtain ⟨_, _, ⟨consumed, outcome, raw, refund⟩, answer, _, _, done⟩ := done
  simp only [ite_ok, bind_ok, require_ok, pure_ok] at done
  rcases done with ⟨rfl, _, ⟨_, _, unpaid⟩, rfl⟩ | ⟨_, done⟩
  · refine .inl ⟨unpaid, .inr ⟨rfl, fun held => ?_⟩⟩
    exact absurd rfl ((consumeResult_outside served answer).2.2 held)
  rcases done with ⟨rfl, _, ⟨unpaid, _⟩, store, closed, _, _, _, _, _, _, rfl⟩ | ⟨_, _, _, done⟩
  · obtain ⟨rfl, _⟩ := closeSlices_ok true _ closed
    refine .inl ⟨unpaid, .inl ?_⟩
    simp only [Store.closed, Store.setRound, Function.update_self]
    rfl
  rcases done with ⟨paid, _, _, rfl⟩ | ⟨unpaid, store, closed, paid, recorded, _, _, _, _, rfl⟩
  · refine .inr ⟨paid, Function.update_self .., ?_⟩
    dsimp only
    rw [paid]
    rfl
  · obtain ⟨rfl, _⟩ := closeSlices_ok false _ closed
    simp only [allocate, bind_ok] at recorded
    obtain ⟨_, _, parts, _, recorded⟩ := recorded
    obtain ⟨store, _⟩ := recordParts_ok spares parts recorded
    refine .inl ⟨unpaid, .inl ?_⟩
    dsimp only
    rw [store]
    simp only [Store.closed, Store.setRound, Function.update_self]
    rfl

end Calls

/-- Entries that are still blocked are passed. -/
theorem pass_reaches (st : Store) (queue : List EntryId) (n head target : Nat) (room : target ≤ head + n)
    (blocked : ∀ i, head ≤ i → i < target → ∃ id, queue[i]? = some id ∧ ¬ Batcher.Fundable st id) :
    target ≤ Batcher.pass st queue n head := by
  induction n generalizing head with
  | zero => exact room
  | succ n ih =>
    by_cases there : target ≤ head
    · exact there.trans (le_pass ..)
    · obtain ⟨id, entry, spent⟩ := blocked head (Nat.le_refl _) (Nat.not_le.mp there)
      unfold Batcher.pass
      rw [entry]
      have skipped : st.available id = 0 ∨ 0 < st.pending id := by
        by_contra free
        exact spent ⟨by omega, by omega⟩
      dsimp only
      rw [if_pos skipped]
      exact ih (head + 1) (by omega) fun i low high => blocked i (by omega) high

theorem advance_effect {q next : Batcher.Store} {st : Store} {group : Policy} {cursor n : Nat}
    (taken : Batcher.advance st q group n = .ok next) (behind : cursor ≤ q.cursor group)
    (blocked : ∀ i, q.cursor group ≤ i → i < cursor + n →
      ∃ id, (q.queues group)[i]? = some id ∧ ¬ Batcher.Fundable st id) : cursor + n ≤ next.cursor group := by
  simp only [Batcher.advance, bind_ok, require_ok, pure_ok] at taken
  obtain ⟨_, _, rfl⟩ := taken
  dsimp only
  rw [Function.update_self]
  exact pass_reaches st _ n _ _ (by omega) blocked

/-- A mined transaction has done what its request asked for. -/
theorem mined_lasting {r : Request} (turn : Turn y s (r.call keeper now) after) (due : Due y s r)
    (blocked : ∀ group cursor n, r = .advance group cursor n → StillBlocked s group cursor n) : Lasting after r := by
  cases r with
  | sealEntry source epoch policy =>
    cases turn with
    | manager x env action quote clock spares served other wires taken => exact sealEntry_effect taken
  | enqueue id =>
    cases turn with
    | enqueue id q taken => exact Nat.lt_of_succ_le (enqueue_ahead taken).2.ge
  | advance group cursor n =>
    cases turn with
    | advance group max q taken =>
      obtain ⟨behind, blocked⟩ := blocked group cursor n rfl
      exact advance_effect taken behind blocked
  | depositFees adapter orderId fees18 value =>
    cases turn with
    | depositFees a id value' state rest taken ready spares =>
      intro _
      obtain ⟨fresh, rfl⟩ := StockAdapter.depositFees_ok taken
      have enough := due fresh
      simp only [Effect, put, Function.update_self]
      exact enough
  | executeAndStart plan =>
    cases turn with
    | executeAndStart x z now requested maxBudget quote limit items clock spares reserving starting some_ limited
        preview fifo reserved started =>
      obtain ⟨begun, _, order⟩ := start_effect starting started
      exact ⟨_, begun, order⟩
  | round id action status =>
    cases action with
    | poke =>
      cases turn with
      | manager x env action quote clock spares served other wires taken =>
        have funded := poke_effect taken
        simp only [Lasting, Effect, funded]
        rfl
    | submit =>
      cases turn with
      | manager x env action quote clock spares served other wires taken =>
        have sent := submit_effect taken
        simp only [Lasting, Effect, sent]
        exact Nat.ne_of_gt clock
    | cancelUnsent =>
      cases turn with
      | manager x env action quote clock spares served other wires taken => exact cancelUnsent_effect taken
    | requestCancel =>
      cases turn with
      | manager x env action quote clock spares served other wires taken => exact requestCancel_effect taken
    | finalize =>
      cases turn with
      | manager x env action quote clock spares served other wires taken =>
        apply Effect.finalize_of
        · rintro rfl
          rcases finalize_effect spares served taken with ⟨unpaid, _⟩ | ⟨_, orphan, _⟩
          · exact absurd due unpaid
          · exact orphan
        · intro other
          have resulting : Resulting y s id := by
            cases status <;> first | exact absurd rfl other | exact due
          rcases finalize_effect spares served taken with ⟨_, final | ⟨same, none⟩⟩ | ⟨_, _, final⟩
          · exact final
          · rw [same]
            exact resulting.2.resolve_right none
          · exact final

end Solonpad.RoundTasks
