import Solonpad.CursorCycle
import Solonpad.PayoutRuns

/-!
The cursor of a distributor's queue. A batch goes past the accounts it staged and past no other, so between
two resets it stages every participant once and in order; and it postpones the next scan only where it got
somewhere and nothing stopped it, or where the queue has nobody in it.
-/

namespace Solonpad.Distributor

open Checked CursorCycle
open Chain (Address)

variable {W : Type} {c : Config} {p : Payout.Config} {b : Payout.Balance W} {x : Payout.Peers W} {v : Views W}
  {env : Env} {q : Queue} {s after : State W} {id : Nat} {visits : List Visit} {t : Trace}

/-! One batch. -/

/-- The indices a batch went past from `i` on: those of the accounts it staged. -/
def processed : Nat → List Visit → List Nat
  | _, [] => []
  | i, visit :: rest =>
    if visit.outcome = .stageBlocked then processed (i + 1) rest else i :: processed (i + 1) rest

/-- The walk of a page of so many accounts from the cursor on. -/
structure Paged (v : Views W) (store : Store) (q : Queue) (cursor n : Nat) (walk : Walk W) : Prop where
  reached : walk.cursor = cursor + (processed cursor walk.visits).length
  ordered : processed cursor walk.visits = List.range' cursor (processed cursor walk.visits).length
  within : (processed cursor walk.visits).length ≤ n
  blocked : walk.blocked = true ↔ ∃ visit ∈ walk.visits, visit.outcome = .stageBlocked
  accounts : ∀ k visit, walk.visits[k]? = some visit →
    ∃ w, participantAt v store w q.source q.epoch (cursor + k) = .ok visit.account

theorem Paged.nothing (store : Store) (q : Queue) (cursor n : Nat) (payout : Payout.State W) :
    Paged v store q cursor n ⟨payout, cursor, [], false⟩ where
  reached := rfl
  ordered := rfl
  within := Nat.zero_le n
  blocked := by simp
  accounts _ _ at_ := by cases at_

/-- An account that was staged puts the walk one further. -/
theorem Paged.cons {store : Store} {cursor n : Nat} {walk : Walk W} {visit : Visit} {w : W}
    (paged : Paged v store q (cursor + 1) n walk) (staged : visit.outcome ≠ .stageBlocked)
    (here : participantAt v store w q.source q.epoch cursor = .ok visit.account) :
    Paged v store q cursor (n + 1) { walk with visits := visit :: walk.visits } := by
  have head : processed cursor (visit :: walk.visits) = cursor :: processed (cursor + 1) walk.visits :=
    if_neg staged
  constructor
  · rw [head, List.length_cons, paged.reached]
    omega
  · rw [head, List.length_cons, List.range'_succ, ← paged.ordered]
  · rw [head, List.length_cons]
    exact Nat.succ_le_succ paged.within
  · rw [paged.blocked]
    simp [staged]
  · intro k other at_
    cases k with
    | zero =>
      cases at_
      exact ⟨w, here⟩
    | succ k =>
      have later := paged.accounts k other at_
      rwa [Nat.add_right_comm, Nat.add_assoc] at later

theorem batchLoop_pages {store : Store} (n i cursor : Nat) {s : Payout.State W} {walk : Walk W}
    (done : batchLoop c p b x v store env q n i cursor s = .ok walk) : Paged v store q cursor n walk := by
  induction n generalizing i cursor s walk with
  | zero =>
    cases done
    exact .nothing ..
  | succ n ih =>
    simp only [batchLoop, ite_ok, pure_ok] at done
    rcases done with ⟨_, rfl⟩ | ⟨_, done⟩
    · exact .nothing ..
    · obtain ⟨account, here, done⟩ := (bind_ok _ _ _).mp done
      split at done
      · -- a blocked staging is a visit, but not one the cursor goes past
        cases done
        constructor
        · rfl
        · rfl
        · exact Nat.zero_le _
        · simp
        · intro k visit at_
          cases k with
          | zero =>
            cases at_
            exact ⟨_, here⟩
          | succ k => cases at_
      · split at done
        · obtain ⟨rest, walked, done⟩ := (bind_ok _ _ _).mp done
          cases done
          exact (ih _ _ walked).cons (by simp) here
        · next last paid _ =>
          obtain ⟨rest, walked, done⟩ := (bind_ok _ _ _).mp done
          cases done
          refine (ih _ _ walked).cons ?_ here
          by_cases nothing : paid = 0 <;> simp [nothing]

/-- What a batch does to its queue's cursor and to the queue's next scan. -/
structure Advances (v : Views W) (env : Env) (id : Nat) (s after : State W) (q : Queue) (visits : List Visit) :
    Prop where
  idle : env.enough = false → after = s ∧ visits = []
  reached : env.enough = true → after.store.queues = s.store.queues.set id { q with
    cursor := begins q.upperBound q.cursor + (processed (begins q.upperBound q.cursor) visits).length }
  ordered : processed (begins q.upperBound q.cursor) visits =
    List.range' (begins q.upperBound q.cursor) (processed (begins q.upperBound q.cursor) visits).length
  within : q.cursor ≤ q.upperBound →
    begins q.upperBound q.cursor + (processed (begins q.upperBound q.cursor) visits).length ≤ q.upperBound
  accounts : ∀ k visit, visits[k]? = some visit →
    ∃ w, participantAt v s.store w q.source q.epoch (begins q.upperBound q.cursor + k) = .ok visit.account
  scans : (processed (begins q.upperBound q.cursor) visits = [] ∧ q.upperBound ≠ 0) ∨
    (∃ visit ∈ visits, visit.outcome = .stageBlocked) → after.store.nextScanAt = s.store.nextScanAt

theorem batchDistribute_advances {maxAccounts maxEpochs gasBudget : Nat}
    (done : batchDistribute c p b x v s env id maxAccounts maxEpochs gasBudget = .ok (after, visits)) :
    ∃ q, s.store.queues[id]? = some q ∧ Advances v env id s after q visits := by
  simp only [batchDistribute, bind_ok, require_ok] at done
  obtain ⟨_, _, _, _, done⟩ := done
  cases queue : s.store.queues[id]? with
  | none =>
    rw [queue] at done
    cases done
  | some q =>
    refine ⟨q, rfl, ?_⟩
    rw [queue] at done
    simp only [ite_ok, bind_ok, pure_ok, Prod.mk.injEq] at done
    rcases done with ⟨low, rfl, rfl⟩ | ⟨gas, walk, walked, done⟩
    · constructor
      · exact fun _ => ⟨rfl, rfl⟩
      · intro enough
        rw [low] at enough
        cases enough
      · rfl
      · exact begins_le
      · intro k visit at_
        cases at_
      · exact fun _ => rfl
    · have paged := batchLoop_pages _ _ _ walked
      change Paged v _ q (begins q.upperBound q.cursor) _ walk at paged
      have came : visits = walk.visits ∧
          after.store.queues = s.store.queues.set id { q with cursor := walk.cursor } := by
        rcases done with ⟨_, rfl, rfl⟩ | ⟨_, rfl, rfl⟩
        · exact ⟨rfl, rfl⟩
        · exact ⟨rfl, rfl⟩
      obtain ⟨rfl, queues⟩ := came
      constructor
      · exact fun low => absurd low gas
      · intro _
        rw [queues, paged.reached]
      · exact paged.ordered
      · intro below
        have room := paged.within
        have start := begins_le below
        change _ ≤ min (begins q.upperBound q.cursor + maxAccounts) q.upperBound -
          begins q.upperBound q.cursor at room
        omega
      · exact paged.accounts
      · -- the scan is postponed in the other branch only
        intro stopped
        rcases done with ⟨_, rfl, _⟩ | ⟨free, rfl, _⟩
        · rfl
        · exfalso
          refine free ?_
          rcases stopped with ⟨none, some_⟩ | blocked
          · refine .inr ⟨?_, some_⟩
            have reached := paged.reached
            rw [none] at reached
            exact reached
          · exact .inl (paged.blocked.mpr blocked)

/-! Runs, with what one queue's batches went past. -/

/-- The distributor's states with the trace of queue `id`. The other calls are the distributor's; what the
vault and the world do in between is free. -/
inductive Traced (c : Config) (p : Payout.Config) (b : Payout.Balance W) (id : Nat) : State W → Trace → Prop where
  | deployed (payout : Payout.State W) : Traced c p b id ⟨.empty, payout⟩ .empty
  | batch {s after : State W} {t : Trace} {q : Queue} {visits : List Visit} (x : Payout.Peers W) (v : Views W)
      (env : Env) (maxAccounts maxEpochs gasBudget : Nat) (earlier : Traced c p b id s t)
      (here : s.store.queues[id]? = some q)
      (taken : batchDistribute c p b x v s env id maxAccounts maxEpochs gasBudget = .ok (after, visits)) :
      Traced c p b id after (t.page (env.enough && decide (q.cursor = q.upperBound))
        (processed (begins q.upperBound q.cursor) visits))
  | other {s after : State W} {t : Trace} (x : Payout.Peers W) (v : Views W) (env : Env) (action : Action)
      (earlier : Traced c p b id s t)
      (elsewhere : ∀ maxAccounts maxEpochs gasBudget, action ≠ .batchDistribute id maxAccounts maxEpochs gasBudget)
      (taken : step c p b x v s env action = .ok after) : Traced c p b id after t
  | world {s : State W} {t : Trace} (payout : Payout.State W) (earlier : Traced c p b id s t) :
      Traced c p b id ⟨s.store, payout⟩ t

/-- A queue that is not open yet has no trace. -/
structure Cycling (id : Nat) (s : State W) (t : Trace) : Prop where
  fresh : s.store.queues[id]? = none → t = .empty
  cycles : ∀ q, s.store.queues[id]? = some q → Cycles 0 q.upperBound q.cursor t

theorem Cycling.same (cycling : Cycling id s t) (same : after.store.queues[id]? = s.store.queues[id]?) :
    Cycling id after t where
  fresh none_ := cycling.fresh (same ▸ none_)
  cycles q here := cycling.cycles q (same ▸ here)

theorem Cycling.batched (cycling : Cycling id s t) (here : s.store.queues[id]? = some q)
    (advances : Advances v env id s after q visits) :
    Cycling id after (t.page (env.enough && decide (q.cursor = q.upperBound))
      (processed (begins q.upperBound q.cursor) visits)) := by
  have cycles := cycling.cycles q here
  cases enough : env.enough with
  | false =>
    obtain ⟨rfl, rfl⟩ := advances.idle enough
    rw [processed, Bool.false_and, Trace.page_nothing]
    exact cycling
  | true =>
    have queues := advances.reached enough
    have inside := (List.getElem?_eq_some_iff.mp here).1
    have now_ : after.store.queues[id]? = some { q with
        cursor := begins q.upperBound q.cursor + (processed (begins q.upperBound q.cursor) visits).length } := by
      rw [queues, List.getElem?_set_self inside]
    constructor
    · intro none_
      rw [now_] at none_
      cases none_
    · intro next there
      rw [now_] at there
      cases there
      have paged := cycles.page (advances.within cycles.within)
      rw [Nat.zero_add, ← advances.ordered] at paged
      exact paged

theorem Cycling.other {action : Action} (cycling : Cycling id s t)
    (elsewhere : ∀ maxAccounts maxEpochs gasBudget, action ≠ .batchDistribute id maxAccounts maxEpochs gasBudget)
    (taken : step c p b x v s env action = .ok after) : Cycling id after t := by
  cases action with
  | schedulePolicy cost maxAge =>
    simp only [step, State.own, schedulePolicy, bind_ok, require_ok, pure_ok] at taken
    obtain ⟨_, ⟨_, _, rfl⟩, rfl⟩ := taken
    exact cycling.same rfl
  | applyPolicy =>
    simp only [step, State.own, applyPolicy, bind_ok, require_ok, pure_ok] at taken
    obtain ⟨_, ⟨_, _, rfl⟩, rfl⟩ := taken
    exact cycling.same rfl
  | openQueue source epoch asset =>
    simp only [step, State.own, openQueue, bind_ok, require_ok, pure_ok, Prod.exists] at taken
    obtain ⟨_, ⟨_, _, _, _, _, _, upper, revision, _, _, _, _, _, _, _, rfl⟩, rfl⟩ := taken
    rcases Nat.lt_trichotomy id s.store.queues.length with before | rfl | beyond
    · exact cycling.same (List.getElem?_append_left before)
    · have none_ := cycling.fresh (List.getElem?_eq_none (Nat.le_refl _))
      subst none_
      constructor
      · exact fun _ => rfl
      · intro q here
        simp only [List.getElem?_concat_length, Option.some.injEq] at here
        subst here
        exact .empty 0 upper
    · refine cycling.same ?_
      simp only
      rw [List.getElem?_eq_none (Nat.le_of_lt beyond), List.getElem?_eq_none]
      rw [List.length_append, List.length_singleton]
      exact beyond
  | batchDistribute other maxAccounts maxEpochs gasBudget =>
    have different : other ≠ id := fun same => elsewhere maxAccounts maxEpochs gasBudget (by rw [same])
    simp only [step, bind_ok, pure_ok] at taken
    obtain ⟨⟨next, visits⟩, batch, rfl⟩ := taken
    obtain ⟨q, _, advances⟩ := batchDistribute_advances batch
    refine cycling.same ?_
    cases enough : env.enough with
    | false =>
      obtain ⟨rfl, _⟩ := advances.idle enough
      rfl
    | true =>
      rw [advances.reached enough, List.getElem?_set_ne different]
  | claim source epochs assets =>
    simp only [step, claim, bind_ok, require_ok, pure_ok] at taken
    obtain ⟨⟨next, _⟩, ⟨_, _, _, _, same⟩, rfl⟩ := taken
    cases same
    exact cycling.same rfl

end Solonpad.Distributor
