import Solonpad.DeskService
import Solonpad.DeskTurns
import Solonpad.DistributorCycle

/-!
The cursor of a card queue. A batch visits the cards from the cursor on one by one, and each of them is the
protocol's, or pushed to, or counted as failed; between two wraps every card of the queue is visited once
and in order. The distributor's queues and the card queues are held to one law.
-/

namespace Solonpad.Desk

open Checked CursorCycle
open Chain (Address)
open Eligibility (day)

variable {W : Type} {c : Config} {b : Balance W} {x : Peers W} {v : ServiceViews W} {env : ServiceEnv}
  {id : Nat} {q : DeskQueue} {visits : List CardVisit} {s after : Serviced W} {t : Trace}

/-! One push. -/

theorem executeAutomaticPush_cards {s after : State W} {now amount : Nat}
    (done : executeAutomaticPush c b x v s now q id = .ok (after, amount)) : after.cards = s.cards := by
  simp only [executeAutomaticPush, bind_ok, ite_ok, pure_ok, require_ok, relay_ok, pay, Prod.exists,
    Prod.mk.injEq] at done
  obtain ⟨_, _, _, _, _, ⟨_, rfl, _⟩ | ⟨_, _, _, _, _, ⟨_, rfl, _⟩ | ⟨_, _, _, _, _, _, _, paid⟩⟩⟩ := done
  · rfl
  · rfl
  · exact (payKeys_keeps _ paid).1

/-- How a card was dealt with: the protocol's are skipped, and the others are pushed to in a call of their
own, whether it succeeds or fails. -/
def Served (c : Config) (b : Balance W) (x : Peers W) (v : ServiceViews W) (env : ServiceEnv) (q : DeskQueue)
    (cards : Cards) (i : Nat) (visit : CardVisit) : Prop :=
  match visit.ends with
  | .delegated => cards.ownerOf visit.id = cards.protocolVault
  | .pushed amount => cards.ownerOf visit.id ≠ cards.protocolVault ∧ ∃ s after : State W,
      executeAutomaticPush c b x v s env.call.now q visit.id = .ok (after, amount)
  | .failed => cards.ownerOf visit.id ≠ cards.protocolVault ∧ ((env.gas i).push = false ∨
      ∃ (s : State W) (fault : Fault ServiceError),
        executeAutomaticPush c b x v s env.call.now q visit.id = .error fault)

/-- The walk over so many cards from the cursor on. -/
structure Walked (c : Config) (b : Balance W) (x : Peers W) (v : ServiceViews W) (env : ServiceEnv)
    (q : DeskQueue) (cards : Cards) (i n start cursor : Nat) (visits : List CardVisit) : Prop where
  reached : cursor = start + visits.length
  ordered : visits.map CardVisit.id = List.range' (1 + start) visits.length
  within : visits.length ≤ n
  served : ∀ k visit, visits[k]? = some visit → Served c b x v env q cards (i + k) visit

theorem Walked.nothing (q : DeskQueue) (cards : Cards) (i n start : Nat) :
    Walked c b x v env q cards i n start start [] where
  reached := rfl
  ordered := rfl
  within := Nat.zero_le n
  served _ _ at_ := by cases at_

theorem Walked.cons {cards : Cards} {i n start cursor : Nat} {ends : Pushed}
    (walked : Walked c b x v env q cards (i + 1) n (start + 1) cursor visits)
    (served : Served c b x v env q cards i ⟨start + 1, ends⟩) :
    Walked c b x v env q cards i (n + 1) start cursor (⟨start + 1, ends⟩ :: visits) := by
  constructor
  · rw [walked.reached, List.length_cons]
    omega
  · rw [List.map_cons, List.length_cons, walked.ordered, List.range'_succ, Nat.add_comm 1 start,
      Nat.add_comm 1 (start + 1)]
  · exact Nat.succ_le_succ walked.within
  · intro k visit at_
    cases k with
    | zero =>
      cases at_
      exact served
    | succ k =>
      have later := walked.served k visit at_
      rwa [Nat.add_right_comm, Nat.add_assoc] at later

theorem cardLoop_walks (n i start : Nat) {s after : State W} {cursor : Nat}
    (done : cardLoop c b x v env q n i start s = .ok (after, cursor, visits)) :
    after.cards = s.cards ∧ Walked c b x v env q s.cards i n start cursor visits := by
  induction n generalizing i start s after cursor visits with
  | zero =>
    cases done
    exact ⟨rfl, .nothing ..⟩
  | succ n ih =>
    simp only [cardLoop, ownerOf, ite_ok, bind_ok, require_ok, pure_ok, Prod.mk.injEq] at done
    rcases done with ⟨_, rfl, rfl, rfl⟩ | ⟨_, _, ⟨_, _, rfl⟩, ⟨own, ⟨next, far, rest⟩, walked, rfl, rfl, rfl⟩ | ⟨other, done⟩⟩
    · exact ⟨rfl, .nothing ..⟩
    · obtain ⟨cards, walks⟩ := ih _ _ walked
      exact ⟨cards, walks.cons own⟩
    · split at done
      · next failed =>
        simp only [bind_ok, pure_ok, Prod.exists, Prod.mk.injEq] at done
        obtain ⟨next, far, rest, walked, rfl, rfl, rfl⟩ := done
        obtain ⟨cards, walks⟩ := ih _ _ walked
        refine ⟨cards, walks.cons ⟨other, ?_⟩⟩
        rcases (attempted_none _ _).mp failed with out | ⟨fault, failed⟩
        · exact .inl out
        · exact .inr ⟨s, fault, failed⟩
      · next middle amount got =>
        obtain ⟨_, pushed⟩ := (attempted_some _ _ _).mp got
        have same := executeAutomaticPush_cards pushed
        simp only [bind_ok, pure_ok, Prod.exists, Prod.mk.injEq] at done
        obtain ⟨next, far, rest, walked, rfl, rfl, rfl⟩ := done
        obtain ⟨cards, walks⟩ := ih _ _ walked
        rw [same] at cards walks
        exact ⟨cards, walks.cons ⟨other, s, middle, pushed⟩⟩

/-! One batch. -/

/-- What a batch does to its queue's cursor and to the queue's next scan. -/
structure Advances (c : Config) (b : Balance W) (x : Peers W) (v : ServiceViews W) (env : ServiceEnv) (id : Nat)
    (s after : Serviced W) (q : DeskQueue) (visits : List CardVisit) : Prop where
  idle : env.enough = false → after = s ∧ visits = []
  reached : env.enough = true → ∃ nextScanAt, after.service.deskQueues = s.service.deskQueues.set id { q with
    cursor := begins q.upperBound q.cursor + visits.length, nextScanAt := nextScanAt }
  ordered : visits.map CardVisit.id = List.range' (1 + begins q.upperBound q.cursor) visits.length
  within : q.cursor ≤ q.upperBound → begins q.upperBound q.cursor + visits.length ≤ q.upperBound
  served : ∀ k visit, visits[k]? = some visit → Served c b x v env q s.desk.cards k visit
  scans : visits = [] → ∀ next, after.service.deskQueues[id]? = some next → next.nextScanAt = q.nextScanAt

theorem batchDistributeDesk_advances {maxCards : Nat}
    (done : batchDistributeDesk c b x v s env id maxCards = .ok (after, visits)) :
    ∃ q, s.service.deskQueues[id]? = some q ∧ Advances c b x v env id s after q visits := by
  simp only [batchDistributeDesk, bind_ok, require_ok] at done
  obtain ⟨_, _, _, _, done⟩ := done
  cases queue : s.service.deskQueues[id]? with
  | none =>
    rw [queue] at done
    cases done
  | some q =>
    refine ⟨q, rfl, ?_⟩
    rw [queue] at done
    simp only [bind_ok, require_ok, ite_ok, pure_ok, Prod.exists, Prod.mk.injEq] at done
    obtain ⟨_, _, ⟨low, rfl, rfl⟩ | ⟨gas, desk, cursor, rest, walked, rfl, rfl⟩⟩ := done
    · constructor
      · exact fun _ => ⟨rfl, rfl⟩
      · intro enough
        rw [low] at enough
        cases enough
      · rfl
      · exact begins_le
      · intro k visit at_
        cases at_
      · intro _ next there
        rw [queue] at there
        cases there
        rfl
    · obtain ⟨_, walks⟩ := cardLoop_walks _ _ _ walked
      change Walked c b x v env q s.desk.cards 0 _ (begins q.upperBound q.cursor) cursor rest at walks
      constructor
      · exact fun low => absurd low gas
      · intro _
        rw [walks.reached]
        exact ⟨_, rfl⟩
      · exact walks.ordered
      · intro below
        have room := walks.within
        have start := begins_le below
        change _ ≤ min (begins q.upperBound q.cursor + maxCards) q.upperBound -
          begins q.upperBound q.cursor at room
        omega
      · intro k visit at_
        have served := walks.served k visit at_
        rwa [Nat.zero_add] at served
      · rintro rfl next there
        have inside := (List.getElem?_eq_some_iff.mp queue).1
        rw [List.getElem?_set_self inside] at there
        cases there
        have still := walks.reached
        exact if_neg (not_not.mpr still)

/-! Runs, with what one queue's batches visited. -/

/-- The service's states with the trace of queue `id`. What the cards, their rewards and the world do in
between is free. -/
inductive Traced (c : Config) (b : Balance W) (id : Nat) : Serviced W → Trace → Prop where
  | deployed (desk : State W) : Traced c b id ⟨desk, .empty⟩ .empty
  | batch {s after : Serviced W} {t : Trace} {q : DeskQueue} {visits : List CardVisit} (x : Peers W)
      (v : ServiceViews W) (env : ServiceEnv) (maxCards : Nat) (earlier : Traced c b id s t)
      (here : s.service.deskQueues[id]? = some q)
      (taken : batchDistributeDesk c b x v s env id maxCards = .ok (after, visits)) :
      Traced c b id after (t.page (env.enough && decide (q.cursor = q.upperBound)) (visits.map CardVisit.id))
  | other {s after : Serviced W} {t : Trace} (x : Peers W) (v : ServiceViews W) (env : ServiceEnv)
      (action : ServiceAction) (earlier : Traced c b id s t)
      (elsewhere : ∀ maxCards, action ≠ .batchDistributeDesk id maxCards)
      (taken : serve c b x v s env action = .ok after) : Traced c b id after t
  | desk {s : Serviced W} {t : Trace} (desk : State W) (earlier : Traced c b id s t) :
      Traced c b id ⟨desk, s.service⟩ t

/-- A queue that is not open yet has no trace. -/
structure Cycling (id : Nat) (s : Serviced W) (t : Trace) : Prop where
  fresh : s.service.deskQueues[id]? = none → t = .empty
  cycles : ∀ q, s.service.deskQueues[id]? = some q → Cycles 1 q.upperBound q.cursor t

theorem Cycling.same (cycling : Cycling id s t)
    (same : after.service.deskQueues[id]? = s.service.deskQueues[id]?) : Cycling id after t where
  fresh none_ := cycling.fresh (same ▸ none_)
  cycles q here := cycling.cycles q (same ▸ here)

theorem Cycling.batched (cycling : Cycling id s t) (here : s.service.deskQueues[id]? = some q)
    (advances : Advances c b x v env id s after q visits) :
    Cycling id after (t.page (env.enough && decide (q.cursor = q.upperBound)) (visits.map CardVisit.id)) := by
  have cycles := cycling.cycles q here
  cases enough : env.enough with
  | false =>
    obtain ⟨rfl, rfl⟩ := advances.idle enough
    rw [List.map_nil, Bool.false_and, Trace.page_nothing]
    exact cycling
  | true =>
    obtain ⟨nextScanAt, queues⟩ := advances.reached enough
    have inside := (List.getElem?_eq_some_iff.mp here).1
    have now_ : after.service.deskQueues[id]? = some { q with
        cursor := begins q.upperBound q.cursor + visits.length, nextScanAt := nextScanAt } := by
      rw [queues, List.getElem?_set_self inside]
    constructor
    · intro none_
      rw [now_] at none_
      cases none_
    · intro next there
      rw [now_] at there
      cases there
      have paged := cycles.page (advances.within cycles.within)
      rw [← advances.ordered] at paged
      exact paged

theorem Cycling.other {action : ServiceAction} (cycling : Cycling id s t)
    (elsewhere : ∀ maxCards, action ≠ .batchDistributeDesk id maxCards)
    (taken : serve c b x v s env action = .ok after) : Cycling id after t := by
  cases action with
  | configureServicePolicy policy =>
    simp only [serve, configureServicePolicy, bind_ok, require_ok, pure_ok] at taken
    obtain ⟨_, ⟨_, _, _, _, rfl⟩, rfl⟩ := taken
    exact cycling.same rfl
  | openDeskQueue keys =>
    simp only [serve, openDeskQueue, bind_ok, require_ok, pure_ok, Prod.exists] at taken
    obtain ⟨service, ⟨_, _, asset, revisions, _, _, _, opened⟩, rfl⟩ := taken
    cases keys with
    | nil => cases opened
    | cons first rest =>
      cases opened
      rcases Nat.lt_trichotomy id s.service.deskQueues.length with before | rfl | beyond
      · exact cycling.same (List.getElem?_append_left before)
      · have none_ := cycling.fresh (List.getElem?_eq_none (Nat.le_refl _))
        subst none_
        constructor
        · exact fun _ => rfl
        · intro q here
          simp only [List.getElem?_concat_length, Option.some.injEq] at here
          subst here
          exact .empty 1 _
      · refine cycling.same ?_
        simp only
        rw [List.getElem?_eq_none (Nat.le_of_lt beyond), List.getElem?_eq_none]
        rw [List.length_append, List.length_singleton]
        exact beyond
  | batchDistributeDesk other maxCards =>
    have different : other ≠ id := fun same => elsewhere maxCards (by rw [same])
    simp only [serve, bind_ok, pure_ok, Prod.exists] at taken
    obtain ⟨next, visits, batch, rfl⟩ := taken
    obtain ⟨q, _, advances⟩ := batchDistributeDesk_advances batch
    refine cycling.same ?_
    cases enough : env.enough with
    | false =>
      obtain ⟨rfl, _⟩ := advances.idle enough
      rfl
    | true =>
      obtain ⟨nextScanAt, queues⟩ := advances.reached enough
      rw [queues, List.getElem?_set_ne different]

end Solonpad.Desk

namespace Solonpad.Distributor

open Checked CursorCycle

def samplePayout : Payout.State Holdings :=
  ⟨{ Payout.Store.empty with trustedSource := Function.update (fun _ => false) 30 true }, fun _ _ => 0⟩

end Solonpad.Distributor
