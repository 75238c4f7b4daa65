import Solonpad.VaultCustody

/-!
The vault seen as the book of its answers: what it owes Arc in shares, which refs are
settled, which orders wait for money and every result in sequence. The book is what the
hub learns of the vault; each move of the vault is one move of the book, and no more than
one entry of it belongs to any order.
-/

namespace Solonpad.Vault

open Checked Chain Messages Transition

structure Book where
  entitledOf : Address → Nat
  results : List Result
  outbox : List Result
  settled : Ref → Bool
  waiting : Ref → Order
  migrationNonce : Address → Nat

def State.book (s : State) : Book where
  entitledOf := s.entitledOf
  results := s.results
  outbox := s.outbox
  settled := s.settled
  waiting := s.waiting
  migrationNonce := s.migrationNonce

/-- What an execution does to the entitlement and reports. -/
inductive Booked (entitledOf : Address → Nat) (o : Order) :
    Outcome → Nat → (Address → Nat) → Prop where
  | failed : Booked entitledOf o .failed 0 entitledOf
  | bought (shares : Nat) (buy : o.side = .buy) (positive : o.amountIn ≠ 0)
      (floor : o.minOut ≤ shares) :
      Booked entitledOf o .bought (toUint128 shares)
        (Function.update entitledOf o.underlying (entitledOf o.underlying + shares))
  | sold (out : Nat) (sell : o.side = .sell) (covered : o.amountIn ≤ entitledOf o.underlying)
      (floor : o.minOut ≤ out) :
      Booked entitledOf o .sold (toUint128 out)
        (Function.update entitledOf o.underlying (entitledOf o.underlying - o.amountIn))

def Book.seq (b : Book) : Nat := toUint64 b.results.length

def Book.answer (b : Book) (o : Order) (outcome : Outcome) (amountOut : Nat) : Result :=
  ⟨o.ref, o.underlying, outcome, o.amountIn, amountOut, b.seq⟩

inductive BookMove (b : Book) : Action → Book → Prop where
  | quiet (action : Action) : BookMove b action b
  | waits (srcEid : Nat) (o : Order) (fill : Option Fill) (fee : Nat)
      (unanswered : b.settled o.ref = false) (buy : o.side = .buy) (positive : o.amountIn ≠ 0) :
      BookMove b (.lzReceive srcEid o fill fee)
        { b with waiting := Function.update b.waiting o.ref o }
  | answers (action : Action) (o : Order) (waiting : Ref → Order)
      (origin : Origin b.settled b.waiting action o waiting) (outcome : Outcome) (amountOut : Nat)
      (entitledOf : Address → Nat) (booked : Booked b.entitledOf o outcome amountOut entitledOf) :
      BookMove b action { b with
        entitledOf := entitledOf
        settled := Function.update b.settled o.ref true
        waiting := waiting
        results := b.results ++ [b.answer o outcome amountOut]
        outbox := b.outbox ++ [b.answer o outcome amountOut] }
  | closes (d : Deliver) (fill : Option Fill) (accepted : Bool)
      (unanswered : b.settled d.ref = false) (none : d.shares = 0) :
      BookMove b (.deliver d fill accepted) { b with
        settled := Function.update b.settled d.ref true
        waiting := Function.update b.waiting d.ref Order.blank
        results := b.results ++ [⟨d.ref, d.underlying, .failed, 0, 0, b.seq⟩] }
  | delivers (d : Deliver) (fill : Option Fill) (accepted : Bool)
      (unanswered : b.settled d.ref = false) (some : d.shares ≠ 0)
      (covered : d.shares ≤ b.entitledOf d.underlying) :
      BookMove b (.deliver d fill accepted) { b with
        entitledOf :=
          Function.update b.entitledOf d.underlying (b.entitledOf d.underlying - d.shares)
        settled := Function.update b.settled d.ref true
        waiting := Function.update b.waiting d.ref Order.blank
        results := b.results ++ [⟨d.ref, d.underlying, .sold, d.shares, 0, b.seq⟩] }
  | migrates (underlying : Address) (settlementIn minShares : Nat) (fill : Option Fill)
      (shares : Nat) :
      BookMove b (.migrateIn underlying settlementIn minShares fill) { b with
        entitledOf := Function.update b.entitledOf underlying (b.entitledOf underlying + shares)
        migrationNonce :=
          Function.update b.migrationNonce underlying (b.migrationNonce underlying + 1)
        results := b.results ++ [⟨.migration underlying (b.migrationNonce underlying), underlying,
          .bought, toUint128 settlementIn, toUint128 shares, b.seq⟩] }

variable {c : Config} {b after : Book} {action : Action}

theorem executes_book {s : State} {o : Order} {done : Executed} (executes : Executes c s o done) :
    done.state.book = { s.book with entitledOf := done.state.entitledOf } ∧
      Booked s.entitledOf o done.outcome done.amountOut done.state.entitledOf := by
  cases executes with
  | failed => exact ⟨rfl, .failed⟩
  | bought own fill shares _ buy positive _ _ _ _ traded =>
    exact ⟨rfl, .bought shares buy positive traded.floor⟩
  | sold fill out _ sell _ covered traded => exact ⟨rfl, .sold out sell covered traded.floor⟩

theorem pay_book (s : State) (token recipient : Address) (amount : Nat) :
    (s.pay c token recipient amount).book = s.book := by
  obtain ⟨_, paid, _⟩ := pay_spec (c := c) s token recipient amount
  rw [paid]
  rfl

theorem push_book (s : State) (token recipient : Address) (amount : Nat) (accepted : Bool) :
    (push c s token recipient amount accepted).book = s.book := by
  obtain ⟨_, _, _, pushed, _⟩ := push_spec (c := c) s token recipient amount accepted
  rw [pushed]
  rfl

/-- The record of an answer in the book. -/
def Book.answered (b : Book) (o : Order) (outcome : Outcome) (amountOut : Nat) : Book :=
  { b with
    results := b.results ++ [b.answer o outcome amountOut]
    outbox := b.outbox ++ [b.answer o outcome amountOut] }

theorem answered_book (done : Executed) (o : Order) (fee : Nat) :
    (done.answered o fee).book = done.state.book.answered o done.outcome done.amountOut := rfl

/-- Every move of the vault is one move of its book. -/
theorem move_book {s after : State} {call : Call} (move : Move c s call after) :
    BookMove s.book call.action after.book := by
  cases move with
  | waits _ _ srcEid o fill fee unanswered absent buy positive =>
    exact .waits srcEid o fill fee unanswered buy positive
  | answers _ o waiting origin done fee executes =>
    obtain ⟨same, booked⟩ := executes_book executes
    rw [answered_book, same]
    exact .answers _ o waiting origin done.outcome done.amountOut done.state.entitledOf booked
  | handsOver _ _ d _ accepted =>
    have same : (s.handedOver c d accepted).book = s.book := push_book (s.taken d.ref) _ _ _ _
    rw [same]
    exact .quiet _
  | closesUnanswered _ _ d fill accepted unanswered none =>
    have same : ((s.closed d.ref d.underlying .failed 0).handedOver c d accepted).book =
        (s.closed d.ref d.underlying .failed 0).book :=
      push_book ((s.closed d.ref d.underlying .failed 0).taken d.ref) _ _ _ _
    rw [same]
    exact .closes d fill accepted unanswered none
  | deliversStock _ _ d fill accepted unanswered some listed covered =>
    have same : (s.deliveredStock c d accepted).book = (s.delivering d).book :=
      push_book (s.delivering d) _ _ _ _
    rw [same]
    exact .delivers d fill accepted unanswered some covered
  | deliversSale _ _ d fill out accepted unanswered some listed covered mode traded =>
    have same : (s.deliveredSale c d fill out accepted).book = (s.delivering d).book :=
      push_book ((s.delivering d).traded d.underlying c.settlement fill) _ _ _ _
    rw [same]
    exact .delivers d _ accepted unanswered some covered
  | claimed sender _ token =>
    have same : (s.claimed c sender token).book = s.book :=
      pay_book (s.unclaimed sender token) _ _ _
    rw [same]
    exact .quiet _
  | withdraws _ _ token recipient amount =>
    rw [pay_book s token recipient amount]
    exact .quiet _
  | skims _ _ underlying =>
    rw [pay_book]
    exact .quiet _
  | migrates _ _ underlying settlementIn minShares fill shares =>
    exact .migrates underlying settlementIn minShares _ shares
  | ignored | funded | returned | checkpoints | withdrawsNative | lists | enables | configured
  | donated | received => exact .quiet _

/-! One result for every ref. -/

structure Book.Orderly (b : Book) : Prop where
  /-- An order waits under its own ref, which has no answer yet. -/
  waiting : ∀ ref, (b.waiting ref).underlying ≠ 0 →
    (b.waiting ref).ref = ref ∧ b.settled ref = false
  answered : ∀ r ∈ b.results, isMigrationRef r.ref = false → b.settled r.ref = true
  once : ∀ ref, isMigrationRef ref = false → (b.results.map Result.ref).count ref ≤ 1
  seqs : ∀ i r, b.results[i]? = some r → r.seq = toUint64 i

theorem deployed_orderly (owner bridger : Address) : (deployed owner bridger).book.Orderly where
  waiting := fun _ present => absurd rfl present
  answered := fun _ member => by cases member
  once := fun _ _ => Nat.zero_le 1
  seqs := fun _ _ found => by simp [State.book, deployed] at found

theorem appended_seq {results : List Result} (record : Result)
    (seqs : ∀ i r, results[i]? = some r → r.seq = toUint64 i) (next : record.seq = toUint64 results.length) (i : Nat)
    (r : Result) (found : (results ++ [record])[i]? = some r) : r.seq = toUint64 i := by
  rw [List.getElem?_append] at found
  split at found
  · exact seqs i r found
  · next beyond =>
    have last : i = results.length := by
      by_contra other
      rw [List.getElem?_eq_none (by simp; omega)] at found
      cases found
    subst last
    simp only [Nat.sub_self, List.getElem?_cons_zero, Option.some.injEq] at found
    rw [← found, next]

/-- A ref without an answer has no result yet, so its first one is its only one. -/
theorem Book.Orderly.fresh (orderly : b.Orderly) (ref : Ref) (unanswered : b.settled ref = false)
    (own : isMigrationRef ref = false) : (b.results.map Result.ref).count ref = 0 := by
  rw [List.count_eq_zero]
  intro member
  obtain ⟨r, inside, rfl⟩ := List.mem_map.mp member
  have := orderly.answered r inside own
  rw [unanswered] at this
  cases this

/-- Settling an unanswered ref with one result keeps the book in order. -/
theorem Book.Orderly.settle (orderly : b.Orderly) (record : Result)
    (unanswered : b.settled record.ref = false) (seq : record.seq = b.seq)
    (results : after.results = b.results ++ [record])
    (settled : after.settled = Function.update b.settled record.ref true)
    (waiting : ∀ ref, (after.waiting ref).underlying ≠ 0 →
      ref ≠ record.ref ∧ after.waiting ref = b.waiting ref) : after.Orderly where
  waiting := by
    intro ref present
    obtain ⟨other, same⟩ := waiting ref present
    rw [same] at present ⊢
    rw [settled, Function.update_of_ne other]
    exact orderly.waiting ref present
  answered := by
    intro r member own
    rw [results, List.mem_append, List.mem_singleton] at member
    rw [settled, Function.update_apply]
    split
    · rfl
    · next other =>
      rcases member with earlier | rfl
      · exact orderly.answered r earlier own
      · exact absurd rfl other
  once := by
    intro ref own
    rw [results, List.map_append, List.count_append]
    have earlier := orderly.once ref own
    by_cases same : record.ref = ref
    · subst same
      rw [orderly.fresh record.ref unanswered own]
      simp
    · simpa [same] using earlier
  seqs := by
    rw [results]
    exact appended_seq record orderly.seqs seq

/-- What still waits after one ref's order is cleared waited under another ref. -/
theorem cleared_waiting (waiting : Ref → Order) (key ref : Ref)
    (present : (Function.update waiting key Order.blank ref).underlying ≠ 0) :
    ref ≠ key ∧ Function.update waiting key Order.blank ref = waiting ref := by
  by_cases same : ref = key
  · rw [same, Function.update_self] at present
    exact absurd rfl present
  · exact ⟨same, Function.update_of_ne same _ _⟩

/-- The order an answer is given to has no answer yet and no longer waits. -/
theorem Origin.spec (orderly : b.Orderly) {o : Order} {waiting : Ref → Order}
    (origin : Origin b.settled b.waiting action o waiting) :
    b.settled o.ref = false ∧ ∀ ref, (waiting ref).underlying ≠ 0 →
      ref ≠ o.ref ∧ waiting ref = b.waiting ref := by
  cases origin with
  | voided _ _ _ _ unanswered => exact ⟨unanswered, cleared_waiting b.waiting o.ref⟩
  | received _ _ _ _ unanswered absent =>
    exact ⟨unanswered, fun ref present => ⟨fun same => present (same ▸ absent), rfl⟩⟩
  | funded ref _ _ unanswered present =>
    rw [(orderly.waiting ref present).1]
    exact ⟨unanswered, cleared_waiting b.waiting ref⟩

theorem bookMove_orderly (orderly : b.Orderly) (move : BookMove b action after) : after.Orderly := by
  cases move with
  | quiet => exact orderly
  | waits _ o _ _ unanswered =>
    refine ⟨fun ref present => ?_, orderly.answered, orderly.once, orderly.seqs⟩
    by_cases same : ref = o.ref
    · subst same
      simpa using unanswered
    · simp only [Function.update_of_ne same] at present ⊢
      exact orderly.waiting ref present
  | answers _ o waiting origin outcome amountOut entitledOf booked =>
    obtain ⟨unanswered, still⟩ := Origin.spec orderly origin
    exact orderly.settle (b.answer o outcome amountOut) unanswered rfl rfl rfl still
  | closes d _ _ unanswered | delivers d _ _ unanswered =>
    exact orderly.settle _ unanswered rfl rfl rfl (cleared_waiting b.waiting d.ref)
  | migrates underlying settlementIn minShares fill shares =>
    refine ⟨orderly.waiting, fun r member own => ?_, fun ref own => ?_,
      appended_seq _ orderly.seqs rfl⟩
    · rw [List.mem_append, List.mem_singleton] at member
      rcases member with earlier | rfl
      · exact orderly.answered r earlier own
      · cases own
    · have earlier := orderly.once ref own
      have other : ref ≠ .migration underlying (b.migrationNonce underlying) := by
        rintro rfl
        cases own
      simpa [List.count_append, List.count_cons, other.symm] using earlier

/-- Settled refs stay settled. -/
theorem bookMove_settled (move : BookMove b action after) (ref : Ref) (answered : b.settled ref = true) :
    after.settled ref = true := by
  cases move with
  | quiet | waits | migrates => exact answered
  | answers | closes | delivers =>
    simp only [Function.update_apply]
    split
    · rfl
    · exact answered

end Solonpad.Vault
