import Solonpad.Journal

/-!
`send` of `tx.mjs` for a keeper whose own steps are followed instead: what one call leaves of the task, and what it
answers. `received` are the transactions that the provider has a receipt of success for.
-/

namespace Solonpad.Journal

variable {Signed : Type}

inductive Outcome where
  /-- Quarantined, backing off, above the gas cap, dry, still in flight, or confirmed and its receipt not served. -/
  | deferred
  /-- The simulation, the broadcast or the transaction failed, or the sender gave it up. -/
  | failed
  | signed
  | confirmed
  deriving DecidableEq, Repr

inductive Answer (Signed : Type) where
  | other
  /-- Written down and handed over; its receipt is waited for. -/
  | sent (tx : Signed)
  | confirmed (tx : Signed)

variable (received : Signed → Prop) [DecidablePred received]

/-- The journal's transaction of a task in flight or confirmed, when it has a receipt; the journal notes it. -/
def reconciled (task : Option (Task Signed)) (now : Nat) : Option (Option (Task Signed) × Signed) :=
  match taskGate task now, task.bind Task.tx with
  | .reconcile, some tx => if received tx then some (some (markConfirmed task tx), tx) else none
  | .confirmed, some tx => if received tx then some (task, tx) else none
  | _, _ => none

/-- `send` up to the hand-over of `tx`. -/
def send (task : Option (Task Signed)) (tx : Signed) (outcome : Outcome) (now : Nat) :
    Option (Option (Task Signed) × Answer Signed) :=
  match outcome with
  | .deferred => some (task, .other)
  | .failed =>
    if taskGate task now = .go ∨ taskGate task now = .reconcile then some (some (markFailure task now), .other)
    else none
  | .signed => if taskGate task now = .go then some (some (markSent task tx now), .sent tx) else none
  | .confirmed => (reconciled received task now).map fun (task, tx) => (task, .confirmed tx)

/-- `send` from the hand-over on. -/
def await (task : Option (Task Signed)) (tx : Signed) (outcome : Outcome) (now : Nat) :
    Option (Option (Task Signed) × Answer Signed) :=
  match outcome with
  | .deferred => some (task, .other)
  | .failed => some (some (markFailure task now), .other)
  | .signed => none
  | .confirmed => if received tx then some (some (markConfirmed task tx), .confirmed tx) else none

/-- `reconcile` of a task in flight, from `reconcileAll`. -/
def settle (task : Option (Task Signed)) (outcome : Outcome) (now : Nat) : Option (Option (Task Signed)) :=
  if taskGate task now = .reconcile then
    match outcome with
    | .deferred => some task
    | .failed => some (some (markFailure task now))
    | .signed => none
    | .confirmed => (reconciled received task now).map Prod.fst
  else none

/-! What the answers mean. -/

variable {received} {task after : Option (Task Signed)} {tx other : Signed} {outcome : Outcome} {now : Nat}
  {answer : Answer Signed}

/-- The transaction that a task notes. -/
def Notes (task : Option (Task Signed)) (tx : Signed) : Prop := ∃ t, task = some t ∧ t.tx = some tx

theorem markFailure_notes (noted : Notes (some (markFailure task now)) tx) : Notes task tx := by
  obtain ⟨_, ⟨⟩, same⟩ := noted
  cases task with
  | none => cases same
  | some t => exact ⟨t, rfl, same⟩

theorem markSent_notes (noted : Notes (some (markSent task other now)) tx) : tx = other := by
  obtain ⟨_, ⟨⟩, same⟩ := noted
  exact (Option.some.inj same).symm

theorem markConfirmed_notes (noted : Notes (some (markConfirmed task other)) tx) : tx = other := by
  obtain ⟨_, ⟨⟩, same⟩ := noted
  exact (Option.some.inj same).symm

theorem reconciled_some (done : reconciled received task now = some (after, other)) :
    received other ∧ Notes task other ∧ ¬ Open task ∧ (after = task ∨ after = some (markConfirmed task other)) := by
  cases task with
  | none => cases done
  | some t =>
    have closed : taskGate (some t) now = .reconcile ∨ taskGate (some t) now = .confirmed → ¬ Open (some t) := by
      intro gate free
      have state := free t rfl
      cases held : t.state with
      | sent => exact state.1 held
      | confirmed => exact state.2 held
      | ready | quarantined =>
        rcases gate with gate | gate <;> simp only [taskGate, held] at gate <;> cases gate
      | retryable =>
        rcases gate with gate | gate <;> simp only [taskGate, held] at gate <;> split at gate <;> cases gate
    unfold reconciled at done
    dsimp only [Option.bind_some] at done
    split at done
    · next gate noted =>
      split at done <;> cases done
      exact ⟨‹_›, ⟨t, rfl, noted⟩, closed (.inl gate), .inr rfl⟩
    · next gate noted =>
      split at done <;> cases done
      exact ⟨‹_›, ⟨t, rfl, noted⟩, closed (.inr gate), .inl rfl⟩
    · cases done

/-- The transaction that a task notes after a call is the one it noted before, or the one just signed. -/
theorem send_notes (done : send received task tx outcome now = some (after, answer))
    (noted : Notes after other) : Notes task other ∨ other = tx ∧ answer = .sent tx := by
  cases outcome with
  | deferred =>
    cases done
    exact .inl noted
  | failed =>
    simp only [send] at done
    split at done <;> cases done
    exact .inl (markFailure_notes noted)
  | signed =>
    simp only [send] at done
    split at done <;> cases done
    exact .inr ⟨markSent_notes noted, rfl⟩
  | confirmed =>
    simp only [send, Option.map_eq_some_iff, Prod.exists] at done
    obtain ⟨_, _, found, ⟨⟩⟩ := done
    obtain ⟨_, held, _, rfl | rfl⟩ := reconciled_some found
    · exact .inl noted
    · exact .inl (markConfirmed_notes noted ▸ held)

/-- A call that signs found the task open. -/
theorem send_sent (done : send received task tx outcome now = some (after, .sent other)) : other = tx ∧ Open task := by
  cases outcome with
  | deferred => cases done
  | failed =>
    simp only [send] at done
    split at done <;> cases done
  | signed =>
    simp only [send] at done
    split at done <;> cases done
    exact ⟨rfl, taskGate_go ‹_›⟩
  | confirmed =>
    simp only [send, Option.map_eq_some_iff, Prod.exists] at done
    obtain ⟨_, _, _, same⟩ := done
    cases same

/-- A call that confirms answers from the journal. -/
theorem send_confirmed (done : send received task tx outcome now = some (after, .confirmed other)) :
    received other ∧ Notes task other := by
  cases outcome with
  | deferred => cases done
  | failed =>
    simp only [send] at done
    split at done <;> cases done
  | signed =>
    simp only [send] at done
    split at done <;> cases done
  | confirmed =>
    simp only [send, Option.map_eq_some_iff, Prod.exists] at done
    obtain ⟨_, _, found, ⟨⟩⟩ := done
    exact ⟨(reconciled_some found).1, (reconciled_some found).2.1⟩

theorem await_notes (done : await received task tx outcome now = some (after, answer))
    (noted : Notes after other) : Notes task other ∨ other = tx := by
  cases outcome with
  | deferred =>
    cases done
    exact .inl noted
  | failed =>
    cases done
    exact .inl (markFailure_notes noted)
  | signed => cases done
  | confirmed =>
    simp only [await] at done
    split at done <;> cases done
    exact .inr (markConfirmed_notes noted)

theorem settle_notes (done : settle received task outcome now = some after) (noted : Notes after other) :
    Notes task other := by
  unfold settle at done
  split at done
  · cases outcome with
    | deferred =>
      cases done
      exact noted
    | failed =>
      cases done
      exact markFailure_notes noted
    | signed => cases done
    | confirmed =>
      simp only [Option.map_eq_some_iff, Prod.exists] at done
      obtain ⟨_, _, found, rfl⟩ := done
      obtain ⟨_, held, _, rfl | rfl⟩ := reconciled_some found
      · exact noted
      · exact markConfirmed_notes noted ▸ held
  · cases done

end Solonpad.Journal
