import Mathlib.Data.List.Basic

/-!
`journal.mjs`: what a keeper writes down of a task and when it may attempt it again. A task's hash, nonce and
raw transaction are kept as the signed transaction itself. Every write is one atomic step on the file.
-/

namespace Solonpad.Journal

inductive TaskState where
  | ready
  | sent
  | confirmed
  | retryable
  | quarantined
  deriving DecidableEq, Repr

structure Task (Signed : Type) where
  state : TaskState
  attempts : Nat
  /-- The transaction whose hash and nonce are noted. -/
  tx : Option Signed
  /-- Its raw bytes are still kept. -/
  raw : Bool
  sentAt : Nat
  nextAttemptAt : Nat

def backoffMs : List Nat := [15000, 30000, 60000]

def maxAttempts : Nat := 5

variable {Signed : Type} {task : Option (Task Signed)}

/-- What `upsertTask` patches when there is no task yet. -/
def Task.fresh : Task Signed := ⟨.ready, 0, none, false, 0, 0⟩

def markSent (task : Option (Task Signed)) (tx : Signed) (now : Nat) : Task Signed :=
  { task.getD Task.fresh with state := .sent, tx := some tx, raw := true, sentAt := now }

def markConfirmed (task : Option (Task Signed)) (tx : Signed) : Task Signed :=
  { task.getD Task.fresh with state := .confirmed, tx := some tx, raw := false }

def markFailure (task : Option (Task Signed)) (now : Nat) : Task Signed :=
  let prev := task.getD Task.fresh
  let attempts := prev.attempts + 1
  let delay := backoffMs.getD (min (attempts - 1) (backoffMs.length - 1)) 0
  { prev with
    state := if maxAttempts ≤ attempts then .quarantined else .retryable
    attempts := attempts
    raw := false
    nextAttemptAt := now + delay }

inductive Gate where
  | go
  | reconcile
  | confirmed
  | quarantined
  | backoff
  deriving DecidableEq, Repr

def taskGate (task : Option (Task Signed)) (now : Nat) : Gate :=
  match task with
  | none => .go
  | some task =>
    match task.state with
    | .confirmed => .confirmed
    | .quarantined => .quarantined
    | .sent => .reconcile
    | .retryable => if task.nextAttemptAt ≤ now then .go else .backoff
    | .ready => .go

/-- Neither in flight nor confirmed. -/
def Open (task : Option (Task Signed)) : Prop :=
  ∀ t, task = some t → t.state ≠ .sent ∧ t.state ≠ .confirmed

theorem markFailure_open (task : Option (Task Signed)) (now : Nat) : Open (some (markFailure task now)) := by
  rintro t ⟨⟩
  by_cases exhausted : maxAttempts ≤ (task.getD Task.fresh).attempts + 1
  · simp [markFailure, exhausted]
  · simp [markFailure, exhausted]

theorem taskGate_go {now : Nat} (go : taskGate task now = .go) : Open task := by
  rintro t rfl
  cases state : t.state with
  | sent | confirmed =>
    simp only [taskGate, state] at go
    cases go
  | ready | retryable | quarantined => exact ⟨nofun, nofun⟩

theorem taskGate_reconcile {now : Nat} (gate : taskGate task now = .reconcile) :
    ∃ t, task = some t ∧ t.state = .sent := by
  cases task with
  | none => cases gate
  | some t =>
    refine ⟨t, rfl, ?_⟩
    cases state : t.state with
    | sent => rfl
    | ready | confirmed | quarantined =>
      simp only [taskGate, state] at gate
      cases gate
    | retryable =>
      simp only [taskGate, state] at gate
      split at gate <;> cases gate

end Solonpad.Journal
