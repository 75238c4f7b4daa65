import Mathlib.Data.List.Basic
import Mathlib.Tactic.Common

/-!
Runs with their history: what was taken, in order, each step with the states around it. Facts that
speak of an earlier step and of what did not happen since are kept along such a run.
-/

namespace Solonpad.Histories

structure Taken (σ α : Type*) where
  before : σ
  action : α
  after : σ

/-- The history of a run, oldest step first. -/
inductive History {σ α : Type*} (step : σ → α → σ → Prop) (start : σ) : List (Taken σ α) → σ → Prop where
  | nil : History step start [] start
  | snoc {past : List (Taken σ α)} {before after : σ} (earlier : History step start past before)
      (action : α) (taken : step before action after) :
      History step start (past ++ [⟨before, action, after⟩]) after

variable {σ α ρ : Type*} {step : σ → α → σ → Prop} {start : σ}

/-- A fact about the past and the state that each step keeps. -/
theorem History.invariant {holds : List (Taken σ α) → σ → Prop} {past : List (Taken σ α)} {state : σ}
    (history : History step start past state) (initially : holds [] start)
    (kept : ∀ past before action after, History step start past before → holds past before →
      step before action after → holds (past ++ [⟨before, action, after⟩]) after) : holds past state := by
  induction history with
  | nil => exact initially
  | snoc earlier action taken ih => exact kept _ _ _ _ earlier ih taken

/-- A fact about each step taken and the state, which later steps keep. -/
theorem History.each (holds : Taken σ α → σ → Prop) {past : List (Taken σ α)} {state : σ}
    (history : History step start past state)
    (kept : ∀ before action after, step before action after → ∀ t, holds t before → holds t after)
    (now : ∀ before action after, step before action after → holds ⟨before, action, after⟩ after) :
    ∀ t ∈ past, holds t state := by
  induction history with
  | nil => exact fun _ member => by cases member
  | snoc earlier action taken ih =>
    intro t member
    rcases List.mem_append.mp member with old | only
    · exact kept _ _ _ taken t (ih t old)
    · rw [List.mem_singleton.mp only]
      exact now _ _ _ taken

/-- Every step of a history was taken after the steps before it. -/
theorem History.taken {past : List (Taken σ α)} {state : σ} (history : History step start past state)
    (front back : List (Taken σ α)) (t : Taken σ α) (split : past = front ++ t :: back) :
    History step start front t.before ∧ step t.before t.action t.after := by
  induction history generalizing back with
  | nil => exact absurd split (by simp)
  | snoc earlier action taken ih =>
    rcases List.eq_nil_or_concat back with rfl | ⟨rest, last, rfl⟩
    · obtain ⟨rfl, same⟩ := List.append_inj' split rfl
      cases same
      exact ⟨earlier, taken⟩
    · rw [List.concat_eq_append, ← List.cons_append, ← List.append_assoc] at split
      obtain ⟨same, -⟩ := List.append_inj' split rfl
      exact ih rest same

/-! Something happened, and something else has not happened since. -/

def Since (made broken : ρ → Prop) (past : List ρ) : Prop :=
  ∃ front p back, past = front ++ p :: back ∧ made p ∧ ∀ q ∈ back, ¬ broken q

theorem Since.now {made broken : ρ → Prop} (past : List ρ) {p : ρ} (done : made p) : Since made broken (past ++ [p]) :=
  ⟨past, p, [], rfl, done, fun _ member => by cases member⟩

theorem Since.kept {made broken : ρ → Prop} {past : List ρ} (since : Since made broken past) {q : ρ}
    (harmless : ¬ broken q) : Since made broken (past ++ [q]) := by
  obtain ⟨front, p, back, rfl, done, quiet⟩ := since
  refine ⟨front, p, back ++ [q], by simp, done, ?_⟩
  intro r member
  rcases List.mem_append.mp member with older | only
  · exact quiet r older
  · rw [List.mem_singleton.mp only]
    exact harmless

end Solonpad.Histories
