import Mathlib.Logic.Relation
import Mathlib.Tactic.Common

/-!
Labelled transition systems. An action may be refused in a state; a refused
action leaves no successor. `Reachable` closes a start state under the accepted
actions, and a run may be narrowed by a rule on the state an action is taken in.
-/

namespace Solonpad.Transition

variable {σ α : Type*}

inductive Reachable (step : σ → α → σ → Prop) (start : σ) : σ → Prop where
  | start : Reachable step start start
  | next {before after : σ} {action : α} (earlier : Reachable step start before)
      (taken : step before action after) : Reachable step start after

variable {step : σ → α → σ → Prop} {start : σ} {state : σ}

/-- The steps of a system whose state and action also satisfy a rule. -/
def restrict (step : σ → α → σ → Prop) (rule : σ → α → Prop) : σ → α → σ → Prop :=
  fun before action after => rule before action ∧ step before action after

/-- What holds at the start and is kept by every step holds in every reachable state. -/
theorem Reachable.invariant {holds : σ → Prop} (reached : Reachable step start state) (initially : holds start)
    (kept : ∀ before action after, holds before → step before action after → holds after) : holds state := by
  induction reached with
  | start => exact initially
  | next _ taken ih => exact kept _ _ _ ih taken

/-- The same rule with an invariant that is already known at hand in each step. -/
theorem Reachable.invariant_under {known holds : σ → Prop} (reached : Reachable step start state)
    (given : ∀ earlier, Reachable step start earlier → known earlier) (initially : holds start)
    (kept : ∀ before action after, known before → holds before → step before action after →
      holds after) : holds state := by
  induction reached with
  | start => exact initially
  | next earlier taken ih => exact kept _ _ _ (given _ earlier) ih taken

theorem Reachable.mono {other : σ → α → σ → Prop} (reached : Reachable step start state)
    (included : ∀ before action after, step before action after → other before action after) :
    Reachable other start state :=
  reached.invariant .start (fun _ _ _ earlier taken => .next earlier (included _ _ _ taken))

/-- Actions read as the actions of another system. -/
theorem Reachable.map {β : Type*} {other : σ → β → σ → Prop} (read : α → β) (reached : Reachable step start state)
    (included : ∀ before action after, step before action after → other before (read action) after) :
    Reachable other start state :=
  reached.invariant .start (fun _ _ _ earlier taken => .next earlier (included _ _ _ taken))

theorem Reachable.unrestricted {rule : σ → α → Prop} (reached : Reachable (restrict step rule) start state) :
    Reachable step start state :=
  reached.mono (fun _ _ _ taken => taken.2)

theorem Reachable.trans {middle : σ} (first : Reachable step start middle)
    (second : Reachable step middle state) : Reachable step start state :=
  second.invariant first (fun _ _ _ earlier taken => .next earlier taken)

/-! Runs that can be evaluated. -/

variable {ε : Type*}

/-- What a list of actions leads to when each obeys the rule and none fails. -/
def run (step : σ → α → Except ε σ) (rule : σ → α → Prop) [∀ state action, Decidable (rule state action)]
    (start : σ) : List α → Option σ
  | [] => some start
  | action :: rest =>
    if rule start action then
      match step start action with
      | .ok next => run step rule next rest
      | .error _ => none
    else none

theorem run_reachable (step : σ → α → Except ε σ) (rule : σ → α → Prop) [∀ state action, Decidable (rule state action)]
    (actions : List α) (start final : σ) (ran : run step rule start actions = some final) :
    Reachable (restrict (fun before action after => step before action = .ok after) rule) start final := by
  induction actions generalizing start with
  | nil =>
    cases ran
    exact .start
  | cons action rest ih =>
    simp only [run] at ran
    split at ran
    · next obeyed =>
      split at ran
      · next middle taken =>
        exact Reachable.trans (.next .start ⟨obeyed, taken⟩) (ih middle ran)
      · cases ran
    · cases ran

/-- A run whose last state passes a test reaches a state that does. -/
theorem run_passes (step : σ → α → Except ε σ) (rule : σ → α → Prop) [∀ state action, Decidable (rule state action)]
    (actions : List α) (start : σ) (test : σ → Bool) (passes : (run step rule start actions).any test = true) :
    ∃ final, Reachable (restrict (fun before action after => step before action = .ok after) rule)
      start final ∧ test final = true := by
  cases ran : run step rule start actions with
  | none => simp [ran] at passes
  | some final => exact ⟨final, run_reachable step rule actions start final ran, by simpa [ran] using passes⟩

end Solonpad.Transition
