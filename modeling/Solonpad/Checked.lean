import Mathlib.Algebra.Group.Nat.Defs
import Mathlib.Logic.Basic
import Mathlib.Tactic.Common

/-!
Checked unsigned arithmetic with an error channel. A call either returns a value
or fails as a whole, and a failed call leaves no trace: an addition that leaves
its width, a subtraction below zero, an index out of bounds and a refused
precondition are separate faults, so a theorem can say which of them is possible.
-/

namespace Solonpad.Checked

inductive Fault (ε : Type) where
  | overflow
  | underflow
  | bounds
  | revert (error : ε)
  deriving DecidableEq, Repr

abbrev Tx (ε α : Type) := Except (Fault ε) α

variable {ε α β : Type}

def require (condition : Prop) [Decidable condition] (error : ε) : Tx ε Unit :=
  if condition then .ok () else .error (.revert error)

def add (width left right : Nat) : Tx ε Nat :=
  if left + right < 2 ^ width then .ok (left + right) else .error .overflow

def mul (width left right : Nat) : Tx ε Nat :=
  if left * right < 2 ^ width then .ok (left * right) else .error .overflow

def sub (left right : Nat) : Tx ε Nat :=
  if right ≤ left then .ok (left - right) else .error .underflow

/-- A call made to another contract: whatever it fails with, the caller sees one error. -/
def relay {δ : Type} (error : δ) (call : Tx ε α) : Tx δ α :=
  match call with
  | .ok value => .ok value
  | .error _ => .error (.revert error)

theorem relay_ok {δ : Type} (error : δ) (call : Tx ε α) (result : α) :
    relay error call = .ok result ↔ call = .ok result := by
  cases call <;> simp [relay]

/-- A guarded call with an allowance of gas: out of it, or failed, the call leaves no trace. -/
def attempted (gas : Bool) (call : Tx ε α) : Option α :=
  match gas, call with
  | true, .ok value => some value
  | _, _ => none

theorem attempted_some (gas : Bool) (call : Tx ε α) (result : α) :
    attempted gas call = some result ↔ gas = true ∧ call = .ok result := by
  cases gas <;> cases call <;> simp [attempted]

theorem attempted_none (gas : Bool) (call : Tx ε α) :
    attempted gas call = none ↔ gas = false ∨ ∃ fault, call = .error fault := by
  cases gas <;> cases call <;> simp [attempted]

theorem bind_ok (call : Tx ε α) (next : α → Tx ε β) (result : β) :
    (call >>= next) = .ok result ↔ ∃ value, call = .ok value ∧ next value = .ok result := by
  cases call <;> simp [bind, Except.bind]

theorem pure_ok (value result : α) : (pure value : Tx ε α) = .ok result ↔ value = result := by
  simp [pure, Except.pure]

theorem throw_ok (fault : Fault ε) (result : α) : (throw fault : Tx ε α) = .ok result ↔ False := by
  simp [throw, throwThe, MonadExceptOf.throw]

theorem require_ok (condition : Prop) [Decidable condition] (error : ε) (result : Unit) :
    require condition error = .ok result ↔ condition := by
  by_cases holds : condition <;> simp [require, holds]

theorem add_ok (width left right result : Nat) :
    (add width left right : Tx ε Nat) = .ok result ↔
      left + right < 2 ^ width ∧ result = left + right := by
  unfold add
  by_cases fits : left + right < 2 ^ width <;> simp [fits, eq_comm]

theorem mul_ok (width left right result : Nat) :
    (mul width left right : Tx ε Nat) = .ok result ↔
      left * right < 2 ^ width ∧ result = left * right := by
  unfold mul
  by_cases fits : left * right < 2 ^ width <;> simp [fits, eq_comm]

theorem sub_ok (left right result : Nat) :
    (sub left right : Tx ε Nat) = .ok result ↔ right ≤ left ∧ result = left - right := by
  unfold sub
  by_cases covered : right ≤ left <;> simp [covered, eq_comm]

/-- A conditional call succeeds exactly when the branch taken does. -/
theorem ite_ok (condition : Prop) [Decidable condition] (yes no : Tx ε α) (result : α) :
    (if condition then yes else no) = .ok result ↔
      condition ∧ yes = .ok result ∨ ¬ condition ∧ no = .ok result := by
  by_cases holds : condition <;> simp [holds]

/-! The same calls read for the faults they cannot end in. -/

def Avoids (bad : Fault ε → Prop) (call : Tx ε α) : Prop :=
  ∀ fault, call = .error fault → ¬ bad fault

/-- A call that avoids every fault succeeds. -/
theorem accepted_iff (call : Tx ε α) : Avoids (fun _ => True) call ↔ ∃ result, call = .ok result := by
  cases call <;> simp [Avoids]

theorem avoids_bind (bad : Fault ε → Prop) (call : Tx ε α) (next : α → Tx ε β) :
    Avoids bad (call >>= next) ↔
      Avoids bad call ∧ ∀ value, call = .ok value → Avoids bad (next value) := by
  cases call <;> simp [Avoids, bind, Except.bind]

theorem avoids_pure (bad : Fault ε → Prop) (value : α) : Avoids bad (pure value : Tx ε α) := by
  simp [Avoids, pure, Except.pure]

theorem avoids_throw (bad : Fault ε → Prop) (fault : Fault ε) : Avoids bad (throw fault : Tx ε α) ↔ ¬ bad fault := by
  simp [Avoids, throw, throwThe, MonadExceptOf.throw]

theorem avoids_require (bad : Fault ε → Prop) (condition : Prop) [Decidable condition] (error : ε)
    (next : Unit → Tx ε α) : Avoids bad (require condition error >>= next) ↔
      (bad (.revert error) → condition) ∧ (condition → Avoids bad (next ())) := by
  by_cases holds : condition <;> simp [Avoids, require, holds, bind, Except.bind]

theorem avoids_add (bad : Fault ε → Prop) (width left right : Nat) (next : Nat → Tx ε α) :
    Avoids bad (add width left right >>= next) ↔ (bad .overflow → left + right < 2 ^ width) ∧
      (left + right < 2 ^ width → Avoids bad (next (left + right))) := by
  unfold add
  by_cases fits : left + right < 2 ^ width <;> simp [Avoids, fits, bind, Except.bind]

theorem avoids_mul (bad : Fault ε → Prop) (width left right : Nat) (next : Nat → Tx ε α) :
    Avoids bad (mul width left right >>= next) ↔ (bad .overflow → left * right < 2 ^ width) ∧
      (left * right < 2 ^ width → Avoids bad (next (left * right))) := by
  unfold mul
  by_cases fits : left * right < 2 ^ width <;> simp [Avoids, fits, bind, Except.bind]

theorem avoids_sub (bad : Fault ε → Prop) (left right : Nat) (next : Nat → Tx ε α) :
    Avoids bad (sub left right >>= next) ↔ (bad .underflow → right ≤ left) ∧
      (right ≤ left → Avoids bad (next (left - right))) := by
  unfold sub
  by_cases covered : right ≤ left <;> simp [Avoids, covered, bind, Except.bind]

theorem avoids_ite (bad : Fault ε → Prop) (condition : Prop) [Decidable condition]
    (yes no : Tx ε α) : Avoids bad (if condition then yes else no) ↔
      (condition → Avoids bad yes) ∧ (¬ condition → Avoids bad no) := by
  by_cases holds : condition <;> simp [holds]

end Solonpad.Checked
