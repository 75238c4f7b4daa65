import Solonpad.Chain

/-!
Who may earn stock: `EligibilityController.sol`, the one-way switch from default B to mode A, and
what the registry's views say of a wallet's credential. The switch takes effect by itself at a UTC
day; once it has, nothing can move or undo it. Attestations and their signatures are left out: a
caller meets whatever credentials the registry holds then.
-/

namespace Solonpad.Eligibility

open Checked
open Chain (Address)

inductive EligibilityError where
  | unauthorized | invalidSchedule | systemVault | required
  deriving DecidableEq, Repr

abbrev Tx (α : Type) := Checked.Tx EligibilityError α

def day : Nat := 86400

structure Controller where
  registry : Address
  policyHash : Nat
  effectiveEpoch : Nat
  assetIds : Address → Nat
  systemVaultMask : Address → Nat

def Controller.empty : Controller := ⟨0, 0, 0, fun _ => 0, fun _ => 0⟩

structure Credential where
  issuedAt : Nat
  validUntil : UInt32
  assetMask : Nat
  generation : Nat
  policyHash : Nat
  revoked : Bool

/-- What the registry answers in one call. -/
structure Registry where
  credentials : Address → Credential
  /-- `bindRewardPool` of the caller's pool succeeds. -/
  bindable : Address → Bool

def hasBit (mask bit : Nat) : Prop := mask &&& (1 <<< bit) ≠ 0

instance (mask bit : Nat) : Decidable (hasBit mask bit) := inferInstanceAs (Decidable (_ ≠ _))

/-- `status`. -/
def Registry.status (r : Registry) (wallet : Address) (asset time : Nat) : Prop :=
  let c := r.credentials wallet
  c.revoked = false ∧ c.generation ≠ 0 ∧ c.issuedAt ≤ time ∧ time < c.validUntil.toNat ∧
    hasBit c.assetMask asset

instance (r : Registry) (wallet : Address) (asset time : Nat) : Decidable (r.status wallet asset time) :=
  inferInstanceAs (Decidable (_ ∧ _))

def Controller.enabled (k : Controller) (now : Nat) : Bool :=
  decide (k.effectiveEpoch ≠ 0 ∧ k.effectiveEpoch * day ≤ now)

theorem enabled_iff {k : Controller} {now : Nat} :
    k.enabled now = true ↔ k.effectiveEpoch ≠ 0 ∧ k.effectiveEpoch * day ≤ now := decide_eq_true_iff

def Controller.canReceiveStock (k : Controller) (r : Registry) (now : Nat) (asset wallet : Address) :
    Prop :=
  k.enabled now = false ∨ k.assetIds asset ≠ 0 ∧
    (hasBit (k.systemVaultMask wallet) (k.assetIds asset - 1) ∨
      (r.credentials wallet).policyHash = k.policyHash ∧ r.status wallet (k.assetIds asset - 1) now)

instance (k : Controller) (r : Registry) (now : Nat) (asset wallet : Address) :
    Decidable (k.canReceiveStock r now asset wallet) := inferInstanceAs (Decidable (_ ∨ _))

/-! The controller's own calls. -/

variable (governance : Address)

structure Env where
  sender : Address
  now : Nat
  hasCode : Address → Bool

def bindSystemVault (k : Controller) (env : Env) (vault assetMask : Nat) : Tx Controller := do
  require (env.sender = governance) .unauthorized
  require (k.effectiveEpoch = 0 ∧ env.hasCode vault = true ∧ assetMask ≠ 0 ∧
    k.systemVaultMask vault = 0) .systemVault
  pure { k with systemVaultMask := Function.update k.systemVaultMask vault assetMask }

def scheduleEnable (k : Controller) (env : Env) (registry : Address) (policy epoch : Nat) :
    Tx Controller := do
  require (env.sender = governance) .unauthorized
  require (¬ (k.effectiveEpoch ≠ 0 ∨ env.hasCode registry = false ∨ policy = 0 ∨
    epoch * day < env.now + 2 * day)) .invalidSchedule
  pure { k with registry := registry, policyHash := policy, effectiveEpoch := epoch }

def cancelEnable (k : Controller) (env : Env) : Tx Controller := do
  require (env.sender = governance) .unauthorized
  require (k.effectiveEpoch ≠ 0 ∧ k.enabled env.now = false) .invalidSchedule
  pure { k with registry := 0, policyHash := 0, effectiveEpoch := 0 }

def bindAsset (k : Controller) (env : Env) (asset id : Nat) : Tx Controller := do
  require (env.sender = governance) .unauthorized
  require (k.effectiveEpoch = 0 ∧ asset ≠ 0 ∧ k.assetIds asset = 0) .required
  pure { k with assetIds := Function.update k.assetIds asset (id + 1) }

inductive Action where
  | bindSystemVault (vault assetMask : Nat)
  | scheduleEnable (registry : Address) (policy epoch : Nat)
  | cancelEnable
  | bindAsset (asset id : Nat)

def step (k : Controller) (env : Env) (action : Action) : Tx Controller :=
  match action with
  | .bindSystemVault vault assetMask => bindSystemVault governance k env vault assetMask
  | .scheduleEnable registry policy epoch => scheduleEnable governance k env registry policy epoch
  | .cancelEnable => cancelEnable governance k env
  | .bindAsset asset id => bindAsset governance k env asset id

/-- When mode A began, once it has. -/
def Controller.cutoff (k : Controller) (now : Nat) : Option Nat :=
  if k.enabled now = true then some (k.effectiveEpoch * day) else none

/-- A call that is taken while the switch is on leaves it alone, and one that is taken before
cannot set it in the past. -/
theorem step_cutoff {k after : Controller} {env : Env} {action : Action}
    (taken : step governance k env action = .ok after) : after.cutoff env.now = k.cutoff env.now := by
  have same : ∀ {a b : Controller}, a.effectiveEpoch = b.effectiveEpoch →
      a.cutoff env.now = b.cutoff env.now := by
    intro a b eq
    exact congrArg (fun epoch => if decide (epoch ≠ 0 ∧ epoch * day ≤ env.now) = true
      then some (epoch * day) else none) eq
  cases action with
  | bindSystemVault vault assetMask =>
    simp only [step, bindSystemVault, bind_ok, require_ok, pure_ok] at taken
    obtain ⟨_, _, _, _, rfl⟩ := taken
    exact same rfl
  | scheduleEnable registry policy epoch =>
    simp only [step, scheduleEnable, bind_ok, require_ok, pure_ok] at taken
    obtain ⟨_, _, _, refused, rfl⟩ := taken
    simp only [not_or, not_not, not_lt] at refused
    have off : ¬ k.enabled env.now = true := fun on => (enabled_iff.mp on).1 refused.1
    have later : ¬ Controller.enabled { k with
        registry := registry, policyHash := policy, effectiveEpoch := epoch } env.now = true := by
      intro on
      have early := (enabled_iff.mp on).2
      have far := refused.2.2.2
      simp only [day] at early far
      omega
    rw [Controller.cutoff, Controller.cutoff, if_neg off, if_neg later]
  | cancelEnable =>
    simp only [step, cancelEnable, bind_ok, require_ok, pure_ok] at taken
    obtain ⟨_, _, _, refused, rfl⟩ := taken
    have off : ¬ k.enabled env.now = true := by simp [refused.2]
    have later : ¬ Controller.enabled { k with
        registry := 0, policyHash := 0, effectiveEpoch := 0 } env.now = true :=
      fun on => (enabled_iff.mp on).1 rfl
    rw [Controller.cutoff, Controller.cutoff, if_neg off, if_neg later]
  | bindAsset asset id =>
    simp only [step, bindAsset, bind_ok, require_ok, pure_ok] at taken
    obtain ⟨_, _, _, _, rfl⟩ := taken
    exact same rfl

/-- Time turns the switch on but never off. -/
theorem Controller.cutoff_later (k : Controller) {now later : Nat} (order : now ≤ later) :
    k.cutoff later = k.cutoff now ∨
      k.cutoff now = none ∧ ∃ cut, k.cutoff later = some cut ∧ now < cut := by
  by_cases on : k.enabled now = true
  · left
    have still : k.enabled later = true :=
      enabled_iff.mpr ⟨(enabled_iff.mp on).1, (enabled_iff.mp on).2.trans order⟩
    rw [Controller.cutoff, Controller.cutoff, if_pos on, if_pos still]
  · by_cases after : k.enabled later = true
    · right
      refine ⟨if_neg on, _, if_pos after, ?_⟩
      by_contra early
      exact on (enabled_iff.mpr ⟨(enabled_iff.mp after).1, Nat.le_of_not_lt early⟩)
    · left
      rw [Controller.cutoff, Controller.cutoff, if_neg on, if_neg after]

end Solonpad.Eligibility
