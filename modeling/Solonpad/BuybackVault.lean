import Mathlib
import Solonpad.Chain
import Solonpad.Transition

/-!
`PonsV2BuybackVault`: bought-back tokens vest ended five years on one weighted clock per launch. What a
lock adds pulls the clock towards its own five years; what has vested is released to the two
beneficiaries of the vest. Calls are whole: the lock of the contract keeps them apart.
-/

namespace Solonpad.LinearVesting

/-- A share that vests in two parts, each rounded down, is no more than what vests at once. -/
theorem split_le (amount first second rest : Nat) (goes : 0 < second + rest) :
    amount * first / (first + second + rest) +
        (amount - amount * first / (first + second + rest)) * second / (second + rest) ≤
      amount * (first + second) / (first + second + rest) := by
  have positive : 0 < first + second + rest := by omega
  generalize early : amount * first / (first + second + rest) = vested
  have some_ : vested * (first + second + rest) ≤ amount * first := early ▸ Nat.div_mul_le_self ..
  have within : vested ≤ amount := by
    rw [← early]
    exact Nat.div_le_of_le_mul (by nlinarith)
  obtain ⟨left, rfl⟩ := Nat.exists_eq_add_of_le within
  rw [Nat.add_sub_cancel_left]
  generalize late : left * second / (second + rest) = more
  have others : more * (second + rest) ≤ left * second := late ▸ Nat.div_mul_le_self ..
  rw [Nat.le_div_iff_mul_le positive]
  -- both roundings are undone by multiplying with what was left to run
  apply Nat.le_of_mul_le_mul_right _ goes
  calc
    (vested + more) * (first + second + rest) * (second + rest)
      = vested * (first + second + rest) * (second + rest) +
          more * (second + rest) * (first + second + rest) := by ring
    _ ≤ vested * (first + second + rest) * (second + rest) +
          left * second * (first + second + rest) := by gcongr
    _ = vested * (first + second + rest) * rest +
          (vested + left) * second * (first + second + rest) := by ring
    _ ≤ (vested + left) * first * rest + (vested + left) * second * (first + second + rest) := by gcongr
    _ = (vested + left) * (first + second) * (second + rest) := by ring

end Solonpad.LinearVesting

namespace Solonpad.BuybackVault

open Checked Transition
open Chain (Address)

inductive VaultError where
  | zeroAddress | alreadyInitialized | notFactory | notAuthorizedLocker | notVestBeneficiary
  | invalidVestingTerms | vestingTermsMismatch | ownableUnauthorizedAccount
  deriving DecidableEq, Repr

abbrev Tx (α : Type) := Checked.Tx VaultError α

abbrev BASIS_POINTS : Nat := 10_000
abbrev VESTING_DURATION : Nat := 5 * 365 * 86_400

structure LaunchVest where
  totalLocked : Nat
  totalReleased : Nat
  vestingStart : Nat
  vestedUnreleased : Nat
  unvestedAmount : Nat
  lastUpdate : Nat
  vestingEnd : Nat
  creatorRecipient : Address
  protocolRecipient : Address
  protocolFeeShareBps : Nat

def LaunchVest.blank : LaunchVest := ⟨0, 0, 0, 0, 0, 0, 0, 0, 0, 0⟩

/-- A credit in the escrow. -/
structure Credit where
  recipient : Address
  token : Address
  amount : Nat

structure Config where
  owner : Address
  feePolicy : Address

/-- The vaults, the vault's balance of each token, what it has credited and the time of the block. -/
structure State where
  factory : Address
  vaults : Address → LaunchVest
  held : Address → Nat
  credits : List Credit
  clock : Nat

def State.setVault (s : State) (token : Address) (v : LaunchVest) : State :=
  { s with vaults := Function.update s.vaults token v }

def previewNewlyVested (v : LaunchVest) (nowTs : Nat) : Nat :=
  if v.unvestedAmount = 0 ∨ nowTs ≤ v.lastUpdate then 0
  else if v.vestingEnd ≤ nowTs then v.unvestedAmount
  else v.unvestedAmount * (nowTs - v.lastUpdate) / (v.vestingEnd - v.lastUpdate)

def vestedAmount (v : LaunchVest) (nowTs : Nat) : Nat :=
  v.totalReleased + v.vestedUnreleased + previewNewlyVested v nowTs

def checkpoint (v : LaunchVest) (nowTs : Nat) : LaunchVest :=
  { v with
    unvestedAmount := v.unvestedAmount - previewNewlyVested v nowTs
    vestedUnreleased := v.vestedUnreleased + previewNewlyVested v nowTs
    lastUpdate := nowTs }

/-- A new epoch begins once everything has been released; the creator's seat is filled only once. -/
def setOrValidateVestingTerms (v : LaunchVest) (creatorRecipient protocolRecipient : Address)
    (protocolFeeShareBps : Nat) : Tx LaunchVest :=
  if v.unvestedAmount = 0 ∧ v.vestedUnreleased = 0 then
    pure { v with
      creatorRecipient := if v.creatorRecipient = 0 then creatorRecipient else v.creatorRecipient
      protocolRecipient := protocolRecipient
      protocolFeeShareBps := protocolFeeShareBps }
  else do
    require (v.protocolRecipient = protocolRecipient ∧ v.protocolFeeShareBps = protocolFeeShareBps)
      .vestingTermsMismatch
    pure v

def remainingDuration (v : LaunchVest) (nowTs : Nat) : Tx Nat :=
  if v.unvestedAmount = 0 then pure 0 else sub v.vestingEnd nowTs

/-- What has arrived is put on the launch's clock. -/
def scheduled (v : LaunchVest) (nowTs amount : Nat) : Tx LaunchVest := do
  let combinedAmount ← add 256 v.unvestedAmount amount
  let remaining ← remainingDuration v nowTs
  let running ← mul 256 v.unvestedAmount remaining
  let fresh ← mul 256 amount VESTING_DURATION
  let weighted ← add 256 running fresh
  let combinedDuration := weighted / combinedAmount
  let vestingEnd ← add 256 nowTs combinedDuration
  let ahead ← sub VESTING_DURATION combinedDuration
  let vestingStart ← sub nowTs ahead
  let totalLocked ← add 256 v.totalLocked amount
  pure { v with
    unvestedAmount := combinedAmount
    lastUpdate := nowTs
    vestingEnd := vestingEnd
    vestingStart := vestingStart
    totalLocked := totalLocked }

structure Terms where
  creatorRecipient : Address
  protocolRecipient : Address
  protocolFeeShareBps : Nat

/-- `curve` is what the factory's record names for the token, `arrived` what the transfer brought. -/
def lock (c : Config) (s : State) (sender token : Address) (amount : Nat) (terms : Terms)
    (curve : Address) (arrived : Nat) : Tx State := do
  require (token ≠ 0) .zeroAddress
  require (s.factory ≠ 0) .notFactory
  require (sender = c.feePolicy ∨ sender = curve) .notAuthorizedLocker
  if amount = 0 then pure s
  else do
    require (terms.creatorRecipient ≠ 0 ∧ terms.protocolRecipient ≠ 0 ∧
      terms.protocolFeeShareBps ≤ BASIS_POINTS) .invalidVestingTerms
    let s := { s with held := Function.update s.held token (s.held token + arrived) }
    if arrived = 0 then pure s
    else do
      let v ← setOrValidateVestingTerms (checkpoint (s.vaults token) s.clock) terms.creatorRecipient
        terms.protocolRecipient terms.protocolFeeShareBps
      let v ← scheduled v s.clock arrived
      pure (s.setVault token v)

def release (s : State) (sender token : Address) : Tx State := do
  require (s.factory ≠ 0) .notFactory
  require (sender = (s.vaults token).creatorRecipient ∨ sender = (s.vaults token).protocolRecipient)
    .notVestBeneficiary
  let v := checkpoint (s.vaults token) s.clock
  if v.vestedUnreleased = 0 then pure (s.setVault token v)
  else do
    let totalReleased ← add 256 v.totalReleased v.vestedUnreleased
    let scaled ← mul 256 v.vestedUnreleased v.protocolFeeShareBps
    let protocolAmount := scaled / BASIS_POINTS
    let creatorAmount ← sub v.vestedUnreleased protocolAmount
    let held ← sub (s.held token) v.vestedUnreleased
    let credits := if protocolAmount = 0 then s.credits
      else ⟨v.protocolRecipient, token, protocolAmount⟩ :: s.credits
    let credits := if creatorAmount = 0 then credits
      else ⟨v.creatorRecipient, token, creatorAmount⟩ :: credits
    pure ({ s with held := Function.update s.held token held, credits := credits }.setVault token
      { v with vestedUnreleased := 0, totalReleased := totalReleased })

def updateCreatorRecipient (s : State) (sender token newRecipient : Address) : Tx State := do
  require (sender = s.factory) .notFactory
  require (token ≠ 0 ∧ newRecipient ≠ 0) .zeroAddress
  pure (s.setVault token { s.vaults token with creatorRecipient := newRecipient })

def setFactory (c : Config) (s : State) (sender factory_ : Address) : Tx State := do
  require (sender = c.owner) .ownableUnauthorizedAccount
  require (s.factory = 0) .alreadyInitialized
  require (factory_ ≠ 0) .zeroAddress
  pure { s with factory := factory_ }

inductive Action where
  | setFactory (sender factory_ : Address)
  | lock (sender token : Address) (amount : Nat) (terms : Terms) (curve : Address) (arrived : Nat)
  | release (sender token : Address)
  | updateCreatorRecipient (sender token newRecipient : Address)
  /-- Tokens sent to the vault outside a lock. -/
  | donated (token : Address) (amount : Nat)
  /-- A later block. -/
  | elapse (seconds : Nat)

def step (c : Config) (s : State) : Action → Tx State
  | .setFactory sender factory_ => setFactory c s sender factory_
  | .lock sender token amount terms curve arrived => lock c s sender token amount terms curve arrived
  | .release sender token => release s sender token
  | .updateCreatorRecipient sender token newRecipient => updateCreatorRecipient s sender token newRecipient
  | .donated token amount => pure { s with held := Function.update s.held token (s.held token + amount) }
  | .elapse seconds => pure { s with clock := s.clock + seconds }

def accepts (c : Config) (s : State) (action : Action) (after : State) : Prop :=
  step c s action = .ok after

def deployed (clock : Nat) : State where
  factory := 0
  vaults := fun _ => LaunchVest.blank
  held := fun _ => 0
  credits := []
  clock := clock

/-! One vest. -/

/-- The terms of a vest are replaced. -/
def LaunchVest.withTerms (v : LaunchVest) (terms : Terms) : LaunchVest :=
  { v with
    creatorRecipient := terms.creatorRecipient
    protocolRecipient := terms.protocolRecipient
    protocolFeeShareBps := terms.protocolFeeShareBps }

def LaunchVest.outstanding (v : LaunchVest) : Nat := v.unvestedAmount + v.vestedUnreleased

variable {c : Config} {s t : State} {v w : LaunchVest} {now later : Nat}

/-- A vest whose figures add up, with a clock that runs for at most five years. -/
structure Orderly (v : LaunchVest) (now : Nat) : Prop where
  totals : v.totalLocked = v.totalReleased + v.vestedUnreleased + v.unvestedAmount
  past : v.lastUpdate ≤ now
  running : v.unvestedAmount ≠ 0 →
    v.lastUpdate < v.vestingEnd ∧ v.vestingEnd ≤ v.lastUpdate + VESTING_DURATION
  rested : v.unvestedAmount = 0 → v.vestingEnd ≤ v.lastUpdate

theorem preview_le (v : LaunchVest) (now : Nat) : previewNewlyVested v now ≤ v.unvestedAmount := by
  unfold previewNewlyVested
  split
  · exact Nat.zero_le _
  · split
    · exact le_rfl
    · apply Nat.div_le_of_le_mul
      rw [Nat.mul_comm]
      exact Nat.mul_le_mul_right _ (by omega)

theorem preview_current (v : LaunchVest) (now : Nat) (current : v.lastUpdate = now) :
    previewNewlyVested v now = 0 := by
  simp [previewNewlyVested, current]

theorem preview_mono (v : LaunchVest) (grows : now ≤ later) :
    previewNewlyVested v now ≤ previewNewlyVested v later := by
  by_cases ended : v.vestingEnd ≤ later
  · by_cases idle : v.unvestedAmount = 0 ∨ later ≤ v.lastUpdate
    · have earlier : v.unvestedAmount = 0 ∨ now ≤ v.lastUpdate := idle.imp id grows.trans
      simp [previewNewlyVested, earlier]
    · apply (preview_le v now).trans
      simp [previewNewlyVested, idle, ended]
  · unfold previewNewlyVested
    split
    · exact Nat.zero_le _
    · next moving =>
      have moves : ¬ (v.unvestedAmount = 0 ∨ later ≤ v.lastUpdate) := by omega
      have running : ¬ v.vestingEnd ≤ now := by omega
      rw [if_neg running, if_neg moves]
      exact Nat.div_le_div_right (Nat.mul_le_mul_left _ (by omega))

/-- Nothing is left to vest exactly when the clock has run out. -/
theorem checkpoint_left (orderly : Orderly v now) (some_ : v.unvestedAmount ≠ 0) :
    (checkpoint v now).unvestedAmount ≠ 0 ↔ now < v.vestingEnd := by
  have running := orderly.running some_
  dsimp only [checkpoint]
  constructor
  · intro left
    by_contra ended
    apply left
    rw [previewNewlyVested, if_neg (by omega), if_pos (by omega), Nat.sub_self]
  · intro before
    have less : previewNewlyVested v now < v.unvestedAmount := by
      unfold previewNewlyVested
      split
      · omega
      · rw [if_neg (by omega)]
        apply Nat.div_lt_of_lt_mul
        rw [Nat.mul_comm]
        exact Nat.mul_lt_mul_of_pos_right (by omega) (by omega)
    omega

theorem checkpoint_orderly (orderly : Orderly v now) : Orderly (checkpoint v now) now := by
  have part := preview_le v now
  have totals := orderly.totals
  have past := orderly.past
  refine ⟨by dsimp only [checkpoint]; omega, le_rfl, ?_, ?_⟩
  · intro left
    have some_ : v.unvestedAmount ≠ 0 := by
      dsimp only [checkpoint] at left
      omega
    have running := orderly.running some_
    refine ⟨(checkpoint_left orderly some_).mp left, ?_⟩
    dsimp only [checkpoint]
    omega
  · intro none
    by_cases some_ : v.unvestedAmount = 0
    · exact (orderly.rested some_).trans orderly.past
    · have ended := (checkpoint_left orderly some_).not.mp (by simpa using none)
      exact Nat.le_of_not_lt ended

theorem vestedAmount_checkpoint (v : LaunchVest) (now : Nat) :
    vestedAmount (checkpoint v now) now = vestedAmount v now := by
  rw [vestedAmount, vestedAmount, preview_current (checkpoint v now) now rfl]
  dsimp only [checkpoint]
  omega

/-- Settling on the way does not vest anything early. -/
theorem checkpoint_early (orderly : Orderly v now) (grows : now ≤ later) :
    vestedAmount (checkpoint v now) later ≤ vestedAmount v later := by
  have part := preview_le v now
  suffices early : previewNewlyVested (checkpoint v now) later + previewNewlyVested v now ≤
      previewNewlyVested v later by
    dsimp only [vestedAmount, checkpoint] at early ⊢
    omega
  by_cases idle : v.unvestedAmount = 0 ∨ later ≤ now
  · have none : previewNewlyVested (checkpoint v now) later = 0 := by
      rw [previewNewlyVested, if_pos]
      rcases idle with empty | still
      · exact .inl (by dsimp only [checkpoint]; omega)
      · exact .inr still
    rw [none, Nat.zero_add]
    exact preview_mono v grows
  obtain ⟨some_, moving⟩ := not_or.mp idle
  have running := orderly.running some_
  have past := orderly.past
  by_cases ended : v.vestingEnd ≤ later
  -- by the end everything has vested either way
  · have whole : previewNewlyVested v later = v.unvestedAmount := by
      rw [previewNewlyVested, if_neg (by omega), if_pos ended]
    have rest := preview_le (checkpoint v now) later
    dsimp only [checkpoint] at rest ⊢
    omega
  · obtain ⟨first, first_eq⟩ := Nat.exists_eq_add_of_le past
    obtain ⟨second, rfl⟩ := Nat.exists_eq_add_of_le grows
    obtain ⟨rest, rest_eq⟩ := Nat.exists_eq_add_of_le (Nat.le_of_not_le ended)
    have duration : v.vestingEnd - v.lastUpdate = first + second + rest := by omega
    have settled : previewNewlyVested v now = v.unvestedAmount * first / (first + second + rest) := by
      unfold previewNewlyVested
      split
      · next still =>
        have none : first = 0 := by omega
        simp [none]
      · rw [if_neg (by omega), duration, show now - v.lastUpdate = first by omega]
    have whole : previewNewlyVested v (now + second) =
        v.unvestedAmount * (first + second) / (first + second + rest) := by
      rw [previewNewlyVested, if_neg (by omega), if_neg ended, duration,
        show now + second - v.lastUpdate = first + second by omega]
    have left := (checkpoint_left orderly some_).mpr (by omega)
    have fresh : previewNewlyVested (checkpoint v now) (now + second) =
        (v.unvestedAmount - previewNewlyVested v now) * second / (second + rest) := by
      rw [previewNewlyVested, if_neg, if_neg]
      · dsimp only [checkpoint]
        rw [show now + second - now = second by omega, show v.vestingEnd - now = second + rest by omega]
      · exact ended
      · rintro (none | still)
        · exact left none
        · exact moving still
    rw [fresh, settled, whole, Nat.add_comm]
    exact LinearVesting.split_le v.unvestedAmount first second rest (by omega)

/-- A lock on a settled vest: the end never moves back, and stays within five years. -/
theorem scheduled_ok {amount : Nat} (some_ : amount ≠ 0) (orderly : Orderly v now)
    (current : v.lastUpdate = now) (done : scheduled v now amount = .ok w) :
    Orderly w now ∧ v.vestingEnd ≤ w.vestingEnd ∧ w.lastUpdate = now ∧
      w.unvestedAmount = v.unvestedAmount + amount ∧ w.totalReleased = v.totalReleased ∧
      w.vestedUnreleased = v.vestedUnreleased := by
  simp only [scheduled, bind_ok, add_ok, mul_ok, sub_ok, pure_ok] at done
  obtain ⟨_, ⟨_, rfl⟩, remaining, runs, _, ⟨_, rfl⟩, _, ⟨_, rfl⟩, _, ⟨_, rfl⟩, _, ⟨_, rfl⟩, _, ⟨_, rfl⟩, _,
    ⟨_, rfl⟩, _, ⟨_, rfl⟩, rfl⟩ := done
  have positive : 0 < v.unvestedAmount + amount := by omega
  have left : v.vestingEnd ≤ now + remaining ∧ remaining ≤ VESTING_DURATION ∧
      (v.unvestedAmount ≠ 0 → 0 < remaining) := by
    simp only [remainingDuration, ite_ok, sub_ok, pure_ok] at runs
    rcases runs with ⟨none, rfl⟩ | ⟨some_, _, rfl⟩
    · have rested := orderly.rested none
      exact ⟨by omega, Nat.zero_le _, fun some_ => absurd none some_⟩
    · have running := orderly.running some_
      exact ⟨by omega, by omega, fun _ => by omega⟩
  have longer : remaining ≤ (v.unvestedAmount * remaining + amount * VESTING_DURATION) /
      (v.unvestedAmount + amount) := by
    rw [Nat.le_div_iff_mul_le positive]
    have more := Nat.mul_le_mul_left amount left.2.1
    nlinarith
  have shorter : (v.unvestedAmount * remaining + amount * VESTING_DURATION) /
      (v.unvestedAmount + amount) ≤ VESTING_DURATION := by
    apply Nat.div_le_of_le_mul
    have less := Nat.mul_le_mul_left v.unvestedAmount left.2.1
    nlinarith
  have started : 0 < (v.unvestedAmount * remaining + amount * VESTING_DURATION) /
      (v.unvestedAmount + amount) := by
    by_cases none : v.unvestedAmount = 0
    · rw [none, Nat.zero_mul, Nat.zero_add, Nat.zero_add, Nat.mul_div_cancel_left _ (by omega)]
      norm_num
    · exact (left.2.2 none).trans_le longer
  have totals := orderly.totals
  refine ⟨⟨by dsimp only; omega, le_rfl, ?_, ?_⟩, by dsimp only; omega, rfl, rfl, rfl, rfl⟩
  · exact fun _ => ⟨by dsimp only; omega, by dsimp only; omega⟩
  · intro none
    dsimp only at none
    omega

/-! What one call does. -/

/-- What has vested is released. -/
def released (v : LaunchVest) (now : Nat) : LaunchVest :=
  { checkpoint v now with
    vestedUnreleased := 0
    totalReleased := v.totalReleased + (checkpoint v now).vestedUnreleased }

inductive Move (s : State) : Action → State → Prop where
  /-- Only who the creator is may change, and what the vault holds may grow. -/
  | aside {action : Action} {after : State}
      (vaults : ∀ token, ∃ creator, after.vaults token = { s.vaults token with creatorRecipient := creator })
      (clock : after.clock = s.clock) (held : ∀ token, s.held token ≤ after.held token) : Move s action after
  | elapses (seconds : Nat) : Move s (.elapse seconds) { s with clock := s.clock + seconds }
  | locks {sender token : Address} {amount : Nat} {terms : Terms} {curve : Address} {arrived : Nat}
      {after : State} (settled : Terms) (w : LaunchVest) (some_ : arrived ≠ 0)
      (done : scheduled ((checkpoint (s.vaults token) s.clock).withTerms settled) s.clock arrived = .ok w)
      (vaults : after.vaults = Function.update s.vaults token w) (clock : after.clock = s.clock)
      (held : after.held = Function.update s.held token (s.held token + arrived)) :
      Move s (.lock sender token amount terms curve arrived) after
  | releases {sender token : Address} {after : State}
      (covered : (checkpoint (s.vaults token) s.clock).vestedUnreleased ≤ s.held token)
      (vaults : after.vaults = Function.update s.vaults token (released (s.vaults token) s.clock))
      (clock : after.clock = s.clock)
      (held : after.held = Function.update s.held token
        (s.held token - (checkpoint (s.vaults token) s.clock).vestedUnreleased)) :
      Move s (.release sender token) after

theorem released_none (none : (checkpoint v now).vestedUnreleased = 0) : released v now = checkpoint v now := by
  obtain ⟨unreleased, vested⟩ := Nat.add_eq_zero_iff.mp none
  simp [released, checkpoint, unreleased, vested]

theorem step_move {action : Action} (done : step c s action = .ok t) : Move s action t := by
  cases action with
  | setFactory sender factory_ =>
    simp only [step, setFactory, bind_ok, require_ok, pure_ok] at done
    obtain ⟨_, _, _, _, _, _, rfl⟩ := done
    exact .aside (fun _ => ⟨_, rfl⟩) rfl fun _ => le_rfl
  | donated token amount =>
    simp only [step, pure_ok] at done
    subst done
    refine .aside (fun _ => ⟨_, rfl⟩) rfl fun other => ?_
    by_cases same : other = token
    · subst same
      simp
    · simp [same]
  | elapse seconds =>
    simp only [step, pure_ok] at done
    subst done
    exact .elapses seconds
  | updateCreatorRecipient sender token newRecipient =>
    simp only [step, updateCreatorRecipient, bind_ok, require_ok, pure_ok] at done
    obtain ⟨_, _, _, _, rfl⟩ := done
    refine .aside (fun other => ?_) rfl fun _ => le_rfl
    by_cases same : other = token
    · subst same
      exact ⟨newRecipient, by simp [State.setVault]⟩
    · exact ⟨(s.vaults other).creatorRecipient, by simp [State.setVault, same]⟩
  | release sender token =>
    simp only [step, release, bind_ok, require_ok, ite_ok, add_ok, mul_ok, sub_ok, pure_ok] at done
    obtain ⟨_, _, _, _, done⟩ := done
    rcases done with ⟨none, rfl⟩ | ⟨_, _, ⟨_, rfl⟩, _, ⟨_, rfl⟩, _, _, _, ⟨covered, rfl⟩, rfl⟩
    · refine .releases (by omega) ?_ rfl ?_
      · rw [released_none none]
        rfl
      · simp [State.setVault, none]
    · exact .releases covered rfl rfl rfl
  | lock sender token amount terms curve arrived =>
    simp only [step, lock, bind_ok, require_ok, ite_ok, pure_ok] at done
    obtain ⟨_, _, _, _, _, _, ⟨_, rfl⟩ | ⟨_, _, _, ⟨none, rfl⟩ | ⟨some_, v, settled, w, timed, rfl⟩⟩⟩ := done
    · exact .aside (fun _ => ⟨_, rfl⟩) rfl fun _ => le_rfl
    · refine .aside (fun _ => ⟨_, rfl⟩) rfl fun _ => ?_
      simp [none]
    simp only [setOrValidateVestingTerms, ite_ok, bind_ok, require_ok, pure_ok] at settled
    rcases settled with ⟨_, rfl⟩ | ⟨_, _, _, rfl⟩
    · exact .locks ⟨_, terms.protocolRecipient, terms.protocolFeeShareBps⟩ w some_ timed rfl rfl rfl
    · exact .locks ⟨(s.vaults token).creatorRecipient, (s.vaults token).protocolRecipient,
        (s.vaults token).protocolFeeShareBps⟩ w some_ timed rfl rfl rfl

/-! Every run. -/

/-- Each vest is in order, and what it still owes is in the vault. -/
structure Sound (s : State) : Prop where
  orderly : ∀ token, Orderly (s.vaults token) s.clock
  covered : ∀ token, (s.vaults token).outstanding ≤ s.held token

/-- How one vest goes on: nothing that has vested is taken back, and its end is not moved forward. -/
structure Onward (v w : LaunchVest) (now later : Nat) : Prop where
  vested : vestedAmount v now ≤ vestedAmount w later
  ends : v.vestingEnd ≤ w.vestingEnd
  released : v.totalReleased ≤ w.totalReleased

theorem deployed_sound (clock : Nat) : Sound (deployed clock) :=
  ⟨fun _ => ⟨rfl, Nat.zero_le _, fun some_ => absurd rfl some_, fun _ => le_rfl⟩, fun _ => le_rfl⟩

theorem Orderly.elapse (orderly : Orderly v now) (grows : now ≤ later) : Orderly v later :=
  ⟨orderly.totals, orderly.past.trans grows, orderly.running, orderly.rested⟩

/-- The terms of a vest are no figures. -/
theorem Orderly.withTerms (orderly : Orderly v now) (terms : Terms) : Orderly (v.withTerms terms) now :=
  ⟨orderly.totals, orderly.past, orderly.running, orderly.rested⟩

theorem released_orderly (orderly : Orderly v now) : Orderly (released v now) now := by
  have settled := checkpoint_orderly orderly
  have totals := settled.totals
  refine ⟨?_, le_rfl, settled.running, settled.rested⟩
  dsimp only [released, checkpoint] at totals ⊢
  omega

theorem vestedAmount_released (v : LaunchVest) (now later : Nat) :
    vestedAmount (released v now) later = vestedAmount (checkpoint v now) later := by
  have same : previewNewlyVested (released v now) later = previewNewlyVested (checkpoint v now) later := rfl
  rw [vestedAmount, vestedAmount, same]
  dsimp only [released, checkpoint]
  omega

theorem Onward.refl (v : LaunchVest) (now : Nat) : Onward v v now now := ⟨le_rfl, le_rfl, le_rfl⟩

theorem Onward.trans {u : LaunchVest} {last : Nat} (first : Onward u v now later)
    (second : Onward v w later last) : Onward u w now last :=
  ⟨first.vested.trans second.vested, first.ends.trans second.ends, first.released.trans second.released⟩

/-- A whole lock, from the vest as it stood. -/
theorem locked_onward {settled : Terms} {amount : Nat} (orderly : Orderly v now) (some_ : amount ≠ 0)
    (done : scheduled ((checkpoint v now).withTerms settled) now amount = .ok w) :
    Orderly w now ∧ Onward v w now now ∧ w.outstanding = v.outstanding + amount := by
  have before := (checkpoint_orderly orderly).withTerms settled
  obtain ⟨after, ends, current, unvested, released, unreleased⟩ := scheduled_ok some_ before rfl done
  have part := preview_le v now
  have vested : vestedAmount w now = vestedAmount v now := by
    rw [← vestedAmount_checkpoint v now, vestedAmount, vestedAmount, preview_current w now current,
      preview_current _ now rfl, released, unreleased]
    rfl
  refine ⟨after, ⟨vested.ge, ends, released.ge⟩, ?_⟩
  rw [LaunchVest.outstanding, LaunchVest.outstanding, unvested, unreleased]
  dsimp only [LaunchVest.withTerms, checkpoint]
  omega

theorem released_onward (v : LaunchVest) (now : Nat) : Onward v (released v now) now now := by
  refine ⟨?_, le_rfl, ?_⟩
  · rw [vestedAmount_released, vestedAmount_checkpoint]
  · dsimp only [released]
    omega

/-- One vest goes on, with the balance that covers it. -/
theorem Sound.settle (sound : Sound s) {token : Address} {held : Nat}
    (vaults : t.vaults = Function.update s.vaults token w) (clock : t.clock = s.clock)
    (balances : t.held = Function.update s.held token held) (orderly : Orderly w s.clock)
    (onward : Onward (s.vaults token) w s.clock s.clock) (covered : w.outstanding ≤ held) :
    Sound t ∧ ∀ token, Onward (s.vaults token) (t.vaults token) s.clock t.clock := by
  refine ⟨⟨fun other => ?_, fun other => ?_⟩, fun other => ?_⟩
  all_goals by_cases chosen : other = token
  all_goals simp only [vaults, clock, balances, chosen, Function.update_self, ne_eq, not_false_eq_true,
    Function.update_of_ne]
  · exact orderly
  · exact sound.orderly other
  · exact covered
  · exact sound.covered other
  · exact onward
  · exact .refl ..

theorem move_sound {action : Action} (move : Move s action t) (sound : Sound s) :
    Sound t ∧ ∀ token, Onward (s.vaults token) (t.vaults token) s.clock t.clock := by
  cases move with
  | aside vaults clock held =>
    refine ⟨⟨fun token => ?_, fun token => ?_⟩, fun token => ?_⟩
    all_goals obtain ⟨creator, same⟩ := vaults token
    all_goals rw [same]
    · have orderly := sound.orderly token
      rw [clock]
      exact ⟨orderly.totals, orderly.past, orderly.running, orderly.rested⟩
    · exact (sound.covered token).trans (held token)
    · rw [clock]
      exact ⟨le_rfl, le_rfl, le_rfl⟩
  | elapses seconds =>
    refine ⟨⟨fun token => (sound.orderly token).elapse (Nat.le_add_right ..), sound.covered⟩, fun token => ?_⟩
    have mono := preview_mono (s.vaults token) (Nat.le_add_right s.clock seconds)
    exact ⟨Nat.add_le_add_left mono _, le_rfl, le_rfl⟩
  | @locks sender token amount terms curve arrived _ settled w some_ done vaults clock held =>
    obtain ⟨orderly, onward, owed⟩ := locked_onward (sound.orderly token) some_ done
    apply sound.settle vaults clock held orderly onward
    rw [owed]
    exact Nat.add_le_add_right (sound.covered token) _
  | @releases sender token _ covered vaults clock held =>
    apply sound.settle vaults clock held (released_orderly (sound.orderly token)) (released_onward ..)
    have part := preview_le (s.vaults token) s.clock
    have before := sound.covered token
    dsimp only [LaunchVest.outstanding, released, checkpoint] at before covered ⊢
    omega

theorem run_sound (sound : Sound s) (run : Reachable (accepts c) s t) :
    Sound t ∧ ∀ token, Onward (s.vaults token) (t.vaults token) s.clock t.clock := by
  apply run.invariant
  · exact ⟨sound, fun token => .refl ..⟩
  · intro before action after holds taken
    obtain ⟨next, onward⟩ := move_sound (step_move taken) holds.1
    exact ⟨next, fun token => (holds.2 token).trans (onward token)⟩

theorem reached_sound {clock : Nat} (reached : Reachable (accepts c) (deployed clock) s) : Sound s :=
  (run_sound (deployed_sound clock) reached).1

/-! A vault wired at a time when a vest of five years fits behind it. -/

def sample : Config := ⟨1, 2⟩

def shares : Terms := ⟨5, 6, 3_000⟩

/-- Two locks, a year apart, of the token 9 through its curve 8. -/
def locks : List Action :=
  [.setFactory 1 3, .lock 8 9 1_000 shares 8 1_000, .elapse 31_536_000, .release 5 9,
    .lock 8 9 4_000 shares 8 4_000]

def releasing : List Action := [.elapse 10, .release 6 9, .elapse 157_680_000, .release 5 9]

theorem sample_goes (calls rest : List Action) (rule : State → Action → Prop)
    [∀ s action, Decidable (rule s action)] (test : State → State → Bool)
    (passes : (run (step sample) (fun _ _ => True) (deployed 200_000_000) calls).any
      (fun s => (run (step sample) rule s rest).any (test s)) = true) :
    ∃ s after, Reachable (accepts sample) (deployed 200_000_000) s ∧
      Reachable (restrict (accepts sample) rule) s after ∧ test s after = true := by
  obtain ⟨s, ran, passed⟩ := run_passes _ _ calls _ _ passes
  obtain ⟨after, ran', passed⟩ := run_passes _ _ rest s _ passed
  exact ⟨s, after, ran.unrestricted, ran', passed⟩

/-- In every run each vest adds up, no more has vested than was locked, and the vault holds what every
vest still owes. -/
theorem vest_conserved (c : Config) (clock : Nat) (s : State) (token : Address)
    (reached : Reachable (accepts c) (deployed clock) s) :
    (s.vaults token).totalLocked = (s.vaults token).totalReleased + (s.vaults token).vestedUnreleased +
        (s.vaults token).unvestedAmount ∧
      vestedAmount (s.vaults token) s.clock ≤ (s.vaults token).totalLocked ∧
      (s.vaults token).vestedUnreleased + (s.vaults token).unvestedAmount ≤ s.held token := by
  have sound := reached_sound reached
  have totals := (sound.orderly token).totals
  have covered := sound.covered token
  have part := preview_le (s.vaults token) s.clock
  dsimp only [LaunchVest.outstanding, vestedAmount] at covered ⊢
  omega

theorem vest_conserved_locks : ∃ s, Reachable (accepts sample) (deployed 200_000_000) s ∧
    (s.vaults 9).totalReleased = 200 ∧ vestedAmount (s.vaults 9) s.clock ≤ (s.vaults 9).totalLocked := by
  obtain ⟨s, ran, passed⟩ := run_passes (step sample) (fun _ _ => True) locks (deployed 200_000_000)
    (fun s => (s.vaults 9).totalReleased == 200) (by decide +kernel)
  have reached : Reachable (accepts sample) (deployed 200_000_000) s := ran.unrestricted
  exact ⟨s, reached, by simpa using passed, (vest_conserved sample 200_000_000 s 9 reached).2.1⟩

/-- What has vested stays vested whatever is locked, released or redirected after it, and no lock brings
the end of a vest forward. -/
theorem vested_never_falls (c : Config) (clock : Nat) (s after : State) (token : Address)
    (reached : Reachable (accepts c) (deployed clock) s) (run : Reachable (accepts c) s after) :
    vestedAmount (s.vaults token) s.clock ≤ vestedAmount (after.vaults token) after.clock ∧
      (s.vaults token).vestingEnd ≤ (after.vaults token).vestingEnd ∧
      (s.vaults token).totalReleased ≤ (after.vaults token).totalReleased := by
  have onward := (run_sound (reached_sound reached) run).2 token
  exact ⟨onward.vested, onward.ends, onward.released⟩

theorem vested_never_falls_locks : ∃ s after : State, (s.vaults 9).vestingEnd < (after.vaults 9).vestingEnd ∧
    (s.vaults 9).totalReleased ≤ (after.vaults 9).totalReleased := by
  obtain ⟨s, after, reached, run, passed⟩ := sample_goes (locks.take 2) (locks.drop 2) (fun _ _ => True)
    (fun s after => (s.vaults 9).vestingEnd < (after.vaults 9).vestingEnd) (by decide +kernel)
  exact ⟨s, after, by simpa using passed,
    (vested_never_falls sample 200_000_000 s after 9 reached run.unrestricted).2.2⟩

/-! Runs without a lock. -/

def Spares (token : Address) (_ : State) : Action → Prop
  | .lock _ other _ _ _ _ => other ≠ token
  | _ => True

instance (token : Address) (s : State) (action : Action) : Decidable (Spares token s action) :=
  match action with
  | .lock _ other _ _ _ _ => inferInstanceAs (Decidable (other ≠ token))
  | .setFactory .. | .release .. | .updateCreatorRecipient .. | .donated .. | .elapse _ => isTrue trivial

/-- Settling early gains nothing, and the clock stays. -/
structure Unhurried (v w : LaunchVest) (now : Nat) : Prop where
  early : ∀ later, now ≤ later → vestedAmount w later ≤ vestedAmount v later
  ends : w.vestingEnd = v.vestingEnd
  locked : w.totalLocked = v.totalLocked

theorem spared_run {token : Address} (sound : Sound s)
    (run : Reachable (restrict (accepts c) (Spares token)) s t) :
    Sound t ∧ Unhurried (s.vaults token) (t.vaults token) t.clock := by
  apply run.invariant
  · exact ⟨sound, fun _ _ => le_rfl, rfl, rfl⟩
  rintro before action after ⟨holds, early, ends, locked⟩ ⟨spared, taken⟩
  have move := step_move taken
  refine ⟨(move_sound move holds).1, ?_⟩
  cases move with
  | aside vaults clock held =>
    obtain ⟨creator, same⟩ := vaults token
    rw [same, clock]
    exact ⟨early, ends, locked⟩
  | elapses seconds => exact ⟨fun later grows => early later (by dsimp only at grows; omega), ends, locked⟩
  | locks settled w some_ done vaults clock held =>
    rw [vaults, clock, Function.update_of_ne (Ne.symm spared)]
    exact ⟨early, ends, locked⟩
  | @releases sender other _ covered vaults clock held =>
    by_cases same : token = other
    · subst same
      rw [vaults, clock, Function.update_self]
      refine ⟨fun later grows => ?_, ends, locked⟩
      rw [vestedAmount_released]
      exact (checkpoint_early (holds.orderly token) grows).trans (early later grows)
    · rw [vaults, clock, Function.update_of_ne same]
      exact ⟨early, ends, locked⟩

/-- Until the next lock, how often the vest is released does not make any of it vest earlier than the
clock of the last lock says. -/
theorem releases_never_early (c : Config) (clock : Nat) (s after : State) (token : Address)
    (reached : Reachable (accepts c) (deployed clock) s)
    (run : Reachable (restrict (accepts c) (Spares token)) s after) :
    vestedAmount (after.vaults token) after.clock ≤ vestedAmount (s.vaults token) after.clock :=
  (spared_run (reached_sound reached) run).2.early after.clock le_rfl

theorem releases_never_early_locks : ∃ s after : State, (after.vaults 9).totalReleased = 5_000 ∧
    vestedAmount (after.vaults 9) after.clock ≤ vestedAmount (s.vaults 9) after.clock := by
  obtain ⟨s, after, reached, run, passed⟩ := sample_goes locks releasing (Spares 9)
    (fun _ after => (after.vaults 9).totalReleased == 5_000) (by decide +kernel)
  exact ⟨s, after, by simpa using passed, releases_never_early sample 200_000_000 s after 9 reached run⟩

/-- Five years after the last lock everything ever locked has vested, released or not. -/
theorem fully_vested (c : Config) (clock : Nat) (s after : State) (token : Address)
    (reached : Reachable (accepts c) (deployed clock) s)
    (run : Reachable (restrict (accepts c) (Spares token)) s after)
    (waited : s.clock + VESTING_DURATION ≤ after.clock) :
    vestedAmount (after.vaults token) after.clock = (after.vaults token).totalLocked := by
  have before := (reached_sound reached).orderly token
  obtain ⟨sound, unhurried⟩ := spared_run (reached_sound reached) run
  have orderly := sound.orderly token
  generalize after.vaults token = w at *
  have ended : w.vestingEnd ≤ after.clock := by
    rw [unhurried.ends]
    have past := before.past
    by_cases none : (s.vaults token).unvestedAmount = 0
    · have rested := before.rested none
      omega
    · have running := before.running none
      omega
  have whole : previewNewlyVested w after.clock = w.unvestedAmount := by
    by_cases none : w.unvestedAmount = 0
    · simp [previewNewlyVested, none]
    · have running := orderly.running none
      rw [previewNewlyVested, if_neg (by omega), if_pos ended]
  rw [vestedAmount, whole, orderly.totals]

theorem fully_vested_locks : ∃ after : State,
    vestedAmount (after.vaults 9) after.clock = (after.vaults 9).totalLocked := by
  obtain ⟨s, after, reached, run, waited⟩ := sample_goes locks (releasing.take 3) (Spares 9)
    (fun s after => s.clock + VESTING_DURATION ≤ after.clock) (by decide +kernel)
  exact ⟨after, fully_vested sample 200_000_000 s after 9 reached run (by simpa using waited)⟩

end Solonpad.BuybackVault
