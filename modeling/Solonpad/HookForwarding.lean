import Solonpad.EthereumBridger
import Solonpad.Transition

/-!
Checkpoints and the money of their hooks. What went to the gate is always the front of what was accepted.
A balance that pays for some of the backlog and not for all of it stops both the forwarding and the
acceptance of the next checkpoint; with less than one hook, or enough for the backlog and the new one,
nothing is stopped.
-/

namespace Solonpad.Bridger

open Checked Messages Transition
open Chain (Address)

variable {Hash : Type} {c : Config} {s after : State Hash}

def State.backlog (s : State Hash) : Nat := s.checkpoints.length - s.forwardedThrough

/-- What was sent to the gate: each accepted checkpoint once and in order, up to the cursor. -/
structure Forwarded (s : State Hash) : Prop where
  hooks : s.hooks = s.checkpoints.take s.forwardedThrough
  within : s.forwardedThrough ≤ s.checkpoints.length

/-- The loop runs to its end when the balance pays for every checkpoint in it. -/
theorem forwardLoop_ok (waiting : List (Checkpoint Hash)) (s after : State Hash) :
    forwardLoop s waiting = .ok after ↔ hookAmount * waiting.length ≤ s.usdc ∧
      after = { s with
        usdc := s.usdc - hookAmount * waiting.length
        hooks := s.hooks ++ waiting
        forwardedThrough := s.forwardedThrough + waiting.length } := by
  induction waiting generalizing s with
  | nil =>
    simp only [forwardLoop, pure_ok, List.length_nil, Nat.mul_zero, Nat.zero_le, true_and, List.append_nil,
      Nat.sub_zero, Nat.add_zero]
    exact eq_comm
  | cons checkpoint rest ih =>
    simp only [forwardLoop, bind_ok, require_ok, ih, List.length_cons, Nat.mul_succ]
    constructor
    · rintro ⟨_, one, others, rfl⟩
      refine ⟨by omega, ?_⟩
      simp only [State.mk.injEq, List.append_assoc, List.singleton_append, true_and, and_true]
      omega
    · rintro ⟨enough, rfl⟩
      refine ⟨(), by omega, by omega, ?_⟩
      simp only [State.mk.injEq, List.append_assoc, List.singleton_append, true_and, and_true]
      omega

theorem forwardAll_ok (s after : State Hash) :
    forwardAll s = .ok after ↔ hookAmount * s.backlog ≤ s.usdc ∧
      after = { s with
        usdc := s.usdc - hookAmount * s.backlog
        hooks := s.hooks ++ s.checkpoints.drop s.forwardedThrough
        forwardedThrough := s.forwardedThrough + s.backlog } := by
  rw [forwardAll, forwardLoop_ok, List.length_drop]
  rfl

/-- After the loop the cursor stands at the end. -/
theorem forwardAll_forwarded (done : forwardAll s = .ok after) (before : Forwarded s) :
    Forwarded after ∧ after.forwardedThrough = s.checkpoints.length ∧ after.checkpoints = s.checkpoints := by
  obtain ⟨_, rfl⟩ := (forwardAll_ok s after).mp done
  have whole : s.forwardedThrough + s.backlog = s.checkpoints.length := Nat.add_sub_cancel' before.within
  refine ⟨⟨?_, ?_⟩, whole, rfl⟩
  · show s.hooks ++ s.checkpoints.drop s.forwardedThrough = s.checkpoints.take (s.forwardedThrough + s.backlog)
    rw [whole, List.take_length, before.hooks, List.take_append_drop]
  · exact Nat.le_of_eq whole

/-- A new checkpoint waits behind the others. -/
theorem Forwarded.accepted (before : Forwarded s) (checkpoint : Checkpoint Hash) :
    Forwarded { s with checkpoints := s.checkpoints ++ [checkpoint] } where
  hooks := by
    dsimp only
    rw [List.take_append_of_le_length before.within]
    exact before.hooks
  within := by
    simp only [List.length_append, List.length_singleton]
    exact Nat.le_succ_of_le before.within

theorem Forwarded.same (before : Forwarded s) (hooks : after.hooks = s.hooks)
    (checkpoints : after.checkpoints = s.checkpoints)
    (through : after.forwardedThrough = s.forwardedThrough) : Forwarded after := by
  constructor
  · rw [hooks, checkpoints, through, before.hooks]
  · rw [checkpoints, through]
    exact before.within

theorem ticket_ok (d : Deliver) (accepted : Bool) :
    ticket s d accepted = .ok after ↔ accepted = true ∧ after = { s with tickets := s.tickets ++ [d] } := by
  simp only [ticket, bind_ok, require_ok, pure_ok, exists_const, eq_comm (a := after)]

theorem step_forwarded {call : Call Hash} (taken : step c s call = .ok after) (before : Forwarded s) :
    Forwarded after := by
  obtain ⟨sender, action⟩ := call
  cases action with
  | relay message attested accepted =>
    simp only [step, relay, bind_ok, require_ok, ticket_ok] at taken
    obtain ⟨_, _, _, _, _, _, _, rfl⟩ := taken
    exact before.same rfl rfl rfl
  | retry ref accepted =>
    simp only [step, retry, bind_ok, require_ok, ticket_ok] at taken
    obtain ⟨_, _, _, rfl⟩ := taken
    exact before.same rfl rfl rfl
  | acceptCheckpoint l2Sender checkpoint =>
    simp only [step, acceptCheckpoint, bind_ok, require_ok, ite_ok, pure_ok] at taken
    obtain ⟨_, _, _, _, ⟨_, taken⟩ | ⟨_, rfl⟩⟩ := taken
    · exact (forwardAll_forwarded taken (before.accepted checkpoint)).1
    · exact before.accepted checkpoint
  | forward =>
    simp only [step, forward, bind_ok, require_ok] at taken
    obtain ⟨_, _, taken⟩ := taken
    exact (forwardAll_forwarded taken before).1
  | fund amount paid =>
    simp only [step, fund, bind_ok, require_ok, pure_ok] at taken
    obtain ⟨_, _, rfl⟩ := taken
    exact before.same rfl rfl rfl
  | withdraw amount =>
    simp only [step, withdraw, bind_ok, require_ok, pure_ok] at taken
    obtain ⟨_, _, _, _, rfl⟩ := taken
    exact before.same rfl rfl rfl
  | donate amount =>
    simp only [step, pure_ok] at taken
    cases taken
    exact before.same rfl rfl rfl

theorem run_forwarded {usdc : Nat} (reached : Reachable (accepts c) (deployed usdc) s) : Forwarded s := by
  refine reached.invariant ⟨rfl, Nat.le_refl _⟩ ?_
  intro earlier call next holds taken
  exact step_forwarded taken holds

/-- The outbox can hand over any checkpoint, and what waits moves once there is money for a hook. -/
structure Unblocked (c : Config) (s : State Hash) : Prop where
  accepting : ∀ checkpoint, ∃ after, acceptCheckpoint c s c.bridge c.vault checkpoint = .ok after ∧
    after.checkpoints = s.checkpoints ++ [checkpoint]
  forwarding : s.forwardedThrough ≠ s.checkpoints.length → hookAmount ≤ s.usdc →
    ∃ after, forward s = .ok after ∧ s.forwardedThrough < after.forwardedThrough

/-- An accepted checkpoint is recorded, and the balance did not end in the middle of the backlog. -/
theorem acceptCheckpoint_spec {sender l2Sender : Address} {checkpoint : Checkpoint Hash}
    (done : acceptCheckpoint c s sender l2Sender checkpoint = .ok after) :
    after.checkpoints = s.checkpoints ++ [checkpoint] ∧ (s.usdc < hookAmount ∨
      hookAmount * (s.checkpoints.length + 1 - s.forwardedThrough) ≤ s.usdc) := by
  simp only [acceptCheckpoint, bind_ok, require_ok, ite_ok, pure_ok, forwardAll_ok, State.backlog,
    List.length_append, List.length_singleton] at done
  obtain ⟨_, _, _, _, ⟨_, enough, rfl⟩ | ⟨short, rfl⟩⟩ := done
  · exact ⟨rfl, .inr enough⟩
  · exact ⟨rfl, .inl (Nat.lt_of_not_le short)⟩

theorem acceptCheckpoint_succeeds (checkpoint : Checkpoint Hash)
    (enough : s.usdc < hookAmount ∨ hookAmount * (s.checkpoints.length + 1 - s.forwardedThrough) ≤ s.usdc) :
    ∃ after, acceptCheckpoint c s c.bridge c.vault checkpoint = .ok after := by
  simp only [acceptCheckpoint, bind_ok, require_ok, ite_ok, pure_ok, forwardAll_ok, State.backlog,
    List.length_append, List.length_singleton]
  by_cases short : hookAmount ≤ s.usdc
  · have paid := enough.resolve_left (Nat.not_lt.mpr short)
    exact ⟨_, (), trivial, (), trivial, .inl ⟨short, paid, rfl⟩⟩
  · exact ⟨_, (), trivial, (), trivial, .inr ⟨short, rfl⟩⟩

theorem forward_ok (s after : State Hash) : forward s = .ok after ↔
    s.forwardedThrough ≠ s.checkpoints.length ∧ forwardAll s = .ok after := by
  simp only [forward, bind_ok, require_ok, exists_const]

theorem forward_succeeds (before : Forwarded s) (waiting : s.forwardedThrough ≠ s.checkpoints.length)
    (enough : hookAmount * s.backlog ≤ s.usdc) :
    ∃ after, forward s = .ok after ∧ s.forwardedThrough < after.forwardedThrough := by
  have within := before.within
  have done := (forwardAll_ok s _).mpr ⟨enough, rfl⟩
  refine ⟨_, (forward_ok s _).mpr ⟨waiting, done⟩, ?_⟩
  show s.forwardedThrough < s.forwardedThrough + (s.checkpoints.length - s.forwardedThrough)
  omega

/-- In every reachable state, for every balance and backlog. -/
theorem checkpoints_forwarded [Inhabited Hash] {usdc : Nat} (reached : Reachable (accepts c) (deployed usdc) s) :
    Forwarded s ∧
    (Unblocked c s ↔ s.usdc < hookAmount ∨ hookAmount * (s.backlog + 1) ≤ s.usdc) := by
  have before := run_forwarded reached
  have within := before.within
  have next : s.checkpoints.length + 1 - s.forwardedThrough = s.backlog + 1 := by
    unfold State.backlog
    omega
  refine ⟨before, ?_, ?_⟩
  · intro unblocked
    obtain ⟨after, done, _⟩ := unblocked.accepting ⟨default, 0, 0⟩
    exact next ▸ (acceptCheckpoint_spec done).2
  · intro enough
    constructor
    · intro checkpoint
      obtain ⟨after, done⟩ := acceptCheckpoint_succeeds checkpoint (next.symm ▸ enough)
      exact ⟨after, done, (acceptCheckpoint_spec done).1⟩
    · intro waiting hook
      refine forward_succeeds before waiting ?_
      have paid := enough.resolve_left (Nat.not_lt.mpr hook)
      rw [Nat.mul_succ] at paid
      omega

/-! A checkpoint accepted without money, and one USDC that comes after it. -/

def sample : Config := ⟨1, 2, 3, 4, 5, 6, 7⟩

theorem sample_waits : ∃ s, Reachable (accepts sample) (deployed 0 : State Nat) s ∧
    (s.checkpoints = [⟨11, 0, 4⟩] ∧ s.forwardedThrough = 0 ∧ s.usdc = hookAmount) := by
  have accepted := Reachable.next .start (show accepts sample (deployed 0) ⟨3, .acceptCheckpoint 7 ⟨11, 0, 4⟩⟩ _
    from rfl)
  exact ⟨_, .next accepted (show accepts sample _ ⟨8, .fund hookAmount true⟩ _ from rfl), rfl, rfl, rfl⟩

theorem checkpoints_forwarded_waiting : ∃ s : State Nat, s.checkpoints = [⟨11, 0, 4⟩] ∧ Forwarded s ∧
    ¬ Unblocked sample s := by
  obtain ⟨s, reached, accepted, through, usdc⟩ := sample_waits
  obtain ⟨forwarded, exactly⟩ := checkpoints_forwarded reached
  refine ⟨s, accepted, forwarded, fun unblocked => ?_⟩
  have enough := exactly.mp unblocked
  simp only [State.backlog, accepted, through, usdc, List.length_singleton] at enough
  revert enough
  decide

/-- The outbox is refused while the balance holds exactly one hook. -/
theorem acceptance_blocked : ∃ s, Reachable (accepts sample) (deployed 0 : State Nat) s ∧
    hookAmount ≤ s.usdc ∧
    ¬ ∃ after, acceptCheckpoint sample s sample.bridge sample.vault ⟨12, 5, 9⟩ = .ok after := by
  obtain ⟨s, reached, accepted, through, usdc⟩ := sample_waits
  refine ⟨s, reached, Nat.le_of_eq usdc.symm, fun ⟨after, done⟩ => ?_⟩
  have enough := (acceptCheckpoint_spec done).2
  simp only [accepted, through, usdc, List.length_singleton] at enough
  revert enough
  decide

end Solonpad.Bridger
