import Solonpad.FeeMoves
import Solonpad.Transition

/-!
What every bucket was ever allocated, against what its pool received. The allocation of a lot
carries each bucket's fraction to the next one, so the whole allocation is the floor of the
bucket's share of the whole receipt.
-/

namespace Solonpad.FeeLedger

open Checked CarriedSplit Transition
open Chain (Address)

variable {c : Config} {s after : State}

/-- What the lots of a pool add up to. -/
def State.received (s : State) (poolId : PoolId) : Nat :=
  (s.credits.map fun lot => if lot.poolId = poolId then lot.amount else 0).sum

/-- What the lots of a pool allocated to a bucket. -/
def State.allocated (s : State) (poolId : PoolId) (bucket : Bucket) : Nat :=
  (s.credits.map fun lot => if lot.poolId = poolId then lot.allocated bucket else 0).sum

structure Split (s : State) : Prop where
  exact : ∀ poolId bucket, Exact bps (shares bucket) (s.accounts poolId).totalReceived
    (s.allocated poolId bucket) ((s.accounts poolId).remainder bucket)
  lots : ∀ poolId, (s.accounts poolId).totalReceived = s.received poolId
  paid : ∀ poolId, ∑ bucket, (s.accounts poolId).accrued bucket + (s.accounts poolId).totalPaid =
    ∑ bucket, s.allocated poolId bucket

theorem shares_whole : ∑ bucket, shares bucket = bps := by decide

theorem deployed_split (world : World) : Split (deployed world) where
  exact := fun _ _ => .zero (by decide)
  lots := fun _ => rfl
  paid := fun _ => rfl

/-- The split reads these figures only. -/
theorem Split.same (split : Split s)
    (figures : ∀ poolId, (after.accounts poolId).accrued = (s.accounts poolId).accrued ∧
      (after.accounts poolId).remainder = (s.accounts poolId).remainder ∧
      (after.accounts poolId).totalReceived = (s.accounts poolId).totalReceived ∧
      (after.accounts poolId).totalPaid = (s.accounts poolId).totalPaid)
    (credits : after.credits = s.credits) : Split after := by
  constructor
  · intro poolId bucket
    obtain ⟨_, remainder, received, _⟩ := figures poolId
    rw [remainder, received, State.allocated, credits]
    exact split.exact poolId bucket
  · intro poolId
    rw [(figures poolId).2.2.1, State.received, credits]
    exact split.lots poolId
  · intro poolId
    obtain ⟨accrued, _, _, paid⟩ := figures poolId
    simp only [State.allocated, credits]
    rw [accrued, paid]
    exact split.paid poolId

theorem figures_four {a b : Account} (same : b.figures = a.figures) :
    b.accrued = a.accrued ∧ b.remainder = a.remainder ∧ b.totalReceived = a.totalReceived ∧
      b.totalPaid = a.totalPaid := by
  obtain ⟨accrued, remainder, received, paid, _⟩ := figures_spec same
  exact ⟨accrued, remainder, received, paid⟩

/-- One lot moves the books of its own pool by its parts. -/
theorem Credited.split {poolId : PoolId} {amount : Nat} (credited : Credited c poolId amount s after)
    (split : Split s) : Split after := by
  obtain ⟨lotId, credits⟩ := credited.credits
  have received : ∀ other, after.received other =
      s.received other + if other = poolId then amount else 0 := by
    intro other
    simp [State.received, credits, eq_comm]
  have allocated : ∀ other bucket, after.allocated other bucket = s.allocated other bucket +
      if other = poolId then allocation amount (s.accounts poolId) bucket else 0 := by
    intro other bucket
    simp [State.allocated, credits, eq_comm]
  constructor
  · intro other bucket
    rw [allocated other bucket]
    by_cases same : other = poolId
    · subst same
      rw [if_pos rfl, credited.account.received, credited.account.remainder]
      exact (split.exact other bucket).lot amount
    · obtain ⟨_, remainder, total, _⟩ := figures_four (credited.others other same)
      rw [if_neg same, remainder, total]
      exact split.exact other bucket
  · intro other
    rw [received other]
    by_cases same : other = poolId
    · subst same
      rw [if_pos rfl, credited.account.received, split.lots other]
    · rw [if_neg same, (figures_four (credited.others other same)).2.2.1, split.lots other]
      rfl
  · intro other
    simp only [allocated other]
    have before := split.paid other
    by_cases same : other = poolId
    · subst same
      simp only [if_true, credited.account.accrued, credited.account.paid, Finset.sum_add_distrib]
      omega
    · obtain ⟨accrued, _, _, paid⟩ := figures_four (credited.others other same)
      simp only [same, if_false, Nat.add_zero]
      rw [accrued, paid]
      exact before

/-- A payment moves a bucket's credit to what its pool has paid. -/
theorem taken_split {poolId : PoolId} {bucket : Bucket} {amount : Nat} (split : Split s)
    (held : amount ≤ (s.accounts poolId).accrued bucket) : Split (s.taken poolId bucket amount) := by
  constructor
  · intro other share
    by_cases same : other = poolId
    · subst same
      simpa [State.taken, State.setAccount, State.allocated] using split.exact other share
    · simpa [State.taken, State.setAccount, State.allocated, same] using split.exact other share
  · intro other
    by_cases same : other = poolId
    · subst same
      simpa [State.taken, State.setAccount, State.received] using split.lots other
    · simpa [State.taken, State.setAccount, State.received, same] using split.lots other
  · intro other
    have before := split.paid other
    by_cases same : other = poolId
    · subst same
      simp only [State.taken, State.setAccount, Function.update_self]
      rw [Finset.sum_update_of_mem (Finset.mem_univ bucket)]
      rw [Finset.sum_eq_add_sum_sdiff_singleton_of_mem (Finset.mem_univ bucket)] at before
      simp only [State.allocated] at before ⊢
      omega
    · simpa [State.taken, State.setAccount, State.allocated, same] using before

theorem move_split {x y : OnWay × State} (move : Move c x y) (split : Split x.2) : Split y.2 := by
  cases move with
  | keeps unmoved => exact split.same (fun poolId => figures_four (unmoved.figures poolId)) unmoved.credits
  | arrives _ _ unmoved =>
    exact split.same (fun poolId => figures_four (unmoved.figures poolId)) unmoved.credits
  | books poolId manager amount =>
    refine split.same (fun other => ?_) rfl
    by_cases same : other = poolId
    · subst same
      simp [State.claimed, State.setAccount, State.reserve]
    · simp [State.claimed, State.setAccount, State.reserve, same]
  | credits poolId amount _ credited => exact credited.split split
  | takes poolId bucket amount _ held => exact taken_split split held
  | redeems poolId _ redeemed =>
    refine split.same (fun other => ?_) redeemed.credits
    by_cases same : other = poolId
    · subst same
      obtain ⟨accrued, remainder, received, paid⟩ := figures_four redeemed.cleared
      exact ⟨accrued, remainder, received, paid⟩
    · exact figures_four (redeemed.others other same)
  | leaves _ _ left => exact split.same (fun poolId => figures_four (left.figures poolId)) left.credits

theorem Moves.split (moves : Moves c s after) (split : Split s) : Split after := by
  have kept : ∀ x y : OnWay × State, Relation.ReflTransGen (Move c) x y → Split x.2 → Split y.2 := by
    intro x y chain initially
    induction chain with
    | refl => exact initially
    | tail _ move ih => exact move_split move ih
  exact kept _ _ moves split

/-- What a turn of the system does, from a ledger that waits for no manager. -/
theorem turn_moves {call : Option Call} (unarmed : s.redemptionCallback = none)
    (taken : turn c s call after) : Moves c s after ∧ after.redemptionCallback = none := by
  cases call with
  | none =>
    obtain ⟨world, rfl, spares⟩ := taken
    exact ⟨(Kept.world s world spares).moves, unarmed⟩
  | some call => exact step_moves unarmed taken

theorem reachable_unarmed {world : World} (reached : Reachable (turn c) (deployed world) s) :
    s.redemptionCallback = none := by
  induction reached with
  | start => rfl
  | next _ taken ih => exact (turn_moves ih taken).2

theorem reachable_split {world : World} (reached : Reachable (turn c) (deployed world) s) : Split s := by
  induction reached with
  | start => exact deployed_split world
  | next earlier taken ih => exact (turn_moves (reachable_unarmed earlier) taken).1.split ih

/-- For every pool the allocations are exact: nothing is lost or created, whatever the lots. -/
theorem split_exact (c : Config) (world : World) (s : State)
    (reached : Reachable (turn c) (deployed world) s) (poolId : PoolId) :
    (∀ bucket, s.allocated poolId bucket * 10000 + (s.accounts poolId).remainder bucket =
      (s.accounts poolId).totalReceived * shares bucket) ∧
    10000 ∣ ∑ bucket, (s.accounts poolId).remainder bucket ∧
    ∑ bucket, s.allocated poolId bucket + (s.accounts poolId).roundingReserve =
      (s.accounts poolId).totalReceived ∧
    (s.accounts poolId).totalReceived = s.received poolId ∧
    ∀ bucket, s.allocated poolId bucket =
      (s.accounts poolId).totalReceived * shares bucket / 10000 := by
  have split := reachable_split reached
  have carries := sum_carries (by decide) shares_whole (split.exact poolId)
  exact ⟨fun bucket => (split.exact poolId bucket).balanced, carries.1, carries.2,
    split.lots poolId, fun bucket => (split.exact poolId bucket).floor⟩

/-! Runs that can be evaluated. -/

/-- A run of calls that reach honest contracts only. -/
theorem honest_reachable (calls : List { call : Call // Honest c call.env }) (start : State) (test : State → Bool)
    (passes : (run (fun s call => step c s call.val) (fun _ call => Outside c call.val) start calls).any test = true) :
    ∃ s, Reachable (turn c) start s ∧ test s = true := by
  obtain ⟨s, reached, passed⟩ := run_passes _ _ calls start test passes
  refine ⟨s, reached.map (fun call => some call.val) ?_, passed⟩
  intro before call after taken
  exact ⟨taken.1, call.property, taken.2⟩

/-- A call in which the other contracts return and do nothing of their own. -/
def plain (sender value : Nat) (action : Action) : Call where
  env := {
    sender := sender
    value := value
    answers := fun _ => true
    foreign := fun _ s => s
    hasCode := fun _ => true
    custodyMode := fun _ => none
    poolManager := 0
    unlocked := false
    delivered := 0
    row := fun _ => 0
    coins := fun _ => 0 }
  action := action

def plainly (sender value : Nat) (action : Action) : { call : Call // Honest c call.env } :=
  ⟨plain sender value action, 0, fun _ s => ⟨s.world, rfl, .refl _⟩⟩

def sample : Config := ⟨1, 2, 0⟩

/-- Nobody owns anything but the hook, which holds native money. -/
def funded : World := ⟨fun holder => if holder = 3 then 10 ^ 6 else 0, fun _ _ => 0, fun _ _ => 0⟩

/-- Two native pools of the same beneficiaries, and two lots for the first. -/
def twoLots : List { call : Call // Honest sample call.env } :=
  [plainly 2 0 (.registerPool 7 0 0 3 fun bucket => 20 + bucket),
    plainly 2 0 (.registerPool 8 0 0 3 fun bucket => 20 + bucket),
    plainly 3 12345 (.creditNative 7), plainly 3 77 (.creditNative 7)]

theorem split_exact_lots : ∃ s, Reachable (turn sample) (deployed funded) s ∧
    (s.accounts 7).totalReceived = 12422 ∧ s.allocated 7 0 = 12422 * shares 0 / 10000 := by
  obtain ⟨s, reached, passed⟩ := honest_reachable twoLots (deployed funded)
    (fun s => decide ((s.accounts 7).totalReceived = 12422)) (by decide)
  have total := of_decide_eq_true passed
  refine ⟨s, reached, total, ?_⟩
  have exact := (split_exact sample funded s reached 7).2.2.2.2 0
  rwa [total] at exact

end Solonpad.FeeLedger
