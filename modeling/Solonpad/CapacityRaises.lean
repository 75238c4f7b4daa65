import Solonpad.CapacityMoves
import Solonpad.Histories

/-!
How a limit rises: only by executing a proposal that waited its delay, and tightening a limit
withdraws what was proposed before. The global limits keep both rules. An asset's cap keeps the
first one; `lowerAssetCap` leaves the asset's proposal pending, so the second holds only in runs
that never tighten an asset's cap while its proposal waits.
-/

namespace Solonpad.Capacity

open Checked Chain Histories

variable {Key : Type} {s after : State Key} {call : Call Key} {asset : Address}

abbrev Past (Key : Type) := List (Taken (State Key) (Call Key))

/-- Any sender's calls, at any times. -/
def Calls [DecidableEq Key] (owner guardian : Address) : Past Key → State Key → Prop :=
  History (fun s call after => step s call = .ok after) (deployed owner guardian)

def Action.lowersLimits : Action Key → Prop
  | .lowerLimits .. => True
  | _ => False

def Action.lowersCap (asset : Address) : Action Key → Prop
  | .lowerAssetCap other _ => other = asset
  | _ => False

/-- A global limit rises. -/
def Raises (before after : State Key) : Prop :=
  before.lRun < after.lRun ∨ before.uRun < after.uRun ∨ before.totalCap < after.totalCap

/-- The cap of a capped asset rises. -/
def RaisesCap (asset : Address) (before after : State Key) : Prop :=
  (before.assetCap asset).set = true ∧ (before.assetCap asset).cap < (after.assetCap asset).cap

/-- These limits were proposed at least the delay before, and not tightened since. -/
def Waited (past : Past Key) (now lRun uRun totalCap : Nat) : Prop :=
  Since (fun t => t.action.action = .proposeLimits lRun uRun totalCap ∧ t.action.now + limitDelay ≤ now)
    (fun t => t.action.action.lowersLimits) past

/-- The same for an asset's cap. -/
def WaitedCap (past : Past Key) (now : Nat) (asset : Address) (cap : Nat) : Prop :=
  Since (fun t => t.action.action = .proposeAssetCap asset cap ∧ t.action.now + limitDelay ≤ now)
    (fun t => t.action.action.lowersCap asset) past

/-- What a step may do to the limits, after a past: raise them by an execution only, and execute
only what waited. -/
structure LimitsWait (past : Past Key) (t : Taken (State Key) (Call Key)) : Prop where
  raises : Raises t.before t.after → t.action.action = .executeLimits
  executes : t.action.action = .executeLimits →
    Waited past t.action.now t.after.lRun t.after.uRun t.after.totalCap

structure CapsWait (past : Past Key) (t : Taken (State Key) (Call Key)) : Prop where
  raises : ∀ asset, RaisesCap asset t.before t.after → t.action.action = .executeAssetCap asset
  executes : ∀ asset, t.action.action = .executeAssetCap asset →
    WaitedCap past t.action.now asset (t.after.assetCap asset).cap

/-- No proposal waits for an asset whose cap the step tightens. -/
def Clear (t : Taken (State Key) (Call Key)) : Prop :=
  ∀ asset, t.action.action.lowersCap asset → (t.before.pendingAssetCap asset).eta = 0

/-! What one call does to limits, caps and proposals. -/

/-- The figures that a call leaves as they are. -/
structure SameLimits (s after : State Key) : Prop where
  lRun : after.lRun = s.lRun
  uRun : after.uRun = s.uRun
  totalCap : after.totalCap = s.totalCap
  pending : after.pendingLimits = s.pendingLimits

structure SameCap (asset : Address) (s after : State Key) : Prop where
  cap : after.assetCap asset = s.assetCap asset
  pending : after.pendingAssetCap asset = s.pendingAssetCap asset

/-- The ways a call meets the global limits. -/
inductive LimitMove (s : State Key) (call : Call Key) (after : State Key) : Prop where
  | other (same : SameLimits s after) (action : call.action ≠ .executeLimits)
      (kept : ¬ call.action.lowersLimits)
  | lowers (lRun uRun totalCap : Nat) (action : call.action = .lowerLimits lRun uRun totalCap)
      (lower : ¬ Raises s after) (none : after.pendingLimits.eta = 0)
  | proposes (lRun uRun totalCap : Nat) (action : call.action = .proposeLimits lRun uRun totalCap)
      (same : after.lRun = s.lRun ∧ after.uRun = s.uRun ∧ after.totalCap = s.totalCap)
      (pending : after.pendingLimits = ⟨lRun, uRun, totalCap, call.now + limitDelay⟩)
  | executes (action : call.action = .executeLimits) (waits : s.pendingLimits.eta ≠ 0)
      (due : s.pendingLimits.eta ≤ call.now)
      (set : after.lRun = s.pendingLimits.lRun ∧ after.uRun = s.pendingLimits.uRun ∧
        after.totalCap = s.pendingLimits.totalCap) (none : after.pendingLimits.eta = 0)

/-- The ways a call meets one asset's cap. -/
inductive CapMove (asset : Address) (s : State Key) (call : Call Key) (after : State Key) : Prop where
  | other (same : SameCap asset s after) (action : call.action ≠ .executeAssetCap asset)
      (kept : ¬ call.action.lowersCap asset)
  | sets (cap : Nat) (action : call.action = .setAssetCap asset cap)
      (first : (s.assetCap asset).set = false)
      (pending : after.pendingAssetCap asset = s.pendingAssetCap asset)
  | lowers (cap : Nat) (action : call.action = .lowerAssetCap asset cap)
      (lower : (after.assetCap asset).cap ≤ (s.assetCap asset).cap)
      (pending : after.pendingAssetCap asset = s.pendingAssetCap asset)
  | proposes (cap : Nat) (action : call.action = .proposeAssetCap asset cap)
      (same : after.assetCap asset = s.assetCap asset)
      (pending : after.pendingAssetCap asset = ⟨cap, call.now + limitDelay⟩)
  | executes (action : call.action = .executeAssetCap asset)
      (waits : (s.pendingAssetCap asset).eta ≠ 0) (due : (s.pendingAssetCap asset).eta ≤ call.now)
      (set : (after.assetCap asset).cap = (s.pendingAssetCap asset).cap)
      (none : (after.pendingAssetCap asset).eta = 0)

theorem Move.same [DecidableEq Key] {action : Action Key} (move : Move s action after)
    (plain : ¬ action.Configures) : SameLimits s after ∧ ∀ asset, SameCap asset s after := by
  cases move with
  | configured action configures => exact absurd configures plain
  | _ => exact ⟨⟨rfl, rfl, rfl, rfl⟩, fun asset => ⟨rfl, rfl⟩⟩

theorem limit_move [DecidableEq Key] {s after : State Key} {call : Call Key} (taken : step s call = .ok after) :
    LimitMove s call after := by
  have move := step_move s after call taken
  obtain ⟨sender, now, action⟩ := call
  cases action with
  | lowerLimits lRun uRun totalCap =>
    simp only [step, lowerLimits, bind_ok, require_ok, pure_ok] at taken
    obtain ⟨_, _, _, lower, rfl⟩ := taken
    refine .lowers lRun uRun totalCap rfl ?_ ?_
    · simp only [Raises, setLimits]
      exact lower
    · simp only [setLimits]
      split
      · rfl
      · next clear => exact not_not.mp clear
  | proposeLimits lRun uRun totalCap =>
    simp only [step, proposeLimits, bind_ok, require_ok, pure_ok] at taken
    obtain ⟨_, _, _, _, rfl⟩ := taken
    exact .proposes lRun uRun totalCap rfl ⟨rfl, rfl, rfl⟩ rfl
  | executeLimits =>
    simp only [step, executeLimits, bind_ok, require_ok, pure_ok] at taken
    obtain ⟨_, _, _, due, _, _, rfl⟩ := taken
    obtain ⟨waits, reached⟩ := not_or.mp due
    exact .executes rfl waits (Nat.not_lt.mp reached) ⟨rfl, rfl, rfl⟩ rfl
  | bind hub rewardManager =>
    simp only [step, bind, bind_ok, require_ok, pure_ok] at taken
    obtain ⟨_, _, _, _, _, _, rfl⟩ := taken
    exact .other ⟨rfl, rfl, rfl, rfl⟩ (fun same => by cases same) id
  | setMinOrder usd =>
    simp only [step, setMinOrder, bind_ok, require_ok, pure_ok] at taken
    obtain ⟨_, _, _, _, rfl⟩ := taken
    exact .other ⟨rfl, rfl, rfl, rfl⟩ (fun same => by cases same) id
  | setAssetCap asset cap =>
    simp only [step, setAssetCap, bind_ok, require_ok, pure_ok] at taken
    obtain ⟨_, _, _, _, _, _, rfl⟩ := taken
    exact .other ⟨rfl, rfl, rfl, rfl⟩ (fun same => by cases same) id
  | lowerAssetCap asset cap =>
    simp only [step, lowerAssetCap, bind_ok, require_ok, pure_ok] at taken
    obtain ⟨_, _, _, _, rfl⟩ := taken
    exact .other ⟨rfl, rfl, rfl, rfl⟩ (fun same => by cases same) id
  | proposeAssetCap asset cap =>
    simp only [step, proposeAssetCap, bind_ok, require_ok, pure_ok] at taken
    obtain ⟨_, _, _, _, rfl⟩ := taken
    exact .other ⟨rfl, rfl, rfl, rfl⟩ (fun same => by cases same) id
  | executeAssetCap asset =>
    simp only [step, executeAssetCap, bind_ok, require_ok, pure_ok] at taken
    obtain ⟨_, _, _, _, rfl⟩ := taken
    exact .other ⟨rfl, rfl, rfl, rfl⟩ (fun same => by cases same) id
  | _ => exact .other (move.same id).1 (fun same => by cases same) id

theorem cap_move [DecidableEq Key] (asset : Address) {s after : State Key} {call : Call Key}
    (taken : step s call = .ok after) : CapMove asset s call after := by
  have move := step_move s after call taken
  obtain ⟨sender, now, action⟩ := call
  cases action with
  | setAssetCap other cap =>
    simp only [step, setAssetCap, bind_ok, require_ok, pure_ok] at taken
    obtain ⟨_, _, _, first, _, _, rfl⟩ := taken
    by_cases own : other = asset
    · subst own
      exact .sets cap rfl first rfl
    · exact .other ⟨Function.update_of_ne (Ne.symm own) _ _, rfl⟩ (fun same => by cases same) id
  | lowerAssetCap other cap =>
    simp only [step, lowerAssetCap, bind_ok, require_ok, pure_ok] at taken
    obtain ⟨_, _, _, ⟨_, lower⟩, rfl⟩ := taken
    by_cases own : other = asset
    · subst own
      refine .lowers cap rfl ?_ rfl
      simpa [storeAssetCap] using lower
    · exact .other ⟨Function.update_of_ne (Ne.symm own) _ _, rfl⟩ (fun same => by cases same) own
  | proposeAssetCap other cap =>
    simp only [step, proposeAssetCap, bind_ok, require_ok, pure_ok] at taken
    obtain ⟨_, _, _, _, rfl⟩ := taken
    by_cases own : other = asset
    · subst own
      exact .proposes cap rfl rfl (Function.update_self ..)
    · exact .other ⟨rfl, Function.update_of_ne (Ne.symm own) _ _⟩ (fun same => by cases same) id
  | executeAssetCap other =>
    simp only [step, executeAssetCap, bind_ok, require_ok, pure_ok] at taken
    obtain ⟨_, _, _, due, rfl⟩ := taken
    by_cases own : other = asset
    · subst own
      obtain ⟨waits, reached⟩ := not_or.mp due
      refine .executes rfl waits (Nat.not_lt.mp reached) ?_ ?_ <;> simp [storeAssetCap]
    · refine .other ⟨Function.update_of_ne (Ne.symm own) _ _, Function.update_of_ne (Ne.symm own) _ _⟩
        (fun same => ?_) id
      cases same
      exact own rfl
  | lowerLimits lRun uRun totalCap =>
    simp only [step, lowerLimits, bind_ok, require_ok, pure_ok] at taken
    obtain ⟨_, _, _, _, rfl⟩ := taken
    refine .other ⟨?_, ?_⟩ (fun same => by cases same) id <;>
      · simp only [setLimits]
        split <;> rfl
  | proposeLimits lRun uRun totalCap =>
    simp only [step, proposeLimits, bind_ok, require_ok, pure_ok] at taken
    obtain ⟨_, _, _, _, rfl⟩ := taken
    exact .other ⟨rfl, rfl⟩ (fun same => by cases same) id
  | executeLimits =>
    simp only [step, executeLimits, bind_ok, require_ok, pure_ok] at taken
    obtain ⟨_, _, _, _, _, _, rfl⟩ := taken
    exact .other ⟨rfl, rfl⟩ (fun same => by cases same) id
  | bind hub rewardManager =>
    simp only [step, bind, bind_ok, require_ok, pure_ok] at taken
    obtain ⟨_, _, _, _, _, _, rfl⟩ := taken
    exact .other ⟨rfl, rfl⟩ (fun same => by cases same) id
  | setMinOrder usd =>
    simp only [step, setMinOrder, bind_ok, require_ok, pure_ok] at taken
    obtain ⟨_, _, _, _, rfl⟩ := taken
    exact .other ⟨rfl, rfl⟩ (fun same => by cases same) id
  | _ => exact .other ((move.same id).2 asset) (fun same => by cases same) id

/-! Along a history. -/

/-- A pending proposal was made, its delay before its time, and nothing was tightened since. -/
def PendingLimits (past : Past Key) (s : State Key) : Prop :=
  s.pendingLimits.eta ≠ 0 → ∀ now, s.pendingLimits.eta ≤ now →
    Waited past now s.pendingLimits.lRun s.pendingLimits.uRun s.pendingLimits.totalCap

def PendingCap (asset : Address) (past : Past Key) (s : State Key) : Prop :=
  (s.pendingAssetCap asset).eta ≠ 0 → ∀ now, (s.pendingAssetCap asset).eta ≤ now →
    WaitedCap past now asset (s.pendingAssetCap asset).cap

theorem LimitMove.pending {past : Past Key} (move : LimitMove s call after) (known : PendingLimits past s) :
    PendingLimits (past ++ [⟨s, call, after⟩]) after := by
  intro waits now due
  cases move with
  | other same action kept =>
    rw [same.pending] at waits due ⊢
    exact (known waits now due).kept kept
  | lowers lRun uRun totalCap action lower none => exact absurd none waits
  | proposes lRun uRun totalCap action same pending =>
    rw [pending] at due ⊢
    exact .now past ⟨action, due⟩
  | executes action waited reached set none => exact absurd none waits

theorem LimitMove.waits {past : Past Key} (move : LimitMove s call after) (known : PendingLimits past s) :
    LimitsWait past ⟨s, call, after⟩ := by
  cases move with
  | other same action kept =>
    refine ⟨fun raises => ?_, fun executes => absurd executes action⟩
    rcases raises with more | more | more
    · exact absurd (same.lRun ▸ more) (Nat.lt_irrefl _)
    · exact absurd (same.uRun ▸ more) (Nat.lt_irrefl _)
    · exact absurd (same.totalCap ▸ more) (Nat.lt_irrefl _)
  | lowers lRun uRun totalCap action lower none =>
    refine ⟨fun raises => absurd raises lower, fun executes => ?_⟩
    rw [action] at executes
    cases executes
  | proposes lRun uRun totalCap action same pending =>
    obtain ⟨sameL, sameU, sameT⟩ := same
    refine ⟨fun raises => ?_, fun executes => ?_⟩
    · rcases raises with more | more | more
      · exact absurd (sameL ▸ more) (Nat.lt_irrefl _)
      · exact absurd (sameU ▸ more) (Nat.lt_irrefl _)
      · exact absurd (sameT ▸ more) (Nat.lt_irrefl _)
    · rw [action] at executes
      cases executes
  | executes action waited reached set none =>
    refine ⟨fun _ => action, fun _ => ?_⟩
    obtain ⟨setL, setU, setT⟩ := set
    rw [setL, setU, setT]
    exact known waited call.now reached

theorem CapMove.pending {past : Past Key} (move : CapMove asset s call after) (known : PendingCap asset past s)
    (clear : Clear ⟨s, call, after⟩) : PendingCap asset (past ++ [⟨s, call, after⟩]) after := by
  intro waits now due
  cases move with
  | other same action kept =>
    rw [same.pending] at waits due ⊢
    exact (known waits now due).kept kept
  | sets cap action first pending =>
    rw [pending] at waits due ⊢
    apply (known waits now due).kept
    intro lowers
    rw [action] at lowers
    exact lowers
  | lowers cap action lower pending =>
    -- a clear step tightens only where nothing is pending
    rw [pending] at waits
    exact absurd (clear asset (by rw [action]; rfl)) waits
  | proposes cap action same pending =>
    rw [pending] at due ⊢
    exact .now past ⟨action, due⟩
  | executes action waited reached set none => exact absurd none waits

theorem CapMove.raises (move : CapMove asset s call after) (more : RaisesCap asset s after) :
    call.action = .executeAssetCap asset := by
  obtain ⟨capped, rises⟩ := more
  cases move with
  | other same action kept => exact absurd (same.cap ▸ rises) (Nat.lt_irrefl _)
  | sets cap action first pending => exact absurd capped (by simp [first])
  | lowers cap action lower pending => exact absurd rises (Nat.not_lt.mpr lower)
  | proposes cap action same pending => exact absurd (same ▸ rises) (Nat.lt_irrefl _)
  | executes action waited reached set none => exact action

theorem CapMove.waits {past : Past Key} (move : CapMove asset s call after) (known : PendingCap asset past s)
    (executed : call.action = .executeAssetCap asset) : WaitedCap past call.now asset (after.assetCap asset).cap := by
  cases move with
  | other same action kept => exact absurd executed action
  | executes action waited reached set none =>
    rw [set]
    exact known waited call.now reached
  | sets cap action =>
    rw [action] at executed
    cases executed
  | lowers cap action =>
    rw [action] at executed
    cases executed
  | proposes cap action =>
    rw [action] at executed
    cases executed

theorem pending_limits [DecidableEq Key] (owner guardian : Address) {past : Past Key} {s : State Key}
    (calls : Calls owner guardian past s) : PendingLimits past s := by
  apply calls.invariant
  · intro waits
    exact absurd rfl waits
  · intro past before call after _ known taken
    exact (limit_move taken).pending known

theorem pending_caps [DecidableEq Key] (owner guardian : Address) (asset : Address) {past : Past Key} {s : State Key}
    (calls : Calls owner guardian past s) (clear : ∀ t ∈ past, Clear t) : PendingCap asset past s := by
  revert clear
  refine @History.invariant _ _ _ _ (fun past s => (∀ t ∈ past, Clear t) → PendingCap asset past s)
    past s calls ?_ ?_
  · intro _ waits
    exact absurd rfl waits
  · intro past before call after _ known taken clear
    have last := clear _ (List.mem_append_right _ (List.mem_singleton_self _))
    exact (cap_move asset taken).pending
      (known fun t member => clear t (List.mem_append_left _ member)) last

/-- In every run that tightens an asset's cap only while nothing is proposed for it, each step obeys
both rules after the steps before it; the global limits obey them in every run. -/
theorem raises_wait [DecidableEq Key] (owner guardian : Address) (past : Past Key) (s : State Key)
    (calls : Calls owner guardian past s) (front back : Past Key) (t : Taken (State Key) (Call Key))
    (split : past = front ++ t :: back) :
    LimitsWait front t ∧ ((∀ earlier ∈ front, Clear earlier) → CapsWait front t) := by
  obtain ⟨earlier, taken⟩ := calls.taken front back t split
  obtain ⟨before, call, after⟩ := t
  refine ⟨(limit_move taken).waits (pending_limits owner guardian earlier), fun clear => ?_⟩
  constructor
  · intro asset more
    exact (cap_move asset taken).raises more
  · intro asset executed
    exact (cap_move asset taken).waits (pending_caps owner guardian asset earlier clear) executed

/-! Two histories of one asset's cap, with owner 1 and guardian 2. -/

def capped : State Nat := storeAssetCap (deployed 1 2) 7 100

def proposed : State Nat :=
  { capped with pendingAssetCap := Function.update capped.pendingAssetCap 7 ⟨200, limitDelay⟩ }

def tightened : State Nat := storeAssetCap proposed 7 50

def raised (s : State Nat) : State Nat :=
  storeAssetCap { s with pendingAssetCap := Function.update s.pendingAssetCap 7 ⟨0, 0⟩ } 7 200

def waiting : Past Nat :=
  [⟨deployed 1 2, ⟨1, 0, .setAssetCap 7 100⟩, capped⟩, ⟨capped, ⟨1, 0, .proposeAssetCap 7 200⟩, proposed⟩]

theorem waiting_calls : Calls 1 2 waiting proposed := by
  have first : Calls 1 2 _ capped := .snoc .nil ⟨1, 0, .setAssetCap 7 100⟩ rfl
  exact .snoc first ⟨1, 0, .proposeAssetCap 7 200⟩ rfl

theorem raises_wait_executed : ∃ t : Taken (State Nat) (Call Nat),
    t.action = ⟨1, limitDelay, .executeAssetCap 7⟩ ∧ RaisesCap 7 t.before t.after ∧
      WaitedCap waiting limitDelay 7 200 := by
  have calls : Calls 1 2 (waiting ++ [⟨proposed, ⟨1, limitDelay, .executeAssetCap 7⟩, raised proposed⟩])
      (raised proposed) := .snoc waiting_calls _ rfl
  have both := raises_wait 1 2 _ _ calls waiting [] _ rfl
  refine ⟨⟨proposed, ⟨1, limitDelay, .executeAssetCap 7⟩, raised proposed⟩, rfl, ⟨rfl, by decide⟩, ?_⟩
  apply (both.2 ?_).executes 7 rfl
  intro t member asset lowers
  simp only [waiting, List.mem_cons, List.not_mem_nil, or_false] at member
  rcases member with rfl | rfl <;> exact lowers.elim

/-- A cap of 200 is proposed, the guardian tightens to 50, and the old proposal still takes effect. -/
theorem tightened_cap_rises : ¬ ∀ (owner guardian : Address) (past : Past Nat) (s : State Nat),
    Calls owner guardian past s → ∀ (front back : Past Nat) (t : Taken (State Nat) (Call Nat)),
      past = front ++ t :: back → LimitsWait front t ∧ CapsWait front t := by
  intro claimed
  have lowered : Calls 1 2 (waiting ++ [⟨proposed, ⟨2, 60, .lowerAssetCap 7 50⟩, tightened⟩]) tightened :=
    .snoc waiting_calls _ rfl
  have calls := History.snoc lowered ⟨1, limitDelay, .executeAssetCap 7⟩
    (show step tightened _ = .ok (raised tightened) from rfl)
  have waits := (claimed 1 2 _ _ calls _ [] _ rfl).2.executes 7 rfl
  obtain ⟨front, p, back, split, ⟨made, -⟩, quiet⟩ := waits
  -- only the second of the three steps proposes, and the third tightens
  rcases front with _ | ⟨_, _ | ⟨_, _ | ⟨_, rest⟩⟩⟩
  · cases split
    cases made
  · simp only [waiting, List.cons_append, List.nil_append, List.cons.injEq] at split
    obtain ⟨-, -, rfl⟩ := split
    exact quiet _ (List.mem_singleton_self _) rfl
  · cases split
    cases made
  · have lengths := congrArg List.length split
    simp [waiting] at lengths

end Solonpad.Capacity
