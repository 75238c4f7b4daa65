import Solonpad.FeeCallbacks

/-!
What a call does to the ledger, as a chain of moves. Money is at times on its way: it has arrived
and no pool is credited yet, or a pool has paid and it has not left. A move says how much of each
asset is on its way before and after it, so a whole call starts and ends with nothing on its way.
-/

namespace Solonpad.FeeLedger

open Checked CarriedSplit
open Chain (Address)

variable {c : Config} {amount : Nat} {bucket : Bucket} {env : Env} {s after : State} {poolId : PoolId}
  {recipient : Address} {sixDecimals : Bool}

/-- What is on its way, by asset. -/
abbrev OnWay := Address → Nat

def nothing : OnWay := fun _ => 0

def OnWay.more (way : OnWay) (asset : Address) (amount : Nat) : OnWay :=
  Function.update way asset (way asset + amount)

/-! Fee lots. -/

/-- An account that received one lot. -/
structure Account.Credited (amount : Nat) (a after : Account) : Prop where
  accrued : after.accrued = fun bucket => a.accrued bucket + allocation amount a bucket
  remainder : after.remainder = fun bucket => (lot bps (shares bucket) amount (a.remainder bucket)).2
  received : after.totalReceived = a.totalReceived + amount
  paid : after.totalPaid = a.totalPaid
  pending : after.pendingClaims = a.pendingClaims
  manager : after.claimsManager = a.claimsManager

theorem creditBucket_ok {lotId : Nat} {a after : Account} (done : creditBucket amount lotId a bucket = .ok after) :
    after.accrued = Function.update a.accrued bucket (a.accrued bucket + allocation amount a bucket) ∧
    after.remainder = Function.update a.remainder bucket
      (lot bps (shares bucket) amount (a.remainder bucket)).2 ∧
    after.totalReceived = a.totalReceived ∧ after.totalPaid = a.totalPaid ∧
    after.pendingClaims = a.pendingClaims ∧ after.claimsManager = a.claimsManager := by
  simp only [creditBucket, bind_ok, add_ok, pure_ok] at done
  obtain ⟨_, ⟨_, rfl⟩, rfl⟩ := done
  exact ⟨rfl, rfl, rfl, rfl, rfl, rfl⟩

/-- The loop over the buckets credits each of them once, from what it held before. -/
theorem creditBuckets_ok {lotId : Nat} (buckets : List Bucket) {a after : Account} (distinct : buckets.Nodup)
    (done : creditBuckets amount lotId buckets a = .ok after) :
    (∀ bucket, after.accrued bucket =
      a.accrued bucket + if bucket ∈ buckets then allocation amount a bucket else 0) ∧
    (∀ bucket, after.remainder bucket = if bucket ∈ buckets then
      (lot bps (shares bucket) amount (a.remainder bucket)).2 else a.remainder bucket) ∧
    after.totalReceived = a.totalReceived ∧ after.totalPaid = a.totalPaid ∧
    after.pendingClaims = a.pendingClaims ∧ after.claimsManager = a.claimsManager := by
  induction buckets generalizing a with
  | nil =>
    cases done
    simp
  | cons bucket rest ih =>
    simp only [creditBuckets, bind_ok] at done
    obtain ⟨middle, first, done⟩ := done
    obtain ⟨accrued, remainder, received, paid, pending, manager⟩ := creditBucket_ok first
    obtain ⟨absent, distinct⟩ := List.nodup_cons.mp distinct
    obtain ⟨accrues, carries, receives, pays, pends, managed⟩ := ih distinct done
    refine ⟨?_, ?_, receives.trans received, pays.trans paid, pends.trans pending,
      managed.trans manager⟩
    · intro other
      rw [accrues other, accrued]
      by_cases same : other = bucket
      · subst same
        simp [absent]
      · simp [same, allocation, remainder]
    · intro other
      rw [carries other, remainder]
      by_cases same : other = bucket
      · subst same
        simp [absent]
      · simp [same]

/-- A lot credited to a pool. -/
structure Credited (c : Config) (poolId : PoolId) (amount : Nat) (s after : State) : Prop where
  others : ∀ other, other ≠ poolId → (after.accounts other).figures = (s.accounts other).figures
  account : (s.accounts poolId).Credited amount (after.accounts poolId)
  stable : Stable c s after
  reserved : after.reservedClaims = s.reservedClaims
  credits : ∃ lotId, after.credits =
    s.credits ++ [⟨poolId, lotId, amount, allocation amount (s.accounts poolId)⟩]
  callback : after.redemptionCallback = s.redemptionCallback
  spares : Spares c s.world after.world

theorem notify_kept {allocation : Bucket → Nat} (honest : Honest c env) (buckets : List Bucket)
    (locked : s.entered = true) (unarmed : s.redemptionCallback = none)
    (done : notify env allocation buckets s = .ok after) : Kept c s after := by
  induction buckets generalizing s with
  | nil =>
    cases done
    exact .refl _
  | cons bucket rest ih =>
    simp only [notify, bind_ok, ite_ok, pure_ok] at done
    obtain ⟨middle, ⟨_, told⟩ | ⟨_, rfl⟩, done⟩ := done
    · have kept := external_kept honest locked unarmed told
      exact kept.trans (ih (kept.entered.trans locked) (kept.callback.trans unarmed) done)
    · exact ih locked unarmed done

theorem credit_credited (honest : Honest c env) (locked : s.entered = true) (unarmed : s.redemptionCallback = none)
    (done : credit s env poolId amount = .ok after) : Credited c poolId amount s after := by
  simp only [credit, bind_ok, require_ok, add_ok] at done
  obtain ⟨_, _, _, ⟨_, rfl⟩, _, ⟨_, rfl⟩, next, credited, told⟩ := done
  obtain ⟨accrues, carries, receives, pays, pends, managed⟩ :=
    creditBuckets_ok _ (List.nodup_finRange 6) credited
  have kept := notify_kept honest _ (by exact locked) (by exact unarmed) told
  have figures := kept.figures poolId
  simp only [State.setAccount, Function.update_self] at figures
  obtain ⟨accrued, remainder, received, paid, pending, manager⟩ := figures_spec figures
  constructor
  · intro other ne
    rw [kept.figures other]
    simp [State.setAccount, ne]
  · constructor
    · rw [accrued]
      funext bucket
      simp [accrues bucket, allocation]
    · rw [remainder]
      funext bucket
      simp [carries bucket]
    · exact received.trans receives
    · exact paid.trans pays
    · exact pending.trans pends
    · exact manager.trans managed
  · exact ⟨kept.stable.pools, kept.stable.vacant, kept.stable.fresh⟩
  · exact kept.reserved
  · exact ⟨_, kept.credits⟩
  · exact kept.callback
  · exact kept.spares

/-! Payments. -/

/-- Money of one asset has left, and none of another but the view of the native balance. -/
structure Leaves (c : Config) (asset : Address) (amount : Nat) (s after : State) : Prop where
  figures : ∀ poolId, (after.accounts poolId).figures = (s.accounts poolId).figures
  stable : Stable c s after
  reserved : after.reservedClaims = s.reservedClaims
  credits : after.credits = s.credits
  callback : after.redemptionCallback = s.redemptionCallback
  drained : s.world.balanceOfSelf c asset ≤ after.world.balanceOfSelf c asset + amount
  spared : ∀ other, other ≠ asset → other = c.nativeUsdcView ∧ other ≠ 0 ∨
    s.world.balanceOfSelf c other ≤ after.world.balanceOfSelf c other
  claims : ∀ manager currency, s.world.claims manager currency ≤ after.world.claims manager currency

/-- A figure the ledger keeps apart from what the call's own token or native transfer does. -/
theorem Kept.leaves {asset : Address} {world : World} (kept : Kept c (s.setWorld world) after)
    (drained : s.world.balanceOfSelf c asset ≤ after.world.balanceOfSelf c asset + amount)
    (spared : ∀ other, other ≠ asset → other = c.nativeUsdcView ∧ other ≠ 0 ∨
      s.world.balanceOfSelf c other ≤ world.balanceOfSelf c other)
    (claims : world.claims = s.world.claims) : Leaves c asset amount s after := by
  refine ⟨kept.figures, ⟨kept.stable.pools, kept.stable.vacant, kept.stable.fresh⟩, kept.reserved,
    kept.credits, kept.callback, drained, ?_, ?_⟩
  · intro other ne
    rcases spared other ne with view | less
    · exact .inl view
    · exact .inr (less.trans (kept.spares.balance other))
  · intro manager currency
    have more := kept.spares.claims manager currency
    simpa only [State.setWorld, claims] using more

theorem payment_ok {asset : Address} (honest : Honest c env) (locked : s.entered = true)
    (unarmed : s.redemptionCallback = none) (registered : (s.pools poolId).hook ≠ 0)
    (done : payment c s env poolId asset recipient amount false = .ok after) :
    ∃ middle, Redeems c poolId s middle ∧ Leaves c asset amount middle after := by
  simp only [payment, bind_ok, require_ok, ite_ok, pure_ok, sub_ok, Bool.false_eq_true,
    if_false] at done
  obtain ⟨middle, redeemed, last, done, rfl⟩ := done
  have redeems := redeem_redeems honest locked unarmed registered redeemed
  refine ⟨middle, redeems, ?_⟩
  have entered := redeems.entered.trans locked
  rcases done with ⟨rfl, _, enough, did⟩ | ⟨token, final, did, _, ⟨_, rfl⟩, _, ⟨left, _⟩, rfl⟩
  · have kept := external_kept honest (by exact entered) (by exact redeems.unarmed) did
    refine kept.leaves ?_ ?_ rfl
    · have more := kept.spares.coins
      simp only [State.setWorld] at more
      simp only [World.balanceOfSelf, if_true]
      by_cases own : c.self = recipient
      · simp only [← own, Function.update_self] at more
        omega
      · simp only [Function.update_of_ne own, Function.update_self] at more
        omega
    · intro other ne
      simp [World.balanceOfSelf, ne]
  · have kept := external_kept honest (by exact entered) (by exact redeems.unarmed) did
    refine kept.leaves ?_ ?_ rfl
    · simp only [World.balanceOfSelf, token, if_false]
      omega
    · intro other ne
      simp [World.balanceOfSelf, ne]

theorem payment_view_ok (honest : Honest c env) (locked : s.entered = true) (unarmed : s.redemptionCallback = none)
    (registered : (s.pools poolId).hook ≠ 0) (view : c.nativeUsdcView ≠ 0)
    (done : payment c s env poolId c.nativeUsdcView recipient amount true = .ok after) :
    ∃ middle, Redeems c poolId s middle ∧ Leaves c 0 (amount * 10 ^ 12) middle after := by
  simp only [payment, bind_ok, require_ok, ite_ok, pure_ok, sub_ok, view, false_and, if_true,
    not_false_eq_true, true_and, false_or] at done
  obtain ⟨middle, redeemed, final, ⟨_, did, _, ⟨_, rfl⟩, _, _, rfl⟩, _, ⟨_, rfl⟩, _, ⟨left, _⟩, rfl⟩ := done
  have redeems := redeem_redeems honest locked unarmed registered redeemed
  refine ⟨middle, redeems, ?_⟩
  have entered := redeems.entered.trans locked
  have kept := external_kept honest (by exact entered) (by exact redeems.unarmed) did
  refine kept.leaves ?_ ?_ rfl
  · simp only [World.balanceOfSelf, if_true]
    omega
  · intro other ne
    by_cases same : other = c.nativeUsdcView
    · exact .inl ⟨same, ne⟩
    · simp [World.balanceOfSelf, ne, same]

/-- The ledger while a bucket is being paid. -/
def State.taken (s : State) (poolId : PoolId) (bucket : Bucket) (amount : Nat) : State :=
  s.setAccount poolId { s.accounts poolId with
    accrued := Function.update (s.accounts poolId).accrued bucket
      ((s.accounts poolId).accrued bucket - amount)
    totalPaid := (s.accounts poolId).totalPaid + amount }

/-- What a payment that fails took is given back, to the last figure. -/
theorem taken_restored (s : State) (poolId : PoolId) (bucket : Bucket) (amount : Nat)
    (held : amount ≤ (s.accounts poolId).accrued bucket) :
    (s.taken poolId bucket amount).setAccount poolId
      { (s.taken poolId bucket amount).accounts poolId with
        accrued := Function.update ((s.taken poolId bucket amount).accounts poolId).accrued bucket
          (((s.taken poolId bucket amount).accounts poolId).accrued bucket + amount)
        totalPaid := ((s.taken poolId bucket amount).accounts poolId).totalPaid - amount } = s := by
  simp [State.taken, State.setAccount, Nat.sub_add_cancel held]

/-- A payment is made in full, or it leaves no trace. -/
theorem pay_ok {paid : Bool} (honest : Honest c env) (locked : s.entered = true) (unarmed : s.redemptionCallback = none)
    (view : sixDecimals = true → c.nativeUsdcView ≠ 0 ∧ (s.pools poolId).quote = 0)
    (done : pay c s env poolId bucket amount sixDecimals = .ok (after, paid)) :
    paid = false ∧ after = s ∨ paid = true ∧ (s.pools poolId).hook ≠ 0 ∧
      amount ≤ (s.accounts poolId).accrued bucket ∧ ∃ middle,
        Redeems c poolId (s.taken poolId bucket amount) middle ∧
          Leaves c (s.pools poolId).quote amount middle after := by
  simp only [pay, bind_ok, require_ok, add_ok] at done
  obtain ⟨_, registered, _, ⟨_, held⟩, _, ⟨_, rfl⟩, done⟩ := done
  split at done
  · next final sent =>
    cases done
    refine .inr ⟨rfl, registered, held, ?_⟩
    cases sixDecimals with
    | false => exact payment_ok honest (by exact locked) (by exact unarmed) (by exact registered) sent
    | true =>
      obtain ⟨viewed, native⟩ := view rfl
      obtain ⟨middle, redeems, leaves⟩ := payment_view_ok honest (by exact locked)
        (by exact unarmed) (by exact registered) viewed sent
      have whole := Nat.div_mul_le_self amount (10 ^ 12)
      rw [native]
      exact ⟨middle, redeems, leaves.figures, leaves.stable, leaves.reserved, leaves.credits,
        leaves.callback, leaves.drained.trans (Nat.add_le_add_left whole _), leaves.spared,
        leaves.claims⟩
  · simp only [bind_ok, add_ok, sub_ok, pure_ok, Prod.mk.injEq] at done
    obtain ⟨_, ⟨_, rfl⟩, _, ⟨_, rfl⟩, rfl, rfl⟩ := done
    exact .inl ⟨rfl, taken_restored s poolId bucket amount held⟩

/-! Moves. -/

/-- Claims on a manager booked to a pool. -/
def State.claimed (s : State) (poolId : PoolId) (manager : Address) (amount : Nat) : State :=
  (s.reserve manager (s.pools poolId).quote
    (s.reservedClaims manager (s.pools poolId).quote + amount)).setAccount poolId
    { s.accounts poolId with
      claimsManager := manager, pendingClaims := (s.accounts poolId).pendingClaims + amount }

inductive Move (c : Config) : OnWay × State → OnWay × State → Prop where
  | keeps {way : OnWay} {s after : State} (unmoved : Unmoved c s after) : Move c (way, s) (way, after)
  | arrives {way : OnWay} {s after : State} (asset : Address) (amount : Nat)
      (unmoved : Unmoved c s after)
      (arrived : s.world.balanceOfSelf c asset + amount ≤ after.world.balanceOfSelf c asset) :
      Move c (way, s) (way.more asset amount, after)
  | books {way : OnWay} {s : State} (poolId : PoolId) (manager : Address) (amount : Nat)
      (registered : (s.pools poolId).hook ≠ 0) (real : manager ≠ 0)
      (issuer : (s.accounts poolId).claimsManager = 0 ∨ (s.accounts poolId).claimsManager = manager)
      (backed : s.reservedClaims manager (s.pools poolId).quote + amount ≤
        s.world.claims manager (s.pools poolId).quote) :
      Move c (way, s) (way.more (s.pools poolId).quote amount, s.claimed poolId manager amount)
  | credits {way : OnWay} {s after : State} (poolId : PoolId) (amount : Nat)
      (registered : (s.pools poolId).hook ≠ 0) (credited : Credited c poolId amount s after) :
      Move c (way.more (s.pools poolId).quote amount, s) (way, after)
  | takes {way : OnWay} {s : State} (poolId : PoolId) (bucket : Bucket) (amount : Nat)
      (registered : (s.pools poolId).hook ≠ 0)
      (held : amount ≤ (s.accounts poolId).accrued bucket) :
      Move c (way, s) (way.more (s.pools poolId).quote amount, s.taken poolId bucket amount)
  | redeems {way : OnWay} {s after : State} (poolId : PoolId)
      (registered : (s.pools poolId).hook ≠ 0) (redeemed : Redeems c poolId s after) :
      Move c (way, s) (way, after)
  | leaves {s after : State} (asset : Address) (amount : Nat) (left : Leaves c asset amount s after) :
      Move c (nothing.more asset amount, s) (nothing, after)

/-- What a call does: nothing is on its way before it and after it. -/
def Moves (c : Config) (s after : State) : Prop :=
  Relation.ReflTransGen (Move c) (nothing, s) (nothing, after)

/-- The lock is no figure. -/
theorem unlocked (s : State) (entered : Bool) : Unmoved c s { s with entered := entered } :=
  ⟨fun _ => rfl, .same rfl, rfl, rfl, .refl _⟩

theorem Kept.moves (kept : Kept c s after) : Moves c s after :=
  .single (.keeps kept.toUnmoved)

/-- A call that pays a bucket, seen from the state it found. -/
theorem paid_moves {locked : State} {middle : State} (first : Unmoved c s locked)
    (registered : (locked.pools poolId).hook ≠ 0) (held : amount ≤ (locked.accounts poolId).accrued bucket)
    (redeems : Redeems c poolId (locked.taken poolId bucket amount) middle)
    (leaves : Leaves c (locked.pools poolId).quote amount middle after) : Moves c s { after with entered := false } :=
  (((Relation.ReflTransGen.single (.keeps first)).tail (.takes poolId bucket amount registered held)).tail
    (.redeems poolId registered redeems)).tail (.leaves _ amount leaves) |>.tail
      (.keeps (unlocked after false))

/-! Calls. -/

theorem fst_ok {α : Type} {call : Tx (State × α)} (done : Prod.fst <$> call = .ok after) :
    ∃ value, call = .ok (after, value) := by
  cases call with
  | error fault => cases done
  | ok result =>
    cases done
    exact ⟨result.2, rfl⟩

/-- What a claim leaves behind, paid or not. -/
theorem claimed_moves {paid : Bool} (honest : Honest c env) (unarmed : s.redemptionCallback = none)
    (view : sixDecimals = true → c.nativeUsdcView ≠ 0 ∧ (s.pools poolId).quote = 0)
    (done : pay c { s with entered := true } env poolId bucket amount sixDecimals = .ok (after, paid)) :
    Moves c s { after with entered := false } ∧ after.redemptionCallback = none := by
  rcases pay_ok honest (by rfl) (by exact unarmed) (by exact view) done with
    ⟨_, rfl⟩ | ⟨_, registered, held, middle, redeems, leaves⟩
  · exact ⟨.single (.keeps ⟨fun _ => rfl, .same rfl, rfl, rfl, .refl _⟩), unarmed⟩
  · exact ⟨paid_moves (unlocked s true) registered held redeems leaves,
      leaves.callback.trans redeems.unarmed⟩

/-- A lot credited once its money or its claims are in. -/
theorem credited_moves {locked : State} (honest : Honest c env) (entered : locked.entered = true)
    (unarmed : locked.redemptionCallback = none) (registered : (locked.pools poolId).hook ≠ 0)
    (arrived : Relation.ReflTransGen (Move c) (nothing, s) (nothing.more (locked.pools poolId).quote amount, locked))
    (done : credit locked env poolId amount = .ok after) :
    Moves c s { after with entered := false } ∧ after.redemptionCallback = none := by
  have credited := credit_credited honest entered unarmed done
  exact ⟨(arrived.tail (.credits poolId amount registered credited)).tail (.keeps (unlocked after false)),
    credited.callback.trans unarmed⟩

theorem creditNative_moves (honest : Honest c env) (unarmed : s.redemptionCallback = none) (real : env.sender ≠ 0)
    (done : creditNative c s env poolId = .ok (after, ())) : Moves c s after ∧ after.redemptionCallback = none := by
  simp only [creditNative, nonReentrant_ok, bind_ok, require_ok, pure_ok, Prod.mk.injEq] at done
  obtain ⟨_, inner, ⟨_, hook, _, native, final, credited, rfl, _⟩, rfl⟩ := done
  simp only [State.setWorld] at hook native
  refine credited_moves honest (by rfl) (by exact unarmed) (by exact hook ▸ real) ?_ credited
  have balance := arrive_same (c := c) s.world 0 env.value
  refine .single ?_
  have arrives : Move c (nothing, s) (nothing.more 0 env.value,
      { s.setWorld (s.world.arrive c 0 env.value) with entered := true }) := .arrives 0 env.value
    ⟨fun _ => rfl, .same rfl, rfl, rfl, arrive_spares s.world 0 env.value⟩ (Nat.le_of_eq balance.symm)
  simpa only [State.setWorld, native] using arrives

theorem creditClaims_moves (honest : Honest c env) (unarmed : s.redemptionCallback = none)
    (real : env.sender ≠ 0) (done : creditClaims s env poolId amount = .ok (after, ())) :
    Moves c s after ∧ after.redemptionCallback = none := by
  simp only [creditClaims, nonReentrant_ok, bind_ok, require_ok, add_ok, pure_ok, Prod.mk.injEq] at done
  obtain ⟨_, inner, ⟨_, hook, _, issuer, _, ⟨_, rfl⟩, _, manager, _, backed, _, ⟨_, rfl⟩, final,
    credited, rfl, _⟩, rfl⟩ := done
  refine credited_moves honest (by rfl) (by exact unarmed) (by exact hook ▸ real) ?_ credited
  have locks : Move c (nothing, s) (nothing, { s with entered := true }) := .keeps (unlocked s true)
  refine (Relation.ReflTransGen.single locks).tail ?_
  refine Move.books poolId env.poolManager amount (by exact hook ▸ real) manager ?_ backed
  by_cases unset : (s.accounts poolId).claimsManager = 0
  · exact .inl unset
  · exact .inr (by_contra fun other => issuer ⟨unset, other⟩)

theorem creditStock_moves (honest : Honest c env) (unarmed : s.redemptionCallback = none)
    (real : env.sender ≠ 0) (done : creditStock c s env poolId amount = .ok (after, ())) :
    Moves c s after ∧ after.redemptionCallback = none := by
  simp only [creditStock, nonReentrant_ok, bind_ok, require_ok, pure_ok, Prod.mk.injEq] at done
  obtain ⟨_, inner, ⟨_, hook, _, token, middle, pulled, _, exact', final, credited, rfl, _⟩, rfl⟩ := done
  have kept := external_kept honest (by rfl) (by exact unarmed) pulled
  have pool := kept.stable.pools poolId (by exact hook ▸ real)
  simp only [State.setWorld] at pool
  refine credited_moves honest (kept.entered.trans rfl) (kept.callback.trans unarmed)
    (by rw [pool]; exact hook ▸ real) ?_ credited
  rw [pool]
  refine .single (.arrives _ amount ⟨kept.figures, ⟨kept.stable.pools, kept.stable.vacant,
    kept.stable.fresh⟩, kept.reserved, kept.credits, ?_⟩ ?_)
  · -- the pulled token has grown, whatever its row became on the way
    refine ⟨kept.spares.coins, fun other => ?_, kept.spares.claims⟩
    by_cases same : other = (s.pools poolId).quote
    · subst same
      rw [exact']
      exact Nat.le_add_right _ _
    · have more := kept.spares.tokens other
      simpa only [State.setWorld, Function.update_of_ne same] using more
  · simp only [World.balanceOfSelf, token, if_false]
    exact Nat.le_of_eq exact'.symm

/-- Every accepted call moves the ledger as the moves allow. -/
theorem step_moves {call : Call} (unarmed : s.redemptionCallback = none) (accepted : accepts c s call after) :
    Moves c s after ∧ after.redemptionCallback = none := by
  obtain ⟨env, action⟩ := call
  obtain ⟨outside, honest, taken⟩ := accepted
  have real := outside.2
  cases action with
  | creditNative poolId =>
    obtain ⟨_, done⟩ := fst_ok taken
    exact creditNative_moves honest unarmed real done
  | creditClaims poolId amount =>
    obtain ⟨_, done⟩ := fst_ok taken
    exact creditClaims_moves honest unarmed real done
  | creditStock poolId amount =>
    obtain ⟨_, done⟩ := fst_ok taken
    exact creditStock_moves honest unarmed real done
  | redeemClaims poolId =>
    obtain ⟨_, done⟩ := fst_ok taken
    simp only [redeemClaims, nonReentrant_ok, bind_ok, require_ok, pure_ok, Prod.mk.injEq] at done
    obtain ⟨_, inner, ⟨_, registered, final, redeemed, rfl, _⟩, rfl⟩ := done
    have redeems := redeem_redeems honest (by rfl) (by exact unarmed) (by exact registered) redeemed
    have moves : Move c (nothing, { s with entered := true }) (nothing, final) :=
      .redeems poolId registered redeems
    exact ⟨((Relation.ReflTransGen.single (.keeps (unlocked s true))).tail moves).tail
      (.keeps (unlocked final false)), redeems.unarmed⟩
  | claim poolId bucket amount =>
    obtain ⟨paid, done⟩ := fst_ok taken
    simp only [claim, nonReentrant_ok, bind_ok] at done
    obtain ⟨_, inner, ⟨_, _, done⟩, rfl⟩ := done
    split at done
    · simp only [bind_ok, require_ok] at done
      obtain ⟨_, _, done⟩ := done
      exact claimed_moves honest unarmed (fun no => by cases no) done
    · cases done
  | claimUSDC6 poolId bucket amount =>
    obtain ⟨paid, done⟩ := fst_ok taken
    simp only [claimUSDC6, nonReentrant_ok, bind_ok, require_ok, not_or, not_not] at done
    obtain ⟨_, inner, ⟨_, _, _, view, done⟩, rfl⟩ := done
    split at done
    · simp only [bind_ok, require_ok] at done
      obtain ⟨_, _, done⟩ := done
      exact claimed_moves honest unarmed (fun _ => view) done
    · cases done
  | claimStockLot poolId lotId bucket =>
    obtain ⟨amount, done⟩ := fst_ok taken
    simp only [claimStockLot, nonReentrant_ok, bind_ok, require_ok, pure_ok, Prod.exists,
      Prod.mk.injEq] at done
    obtain ⟨_, inner, ⟨bucket, _, _, _, _, _, _, _, final, paid, done, _, rfl, rfl, _⟩, rfl⟩ := done
    have kept : Kept c s (s.setAccount poolId { s.accounts poolId with
        stockLotAmount := Function.update (s.accounts poolId).stockLotAmount lotId
          (Function.update ((s.accounts poolId).stockLotAmount lotId) bucket 0) }) :=
      .account s poolId _ rfl
    obtain ⟨moves, rest⟩ := claimed_moves (s := s.setAccount poolId { s.accounts poolId with
        stockLotAmount := Function.update (s.accounts poolId).stockLotAmount lotId
          (Function.update ((s.accounts poolId).stockLotAmount lotId) bucket 0) })
      honest unarmed (fun no => by cases no) done
    exact ⟨kept.moves.trans moves, rest⟩
  | _ =>
    rcases unguarded_step rfl outside taken with kept | ⟨_, armed, _⟩
    · exact ⟨kept.moves, kept.callback.trans unarmed⟩
    · rw [unarmed] at armed
      cases armed

end Solonpad.FeeLedger
