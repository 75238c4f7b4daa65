import Solonpad.FeeLedger

/-!
What other contracts can do to the ledger while one of its calls is under way. Its lock refuses
every call that moves a figure; only the pool manager that was just asked to unlock gets through,
once, and that redeems the claims of the one pool it was asked for.
-/

namespace Solonpad.FeeLedger

open Checked
open Chain (Address)

/-- The figures of a pool. -/
def Account.figures (a : Account) :
    (Bucket → Nat) × (Bucket → Nat) × Nat × Nat × Nat × Address :=
  (a.accrued, a.remainder, a.totalReceived, a.totalPaid, a.pendingClaims, a.claimsManager)

theorem figures_spec {a b : Account} (same : b.figures = a.figures) :
    b.accrued = a.accrued ∧ b.remainder = a.remainder ∧ b.totalReceived = a.totalReceived ∧
      b.totalPaid = a.totalPaid ∧ b.pendingClaims = a.pendingClaims ∧
      b.claimsManager = a.claimsManager := by
  simpa [Account.figures] using same

variable {c : Config} {s after middle : State} {env : Env} {poolId : PoolId} {first second : World}

theorem Spares.refl (w : World) : Spares c w w :=
  ⟨Nat.le_refl _, fun _ => Nat.le_refl _, fun _ _ => Nat.le_refl _⟩

theorem Spares.trans {third : World} (before : Spares c first second) (after : Spares c second third) :
    Spares c first third :=
  ⟨before.coins.trans after.coins, fun token => (before.tokens token).trans (after.tokens token),
    fun manager currency => (before.claims manager currency).trans (after.claims manager currency)⟩

theorem Spares.balance (spares : Spares c first second) (asset : Address) :
    first.balanceOfSelf c asset ≤ second.balanceOfSelf c asset := by
  unfold World.balanceOfSelf
  split
  · exact spares.coins
  · exact spares.tokens asset

theorem arrive_spares (w : World) (asset : Address) (amount : Nat) : Spares c w (w.arrive c asset amount) := by
  unfold World.arrive
  split
  · refine ⟨?_, fun _ => Nat.le_refl _, fun _ _ => Nat.le_refl _⟩
    simp
  · refine ⟨Nat.le_refl _, fun token => ?_, fun _ _ => Nat.le_refl _⟩
    by_cases same : token = asset
    · subst same
      simp
    · simp [same]

/-! Calls that change no figure. -/

/-- The pools are the same, except for new ones. -/
structure Stable (c : Config) (s after : State) : Prop where
  pools : ∀ poolId, (s.pools poolId).hook ≠ 0 → after.pools poolId = s.pools poolId
  vacant : ∀ poolId, (after.pools poolId).hook = 0 → after.pools poolId = s.pools poolId
  fresh : ∀ poolId, (after.pools poolId).quote ≠ 0 →
    after.pools poolId = s.pools poolId ∨ (after.pools poolId).quote ≠ c.nativeUsdcView

/-- No figure has moved. -/
structure Unmoved (c : Config) (s after : State) : Prop where
  figures : ∀ poolId, (after.accounts poolId).figures = (s.accounts poolId).figures
  stable : Stable c s after
  reserved : after.reservedClaims = s.reservedClaims
  credits : after.credits = s.credits
  spares : Spares c s.world after.world

/-- Nothing has moved in a call that is under way. -/
structure Kept (c : Config) (s after : State) : Prop extends Unmoved c s after where
  entered : after.entered = s.entered
  callback : after.redemptionCallback = s.redemptionCallback

theorem Stable.same (same : after.pools = s.pools) : Stable c s after :=
  ⟨fun _ _ => by rw [same], fun _ _ => by rw [same], fun _ _ => .inl (by rw [same])⟩

theorem Stable.trans (first : Stable c s middle) (second : Stable c middle after) : Stable c s after where
  pools := by
    intro poolId registered
    have same := first.pools poolId registered
    exact (second.pools poolId (same ▸ registered)).trans same
  vacant := by
    intro poolId blank
    have same := second.vacant poolId blank
    exact same.trans (first.vacant poolId (same ▸ blank))
  fresh := by
    intro poolId token
    rcases second.fresh poolId token with same | other
    · rw [same] at token ⊢
      exact first.fresh poolId token
    · exact .inr other

theorem Unmoved.refl (s : State) : Unmoved c s s :=
  ⟨fun _ => rfl, .same rfl, rfl, rfl, .refl _⟩

theorem Unmoved.trans (first : Unmoved c s middle) (second : Unmoved c middle after) : Unmoved c s after where
  figures := fun poolId => (second.figures poolId).trans (first.figures poolId)
  stable := first.stable.trans second.stable
  reserved := second.reserved.trans first.reserved
  credits := second.credits.trans first.credits
  spares := first.spares.trans second.spares

theorem Kept.refl (s : State) : Kept c s s := ⟨.refl s, rfl, rfl⟩

theorem Kept.trans (first : Kept c s middle) (second : Kept c middle after) : Kept c s after :=
  ⟨first.toUnmoved.trans second.toUnmoved, second.entered.trans first.entered,
    second.callback.trans first.callback⟩

theorem Kept.world (s : State) (world : World) (spares : Spares c s.world world) : Kept c s (s.setWorld world) :=
  ⟨⟨fun _ => rfl, .same rfl, rfl, rfl, spares⟩, rfl, rfl⟩

/-- An account rewritten without touching its figures. -/
theorem Kept.account (s : State) (poolId : PoolId) (a : Account)
    (same : a.figures = (s.accounts poolId).figures) : Kept c s (s.setAccount poolId a) := by
  refine ⟨⟨?_, .same rfl, rfl, rfl, .refl _⟩, rfl, rfl⟩
  intro other
  by_cases equal : other = poolId
  · subst equal
    simpa [State.setAccount] using same
  · simp [State.setAccount, equal]

theorem external_ok (s : State) (env : Env) (k : Nat) (after : State) :
    external s env k = .ok after ↔ env.answers k = true ∧ after = env.foreign k s := by
  simp only [external, bind_ok, require_ok, pure_ok, eq_comm (a := after)]
  exact ⟨fun ⟨_, answered, same⟩ => ⟨answered, same⟩, fun ⟨answered, same⟩ => ⟨(), answered, same⟩⟩

theorem nonReentrant_ok {α : Type} (s : State) (body : State → Tx (State × α)) (after : State)
    (value : α) : nonReentrant s body = .ok (after, value) ↔ s.entered = false ∧
      ∃ inner, body { s with entered := true } = .ok (inner, value) ∧
        after = { inner with entered := false } := by
  simp only [nonReentrant, bind_ok, require_ok, pure_ok, Prod.exists, Prod.mk.injEq]
  constructor
  · rintro ⟨_, free, inner, _, ran, rfl, rfl⟩
    exact ⟨free, inner, ran, rfl⟩
  · rintro ⟨free, inner, ran, rfl⟩
    exact ⟨(), free, inner, value, ran, rfl, rfl⟩

/-- A locked ledger refuses every guarded call. -/
theorem locked_refuses {α : Type} (locked : s.entered = true) (body : State → Tx (State × α))
    (done : Prod.fst <$> nonReentrant s body = .ok after) : False := by
  simp [nonReentrant, require, locked, bind, Except.bind, Functor.map, Except.map] at done

/-! Registration and the opt-ins. -/

theorem custodyOf_figures (kind : Nat) (env : Env) (pool : Pool) (a after : Account) (bucket : Bucket)
    (done : custodyOf kind env pool a bucket = .ok after) : after.figures = a.figures := by
  unfold custodyOf at done
  split at done
  · cases done
    rfl
  · simp only [ite_ok, pure_ok, bind_ok, require_ok] at done
    rcases done with ⟨_, rfl⟩ | ⟨_, ⟨_, _, _, rfl⟩ | ⟨_, ⟨_, _, _, rfl⟩ | ⟨_, ⟨_, _, _, rfl⟩ | ⟨_, rfl⟩⟩⟩⟩
    all_goals rfl

theorem custodyAll_figures (kind : Nat) (env : Env) (pool : Pool) (buckets : List Bucket) (a after : Account)
    (done : custodyAll kind env pool buckets a = .ok after) : after.figures = a.figures := by
  induction buckets generalizing a with
  | nil =>
    cases done
    rfl
  | cons bucket rest ih =>
    simp only [custodyAll, bind_ok] at done
    obtain ⟨middle, admitted, done⟩ := done
    exact (ih middle done).trans (custodyOf_figures kind env pool a middle bucket admitted)

theorem registerPool_kept (s after : State) (env : Env) (poolId : PoolId) (quote : Address) (kind : Nat)
    (hook : Address) (beneficiaries : Bucket → Address)
    (done : registerPool c s env poolId quote kind hook beneficiaries = .ok after) : Kept c s after := by
  simp only [registerPool, bind_ok, require_ok, pure_ok, not_or] at done
  obtain ⟨_, _, _, ⟨unregistered, named, _⟩, _, token, _, _, a, admitted, rfl⟩ := done
  have same := custodyAll_figures _ _ _ _ _ _ admitted
  have registers : Kept c s { s with
      pools := Function.update s.pools poolId ⟨quote, kind, hook, beneficiaries⟩ } := by
    refine ⟨⟨fun _ => rfl, ⟨?_, ?_, ?_⟩, rfl, rfl, .refl _⟩, rfl, rfl⟩
    · intro other registered
      refine Function.update_of_ne ?_ _ _
      rintro rfl
      exact unregistered registered
    · intro other blank
      refine Function.update_of_ne ?_ _ _
      rintro rfl
      simp only [Function.update_self] at blank
      exact named blank
    · intro other quoted
      by_cases equal : other = poolId
      · subst equal
        simp only [Function.update_self] at quoted ⊢
        exact .inr fun view => token ⟨quoted, .inr view⟩
      · exact .inl (Function.update_of_ne equal _ _)
  exact registers.trans (.account _ poolId _ same)

theorem registerLegacyPool_kept (s after : State) (env : Env) (poolId : PoolId) (quote hook : Address)
    (beneficiaries : Bucket → Address)
    (done : registerLegacyPool c s env poolId quote hook beneficiaries = .ok after) : Kept c s after := by
  simp only [registerLegacyPool, bind_ok, require_ok, pure_ok] at done
  obtain ⟨_, _, _, _, middle, registered, rfl⟩ := done
  exact (registerPool_kept _ _ _ _ _ _ _ _ registered).trans (.account _ poolId _ rfl)

/-! Callbacks while the ledger is locked. -/

/-- The calls behind the lock. -/
def Action.guarded : Action → Bool
  | .creditNative _ | .creditClaims _ _ | .redeemClaims _ | .creditStock _ _ | .claim _ _ _
  | .claimUSDC6 _ _ _ | .claimStockLot _ _ _ => true
  | _ => false

/-- A call that the lock does not stop changes no figure, unless it is the one redemption the
ledger waits for. -/
theorem unguarded_step {call : Call} (unguarded : call.action.guarded = false) (outside : Outside c call)
    (taken : step c s call = .ok after) :
    Kept c s after ∨ ∃ poolId, s.redemptionCallback = some poolId ∧
      burnAndTake c { s with redemptionCallback := none } call.env poolId = .ok after := by
  obtain ⟨env, action⟩ := call
  cases action with
  | enableControlledClaim poolId bucket =>
    simp only [step, enableControlledClaim, bind_ok, pure_ok] at taken
    obtain ⟨_, _, rfl⟩ := taken
    exact .inl (.account s poolId _ rfl)
  | enableStockLotCustody poolId bucket =>
    simp only [step, enableStockLotCustody, bind_ok, pure_ok] at taken
    obtain ⟨_, _, _, _, rfl⟩ := taken
    exact .inl (.account s poolId _ rfl)
  | registerLegacyPool poolId quote hook beneficiaries =>
    exact .inl (registerLegacyPool_kept s after env poolId quote hook beneficiaries taken)
  | registerPool poolId quote kind hook beneficiaries =>
    exact .inl (registerPool_kept s after env poolId quote kind hook beneficiaries taken)
  | unlockCallback poolId =>
    simp only [step, unlockCallback, bind_ok, require_ok] at taken
    obtain ⟨_, ⟨_, armed⟩, done⟩ := taken
    exact .inr ⟨poolId, armed, done⟩
  | receive =>
    simp only [step, receiveNative, bind_ok, require_ok, pure_ok] at taken
    obtain ⟨_, _, rfl⟩ := taken
    exact .inl (.world s _ (arrive_spares _ _ _))
  | executePayment poolId asset recipient amount sixDecimals =>
    simp only [step, executePayment, bind_ok, require_ok] at taken
    obtain ⟨_, self, _⟩ := taken
    exact absurd self outside.1
  | creditNative | creditClaims | redeemClaims | creditStock | claim | claimUSDC6 | claimStockLot =>
    cases unguarded

/-- While the ledger is locked no other call gets through. -/
theorem locked_step {call : Call} (locked : s.entered = true) (outside : Outside c call)
    (taken : step c s call = .ok after) :
    Kept c s after ∨ ∃ poolId, s.redemptionCallback = some poolId ∧
      burnAndTake c { s with redemptionCallback := none } call.env poolId = .ok after := by
  obtain ⟨env, action⟩ := call
  cases action with
  | creditNative poolId =>
    exact (locked_refuses (s := s.setWorld (s.world.arrive c 0 env.value)) locked _ taken).elim
  | creditClaims | redeemClaims | creditStock | claim | claimUSDC6 | claimStockLot =>
    exact (locked_refuses locked _ taken).elim
  | _ => exact unguarded_step rfl outside taken

theorem foreign_kept {depth : Nat} (locked : s.entered = true) (unarmed : s.redemptionCallback = none)
    (did : Foreign c depth s after) : Kept c s after := by
  cases depth with
  | zero =>
    obtain ⟨world, rfl, spares⟩ := did
    exact .world s world spares
  | succ depth =>
    induction did with
    | refl => exact .refl s
    | tail _ turn ih =>
      rcases turn with ⟨world, rfl, spares⟩ | ⟨call, outside, _, taken⟩
      · exact ih.trans (.world _ world spares)
      · rcases locked_step (ih.entered.trans locked) outside taken with kept | ⟨poolId, armed, _⟩
        · exact ih.trans kept
        · rw [ih.callback, unarmed] at armed
          cases armed

theorem external_kept {k : Nat} (honest : Honest c env) (locked : s.entered = true)
    (unarmed : s.redemptionCallback = none) (did : external s env k = .ok after) : Kept c s after := by
  obtain ⟨depth, foreign⟩ := honest
  obtain ⟨_, rfl⟩ := (external_ok s env k after).mp did
  exact foreign_kept locked unarmed (foreign k s)

/-! The one redemption that is let through. -/

/-- The claims of one pool have become money. -/
structure Redeems (c : Config) (poolId : PoolId) (s after : State) : Prop where
  others : ∀ other, other ≠ poolId → (after.accounts other).figures = (s.accounts other).figures
  cleared : (after.accounts poolId).figures =
    { s.accounts poolId with pendingClaims := 0 : Account }.figures
  stable : Stable c s after
  booked : (s.accounts poolId).pendingClaims ≤
    s.reservedClaims (s.accounts poolId).claimsManager (s.pools poolId).quote
  reserved : after.reservedClaims = (s.reserve (s.accounts poolId).claimsManager
    (s.pools poolId).quote (s.reservedClaims (s.accounts poolId).claimsManager
      (s.pools poolId).quote - (s.accounts poolId).pendingClaims)).reservedClaims
  credits : after.credits = s.credits
  entered : after.entered = s.entered
  unarmed : after.redemptionCallback = none
  held : ∀ asset, s.world.balanceOfSelf c asset +
    (if asset = (s.pools poolId).quote then (s.accounts poolId).pendingClaims else 0) ≤
      after.world.balanceOfSelf c asset
  claims : ∀ manager currency, s.world.claims manager currency ≤
    after.world.claims manager currency +
      (if manager = (s.accounts poolId).claimsManager ∧ currency = (s.pools poolId).quote
        then (s.accounts poolId).pendingClaims else 0)

/-- The manager the ledger waits for is no part of what a redemption does. -/
theorem Redeems.lift {before manager : Address} {waits callback : Option PoolId}
    (redeems : Redeems c poolId { s with redemptionManager := before, redemptionCallback := waits } after)
    (unarmed : callback = none) : Redeems c poolId s
      { after with redemptionManager := manager, redemptionCallback := callback } :=
  ⟨redeems.others, redeems.cleared,
    ⟨redeems.stable.pools, redeems.stable.vacant, redeems.stable.fresh⟩, redeems.booked,
    redeems.reserved, redeems.credits, redeems.entered, unarmed, redeems.held, redeems.claims⟩

theorem Kept.redeems (first : Kept c s middle) (registered : (s.pools poolId).hook ≠ 0)
    (second : Redeems c poolId middle after) : Redeems c poolId s after := by
  obtain ⟨accrued, remainder, received, paid, pending, manager⟩ := figures_spec (first.figures poolId)
  have pool := first.stable.pools poolId registered
  have booked := second.booked
  have reserved := second.reserved
  have held := second.held
  have claims := second.claims
  rw [manager, pool, pending, first.reserved] at booked reserved
  rw [pool, pending] at held
  rw [manager, pool, pending] at claims
  refine ⟨?_, ?_, first.stable.trans second.stable, booked, ?_, second.credits.trans first.credits,
    second.entered.trans first.entered, second.unarmed, ?_, ?_⟩
  · exact fun other ne => (second.others other ne).trans (first.figures other)
  · rw [second.cleared]
    simp only [Account.figures, accrued, remainder, received, paid, manager]
  · rw [reserved]
    simp only [State.reserve, first.reserved]
  · intro asset
    exact (Nat.add_le_add_right (first.spares.balance asset) _).trans (held asset)
  · exact fun m currency => (first.spares.claims m currency).trans (claims m currency)

theorem Redeems.kept (first : Redeems c poolId s middle) (second : Kept c middle after) : Redeems c poolId s after := by
  refine ⟨?_, ?_, first.stable.trans second.stable, first.booked,
    second.reserved.trans first.reserved, second.credits.trans first.credits,
    second.entered.trans first.entered, second.callback.trans first.unarmed, ?_, ?_⟩
  · exact fun other ne => (second.figures other).trans (first.others other ne)
  · exact (second.figures poolId).trans first.cleared
  · exact fun asset => (first.held asset).trans (second.spares.balance asset)
  · intro manager currency
    have kept := second.spares.claims manager currency
    have before := first.claims manager currency
    omega

theorem burn_claims (w : World) (manager currency m other : Address) (amount : Nat)
    (covered : amount ≤ w.claims manager currency) :
    w.claims m other ≤ (w.burn manager currency amount).claims m other +
      if m = manager ∧ other = currency then amount else 0 := by
  unfold World.burn
  by_cases issuer : m = manager
  · subst issuer
    by_cases same : other = currency
    · subst same
      simp only [Function.update_self, and_self, if_true]
      omega
    · simp [same]
  · simp [issuer]

theorem arrive_same (w : World) (asset : Address) (amount : Nat) :
    (w.arrive c asset amount).balanceOfSelf c asset = w.balanceOfSelf c asset + amount := by
  unfold World.arrive World.balanceOfSelf
  split
  · simp
  · simp

/-- What a redemption takes off the claims has arrived as money, or the call fails. -/
theorem burnAndTake_redeems (honest : Honest c env) (locked : s.entered = true) (unarmed : s.redemptionCallback = none)
    (done : burnAndTake c s env poolId = .ok after) : Redeems c poolId s after := by
  simp only [burnAndTake, bind_ok, require_ok, pure_ok, sub_ok] at done
  obtain ⟨_, ⟨booked, rfl⟩, _, owned, burned, first, taken, second, _, exact', rfl⟩ := done
  have burns := external_kept honest (by exact locked) (by exact unarmed) first
  have takes := external_kept honest (by exact burns.entered.trans locked)
    (by exact burns.callback.trans unarmed) second
  have arrived := (Kept.world (c := c) burned _ (arrive_spares burned.world
    (s.pools poolId).quote env.delivered)).trans takes
  have later := burns.trans arrived
  have stable : Stable c s _ := ⟨later.stable.pools, later.stable.vacant, later.stable.fresh⟩
  refine ⟨?_, ?_, stable, booked, ?_, later.credits, later.entered, later.callback.trans unarmed,
    ?_, ?_⟩
  · intro other ne
    rw [later.figures other]
    simp [State.setWorld, State.reserve, State.setAccount, ne]
  · rw [later.figures poolId]
    simp [State.setWorld, State.reserve, State.setAccount]
  · rw [later.reserved]
    rfl
  · intro asset
    by_cases same : asset = (s.pools poolId).quote
    · subst same
      rw [if_pos rfl, exact']
      exact Nat.le_refl _
    · rw [if_neg same]
      exact later.spares.balance asset
  · intro manager currency
    have kept := later.spares.claims manager currency
    have burnt := burn_claims s.world (s.accounts poolId).claimsManager (s.pools poolId).quote manager
      currency (s.accounts poolId).pendingClaims owned
    exact burnt.trans (Nat.add_le_add_right kept _)

/-- A manager that is asked to unlock changes no figure or redeems the pool it was asked for. -/
theorem foreign_redeems {depth : Nat} (locked : s.entered = true) (armed : s.redemptionCallback = some poolId)
    (registered : (s.pools poolId).hook ≠ 0) (did : Foreign c depth s after) :
    Kept c s after ∨ Redeems c poolId s after := by
  cases depth with
  | zero =>
    obtain ⟨world, rfl, spares⟩ := did
    exact .inl (.world s world spares)
  | succ depth =>
    induction did with
    | refl => exact .inl (.refl s)
    | tail _ turn ih =>
      rename_i middle _ _
      rcases ih with kept | redeemed
      · rcases turn with ⟨world, rfl, spares⟩ | ⟨call, outside, foreign, taken⟩
        · exact .inl (kept.trans (.world _ world spares))
        · rcases locked_step (kept.entered.trans locked) outside taken with next | ⟨other, waits, burnt⟩
          · exact .inl (kept.trans next)
          · rw [kept.callback, armed] at waits
            cases waits
            have redeems := burnAndTake_redeems ⟨depth, foreign⟩ (by exact kept.entered.trans locked)
              rfl burnt
            exact .inr (kept.redeems registered (redeems.lift redeems.unarmed))
      · rcases turn with ⟨world, rfl, spares⟩ | ⟨call, outside, _, taken⟩
        · exact .inr (redeemed.kept (.world _ world spares))
        · rcases locked_step (redeemed.entered.trans locked) outside taken with next | ⟨_, waits, _⟩
          · exact .inr (redeemed.kept next)
          · rw [redeemed.unarmed] at waits
            cases waits

/-- Redeeming the claims of a pool, whichever way its manager is reached. -/
theorem redeem_redeems (honest : Honest c env) (locked : s.entered = true) (unarmed : s.redemptionCallback = none)
    (registered : (s.pools poolId).hook ≠ 0) (done : redeem c s env poolId = .ok after) : Redeems c poolId s after := by
  simp only [redeem, ite_ok, pure_ok, bind_ok, require_ok] at done
  rcases done with ⟨none, rfl⟩ | ⟨_, middle, ⟨_, burnt⟩ | ⟨_, unlocked, asked, _, called, rfl⟩, rfl⟩
  · refine ⟨fun _ _ => rfl, ?_, .same rfl, ?_, ?_, rfl, rfl, unarmed, ?_, ?_⟩
    · simp [Account.figures, none]
    · simp [none]
    · simp [State.reserve, none]
    · simp [none]
    · simp [none]
  · have redeems := burnAndTake_redeems honest (by exact locked) (by exact unarmed) burnt
    exact redeems.lift redeems.unarmed
  · obtain ⟨depth, foreign⟩ := honest
    obtain ⟨_, rfl⟩ := (external_ok _ env 2 unlocked).mp asked
    have armed : ({ s with
        redemptionManager := (s.accounts poolId).claimsManager
        redemptionCallback := some poolId } : State).redemptionCallback = some poolId := rfl
    rcases foreign_redeems (by exact locked) armed (by exact registered) (foreign 2 _) with
      kept | redeems
    · rw [kept.callback] at called
      cases called
    · exact redeems.lift redeems.unarmed

end Solonpad.FeeLedger
