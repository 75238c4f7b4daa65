import Solonpad.FeeSplit

/-!
The fee ledger seen by one beneficiary. `delivered` reads from the ledger's figures what the
creator bucket of a pool was paid so far; it moves by a claim of that bucket only, and what it
moves by has arrived at the beneficiary. The other contracts a call reaches take nothing of what
the beneficiary holds.
-/

namespace Solonpad.FeeLedger

open Checked CarriedSplit Transition
open Chain (Address)

variable {c : Config} {n : Address} {first second : World}

/-- `totalReceived / 10 - accrued` of the creator bucket. -/
def State.delivered (s : State) (poolId : PoolId) : Nat :=
  (s.accounts poolId).totalReceived / 10 - (s.accounts poolId).accrued creator

def World.balanceOf (w : World) (holder currency : Address) : Nat :=
  if currency = 0 then w.coins holder else w.tokens currency holder

/-- A holder has lost nothing. -/
structure Richer (n : Address) (before after : World) : Prop where
  coins : before.coins n ≤ after.coins n
  tokens : ∀ token, before.tokens token n ≤ after.tokens token n

theorem Richer.refl (w : World) : Richer n w w := ⟨le_rfl, fun _ => le_rfl⟩

theorem Richer.trans {third : World} (before : Richer n first second) (after : Richer n second third) :
    Richer n first third :=
  ⟨before.coins.trans after.coins, fun token => (before.tokens token).trans (after.tokens token)⟩

theorem Richer.balance (richer : Richer n first second) (asset : Address) :
    first.balanceOf n asset ≤ second.balanceOf n asset := by
  unfold World.balanceOf
  split
  · exact richer.coins
  · exact richer.tokens asset

/-- The token whose balances a call lets a payment rewrite. -/
def Action.touched (c : Config) (s : State) : Action → Address
  | .claim poolId .. | .claimStockLot poolId .. | .creditStock poolId _ => (s.pools poolId).quote
  | .claimUSDC6 .. => c.nativeUsdcView
  | _ => 0

/-- What a call's contracts do takes nothing from a holder. -/
structure Gentle (c : Config) (n : Address) (s : State) (call : Call) : Prop where
  foreign : ∀ k middle, Richer n middle.world (call.env.foreign k middle).world
  row : s.world.tokens (call.action.touched c s) n ≤ call.env.row n
  coins : s.world.coins n ≤ call.env.coins n

/-! What passes through to a holder. -/

section

variable {env : Env} (gentle : ∀ k middle, Richer n middle.world (env.foreign k middle).world)
  {s after : State} {poolId : PoolId}

include gentle

theorem external_richer {k : Nat} (done : external s env k = .ok after) : Richer n s.world after.world := by
  obtain ⟨_, rfl⟩ := (external_ok s env k after).mp done
  exact gentle k s

theorem notify_richer {allocation : Bucket → Nat} (buckets : List Bucket)
    (done : notify env allocation buckets s = .ok after) : Richer n s.world after.world := by
  induction buckets generalizing s with
  | nil =>
    cases done
    exact .refl _
  | cons bucket rest ih =>
    simp only [notify, bind_ok, ite_ok, pure_ok] at done
    obtain ⟨middle, ⟨_, told⟩ | ⟨_, rfl⟩, done⟩ := done
    · exact (external_richer gentle told).trans (ih done)
    · exact ih done

theorem credit_richer {amount : Nat} (done : credit s env poolId amount = .ok after) :
    Richer n s.world after.world := by
  simp only [credit, bind_ok, require_ok] at done
  obtain ⟨_, _, _, _, _, _, _, _, told⟩ := done
  have richer := notify_richer gentle _ told
  exact richer

omit gentle in
theorem arrive_richer (other : n ≠ c.self) (w : World) (asset : Address) (amount : Nat) :
    Richer n w (w.arrive c asset amount) := by
  unfold World.arrive
  split
  · refine ⟨?_, fun _ => le_rfl⟩
    simp [Function.update_of_ne other]
  · refine ⟨le_rfl, fun token => ?_⟩
    by_cases same : token = asset
    · subst same
      simp [Function.update_of_ne other]
    · simp [Function.update_of_ne same]

theorem burnAndTake_richer (other : n ≠ c.self) (done : burnAndTake c s env poolId = .ok after) :
    Richer n s.world after.world := by
  simp only [burnAndTake, bind_ok, require_ok, pure_ok] at done
  obtain ⟨_, _, _, _, burned, burn, last, took, _, _, rfl⟩ := done
  have first := external_richer gentle burn
  have second := external_richer gentle took
  have between := arrive_richer other burned.world (s.pools poolId).quote env.delivered
  have burning : Richer n s.world burned.world := ⟨first.coins, first.tokens⟩
  exact (burning.trans between).trans second

theorem redeem_richer (other : n ≠ c.self) (done : redeem c s env poolId = .ok after) :
    Richer n s.world after.world := by
  simp only [redeem, ite_ok, bind_ok, require_ok, pure_ok] at done
  rcases done with ⟨_, rfl⟩ | ⟨_, last, ⟨_, burned⟩ | ⟨_, _, asked, _, _, rfl⟩, rfl⟩
  · exact .refl _
  · have richer := burnAndTake_richer gentle other burned
    exact richer
  · have richer := external_richer gentle asked
    exact richer

/-- A payment reaches its recipient in full, and nobody else loses by it. -/
theorem payment_richer (other : n ≠ c.self) {asset recipient : Address} {amount : Nat} {six : Bool}
    (row : s.world.tokens asset n ≤ env.row n) (coins : s.world.coins n ≤ env.coins n)
    (done : payment c s env poolId asset recipient amount six = .ok after) :
    Richer n s.world after.world ∧ (recipient = n →
      if six = true then s.world.coins n + amount * 10 ^ 12 ≤ after.world.coins n
      else s.world.balanceOf n asset + amount ≤ after.world.balanceOf n asset) := by
  simp only [payment, bind_ok] at done
  obtain ⟨middle, redeemed, last, paid, done⟩ := done
  have first := redeem_richer gentle other redeemed
  have moved : Richer n s.world last.world ∧
      (recipient = n → s.world.balanceOf n asset + amount ≤ last.world.balanceOf n asset) := by
    simp only [ite_ok, bind_ok, require_ok, pure_ok, sub_ok] at paid
    rcases paid with ⟨rfl, _, enough, sent⟩ | ⟨token, final, sent, _, ⟨_, rfl⟩, _, ⟨_, got⟩, rfl⟩
    · have second := external_richer gentle sent
      have kept := second.coins
      simp only [State.setWorld] at kept
      have own := first.coins
      simp only [World.balanceOf, if_true]
      by_cases mine : recipient = n
      · subst mine
        simp only [Function.update_self, Function.update_of_ne other] at kept
        exact ⟨⟨by omega, fun token => (first.tokens token).trans (second.tokens token)⟩,
          fun _ => by omega⟩
      · simp only [Function.update_of_ne (Ne.symm mine), Function.update_of_ne other] at kept
        exact ⟨⟨by omega, fun token => (first.tokens token).trans (second.tokens token)⟩,
          fun same => absurd same mine⟩
    · have second := external_richer gentle sent
      have kept := second.tokens
      have coined := second.coins
      simp only [State.setWorld] at kept coined
      simp only [World.balanceOf, token, if_false]
      refine ⟨⟨?_, fun t => ?_⟩, fun mine => ?_⟩
      · by_cases view : six = true
        · rw [if_pos view] at coined
          exact coins.trans coined
        · rw [if_neg view] at coined
          exact first.coins.trans coined
      · have row' := kept t
        by_cases same : t = asset
        · subst same
          rw [Function.update_self] at row'
          exact row.trans row'
        · rw [Function.update_of_ne same] at row'
          exact (first.tokens t).trans row'
      · subst mine
        have own := first.tokens asset
        omega
  have own := first.coins
  simp only [ite_ok, bind_ok, sub_ok, require_ok, pure_ok] at done
  rcases done with ⟨rfl, _, ⟨_, rfl⟩, _, ⟨_, got⟩, rfl⟩ | ⟨plain, rfl⟩
  · refine ⟨moved.1, fun mine => ?_⟩
    subst mine
    rw [if_pos rfl]
    omega
  · rw [if_neg plain]
    exact moved

end

/-! Figures. -/

variable {s after : State} {poolId : PoolId} {amount : Nat} {env : Env}

/-- A creator bucket's lifetime entitlement is a tenth of what its pool received. -/
theorem Split.tenth (split : Split s) (poolId : PoolId) :
    s.allocated poolId creator = (s.accounts poolId).totalReceived / 10 := by
  rw [(split.exact poolId creator).floor]
  exact Nat.mul_div_mul_right _ 10 (show 0 < 1000 by decide)

/-- No creator bucket holds more than its entitlement. -/
def Owed (s : State) : Prop :=
  ∀ poolId, (s.accounts poolId).accrued creator ≤ (s.accounts poolId).totalReceived / 10

theorem Owed.same (owed : Owed s)
    (figures : ∀ poolId, (after.accounts poolId).accrued = (s.accounts poolId).accrued ∧
      (after.accounts poolId).totalReceived = (s.accounts poolId).totalReceived) : Owed after := by
  intro poolId
  obtain ⟨accrued, received⟩ := figures poolId
  rw [accrued, received]
  exact owed poolId

theorem delivered_same (accrued : (after.accounts poolId).accrued = (s.accounts poolId).accrued)
    (received : (after.accounts poolId).totalReceived = (s.accounts poolId).totalReceived) :
    after.delivered poolId = s.delivered poolId := by
  rw [State.delivered, State.delivered, accrued, received]

theorem figures_two {a b : Account} (same : b.figures = a.figures) :
    b.accrued = a.accrued ∧ b.totalReceived = a.totalReceived :=
  ⟨(figures_four same).1, (figures_four same).2.2.1⟩

/-- A lot is not delivered yet: the entitlement and the credit grow by the same part. -/
theorem Credited.tenth (credited : Credited c poolId amount s after) (split : Split s) :
    (after.accounts poolId).totalReceived / 10 = (s.accounts poolId).totalReceived / 10 +
        allocation amount (s.accounts poolId) creator ∧
      (after.accounts poolId).accrued creator = (s.accounts poolId).accrued creator +
        allocation amount (s.accounts poolId) creator := by
  have later := (credited.split split).tenth poolId
  obtain ⟨lotId, credits⟩ := credited.credits
  have grown : after.allocated poolId creator = s.allocated poolId creator +
      allocation amount (s.accounts poolId) creator := by
    simp [State.allocated, credits]
  refine ⟨?_, by rw [credited.account.accrued]⟩
  rw [← later, grown, split.tenth poolId]

theorem Credited.delivered (credited : Credited c poolId amount s after) (split : Split s) (other : PoolId) :
    after.delivered other = s.delivered other := by
  by_cases same : other = poolId
  · subst same
    obtain ⟨tenth, accrued⟩ := credited.tenth split
    rw [State.delivered, State.delivered, tenth, accrued]
    omega
  · obtain ⟨accrued, received⟩ := figures_two (credited.others other same)
    exact delivered_same accrued received

theorem Redeems.two (redeemed : Redeems c poolId s after) (other : PoolId) :
    (after.accounts other).accrued = (s.accounts other).accrued ∧
      (after.accounts other).totalReceived = (s.accounts other).totalReceived := by
  by_cases same : other = poolId
  · subst same
    obtain ⟨accrued, received⟩ := figures_two redeemed.cleared
    exact ⟨accrued, received⟩
  · exact figures_two (redeemed.others other same)

theorem taken_received (s : State) (poolId other : PoolId) (bucket : Bucket) (amount : Nat) :
    ((s.taken poolId bucket amount).accounts other).totalReceived =
      (s.accounts other).totalReceived := by
  by_cases same : other = poolId
  · subst same
    simp [State.taken, State.setAccount]
  · simp [State.taken, State.setAccount, same]

theorem taken_accrued (s : State) (poolId other : PoolId) (bucket : Bucket) (amount : Nat) :
    ((s.taken poolId bucket amount).accounts other).accrued creator =
      (s.accounts other).accrued creator -
        if other = poolId ∧ bucket = creator then amount else 0 := by
  by_cases same : other = poolId
  · subst same
    by_cases first : bucket = creator
    · subst first
      simp [State.taken, State.setAccount]
    · simp [State.taken, State.setAccount, first, Function.update_of_ne (Ne.symm first)]
  · simp [State.taken, State.setAccount, same]

theorem move_owed {x y : OnWay × State} (move : Move c x y) (split : Split x.2) (owed : Owed x.2) : Owed y.2 := by
  cases move with
  | keeps unmoved => exact owed.same (fun poolId => figures_two (unmoved.figures poolId))
  | arrives _ _ unmoved => exact owed.same (fun poolId => figures_two (unmoved.figures poolId))
  | books poolId manager amount =>
    refine owed.same (fun other => ?_)
    by_cases same : other = poolId
    · subst same
      simp [State.claimed, State.setAccount, State.reserve]
    · simp [State.claimed, State.setAccount, State.reserve, same]
  | credits poolId amount _ credited =>
    intro other
    by_cases same : other = poolId
    · subst same
      obtain ⟨tenth, accrued⟩ := credited.tenth split
      have bound := owed other
      simp only at bound ⊢
      rw [tenth, accrued]
      omega
    · obtain ⟨accrued, received⟩ := figures_two (credited.others other same)
      rw [accrued, received]
      exact owed other
  | takes poolId bucket amount _ held =>
    intro other
    have bound := owed other
    simp only at bound ⊢
    rw [taken_received, taken_accrued]
    omega
  | redeems poolId _ redeemed => exact owed.same redeemed.two
  | leaves _ _ left => exact owed.same (fun poolId => figures_two (left.figures poolId))

theorem Moves.owed (moves : Moves c s after) (split : Split s) (owed : Owed s) : Owed after := by
  have kept : ∀ x y : OnWay × State, Relation.ReflTransGen (Move c) x y → Split x.2 → Owed x.2 →
      Split y.2 ∧ Owed y.2 := by
    intro x y chain split owed
    induction chain with
    | refl => exact ⟨split, owed⟩
    | tail _ move ih => exact ⟨move_split move ih.1, move_owed move ih.1 ih.2⟩
  exact (kept _ _ moves split owed).2

/-- Registered pools stay as they are. -/
theorem Moves.stable (moves : Moves c s after) : Stable c s after := by
  have one : ∀ x y : OnWay × State, Move c x y → Stable c x.2 y.2 := by
    intro x y move
    cases move with
    | keeps unmoved => exact unmoved.stable
    | arrives _ _ unmoved => exact unmoved.stable
    | books | takes => exact .same rfl
    | credits _ _ _ credited => exact credited.stable
    | redeems _ _ redeemed => exact redeemed.stable
    | leaves _ _ left => exact left.stable
  have kept : ∀ x y : OnWay × State, Relation.ReflTransGen (Move c) x y → Stable c x.2 y.2 := by
    intro x y chain
    induction chain with
    | refl => exact .same rfl
    | tail _ move ih => exact ih.trans (one _ _ move)
  exact kept _ _ moves

/-! Calls. -/

/-- A creator bucket is paid: what it is owed less by has arrived at its beneficiary. -/
structure Pays (n : Address) (poolId : PoolId) (amount : Nat) (s after : State) : Prop where
  registered : (s.pools poolId).hook ≠ 0
  richer : Richer n s.world after.world
  others : ∀ other, other ≠ poolId → after.delivered other = s.delivered other
  more : after.delivered poolId = s.delivered poolId + amount
  got : (s.pools poolId).beneficiaries creator = n →
    s.world.balanceOf n (s.pools poolId).quote + amount ≤
      after.world.balanceOf n (s.pools poolId).quote

/-- What a call does to creator buckets: it delivers nothing, or pays one in full. -/
inductive Delivers (n : Address) (s after : State) : Prop where
  | still (richer : Richer n s.world after.world)
      (same : ∀ poolId, after.delivered poolId = s.delivered poolId) : Delivers n s after
  | pays (poolId : PoolId) (amount : Nat) (paid : Pays n poolId amount s after) :
      Delivers n s after

theorem pay_delivers {bucket : Bucket} {six paid : Bool} (honest : Honest c env) (locked : s.entered = true)
    (unarmed : s.redemptionCallback = none) (owed : Owed s)
    (view : six = true → c.nativeUsdcView ≠ 0 ∧ (s.pools poolId).quote = 0)
    (whole : six = true → amount / 10 ^ 12 * 10 ^ 12 = amount)
    (gentle : ∀ k middle, Richer n middle.world (env.foreign k middle).world) (other : n ≠ c.self)
    (row : s.world.tokens (if six = true then c.nativeUsdcView else (s.pools poolId).quote) n ≤ env.row n)
    (coins : s.world.coins n ≤ env.coins n) (done : pay c s env poolId bucket amount six = .ok (after, paid)) :
    (paid = true → Delivers n s after ∧ (bucket = creator → Pays n poolId amount s after)) ∧
      (paid = false → after = s) := by
  rcases pay_ok honest locked unarmed view done with
    ⟨rfl, rfl⟩ | ⟨rfl, registered, held, middle, redeems, leaves⟩
  · exact ⟨fun no => absurd no (by decide), fun _ => rfl⟩
  refine ⟨fun _ => ?_, fun no => absurd no (by decide)⟩
  have sent : ∃ taken : State, taken.world = s.world ∧ payment c taken env poolId
      (if six = true then c.nativeUsdcView else (s.pools poolId).quote)
      ((s.pools poolId).beneficiaries bucket) (if six = true then amount / 10 ^ 12 else amount) six =
        .ok after := by
    simp only [pay, bind_ok, require_ok, add_ok] at done
    obtain ⟨_, _, _, _, _, _, done⟩ := done
    split at done
    · next final sent =>
      cases done
      refine ⟨_, ?_, sent⟩
      rfl
    · simp only [bind_ok, pure_ok, Prod.mk.injEq] at done
      obtain ⟨_, _, _, _, _, no⟩ := done
      cases no
  obtain ⟨taken, world, sent⟩ := sent
  obtain ⟨richer, got⟩ := payment_richer gentle other (by rwa [world]) (by rwa [world]) sent
  rw [world] at richer got
  have figures : ∀ p, (after.accounts p).accrued =
      ((s.taken poolId bucket amount).accounts p).accrued ∧
      (after.accounts p).totalReceived = (s.accounts p).totalReceived := by
    intro p
    obtain ⟨accrued, received⟩ := redeems.two p
    obtain ⟨accrued', received'⟩ := figures_two (leaves.figures p)
    exact ⟨accrued'.trans accrued, received'.trans (received.trans (taken_received s poolId p _ _))⟩
  have moved : ∀ p, after.delivered p =
      s.delivered p + if p = poolId ∧ bucket = creator then amount else 0 := by
    intro p
    obtain ⟨accrued, received⟩ := figures p
    have bound := owed p
    rw [State.delivered, State.delivered, accrued, received, taken_accrued]
    by_cases own : p = poolId ∧ bucket = creator
    · obtain ⟨rfl, rfl⟩ := own
      simp only [and_self, if_true]
      omega
    · simp only [if_neg own, Nat.sub_zero, Nat.add_zero]
  by_cases first : bucket = creator
  · subst first
    have pays : Pays n poolId amount s after := by
      refine ⟨registered, richer, fun p ne => ?_, ?_, fun mine => ?_⟩
      · rw [moved p, if_neg (fun both => ne both.1), Nat.add_zero]
      · rw [moved poolId, if_pos ⟨rfl, rfl⟩]
      have all := got mine
      by_cases decimals : six = true
      · obtain ⟨_, native⟩ := view decimals
        rw [if_pos decimals, if_pos decimals, whole decimals] at all
        simpa only [World.balanceOf, native, if_true] using all
      · rwa [if_neg decimals, if_neg decimals, if_neg decimals] at all
    exact ⟨.pays poolId amount pays, fun _ => pays⟩
  · refine ⟨.still richer (fun p => ?_), fun same => absurd same first⟩
    rw [moved p, if_neg (fun both => first both.2), Nat.add_zero]

/-- The same seen from before the call took the lock, whatever becomes of the payment. -/
theorem paid_delivers {locked : State} {bucket : Bucket} {six paid : Bool}
    (done : pay c locked env poolId bucket amount six = .ok (after, paid)) (honest : Honest c env)
    (entered : locked.entered = true) (unarmed : locked.redemptionCallback = none) (pools : locked.pools = s.pools)
    (world : locked.world = s.world) (figures : ∀ p, (locked.accounts p).figures = (s.accounts p).figures)
    (owed : Owed s) (view : six = true → c.nativeUsdcView ≠ 0 ∧ (s.pools poolId).quote = 0)
    (whole : six = true → amount / 10 ^ 12 * 10 ^ 12 = amount)
    (gentle : ∀ k middle, Richer n middle.world (env.foreign k middle).world) (other : n ≠ c.self)
    (row : s.world.tokens (if six = true then c.nativeUsdcView else (s.pools poolId).quote) n ≤ env.row n)
    (coins : s.world.coins n ≤ env.coins n) :
    Delivers n s { after with entered := false } ∧ (paid = true → bucket = creator →
      Pays n poolId amount s { after with entered := false }) := by
  have same : ∀ p, locked.delivered p = s.delivered p := fun p =>
    delivered_same (figures_two (figures p)).1 (figures_two (figures p)).2
  have relock : ∀ {p : PoolId} {paid : Nat}, Pays n p paid locked after →
      Pays n p paid s { after with entered := false } := by
    intro p paid pays
    obtain ⟨registered, richer, others, more, got⟩ := pays
    rw [pools] at registered got
    rw [world] at richer got
    rw [same p] at more
    exact ⟨registered, richer, fun q ne => (others q ne).trans (same q), more, got⟩
  obtain ⟨delivers, failed⟩ := pay_delivers honest entered unarmed
    (owed.same (fun p => figures_two (figures p))) (by rwa [pools]) whole gentle other
    (by rwa [pools, world]) (by rwa [world]) done
  cases paid with
  | false =>
    rw [failed rfl]
    refine ⟨.still ?_ same, fun no => absurd no (by decide)⟩
    rw [world]
    exact .refl _
  | true =>
    obtain ⟨delivers, pays⟩ := delivers rfl
    refine ⟨?_, fun _ first => relock (pays first)⟩
    cases delivers with
    | still richer still =>
      rw [world] at richer
      exact .still richer (fun p => (still p).trans (same p))
    | pays paidFor amount pays => exact .pays paidFor amount (relock pays)

/-- A lot adds to what is owed and delivers nothing. -/
theorem credited_delivers {locked : State} (done : credit locked env poolId amount = .ok after) (honest : Honest c env)
    (entered : locked.entered = true) (unarmed : locked.redemptionCallback = none) (split : Split locked)
    (gentle : ∀ k middle, Richer n middle.world (env.foreign k middle).world) (first : Richer n s.world locked.world)
    (same : ∀ p, locked.delivered p = s.delivered p) : Delivers n s { after with entered := false } := by
  have credited := credit_credited honest entered unarmed done
  have second := credit_richer gentle done
  exact .still (first.trans second) (fun p => (credited.delivered split p).trans (same p))

/-- A call outside the lock moves no balance but by what it brings. -/
theorem unguarded_richer {call : Call} (unguarded : call.action.guarded = false)
    (unarmed : s.redemptionCallback = none) (other : n ≠ c.self) (sent : call.env.sender ≠ c.self)
    (taken : step c s call = .ok after) : Richer n s.world after.world := by
  obtain ⟨env, action⟩ := call
  cases action with
  | enableControlledClaim poolId bucket =>
    simp only [step, enableControlledClaim, bind_ok, pure_ok] at taken
    obtain ⟨_, _, rfl⟩ := taken
    exact .refl _
  | enableStockLotCustody poolId bucket =>
    simp only [step, enableStockLotCustody, bind_ok, pure_ok] at taken
    obtain ⟨_, _, _, _, rfl⟩ := taken
    exact .refl _
  | registerLegacyPool poolId quote hook beneficiaries =>
    simp only [step, registerLegacyPool, registerPool, bind_ok, require_ok, pure_ok] at taken
    obtain ⟨_, _, _, _, _, ⟨_, _, _, _, _, _, _, _, _, _, rfl⟩, rfl⟩ := taken
    exact .refl _
  | registerPool poolId quote kind hook beneficiaries =>
    simp only [step, registerPool, bind_ok, require_ok, pure_ok] at taken
    obtain ⟨_, _, _, _, _, _, _, _, _, _, rfl⟩ := taken
    exact .refl _
  | unlockCallback poolId =>
    simp only [step, unlockCallback, bind_ok, require_ok, unarmed] at taken
    obtain ⟨_, ⟨_, armed⟩, _⟩ := taken
    cases armed
  | receive =>
    simp only [step, receiveNative, bind_ok, require_ok, pure_ok] at taken
    obtain ⟨_, _, rfl⟩ := taken
    have more := arrive_richer other s.world 0 env.value
    exact more
  | executePayment poolId asset recipient amount sixDecimals =>
    simp only [step, executePayment, bind_ok, require_ok] at taken
    obtain ⟨_, self, _⟩ := taken
    exact absurd self sent
  | creditNative | creditClaims | redeemClaims | creditStock | claim | claimUSDC6 | claimStockLot =>
    cases unguarded

/-- A call delivers to the creators' buckets by paying one of them, and in no other way. -/
theorem step_delivers {call : Call} (unarmed : s.redemptionCallback = none) (split : Split s) (owed : Owed s)
    (other : n ≠ c.self) (gentle : Gentle c n s call) (accepted : accepts c s call after) : Delivers n s after := by
  obtain ⟨env, action⟩ := call
  obtain ⟨outside, honest, taken⟩ := accepted
  cases action with
  | creditNative poolId =>
    obtain ⟨_, done⟩ := fst_ok taken
    simp only [creditNative, nonReentrant_ok, bind_ok, require_ok, pure_ok, Prod.mk.injEq] at done
    obtain ⟨_, inner, ⟨_, _, _, _, final, credited, rfl, _⟩, rfl⟩ := done
    exact credited_delivers credited honest rfl unarmed (split.same (fun _ => ⟨rfl, rfl, rfl, rfl⟩) rfl)
      gentle.foreign (arrive_richer other s.world 0 env.value) (fun _ => rfl)
  | creditClaims poolId amount =>
    obtain ⟨_, done⟩ := fst_ok taken
    simp only [creditClaims, nonReentrant_ok, bind_ok, require_ok, add_ok, pure_ok,
      Prod.mk.injEq] at done
    obtain ⟨_, inner, ⟨_, _, _, _, _, ⟨_, rfl⟩, _, _, _, _, _, ⟨_, rfl⟩, final, credited, rfl, _⟩,
      rfl⟩ := done
    refine credited_delivers credited honest rfl unarmed (split.same (fun p => ?_) rfl) gentle.foreign
      (.refl _) (fun p => ?_)
    · by_cases same : p = poolId
      · subst same
        simp [State.setAccount, State.reserve]
      · simp [State.setAccount, State.reserve, same]
    · by_cases same : p = poolId
      · subst same
        simp [State.delivered, State.setAccount, State.reserve]
      · simp [State.delivered, State.setAccount, State.reserve, same]
  | creditStock poolId amount =>
    obtain ⟨_, done⟩ := fst_ok taken
    simp only [creditStock, nonReentrant_ok, bind_ok, require_ok, pure_ok, Prod.mk.injEq] at done
    obtain ⟨_, inner, ⟨_, _, _, _, middle, pulled, _, _, final, credited, rfl, _⟩, rfl⟩ := done
    have kept := external_kept honest (by rfl) (by exact unarmed) pulled
    have moved := external_richer gentle.foreign pulled
    have row : s.world.tokens (s.pools poolId).quote n ≤ env.row n := gentle.row
    have pulling : Richer n s.world { s.world with
        tokens := Function.update s.world.tokens (s.pools poolId).quote env.row } := by
      refine ⟨le_rfl, fun token => ?_⟩
      by_cases same : token = (s.pools poolId).quote
      · subst same
        simpa using row
      · simp [Function.update_of_ne same]
    have figures := kept.figures
    refine credited_delivers credited honest (kept.entered.trans rfl) (kept.callback.trans unarmed)
      (split.same (fun p => figures_four (figures p)) kept.credits) gentle.foreign
      (pulling.trans moved) (fun p => ?_)
    exact delivered_same (figures_two (figures p)).1 (figures_two (figures p)).2
  | redeemClaims poolId =>
    obtain ⟨_, done⟩ := fst_ok taken
    simp only [redeemClaims, nonReentrant_ok, bind_ok, require_ok, pure_ok, Prod.mk.injEq] at done
    obtain ⟨_, inner, ⟨_, registered, final, redeemed, rfl, _⟩, rfl⟩ := done
    have redeems := redeem_redeems honest (by rfl) (by exact unarmed) (by exact registered) redeemed
    have richer := redeem_richer gentle.foreign other redeemed
    exact .still richer (fun p => delivered_same (redeems.two p).1 (redeems.two p).2)
  | claim poolId bucket amount =>
    obtain ⟨paid, done⟩ := fst_ok taken
    simp only [claim, nonReentrant_ok, bind_ok] at done
    obtain ⟨_, inner, ⟨_, _, done⟩, rfl⟩ := done
    split at done
    · simp only [bind_ok, require_ok] at done
      obtain ⟨_, _, done⟩ := done
      have row : s.world.tokens (s.pools poolId).quote n ≤ env.row n := gentle.row
      exact (paid_delivers (s := s) done honest rfl unarmed rfl rfl (fun _ => rfl) owed
        (fun no => absurd no (by decide)) (fun no => absurd no (by decide)) gentle.foreign other row
        gentle.coins).1
    · cases done
  | claimUSDC6 poolId bucket amount18 =>
    obtain ⟨paid, done⟩ := fst_ok taken
    simp only [claimUSDC6, nonReentrant_ok, bind_ok, require_ok, not_or, not_not] at done
    obtain ⟨_, inner, ⟨_, _, _, view, done⟩, rfl⟩ := done
    split at done
    · simp only [bind_ok, require_ok] at done
      obtain ⟨_, _, done⟩ := done
      have whole : amount18 / 10 ^ 12 * 10 ^ 12 / 10 ^ 12 * 10 ^ 12 = amount18 / 10 ^ 12 * 10 ^ 12 := by
        omega
      have row : s.world.tokens c.nativeUsdcView n ≤ env.row n := gentle.row
      exact (paid_delivers (s := s) done honest rfl unarmed rfl rfl (fun _ => rfl) owed (fun _ => view)
        (fun _ => whole) gentle.foreign other row gentle.coins).1
    · cases done
  | claimStockLot poolId lotId bucket =>
    obtain ⟨amount, done⟩ := fst_ok taken
    simp only [claimStockLot, nonReentrant_ok, bind_ok, require_ok, pure_ok, Prod.exists,
      Prod.mk.injEq] at done
    obtain ⟨_, inner, ⟨bucket, _, _, _, _, _, _, _, final, paid, done, _, rfl, rfl, _⟩, rfl⟩ := done
    have figures := (Kept.account (c := c) s poolId { s.accounts poolId with
        stockLotAmount := Function.update (s.accounts poolId).stockLotAmount lotId
          (Function.update ((s.accounts poolId).stockLotAmount lotId) bucket 0) } rfl).figures
    have row : s.world.tokens (s.pools poolId).quote n ≤ env.row n := gentle.row
    exact (paid_delivers (s := s) done honest rfl unarmed rfl rfl figures owed (fun no => absurd no (by decide))
      (fun no => absurd no (by decide)) gentle.foreign other row gentle.coins).1
  | _ =>
    have richer := unguarded_richer rfl unarmed other (by exact outside.1) taken
    rcases unguarded_step rfl outside taken with kept | ⟨_, armed, _⟩
    · exact .still richer (fun p => delivered_same (figures_two (kept.figures p)).1
        (figures_two (kept.figures p)).2)
    · rw [unarmed] at armed
      cases armed

/-- A claim of a creator bucket that says it paid has paid the amount asked for. -/
theorem claim_pays (honest : Honest c env) (unarmed : s.redemptionCallback = none) (owed : Owed s)
    (other : n ≠ c.self) (gentle : Gentle c n s ⟨env, .claim poolId creator amount⟩)
    (done : claim c s env poolId creator amount = .ok (after, true)) : Pays n poolId amount s after := by
  simp only [claim, nonReentrant_ok, bind_ok] at done
  obtain ⟨_, inner, ⟨_, _, done⟩, rfl⟩ := done
  rw [dif_pos (by decide)] at done
  simp only [bind_ok, require_ok] at done
  obtain ⟨_, _, done⟩ := done
  have row : s.world.tokens (s.pools poolId).quote n ≤ env.row n := gentle.row
  exact (paid_delivers (s := s) done honest rfl unarmed rfl rfl (fun _ => rfl) owed
    (fun no => absurd no (by decide)) (fun no => absurd no (by decide)) gentle.foreign other row
    gentle.coins).2 rfl rfl

end Solonpad.FeeLedger
