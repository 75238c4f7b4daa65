import Solonpad.FeeSplit

/-!
The ledger holds what it owes. By asset, the balance and the claims that wait for redemption cover
what the pools have received and not paid out; what a manager's claims are reserved for is what
its pools wait for; and a payment that fails or falls short leaves no trace.
-/

namespace Solonpad.FeeLedger

open Checked CarriedSplit Transition RunningTotal
open Chain (Address)

variable {c : Config} {s after : State} {poolId : PoolId} {way : OnWay} {amount : Nat} {bucket : Bucket} {env : Env}
  {paid : Bool} {later : OnWay}

/-- What a pool of this asset has received and not paid. -/
def State.owed (s : State) (asset : Address) (poolId : PoolId) : Nat :=
  if (s.pools poolId).quote = asset then
    (s.accounts poolId).totalReceived - (s.accounts poolId).totalPaid
  else 0

/-- The claims a pool of this asset waits for. -/
def State.waits (s : State) (asset : Address) (poolId : PoolId) : Nat :=
  if (s.pools poolId).quote = asset then (s.accounts poolId).pendingClaims else 0

/-- The same, on one manager. -/
def State.waitsOn (s : State) (manager currency : Address) (poolId : PoolId) : Nat :=
  if (s.accounts poolId).claimsManager = manager then s.waits currency poolId else 0

structure Custody (c : Config) (way : OnWay) (s : State) : Prop where
  split : Split s
  vacant : ∀ poolId, (s.pools poolId).hook = 0 → (s.accounts poolId).totalReceived = 0 ∧
    (s.accounts poolId).pendingClaims = 0
  issued : ∀ poolId, (s.accounts poolId).claimsManager = 0 → (s.accounts poolId).pendingClaims = 0
  viewless : ∀ poolId, (s.pools poolId).quote ≠ 0 → (s.pools poolId).quote ≠ c.nativeUsdcView
  reserved : ∀ manager currency,
    Totals (s.waitsOn manager currency) (s.reservedClaims manager currency)
  backed : ∀ manager currency,
    s.reservedClaims manager currency ≤ s.world.claims manager currency
  covered : ∀ asset, ∃ due waiting, Totals (s.owed asset) due ∧ Totals (s.waits asset) waiting ∧
    due + way asset ≤ s.world.balanceOfSelf c asset + waiting

theorem Split.settled (split : Split s) (poolId : PoolId) :
    ∑ bucket, (s.accounts poolId).accrued bucket + (s.accounts poolId).totalPaid +
      (s.accounts poolId).roundingReserve = (s.accounts poolId).totalReceived := by
  have carries := sum_carries (by decide) shares_whole (split.exact poolId)
  rw [split.paid poolId]
  exact carries.2

theorem Split.accrued_le (split : Split s) (poolId : PoolId) (bucket : Bucket) :
    (s.accounts poolId).accrued bucket + (s.accounts poolId).totalPaid ≤
      (s.accounts poolId).totalReceived := by
  have settled := split.settled poolId
  have single := Finset.single_le_sum (f := (s.accounts poolId).accrued)
    (fun _ _ => Nat.zero_le _) (Finset.mem_univ bucket)
  omega

/-! Pools that did not move. -/

/-- What the custody reads of a pool. -/
structure Quiet (s after : State) (poolId : PoolId) : Prop where
  received : (after.accounts poolId).totalReceived = (s.accounts poolId).totalReceived
  paid : (after.accounts poolId).totalPaid = (s.accounts poolId).totalPaid
  pending : (after.accounts poolId).pendingClaims = (s.accounts poolId).pendingClaims
  manager : (after.accounts poolId).claimsManager = (s.accounts poolId).claimsManager

theorem quiet_of_figures (same : (after.accounts poolId).figures = (s.accounts poolId).figures) :
    Quiet s after poolId := by
  obtain ⟨_, _, received, paid, pending, manager⟩ := figures_spec same
  exact ⟨received, paid, pending, manager⟩

/-- A quiet pool keeps its entries: a registered one its asset, a vacant one has none. -/
theorem Custody.entries (custody : Custody c way s) (stable : Stable c s after) (quiet : Quiet s after poolId) :
    (∀ asset, after.owed asset poolId = s.owed asset poolId) ∧
      (∀ asset, after.waits asset poolId = s.waits asset poolId) ∧
      ∀ manager currency, after.waitsOn manager currency poolId = s.waitsOn manager currency poolId := by
  have waits : ∀ asset, after.waits asset poolId = s.waits asset poolId := by
    intro asset
    unfold State.waits
    rw [quiet.pending]
    by_cases registered : (s.pools poolId).hook = 0
    · simp [(custody.vacant poolId registered).2]
    · rw [stable.pools poolId registered]
  refine ⟨?_, waits, ?_⟩
  · intro asset
    unfold State.owed
    rw [quiet.received, quiet.paid]
    by_cases registered : (s.pools poolId).hook = 0
    · simp [(custody.vacant poolId registered).1]
    · rw [stable.pools poolId registered]
  · intro manager currency
    unfold State.waitsOn
    rw [quiet.manager, waits currency]

/-- The parts of the custody that no figure decides. -/
theorem Custody.registry (custody : Custody c way s) (stable : Stable c s after)
    (quiet : ∀ poolId, (after.pools poolId).hook = 0 →
      (after.accounts poolId).totalReceived = (s.accounts poolId).totalReceived ∧
      (after.accounts poolId).pendingClaims = (s.accounts poolId).pendingClaims) :
    (∀ poolId, (after.pools poolId).hook = 0 → (after.accounts poolId).totalReceived = 0 ∧
      (after.accounts poolId).pendingClaims = 0) ∧
    ∀ poolId, (after.pools poolId).quote ≠ 0 → (after.pools poolId).quote ≠ c.nativeUsdcView := by
  constructor
  · intro poolId blank
    obtain ⟨received, pending⟩ := quiet poolId blank
    rw [received, pending]
    exact custody.vacant poolId (stable.vacant poolId blank ▸ blank)
  · intro poolId token
    rcases stable.fresh poolId token with same | other
    · rw [same] at token ⊢
      exact custody.viewless poolId token
    · exact other

/-- Nothing moved but what is on its way, and that is covered. -/
theorem Custody.quiet (custody : Custody c way s) (split : Split after) (stable : Stable c s after)
    (figures : ∀ poolId, (after.accounts poolId).figures = (s.accounts poolId).figures)
    (reserved : after.reservedClaims = s.reservedClaims)
    (claims : ∀ manager currency, s.world.claims manager currency ≤ after.world.claims manager currency)
    (covered : ∀ asset due waiting, Totals (s.owed asset) due →
      due + way asset ≤ s.world.balanceOfSelf c asset + waiting →
      due + later asset ≤ after.world.balanceOfSelf c asset + waiting) : Custody c later after := by
  have quiet := fun poolId => quiet_of_figures (figures poolId)
  obtain ⟨vacant, viewless⟩ := custody.registry stable
    (fun poolId _ => ⟨(quiet poolId).received, (quiet poolId).pending⟩)
  refine ⟨split, vacant, ?_, viewless, ?_, ?_, ?_⟩
  · intro poolId unset
    rw [(quiet poolId).pending]
    exact custody.issued poolId ((quiet poolId).manager ▸ unset)
  · intro manager currency
    rw [reserved]
    exact (custody.reserved manager currency).of_eq
      (fun poolId => (custody.entries stable (quiet poolId)).2.2 manager currency) rfl
  · intro manager currency
    rw [reserved]
    exact (custody.backed manager currency).trans (claims manager currency)
  · intro asset
    obtain ⟨due, waiting, owes, waits, enough⟩ := custody.covered asset
    exact ⟨due, waiting,
      owes.of_eq (fun poolId => (custody.entries stable (quiet poolId)).1 asset) rfl,
      waits.of_eq (fun poolId => (custody.entries stable (quiet poolId)).2.1 asset) rfl,
      covered asset due waiting owes enough⟩

/-- One pool moved: what it owes, waits for and has on its way moves with the balance. -/
theorem Custody.moved (custody : Custody c way s) (registered : (s.pools poolId).hook ≠ 0) (split : Split after)
    (stable : Stable c s after)
    (others : ∀ other, other ≠ poolId → (after.accounts other).figures = (s.accounts other).figures)
    (issued : (after.accounts poolId).claimsManager = 0 → (after.accounts poolId).pendingClaims = 0)
    (reserved : ∀ manager currency,
      after.reservedClaims manager currency + s.waitsOn manager currency poolId =
        s.reservedClaims manager currency + after.waitsOn manager currency poolId)
    (backed : ∀ manager currency, after.reservedClaims manager currency ≤ after.world.claims manager currency)
    (flow : ∀ asset, later asset + s.world.balanceOfSelf c asset + after.owed asset poolId +
        s.waits asset poolId ≤
      way asset + after.world.balanceOfSelf c asset + s.owed asset poolId + after.waits asset poolId) :
    Custody c later after := by
  have pool := stable.pools poolId registered
  have entries := fun other ne => custody.entries stable (quiet_of_figures (others other ne))
  obtain ⟨vacant, viewless⟩ := custody.registry stable (by
    intro other blank
    by_cases same : other = poolId
    · subst same
      exact absurd (pool ▸ blank) registered
    · have quiet := quiet_of_figures (others other same)
      exact ⟨quiet.received, quiet.pending⟩)
  refine ⟨split, vacant, ?_, viewless, ?_, backed, ?_⟩
  · intro other unset
    by_cases same : other = poolId
    · subst same
      exact issued unset
    · have quiet := quiet_of_figures (others other same)
      rw [quiet.pending]
      exact custody.issued other (quiet.manager ▸ unset)
  · intro manager currency
    exact (custody.reserved manager currency).moved poolId
      (fun other ne => (entries other ne).2.2 manager currency) (reserved manager currency)
  · intro asset
    obtain ⟨due, waiting, owes, waits, enough⟩ := custody.covered asset
    have owed := owes.entry_le poolId
    have waited := waits.entry_le poolId
    refine ⟨due - s.owed asset poolId + after.owed asset poolId,
      waiting - s.waits asset poolId + after.waits asset poolId,
      owes.moved poolId (fun other ne => (entries other ne).1 asset) (by omega),
      waits.moved poolId (fun other ne => (entries other ne).2.1 asset) (by omega), ?_⟩
    have moved := flow asset
    omega

/-- A registered pool's entries, by its asset. -/
theorem owed_own (s : State) (poolId : PoolId) (asset : Address) : s.owed asset poolId =
    if asset = (s.pools poolId).quote then
      (s.accounts poolId).totalReceived - (s.accounts poolId).totalPaid else 0 := by
  simp only [State.owed, eq_comm]

theorem waits_own (s : State) (poolId : PoolId) (asset : Address) : s.waits asset poolId =
    if asset = (s.pools poolId).quote then (s.accounts poolId).pendingClaims else 0 := by
  simp only [State.waits, eq_comm]

theorem more_own (way : OnWay) (asset other : Address) (amount : Nat) :
    way.more asset amount other = way other + if other = asset then amount else 0 := by
  unfold OnWay.more
  by_cases same : other = asset
  · subst same
    simp
  · simp [same]

theorem credited_custody (custody : Custody c (way.more (s.pools poolId).quote amount) s)
    (registered : (s.pools poolId).hook ≠ 0) (credited : Credited c poolId amount s after) : Custody c way after := by
  have pool := credited.stable.pools poolId registered
  have account := credited.account
  have settled := custody.split.settled poolId
  have same : ∀ asset, after.waits asset poolId = s.waits asset poolId := by
    intro asset
    rw [waits_own, waits_own, pool, account.pending]
  refine custody.moved registered (credited.split custody.split) credited.stable credited.others
    ?_ ?_ ?_ ?_
  · rw [account.manager, account.pending]
    exact custody.issued poolId
  · intro manager currency
    simp only [State.waitsOn, same, account.manager, credited.reserved]
  · intro manager currency
    rw [credited.reserved]
    exact (custody.backed manager currency).trans (credited.spares.claims manager currency)
  · intro asset
    have balance := credited.spares.balance asset
    rw [same, owed_own, owed_own, pool, account.received, account.paid, more_own]
    split_ifs <;> omega

theorem taken_custody (custody : Custody c way s) (registered : (s.pools poolId).hook ≠ 0)
    (held : amount ≤ (s.accounts poolId).accrued bucket) :
    Custody c (way.more (s.pools poolId).quote amount) (s.taken poolId bucket amount) := by
  have account : (s.taken poolId bucket amount).accounts poolId = { s.accounts poolId with
      accrued := Function.update (s.accounts poolId).accrued bucket
        ((s.accounts poolId).accrued bucket - amount)
      totalPaid := (s.accounts poolId).totalPaid + amount } := by
    simp [State.taken, State.setAccount]
  have enough := custody.split.accrued_le poolId bucket
  have same : ∀ asset, (s.taken poolId bucket amount).waits asset poolId = s.waits asset poolId := by
    intro asset
    rw [waits_own, waits_own, account]
    rfl
  refine custody.moved registered (taken_split custody.split held) (.same rfl) ?_ ?_ ?_
    custody.backed ?_
  · intro other ne
    simp [State.taken, State.setAccount, ne]
  · rw [account]
    exact custody.issued poolId
  · intro manager currency
    simp only [State.waitsOn, same, account]
    rfl
  · intro asset
    have pools : (s.taken poolId bucket amount).pools = s.pools := rfl
    have world : (s.taken poolId bucket amount).world = s.world := rfl
    rw [same, owed_own, owed_own, account, pools, world, more_own]
    by_cases same : asset = (s.pools poolId).quote
    · simp only [if_pos same]
      omega
    · simp only [if_neg same]
      omega

theorem claimed_custody {manager : Address} (custody : Custody c way s) (registered : (s.pools poolId).hook ≠ 0)
    (real : manager ≠ 0) (issuer : (s.accounts poolId).claimsManager = 0 ∨ (s.accounts poolId).claimsManager = manager)
    (backed : s.reservedClaims manager (s.pools poolId).quote + amount ≤
      s.world.claims manager (s.pools poolId).quote) :
    Custody c (way.more (s.pools poolId).quote amount) (s.claimed poolId manager amount) := by
  have account : (s.claimed poolId manager amount).accounts poolId = { s.accounts poolId with
      claimsManager := manager, pendingClaims := (s.accounts poolId).pendingClaims + amount } := by
    simp [State.claimed, State.setAccount]
  have booked : ∀ m currency, (s.claimed poolId manager amount).reservedClaims m currency =
      s.reservedClaims m currency +
        if m = manager ∧ currency = (s.pools poolId).quote then amount else 0 := by
    intro m currency
    simp only [State.claimed, State.setAccount, State.reserve]
    by_cases own : m = manager
    · subst own
      by_cases same : currency = (s.pools poolId).quote
      · subst same
        simp
      · simp [same]
    · simp [own]
  have split : Split (s.claimed poolId manager amount) :=
    have move : Move c (way, s)
        (way.more (s.pools poolId).quote amount, s.claimed poolId manager amount) :=
      .books poolId manager amount registered real issuer backed
    move_split move custody.split
  refine custody.moved registered split (.same rfl) ?_ ?_ ?_ ?_ ?_
  · intro other ne
    simp [State.claimed, State.setAccount, State.reserve, ne]
  · rw [account]
    exact fun unset => absurd unset real
  · intro m currency
    have unset := custody.issued poolId
    simp only [State.waitsOn, waits_own, account, booked]
    simp only [State.claimed, State.setAccount, State.reserve]
    by_cases same : currency = (s.pools poolId).quote
    · rcases issuer with none | set
      · have nothing := unset none
        simp only [same, and_true, if_true, nothing]
        by_cases own : m = manager
        · simp [own]
        · simp [own, Ne.symm own]
      · simp only [same, and_true, if_true, set]
        by_cases own : m = manager
        · simp [own]
          omega
        · simp [own, Ne.symm own]
    · simp [same]
  · intro m currency
    rw [booked]
    split_ifs with own
    · obtain ⟨rfl, rfl⟩ := own
      exact backed
    · exact custody.backed m currency
  · intro asset
    have pools : (s.claimed poolId manager amount).pools = s.pools := rfl
    have world : (s.claimed poolId manager amount).world = s.world := rfl
    rw [owed_own, owed_own, waits_own, waits_own, account, pools, world, more_own]
    by_cases same : asset = (s.pools poolId).quote
    · simp only [if_pos same]
      omega
    · simp only [if_neg same]
      omega

theorem redeemed_custody (custody : Custody c way s) (registered : (s.pools poolId).hook ≠ 0)
    (redeemed : Redeems c poolId s after) : Custody c way after := by
  have pool := redeemed.stable.pools poolId registered
  obtain ⟨_, _, received, paid, pending, manager⟩ := figures_spec redeemed.cleared
  have split : Split after :=
    have move : Move c (way, s) (way, after) := .redeems poolId registered redeemed
    move_split move custody.split
  have booked : ∀ m currency, after.reservedClaims m currency + (if m = (s.accounts poolId).claimsManager ∧
      currency = (s.pools poolId).quote then (s.accounts poolId).pendingClaims else 0) =
        s.reservedClaims m currency := by
    intro m currency
    have part := redeemed.booked
    rw [redeemed.reserved]
    simp only [State.reserve]
    by_cases own : m = (s.accounts poolId).claimsManager
    · subst own
      by_cases same : currency = (s.pools poolId).quote
      · subst same
        simp only [Function.update_self, and_self, if_true]
        omega
      · simp [same]
    · simp [own]
  refine custody.moved registered split redeemed.stable redeemed.others ?_ ?_ ?_ ?_
  · exact fun _ => pending
  · intro m currency
    have moved := booked m currency
    simp only [State.waitsOn, waits_own, pool, pending, manager]
    simp only [eq_comm (a := m)] at moved
    by_cases own : (s.accounts poolId).claimsManager = m
    · by_cases same : currency = (s.pools poolId).quote
      · simp only [own, same, and_self, if_true] at moved ⊢
        omega
      · simp only [own, same, and_false, if_false] at moved ⊢
        omega
    · simp only [own, false_and, if_false] at moved ⊢
      omega
  · intro m currency
    have moved := booked m currency
    have before := custody.backed m currency
    have left := redeemed.claims m currency
    omega
  · intro asset
    have arrived := redeemed.held asset
    rw [owed_own, owed_own, waits_own, waits_own, pool, received, paid, pending]
    simp only
    split_ifs at arrived ⊢ <;> omega

/-- Every move keeps the custody, with what is on its way as the move says. -/
theorem move_custody {x y : OnWay × State} (move : Move c x y) (custody : Custody c x.1 x.2) : Custody c y.1 y.2 := by
  have split := move_split move custody.split
  cases move with
  | keeps unmoved =>
    refine custody.quiet split unmoved.stable unmoved.figures unmoved.reserved unmoved.spares.claims ?_
    intro asset due waiting _ enough
    have balance := unmoved.spares.balance asset
    simp only at enough ⊢
    omega
  | arrives asset amount unmoved arrived =>
    refine custody.quiet split unmoved.stable unmoved.figures unmoved.reserved unmoved.spares.claims ?_
    intro other due waiting _ enough
    have balance := unmoved.spares.balance other
    simp only [more_own] at enough ⊢
    split_ifs with same
    · subst same
      omega
    · omega
  | books poolId manager amount registered real issuer backed =>
    exact claimed_custody custody registered real issuer backed
  | credits poolId amount registered credited => exact credited_custody custody registered credited
  | takes poolId bucket amount registered held => exact taken_custody custody registered held
  | redeems poolId registered redeemed => exact redeemed_custody custody registered redeemed
  | leaves asset amount left =>
    refine custody.quiet split left.stable left.figures left.reserved left.claims ?_
    intro other due waiting owes enough
    by_cases same : other = asset
    · subst same
      have drained := left.drained
      simp only [more_own, if_true, nothing] at enough ⊢
      omega
    · simp only [more_own, if_neg same, nothing] at enough ⊢
      rcases left.spared other same with ⟨view, token⟩ | spared
      · -- no pool is in the view of the native balance
        have none : due = 0 := by
          refine owes.unique (Totals.zero.of_eq (fun poolId => ?_) rfl)
          unfold State.owed
          refine if_neg fun quoted => ?_
          exact custody.viewless poolId (quoted ▸ token) (quoted.trans view)
        omega
      · omega

theorem Moves.custody (moves : Moves c s after) (custody : Custody c nothing s) : Custody c nothing after := by
  have kept : ∀ x y : OnWay × State, Relation.ReflTransGen (Move c) x y →
      Custody c x.1 x.2 → Custody c y.1 y.2 := by
    intro x y chain initially
    induction chain with
    | refl => exact initially
    | tail _ move ih => exact move_custody move ih
  exact kept _ _ moves custody

/-- A bucket was paid: its credit moved to what its pool has paid, the pool's claims were
redeemed on the way, and nothing else moved. -/
structure PaidOut (s after : State) (poolId : PoolId) (bucket : Bucket) (amount : Nat) : Prop where
  held : amount ≤ (s.accounts poolId).accrued bucket
  account : (after.accounts poolId).figures = { s.accounts poolId with
    accrued := Function.update (s.accounts poolId).accrued bucket
      ((s.accounts poolId).accrued bucket - amount)
    totalPaid := (s.accounts poolId).totalPaid + amount
    pendingClaims := 0 : Account }.figures
  others : ∀ other, other ≠ poolId → (after.accounts other).figures = (s.accounts other).figures
  reserved : after.reservedClaims = (s.reserve (s.accounts poolId).claimsManager
    (s.pools poolId).quote (s.reservedClaims (s.accounts poolId).claimsManager
      (s.pools poolId).quote - (s.accounts poolId).pendingClaims)).reservedClaims

theorem paid_out {middle : State} (held : amount ≤ (s.accounts poolId).accrued bucket)
    (redeems : Redeems c poolId (s.taken poolId bucket amount) middle)
    (leaves : Leaves c (s.pools poolId).quote amount middle after) : PaidOut s after poolId bucket amount := by
  have account : (s.taken poolId bucket amount).accounts poolId = { s.accounts poolId with
      accrued := Function.update (s.accounts poolId).accrued bucket
        ((s.accounts poolId).accrued bucket - amount)
      totalPaid := (s.accounts poolId).totalPaid + amount } := by
    simp [State.taken, State.setAccount]
  refine ⟨held, ?_, ?_, ?_⟩
  · rw [leaves.figures poolId, redeems.cleared, account]
  · intro other ne
    rw [leaves.figures other, redeems.others other ne]
    simp [State.taken, State.setAccount, ne]
  · rw [leaves.reserved, redeems.reserved, account]
    rfl

/-- A guarded payment, seen from outside: nothing at all has changed, or it was made in full. -/
theorem settled {inner : State} {sixDecimals : Bool} (honest : Honest c env) (free : s.entered = false)
    (unarmed : s.redemptionCallback = none)
    (view : sixDecimals = true → c.nativeUsdcView ≠ 0 ∧ (s.pools poolId).quote = 0)
    (done : pay c { s with entered := true } env poolId bucket amount sixDecimals = .ok (inner, paid)) :
    paid = false ∧ { inner with entered := false } = s ∨
      paid = true ∧ PaidOut s { inner with entered := false } poolId bucket amount := by
  rcases pay_ok honest (by rfl) (by exact unarmed) (by exact view) done with
    ⟨failed, rfl⟩ | ⟨made, _, held, middle, redeems, leaves⟩
  · exact .inl ⟨failed, by rw [← free]⟩
  · have out := paid_out held redeems leaves
    exact .inr ⟨made, out.held, out.account, out.others, out.reserved⟩

end Solonpad.FeeLedger
