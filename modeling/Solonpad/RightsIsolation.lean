import Solonpad.RightsBacking

/-!
Calls of the rights contract, one by one. A claim draws from the ledger what its pool still owes,
pays it out of what is held for that pool, and leaves everything as it was when the owner could not
be paid; the other calls move no right's money at all.
-/

namespace Solonpad.CreatorRights

open Checked Transition RunningTotal
open Chain (Address)
open FeeLedger (PoolId creator World Richer OnWay nothing Split Owed Stable Delivers Pays)

variable {c : Config} {s after : State} {env : Env} {spare : OnWay} {asset receiver owner : Address}
  {amount : Nat} {poolId : PoolId} {id : TokenId}

theorem nonReentrant_ok {α : Type} (s : State) (body : State → Tx (State × α)) (after : State)
    (value : α) : nonReentrant s body = .ok (after, value) ↔ s.entered = false ∧
      ∃ inner, body { s with entered := true } = .ok (inner, value) ∧
        after = { inner with entered := false } := by
  simp only [nonReentrant, bind_ok, require_ok, pure_ok, Prod.exists, Prod.mk.injEq]
  constructor
  · rintro ⟨_, free, inner, _, ran, rfl, rfl⟩
    exact ⟨free, inner, ran, rfl⟩
  · rintro ⟨free, inner, ran, rfl⟩
    exact ⟨(), free, inner, value, ran, rfl, rfl⟩

/-- The lock is no figure. -/
theorem Backed.relock (backed : Backed c spare s) (entered : Bool) : Backed c spare { s with entered := entered } :=
  ⟨backed.unarmed, backed.split, backed.owed, backed.vacant, backed.viewless, backed.minted,
    backed.owned, backed.first, backed.fresh, backed.covered, backed.backed⟩

/-! Sending what is spare. -/

/-- Balances are no part of what grows. -/
theorem Grows.unsent {before last : FeeLedger.State} {world : World}
    (grows : Grows c (before.setWorld world) last) : Grows c before last :=
  ⟨⟨grows.stable.pools, grows.stable.vacant, grows.stable.fresh⟩, grows.delivered⟩

theorem Backed.send (backed : Backed c (nothing.more asset amount) s) (world : World)
    (left : s.ledger.world.balanceOf c.self asset ≤ world.balanceOf c.self asset + amount)
    (others : ∀ other, other ≠ asset → other = c.ledger.nativeUsdcView ∧ other ≠ 0 ∨
      s.ledger.world.balanceOf c.self other ≤ world.balanceOf c.self other) :
    Backed c nothing (s.setWorld world) := by
  refine ⟨backed.unarmed, backed.split.same (fun _ => ⟨rfl, rfl, rfl, rfl⟩) rfl, backed.owed,
    backed.vacant, backed.viewless, backed.minted, backed.owned, backed.first, backed.fresh, backed.covered,
    fun other => ?_⟩
  obtain ⟨total, sums, covers⟩ := backed.backed other
  by_cases same : other = asset
  · subst same
    have spare : nothing.more other amount other = amount := by simp [FeeLedger.OnWay.more, nothing]
    rw [spare] at covers
    exact ⟨total, sums, by simp only [nothing, State.setWorld, FeeLedger.State.setWorld]; omega⟩
  · have spare : nothing.more asset amount other = 0 := by simp [FeeLedger.OnWay.more, nothing, same]
    rw [spare] at covers
    rcases others other same with ⟨rfl, token⟩ | kept
    · -- no pool is in the view of the native balance
      refine ⟨0, Totals.zero.of_eq (fun poolId => held_none ?_) rfl, Nat.zero_le _⟩
      rintro ⟨_, quoted⟩
      have view : (s.ledger.pools poolId).quote = c.ledger.nativeUsdcView := quoted
      exact backed.viewless poolId (view ▸ token) view
    · exact ⟨total, sums, covers.trans kept⟩

/-- Money that comes in is spare. -/
theorem Backed.arrive (backed : Backed c nothing s) (amount : Nat) :
    Backed c (nothing.more 0 amount) (s.setWorld { s.ledger.world with
      coins := Function.update s.ledger.world.coins c.self
        (s.ledger.world.coins c.self + amount) }) := by
  refine ⟨backed.unarmed, backed.split.same (fun _ => ⟨rfl, rfl, rfl, rfl⟩) rfl, backed.owed,
    backed.vacant, backed.viewless, backed.minted, backed.owned, backed.first, backed.fresh,
    backed.covered, fun asset => ?_⟩
  obtain ⟨total, sums, covers⟩ := backed.backed asset
  refine ⟨total, sums, ?_⟩
  by_cases coin : asset = 0
  · subst coin
    simp only [nothing, World.balanceOf, if_true, Nat.add_zero] at covers
    simp [FeeLedger.OnWay.more, nothing, State.setWorld, FeeLedger.State.setWorld, World.balanceOf]
    omega
  · simp only [World.balanceOf, coin, if_false] at covers
    simpa [FeeLedger.OnWay.more, State.setWorld, FeeLedger.State.setWorld, World.balanceOf,
      coin] using covers

theorem Backed.spend {more : OnWay} (backed : Backed c more s) (less : ∀ asset, spare asset ≤ more asset) :
    Backed c spare s := by
  refine ⟨backed.unarmed, backed.split, backed.owed, backed.vacant, backed.viewless, backed.minted,
    backed.owned, backed.first, backed.fresh, backed.covered, fun asset => ?_⟩
  obtain ⟨total, sums, covers⟩ := backed.backed asset
  exact ⟨total, sums, (Nat.add_le_add_left (less asset) _).trans covers⟩

theorem sendNative_backed {k : Nat} {error : RightsError} (backed : Backed c (nothing.more 0 amount) s)
    (apart : c.self ≠ c.ledger.self) (foreign : ∀ k middle, Meanwhile c middle (env.foreign k middle))
    (done : sendNative c s env receiver amount k error = .ok after) :
    Backed c nothing after ∧ Grows c s.ledger after.ledger ∧ after.paid = s.paid ∧
      after.tokenOfPool = s.tokenOfPool := by
  simp only [sendNative, bind_ok, require_ok] at done
  obtain ⟨_, ⟨enough, other⟩, sent⟩ := done
  have sending := backed.send { s.ledger.world with
      coins := Function.update (Function.update s.ledger.world.coins c.self
        (s.ledger.world.coins c.self - amount)) receiver
          (Function.update s.ledger.world.coins c.self
            (s.ledger.world.coins c.self - amount) receiver + amount) }
    (by simp [World.balanceOf, Function.update_of_ne (Ne.symm other)]; omega)
    (fun asset ne => .inr (by simp [World.balanceOf, ne]))
  obtain ⟨later, grows, paid, tokens⟩ := sending.external apart foreign sent
  exact ⟨later, grows.unsent, paid, tokens⟩

theorem sendToken_backed {token : Address} {units : Nat} {shared : Bool}
    (backed : Backed c (nothing.more asset amount) s) (apart : c.self ≠ c.ledger.self)
    (foreign : ∀ k middle, Meanwhile c middle (env.foreign k middle)) (debit : env.debit ≤ units)
    (plain : shared = false → token = asset ∧ units = amount ∧ asset ≠ 0)
    (view : shared = true → token = c.ledger.nativeUsdcView ∧ asset = 0 ∧ units * 10 ^ 12 = amount)
    (done : sendToken c s env token owner units amount shared = .ok after) :
    Backed c nothing after ∧ Grows c s.ledger after.ledger ∧ after.paid = s.paid ∧
      after.tokenOfPool = s.tokenOfPool := by
  simp only [sendToken, bind_ok] at done
  obtain ⟨last, sent, rest⟩ := done
  have same : after = last := by
    simp only [sub_ok, require_ok, ite_ok, bind_ok, pure_ok] at rest
    obtain ⟨_, _, _, _, ⟨_, _, _, _, _, rfl⟩ | ⟨_, rfl⟩⟩ := rest
    · rfl
    · rfl
  subst same
  have sending := backed.send { s.ledger.world with
      tokens := Function.update s.ledger.world.tokens token
        (Function.update env.row c.self (s.ledger.world.tokens token c.self - env.debit))
      coins := if shared = true then
          Function.update env.coins c.self (s.ledger.world.coins c.self - env.debit * 10 ^ 12)
        else s.ledger.world.coins } ?_ ?_
  · obtain ⟨later, grows, paid, tokens⟩ := sending.external apart foreign sent
    exact ⟨later, grows.unsent, paid, tokens⟩
  · cases shared with
    | false =>
      obtain ⟨rfl, rfl, real⟩ := plain rfl
      simp [World.balanceOf, real]
      omega
    | true =>
      obtain ⟨_, rfl, whole⟩ := view rfl
      simp [World.balanceOf]
      omega
  · intro other ne
    cases shared with
    | false =>
      obtain ⟨rfl, _, _⟩ := plain rfl
      exact .inr (by simp [World.balanceOf, Function.update_of_ne ne])
    | true =>
      obtain ⟨rfl, rfl, _⟩ := view rfl
      by_cases viewed : other = c.ledger.nativeUsdcView
      · exact .inl ⟨viewed, ne⟩
      · exact .inr (by simp [World.balanceOf, ne, Function.update_of_ne viewed])

/-! Claims. -/

/-- The ledger's part of a claim: the bucket pays what the pool has not delivered yet. -/
theorem pull_backed {needed : Nat} (backed : Backed c nothing s) (apart : c.self ≠ c.ledger.self) (real : c.self ≠ 0)
    (honest : FeeLedger.Honest c.ledger env.ledger)
    (gentle : FeeLedger.Gentle c.ledger c.self s.ledger
      ⟨{ env.ledger with sender := c.self }, .claim poolId creator needed⟩)
    {paid : TokenId → Nat} (done : pull c { s with paid := paid } env poolId needed = .ok after) :
    ∃ ledger, after = { s with paid := paid, ledger := ledger } ∧
      Backed c nothing { s with ledger := ledger } ∧ Grows c s.ledger ledger ∧
      (needed = 0 ∨ ledger.delivered poolId = s.ledger.delivered poolId + needed) := by
  simp only [pull, ite_ok, pure_ok] at done
  rcases done with ⟨_, done⟩ | ⟨none, rfl⟩
  · split at done
    · next ledger claimed =>
      simp only [pure_ok] at done
      subst done
      have accepted : FeeLedger.accepts c.ledger s.ledger
          ⟨{ env.ledger with sender := c.self }, .claim poolId creator needed⟩ ledger := by
        refine ⟨⟨apart, real⟩, honest, ?_⟩
        simp only [FeeLedger.step, claimed]
        rfl
      obtain ⟨later, grows⟩ := backed.call apart gentle accepted
      have pays := FeeLedger.claim_pays (by exact honest) backed.unarmed backed.owed apart gentle claimed
      exact ⟨ledger, rfl, later, grows, .inr pays.more⟩
    · simp [throw_ok] at done
  · exact ⟨s.ledger, rfl, backed, .refl _, .inl (not_not.mp none)⟩

/-- An owner is paid from what is held for his own pool. -/
theorem payment_backed {payoutMode : Nat} (backed : Backed c nothing s) (apart : c.self ≠ c.ledger.self)
    (real : c.self ≠ 0) (owned : s.owners id ≠ 0) (foreign : ∀ k middle, Meanwhile c middle (env.foreign k middle))
    (honest : FeeLedger.Honest c.ledger env.ledger)
    (gentle : ∀ needed, FeeLedger.Gentle c.ledger c.self s.ledger
      ⟨{ env.ledger with sender := c.self }, .claim (s.poolOf id) creator needed⟩)
    (debit : env.debit ≤ if payoutMode = 1 then amount / 10 ^ 12 else amount)
    (native : payoutMode = 1 → s.quoteAsset id = 0 ∧ c.ledger.nativeUsdcView ≠ 0 ∧ amount / 10 ^ 12 * 10 ^ 12 = amount)
    (done : payment c (s.setPaid id (s.paid id + amount)) env id owner amount payoutMode = .ok after) :
    Backed c nothing after ∧ Grows c s.ledger after.ledger ∧
      after.paid = Function.update s.paid id (s.paid id + amount) ∧
      after.tokenOfPool = s.tokenOfPool ∧
      s.paid id + amount ≤ after.ledger.delivered (s.poolOf id) := by
  simp only [payment, bind_ok, require_ok, sub_ok] at done
  obtain ⟨_, _, delivered, ⟨within, rfl⟩, last, pulled, done⟩ := done
  obtain ⟨ledger, rfl, later, grows, drawn⟩ := pull_backed backed apart real honest (gentle _) pulled
  have fetched : s.paid id + amount ≤ ledger.delivered (s.poolOf id) := by
    have before := grows.delivered (s.poolOf id)
    have figure : s.ledger.delivered (s.poolOf id) =
        (s.ledger.accounts (s.poolOf id)).totalReceived / 10 -
          (s.ledger.accounts (s.poolOf id)).accrued creator := rfl
    simp only [State.setPaid, Function.update_self] at drawn
    omega
  have paying := later.pay owned fetched
  have kept : Backed c nothing after ∧ Grows c ledger after.ledger ∧
      after.paid = Function.update s.paid id (s.paid id + amount) ∧
        after.tokenOfPool = s.tokenOfPool := by
    simp only [ite_ok] at done
    rcases done with ⟨shared, ⟨viewless, _⟩ | ⟨_, done⟩⟩ | ⟨plain, ⟨coin, done⟩ | ⟨token, done⟩⟩
    · exact absurd viewless (native shared).2.1
    · obtain ⟨coin, view, whole⟩ := native shared
      rw [if_pos shared] at debit
      exact sendToken_backed paying apart foreign debit (fun no => absurd no (by decide))
        (fun _ => ⟨rfl, coin, whole⟩) done
    · have quoted : s.quoteAsset id = 0 := coin
      simp only [quoted] at paying
      exact sendNative_backed paying apart foreign done
    · rw [if_neg plain] at debit
      exact sendToken_backed paying apart foreign debit (fun _ => ⟨rfl, rfl, token⟩)
        (fun no => absurd no (by decide)) done
  obtain ⟨final, grown, paid, tokens⟩ := kept
  exact ⟨final, grows.trans grown, paid, tokens, fetched.trans (grown.delivered _)⟩

/-- What a claim leaves, paid or not. -/
inductive Claimed (c : Config) (s : State) (id : TokenId) (amount : Nat) (after : State) : Bool → Prop
  | failed (same : after = s) : Claimed c s id amount after false
  | paid (grows : Grows c s.ledger after.ledger) (some : amount ≠ 0)
      (booked : after.paid = Function.update s.paid id (s.paid id + amount))
      (tokens : after.tokenOfPool = s.tokenOfPool)
      (own : s.paid id + amount ≤ after.ledger.delivered (s.poolOf id)) :
      Claimed c s id amount after true

/-- The amount a claim is for. -/
def payout (amountRaw payoutMode : Nat) : Nat :=
  if payoutMode = 1 then amountRaw / 10 ^ 12 * 10 ^ 12 else amountRaw

/-- What a payment that fails booked is taken back, to the last figure. -/
theorem paid_restored (free : s.entered = false) (id : TokenId) (amount : Nat) :
    { ({ s with entered := true } : State).setPaid id (s.paid id + amount) |>.setPaid id
      ((({ s with entered := true } : State).setPaid id (s.paid id + amount)).paid id - amount) with
        entered := false } = s := by
  have same : ({ s with entered := false } : State) = s := by rw [← free]
  simp only [State.setPaid, Function.update_idem, Function.update_self, Nat.add_sub_cancel,
    Function.update_eq_self, same]

theorem claimCreator_backed {amountRaw payoutMode : Nat} {paid : Bool} (backed : Backed c nothing s)
    (apart : c.self ≠ c.ledger.self) (real : c.self ≠ 0)
    (fair : Fair c s ⟨env, .claimCreator id asset amountRaw payoutMode⟩)
    (done : claimCreator c s env id asset amountRaw payoutMode = .ok (after, paid)) :
    Backed c nothing after ∧ Claimed c s id (payout amountRaw payoutMode) after paid := by
  simp only [claimCreator, nonReentrant_ok, bind_ok, require_ok, add_ok, ownerOf, pure_ok] at done
  obtain ⟨free, inner, ⟨_, ⟨_, owned, _⟩, _, _, _, ⟨rfl, mode⟩, _, native, _, some, _, _, _, _, _,
    ⟨_, rfl⟩, done⟩, rfl⟩ := done
  split at done
  · next final paying =>
    cases done
    have debit : env.debit ≤ if payoutMode = 1 then payout amountRaw payoutMode / 10 ^ 12
        else payout amountRaw payoutMode := by
      have asked : env.debit ≤ if payoutMode = 1 then amountRaw / 10 ^ 12 else amountRaw := fair.debit
      unfold payout
      split
      · next shared =>
        rw [if_pos shared] at asked
        omega
      · next plain => rwa [if_neg plain] at asked
    have shared : payoutMode = 1 → s.quoteAsset id = 0 ∧ c.ledger.nativeUsdcView ≠ 0 ∧
        payout amountRaw payoutMode / 10 ^ 12 * 10 ^ 12 = payout amountRaw payoutMode := by
      intro mode
      obtain ⟨coin, view⟩ := native mode
      refine ⟨coin, view, ?_⟩
      rw [payout, if_pos mode]
      omega
    obtain ⟨later, grows, booked, tokens, own⟩ := payment_backed (backed.relock true) apart real
      owned fair.foreign fair.honest (fun _ => ⟨fair.gentle, fair.pulled, fair.coins⟩) debit shared
      paying
    exact ⟨later.relock false, .paid grows some booked tokens own⟩
  · -- the catch branch undoes the booking, so nothing is left of the attempt
    simp only [bind_ok, sub_ok, pure_ok, Prod.mk.injEq] at done
    obtain ⟨_, ⟨_, rfl⟩, last, rfl⟩ := done
    have undone : ({ inner with entered := false } : State) = s := by
      rw [← last]
      exact paid_restored free id _
    rw [undone]
    exact ⟨backed, .failed rfl⟩

/-! The other calls. -/

theorem fst_ok {α : Type} {call : Tx (State × α)} (done : Prod.fst <$> call = .ok after) :
    ∃ value, call = .ok (after, value) := by
  cases call with
  | error fault => cases done
  | ok result =>
    cases done
    exact ⟨result.2, rfl⟩

theorem update_ok {previous : Address} (done : update s receiver id = .ok (after, previous)) : previous = s.owners id ∧
      ∃ nonces, after = { s with owners := Function.update s.owners id receiver, nonces := nonces } := by
  simp only [update, bind_ok, pure_ok, Prod.mk.injEq] at done
  obtain ⟨nonces, _, rfl, rfl⟩ := done
  exact ⟨rfl, nonces, rfl⟩

/-- A right changes hands: what it was paid and what is held for it stay with it. -/
theorem Backed.transfer (backed : Backed c spare s) (owned : s.owners id ≠ 0) (receiver : Address)
    (nonces : TokenId → Nat) :
    Backed c spare { s with owners := Function.update s.owners id receiver, nonces := nonces } := by
  refine ⟨backed.unarmed, backed.split, backed.owed, backed.vacant, backed.viewless, backed.minted,
    fun other owner => ?_, backed.first, backed.fresh, backed.covered, backed.backed⟩
  by_cases same : other = id
  · subst same
    exact backed.owned other owned
  · simp only [Function.update_of_ne same] at owner
    exact backed.owned other owner

/-- The contract after a mint: its next id is the right to one more pool. -/
def State.minted (s : State) (poolId : PoolId) (owner : Address) (nonces : TokenId → Nat) : State :=
  { s with
    nextTokenId := s.nextTokenId + 1
    tokenOfPool := Function.update s.tokenOfPool poolId s.nextTokenId
    poolOf := Function.update s.poolOf s.nextTokenId poolId
    quoteAsset := Function.update s.quoteAsset s.nextTokenId (s.ledger.pools poolId).quote
    owners := Function.update s.owners s.nextTokenId owner
    nonces := nonces }

theorem Backed.minting (backed : Backed c spare s) (none : s.tokenOfPool poolId = 0) (mine : s.Mine c poolId)
    (owner : Address) (nonces : TokenId → Nat) : Backed c spare (s.minted poolId owner nonces) := by
  have paid : ∀ other, (s.minted poolId owner nonces).paidFor other = s.paidFor other := by
    intro other
    by_cases same : other = poolId
    · subst same
      simp [State.paidFor, State.minted, none, backed.fresh s.nextTokenId le_rfl]
    · simp [State.paidFor, State.minted, same]
  have older : ∀ other, s.tokenOfPool other ≠ 0 → other ≠ poolId := by
    rintro other real rfl
    exact real none
  constructor
  · exact backed.unarmed
  · exact backed.split
  · exact backed.owed
  · exact backed.vacant
  · exact backed.viewless
  · intro other real
    by_cases same : other = poolId
    · subst same
      refine ⟨mine, ?_, ?_, ?_⟩
      · simp [State.minted]
      · simp [State.minted]
      · simp [State.minted]
    · have before : s.tokenOfPool other ≠ 0 := by
        simpa [State.minted, Function.update_of_ne same] using real
      obtain ⟨mine, quote, pool, below⟩ := backed.minted other before
      have apart := Nat.ne_of_lt below
      refine ⟨mine, ?_, ?_, ?_⟩
      · simpa [State.minted, Function.update_of_ne same, apart] using quote
      · simpa [State.minted, Function.update_of_ne same, apart] using pool
      · simp only [State.minted, Function.update_of_ne same]
        exact below.trans (Nat.lt_succ_self _)
  · intro id held
    by_cases same : id = s.nextTokenId
    · subst same
      exact ⟨backed.first, by simp [State.minted]⟩
    · have before : s.owners id ≠ 0 := by
        simpa [State.minted, Function.update_of_ne same] using held
      obtain ⟨real, token⟩ := backed.owned id before
      have ne := older (s.poolOf id) (by rwa [token])
      exact ⟨real, by simpa [State.minted, same, ne] using token⟩
  · exact Nat.succ_ne_zero _
  · intro id beyond
    exact backed.fresh id ((Nat.le_succ _).trans beyond)
  · intro other
    rw [paid other]
    exact backed.covered other
  · intro asset
    obtain ⟨total, sums, covers⟩ := backed.backed asset
    refine ⟨total, sums.of_eq (fun other => ?_) rfl, covers⟩
    simp only [State.held, paid other]
    rfl

theorem mint_backed (backed : Backed c nothing s) (apart : c.self ≠ c.ledger.self)
    (foreign : ∀ k middle, Meanwhile c middle (env.foreign k middle))
    (done : mint c s env poolId owner = .ok (after, id)) : Backed c nothing after := by
  simp only [mint, nonReentrant_ok, bind_ok, require_ok, add_ok, pure_ok, Prod.exists, Prod.mk.injEq,
    not_or, not_not] at done
  obtain ⟨_, inner, ⟨_, _, _, ⟨none, registered, mine⟩, _, ⟨_, rfl⟩, _, _, last, _, updated, _, _, final,
    received, rfl, _⟩, rfl⟩ := done
  obtain ⟨_, nonces, rfl⟩ := update_ok updated
  have minting := (backed.relock true).minting none ⟨registered, mine⟩ owner nonces
  exact (minting.external apart foreign received).1.relock false

theorem safeTransfer_backed {sender : Address} (backed : Backed c spare s) (apart : c.self ≠ c.ledger.self)
    (foreign : ∀ k middle, Meanwhile c middle (env.foreign k middle))
    (done : safeTransfer s env sender receiver id = .ok after) : Backed c spare after := by
  simp only [safeTransfer, bind_ok, require_ok, Prod.exists] at done
  obtain ⟨_, _, last, previous, updated, _, owned, _, _, received⟩ := done
  obtain ⟨rfl, nonces, rfl⟩ := update_ok updated
  exact ((backed.transfer owned receiver nonces).external apart foreign received).1

theorem purchase_backed {order : Purchase} (backed : Backed c nothing s)
    (apart : c.self ≠ c.ledger.self) (foreign : ∀ k middle, Meanwhile c middle (env.foreign k middle))
    (done : purchase c s env order = .ok (after, ())) : Backed c nothing after := by
  simp only [purchase, nonReentrant_ok, bind_ok, require_ok, pure_ok, Prod.mk.injEq, ite_ok] at done
  obtain ⟨_, inner, ⟨_, _, _, _, _, _, _, _, _, _, _, _, _, _, last, moved, final, sent, rfl, _⟩,
    rfl⟩ := done
  have arrived := (backed.relock true).arrive env.value
  have moving := safeTransfer_backed arrived apart foreign moved
  rcases sent with ⟨_, sent⟩ | ⟨none, rfl⟩
  · exact (sendNative_backed moving apart foreign sent).1.relock false
  · rw [not_not.mp none] at moving
    refine (moving.spend fun asset => ?_).relock false
    exact Nat.zero_le _

theorem deployed_backed (world : World) : Backed c nothing (deployed (FeeLedger.deployed world)) where
  unarmed := rfl
  split := FeeLedger.deployed_split world
  owed := fun _ => Nat.zero_le _
  vacant := by simp [FeeLedger.State.delivered, FeeLedger.deployed, FeeLedger.Account.blank, deployed]
  viewless := fun _ token => absurd rfl token
  minted := fun _ none => absurd rfl none
  owned := fun _ none => absurd rfl none
  first := Nat.one_ne_zero
  fresh := fun _ _ => rfl
  covered := by simp [State.paidFor, deployed]
  backed := fun _ => ⟨0, Totals.zero.of_eq (fun _ => held_none (fun mine => mine.1.1 rfl)) rfl,
    Nat.zero_le _⟩

theorem accepts_backed {turn : Turn} (backed : Backed c nothing s) (apart : c.self ≠ c.ledger.self)
    (real : c.self ≠ 0) (taken : accepts c s turn after) : Backed c nothing after := by
  cases turn with
  | ledger turn =>
    obtain ⟨ledger, moved, rfl⟩ := taken
    exact (backed.turn apart moved).1
  | call call =>
    obtain ⟨env, action⟩ := call
    obtain ⟨fair, taken⟩ := taken
    cases action with
    | mint poolId owner =>
      obtain ⟨_, done⟩ := fst_ok taken
      exact mint_backed backed apart fair.foreign done
    | claimCreator id asset amountRaw payoutMode =>
      obtain ⟨_, done⟩ := fst_ok taken
      exact (claimCreator_backed backed apart real fair done).1
    | transferFrom sender receiver id =>
      obtain ⟨_, done⟩ := fst_ok taken
      simp only [transferFrom, checkAuthorized, nonReentrant_ok, bind_ok, require_ok, pure_ok,
        Prod.exists, Prod.mk.injEq] at done
      obtain ⟨_, inner, ⟨_, _, _, ⟨_, owned, _⟩, last, _, updated, _, _, rfl, _⟩, rfl⟩ := done
      obtain ⟨_, nonces, rfl⟩ := update_ok updated
      exact ((backed.relock true).transfer owned receiver nonces).relock false
    | safeTransferFrom sender receiver id =>
      obtain ⟨_, done⟩ := fst_ok taken
      simp only [safeTransferFrom, nonReentrant_ok, bind_ok, pure_ok, Prod.mk.injEq] at done
      obtain ⟨_, inner, ⟨_, _, _, _, last, moved, rfl, _⟩, rfl⟩ := done
      exact (safeTransfer_backed (backed.relock true) apart fair.foreign moved).relock false
    | purchase order =>
      obtain ⟨_, done⟩ := fst_ok taken
      exact purchase_backed backed apart fair.foreign done

theorem reachable_backed {world : World} (apart : c.self ≠ c.ledger.self) (real : c.self ≠ 0)
    (reached : Reachable (accepts c) (deployed (FeeLedger.deployed world)) s) : Backed c nothing s := by
  induction reached with
  | start => exact deployed_backed world
  | next _ taken ih => exact accepts_backed ih apart real taken

/-- A claim that pays takes from its own pool: nothing less is held for any other. -/
theorem Claimed.others (backed : Backed c nothing s) (owned : s.owners id ≠ 0)
    (claimed : Claimed c s id amount after true) :
    after.paidFor (s.poolOf id) = s.paidFor (s.poolOf id) + amount ∧
      ∀ other, other ≠ s.poolOf id → ∀ asset, s.held c asset other ≤ after.held c asset other := by
  cases claimed with
  | paid grows _ booked tokens own =>
    obtain ⟨real, token⟩ := backed.owned id owned
    refine ⟨by simp [State.paidFor, booked, tokens, token, real], fun other ne asset => ?_⟩
    have paid : after.paidFor other = s.paidFor other := by
      by_cases none : s.tokenOfPool other = 0
      · simp [State.paidFor, tokens, none]
      · obtain ⟨_, _, pool, _⟩ := backed.minted other none
        have apart : s.tokenOfPool other ≠ id := by
          rintro rfl
          exact ne pool.symm
        simp [State.paidFor, tokens, booked, none, apart]
    by_cases mine : s.Mine c other ∧ (s.ledger.pools other).quote = asset
    · have pool := grows.stable.pools other mine.1.1
      have later : after.Mine c other ∧ (after.ledger.pools other).quote = asset := by
        unfold State.Mine
        rw [pool]
        exact mine
      rw [held_own mine.1 mine.2, held_own later.1 later.2, paid]
      exact Nat.sub_le_sub_right (grows.delivered other) _
    · rw [held_none mine]
      exact Nat.zero_le _

/-- Every right is paid from what its own pool delivered, and the balance covers what every pool
delivered and its right was not paid. -/
theorem rights_isolated (c : Config) (apart : c.self ≠ c.ledger.self) (real : c.self ≠ 0)
    (world : World) (s : State)
    (reached : Reachable (accepts c) (deployed (FeeLedger.deployed world)) s) :
    (∀ poolId, s.paidFor poolId ≤ s.ledger.delivered poolId ∧
      s.ledger.delivered poolId + (s.ledger.accounts poolId).accrued creator =
        (s.ledger.accounts poolId).totalReceived / 10) ∧
    (∀ asset, ∃ total, Totals (s.held c asset) total ∧
      total ≤ s.ledger.world.balanceOf c.self asset) ∧
    ∀ (env : Env) (id : TokenId) (asset : Address) (amountRaw payoutMode : Nat) (after : State)
      (paid : Bool), Fair c s ⟨env, .claimCreator id asset amountRaw payoutMode⟩ →
      claimCreator c s env id asset amountRaw payoutMode = .ok (after, paid) →
      if paid then
        after.paidFor (s.poolOf id) = s.paidFor (s.poolOf id) + payout amountRaw payoutMode ∧
        after.paidFor (s.poolOf id) ≤ after.ledger.delivered (s.poolOf id) ∧
        ∀ other, other ≠ s.poolOf id → ∀ asset, s.held c asset other ≤ after.held c asset other
      else after = s := by
  have backed := reachable_backed apart real reached
  refine ⟨fun poolId => ⟨backed.covered poolId, ?_⟩, fun asset => ?_, ?_⟩
  · have owed := backed.owed poolId
    rw [FeeLedger.State.delivered]
    omega
  · obtain ⟨total, sums, covers⟩ := backed.backed asset
    exact ⟨total, sums, covers⟩
  · intro env id asset amountRaw payoutMode after paid fair done
    obtain ⟨later, claimed⟩ := claimCreator_backed backed apart real fair done
    cases claimed with
    | failed same => exact same
    | paid grows some booked tokens own =>
      have owned : s.owners id ≠ 0 := by
        simp only [claimCreator, nonReentrant_ok, bind_ok, ownerOf, require_ok] at done
        obtain ⟨_, _, ⟨_, ⟨_, owned, _⟩, _⟩, _⟩ := done
        exact owned
      obtain ⟨more, others⟩ := Claimed.others backed owned (.paid grows some booked tokens own)
      exact ⟨more, later.covered _, others⟩

/-! Runs that can be evaluated. -/

/-- A turn in which the contracts that are reached do nothing of their own. -/
def Quiet : Turn → Prop
  | .call call => (∀ k middle, call.env.foreign k middle = middle) ∧
      ∀ k middle, call.env.ledger.foreign k middle = middle
  | .ledger (some call) => ∀ k middle, call.env.foreign k middle = middle
  | .ledger none => True

/-- What a quiet turn still has to obey. -/
def obeys (s : State) : Turn → Prop
  | .call call =>
      s.ledger.world.tokens (s.ledger.pools (s.poolOf call.action.token)).quote c.self ≤
        call.env.ledger.row c.self ∧
      s.ledger.world.coins c.self ≤ call.env.ledger.coins c.self ∧
      call.env.debit ≤ call.action.units
  | .ledger (some call) => call.env.sender ≠ c.self ∧ FeeLedger.Outside c.ledger call ∧
      s.ledger.world.tokens (call.action.touched c.ledger s.ledger) c.self ≤ call.env.row c.self ∧
      s.ledger.world.coins c.self ≤ call.env.coins c.self
  | .ledger none => False

instance (s : State) (turn : Turn) : Decidable (obeys (c := c) s turn) := by
  cases turn with
  | call call => exact inferInstanceAs (Decidable (_ ∧ _))
  | ledger turn =>
    cases turn with
    | some call => exact inferInstanceAs (Decidable (_ ∧ _))
    | none => exact inferInstanceAs (Decidable False)

def taking (c : Config) (s : State) : Turn → Tx State
  | .call call => step c s call
  | .ledger (some call) =>
    match FeeLedger.step c.ledger s.ledger call with
    | .ok ledger => .ok { s with ledger := ledger }
    | .error _ => .error (.revert .callFailed)
  | .ledger none => .ok s

theorem quiet_reachable (turns : List { turn : Turn // Quiet turn }) (start : State) (test : State → Bool)
    (passes : (run (fun s turn => taking c s turn.val)
      (fun s turn => obeys (c := c) s turn.val) start turns).any test = true) :
    ∃ s, Reachable (accepts c) start s ∧ test s = true := by
  obtain ⟨s, reached, passed⟩ := run_passes _ _ turns start test passes
  refine ⟨s, reached.map (fun turn => turn.val) ?_, passed⟩
  rintro before ⟨turn, quiet⟩ after ⟨obeyed, taken⟩
  cases turn with
  | call call =>
    obtain ⟨pulled, coins, debit⟩ := obeyed
    refine ⟨⟨fun k middle => ?_, ⟨0, fun k middle => ?_⟩, fun k middle => ?_, pulled, coins, debit⟩,
      taken⟩
    · rw [quiet.1 k middle]
      exact .refl
    · rw [quiet.2 k middle]
      exact ⟨middle.world, rfl, .refl _⟩
    · rw [quiet.2 k middle]
      exact .refl _
  | ledger turn =>
    cases turn with
    | none => exact obeyed.elim
    | some call =>
      obtain ⟨other, outside, row, coins⟩ := obeyed
      have foreign : ∀ k middle, call.env.foreign k middle = middle := quiet
      simp only [taking] at taken
      split at taken
      · next ledger moved =>
        cases taken
        refine ⟨ledger, ⟨other, ⟨fun k middle => ?_, row, coins⟩, outside, ⟨0, fun k middle => ?_⟩,
          moved⟩, rfl⟩
        · rw [foreign k middle]
          exact .refl _
        · rw [foreign k middle]
          exact ⟨middle.world, rfl, .refl _⟩
      · cases taken

/-- A ledger environment in which nothing happens but the call. -/
def silent (sender value : Nat) : FeeLedger.Env :=
  { (FeeLedger.plain sender value .receive).env with
    row := fun _ => 10 ^ 6
    coins := fun _ => 10 ^ 6 }

def byLedger (sender value : Nat) (action : FeeLedger.Action) : { turn : Turn // Quiet turn } :=
  ⟨.ledger (some ⟨silent sender value, action⟩), fun _ _ => rfl⟩

def byRights (sender : Nat) (action : Action) : { turn : Turn // Quiet turn } where
  val := .call ⟨⟨sender, 0, 0, fun _ => true, fun _ s => s, silent 0 0, false, false, true, true, 0,
    fun _ => 0, fun _ => 0⟩, action⟩
  property := ⟨fun _ _ => rfl, fun _ _ => rfl⟩

def sample : Config := ⟨21, FeeLedger.sample, 2, 0⟩

/-- Two native pools with a right each; somebody has the first one's money delivered, and its owner
claims more than that. -/
def twoPools : List { turn : Turn // Quiet turn } :=
  [byLedger 2 0 (.registerPool 7 0 0 3 fun bucket => 20 + bucket),
    byLedger 2 0 (.registerPool 8 0 0 3 fun bucket => 20 + bucket),
    byRights 2 (.mint 7 30), byRights 2 (.mint 8 31),
    byLedger 3 5000 (.creditNative 7), byLedger 3 5000 (.creditNative 8),
    byLedger 9 0 (.claim 7 1 300), byLedger 9 0 (.claim 8 1 400),
    byRights 30 (.claimCreator 1 0 450 0)]

theorem rights_isolated_two : ∃ s, Reachable (accepts sample)
      (deployed (FeeLedger.deployed FeeLedger.funded)) s ∧
    s.paidFor 7 = 450 ∧ s.ledger.delivered 7 = 450 ∧ s.ledger.delivered 8 = 400 ∧
    s.paidFor 8 ≤ s.ledger.delivered 8 := by
  obtain ⟨s, reached, passed⟩ := quiet_reachable (c := sample) twoPools
    (deployed (FeeLedger.deployed FeeLedger.funded))
    (fun s => decide (s.paidFor 7 = 450 ∧ s.ledger.delivered 7 = 450 ∧ s.ledger.delivered 8 = 400))
    (by decide)
  obtain ⟨paid, first, second⟩ := of_decide_eq_true passed
  have isolated := rights_isolated sample (by decide) (by decide) FeeLedger.funded s reached
  exact ⟨s, reached, paid, first, second, (isolated.1 8).1⟩

end Solonpad.CreatorRights
