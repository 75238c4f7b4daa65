import Solonpad.CreatorRights

/-!
What the rights contract holds for its pools. By asset, its balance covers what was delivered for
the pools of that asset and not paid out to an owner; and no owner is paid more than what was
delivered for his own pool. A payment first moves the amount from what is held to what is spare,
and then sends what is spare.
-/

namespace Solonpad.CreatorRights

open Checked Transition RunningTotal
open Chain (Address)
open FeeLedger (PoolId creator World Richer OnWay nothing Split Owed Stable Delivers Pays)

variable {c : Config}

/-- What the owners of a pool's right were paid. -/
def State.paidFor (s : State) (poolId : PoolId) : Nat :=
  if s.tokenOfPool poolId = 0 then 0 else s.paid (s.tokenOfPool poolId)

/-- What the contract holds of an asset for a pool. -/
def State.held (c : Config) (s : State) (asset : Address) (poolId : PoolId) : Nat :=
  if (s.ledger.pools poolId).hook ≠ 0 ∧ (s.ledger.pools poolId).beneficiaries creator = c.self ∧
    (s.ledger.pools poolId).quote = asset then s.ledger.delivered poolId - s.paidFor poolId else 0

/-- A pool whose creator bucket pays this contract, in this asset. -/
def State.Mine (c : Config) (s : State) (poolId : PoolId) : Prop :=
  (s.ledger.pools poolId).hook ≠ 0 ∧ (s.ledger.pools poolId).beneficiaries creator = c.self

structure Backed (c : Config) (spare : OnWay) (s : State) : Prop where
  unarmed : s.ledger.redemptionCallback = none
  split : Split s.ledger
  owed : Owed s.ledger
  vacant : ∀ poolId, (s.ledger.pools poolId).hook = 0 → s.ledger.delivered poolId = 0
  viewless : ∀ poolId, (s.ledger.pools poolId).quote ≠ 0 →
    (s.ledger.pools poolId).quote ≠ c.ledger.nativeUsdcView
  minted : ∀ poolId, s.tokenOfPool poolId ≠ 0 → s.Mine c poolId ∧
    s.quoteAsset (s.tokenOfPool poolId) = (s.ledger.pools poolId).quote ∧
      s.poolOf (s.tokenOfPool poolId) = poolId ∧ s.tokenOfPool poolId < s.nextTokenId
  owned : ∀ id, s.owners id ≠ 0 → id ≠ 0 ∧ s.tokenOfPool (s.poolOf id) = id
  first : s.nextTokenId ≠ 0
  fresh : ∀ id, s.nextTokenId ≤ id → s.paid id = 0
  covered : ∀ poolId, s.paidFor poolId ≤ s.ledger.delivered poolId
  backed : ∀ asset, ∃ total, Totals (s.held c asset) total ∧
    total + spare asset ≤ s.ledger.world.balanceOf c.self asset

theorem held_own {s : State} {asset : Address} {poolId : PoolId} (mine : s.Mine c poolId)
    (quoted : (s.ledger.pools poolId).quote = asset) :
    s.held c asset poolId = s.ledger.delivered poolId - s.paidFor poolId :=
  if_pos ⟨mine.1, mine.2, quoted⟩

theorem held_none {s : State} {asset : Address} {poolId : PoolId}
    (other : ¬ (s.Mine c poolId ∧ (s.ledger.pools poolId).quote = asset)) : s.held c asset poolId = 0 :=
  if_neg (fun all => other ⟨⟨all.1, all.2.1⟩, all.2.2⟩)

/-! Turns of the ledger. -/

section

variable {spare : OnWay} {s : State} {ledger : FeeLedger.State}

/-- Where a pool's figures stay, so does what is held for it. -/
theorem Backed.held_same (backed : Backed c spare s) (stable : Stable c.ledger s.ledger ledger)
    {asset : Address} {poolId : PoolId} (same : ledger.delivered poolId = s.ledger.delivered poolId) :
    ({ s with ledger := ledger } : State).held c asset poolId = s.held c asset poolId := by
  by_cases registered : (s.ledger.pools poolId).hook = 0
  · have none := backed.vacant poolId registered
    simp only [State.held, registered, ne_eq, not_true_eq_false, false_and, same, none,
      Nat.zero_sub, ite_self]
  · have pool := stable.pools poolId registered
    simp only [State.held, State.paidFor, pool, same]

theorem Backed.moved (backed : Backed c spare s) (unarmed : ledger.redemptionCallback = none)
    (split : Split ledger) (owed : Owed ledger) (stable : Stable c.ledger s.ledger ledger)
    (delivers : Delivers c.self s.ledger ledger) : Backed c spare { s with ledger := ledger } where
  unarmed := unarmed
  split := split
  owed := owed
  vacant := by
    intro poolId blank
    have pool := stable.vacant poolId blank
    have before : (s.ledger.pools poolId).hook = 0 := pool ▸ blank
    have none := backed.vacant poolId before
    cases delivers with
    | still _ same => exact (same poolId).trans none
    | pays paidFor amount pays =>
      refine (pays.others poolId ?_).trans none
      rintro rfl
      exact pays.registered before
  viewless := by
    intro poolId token
    rcases stable.fresh poolId token with same | other
    · have view := backed.viewless poolId (same ▸ token)
      rwa [same]
    · exact other
  minted := by
    intro poolId exists'
    obtain ⟨⟨registered, mine⟩, quote, pool, below⟩ := backed.minted poolId exists'
    have same := stable.pools poolId registered
    exact ⟨⟨same ▸ registered, same ▸ mine⟩, quote.trans (congrArg _ same.symm), pool, below⟩
  owned := backed.owned
  first := backed.first
  fresh := backed.fresh
  covered := by
    intro poolId
    have before := backed.covered poolId
    cases delivers with
    | still _ same => exact before.trans (Nat.le_of_eq (same poolId).symm)
    | pays paidFor amount pays =>
      by_cases own : poolId = paidFor
      · subst own
        have more := pays.more
        exact before.trans (by simp only; omega)
      · exact before.trans (Nat.le_of_eq (pays.others poolId own).symm)
  backed := by
    intro asset
    obtain ⟨total, sums, enough⟩ := backed.backed asset
    cases delivers with
    | still richer same =>
      have more := richer.balance asset
      exact ⟨total, sums.of_eq (fun poolId => backed.held_same stable (same poolId)) rfl,
        enough.trans more⟩
    | pays paidFor amount pays =>
      have more := pays.richer.balance asset
      have others : ∀ poolId, poolId ≠ paidFor →
          ({ s with ledger := ledger } : State).held c asset poolId = s.held c asset poolId :=
        fun poolId ne => backed.held_same stable (pays.others poolId ne)
      have pool := stable.pools paidFor pays.registered
      by_cases own : s.Mine c paidFor ∧ (s.ledger.pools paidFor).quote = asset
      · obtain ⟨mine, rfl⟩ := own
        have got := pays.got mine.2
        have before := held_own mine rfl
        have covered := backed.covered paidFor
        refine ⟨total + amount, sums.moved paidFor others ?_, by simp only; omega⟩
        have after : ({ s with ledger := ledger } : State).held c (s.ledger.pools paidFor).quote
            paidFor = ledger.delivered paidFor - s.paidFor paidFor := by
          refine held_own ?_ (by simp only [pool])
          unfold State.Mine
          simp only [pool]
          exact mine
        rw [after, before, pays.more]
        omega
      · refine ⟨total, sums.of_eq (fun poolId => ?_) rfl, enough.trans more⟩
        by_cases same : poolId = paidFor
        · subst same
          rw [held_none own]
          refine held_none ?_
          unfold State.Mine
          simp only [pool]
          exact own
        · exact others poolId same

/-- What a turn of the ledger leaves: registered pools, and no less delivered. -/
structure Grows (c : Config) (before after : FeeLedger.State) : Prop where
  stable : Stable c.ledger before after
  delivered : ∀ poolId, before.delivered poolId ≤ after.delivered poolId

theorem Grows.refl (ledger : FeeLedger.State) : Grows c ledger ledger := ⟨.same rfl, fun _ => le_rfl⟩

theorem Grows.trans {first second third : FeeLedger.State} (before : Grows c first second)
    (after : Grows c second third) : Grows c first third :=
  ⟨before.stable.trans after.stable,
    fun poolId => (before.delivered poolId).trans (after.delivered poolId)⟩

theorem delivers_grows {before after : FeeLedger.State} (stable : Stable c.ledger before after)
    (delivers : Delivers c.self before after) : Grows c before after := by
  refine ⟨stable, fun poolId => ?_⟩
  cases delivers with
  | still _ same => exact Nat.le_of_eq (same poolId).symm
  | pays paidFor amount pays =>
    by_cases own : poolId = paidFor
    · rw [own, pays.more]
      exact Nat.le_add_right _ _
    · exact Nat.le_of_eq (pays.others poolId own).symm

theorem Backed.call (backed : Backed c spare s) (apart : c.self ≠ c.ledger.self)
    {call : FeeLedger.Call} (gentle : FeeLedger.Gentle c.ledger c.self s.ledger call)
    (accepted : FeeLedger.accepts c.ledger s.ledger call ledger) :
    Backed c spare { s with ledger := ledger } ∧ Grows c s.ledger ledger := by
  obtain ⟨moves, unarmed⟩ := FeeLedger.step_moves backed.unarmed accepted
  have delivers := FeeLedger.step_delivers backed.unarmed backed.split backed.owed apart gentle
    accepted
  exact ⟨backed.moved unarmed (moves.split backed.split) (moves.owed backed.split backed.owed)
    moves.stable delivers, delivers_grows moves.stable delivers⟩

theorem Backed.turn (backed : Backed c spare s) (apart : c.self ≠ c.ledger.self) {turn : Option FeeLedger.Call}
    (moved : around c s.ledger turn ledger) : Backed c spare { s with ledger := ledger } ∧ Grows c s.ledger ledger := by
  cases turn with
  | none =>
    obtain ⟨world, rfl, _, richer⟩ := moved
    have still : Delivers c.self s.ledger (s.ledger.setWorld world) := .still richer (fun _ => rfl)
    exact ⟨backed.moved backed.unarmed (backed.split.same (fun _ => ⟨rfl, rfl, rfl, rfl⟩) rfl)
      backed.owed (.same rfl) still, delivers_grows (.same rfl) still⟩
  | some call => exact backed.call apart moved.2.1 moved.2.2

/-- Whatever others do meanwhile keeps what is held covered. -/
theorem Backed.around (backed : Backed c spare s) (apart : c.self ≠ c.ledger.self)
    (meanwhile : Meanwhile c s.ledger ledger) :
    Backed c spare { s with ledger := ledger } ∧ Grows c s.ledger ledger := by
  induction meanwhile with
  | refl => exact ⟨backed, .refl _⟩
  | tail _ moved ih =>
    obtain ⟨turn, moved⟩ := moved
    obtain ⟨backed, grows⟩ := ih
    obtain ⟨later, grown⟩ := backed.turn apart moved
    exact ⟨later, grows.trans grown⟩

theorem Backed.external (backed : Backed c spare s) (apart : c.self ≠ c.ledger.self) {env : Env}
    (foreign : ∀ k middle, Meanwhile c middle (env.foreign k middle)) {k : Nat} {after : State}
    (done : external s env k = .ok after) :
    Backed c spare after ∧ Grows c s.ledger after.ledger ∧ after.paid = s.paid ∧
      after.tokenOfPool = s.tokenOfPool := by
  simp only [CreatorRights.external, bind_ok, require_ok, pure_ok] at done
  obtain ⟨_, _, rfl⟩ := done
  obtain ⟨later, grows⟩ := backed.around apart (foreign k s.ledger)
  exact ⟨later, grows, rfl, rfl⟩

end

/-! Payments. -/

/-- A tenth of a pool's money goes from what is held for it to what is spare. -/
theorem Backed.pay {s : State} {id : TokenId} {amount : Nat} (backed : Backed c nothing s) (owned : s.owners id ≠ 0)
    (enough : s.paid id + amount ≤ s.ledger.delivered (s.poolOf id)) :
    Backed c (nothing.more (s.quoteAsset id) amount) (s.setPaid id (s.paid id + amount)) := by
  obtain ⟨real, token⟩ := backed.owned id owned
  have exists' : s.tokenOfPool (s.poolOf id) ≠ 0 := by rwa [token]
  obtain ⟨mine, quote, _, below⟩ := backed.minted (s.poolOf id) exists'
  rw [token] at quote below
  have own : (s.setPaid id (s.paid id + amount)).paidFor (s.poolOf id) = s.paid id + amount := by
    simp [State.paidFor, State.setPaid, token, real]
  have before : s.paidFor (s.poolOf id) = s.paid id := by
    simp [State.paidFor, token, real]
  have others : ∀ poolId, poolId ≠ s.poolOf id →
      (s.setPaid id (s.paid id + amount)).paidFor poolId = s.paidFor poolId := by
    intro poolId ne
    by_cases none : s.tokenOfPool poolId = 0
    · simp [State.paidFor, State.setPaid, none]
    · obtain ⟨_, _, pool, _⟩ := backed.minted poolId none
      have apart : s.tokenOfPool poolId ≠ id := by
        rintro rfl
        exact ne pool.symm
      simp [State.paidFor, State.setPaid, none, apart]
  refine ⟨backed.unarmed, backed.split, backed.owed, backed.vacant, backed.viewless, backed.minted,
    backed.owned, backed.first, fun other beyond => ?_, fun poolId => ?_, fun asset => ?_⟩
  · have ne : other ≠ id := by
      rintro rfl
      exact absurd below (Nat.not_lt.mpr beyond)
    have zero := backed.fresh other beyond
    simpa [State.setPaid, ne] using zero
  · by_cases same : poolId = s.poolOf id
    · subst same
      rw [own]
      exact enough
    · rw [others poolId same]
      exact backed.covered poolId
  · obtain ⟨total, sums, covers⟩ := backed.backed asset
    have rest : ∀ poolId, poolId ≠ s.poolOf id →
        (s.setPaid id (s.paid id + amount)).held c asset poolId = s.held c asset poolId := by
      intro poolId ne
      simp only [State.held, others poolId ne]
      rfl
    by_cases same : asset = s.quoteAsset id
    · subst same
      have first := held_own mine quote.symm
      have second : (s.setPaid id (s.paid id + amount)).held c (s.quoteAsset id) (s.poolOf id) =
          s.ledger.delivered (s.poolOf id) - (s.paid id + amount) := by
        have all : (s.setPaid id (s.paid id + amount)).held c (s.quoteAsset id) (s.poolOf id) =
            s.ledger.delivered (s.poolOf id) -
              (s.setPaid id (s.paid id + amount)).paidFor (s.poolOf id) := held_own mine quote.symm
        rwa [own] at all
      have part := sums.entry_le (s.poolOf id)
      rw [before] at first
      refine ⟨total - amount, sums.moved (s.poolOf id) rest (by omega), ?_⟩
      have spare : nothing.more (s.quoteAsset id) amount (s.quoteAsset id) = amount := by
        simp [FeeLedger.OnWay.more, nothing]
      rw [spare]
      simp only [nothing, Nat.add_zero] at covers
      exact (show total - amount + amount ≤ total by omega).trans covers
    · refine ⟨total, sums.of_eq (fun poolId => ?_) rfl, ?_⟩
      · by_cases target : poolId = s.poolOf id
        · subst target
          have none : ¬ (s.Mine c (s.poolOf id) ∧ (s.ledger.pools (s.poolOf id)).quote = asset) :=
            fun both => same (both.2.symm.trans quote.symm)
          rw [held_none none]
          exact held_none none
        · exact rest poolId target
      · have spare : nothing.more (s.quoteAsset id) amount asset = nothing asset := by
          simp [FeeLedger.OnWay.more, same]
        rw [spare]
        exact covers

end Solonpad.CreatorRights
