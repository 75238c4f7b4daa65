import Solonpad.RewardBudget

/-!
The calls of the reward token. `Sound` collects what the histories, the weights and the budgets
say; each internal function keeps it, one lemma a function, and adds to the log of distributions
only events of its own time. A whole call is then a chain of such steps.
-/

namespace Solonpad.RewardToken

open Checked Checkpoints CarryStream RunningTotal Eligibility
open Chain (Address)

structure Sound (s : State) (cut : Option Nat) (now : Nat) : Prop where
  passed : Passed cut now
  indexed : Indexed s now
  points : Points s cut now
  current : ∀ a, CurrentAt s a
  weighed : Weighed s cut
  kept : Kept s

/-- The log grew by events of this time. -/
def Grown (now : Nat) (s after : State) : Prop :=
  ∃ new, after.credits = new ++ s.credits ∧ ∀ event ∈ new, event.time = now

/-- A distribution adds its amount to the budgets. -/
def Spends (s after : State) (amount : Nat) : Prop :=
  ∀ spent, Totals s.epochBudget spent → Totals after.epochBudget (spent + amount)

/-- What a part of a call may do: budgets grow by what leaves the carry, and the log by events of
this time. -/
structure Through (cut : Option Nat) (now : Nat) (s after : State) : Prop where
  sound : Sound after cut now
  spends : ∃ amount, Spends s after amount ∧ after.carry.held + amount = s.carry.held
  total : after.totalCredited = s.totalCredited
  grown : Grown now s after
  setup : after.setup = s.setup

/-- Nothing that money or the log is made of differs. -/
structure Quiet (s after : State) : Prop where
  budget : after.epochBudget = s.epochBudget
  carry : after.carry = s.carry
  total : after.totalCredited = s.totalCredited
  credits : after.credits = s.credits
  setup : after.setup = s.setup

variable {s mid after : State} {cut : Option Nat} {now : Nat} {amount : Nat} {c : Config} {env : Env}
  {account : Address} {k : Controller}

theorem Grown.of_eq (same : after.credits = s.credits) : Grown now s after :=
  ⟨[], same, fun _ member => by cases member⟩

theorem Grown.trans (first : Grown now s mid) (second : Grown now mid after) : Grown now s after := by
  obtain ⟨older, early, dated⟩ := first
  obtain ⟨newer, late, dated'⟩ := second
  refine ⟨newer ++ older, by rw [late, early, List.append_assoc], ?_⟩
  intro event member
  rcases List.mem_append.mp member with new | old
  · exact dated' event new
  · exact dated event old

theorem Quiet.refl (s : State) : Quiet s s := ⟨rfl, rfl, rfl, rfl, rfl⟩

theorem Quiet.trans (first : Quiet s mid) (second : Quiet mid after) : Quiet s after := by
  constructor
  · rw [second.budget, first.budget]
  · rw [second.carry, first.carry]
  · rw [second.total, first.total]
  · rw [second.credits, first.credits]
  · rw [second.setup, first.setup]

theorem Quiet.through (quiet : Quiet s after) (sound : Sound after cut now) : Through cut now s after := by
  refine ⟨sound, ⟨0, ?_, by rw [quiet.carry, Nat.add_zero]⟩, quiet.total, .of_eq quiet.credits,
    quiet.setup⟩
  intro spent sums
  rwa [quiet.budget]

theorem Through.refl (sound : Sound s cut now) : Through cut now s s := (Quiet.refl s).through sound

theorem Through.trans (first : Through cut now s mid) (second : Through cut now mid after) :
    Through cut now s after := by
  obtain ⟨amount, spends, held⟩ := first.spends
  obtain ⟨amount', spends', held'⟩ := second.spends
  refine ⟨second.sound, ⟨amount + amount', ?_, by omega⟩, second.total.trans first.total,
    first.grown.trans second.grown, second.setup.trans first.setup⟩
  intro spent sums
  rw [← Nat.add_assoc]
  exact spends' _ (spends _ sums)

/-- What leaves the carry is in the budgets. -/
theorem Through.balanced (through : Through cut now s after) (balanced : Balanced s) : Balanced after := by
  obtain ⟨spent, sums, eq⟩ := balanced
  obtain ⟨amount, spends, held⟩ := through.spends
  have total := through.total
  exact ⟨spent + amount, spends spent sums, by omega⟩

/-! Index and carry. -/

theorem Sound.prepared (sound : Sound s cut now) (prepares : Prepares s mid) (kept : Kept mid) : Sound mid cut now := by
  obtain ⟨passed, indexed, points, current, weighed, _⟩ := sound
  rw [Prepares] at prepares
  refine ⟨passed, indexed.same ?_ ?_ ?_, points.same ?_ ?_ ?_ ?_, fun a => (current a).same ?_ ?_ ?_ ?_,
    weighed.same ?_ ?_ ?_ ?_ ?_ ?_ ?_, kept⟩
  all_goals try intro _
  all_goals rw [prepares]

theorem distribute_through {fromCarry : Bool} (sound : Sound s cut now)
    (done : distribute s cut now amount fromCarry = .ok after) :
    Sound after cut now ∧ Grown now s after ∧ Spends s after amount ∧ after.carry = s.carry ∧
      after.totalCredited = s.totalCredited ∧ after.setup = s.setup ∧
      after.token = s.token ∧ after.effectiveEligible cut now = s.effectiveEligible cut now := by
  obtain ⟨mid, prepares, kept, epoch, positive, rfl⟩ := distribute_ok sound.kept done
  obtain ⟨passed, indexed, points, current, weighed, _⟩ := sound.prepared prepares kept
  have same : mid.effectiveEligible cut now = s.effectiveEligible cut now := by
    rw [prepares]
    rfl
  have sums := weighed.totals now
  rw [same] at sums
  have held : mid.credits = s.credits ∧ mid.epochBudget = s.epochBudget ∧ mid.carry = s.carry ∧
      mid.totalCredited = s.totalCredited ∧ mid.setup = s.setup ∧ mid.token = s.token := by
    rw [prepares]
    exact ⟨rfl, rfl, rfl, rfl, rfl, rfl⟩
  refine ⟨⟨passed, indexed.credit _ _ _, points.credit indexed passed _ _ _ (weighed.weighs current),
    ?_, ?_, kept.credit positive sums epoch _ _⟩, ?_, ?_, ?_, ?_, ?_, ?_, ?_⟩
  · intro a
    refine (current a).same ?_ ?_ ?_ ?_ <;> simp
  · refine weighed.same ?_ ?_ ?_ ?_ ?_ ?_ ?_ <;> simp
  · obtain ⟨event, grown, dated⟩ := credit_grows mid cut now (s.effectiveEligible cut now) amount
      fromCarry
    refine ⟨[event], by rw [grown, held.1, List.singleton_append], ?_⟩
    intro other member
    rw [List.mem_singleton.mp member, dated]
  · intro spent budgets
    rw [← held.2.1] at budgets
    exact credit_budget budgets _ _ _
  · rw [credit_carry, held.2.2.1]
  · rw [credit_total, held.2.2.2.1]
  · rw [credit_setup, held.2.2.2.2.1]
  · rw [credit_token, held.2.2.2.2.2]
  · rw [← same]
    simp [State.effectiveEligible]

/-- Only money, settings and payouts differ. -/
def Books (s after : State) : Prop :=
  after = { s with
    setup := after.setup
    payouts := after.payouts
    carry := after.carry
    epochAsset := after.epochAsset
    totalCredited := after.totalCredited
    lastFeeAt := after.lastFeeAt }

theorem Sound.books (sound : Sound s cut now) (books : Books s after)
    (covered : after.carry.released ≤ after.carry.deposited) : Sound after cut now := by
  obtain ⟨passed, indexed, points, current, weighed, kept⟩ := sound
  rw [Books] at books
  refine ⟨passed, indexed.same ?_ ?_ ?_, points.same ?_ ?_ ?_ ?_, fun a => (current a).same ?_ ?_ ?_ ?_,
    weighed.same ?_ ?_ ?_ ?_ ?_ ?_ ?_, kept.same ?_ ?_ ?_ ?_ covered⟩
  all_goals try intro _
  all_goals rw [books]
  rfl

theorem syncMode_through (sound : Sound s cut now) (done : syncMode s cut now = .ok after) :
    Through cut now s after ∧ (cut.isSome = true → after.modeGeneration = 1) := by
  obtain ⟨passed, indexed, points, current, weighed, kept⟩ := sound
  simp only [syncMode, ite_ok, bind_ok, pure_ok] at done
  rcases done with ⟨⟨on, zero⟩, ⟨carry, amount⟩, checked, rfl⟩ | ⟨off, rfl⟩
  · obtain ⟨covered, _, _, stopped⟩ := checkpoint_ok checked kept.covered
    have held := checkpoint_held checked kept.covered
    have none : amount = 0 := by
      by_contra some
      cases stopped some
    have switched : Weighed { { s with carry := carry }.freezeRemainders with
        totalEligible := 0, modeGeneration := 1 } cut :=
      (weighed.switch on zero).same rfl rfl rfl rfl rfl rfl rfl
    have frozen : Kept { { s with carry := carry }.freezeRemainders with
        totalEligible := 0, modeGeneration := 1 } :=
      (kept.same rfl rfl rfl rfl covered : Kept { s with carry := carry }).frozen.same rfl rfl rfl rfl
        covered
    refine ⟨⟨⟨passed, indexed.same rfl rfl rfl, points.same rfl rfl rfl rfl,
      fun a => (current a).same rfl rfl rfl (fun _ => rfl), switched, frozen⟩, ⟨0, ?_, ?_⟩, rfl,
      .of_eq rfl, rfl⟩, fun _ => rfl⟩
    · intro spent sums
      exact sums
    · rw [none] at held
      exact held
  · refine ⟨.refl ⟨passed, indexed, points, current, weighed, kept⟩, fun on => ?_⟩
    rcases weighed.mode with zero | ⟨one, _⟩
    · exact absurd ⟨on, zero⟩ off
    · exact one

theorem releaseCarry_through (sound : Sound s cut now) (done : releaseCarry s cut now = .ok after) :
    Through cut now s after := by
  simp only [releaseCarry, bind_ok, ite_ok, pure_ok] at done
  obtain ⟨mid, synced, ⟨carry, amount⟩, checked, done⟩ := done
  obtain ⟨first, _⟩ := syncMode_through sound synced
  apply first.trans
  obtain ⟨covered, _⟩ := checkpoint_ok checked first.sound.kept.covered
  have held := checkpoint_held checked first.sound.kept.covered
  have moved : Sound { mid with carry := carry } cut now := first.sound.books rfl covered
  rcases done with ⟨_, done⟩ | ⟨none, rfl⟩
  · obtain ⟨sound, grown, spends, kept, total, setup, _⟩ := distribute_through moved done
    refine ⟨sound, ⟨amount, spends, ?_⟩, total, grown, setup⟩
    rw [kept]
    exact held
  · have zero : amount = 0 := by simpa using none
    refine ⟨moved, ⟨0, fun spent sums => sums, ?_⟩, rfl, .of_eq rfl, rfl⟩
    rw [zero] at held
    exact held

/-- A fee is in a budget or in the carry, and only there is it counted as credited. -/
theorem onFeeCredit_keeps {pool kind : Nat} {quote : Address} (sound : Sound s cut env.now)
    (done : onFeeCredit c s cut env pool quote kind amount = .ok after) :
    Sound after cut env.now ∧ (Balanced s → Balanced after) ∧ Grown env.now s after ∧
      after.setup = s.setup := by
  simp only [onFeeCredit, bind_ok, require_ok] at done
  obtain ⟨_, _, _, _, mid, synced, done⟩ := done
  obtain ⟨first, _⟩ := syncMode_through sound synced
  have booked : ∃ last, Sound last cut env.now ∧ (∀ spent, Totals mid.epochBudget spent →
      ∃ spent', Totals last.epochBudget spent' ∧ spent' + last.carry.held = spent + mid.carry.held + amount) ∧
      last.totalCredited = mid.totalCredited ∧ Grown env.now mid last ∧ last.setup = mid.setup ∧
      after = { last with
        totalCredited := last.totalCredited + amount
        lastFeeAt := if amount ≠ 0 then env.now else last.lastFeeAt } := by
    simp only [ite_ok, bind_ok, pure_ok] at done
    rcases done with ⟨_, last, rfl, rfl⟩ | ⟨_, released, done, last, paid, rfl⟩
    · have covered := first.sound.kept.covered
      refine ⟨{ mid with carry := deposit mid.carry amount }, first.sound.books rfl covered, ?_, rfl,
        .of_eq rfl, rfl, rfl⟩
      intro spent sums
      refine ⟨spent, sums, ?_⟩
      simp only [deposit, Stream.held]
      omega
    · have second := releaseCarry_through first.sound done
      obtain ⟨sound, grown, spends, carry, total, setup, _⟩ := distribute_through second.sound paid
      obtain ⟨out, spends', held⟩ := second.spends
      refine ⟨last, sound, ?_, total.trans second.total, second.grown.trans grown,
        setup.trans second.setup, rfl⟩
      intro spent sums
      refine ⟨_, spends _ (spends' _ sums), ?_⟩
      rw [carry]
      omega
  obtain ⟨last, sound, budget, total, grown, setup, rfl⟩ := booked
  refine ⟨sound.books rfl sound.kept.covered, ?_, first.grown.trans grown, setup.trans first.setup⟩
  intro balanced
  obtain ⟨spent, sums, eq⟩ := first.balanced balanced
  obtain ⟨spent', sums', moved⟩ := budget spent sums
  refine ⟨spent', sums', ?_⟩
  simp only [total, eq]
  omega

/-! Weights. -/

/-- Only weights, and the remainders they freeze, differ. -/
def Reweighs (s after : State) : Prop :=
  after = { s with
    token := after.token
    participants := after.participants
    accountGeneration := after.accountGeneration
    accountExpiry := after.accountExpiry
    expiryWeights := after.expiryWeights
    eligible := after.eligible
    totalEligible := after.totalEligible
    epochDust27 := after.epochDust27
    indexRemainder := after.indexRemainder
    carryIndexRemainder := after.carryIndexRemainder }

theorem Reweighs.quiet (reweighs : Reweighs s after) : Quiet s after := by
  rw [Reweighs] at reweighs
  constructor <;> rw [reweighs]

/-- One account's weight moves, and its own points follow or are still to be saved. -/
structure Moved (account : Address) (cut : Option Nat) (s mid : State) : Prop where
  reweighs : Reweighs s mid
  weighed : Weighed mid cut
  kept : Kept mid
  others : ∀ a, a ≠ account → mid.eligible a = s.eligible a ∧
    mid.accountGeneration a = s.accountGeneration a ∧ mid.accountExpiry a = s.accountExpiry a

theorem Moved.other (moved : Moved account cut s mid) (current : ∀ a, CurrentAt s a) (a : Address)
    (ne : a ≠ account) : CurrentAt mid a := by
  have reweighs := moved.reweighs
  rw [Reweighs] at reweighs
  obtain ⟨eligible, generation, expiry⟩ := moved.others a ne
  exact (current a).same (by rw [reweighs]) eligible generation (fun _ => expiry)

theorem Moved.save_through (moved : Moved account cut s mid) (sound : Sound s cut now)
    (saved : save mid cut now account = .ok after) :
    Through cut now s after ∧ after = { mid with accountHistory := after.accountHistory } := by
  have reweighs := moved.reweighs
  rw [Reweighs] at reweighs
  have indexed : Indexed mid now := sound.indexed.same (by rw [reweighs]) (by rw [reweighs])
    (by rw [reweighs])
  have held : Points mid cut now := sound.points.same (by rw [reweighs]) (by rw [reweighs])
    (by rw [reweighs]) (by rw [reweighs])
  have weighed := moved.weighed
  have narrow : mid.eligible account < 2 ^ 128 := by
    have := weighed.narrow account
    rw [supply] at this
    omega
  obtain ⟨same, rest, points, current⟩ := save_points saved held indexed sound.passed
    (weighed.generation_le account) (weighed.alive account) narrow
  have quiet : Quiet mid after := by
    constructor <;> rw [same]
  refine ⟨(moved.reweighs.quiet.trans quiet).through ⟨sound.passed, ?_, points, ?_, ?_, ?_⟩, same⟩
  · rw [same]
    exact indexed.same rfl rfl rfl
  · intro a
    by_cases own : a = account
    · exact own ▸ current
    · refine (moved.other sound.current a own).same (rest a own) ?_ ?_ ?_
      · rw [same]
      · rw [same]
      · rw [same]
        exact fun _ => rfl
  · rw [same]
    exact weighed.same rfl rfl rfl rfl rfl rfl rfl
  · rw [same]
    exact moved.kept.same rfl rfl rfl rfl moved.kept.covered

theorem Moved.through (moved : Moved account cut s mid) (sound : Sound s cut now)
    (current : CurrentAt mid account) : Through cut now s mid := by
  have reweighs := moved.reweighs
  rw [Reweighs] at reweighs
  refine moved.reweighs.quiet.through ⟨sound.passed, sound.indexed.same ?_ ?_ ?_,
    sound.points.same ?_ ?_ ?_ ?_, ?_, moved.weighed, moved.kept⟩
  iterate 7 rw [reweighs]
  intro a
  by_cases own : a = account
  · exact own ▸ current
  · exact moved.other sound.current a own

/-- An account without points that has no weight either needs none. -/
theorem CurrentAt.unseen_idle (empty : s.accountHistory account = []) (idle : s.eligible account = 0) :
    CurrentAt s account := by
  refine ⟨fun _ => idle, ?_, ?_, ?_⟩
  all_goals
    intro p last
    rw [empty] at last
    cases last

theorem syncAccount_through (sound : Sound s cut now) (done : syncAccount s cut now account = .ok after) :
    Through cut now s after ∧ after.accountGeneration account = after.modeGeneration := by
  simp only [syncAccount, ite_ok, pure_ok] at done
  rcases done with ⟨due, done⟩ | ⟨current, rfl⟩
  · have dropped : ∃ mid, Moved account cut s mid ∧ mid.accountGeneration account = mid.modeGeneration ∧
        mid.eligible account = 0 ∧ (mid.accountHistory account ≠ [] ∧ save mid cut now account = .ok after ∨
          mid.accountHistory account = [] ∧ mid = after) := by
      simp only [bind_ok, ite_ok, pure_ok, not_not] at done
      have others : ∀ a, a ≠ account → Function.update s.eligible account 0 a = s.eligible a ∧
          Function.update s.accountGeneration account s.modeGeneration a = s.accountGeneration a ∧
          Function.update s.accountExpiry account 0 a = s.accountExpiry a := by
        intro a ne
        simp [Function.update_of_ne ne]
      rcases done with ⟨⟨same, _⟩, mid, retired, done⟩ | ⟨stays, mid, rfl, done⟩
      · obtain ⟨_, _, rest⟩ := retire_ok sound.weighed retired
        have one : s.modeGeneration = 1 := by
          rcases due with other | ⟨one, _⟩
          · exact absurd same other
          · exact one
        have weighed := sound.weighed.retired one (same.trans one) retired 0 (by decide)
        generalize mid.expiryWeights = tree at rest
        subst rest
        refine ⟨_, ⟨?_, weighed, ?_, others⟩, ?_, ?_, ?_⟩
        · rfl
        · exact sound.kept.same rfl rfl rfl rfl sound.kept.covered
        · simp
        · simp
        · exact done
      · have old : s.accountGeneration account ≠ s.modeGeneration := by
          intro same
          rcases due with other | ⟨_, held, _⟩
          · exact other same
          · exact stays ⟨same, held⟩
        refine ⟨_, ⟨?_, sound.weighed.migrated old, ?_, others⟩, ?_, ?_, ?_⟩
        · rfl
        · exact sound.kept.same rfl rfl rfl rfl sound.kept.covered
        · simp
        · simp
        · exact done
    obtain ⟨mid, moved, current, idle, ⟨_, saved⟩ | ⟨empty, rfl⟩⟩ := dropped
    · obtain ⟨through, same⟩ := moved.save_through sound saved
      refine ⟨through, ?_⟩
      rw [same]
      exact current
    · exact ⟨moved.through sound (.unseen_idle empty idle), current⟩
  · refine ⟨.refl sound, ?_⟩
    rw [not_or, not_not] at current
    exact current.1

/-- The controller's switch as this token sees it. -/
theorem Through.linked (through : Through cut now s after) (linked : cut = s.cutoff k now) :
    cut = after.cutoff k now := by
  rw [linked, State.cutoff, State.cutoff, through.setup]

theorem hasBit_zero (bit : Nat) : ¬ hasBit 0 bit := by simp [hasBit]

/-- An account that starts earning in mode A does so until its credential ends. -/
theorem qualify_expiry {earns : Bool} (weighed : Weighed s cut) (linked : cut = s.cutoff k env.now)
    (done : qualify c s k env account = (earns, after)) :
    (after = s ∨ ∃ expiry, expiry < 2 ^ 32 ∧
      after = { s with accountExpiry := Function.update s.accountExpiry account expiry }) ∧
      (earns = true → s.modeGeneration = 1 → after.accountExpiry account ≠ 0) := by
  simp only [qualify, ite_eq_iff, Prod.mk.injEq] at done
  rcases done with ⟨_, rfl, rfl⟩ | ⟨_, ⟨unset, rfl, rfl⟩ | ⟨_, ⟨_, rfl, rfl⟩ | ⟨unmasked, ⟨zero, rfl, rfl⟩ |
    ⟨_, ⟨_, rfl, rfl⟩ | ⟨allowed, ⟨_, rfl, rfl⟩ | ⟨_, rfl, rfl⟩⟩⟩⟩⟩⟩
  · exact ⟨.inl rfl, fun no => by cases no⟩
  · refine ⟨.inl rfl, fun _ one => ?_⟩
    -- mode A needs the controller
    rcases weighed.mode with zero | ⟨_, some⟩
    · omega
    · rw [linked, State.cutoff, unset] at some
      cases some
  · exact ⟨.inl rfl, fun no => by cases no⟩
  · exact ⟨.inl rfl, fun _ one => by omega⟩
  · exact ⟨.inl rfl, fun no => by cases no⟩
  · exact ⟨.inl rfl, fun no => by cases no⟩
  · refine ⟨.inr ⟨_, (env.registry.credentials account).validUntil.toNat_lt, rfl⟩, fun _ one => ?_⟩
    simp only [Function.update_self]
    rw [not_or, not_not] at allowed
    have set : s.setup.eligibilityController = true ∧ k.enabled env.now = true := by
      rcases weighed.mode with zero | ⟨_, some⟩
      · omega
      · rw [linked, State.cutoff] at some
        split at some
        · next set =>
          refine ⟨set, ?_⟩
          by_contra off
          rw [Controller.cutoff, if_neg off] at some
          cases some
        · cases some
    rcases allowed.1 with unset | off | ⟨_, vault | ⟨_, _, _, _, until_, _⟩⟩
    · rw [set.1] at unset
      cases unset
    · rw [set.2] at off
      cases off
    · rw [not_not.mp unmasked] at vault
      exact absurd vault (hasBit_zero _)
    · omega

theorem qualify_through {earns : Bool} (sound : Sound s cut env.now) (linked : cut = s.cutoff k env.now)
    (idle : s.eligible account = 0) (done : qualify c s k env account = (earns, after)) :
    Through cut env.now s after := by
  obtain ⟨rfl | ⟨expiry, small, rfl⟩, _⟩ := qualify_expiry sound.weighed linked done
  · exact .refl sound
  · have moved : Moved account cut s { s with
        accountExpiry := Function.update s.accountExpiry account expiry } := by
      refine ⟨rfl, sound.weighed.qualified idle small, ?_, ?_⟩
      · exact sound.kept.same rfl rfl rfl rfl sound.kept.covered
      · intro a ne
        simp [Function.update_of_ne ne]
    exact moved.through sound ((sound.current account).same rfl rfl rfl (fun some => absurd idle some))

theorem setWeight_through {next : Nat} (sound : Sound s cut now)
    (generation : s.accountGeneration account = s.modeGeneration) (narrow : next ≤ supply)
    (alive : s.modeGeneration = 1 → s.accountExpiry account = 0 → next = 0)
    (done : setWeight s cut now account next = .ok after) : Through cut now s after := by
  have split : ∃ total tree, s.eligible account ≤ s.totalEligible + next ∧
      total = s.totalEligible + next - s.eligible account ∧
      (s.modeGeneration = 1 → reweighTree s account (s.eligible account) next = .ok tree) ∧
      (s.modeGeneration ≠ 1 → tree = s.expiryWeights) ∧ save { s.freezeRemainders with
        eligible := Function.update s.eligible account next
        totalEligible := total
        expiryWeights := tree
        participants := if s.accountHistory account = [] then s.participants ++ [(account, now)]
          else s.participants } cut now account = .ok after := by
    simp only [setWeight, bind_ok, sub_ok, ite_ok, pure_ok] at done
    obtain ⟨total, ⟨covered, sums⟩, ⟨one, tree, grown, saved⟩ | ⟨other, tree, same, saved⟩⟩ := done
    · exact ⟨total, tree, covered, sums, fun _ => grown, fun ne => absurd one ne, saved⟩
    · exact ⟨total, tree, covered, sums, fun one => absurd one other, fun _ => same.symm, saved⟩
  obtain ⟨total, tree, covered, sums, grown, kept, saved⟩ := split
  have moved : Moved account cut s { s.freezeRemainders with
      eligible := Function.update s.eligible account next
      totalEligible := total
      expiryWeights := tree
      participants := if s.accountHistory account = [] then s.participants ++ [(account, now)]
        else s.participants } := by
    refine ⟨rfl, ?_, ?_, ?_⟩
    · exact sound.weighed.reweighed generation narrow alive covered sums grown kept rfl rfl rfl
        rfl rfl rfl rfl
    · have frozen := sound.kept.frozen
      exact frozen.same rfl rfl rfl rfl frozen.covered
    · intro a ne
      exact ⟨Function.update_of_ne ne _ _, rfl, rfl⟩
  exact (moved.save_through sound saved).1

theorem reweigh_through {balance : Nat} (sound : Sound s cut env.now) (linked : cut = s.cutoff k env.now)
    (narrow : balance ≤ supply) (done : reweigh c s k cut env account balance = .ok after) :
    Through cut env.now s after := by
  simp only [reweigh, bind_ok] at done
  obtain ⟨mid, synced, done⟩ := done
  obtain ⟨first, generation⟩ := syncAccount_through sound synced
  have linked' := first.linked linked
  have chosen : ∃ next last, Through cut env.now mid last ∧
      last.accountGeneration account = last.modeGeneration ∧ next ≤ supply ∧
      (last.modeGeneration = 1 → last.accountExpiry account = 0 → next = 0) ∧
      (last = after ∨ setWeight last cut env.now account next = .ok after) := by
    simp only [ite_ok, pure_ok] at done
    have either : ∀ {last : State} {stays : Prop} {next : Nat}, stays ∧ last = after ∨
        ¬ stays ∧ setWeight last cut env.now account next = .ok after →
        last = after ∨ setWeight last cut env.now account next = .ok after := by
      intro last stays next taken
      rcases taken with ⟨_, same⟩ | ⟨_, set⟩
      · exact .inl same
      · exact .inr set
    by_cases empty : balance = 0
    · simp only [if_pos empty, Bool.false_eq_true, if_false] at done
      exact ⟨0, mid, .refl first.sound, generation, Nat.zero_le _, fun _ _ => rfl, either done⟩
    · simp only [if_neg empty] at done
      by_cases earning : mid.eligible account ≠ 0
      · simp only [if_pos earning, if_true] at done
        refine ⟨balance, mid, .refl first.sound, generation, narrow, fun one none => ?_, either done⟩
        exact absurd (first.sound.weighed.alive account (generation.trans one) none) earning
      · simp only [if_neg earning] at done
        have idle := not_not.mp earning
        cases asked : qualify c mid k env account with
        | mk earns last =>
          rw [asked] at done
          have second := qualify_through first.sound linked' idle asked
          obtain ⟨same, expiry⟩ := qualify_expiry first.sound.weighed linked' asked
          have kept : last.accountGeneration = mid.accountGeneration ∧
              last.modeGeneration = mid.modeGeneration := by
            rcases same with rfl | ⟨_, _, rfl⟩
            · exact ⟨rfl, rfl⟩
            · exact ⟨rfl, rfl⟩
          refine ⟨if earns = true then balance else 0, last, second, ?_, ?_, ?_, either done⟩
          · rw [kept.1, kept.2, generation]
          · split
            · exact narrow
            · exact Nat.zero_le _
          · intro one none
            rw [kept.2] at one
            by_cases earn : earns = true
            · exact absurd none (expiry earn one)
            · rw [if_neg earn]
  obtain ⟨next, last, second, generation, narrow, alive, rfl | set⟩ := chosen
  · exact first.trans second
  · exact (first.trans second).trans (setWeight_through second.sound generation narrow alive set)

theorem moveBalance_through {sender receiver : Nat} (sound : Sound s cut now)
    (done : moveBalance s sender receiver amount = .ok after) : Through cut now s after := by
  unfold moveBalance at done
  split at done
  · next token moved =>
    cases done
    have fixed := Chain.transfer_supply _ _ _ _ _ moved
    have quiet : Quiet s { s with token := token } := ⟨rfl, rfl, rfl, rfl, rfl⟩
    obtain ⟨passed, indexed, points, current, weighed, kept⟩ := sound
    exact quiet.through ⟨passed, indexed.same rfl rfl rfl, points.same rfl rfl rfl rfl,
      fun a => (current a).same rfl rfl rfl (fun _ => rfl),
      weighed.same rfl rfl rfl rfl rfl rfl fixed, kept.same rfl rfl rfl rfl kept.covered⟩
  · cases done

/-- No balance exceeds the supply. -/
theorem Sound.balance_le (sound : Sound s cut now) (account : Address) : s.token.balanceOf account ≤ supply :=
  sound.weighed.fixed ▸ s.token.sums.entry_le account

theorem update_through {sender receiver : Nat} (sound : Sound s cut env.now) (linked : cut = s.cutoff k env.now)
    (done : update c s k cut env sender receiver amount = .ok after) : Through cut env.now s after := by
  simp only [update, ite_ok, bind_ok, pure_ok] at done
  rcases done with ⟨_, moved⟩ | ⟨_, released, release, moved, move, done⟩
  · exact moveBalance_through sound moved
  · have first := releaseCarry_through sound release
    have second := first.trans (moveBalance_through first.sound move)
    have third : ∃ paid, Through cut env.now s paid ∧ (c.excluded receiver = false ∧
        reweigh c paid k cut env receiver (paid.token.balanceOf receiver) = .ok after ∨
        ¬ c.excluded receiver = false ∧ paid = after) := by
      rcases done with ⟨_, paid, weighed, done⟩ | ⟨_, paid, rfl, done⟩
      · have third := reweigh_through second.sound (second.linked linked)
          (second.sound.balance_le sender) weighed
        exact ⟨paid, second.trans third, done⟩
      · exact ⟨_, second, done⟩
    obtain ⟨paid, third, ⟨_, weighed⟩ | ⟨_, rfl⟩⟩ := third
    · have fourth := reweigh_through third.sound (third.linked linked)
        (third.sound.balance_le receiver) weighed
      exact third.trans fourth
    · exact third

theorem syncEligibility_through (sound : Sound s cut env.now) (linked : cut = s.cutoff k env.now)
    (done : syncEligibility c s k cut env account = .ok after) : Through cut env.now s after := by
  simp only [syncEligibility, bind_ok] at done
  obtain ⟨released, release, weighed⟩ := done
  have first := releaseCarry_through sound release
  exact first.trans (reweigh_through first.sound (first.linked linked)
    (first.sound.balance_le account) weighed)

/-- A withdrawn credential takes the whole weight out. -/
theorem Weighed.withdrawn (weighed : Weighed s cut) (generation : s.accountGeneration account = s.modeGeneration)
    (done : retire s account (s.eligible account) = .ok after) :
    Weighed { after with eligible := Function.update after.eligible account 0 } cut := by
  obtain ⟨tree, covered, rest⟩ := retire_ok weighed done
  refine weighed.moved account ?_ ?_ ?_ ?_ ?_ ?_ ?_ ?_ ?_
  · rw [rest]
  · rw [rest]
  · intro b ne
    rw [rest]
    exact ⟨Function.update_of_ne ne _ _, rfl, rfl⟩
  · rw [rest]
    exact weighed.generation account
  · simp
  · rw [rest]
    exact weighed.small account
  · simp
  · intro _
    rw [rest]
    simp only [Function.update_self]
    omega
  · intro t
    have moved := tree t
    simp only [State.expiring, Function.update_self, ite_self, Nat.add_zero]
    by_cases one : s.accountGeneration account = 1
    · simp only [one, true_and]
      omega
    · -- in default B the tree is empty, so nothing could leave it
      have zero : ∀ a, s.accountGeneration a ≠ 1 := by
        intro a
        have low := weighed.generation_le account
        have := weighed.generation a
        omega
      have empty := (weighed.expiring t).unique (Totals.zero.of_eq (fun a => by
        simp [State.expiring, zero a]) rfl)
      simp only [one, false_and, if_false]
      omega

theorem onEligibilityChange_through (sound : Sound s cut env.now)
    (done : onEligibilityChange s k cut env account = .ok after) : Through cut env.now s after := by
  simp only [onEligibilityChange, bind_ok, ite_ok, require_ok, pure_ok] at done
  obtain ⟨_, _, released, release, synced, sync, done⟩ := done
  have first := releaseCarry_through sound release
  obtain ⟨second, generation⟩ := syncAccount_through first.sound sync
  apply (first.trans second).trans
  rcases done with ⟨_, mid, retired, saved⟩ | ⟨_, rfl⟩
  · have frozen := second.sound.kept.frozen
    have weighed : Weighed synced.freezeRemainders cut :=
      second.sound.weighed.same rfl rfl rfl rfl rfl rfl rfl
    have withdrawn := weighed.withdrawn generation retired
    obtain ⟨_, _, rest⟩ := retire_ok weighed retired
    generalize mid.expiryWeights = tree at rest
    subst rest
    have moved : Moved account cut synced { synced.freezeRemainders with
        eligible := Function.update synced.eligible account 0
        totalEligible := synced.totalEligible - synced.eligible account
        expiryWeights := tree } := by
      refine ⟨rfl, withdrawn, ?_, ?_⟩
      · exact frozen.same rfl rfl rfl rfl frozen.covered
      · intro a ne
        exact ⟨Function.update_of_ne ne _ _, rfl, rfl⟩
    exact (moved.save_through second.sound saved).1
  · exact .refl second.sound

end Solonpad.RewardToken
