import Solonpad.RewardRoster
import Solonpad.StakingRuns

/-!
The participant list of the staking contract. A staker joins it when its weight first rises from
zero, so whoever is credited in an epoch of any lane had joined before the epoch's end.
-/

namespace Solonpad.Staking

open Checked Enrolment Eligibility IndexedCredit
open Chain (Address)

variable {c : Config} {governance : Address} {clock : Nat → Nat} {cut : Option Nat} {now : Nat} {s : Core}

def participantAt (s : State) (i : Nat) : Option Address := s.participants[i]?.map Prod.fst

/-- The bound and the revision of a lane's ended epoch. -/
def sourceQueueSnapshot (s : State) (now : Nat) (key : Key) (epoch : Nat) : Option (Nat × Nat) :=
  if epoch < now / day then
    some (joinedBefore s.participants ((epoch + 1) * day), (s.lanes key).book.creditTotal27 epoch + 1)
  else none

/-- A weight stood since a point that was not empty. -/
theorem weightAt_point {points : List Standing} {seq time : Nat} (some : weightAt points seq time ≠ 0) :
    ∃ w ∈ points, w.seq ≤ seq ∧ w.weight ≠ 0 := by
  unfold weightAt at some
  cases found : (points.filter fun w => decide (w.seq ≤ seq)).getLast? with
  | none =>
    rw [found] at some
    exact absurd rfl some
  | some w =>
    rw [found] at some
    obtain ⟨member, early⟩ := List.mem_filter.mp (List.mem_of_getLast? found)
    refine ⟨w, member, of_decide_eq_true early, ?_⟩
    intro none
    simp only [none, ite_self] at some
    exact some rfl

theorem worth_point {a : Address} {epoch : Nat} {paid : List Payment} (some : s.worth cut a epoch paid ≠ 0) :
    ∃ p ∈ paid, p.time / day = epoch ∧ s.weightAt cut p.seq p.time a ≠ 0 := by
  by_contra none
  push Not at none
  apply some
  rw [Core.worth, ← sumOf_zero paid (inEpoch epoch)]
  apply sumOf_congr
  intro p member
  rw [inEpoch_iff]
  by_cases inside : p.time / day = epoch
  · simp [none p member inside]
  · simp [inside]

/-- Credit in an epoch takes a weight that stood before its end. -/
theorem Sound.credit_joined (sound : Sound clock cut now s) (key : Key) (a : Address) (epoch : Nat)
    (some : (s.lanes key).book.creditOf (standingsOf cut (s.weights a)) epoch ≠ 0) :
    ∃ since, (a, since) ∈ s.participants ∧ since < (epoch + 1) * day := by
  have stood : ∀ paid, Earned clock cut s paid → s.worth cut a epoch paid ≠ 0 →
      ∃ since, (a, since) ∈ s.participants ∧ since < (epoch + 1) * day := by
    intro paid earned worth
    obtain ⟨p, member, inside, weighs⟩ := worth_point worth
    obtain ⟨standing, listed, early, heavy⟩ := weightAt_point weighs
    obtain ⟨w, point, rfl⟩ := List.mem_map.mp listed
    obtain ⟨since, order, joined⟩ := sound.earners a w point heavy
    refine ⟨since, joined, ?_⟩
    have timed := ((sound.histories a).stands w point).timed
    have paidAt := (earned.stands p member).timed
    have before := sound.running.mono early
    simp only [WeightPoint.standing, day] at before inside ⊢
    omega
  obtain ⟨direct, carried, _⟩ := sound.books key
  rw [sound.credit key a epoch] at some
  by_cases none : s.worth cut a epoch (s.lanes key).book.direct.paid = 0
  · exact stood _ carried (by omega)
  · exact stood _ direct none

/-- Once an epoch has ended its bound and everyone below it stay, and whoever is credited in it on
any lane stands below, at one index. -/
theorem lane_participants {k : Controller} {start_ : Nat} {sys final : System}
    (reached : Run c governance (start k start_) sys) (further : Run c governance sys final)
    (key : Key) {epoch : Nat} (ended : epoch < sys.now / day) :
    ∃ bound, (∃ revision, sourceQueueSnapshot sys.staking sys.now key epoch = some (bound, revision)) ∧
      (∃ revision, sourceQueueSnapshot final.staking final.now key epoch = some (bound, revision)) ∧
      (∀ i, i < bound → participantAt final.staking i = participantAt sys.staking i ∧
        (participantAt sys.staking i).isSome = true) ∧
      ∀ a, sourceCredit final.staking (final.controller.cutoff final.now) key a epoch ≠ 0 →
        ∃ i, i < bound ∧ participantAt sys.staking i = some a ∧
          ∀ j, participantAt final.staking j = some a → j = i := by
  obtain ⟨whole, _⟩ := run_whole reached (start_whole k start_)
  obtain ⟨whole', later⟩ := run_whole further whole
  obtain ⟨clock, sound⟩ := whole
  obtain ⟨clock', sound'⟩ := whole'
  have past : (epoch + 1) * day ≤ sys.now := by
    simp only [day] at ended ⊢
    omega
  have order := later.order
  have ended' : epoch < final.now / day := by
    simp only [day] at past ⊢
    omega
  have enrolled : Enrolled sys.staking.participants sys.now := sound.enrolled
  have enrolled' : Enrolled final.staking.participants final.now := sound'.enrolled
  have enrols : Enrols sys.now sys.staking.participants final.staking.participants := later.keeps.enrols
  obtain ⟨same, kept⟩ := enrolled.frozen enrolled' enrols past
  refine ⟨joinedBefore sys.staking.participants ((epoch + 1) * day), ⟨_, if_pos ended⟩,
    ⟨_, by rw [sourceQueueSnapshot, if_pos ended', same]⟩, fun i below => ?_, fun a some => ?_⟩
  · have bound := (enrolled.below ((epoch + 1) * day)).1
    refine ⟨by rw [participantAt, participantAt, kept i below], ?_⟩
    rw [participantAt, List.getElem?_eq_getElem (by omega)]
    rfl
  · obtain ⟨since, member, early⟩ := sound'.credit_joined key a epoch some
    obtain ⟨i, below, at_, unique⟩ := enrolled'.found member early
    rw [same] at below
    rw [kept i below] at at_
    exact ⟨i, below, at_, unique⟩

end Solonpad.Staking
