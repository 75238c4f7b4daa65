import Solonpad.ConverterLots
import Solonpad.RoundShares

/-!
Both allocations of the protocol, by largest remainder: a round's stock among its slices, and what a sale
of fee lots was paid among the lots. Neither loses a unit or makes one up.
-/

namespace Solonpad.StockConverter

open Checked

/-- The lots of an order make up a positive amount, each of them once. -/
structure Whole (s : State) (id : OrderId) : Prop where
  distinct : (s.slices id).Nodup
  total : ((s.slices id).map fun lot => (s.lots lot).raw).sum = (s.orders id).raw
  positive : 0 < (s.orders id).raw

/-- The floors of the lots' shares are covered by what was paid. -/
theorem shares_ok {s : State} {id : OrderId} (paid : Nat) (whole : Whole s id) :
    ∃ parts, shares s (s.slices id) paid (s.orders id).raw = .ok parts := by
  have positive := whole.positive
  rw [← whole.total] at positive
  have covered := LargestRemainder.floors_le paid positive
  rw [List.map_map] at covered
  simp only [shares, bind_ok, sub_ok, pure_ok]
  rw [← whole.total]
  exact ⟨_, _, ⟨covered, rfl⟩, rfl⟩

theorem allocate_runs {s : State} {id : OrderId} (paid : Nat) (whole : Whole s id) :
    ∃ after, allocate s id paid = .ok after ∧
      ((s.slices id).map fun lot => (after.lots lot).proceeds).sum = paid := by
  obtain ⟨parts, split⟩ := shares_ok paid whole
  have done : ∃ after, allocate s id paid = .ok after := by
    simp only [allocate, bind_ok, require_ok, pure_ok]
    exact ⟨_, (), Nat.ne_of_gt whole.positive, parts, split, rfl⟩
  obtain ⟨after, done⟩ := done
  obtain ⟨worth, sum, rfl⟩ := allocate_ok done whole.distinct whole.total
  refine ⟨_, done, ?_⟩
  rw [← sum]
  refine congrArg List.sum (List.map_congr_left fun lot member => ?_)
  simp only [State.setLots, if_pos member]

end Solonpad.StockConverter

namespace Solonpad.Rounds

open Checked

/-- A round's allocation of any raw amount goes through its bonus loop and hands out exactly that amount,
each slice's floor or one more, and each entry's part of it whatever the order of the slices is; the
converter's allocation hands out exactly what was paid. -/
theorem allocations_exact :
    (∀ (W : Type) (x : Peers W) (s : State W) (id : RoundId) (raw : Nat), Whole s id →
      ∃ parts, allocate x s id raw = recordParts x parts s ∧ Apportioned raw (s.store.slices id) parts ∧
        (∀ after, allocate x s id raw = .ok after →
          ∀ e, after.store.delivered e = s.store.delivered e + gets parts e) ∧
        ∀ (other : State W) (round : RoundId), Whole other round →
          (other.store.slices round).Perm (s.store.slices id) →
          ∃ parts', allocate x other round raw = recordParts x parts' other ∧
            ∀ e, gets parts' e = gets parts e) ∧
    (∀ (s : StockConverter.State) (id : StockConverter.OrderId) (paid : Nat), StockConverter.Whole s id →
      ∃ after, StockConverter.allocate s id paid = .ok after ∧
        ((s.slices id).map fun lot => (after.lots lot).proceeds).sum = paid) ∧
    ∀ (W : Type) (c : Config) (b : Balances W) (s : State W), Run c b s →
      ∀ id, s.store.slices id ≠ [] → Whole s id := by
  refine ⟨?_, fun s id paid whole => StockConverter.allocate_runs paid whole,
    fun W c b s run id some_ => run_whole run some_⟩
  intro W x s id raw whole
  obtain ⟨parts, runs, awarded⟩ := allocate_runs x raw whole
  refine ⟨parts, runs, awarded.apportioned whole.positive, ?_, ?_⟩
  · intro after done e
    rw [runs] at done
    exact recordParts_delivered x done e
  · intro other round whole' listed
    obtain ⟨parts', runs', awarded'⟩ := allocate_runs x raw whole'
    have total := (listed.map Slice.budget18).sum_eq
    have floors_listed : (floors raw ((other.store.slices round).map Slice.budget18).sum
        (other.store.slices round)).Perm (floors raw ((s.store.slices id).map Slice.budget18).sum
        (s.store.slices id)) := by
      rw [total]
      exact listed.map _
    have same : units raw (other.store.slices round) = units raw (s.store.slices id) := by
      unfold units
      rw [(floors_listed.map Part.amount).sum_eq]
    rw [same] at awarded'
    exact ⟨parts', runs', fun e => awarded'.same_gets awarded floors_listed e⟩

/-- Three slices with one remainder: the bonus goes to the smallest entry, wherever it is listed. -/
def sampleThirds (slices : List Slice) : State Purses :=
  ⟨{ Store.empty with
    rounds := fun _ => { Round.blank with budget18 := 3 }
    slices := fun _ => slices }, ⟨0, 0, 0⟩⟩

theorem allocations_exact_thirds : ∃ parts,
    allocate plainPeers (sampleThirds [⟨4, 1⟩, ⟨2, 1⟩, ⟨3, 1⟩]) 1 10 =
      recordParts plainPeers parts (sampleThirds [⟨4, 1⟩, ⟨2, 1⟩, ⟨3, 1⟩]) ∧
    Apportioned 10 [⟨4, 1⟩, ⟨2, 1⟩, ⟨3, 1⟩] parts ∧
    ∃ parts', allocate plainPeers (sampleThirds [⟨2, 1⟩, ⟨3, 1⟩, ⟨4, 1⟩]) 1 10 =
        recordParts plainPeers parts' (sampleThirds [⟨2, 1⟩, ⟨3, 1⟩, ⟨4, 1⟩]) ∧
      ∀ e, gets parts' e = gets parts e := by
  have whole : ∀ slices : List Slice, (slices.map Slice.budget18).sum = 3 → Whole (sampleThirds slices) 1 := by
    intro slices total
    exact ⟨total.symm, by rw [show (sampleThirds slices).store.slices 1 = slices from rfl, total]; decide⟩
  obtain ⟨parts, runs, split, _, other⟩ := allocations_exact.1 Purses plainPeers
    (sampleThirds [⟨4, 1⟩, ⟨2, 1⟩, ⟨3, 1⟩]) 1 10 (whole _ rfl)
  exact ⟨parts, runs, split, other (sampleThirds [⟨2, 1⟩, ⟨3, 1⟩, ⟨4, 1⟩]) 1 (whole _ rfl) (by decide)⟩

end Solonpad.Rounds
