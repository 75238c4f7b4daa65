import Mathlib.Data.List.Basic
import Mathlib.Order.Lattice
import Mathlib.Tactic.Common

/-!
A register that keeps the newest of what arrives. Values carry a version; an arrival replaces a value of a lower
version and is dropped otherwise. In whatever order and however often values arrive, the version kept is the
greatest that arrived, so where equal versions mean equal values the order does not show.
-/

namespace Solonpad.NewestKept

variable {Value Raw : Type*} (version : Value → Nat)

def keep (stored arrived : Value) : Value := if version stored < version arrived then arrived else stored

def newest (stored : Value) (arrivals : List Value) : Value := arrivals.foldl (keep version) stored

/-- The greatest version among the arrivals, or the one there was. -/
def greatest (least : Nat) (versions : List Nat) : Nat := versions.foldl max least

variable {stored arrived : Value} {arrivals : List Value}

theorem keep_version : version (keep version stored arrived) = max (version stored) (version arrived) := by
  unfold keep
  split <;> omega

theorem keep_or : keep version stored arrived = stored ∨
    keep version stored arrived = arrived ∧ version stored < version arrived := by
  unfold keep
  split
  · exact .inr ⟨rfl, ‹_›⟩
  · exact .inl rfl

theorem newest_cons : newest version stored (arrived :: arrivals) =
    newest version (keep version stored arrived) arrivals := rfl

theorem newest_append (more : List Value) :
    newest version stored (arrivals ++ more) = newest version (newest version stored arrivals) more :=
  List.foldl_append ..

theorem newest_version :
    version (newest version stored arrivals) = greatest (version stored) (arrivals.map version) := by
  induction arrivals generalizing stored with
  | nil => rfl
  | cons arrived rest ih =>
    rw [newest_cons, ih, keep_version version]
    rfl

theorem le_greatest {least : Nat} {versions : List Nat} :
    least ≤ greatest least versions ∧ ∀ v ∈ versions, v ≤ greatest least versions := by
  induction versions generalizing least with
  | nil => exact ⟨Nat.le_refl least, fun _ member => absurd member List.not_mem_nil⟩
  | cons first rest ih =>
    obtain ⟨floor, others⟩ : max least first ≤ greatest (max least first) rest ∧ _ := ih
    refine ⟨(le_max_left ..).trans floor, ?_⟩
    intro v member
    rcases List.mem_cons.mp member with rfl | later
    · exact (le_max_right ..).trans floor
    · exact others v later

/-- What is kept was there before or arrived. -/
theorem newest_source : newest version stored arrivals = stored ∨
    newest version stored arrivals ∈ arrivals ∧ version stored < version (newest version stored arrivals) := by
  induction arrivals generalizing stored with
  | nil => exact .inl rfl
  | cons arrived rest ih =>
    rw [newest_cons]
    rcases @ih (keep version stored arrived) with same | ⟨later, above⟩
    · rw [same]
      rcases @keep_or Value version stored arrived with old | ⟨taken, above⟩
      · exact .inl old
      · rw [taken]
        exact .inr ⟨List.mem_cons_self, above⟩
    · have floor : version stored ≤ version (keep version stored arrived) := by
        rw [keep_version version]
        exact le_max_left ..
      exact .inr ⟨List.mem_cons_of_mem _ later, floor.trans_lt above⟩

/-- Two sequences of arrivals of the same raw values keep the same raw value, where versions are distinct. -/
theorem newest_agree (read : Value → Raw) {others : List Value}
    (forth : ∀ a ∈ arrivals, ∃ b ∈ others, read b = read a ∧ version b = version a)
    (back : ∀ b ∈ others, ∃ a ∈ arrivals, read a = read b ∧ version a = version b)
    (distinct : ∀ a ∈ arrivals, ∀ b ∈ others, version a = version b → read a = read b) :
    read (newest version stored arrivals) = read (newest version stored others) := by
  have reaches : version (newest version stored arrivals) = version (newest version stored others) := by
    have reached : ∀ xs ys : List Value, (∀ x ∈ xs, ∃ y ∈ ys, version y = version x) →
        version (newest version stored xs) ≤ version (newest version stored ys) := by
      intro xs ys there
      have floor := (@le_greatest (version stored) (ys.map version)).1
      have above := (@le_greatest (version stored) (ys.map version)).2
      rw [← newest_version version] at floor above
      rcases @newest_source Value version stored xs with same | ⟨member, _⟩
      · rw [same]
        exact floor
      · obtain ⟨y, present, equal⟩ := there _ member
        rw [← equal]
        exact above _ (List.mem_map_of_mem present)
    apply Nat.le_antisymm
    · exact reached _ _ (fun a member => (forth a member).imp fun _ found => ⟨found.1, found.2.2⟩)
    · exact reached _ _ (fun b member => (back b member).imp fun _ found => ⟨found.1, found.2.2⟩)
  rcases @newest_source Value version stored arrivals with first | ⟨first, above⟩
  · rcases @newest_source Value version stored others with second | ⟨_, above⟩
    · rw [first, second]
    · rw [← reaches, first] at above
      exact absurd above (Nat.lt_irrefl _)
  · rcases @newest_source Value version stored others with second | ⟨second, _⟩
    · rw [reaches, second] at above
      exact absurd above (Nat.lt_irrefl _)
    · exact distinct _ first _ second reaches

end Solonpad.NewestKept
