import Solonpad.Checkpoints
import Mathlib.Data.List.Nodup

/-!
Lists that members join once, in time. A member stands behind all who joined before, so bisecting
the list by a time counts who had joined before it, and later members leave that count alone. Who
joined before the time therefore stands below the count, at one index.
-/

namespace Solonpad.Enrolment

open Checkpoints

variable {α : Type*}

structure Enrolled (members : List (α × Nat)) (now : Nat) : Prop where
  once : (members.map Prod.fst).Nodup
  ordered : members.Pairwise fun earlier later => earlier.2 ≤ later.2
  within : ∀ p ∈ members, p.2 ≤ now

/-- How many joined before a time, found by bisection. -/
def joinedBefore (members : List (α × Nat)) (limit : Nat) : Nat :=
  passing (fun p => decide (p.2 < limit)) members

/-- The list grew by members that join from now on. -/
def Enrols (now : Nat) (members after : List (α × Nat)) : Prop :=
  ∃ new, after = members ++ new ∧ ∀ p ∈ new, now ≤ p.2

variable {members after final : List (α × Nat)} {now next : Nat} {a : α} {limit : Nat}

theorem Enrolled.empty (now : Nat) : Enrolled ([] : List (α × Nat)) now :=
  ⟨.nil, .nil, fun _ member => by cases member⟩

theorem Enrolled.later (enrolled : Enrolled members now) (order : now ≤ next) : Enrolled members next :=
  ⟨enrolled.once, enrolled.ordered, fun p member => Nat.le_trans (enrolled.within p member) order⟩

theorem Enrolled.joined (enrolled : Enrolled members now) (absent : ∀ p ∈ members, p.1 ≠ a) :
    Enrolled (members ++ [(a, now)]) now := by
  constructor
  · rw [List.map_append]
    apply enrolled.once.append (List.nodup_singleton _)
    intro b member only
    obtain ⟨p, inside, rfl⟩ := List.mem_map.mp member
    exact absent p inside (List.mem_singleton.mp only)
  · apply List.pairwise_append.mpr
    refine ⟨enrolled.ordered, List.pairwise_singleton _ _, ?_⟩
    intro p member last only
    rw [List.mem_singleton.mp only]
    exact enrolled.within p member
  · intro p member
    rcases List.mem_append.mp member with older | only
    · exact enrolled.within p older
    · obtain rfl := List.mem_singleton.mp only
      exact Nat.le_refl now

theorem Enrols.refl (now : Nat) (members : List (α × Nat)) : Enrols now members members :=
  ⟨[], (List.append_nil _).symm, fun _ member => by cases member⟩

theorem Enrols.one (now : Nat) (members : List (α × Nat)) (a : α) : Enrols now members (members ++ [(a, now)]) := by
  refine ⟨[(a, now)], rfl, ?_⟩
  intro p only
  obtain rfl := List.mem_singleton.mp only
  exact Nat.le_refl now

theorem Enrols.trans (first : Enrols now members after) (order : now ≤ next)
    (second : Enrols next after final) : Enrols now members final := by
  obtain ⟨early, rfl, dated⟩ := first
  obtain ⟨late, rfl, dated'⟩ := second
  refine ⟨early ++ late, List.append_assoc _ _ _, ?_⟩
  intro p member
  rcases List.mem_append.mp member with old | new
  · exact dated p old
  · exact Nat.le_trans order (dated' p new)

/-- The members below the count are those who joined before the time. -/
theorem Enrolled.below (enrolled : Enrolled members now) (limit : Nat) :
    joinedBefore members limit ≤ members.length ∧
      ∀ i (inside : i < members.length), members[i].2 < limit ↔ i < joinedBefore members limit := by
  have falling : Falling (fun p : α × Nat => decide (p.2 < limit)) members := by
    apply enrolled.ordered.imp
    intro earlier later order passed
    have := of_decide_eq_true passed
    exact decide_eq_true (by omega)
  obtain ⟨bound, split⟩ := passing_spec falling
  refine ⟨bound, fun i inside => ?_⟩
  have known := split i inside
  rwa [decide_eq_true_eq] at known

/-- Who joins after a time does not move its count, nor anyone below it. -/
theorem Enrolled.frozen (enrolled : Enrolled members now) (kept : Enrolled after next)
    (enrols : Enrols now members after) (past : limit ≤ now) :
    joinedBefore after limit = joinedBefore members limit ∧
      ∀ i, i < joinedBefore members limit → after[i]? = members[i]? := by
  obtain ⟨new, rfl, dated⟩ := enrols
  obtain ⟨bound, split⟩ := enrolled.below limit
  obtain ⟨bound', split'⟩ := kept.below limit
  refine ⟨?_, fun i below => List.getElem?_append_left (by omega)⟩
  have same : ∀ i, i < members.length →
      (i < joinedBefore (members ++ new) limit ↔ i < joinedBefore members limit) := by
    intro i inside
    rw [← split i inside, ← split' i (by rw [List.length_append]; omega),
      List.getElem_append_left inside]
  have none : joinedBefore (members ++ new) limit ≤ members.length := by
    by_contra beyond
    rw [Nat.not_le] at beyond
    rw [List.length_append] at bound'
    have early := (split' members.length (by rw [List.length_append]; omega)).mpr beyond
    rw [List.getElem_append_right (Nat.le_refl _)] at early
    have late := dated _ (List.getElem_mem (by omega : members.length - members.length < new.length))
    omega
  have first := same (joinedBefore members limit)
  have second := same (joinedBefore (members ++ new) limit)
  omega

/-- Who joined before a time stands below its count, at one index. -/
theorem Enrolled.found (enrolled : Enrolled members now) {since : Nat} (member : (a, since) ∈ members)
    (early : since < limit) :
    ∃ i, i < joinedBefore members limit ∧ members[i]?.map Prod.fst = some a ∧
      ∀ j, members[j]?.map Prod.fst = some a → j = i := by
  obtain ⟨_, split⟩ := enrolled.below limit
  obtain ⟨i, inside, eq⟩ := List.mem_iff_getElem.mp member
  refine ⟨i, ?_, ?_, ?_⟩
  · apply (split i inside).mp
    rwa [eq]
  · rw [List.getElem?_eq_getElem inside, eq]
    rfl
  · intro j found
    obtain ⟨p, at_, own⟩ := Option.map_eq_some_iff.mp found
    obtain ⟨inside', rfl⟩ := List.getElem?_eq_some_iff.mp at_
    have left : j < (members.map Prod.fst).length := by rwa [List.length_map]
    have right : i < (members.map Prod.fst).length := by rwa [List.length_map]
    have same : (members.map Prod.fst)[j] = (members.map Prod.fst)[i] := by
      rw [List.getElem_map, List.getElem_map, own, eq]
    exact enrolled.once.getElem_inj_iff.mp same

end Solonpad.Enrolment
