import Mathlib.Data.List.Nodup
import Mathlib.Logic.Function.Basic

/-!
A list that keeps the position of each of its entries beside it, counted from 1. An entry is appended,
or taken out by moving the last entry to its place and shortening the list. Both keep the positions, when
a new entry is not yet listed and a removed one is.
-/

namespace Solonpad.IndexedList

variable {α : Type*} {index : α → Nat} {entries : List α} {entry last : α} {place : Nat}

/-- An entry's index is its position + 1, and 0 for what is not listed. -/
def Indexes (index : α → Nat) (entries : List α) : Prop :=
  ∀ entry place, index entry = place + 1 ↔ entries[place]? = some entry

theorem Indexes.empty : Indexes (fun _ : α => 0) [] := by
  intro entry place
  simp

theorem Indexes.mem (indexes : Indexes index entries) : entry ∈ entries ↔ index entry ≠ 0 := by
  rw [List.mem_iff_getElem?]
  constructor
  · rintro ⟨place, found⟩ none
    have listed := (indexes entry place).mpr found
    omega
  · intro listed
    obtain ⟨place, found⟩ := Nat.exists_eq_succ_of_ne_zero listed
    exact ⟨place, (indexes entry place).mp found⟩

/-- No entry is listed twice: both places would be its index. -/
theorem Indexes.nodup (indexes : Indexes index entries) : entries.Nodup := by
  rw [List.nodup_iff_injective_get]
  intro first second same
  have one := (indexes (entries.get first) first).mpr (List.getElem?_eq_getElem first.isLt)
  have other := (indexes (entries.get second) second).mpr (List.getElem?_eq_getElem second.isLt)
  rw [same] at one
  exact Fin.ext (Nat.succ.inj (one.symm.trans other))

theorem Indexes.append [DecidableEq α] (indexes : Indexes index entries) (fresh : entry ∉ entries) :
    Indexes (Function.update index entry (entries.length + 1)) (entries ++ [entry]) := by
  intro other place
  rw [List.getElem?_append]
  by_cases same : other = entry
  · subst other
    rw [Function.update_self]
    split
    · next within =>
      -- the new entry is at no earlier place
      have absent : entries[place]? ≠ some entry := fun found => fresh (List.mem_of_getElem? found)
      simp only [absent, iff_false]
      omega
    · next beyond =>
      rw [List.getElem?_singleton]
      split <;> simp <;> omega
  · rw [Function.update_of_ne same, indexes other place]
    split
    · rfl
    · next beyond =>
      have apart : entry ≠ other := Ne.symm same
      rw [List.getElem?_eq_none (by omega), List.getElem?_singleton]
      split <;> simp [apart]

/-- What the shortened list has at a place. -/
theorem swapped_getElem? (within : place < entries.length) (other : Nat) :
    ((entries.set place last).dropLast)[other]? =
      if other + 1 < entries.length then if other = place then some last else entries[other]? else none := by
  rw [List.getElem?_dropLast, List.getElem?_set, List.length_set]
  by_cases early : other + 1 < entries.length
  · rw [if_pos early, if_pos (by omega)]
    by_cases same : other = place
    · rw [if_pos same, if_pos same.symm, if_pos within]
    · rw [if_neg same, if_neg (Ne.symm same)]
  · rw [if_neg early, if_neg (by omega)]

theorem Indexes.swap [DecidableEq α] (indexes : Indexes index entries) (found : entries[place]? = some entry)
    (ends : entries.getLast? = some last) :
    Indexes (Function.update (Function.update index last (place + 1)) entry 0)
      (entries.set place last).dropLast := by
  have within : place < entries.length := (List.getElem?_eq_some_iff.mp found).1
  have top : index last = entries.length := by
    rw [List.getLast?_eq_getElem?] at ends
    have listed := (indexes last (entries.length - 1)).mpr ends
    omega
  have spot : index entry = place + 1 := (indexes entry place).mpr found
  intro other position
  rw [swapped_getElem? within]
  have was := indexes other position
  by_cases removed : other = entry
  · -- the entry taken out was nowhere else, and the last one took its place
    subst other
    rw [Function.update_self]
    simp only [Nat.zero_ne_add_one, false_iff]
    split
    · next early =>
      split
      · rintro ⟨rfl⟩
        omega
      · intro still
        have twice := was.mpr still
        omega
    · exact nofun
  rw [Function.update_of_ne removed]
  by_cases moved : other = last
  · subst other
    rw [Function.update_self]
    split
    · next early =>
      by_cases same : position = place
      · simp [same]
      · rw [if_neg same, ← was, top]
        omega
    · next late =>
      -- the last entry did not leave, so its new place is before the end
      have apart : place + 1 ≠ entries.length := by
        intro final
        refine removed (Option.some.inj ?_)
        rw [← found, ← (indexes last place).mp (by omega)]
      simp only [reduceCtorEq, iff_false]
      omega
  · rw [Function.update_of_ne moved, was]
    split
    · next early =>
      split
      · next same =>
        rw [same, found]
        simp [Ne.symm removed, Ne.symm moved]
      · rfl
    · next late =>
      simp only [reduceCtorEq, iff_false]
      intro final
      have position_eq : position = entries.length - 1 := by
        have bound := (List.getElem?_eq_some_iff.mp final).1
        omega
      rw [List.getLast?_eq_getElem?, ← position_eq, final] at ends
      exact moved (Option.some.inj ends)

theorem Indexes.mem_swap [DecidableEq α] (indexes : Indexes index entries) (found : entries[place]? = some entry)
    (ends : entries.getLast? = some last) (other : α) :
    other ∈ (entries.set place last).dropLast ↔ other ∈ entries ∧ other ≠ entry := by
  rw [(indexes.swap found ends).mem, indexes.mem]
  by_cases removed : other = entry
  · simp [removed]
  rw [Function.update_of_ne removed]
  by_cases moved : other = last
  · subst other
    have listed : index last ≠ 0 := indexes.mem.mp (List.mem_of_getLast? ends)
    rw [Function.update_self]
    simp [listed, removed]
  · rw [Function.update_of_ne moved]
    simp [removed]

end Solonpad.IndexedList
