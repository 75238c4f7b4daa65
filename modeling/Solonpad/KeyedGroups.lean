import Mathlib.Data.List.Nodup
import Mathlib.Data.List.Perm.Basic

/-!
Grouping by a key in the order the keys first come up, each group in the order of its items. Nothing is lost
or doubled, a group holds one key's items, and no key has two groups; so a function that returns items of the
group it is given leaves, of each key, what it leaves of that key's group.
-/

namespace Solonpad.KeyedGroups

variable {α κ : Type*} [DecidableEq κ]

def insert (key : κ) (item : α) : List (κ × List α) → List (κ × List α)
  | [] => [(key, [item])]
  | (other, group) :: rest =>
    if other = key then (other, group ++ [item]) :: rest else (other, group) :: insert key item rest

def collect (key : α → κ) (items : List α) : List (κ × List α) :=
  items.foldl (fun groups item => insert (key item) item groups) []

variable {key : α → κ} {groups : List (κ × List α)} {group : κ × List α} {f : κ × List α → List α}

/-- Every group's items have its key. -/
def Keyed (key : α → κ) (groups : List (κ × List α)) : Prop :=
  ∀ group ∈ groups, ∀ item ∈ group.2, key item = group.1

theorem insert_perm (key : κ) (item : α) (groups : List (κ × List α)) :
    ((insert key item groups).flatMap Prod.snd).Perm (groups.flatMap Prod.snd ++ [item]) := by
  induction groups with
  | nil => exact .refl _
  | cons head rest ih =>
    obtain ⟨other, group⟩ := head
    simp only [insert]
    split
    · simp only [List.flatMap_cons, List.append_assoc]
      exact .append_left group List.perm_append_comm
    · simp only [List.flatMap_cons, List.append_assoc]
      exact .append_left group ih

theorem insert_keyed (item : α) (keyed : Keyed key groups) : Keyed key (insert (key item) item groups) := by
  induction groups with
  | nil =>
    intro group member
    rw [insert, List.mem_singleton] at member
    subst member
    simp
  | cons head rest ih =>
    obtain ⟨other, group⟩ := head
    obtain ⟨first, later⟩ := List.forall_mem_cons.mp keyed
    simp only [insert]
    split
    · next same =>
      refine List.forall_mem_cons.mpr ⟨fun one member => ?_, later⟩
      rcases List.mem_append.mp member with before | new
      · exact first one before
      · rw [List.mem_singleton.mp new, same]
    · exact List.forall_mem_cons.mpr ⟨first, ih later⟩

theorem mem_insert_keys (key : κ) (item : α) (groups : List (κ × List α)) (other : κ) :
    other ∈ (insert key item groups).map Prod.fst ↔ other ∈ groups.map Prod.fst ∨ other = key := by
  induction groups with
  | nil => simp [insert]
  | cons head rest ih =>
    obtain ⟨first, group⟩ := head
    simp only [insert]
    split
    · next same =>
      simp only [List.map_cons, List.mem_cons, same]
      tauto
    · simp only [List.map_cons, List.mem_cons, ih]
      tauto

theorem insert_nodup (key : κ) (item : α) (nodup : (groups.map Prod.fst).Nodup) :
    ((insert key item groups).map Prod.fst).Nodup := by
  induction groups with
  | nil => simp [insert]
  | cons head rest ih =>
    obtain ⟨first, group⟩ := head
    obtain ⟨absent, later⟩ := List.nodup_cons.mp nodup
    simp only [insert]
    split
    · exact nodup
    · next different =>
      refine List.nodup_cons.mpr ⟨fun member => ?_, ih later⟩
      rcases (mem_insert_keys key item rest first).mp member with before | new
      · exact absent before
      · exact different new

/-- What holds of no groups and is kept by every insertion holds of the collected ones. -/
theorem collect_invariant (holds : List α → List (κ × List α) → Prop) (none : holds [] [])
    (kept : ∀ earlier item groups, holds earlier groups → holds (earlier ++ [item]) (insert (key item) item groups))
    (items : List α) : holds items (collect key items) := by
  suffices ∀ earlier groups, holds earlier groups →
      holds (earlier ++ items) (items.foldl (fun groups item => insert (key item) item groups) groups) from
    this [] [] none
  induction items with
  | nil =>
    intro earlier groups known
    rwa [List.append_nil]
  | cons item rest ih =>
    intro earlier groups known
    have next := ih (earlier ++ [item]) _ (kept earlier item groups known)
    rwa [List.append_assoc] at next

theorem collect_perm (key : α → κ) (items : List α) : ((collect key items).flatMap Prod.snd).Perm items :=
  collect_invariant (fun items groups => (groups.flatMap Prod.snd).Perm items) (.refl _)
    (fun _ item groups known => (insert_perm (key item) item groups).trans (known.append_right [item])) items

theorem collect_keyed (key : α → κ) (items : List α) : Keyed key (collect key items) :=
  collect_invariant (fun _ => Keyed key) (fun _ member => absurd member List.not_mem_nil)
    (fun _ item _ known => insert_keyed item known) items

theorem collect_nodup (key : α → κ) (items : List α) : ((collect key items).map Prod.fst).Nodup :=
  collect_invariant (fun _ groups => (groups.map Prod.fst).Nodup) List.nodup_nil
    (fun _ item _ known => insert_nodup (key item) item known) items

/-- A group leaves nothing of another key. -/
theorem filter_other (items : ∀ item ∈ group.2, key item = group.1) {part : List α} (inside : part ⊆ group.2)
    {one : κ} (other : group.1 ≠ one) : part.filter (key · = one) = [] := by
  refine List.filter_eq_nil_iff.mpr fun item member => ?_
  rw [decide_eq_true_iff, items item (inside member)]
  exact other

theorem filter_absent (keyed : Keyed key groups) (inside : ∀ group, f group ⊆ group.2) {one : κ}
    (absent : one ∉ groups.map Prod.fst) : (groups.flatMap f).filter (key · = one) = [] := by
  induction groups with
  | nil => rfl
  | cons head rest ih =>
    obtain ⟨first, later⟩ := List.forall_mem_cons.mp keyed
    rw [List.map_cons, List.mem_cons, not_or] at absent
    rw [List.flatMap_cons, List.filter_append, filter_other first (inside head) (Ne.symm absent.1),
      ih later absent.2, List.append_nil]

/-- Of one key, only what comes of its group is left. -/
theorem filter_listed (keyed : Keyed key groups) (nodup : (groups.map Prod.fst).Nodup)
    (inside : ∀ group, f group ⊆ group.2) (listed : group ∈ groups) :
    (groups.flatMap f).filter (key · = group.1) = f group := by
  induction groups with
  | nil => exact absurd listed List.not_mem_nil
  | cons head rest ih =>
    obtain ⟨first, later⟩ := List.forall_mem_cons.mp keyed
    obtain ⟨absent, distinct⟩ := List.nodup_cons.mp nodup
    rw [List.flatMap_cons, List.filter_append]
    rcases List.mem_cons.mp listed with rfl | behind
    · have whole : (f group).filter (key · = group.1) = f group := by
        refine List.filter_eq_self.mpr fun item member => ?_
        rw [decide_eq_true_iff, first item (inside group member)]
      rw [whole, filter_absent later inside absent, List.append_nil]
    · have other : head.1 ≠ group.1 := by
        intro same
        exact absent (same ▸ List.mem_map_of_mem behind)
      rw [filter_other first (inside head) other, List.nil_append]
      exact ih later distinct behind

end Solonpad.KeyedGroups
