import Mathlib.Data.List.Basic
import Mathlib.Tactic.Common

/-!
Two append-only logs whose entries carry the values of one growing counter, read in that order
through two cursors. What is still unread is the merge of the two tails: a reader takes its first
entry, and an entry logged at the counter's next value goes to its end, whichever log it is in.
-/

namespace Solonpad.MergedLog

variable {ε : Type*} (key : ε → Nat)

structure Cursors where
  left : Nat
  right : Nat

/-- The next entry in the order of the keys, and the cursors behind it. -/
def next (left right : List ε) (c : Cursors) : Option (ε × Cursors) :=
  match left[c.left]?, right[c.right]? with
  | none, none => none
  | some first, none => some (first, { c with left := c.left + 1 })
  | none, some second => some (second, { c with right := c.right + 1 })
  | some first, some second =>
    if key first < key second then some (first, { c with left := c.left + 1 })
    else some (second, { c with right := c.right + 1 })

def merged (left right : List ε) : List ε :=
  left.merge right (fun first second => decide (key first < key second))

def unread (left right : List ε) (c : Cursors) : List ε :=
  merged key (left.drop c.left) (right.drop c.right)

/-- Both cursors stand inside their logs or at their ends. -/
def Within (left right : List ε) (c : Cursors) : Prop := c.left ≤ left.length ∧ c.right ≤ right.length

variable {key} {left right : List ε} {c : Cursors} {entry : ε}

theorem merged_nil (left : List ε) : merged key left [] = left := List.merge_right left

theorem nil_merged (right : List ε) : merged key [] right = right := List.nil_merge right

theorem merged_cons (first second : ε) (left right : List ε) :
    merged key (first :: left) (second :: right) =
      if key first < key second then first :: merged key left (second :: right)
      else second :: merged key (first :: left) right := by
  rw [merged, List.cons_merge_cons]
  by_cases before : key first < key second
  · simp only [decide_eq_true before, if_true, if_pos before]
    rfl
  · simp only [decide_eq_false before, Bool.false_eq_true, if_false, if_neg before]
    rfl

theorem mem_merged : entry ∈ merged key left right ↔ entry ∈ left ∨ entry ∈ right := List.mem_merge

theorem length_merged (left right : List ε) :
    (merged key left right).length = left.length + right.length := List.length_merge _ _ _

/-! Reading. -/

theorem drop_of_get {log : List ε} {i : Nat} (found : log[i]? = some entry) :
    log.drop i = entry :: log.drop (i + 1) := by
  obtain ⟨inside, rfl⟩ := List.getElem?_eq_some_iff.mp found
  exact List.drop_eq_getElem_cons inside

theorem drop_of_none {log : List ε} {i : Nat} (past : log[i]? = none) : log.drop i = [] :=
  List.drop_eq_nil_of_le (List.getElem?_eq_none_iff.mp past)

/-- Nothing is next exactly when nothing is unread. -/
theorem next_none (read : next key left right c = none) : unread key left right c = [] := by
  unfold next at read
  split at read
  · next noLeft noRight =>
    rw [unread, drop_of_none noLeft, drop_of_none noRight]
    exact nil_merged []
  · cases read
  · cases read
  · split at read
    · cases read
    · cases read

/-- A reader takes the first unread entry. -/
theorem next_some {after : Cursors} (read : next key left right c = some (entry, after)) :
    unread key left right c = entry :: unread key left right after := by
  unfold next at read
  rw [unread, unread]
  split at read
  · cases read
  · next first found past =>
    cases read
    rw [drop_of_get found, drop_of_none past, merged_nil, merged_nil]
  · next second past found =>
    cases read
    rw [drop_of_none past, drop_of_get found, nil_merged, nil_merged]
  · next first second found found' =>
    split at read
    · next before =>
      cases read
      rw [drop_of_get found, drop_of_get found', merged_cons, if_pos before]
    · next behind =>
      cases read
      rw [drop_of_get found, drop_of_get found', merged_cons, if_neg behind]

theorem next_within {after : Cursors} (within : Within left right c)
    (read : next key left right c = some (entry, after)) : Within left right after := by
  obtain ⟨low, high⟩ := within
  unfold next at read
  split at read
  · cases read
  · next found _ =>
    cases read
    exact ⟨(List.getElem?_eq_some_iff.mp found).1, high⟩
  · next _ found =>
    cases read
    exact ⟨low, (List.getElem?_eq_some_iff.mp found).1⟩
  · next found found' =>
    split at read
    · cases read
      exact ⟨(List.getElem?_eq_some_iff.mp found).1, high⟩
    · cases read
      exact ⟨low, (List.getElem?_eq_some_iff.mp found').1⟩

/-! Logging. -/

/-- An entry beyond every key goes to the end, from the left log. -/
theorem merged_left (left right : List ε) (beyond : ∀ other ∈ right, key other < key entry) :
    merged key (left ++ [entry]) right = merged key left right ++ [entry] := by
  induction left generalizing right with
  | nil =>
    rw [List.nil_append, nil_merged]
    induction right with
    | nil => rw [merged_nil, List.nil_append]
    | cons second rest ih =>
      have above := beyond second (List.mem_cons_self ..)
      rw [merged_cons, if_neg (by omega), ih (fun other member => beyond other (List.mem_cons_of_mem _ member))]
      rfl
  | cons first left ih =>
    induction right with
    | nil => rw [merged_nil, merged_nil]
    | cons second rest inner =>
      rw [List.cons_append, merged_cons, merged_cons]
      by_cases before : key first < key second
      · rw [if_pos before, if_pos before, ih (second :: rest) beyond]
        rfl
      · have later := inner (fun other member => beyond other (List.mem_cons_of_mem _ member))
        rw [List.cons_append] at later
        rw [if_neg before, if_neg before, later]
        rfl

/-- And from the right log. -/
theorem merged_right (left right : List ε) (beyond : ∀ other ∈ left, key other < key entry) :
    merged key left (right ++ [entry]) = merged key left right ++ [entry] := by
  induction left generalizing right with
  | nil => rw [nil_merged, nil_merged]
  | cons first left ih =>
    have above := beyond first (List.mem_cons_self ..)
    have rest := fun right => ih right (fun other member => beyond other (List.mem_cons_of_mem _ member))
    induction right with
    | nil =>
      have last := rest []
      rw [List.nil_append, merged_nil] at last
      rw [List.nil_append, merged_cons, if_pos above, last, merged_nil]
      rfl
    | cons second right inner =>
      rw [List.cons_append, merged_cons, merged_cons]
      by_cases before : key first < key second
      · have later := rest (second :: right)
        rw [List.cons_append] at later
        rw [if_pos before, if_pos before, later]
        rfl
      · rw [if_neg before, if_neg before, inner]
        rfl

theorem unread_left (within : Within left right c) (beyond : ∀ other ∈ right, key other < key entry) :
    unread key (left ++ [entry]) right c = unread key left right c ++ [entry] := by
  rw [unread, unread, List.drop_append_of_le_length within.1]
  apply merged_left
  intro other member
  exact beyond other (List.mem_of_mem_drop member)

theorem unread_right (within : Within left right c) (beyond : ∀ other ∈ left, key other < key entry) :
    unread key left (right ++ [entry]) c = unread key left right c ++ [entry] := by
  rw [unread, unread, List.drop_append_of_le_length within.2]
  apply merged_right
  intro other member
  exact beyond other (List.mem_of_mem_drop member)

end Solonpad.MergedLog
