import Mathlib.Data.List.Basic
import Mathlib.Tactic.Common

/-!
A cursor that walks a range page by page and starts over at its end. The trace of what was visited is cut
where the cursor is reset; each cut piece is the whole range in order, and the piece under way is the range
up to the cursor.
-/

namespace Solonpad.CursorCycle

structure Trace where
  /-- What was visited between two resets. -/
  cycles : List (List Nat)
  /-- What was visited since the last one. -/
  current : List Nat

def Trace.empty : Trace := ⟨[], []⟩

def Trace.reset (t : Trace) : Trace := ⟨t.cycles ++ [t.current], []⟩

def Trace.visit (t : Trace) (items : List Nat) : Trace := ⟨t.cycles, t.current ++ items⟩

/-- A page, with whether the cursor is reset before it. -/
def Trace.page (t : Trace) (reset : Bool) (items : List Nat) : Trace :=
  (if reset then t.reset else t).visit items

@[simp]
theorem Trace.page_nothing (t : Trace) : t.page false [] = t := by
  unfold Trace.page Trace.visit
  rw [if_neg Bool.false_ne_true, List.append_nil]

/-- Cycles over a range of so many items from the first one on. -/
structure Cycles (first bound cursor : Nat) (t : Trace) : Prop where
  whole : ∀ cycle ∈ t.cycles, cycle = List.range' first bound
  current : t.current = List.range' first cursor
  within : cursor ≤ bound

variable {first bound cursor : Nat} {t : Trace}

theorem Cycles.empty (first bound : Nat) : Cycles first bound 0 .empty where
  whole _ member := absurd member List.not_mem_nil
  current := rfl
  within := Nat.zero_le bound

theorem Cycles.reset (cycles : Cycles first bound cursor t) (done : cursor = bound) :
    Cycles first bound 0 t.reset where
  whole cycle member := by
    rcases List.mem_append.mp member with old | new
    · exact cycles.whole cycle old
    · rw [List.mem_singleton.mp new, cycles.current, done]
  current := rfl
  within := Nat.zero_le bound

theorem Cycles.visit (cycles : Cycles first bound cursor t) {n : Nat} (fits : cursor + n ≤ bound) :
    Cycles first bound (cursor + n) (t.visit (List.range' (first + cursor) n)) where
  whole := cycles.whole
  current := by
    rw [Trace.visit, cycles.current, List.range'_append_1]
  within := fits

/-- Where a page begins: over again once the cursor is at the end. -/
def begins (bound cursor : Nat) : Nat := if cursor = bound then 0 else cursor

theorem begins_le (within : cursor ≤ bound) : begins bound cursor ≤ bound := by
  unfold begins
  split
  · exact Nat.zero_le _
  · exact within

/-- A page of items from where it begins keeps the cycles, whether it wraps or not. -/
theorem Cycles.page (cycles : Cycles first bound cursor t) {n : Nat} (fits : begins bound cursor + n ≤ bound) :
    Cycles first bound (begins bound cursor + n)
      (t.page (decide (cursor = bound)) (List.range' (first + begins bound cursor) n)) := by
  unfold begins Trace.page at *
  by_cases done : cursor = bound
  · rw [if_pos done] at fits ⊢
    rw [if_pos (decide_eq_true done)]
    exact (cycles.reset done).visit fits
  · rw [if_neg done] at fits ⊢
    rw [if_neg (by simpa using done)]
    exact cycles.visit fits

end Solonpad.CursorCycle
