import Mathlib.Data.List.Basic
import Mathlib.Data.List.Pairwise
import Mathlib.Data.List.Nodup
import Mathlib.Logic.Function.Basic
import Mathlib.Tactic.Common

/-!
Entries that wait for a confirmation, in the order they were opened. Confirmations come in any order,
while the queue is only trimmed from its front. Its front is then the oldest entry still open, so a test
of the front's age is a test of all of them.
-/

namespace Solonpad.ConfirmQueue

variable {ρ : Type*}

/-- A queue of what was opened by a time. -/
structure Waiting (opened : ρ → Prop) (since : ρ → Nat) (confirmed : ρ → Bool) (clock : Nat)
    (queue : List ρ) : Prop where
  sorted : queue.Pairwise (since · ≤ since ·)
  once : queue.Nodup
  known : ∀ ref ∈ queue, opened ref
  past : ∀ ref, opened ref → since ref ≤ clock
  complete : ∀ ref, opened ref → confirmed ref = false → ref ∈ queue

variable {opened : ρ → Prop} {since : ρ → Nat} {confirmed : ρ → Bool} {clock : Nat} {queue : List ρ} {ref : ρ}

theorem Waiting.empty (none : ∀ ref, ¬ opened ref) : Waiting opened since confirmed clock [] where
  sorted := .nil
  once := .nil
  known := fun _ member => absurd member List.not_mem_nil
  past := fun ref open' => absurd open' (none ref)
  complete := fun ref open' => absurd open' (none ref)

theorem Waiting.later (waiting : Waiting opened since confirmed clock queue) {now : Nat}
    (order : clock ≤ now) : Waiting opened since confirmed now queue :=
  { waiting with past := fun ref open' => Nat.le_trans (waiting.past ref open') order }

/-- Any entries are confirmed; the queue is not touched. -/
theorem Waiting.confirms (waiting : Waiting opened since confirmed clock queue) {more : ρ → Bool}
    (grows : ∀ ref, confirmed ref = true → more ref = true) : Waiting opened since more clock queue where
  sorted := waiting.sorted
  once := waiting.once
  known := waiting.known
  past := waiting.past
  complete := by
    intro ref open' unconfirmed
    apply waiting.complete ref open'
    cases before : confirmed ref with
    | true => exact absurd (grows ref before) (by simp [unconfirmed])
    | false => rfl

/-- What is dropped from the front is confirmed. -/
theorem dropped_confirmed (member : ref ∈ queue) (unconfirmed : confirmed ref = false) :
    ref ∈ queue.dropWhile confirmed := by
  induction queue with
  | nil => cases member
  | cons front rest ih =>
    rcases List.mem_cons.mp member with rfl | later
    · simp [unconfirmed]
    · by_cases settled : confirmed front = true
      · rw [List.dropWhile_cons_of_pos settled]
        exact ih later
      · rw [List.dropWhile_cons_of_neg settled]
        exact member

theorem Waiting.trims (waiting : Waiting opened since confirmed clock queue) :
    Waiting opened since confirmed clock (queue.dropWhile confirmed) where
  sorted := waiting.sorted.sublist (List.dropWhile_sublist _)
  once := waiting.once.sublist (List.dropWhile_sublist _)
  known := fun ref member => waiting.known ref ((List.dropWhile_sublist _).mem member)
  past := waiting.past
  complete := fun ref open' unconfirmed =>
    dropped_confirmed (waiting.complete ref open' unconfirmed) unconfirmed

/-- A new entry is the youngest. -/
theorem Waiting.opens [DecidableEq ρ] (waiting : Waiting opened since confirmed clock queue)
    (fresh : ¬ opened ref) {more : ρ → Prop} (adds : ∀ other, more other ↔ opened other ∨ other = ref) :
    Waiting more (Function.update since ref clock) confirmed clock (queue ++ [ref]) := by
  have older : ∀ other, opened other → Function.update since ref clock other = since other := by
    intro other open'
    apply Function.update_of_ne
    rintro rfl
    exact fresh open'
  constructor
  · rw [List.pairwise_append]
    refine ⟨?_, List.pairwise_singleton .., ?_⟩
    · apply waiting.sorted.imp_of_mem
      intro first second inside also le
      rw [older first (waiting.known first inside), older second (waiting.known second also)]
      exact le
    · intro first inside last only
      rw [List.mem_singleton.mp only, Function.update_self, older first (waiting.known first inside)]
      exact waiting.past first (waiting.known first inside)
  · rw [List.nodup_append]
    refine ⟨waiting.once, List.nodup_singleton ref, ?_⟩
    intro first inside last only same
    rw [List.mem_singleton.mp only] at same
    exact fresh (same ▸ waiting.known first inside)
  · intro other member
    rcases List.mem_append.mp member with inside | only
    · exact (adds other).mpr (.inl (waiting.known other inside))
    · exact (adds other).mpr (.inr (List.mem_singleton.mp only))
  · intro other open'
    rcases (adds other).mp open' with before | rfl
    · rw [older other before]
      exact waiting.past other before
    · exact Nat.le_of_eq (Function.update_self ..)
  · intro other open' unconfirmed
    rcases (adds other).mp open' with before | rfl
    · exact List.mem_append_left _ (waiting.complete other before unconfirmed)
    · exact List.mem_append_right _ (List.mem_singleton_self _)

/-- The front is the oldest of all that is open. -/
theorem Waiting.front_oldest {front : ρ} {rest : List ρ}
    (waiting : Waiting opened since confirmed clock (front :: rest)) (open' : opened ref)
    (unconfirmed : confirmed ref = false) : since front ≤ since ref := by
  rcases List.mem_cons.mp (waiting.complete ref open' unconfirmed) with rfl | later
  · exact Nat.le_refl _
  · exact List.rel_of_pairwise_cons waiting.sorted later

/-- Nothing is open when nothing waits. -/
theorem Waiting.none_open (waiting : Waiting opened since confirmed clock []) (open' : opened ref) :
    confirmed ref = true := by
  cases known : confirmed ref with
  | true => rfl
  | false => exact absurd (waiting.complete ref open' known) List.not_mem_nil

end Solonpad.ConfirmQueue
