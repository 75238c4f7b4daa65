import Solonpad.Checked
import Solonpad.Transition

/-!
A contract with a lock. A locked call changes the book, asks another contract, and ends well or is
undone as a whole; while it is open, only the calls without the lock get in. What the calls keep,
each on its own, then holds of every book, an open call's and the one it would go back to included.
-/

namespace Solonpad.LockedCalls

open Checked Transition

/-- The calls of a contract over a book `σ`: `free` without the lock, `whole` under it without a call
out, `enter` and `leave` around the call out of a locked call. -/
structure Contract (ε σ φ α ω ι β : Type) where
  free : σ → α → Tx ε σ
  whole : σ → ω → Tx ε σ
  enter : σ → ι → Tx ε (σ × φ)
  leave : σ → φ → β → Tx ε σ

inductive Move (α ω ι β : Type) where
  | free (call : α)
  | whole (call : ω)
  | enter (call : ι)
  | leave (answer : β)

/-- The open call, with the book it goes back to when it fails. -/
structure Situation (σ φ : Type) where
  book : σ
  opened : Option (σ × φ)

variable {ε σ φ α ω ι β : Type}

inductive Step (c : Contract ε σ φ α ω ι β) : Situation σ φ → Move α ω ι β → Situation σ φ → Prop where
  | free {book after : σ} {opened : Option (σ × φ)} {call : α} (taken : c.free book call = .ok after) :
      Step c ⟨book, opened⟩ (.free call) ⟨after, opened⟩
  | whole {book after : σ} {call : ω} (taken : c.whole book call = .ok after) :
      Step c ⟨book, none⟩ (.whole call) ⟨after, none⟩
  | enter {book after : σ} {frame : φ} {call : ι} (taken : c.enter book call = .ok (after, frame)) :
      Step c ⟨book, none⟩ (.enter call) ⟨after, some (book, frame)⟩
  | leave {book saved after : σ} {frame : φ} {answer : β} (taken : c.leave book frame answer = .ok after) :
      Step c ⟨book, some (saved, frame)⟩ (.leave answer) ⟨after, none⟩
  /-- The open call fails and leaves no trace. -/
  | undo {book saved : σ} {frame : φ} {answer : β} {fault : Fault ε}
      (failed : c.leave book frame answer = .error fault) :
      Step c ⟨book, some (saved, frame)⟩ (.leave answer) ⟨saved, none⟩

/-- What the calls keep: `sound` of any book, and `during` of an open call's book and frame. -/
structure Keeps (c : Contract ε σ φ α ω ι β) (sound : σ → Prop) (during : σ → φ → Prop) : Prop where
  free : ∀ book call after, c.free book call = .ok after → sound book →
    sound after ∧ ∀ frame, during book frame → during after frame
  whole : ∀ book call after, c.whole book call = .ok after → sound book → sound after
  enter : ∀ book call after frame, c.enter book call = .ok (after, frame) → sound book →
    sound after ∧ during after frame
  leave : ∀ book frame answer after, c.leave book frame answer = .ok after → sound book →
    during book frame → sound after

/-- The open call's book and the one it would go back to. -/
def Sound (sound : σ → Prop) (during : σ → φ → Prop) (s : Situation σ φ) : Prop :=
  sound s.book ∧ ∀ saved frame, s.opened = some (saved, frame) → sound saved ∧ during s.book frame

variable {c : Contract ε σ φ α ω ι β} {sound : σ → Prop} {during : σ → φ → Prop}

theorem Keeps.step (keeps : Keeps c sound during) {s after : Situation σ φ} {move : Move α ω ι β}
    (taken : Step c s move after) (before : Sound sound during s) : Sound sound during after := by
  obtain ⟨holds, opened⟩ := before
  cases taken with
  | free taken =>
    obtain ⟨next, kept⟩ := keeps.free _ _ _ taken holds
    refine ⟨next, ?_⟩
    intro saved frame open_
    obtain ⟨back, running⟩ := opened saved frame open_
    exact ⟨back, kept frame running⟩
  | whole taken => exact ⟨keeps.whole _ _ _ taken holds, fun _ _ none => by cases none⟩
  | enter taken =>
    obtain ⟨next, running⟩ := keeps.enter _ _ _ _ taken holds
    refine ⟨next, ?_⟩
    intro saved frame open_
    cases open_
    exact ⟨holds, running⟩
  | leave taken =>
    exact ⟨keeps.leave _ _ _ _ taken holds (opened _ _ rfl).2, fun _ _ none => by cases none⟩
  | undo failed => exact ⟨(opened _ _ rfl).1, fun _ _ none => by cases none⟩

theorem Keeps.run (keeps : Keeps c sound during) {start : σ} (initially : sound start)
    {s : Situation σ φ} (reached : Reachable (Step c) ⟨start, none⟩ s) : Sound sound during s := by
  apply reached.invariant
  · exact ⟨initially, fun _ _ none => by cases none⟩
  · intro before move after holds taken
    exact keeps.step taken holds

end Solonpad.LockedCalls
