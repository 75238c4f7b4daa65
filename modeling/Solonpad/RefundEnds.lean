import Solonpad.RefundConservation

/-!
Where the refund keeper's money is after any run: what a withdrawal took is with the keeper until the order's
credit or the way back to the float takes all of it, once.
-/

namespace Solonpad.RefundKeeper

open Checked SentTasks Transition RunningTotal
open Hub (Order)

/-- What has left the keeper for an order. -/
def State.gone (s : State) (id : Id) : List Nat := s.moved id .credit ++ s.moved id .refill

/-- What was taken for an order and has not left the keeper. -/
def State.inHand (s : State) (id : Id) : Nat := (s.moved id .withdraw).sum - (s.gone id).sum

/-- The records tell what the transactions moved, and what is in hand is in the purse. -/
structure Conserved (s : State) (purse : Nat) : Prop where
  taken : ∀ id amount, (s.records id).withdrawn = some amount → s.moved id .withdraw = [amount]
  once : ∀ id, s.gone id = [] ∨ ∃ amount, (s.records id).withdrawn = some amount ∧ s.gone id = [amount]
  done : ∀ id, (s.records id).done = true → ∃ amount, (s.records id).withdrawn = some amount ∧
    s.moved id .credit = [amount] ∧ s.moved id .refill = []
  returned : ∀ id, (s.records id).returned = true → ∃ amount, (s.records id).withdrawn = some amount ∧
    s.moved id .refill = [amount] ∧ s.moved id .credit = []
  purse : ∃ total, Totals s.inHand total ∧ s.purse = purse + total

variable {c : Config} {s after : State} {id : Id} {amount purse : Nat}

/-! One order. -/

theorem Sound.taken (sound : Sound s) (noted : (s.records id).withdrawn = some amount) :
    s.moved id .withdraw = [amount] := by
  rw [(sound.each id).moved .withdraw, (sound.each id).withdrawn amount noted]
  rfl

/-- The credit and the refill exclude each other. -/
theorem Sound.credited (sound : Sound s) (landed : (s.tasks id .credit).landed = some amount) :
    (s.records id).withdrawn = some amount ∧ s.moved id .credit = [amount] ∧ s.moved id .refill = [] := by
  have live := Sent.content_of_landed landed
  refine ⟨(sound.each id).credit amount live, ?_, ?_⟩
  · rw [(sound.each id).moved .credit, landed]
    rfl
  · rw [(sound.each id).moved .refill]
    cases refilled : (s.tasks id .refill).landed with
    | none => rfl
    | some other =>
      rw [((sound.each id).refill other (Sent.content_of_landed refilled)).2.1] at live
      cases live

theorem Sound.refilled (sound : Sound s) (landed : (s.tasks id .refill).landed = some amount) :
    (s.records id).withdrawn = some amount ∧ s.moved id .refill = [amount] ∧ s.moved id .credit = [] := by
  obtain ⟨noted, uncredited, _⟩ := (sound.each id).refill amount (Sent.content_of_landed landed)
  refine ⟨noted, ?_, ?_⟩
  · rw [(sound.each id).moved .refill, landed]
    rfl
  · rw [(sound.each id).moved .credit, uncredited]
    rfl

theorem Sound.gone (sound : Sound s) (id : Id) :
    s.gone id = [] ∨ ∃ amount, (s.records id).withdrawn = some amount ∧ s.gone id = [amount] := by
  unfold State.gone
  cases credit : (s.tasks id .credit).landed with
  | some amount =>
    obtain ⟨noted, credited, unrefilled⟩ := sound.credited credit
    refine .inr ⟨amount, noted, ?_⟩
    rw [credited, unrefilled]
    rfl
  | none =>
    cases refill : (s.tasks id .refill).landed with
    | some amount =>
      obtain ⟨noted, refilled, uncredited⟩ := sound.refilled refill
      refine .inr ⟨amount, noted, ?_⟩
      rw [refilled, uncredited]
      rfl
    | none =>
      left
      rw [(sound.each id).moved .credit, (sound.each id).moved .refill, credit, refill]
      rfl

/-! The purse. -/

/-- What the keeper was given for the orders is in its purse, beside what was there before. -/
def Holds (purse : Nat) (s : State) : Prop := ∃ total, Totals s.inHand total ∧ s.purse = purse + total

theorem Holds.same (holds : Holds purse s) (moved : after.moved = s.moved) (own : after.purse = s.purse) :
    Holds purse after := by
  obtain ⟨total, sums, held⟩ := holds
  refine ⟨total, sums.of_eq (fun id => ?_) rfl, own.trans held⟩
  simp only [State.inHand, State.gone, moved]

/-- One order's money moves, and the purse with it. -/
theorem Holds.moved (holds : Holds purse s) (id : Id) (others : ∀ other, other ≠ id → after.moved other = s.moved other)
    (own : after.purse + s.inHand id = s.purse + after.inHand id) : Holds purse after := by
  obtain ⟨total, sums, held⟩ := holds
  have same : ∀ other, other ≠ id → after.inHand other = s.inHand other := by
    intro other apart
    simp only [State.inHand, State.gone, others other apart]
  obtain ⟨next, sums', changed⟩ := sums.changed id same
  exact ⟨next, sums', by omega⟩

def sample : Config := ⟨4, 100, false⟩

def sampleOrder : Order :=
  { Order.blank with status := .returning, outcome := some .failed, amountIn := 5 }

def sampleClosed : Order := { sampleOrder with status := .cancelled, held := 5 }

def sampleOrders (id : Id) : Order := if id = 1 ∨ id = 2 then sampleOrder else sampleClosed

/-- A tick that withdraws for an order and records it. -/
def sampleWithdrawal (id : Id) : List Action :=
  [.listed [id], .look 0 20, .submit, .mine id .withdraw sampleClosed, .answered true, .note, .note]

def sampleActions : List Action :=
  ([.tick 0, .reconciledAll, .finish] : List Action) ++ sampleWithdrawal 1 ++
    ([.submit, .answered false, .mine 1 .credit sampleClosed, .look 0 0, .tick 0, .reconciled 1 .credit,
      .reconciledAll, .finish, .crash, .tick 0, .reconciledAll, .finish, .answered false, .finish] : List Action) ++
    sampleWithdrawal 2 ++
    ([.crash, .hub 2 sampleClosed 9, .tick 1, .reconciledAll, .finish, .answered false, .finish, .submit,
      .mine 2 .refill sampleClosed, .answered true, .note] : List Action)

def sampleEnds (s : State) : Bool :=
  decide ((s.records 1).withdrawn = some 5 ∧ s.gone 1 = [5] ∧ (s.records 2).returned = true ∧ s.purse = 0)

theorem sample_run : ∃ s, Reachable (restrict (accepts sample) Careful) (deployed sampleOrders 20 0) s ∧
    sampleEnds s = true :=
  run_passes (step sample) Careful sampleActions (deployed sampleOrders 20 0) sampleEnds (by decide)

end Solonpad.RefundKeeper
