import Solonpad.HubSteps

/-!
What an order keeps once it is placed. Its deal stays, it is never queued again, its first answer is its
last, and a filled order stays filled.
-/

namespace Solonpad.Hub

open Checked Chain Messages

variable {c : Config} {p : Promises} {a : Action} {s after : State} {o next : Order} {own : Nat}

structure Order.Goes (o next : Order) : Prop where
  deal : next.deal = o.deal
  queued : next.status = .pending → o.status = .pending
  answered : o.outcome ≠ none → next.outcome = o.outcome
  filled : o.status = .filled → next.status = .filled

theorem Order.Goes.refl (o : Order) : o.Goes o := ⟨rfl, fun queued => queued, fun _ => rfl, fun filled => filled⟩

theorem Order.Goes.trans {middle : Order} (first : o.Goes middle) (second : middle.Goes next) :
    o.Goes next where
  deal := second.deal.trans first.deal
  queued := fun queued => first.queued (second.queued queued)
  answered := by
    intro answered
    have kept := first.answered answered
    rw [second.answered (kept ▸ answered), kept]
  filled := fun filled => second.filled (first.filled filled)

/-- An order that is still open moves on. -/
theorem Order.Goes.on (deal : next.deal = o.deal) (left : next.status ≠ .pending) (live : o.status ≠ .filled)
    (outcome : o.outcome = none ∨ next.outcome = o.outcome) : o.Goes next where
  deal := deal
  queued := fun queued => absurd queued left
  answered := by
    intro answered
    rcases outcome with none | same
    · exact absurd none answered
    · exact same
  filled := fun filled => absurd filled live

theorem Turn.goes (turn : Turn o next) (deal : next.deal = o.deal) : o.Goes next := by
  cases turn with
  | keeps phase refund =>
    obtain ⟨status, outcome, _⟩ := phase_spec phase
    exact ⟨deal, fun queued => status ▸ queued, fun _ => outcome, fun filled => status.trans filled⟩
  | refunded _ _ pending _ phase =>
    obtain ⟨status, outcome, _⟩ := phase_spec phase
    exact .on deal (by simp [status]) (by simp [pending]) (.inr outcome)
  | floatRefunded _ dispatched _ phase =>
    obtain ⟨status, outcome, _⟩ := phase_spec phase
    exact .on deal (by simp [status]) (by simp [dispatched]) (.inr outcome)
  | closed _ returning phase =>
    obtain ⟨status, outcome, _⟩ := phase_spec phase
    exact .on deal (by simp [status]) (by simp [returning]) (.inr outcome)
  | paid _ proceeds _ phase =>
    obtain ⟨status, outcome, _⟩ := phase_spec phase
    exact .on deal (by simp [status]) (by simp [proceeds]) (.inr outcome)

theorem Sends.live {id : Nat} {m : Messages.Order} (sends : Sends id o m) : o.status ≠ .filled := by
  cases sends with
  | order open' => rcases open' with funded | ⟨_, pending⟩ <;> simp [*]
  | void _ _ open' => rcases open' with funded | dispatched | ⟨cancelled, _⟩ <;> simp [*]

theorem Delivers.live {shares : Nat} (why : Delivers o shares) : o.status ≠ .filled := by
  cases why with
  | sell _ open' => rcases open' with dispatched | pending <;> simp [*]
  | void _ _ _ open' => rcases open' with funded | dispatched <;> simp [*]
  | money _ open' => rcases open' with returning | proceeds <;> simp [*]

theorem unanswered_live (open' : unanswered o) : o.outcome = none ∧ o.status ≠ .filled := by
  obtain ⟨none, dispatched | ⟨_, escalated⟩⟩ := open'
  · exact ⟨none, by simp [dispatched]⟩
  · exact ⟨none, by simp [escalated]⟩

/-- One order rewritten, the rest as they were. -/
theorem goes_update (orders : Nat → Order) (id : Nat) (next : Order) (goes : (orders id).Goes next) (own : Nat) :
    (orders own).Goes (Function.update orders id next own) := by
  by_cases same : own = id
  · subst same
    rw [Function.update_self]
    exact goes
  · rw [Function.update_of_ne same]
    exact .refl _

/-- A new order, and those before it as they were. -/
theorem goes_placed (orders : Nat → Order) {count : Nat} (o : Order) (placed : own < count) :
    (orders own).Goes (Function.update orders count o own) := by
  rw [Function.update_of_ne (Nat.ne_of_lt placed)]
  exact .refl _

theorem move_goes (regular : Regular s) (move : Move c p a s after) (known : own < s.orderCount) :
    (s.orders own).Goes (after.orders own) := by
  cases move with
  | controls | funds | migrated | reviews | marks | outside | transfers => exact .refl _
  | placesBuy | placesReward | placesSell | redeems => exact goes_placed _ _ known
  | turned id next _ _ _ deal turn => exact goes_update _ id next (turn.goes deal) own
  | floatPaid id next _ _ _ deal _ _ proceeds _ phase =>
    obtain ⟨status, outcome, _⟩ := phase_spec phase
    exact goes_update _ id next (.on deal (by simp [status]) (by simp [proceeds]) (.inr outcome)) own
  | launches id next _ _ _ _ deal _ pending _ phase =>
    obtain ⟨status, outcome, _⟩ := phase_spec phase
    exact goes_update _ id next (.on deal (by simp [status]) (by simp [pending]) (.inr outcome)) own
  | sends id next _ m _ deal message _ phase =>
    obtain ⟨status, outcome, _⟩ := phase_spec phase
    refine goes_update _ id next (.on deal ?_ message.live (.inr outcome)) own
    rw [status]
    split <;> exact nofun
  | delivers id next _ _ _ _ deal why _ phase =>
    obtain ⟨status, outcome, _⟩ := phase_spec phase
    exact goes_update _ id next (.on deal (by simp [status]) why.live (.inr outcome)) own
  | bought id r canonical next _ _ _ _ _ _ _ _ deal _ _ open' =>
    refine goes_update _ id next ?_ own
    rcases open' with ⟨open', phase⟩ | ⟨cancelled, _, none, phase⟩
    · obtain ⟨none, live⟩ := unanswered_live open'
      exact .on deal (by simp [(phase_spec phase).1]) live (.inl none)
    · exact .on deal (by simp [(phase_spec phase).1]) (by simp [cancelled]) (.inl none)
  | sold id r canonical next _ _ _ _ _ deal _ none open' _ phase =>
    refine goes_update _ id next (.on deal ?_ ?_ (.inl none)) own
    · rw [(phase_spec phase).1]
      split <;> exact nofun
    · rcases open' with dispatched | pending | escalated <;> simp [*]
  | buyFailed id r canonical next _ _ _ _ _ deal _ open' =>
    refine goes_update _ id next ?_ own
    rcases open' with ⟨open' | pending, phase⟩ | ⟨cancelled, _, none, phase⟩
    · obtain ⟨none, live⟩ := unanswered_live open'
      exact .on deal (by simp [(phase_spec phase).1]) live (.inl none)
    · exact .on deal (by simp [(phase_spec phase).1]) (by simp [pending])
        (.inl ((regular.orders id).pending pending).1)
    · exact .on deal (by simp [(phase_spec phase).1]) (by simp [cancelled]) (.inl none)
  | sellFailed id r canonical next _ _ _ _ _ _ deal _ open' _ phase =>
    refine goes_update _ id next ?_ own
    rcases open' with ⟨none, dispatched | escalated⟩ | pending
    · exact .on deal (by simp [(phase_spec phase).1]) (by simp [dispatched]) (.inl none)
    · exact .on deal (by simp [(phase_spec phase).1]) (by simp [escalated]) (.inl none)
    · exact .on deal (by simp [(phase_spec phase).1]) (by simp [pending])
        (.inl ((regular.orders id).pending pending).1)
  | withdrawn id next _ _ _ deal _ _ pending phase =>
    obtain ⟨status, outcome, _⟩ := phase_spec phase
    exact goes_update _ id next (.on deal (by simp [status]) (by simp [pending]) (.inr outcome)) own

theorem Moves.goes (regular : Regular s) (moves : Moves c p a s after) (known : own < s.orderCount) :
    (s.orders own).Goes (after.orders own) := by
  induction moves with
  | refl => exact .refl _
  | tail before move ih =>
    exact ih.trans (move_goes (Moves.regular regular before) move (Nat.lt_of_lt_of_le known (Moves.grows before)))

end Solonpad.Hub
