import Solonpad.VaultBook

/-!
What the vault's log tells of its orders: that one waits, and that an answer may have left the ref money. A call
can leave a settled ref money without a word of it, and `hides` says which calls do.
-/

namespace Solonpad.Vault

open Checked Chain Messages

/-- What a ref has in the vault and was not returned. -/
def State.owed (s : State) (ref : Ref) : Nat := s.funding ref + s.proceeds ref

def State.Waits (s : State) (ref : Ref) : Prop := (s.waiting ref).underlying ≠ 0

/-- A settled ref that is owed the least a return is worth. -/
def State.Due (s : State) (least : Nat) (ref : Ref) : Prop := s.settled ref = true ∧ least ≤ s.owed ref

instance (s : State) (least : Nat) (ref : Ref) : Decidable (s.Due least ref) := inferInstanceAs (Decidable (_ ∧ _))

/-- The order of the ref waits for its money. -/
def Event.awaits (ref : Ref) : Event → Bool
  | .orderWaitingFunds own _ _ => own = ref
  | _ => false

/-- The ref was sold for or failed. -/
def Event.leaves (ref : Ref) : Event → Bool
  | .orderExecuted own _ outcome _ _ _ _ => own = ref ∧ outcome ≠ .bought
  | _ => false

variable (c : Config)

def buys (s : State) (o : Order) (fill : Option Fill) : Bool :=
  match execute c (s.settles o.ref) o fill with
  | .ok done => done.outcome = .bought
  | .error _ => false

/-- What a purchase leaves of the ref's money. -/
def State.leftover (s : State) (o : Order) : Nat := s.owed o.ref - min (s.funding o.ref) o.amountIn

/-- The ref, if any, that a call settles or funds with at least `least` left and without a Sold or Failed event. -/
def hides (least : Nat) (s : State) : Action → Option Ref
  | .fund ref _ got =>
    if s.settled ref = true ∧ least ≤ s.owed ref + (got - s.advanced ref) then some ref else none
  | .lzReceive _ o fill _ =>
    if s.settled o.ref = false ∧ buys c s o fill = true ∧ least ≤ s.leftover o then some o.ref else none
  | .executeFunded ref fill _ =>
    let o := s.waiting ref
    if s.settled o.ref = false ∧ buys c (s.unwait ref) o fill = true ∧ least ≤ s.leftover o then some o.ref
    else none
  | .deliver d _ _ =>
    if s.settled d.ref = false ∧ least ≤ (if d.shares = 0 then 0 else s.owed d.ref) then some d.ref else none
  | _ => none

/-- What a call does for one ref, as its log tells it. -/
structure Told (least : Nat) (s after : State) (action : Action) (more : List Event) (ref : Ref) : Prop where
  waits : after.Waits ref → s.Waits ref ∨ ∃ event ∈ more, event.awaits ref = true
  due : after.Due least ref → s.Due least ref ∨ (∃ event ∈ more, event.leaves ref = true) ∨
    hides c least s action = some ref

variable {c : Config} {least fee : Nat} {s after : State} {action : Action} {ref : Ref} {o : Order}
  {fill : Option Fill} {done : Executed}

/-- A ref that the call leaves alone. -/
theorem Told.same {more : List Event} (waiting : after.waiting ref = s.waiting ref)
    (settled : after.settled ref = s.settled ref) (owed : after.owed ref = s.owed ref) :
    Told c least s after action more ref where
  waits := by
    intro waits
    left
    rw [State.Waits, ← waiting]
    exact waits
  due := by
    rintro ⟨answered, enough⟩
    left
    exact ⟨settled ▸ answered, owed ▸ enough⟩

/-! Answers. -/

theorem executeBuy_owed (ran : executeBuy c s o fill = .ok done) (bought : done.outcome = .bought) :
    done.state.owed o.ref = s.leftover o := by
  simp only [executeBuy] at ran
  have least : (if s.funding o.ref < o.amountIn then s.funding o.ref else o.amountIn) =
      min (s.funding o.ref) o.amountIn := by
    split <;> omega
  rw [least] at ran
  simp only [ite_ok, bind_ok, sub_ok, pure_ok] at ran
  obtain ⟨_, rfl⟩ | ⟨_, _, ⟨_, rfl⟩, ran⟩ := ran
  · cases bought
  split at ran
  · next after shares venue =>
    obtain ⟨_, rfl, _, rfl⟩ := trade_ok _ _ _ _ _ _ _ _ venue
    cases ran
    simp only [State.owed, State.leftover, State.traded, Function.update_self]
    omega
  · cases ran
    cases bought

theorem execute_owed (ran : execute c s o fill = .ok done) (bought : done.outcome = .bought) :
    done.state.owed o.ref = s.leftover o := by
  simp only [execute, ite_ok, pure_ok] at ran
  obtain ⟨_, rfl⟩ | ⟨_, ⟨_, rfl⟩ | ⟨_, ran⟩⟩ := ran
  · cases bought
  · cases bought
  · cases side : o.side with
    | buy =>
      simp only [side, ite_ok, pure_ok] at ran
      obtain ⟨_, rfl⟩ | ⟨_, ⟨_, rfl⟩ | ⟨_, ran⟩⟩ := ran
      · cases bought
      · cases bought
      · exact executeBuy_owed ran bought
    | sell =>
      simp only [side, pure_ok, executeSell] at ran
      subst ran
      split at bought
      · cases bought
      · split at bought <;> cases bought

theorem executes_others (executes : Executes c s o done) :
    done.state.waiting = s.waiting ∧ done.state.settled = s.settled ∧
      ∀ ref, ref ≠ o.ref → done.state.owed ref = s.owed ref := by
  cases executes with
  | failed => exact ⟨rfl, rfl, fun _ _ => rfl⟩
  | bought | sold =>
    refine ⟨rfl, rfl, fun ref apart => ?_⟩
    simp only [State.owed, State.bought, State.sold, Function.update_of_ne apart]

/-- An answer and what it tells. -/
theorem settleAndSend_told (sent : settleAndSend c s o fill fee = .ok after) :
    ∃ event, after.events = s.events ++ [event] ∧
      after.waiting = s.waiting ∧ (∀ ref, ref ≠ o.ref → after.settled ref = s.settled ref ∧
        after.owed ref = s.owed ref) ∧
      (event.leaves o.ref = true ∨ buys c s o fill = true ∧ after.owed o.ref = s.leftover o) := by
  simp only [settleAndSend, bind_ok, require_ok, pure_ok] at sent
  obtain ⟨done, ran, _, _, rfl⟩ := sent
  have executes := execute_ok c _ o fill done ran
  obtain ⟨waiting, settled, others⟩ := executes_others executes
  have events : done.state.events = s.events := by
    cases executes <;> rfl
  refine ⟨_, congrArg (· ++ _) events, waiting, fun ref apart => ⟨?_, others ref apart⟩, ?_⟩
  · rw [settled]
    exact Function.update_of_ne apart ..
  · by_cases bought : done.outcome = .bought
    · right
      have same : execute c (s.settles o.ref) o fill = .ok done := ran
      refine ⟨?_, execute_owed (s := s.settles o.ref) same bought⟩
      rw [buys, same]
      exact decide_eq_true bought
    · left
      simp [Event.leaves, bought]

/-- An answer given from `s` after at most the order was taken out of the waiting ones. -/
theorem answer_told {middle : State} (sent : settleAndSend c middle o fill fee = .ok after)
    (settled : middle.settled = s.settled) (owed : middle.owed = s.owed) (events : middle.events = s.events)
    (waits : ∀ ref, middle.Waits ref → s.Waits ref)
    (hidden : buys c middle o fill = true → least ≤ middle.leftover o → hides c least s action = some o.ref) :
    ∃ more, after.events = s.events ++ more ∧ ∀ ref, Told c least s after action more ref := by
  obtain ⟨event, log, waiting, others, told⟩ := settleAndSend_told sent
  rw [events] at log
  refine ⟨_, log, fun ref => ⟨fun still => .inl (waits ref ?_), fun due => ?_⟩⟩
  · rw [State.Waits, ← waiting]
    exact still
  · by_cases own : ref = o.ref
    · subst own
      right
      rcases told with leaves | ⟨bought, left⟩
      · exact .inl ⟨event, List.mem_singleton_self event, leaves⟩
      · exact .inr (hidden bought (left ▸ due.2))
    · obtain ⟨same, equal⟩ := others ref own
      rw [settled] at same
      rw [owed] at equal
      exact .inl ⟨same ▸ due.1, equal ▸ due.2⟩

theorem buys_positive (bought : buys c s o fill = true) : o.amountIn ≠ 0 := by
  intro void
  rw [buys] at bought
  split at bought
  · next done ran =>
    simp only [execute, void, if_true] at ran
    split at ran <;> cases ran <;> cases of_decide_eq_true bought
  · cases bought

theorem unwait_waits {own : Ref} (still : (s.unwait own).Waits ref) : s.Waits ref := by
  obtain ⟨_, same⟩ := cleared_waiting s.waiting own ref still
  rw [State.Waits, ← same]
  exact still

theorem lzReceive_told {srcEid : Nat} (done : lzReceive c s srcEid o fill fee = .ok after) :
    ∃ more, after.events = s.events ++ more ∧
      ∀ ref, Told c least s after (.lzReceive srcEid o fill fee) more ref := by
  simp only [lzReceive, bind_ok, require_ok, ite_ok, pure_ok] at done
  obtain ⟨_, _, ⟨_, rfl⟩ | ⟨fresh, done⟩⟩ := done
  · exact ⟨_, rfl, fun ref => .same rfl rfl rfl⟩
  simp only [Bool.not_eq_true] at fresh
  rcases done with ⟨⟨_, void⟩, sent⟩ | ⟨_, ⟨_, rfl⟩ | ⟨absent, done⟩⟩
  · exact answer_told sent rfl rfl rfl (fun ref => unwait_waits) (fun bought => absurd void (buys_positive bought))
  · exact ⟨_, rfl, fun ref => .same rfl rfl rfl⟩
  · rcases done with ⟨_, rfl⟩ | ⟨_, sent⟩
    · refine ⟨_, rfl, fun ref => ⟨fun waits => ?_, fun due => .inl due⟩⟩
      by_cases own : ref = o.ref
      · exact .inr ⟨_, List.mem_singleton_self _, decide_eq_true own.symm⟩
      · left
        simpa [State.Waits, State.log, Function.update_of_ne own] using waits
    · refine answer_told sent rfl rfl rfl (fun ref still => still) (fun bought left => ?_)
      simp only [hides]
      rw [if_pos ⟨fresh, bought, left⟩]

theorem executeFunded_told (orderly : s.book.Orderly) (done : executeFunded c s ref fill fee = .ok after) :
    ∃ more, after.events = s.events ++ more ∧
      ∀ other, Told c least s after (.executeFunded ref fill fee) more other := by
  simp only [executeFunded, bind_ok, require_ok, not_or, Bool.not_eq_true] at done
  obtain ⟨_, ⟨present, unanswered⟩, _, _, sent⟩ := done
  have own : (s.waiting ref).ref = ref := (orderly.waiting ref present).1
  refine answer_told sent rfl rfl rfl (fun _ => unwait_waits) (fun bought left => ?_)
  simp only [hides]
  rw [if_pos ⟨by rw [own]; exact unanswered, bought, left⟩]

/-! The other calls. -/

theorem push_told (s : State) (token recipient : Address) (amount : Nat) (accepted : Bool) :
    let after := push c s token recipient amount accepted
    after.events = s.events ∧ after.waiting = s.waiting ∧ after.settled = s.settled ∧ after.owed = s.owed := by
  obtain ⟨_, _, _, pushed, _⟩ := push_spec (c := c) s token recipient amount accepted
  rw [pushed]
  exact ⟨rfl, rfl, rfl, rfl⟩

theorem pay_told (s : State) (token recipient : Address) (amount : Nat) :
    let after := s.pay c token recipient amount
    after.events = s.events ∧ after.waiting = s.waiting ∧ after.settled = s.settled ∧ after.owed = s.owed := by
  obtain ⟨_, paid, _⟩ := pay_spec (c := c) s token recipient amount
  rw [paid]
  exact ⟨rfl, rfl, rfl, rfl⟩

theorem taken_owed (s : State) (own ref : Ref) : (s.taken own).owed ref ≤ s.owed ref := by
  by_cases same : ref = own
  · subst same
    simp [State.taken, State.owed]
  · simp [State.taken, State.owed, Function.update_of_ne same]

/-- A push at the end of a call changes nothing of this. -/
theorem pushed_told {middle : State} (token recipient : Address) (amount : Nat) (accepted : Bool)
    (event : Event) (events : middle.events = s.events) (waits : ∀ ref, middle.Waits ref → s.Waits ref)
    (due : ∀ ref, middle.Due least ref → s.Due least ref ∨ hides c least s action = some ref) :
    ∃ more, ((push c middle token recipient amount accepted).log event).events = s.events ++ more ∧
      ∀ ref, Told c least s ((push c middle token recipient amount accepted).log event) action more ref := by
  obtain ⟨log, waiting, settled, owed⟩ := push_told (c := c) middle token recipient amount accepted
  refine ⟨[event], ?_, fun ref => ⟨fun still => .inl (waits ref ?_), fun still => ?_⟩⟩
  · simp only [State.log, log, events]
  · rw [State.Waits, ← waiting]
    exact still
  · have there : middle.Due least ref := ⟨settled ▸ still.1, owed ▸ still.2⟩
    exact (due ref there).imp_right .inr

/-- A canonical delivery for an unanswered ref settles it with what `left` says. -/
theorem closing_due (s middle : State) (own : Ref) (settled : middle.settled = Function.update s.settled own true)
    (others : ∀ ref, ref ≠ own → middle.owed ref = s.owed ref) (due : middle.Due least ref) :
    s.Due least ref ∨ ref = own ∧ least ≤ middle.owed own := by
  by_cases same : ref = own
  · subst same
    exact .inr ⟨rfl, due.2⟩
  · left
    obtain ⟨answered, enough⟩ := due
    rw [settled, Function.update_of_ne same] at answered
    exact ⟨answered, others ref same ▸ enough⟩

theorem deliver_told {sender now : Nat} {d : Deliver} {accepted : Bool}
    (move : Move c s ⟨sender, now, .deliver d fill accepted⟩ after) :
    ∃ more, after.events = s.events ++ more ∧
      ∀ ref, Told c least s after (.deliver d fill accepted) more ref := by
  have closed {ref : Ref} (unanswered : s.settled d.ref = false)
      (due : s.Due least ref ∨ ref = d.ref ∧ least ≤ if d.shares = 0 then 0 else s.owed d.ref) :
      s.Due least ref ∨ hides c least s (.deliver d fill accepted) = some ref := by
    rcases due with due | ⟨rfl, enough⟩
    · exact .inl due
    · right
      simp only [hides]
      rw [if_pos ⟨unanswered, enough⟩]
  cases move with
  | ignored => exact ⟨_, rfl, fun ref => .same rfl rfl rfl⟩
  | answers _ _ _ origin => cases origin
  | handsOver =>
    refine pushed_told _ _ _ _ _ rfl (fun ref still => still) (fun ref due => .inl ⟨due.1, ?_⟩)
    exact due.2.trans (taken_owed s d.ref ref)
  | closesUnanswered _ _ _ _ _ unanswered none =>
    refine pushed_told _ _ _ _ _ rfl (fun ref => unwait_waits) (fun ref due => closed unanswered ?_)
    refine (closing_due s ((s.closed d.ref d.underlying .failed 0).taken d.ref) d.ref rfl
      (fun other apart => ?_) due).imp_right (And.imp_right fun enough => ?_)
    · simp only [State.owed, State.taken, State.closed, Function.update_of_ne apart]
    · simpa [State.owed, State.taken, none] using enough
  | deliversStock _ _ _ _ _ unanswered some =>
    refine pushed_told _ _ _ _ _ rfl (fun ref => unwait_waits) (fun ref due => closed unanswered ?_)
    rw [if_neg some]
    exact closing_due s (s.delivering d) d.ref rfl (fun other apart => rfl) due
  | deliversSale _ _ _ fill out _ unanswered some =>
    refine pushed_told _ _ _ _ _ rfl (fun ref => unwait_waits) (fun ref due => closed unanswered ?_)
    rw [if_neg some]
    exact closing_due s ((s.delivering d).traded d.underlying c.settlement fill) d.ref rfl
      (fun other apart => rfl) due
  | configured _ configures => exact configures.elim

theorem fund_told (sender : Address) (own : Ref) (amount got : Nat) (ref : Ref) :
    Told c least s (s.funded c sender own got) (.fund own amount got)
      [.funded own sender got (min (s.advanced own) got)] ref where
  waits := fun still => .inl still
  due := by
    rintro ⟨answered, enough⟩
    by_cases same : ref = own
    · subst same
      refine .inr (.inr ?_)
      have total : (s.funded c sender ref got).owed ref = s.owed ref + (got - s.advanced ref) := by
        simp only [State.funded, State.owed, Function.update_self]
        omega
      rw [total] at enough
      simp only [hides]
      rw [if_pos ⟨answered, enough⟩]
    · left
      refine ⟨answered, ?_⟩
      simpa [State.funded, State.owed, Function.update_of_ne same] using enough

/-- The calls that neither answer an order nor deliver. -/
def Action.Quiet : Action → Prop
  | .lzReceive .. | .executeFunded .. | .deliver .. => False
  | _ => True

theorem quiet_told {call : Call} (quiet : call.action.Quiet) (move : Move c s call after) :
    ∃ more, after.events = s.events ++ more ∧ ∀ ref, Told c least s after call.action more ref := by
  have kept {middle : State} (same : middle.events = s.events ∧ middle.waiting = s.waiting ∧
      middle.settled = s.settled ∧ middle.owed = s.owed) :
      ∃ more, middle.events = s.events ++ more ∧ ∀ ref, Told c least s middle call.action more ref := by
    obtain ⟨events, waiting, settled, owed⟩ := same
    refine ⟨[], by rw [List.append_nil, events], fun ref => ?_⟩
    exact .same (congrFun waiting ref) (congrFun settled ref) (congrFun owed ref)
  cases move with
  | ignored _ _ _ order =>
    rcases order with ⟨_, _, _, _, same⟩ | ⟨_, _, _, same⟩
    · rw [same] at quiet
      exact quiet.elim
    · rw [same] at quiet
      exact quiet.elim
  | answers _ o waiting origin =>
    generalize call.action = action at origin quiet
    cases origin with
    | voided | received | funded => exact quiet.elim
  | waits | handsOver | closesUnanswered | deliversStock | deliversSale => exact quiet.elim
  | funded sender _ ref amount got => exact ⟨_, rfl, fund_told sender ref amount got⟩
  | returned _ _ own pulled =>
    refine ⟨_, rfl, fun ref => ⟨fun waits => .inl waits, ?_⟩⟩
    rintro ⟨answered, enough⟩
    exact .inl ⟨answered, enough.trans (taken_owed s own ref)⟩
  | claimed sender _ token =>
    exact kept (pay_told (s.unclaimed sender token) token sender (s.claimable token sender))
  | withdraws _ _ token recipient amount => exact kept (pay_told s token recipient amount)
  | skims _ _ underlying => exact kept (pay_told s underlying c.treasury _)
  | checkpoints | withdrawsNative | migrates | lists | enables | configured | donated | received =>
    exact kept ⟨rfl, rfl, rfl, rfl⟩

/-- What a call does for every ref is told by its log, or hidden by it. -/
theorem step_told (least : Nat) {call : Call} (orderly : s.book.Orderly) (done : step c s call = .ok after) :
    ∃ more, after.events = s.events ++ more ∧ ∀ ref, Told c least s after call.action more ref := by
  have move := step_move c s after call done
  obtain ⟨sender, now, action⟩ := call
  cases action with
  | lzReceive => exact lzReceive_told done
  | executeFunded => exact executeFunded_told orderly done
  | deliver => exact deliver_told move
  | _ => exact quiet_told trivial move

end Solonpad.Vault
