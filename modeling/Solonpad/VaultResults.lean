import Solonpad.VaultBook

/-!
One answer for every ref, and every ref's own money. The events tell what was paid for a
ref, what its execution spent and what left the vault for it; while no float advances
money the three and the ref's funding always balance, and a settled ref reaches the venue
no more.
-/

namespace Solonpad.Vault

open Checked Chain Messages Transition

/-! What one event says about one ref. -/

/-- The vault took the ref to the venue, or out of its own stock, in this event. -/
def Event.executes (ref : Ref) : Event → Bool
  | .orderExecuted own .. => own = ref
  | .delivered own .. => own = ref
  | _ => false

def Event.paidIn (ref : Ref) : Event → Nat
  | .funded own _ amount _ => if own = ref then amount else 0
  | _ => 0

def Event.spent (ref : Ref) : Event → Nat
  | .orderExecuted own _ .bought amountIn _ _ _ => if own = ref then amountIn else 0
  | _ => 0

/-- What was the ref's own funding of a return or a handover. -/
def Event.handedBack (ref : Ref) : Event → Nat
  | .fundsReturned own funding _ => if own = ref then funding else 0
  | .liabilitiesDelivered own _ funding _ => if own = ref then funding else 0
  | _ => 0

def bookedSpent (ref : Ref) (r : Result) : Nat :=
  if r.ref = ref ∧ r.outcome = .bought then r.amountIn else 0

def State.tally (s : State) (worth : Event → Nat) : Nat := (s.events.map worth).sum

def State.executions (s : State) (ref : Ref) : List Event := s.events.filter (Event.executes ref)

variable {s after : State} {o : Order} {done : Executed} {call : Call} {ref : Ref}

theorem tally_more (event : Event) (more : after.events = s.events ++ [event]) (worth : Event → Nat) :
    after.tally worth = s.tally worth + worth event := by
  simp [State.tally, more]

variable {c : Config}

/-! Transfers leave the refs' money and the events alone. -/

theorem push_money (s : State) (token recipient : Address) (amount : Nat) (accepted : Bool) :
    let after := push c s token recipient amount accepted
    after.events = s.events ∧ after.funding = s.funding ∧ after.advanced = s.advanced ∧
      after.results = s.results := by
  obtain ⟨_, _, _, pushed, _⟩ := push_spec (c := c) s token recipient amount accepted
  rw [pushed]
  exact ⟨rfl, rfl, rfl, rfl⟩

theorem pay_money (s : State) (token recipient : Address) (amount : Nat) :
    let after := s.pay c token recipient amount
    after.events = s.events ∧ after.funding = s.funding ∧ after.advanced = s.advanced ∧
      after.results = s.results := by
  obtain ⟨_, paid, _⟩ := pay_spec (c := c) s token recipient amount
  rw [paid]
  exact ⟨rfl, rfl, rfl, rfl⟩

/-! A settled ref reaches the venue no more. -/

theorem executes_events (executes : Executes c s o done) : done.state.events = s.events := by
  cases executes <;> rfl

/-- The events of a call are those before it and at most one more. That one executes a ref only
where the ref had no answer yet. -/
theorem move_events (orderly : s.book.Orderly) (move : Move c s call after) : after.events = s.events ∨
      ∃ event, after.events = s.events ++ [event] ∧
        ∀ ref, event.executes ref = true → s.settled ref = false := by
  cases move with
  | ignored | waits | funded | returned =>
    exact .inr ⟨_, rfl, fun ref executed => by cases executed⟩
  | answers _ o waiting origin done fee executes =>
    right
    have kept := executes_events executes
    refine ⟨_, congrArg (· ++ _) kept, fun ref executed => ?_⟩
    have same : o.ref = ref := by simpa [Event.executes] using executed
    exact same ▸ (Origin.spec orderly origin).1
  | handsOver _ _ d _ accepted =>
    right
    exact ⟨_, congrArg (· ++ _) (push_money (s.taken d.ref) _ _ _ _).1,
      fun ref executed => by cases executed⟩
  | closesUnanswered _ _ d _ accepted =>
    right
    exact ⟨_, congrArg (· ++ _)
      (push_money ((s.closed d.ref d.underlying .failed 0).taken d.ref) _ _ _ _).1,
      fun ref executed => by cases executed⟩
  | deliversStock _ _ d _ accepted unanswered =>
    right
    refine ⟨_, congrArg (· ++ _) (push_money (s.delivering d) _ _ _ _).1, fun ref executed => ?_⟩
    have same : d.ref = ref := by simpa [Event.executes] using executed
    exact same ▸ unanswered
  | deliversSale _ _ d fill out accepted unanswered =>
    right
    refine ⟨_, congrArg (· ++ _) (push_money
      ((s.delivering d).traded d.underlying c.settlement fill) _ _ _ _).1, fun ref executed => ?_⟩
    have same : d.ref = ref := by simpa [Event.executes] using executed
    exact same ▸ unanswered
  | claimed sender _ token => exact .inl (pay_money (s.unclaimed sender token) _ _ _).1
  | withdraws | skims => exact .inl (pay_money s _ _ _).1
  | checkpoints | withdrawsNative | migrates | lists | enables | configured | donated | received =>
    exact .inl rfl

theorem move_executions (orderly : s.book.Orderly) (move : Move c s call after) (ref : Ref)
    (answered : s.settled ref = true) : after.executions ref = s.executions ref := by
  unfold State.executions
  rcases move_events orderly move with same | ⟨event, more, unanswered⟩
  · rw [same]
  · have other : event.executes ref = false := by
      by_contra executed
      have := unanswered ref (by simpa using executed)
      rw [answered] at this
      cases this
    simp [more, other]

/-! Every ref's own money. -/

structure Account (s : State) (ref : Ref) : Prop where
  unadvanced : s.advanced ref = 0
  balanced : s.tally (Event.paidIn ref) =
    s.tally (Event.spent ref) + s.tally (Event.handedBack ref) + s.funding ref

theorem Account.keep (account : Account s ref) (events : after.events = s.events)
    (funding : after.funding = s.funding) (advanced : after.advanced = s.advanced) : Account after ref := by
  constructor
  · rw [advanced]
    exact account.unadvanced
  · have balanced := account.balanced
    simp only [State.tally, events, funding] at balanced ⊢
    exact balanced

theorem Account.enter (account : Account s ref) (event : Event) (more : after.events = s.events ++ [event])
    (unadvanced : after.advanced ref = 0)
    (moved : after.funding ref + event.spent ref + event.handedBack ref =
      s.funding ref + event.paidIn ref) : Account after ref := by
  refine ⟨unadvanced, ?_⟩
  have balanced := account.balanced
  rw [tally_more event more, tally_more event more, tally_more event more]
  omega

/-- With the float off a buy spends its own funding and nothing else. -/
theorem executes_account (fee : Nat) (off : s.floatEnabled = false) (account : Account s ref)
    (executes : Executes c s o done) : Account (done.answered o fee) ref := by
  cases executes with
  | failed =>
    exact account.enter _ rfl account.unadvanced (by simp [Executed.answered, failed, Event.spent,
      Event.handedBack, Event.paidIn])
  | bought own fill shares _ _ _ covered _ _ advance =>
    have whole : own = o.amountIn := by
      rcases advance with whole | ⟨enabled, _⟩
      · exact whole
      · rw [off] at enabled
        cases enabled
    subst whole
    apply account.enter _ rfl
    · have unadvanced := account.unadvanced
      by_cases same : ref = o.ref
      · subst same
        simpa [Executed.answered, State.bought] using unadvanced
      · simpa [Executed.answered, State.bought, same] using unadvanced
    · by_cases same : ref = o.ref
      · subst same
        simp only [Executed.answered, State.bought, Event.spent, Event.handedBack, Event.paidIn,
          Function.update_self, if_true]
        omega
      · simp [Executed.answered, State.bought, Event.spent, Event.handedBack, Event.paidIn, same,
          Ne.symm same]
  | sold =>
    exact account.enter _ rfl account.unadvanced (by simp [Executed.answered, State.sold,
      Event.spent, Event.handedBack, Event.paidIn])

/-- A ref's money leaves the vault as a whole and in the event's own words. -/
theorem taken_account {own : Ref} (account : Account s ref) (event : Event)
    (events : after.events = s.events ++ [event]) (funding : after.funding = Function.update s.funding own 0)
    (advanced : after.advanced = s.advanced) (named : event.handedBack ref = if own = ref then s.funding own else 0)
    (unspent : event.spent ref = 0) (unpaid : event.paidIn ref = 0) : Account after ref := by
  apply account.enter event events
  · rw [advanced]
    exact account.unadvanced
  · rw [funding, named, unspent, unpaid]
    by_cases same : own = ref
    · subst same
      simp
    · simp [same, Ne.symm same]

theorem handedOver_account (account : Account s ref) (d : Deliver) (accepted : Bool) :
    Account (s.handedOver c d accepted) ref := by
  obtain ⟨events, funding, advanced, _⟩ := push_money (c := c) (s.taken d.ref) c.settlement
    d.recipient (s.funding d.ref + s.proceeds d.ref) accepted
  exact taken_account account _ (congrArg (· ++ _) events) funding advanced rfl rfl rfl

theorem move_account (off : s.floatEnabled = false) (account : Account s ref) (move : Move c s call after) :
    Account after ref := by
  cases move with
  | ignored | waits => exact account.enter _ rfl account.unadvanced rfl
  | answers _ o waiting origin done fee executes =>
    have before : Account ({ s with waiting := waiting }.settles o.ref) ref := account.keep rfl rfl rfl
    exact executes_account fee (by exact off) before executes
  | funded sender _ own amount got =>
    have unadvanced := account.unadvanced
    apply account.enter _ rfl
    · by_cases same : ref = own
      · subst same
        simp [State.funded, unadvanced]
      · simpa [State.funded, same] using unadvanced
    · by_cases same : ref = own
      · subst same
        simp [State.funded, unadvanced, Event.spent, Event.handedBack, Event.paidIn]
      · simp [State.funded, same, Ne.symm same, Event.spent, Event.handedBack, Event.paidIn]
  | returned => exact taken_account account _ rfl rfl rfl rfl rfl rfl
  | handsOver _ _ d _ accepted => exact handedOver_account account d accepted
  | closesUnanswered _ _ d _ accepted =>
    have closed : Account (s.closed d.ref d.underlying .failed 0) ref := account.keep rfl rfl rfl
    exact handedOver_account closed d accepted
  | deliversStock _ _ d _ accepted =>
    obtain ⟨events, funding, advanced, _⟩ := push_money (c := c) (s.delivering d) d.underlying
      d.recipient d.shares accepted
    apply account.enter _ (congrArg (· ++ _) events)
    · exact (congrFun advanced ref).trans account.unadvanced
    · exact congrArg (· + 0 + 0) (congrFun funding ref)
  | deliversSale _ _ d fill out accepted =>
    obtain ⟨events, funding, advanced, _⟩ := push_money (c := c)
      ((s.delivering d).traded d.underlying c.settlement fill) c.settlement d.recipient out accepted
    apply account.enter _ (congrArg (· ++ _) events)
    · exact (congrFun advanced ref).trans account.unadvanced
    · exact congrArg (· + 0 + 0) (congrFun funding ref)
  | claimed sender _ token =>
    obtain ⟨events, funding, advanced, _⟩ := pay_money (c := c) (s.unclaimed sender token) token sender
      (s.claimable token sender)
    exact account.keep events funding advanced
  | withdraws _ _ token recipient amount =>
    obtain ⟨events, funding, advanced, _⟩ := pay_money (c := c) s token recipient amount
    exact account.keep events funding advanced
  | skims _ _ underlying =>
    obtain ⟨events, funding, advanced, _⟩ := pay_money (c := c) s underlying c.treasury
      (s.balanceOf underlying - (s.entitledOf underlying + s.claimableTotal underlying))
    exact account.keep events funding advanced
  | checkpoints | withdrawsNative | migrates | lists | enables | configured | donated | received =>
    exact account.keep rfl rfl rfl

/-! The log of results tells of every order's spending what the events do. -/

def Reported (s : State) (ref : Ref) : Prop :=
  (s.results.map (bookedSpent ref)).sum = s.tally (Event.spent ref)

theorem Reported.more (reported : Reported s ref) (records : List Result) (events : List Event)
    (results : after.results = s.results ++ records) (more : after.events = s.events ++ events)
    (same : (records.map (bookedSpent ref)).sum = (events.map (Event.spent ref)).sum) : Reported after ref := by
  unfold Reported State.tally at *
  rw [results, more, List.map_append, List.map_append, List.sum_append, List.sum_append, reported,
    same]

theorem Reported.keep (reported : Reported s ref) (results : after.results = s.results)
    (events : after.events = s.events) : Reported after ref :=
  reported.more [] [] (by simp [results]) (by simp [events]) rfl

theorem executes_results (executes : Executes c s o done) : done.state.results = s.results := by
  cases executes <;> rfl

/-- An answer's record and its event tell of the same spending. -/
theorem answered_reported (fee : Nat) (reported : Reported s ref) (executes : Executes c s o done) :
    Reported (done.answered o fee) ref := by
  apply reported.more _ _ (congrArg (· ++ _) (executes_results executes))
    (congrArg (· ++ _) (executes_events executes))
  cases executes <;> simp [bookedSpent, Event.spent, failed]

/-- The canonical lane's own records name no purchase. -/
theorem closed_reported (reported : Reported s ref) (record : Result) (event : Event)
    (results : after.results = s.results ++ [record]) (events : after.events = s.events ++ [event])
    (unspent : bookedSpent ref record = 0) (silent : event.spent ref = 0) : Reported after ref :=
  reported.more [record] [event] results events (by simp [unspent, silent])

theorem move_reported (own : isMigrationRef ref = false) (reported : Reported s ref)
    (move : Move c s call after) : Reported after ref := by
  cases move with
  | ignored | waits | funded | returned =>
    exact reported.more [] _ (by exact (List.append_nil _).symm) rfl rfl
  | answers _ o waiting origin done fee executes =>
    have before : Reported ({ s with waiting := waiting }.settles o.ref) ref := reported.keep rfl rfl
    exact answered_reported fee before executes
  | handsOver _ _ d _ accepted =>
    obtain ⟨events, _, _, results⟩ := push_money (c := c) (s.taken d.ref) c.settlement d.recipient
      (s.funding d.ref + s.proceeds d.ref) accepted
    exact reported.more [] _ (results.trans (List.append_nil _).symm) (congrArg (· ++ _) events) rfl
  | closesUnanswered _ _ d _ accepted =>
    obtain ⟨events, _, _, results⟩ := push_money (c := c)
      ((s.closed d.ref d.underlying .failed 0).taken d.ref) c.settlement d.recipient
      (s.funding d.ref + s.proceeds d.ref) accepted
    exact closed_reported reported _ _ results (congrArg (· ++ _) events) (by simp [bookedSpent]) rfl
  | deliversStock _ _ d _ accepted =>
    obtain ⟨events, _, _, results⟩ := push_money (c := c) (s.delivering d) d.underlying d.recipient
      d.shares accepted
    exact closed_reported reported _ _ results (congrArg (· ++ _) events) (by simp [bookedSpent]) rfl
  | deliversSale _ _ d fill out accepted =>
    obtain ⟨events, _, _, results⟩ := push_money (c := c)
      ((s.delivering d).traded d.underlying c.settlement fill) c.settlement d.recipient out accepted
    exact closed_reported reported _ _ results (congrArg (· ++ _) events) (by simp [bookedSpent]) rfl
  | migrates _ _ underlying =>
    have other : Ref.migration underlying (s.migrationNonce underlying) ≠ ref := by
      rintro rfl
      cases own
    exact reported.more [_] [] rfl (by exact (List.append_nil _).symm) (by simp [bookedSpent, other])
  | claimed sender _ token =>
    obtain ⟨events, _, _, results⟩ := pay_money (c := c) (s.unclaimed sender token) token sender
      (s.claimable token sender)
    exact reported.keep results events
  | withdraws _ _ token recipient amount =>
    obtain ⟨events, _, _, results⟩ := pay_money (c := c) s token recipient amount
    exact reported.keep results events
  | skims _ _ underlying =>
    obtain ⟨events, _, _, results⟩ := pay_money (c := c) s underlying c.treasury
      (s.balanceOf underlying - (s.entitledOf underlying + s.claimableTotal underlying))
    exact reported.keep results events
  | checkpoints | withdrawsNative | lists | enables | configured | donated | received =>
    exact reported.keep rfl rfl

/-! Over whole runs. -/

def floatOff (s : State) (_ : Call) : Prop := s.floatEnabled = false

instance (s : State) (call : Call) : Decidable (floatOff s call) :=
  inferInstanceAs (Decidable (_ = _))

theorem reachable_orderly (owner bridger : Address) (s : State)
    (reached : Reachable (accepts c) (deployed owner bridger) s) : s.book.Orderly :=
  reached.invariant (deployed_orderly owner bridger) (fun _ _ _ orderly taken =>
    bookMove_orderly orderly (move_book (step_move c _ _ _ taken)))

theorem settled_for_good {later : State} (orderly : s.book.Orderly) (run : Reachable (accepts c) s later) (ref : Ref)
    (answered : s.settled ref = true) : later.settled ref = true ∧ later.executions ref = s.executions ref := by
  have kept : later.book.Orderly ∧ later.settled ref = true ∧
      later.executions ref = s.executions ref := by
    apply run.invariant ⟨orderly, answered, rfl⟩
    rintro before call after ⟨orderly, answered, same⟩ taken
    have move := step_move c _ _ _ taken
    exact ⟨bookMove_orderly orderly (move_book move), bookMove_settled (move_book move) ref answered,
      (move_executions orderly move ref answered).trans same⟩
  exact kept.2

/-- One result a ref in a log numbered without gaps, nothing executed for a settled ref, and,
as long as the float is off, every unit paid in for a ref spent by its own purchase, handed
back or still its funding. -/
theorem one_result_one_account (owner bridger : Address) (s : State)
    (reached : Reachable (accepts c) (deployed owner bridger) s) :
    (∀ ref, isMigrationRef ref = false → (s.results.map Result.ref).count ref ≤ 1) ∧
    (∀ i r, s.results[i]? = some r → r.seq = toUint64 i) ∧
    (∀ ref later, s.settled ref = true → Reachable (accepts c) s later →
      later.settled ref = true ∧ later.executions ref = s.executions ref) ∧
    (Reachable (restrict (accepts c) floatOff) (deployed owner bridger) s → ∀ ref,
      s.tally (Event.paidIn ref) =
        s.tally (Event.spent ref) + s.tally (Event.handedBack ref) + s.funding ref ∧
      (isMigrationRef ref = false →
        s.tally (Event.spent ref) = (s.results.map (bookedSpent ref)).sum)) := by
  have orderly := reachable_orderly owner bridger s reached
  refine ⟨orderly.once, orderly.seqs, fun ref later answered run =>
    settled_for_good orderly run ref answered, fun unfloated ref => ⟨?_, fun own => ?_⟩⟩
  · have account : Account s ref := by
      apply unfloated.invariant ⟨rfl, rfl⟩
      rintro before call after account ⟨off, taken⟩
      exact move_account off account (step_move c _ _ _ taken)
    exact account.balanced
  · have initially : Reported (deployed owner bridger) ref := rfl
    have reported : Reported s ref := by
      apply reached.invariant initially
      intro before call after reported taken
      exact move_reported own reported (step_move c _ _ _ taken)
    exact reported.symm

/-- A buy that waited for its money is voided by the canonical lane after 25 came in. -/
def voidedWaiting : List Call :=
  [⟨1, 0, .listStock 8 true⟩, ⟨9, 0, .lzReceive 1 ⟨.order 0, 8, .buy, 20, 3⟩ none 0⟩,
    ⟨9, 0, .fund (.order 0) 25 25⟩,
    ⟨applyL1ToL2Alias 2, 0, .deliver ⟨.order 0, 8, 0, 60, .settlement⟩ none true⟩]

theorem one_result_one_account_voided :
    ∃ s, Reachable (accepts sample) (deployed 1 2) s ∧ s.results.length = 1 ∧
      s.tally (Event.paidIn (.order 0)) = 25 ∧ s.tally (Event.handedBack (.order 0)) = 25 ∧
      (s.results.map Result.ref).count (.order 0) ≤ 1 := by
  obtain ⟨s, reached, passed⟩ := run_passes (step sample) floatOff voidedWaiting (deployed 1 2)
    (fun s => decide (s.results.length = 1 ∧ s.tally (Event.paidIn (.order 0)) = 25 ∧
      s.funding (.order 0) = 0 ∧ s.tally (Event.spent (.order 0)) = 0)) (by decide)
  obtain ⟨one, paid, none, unspent⟩ := of_decide_eq_true passed
  have whole := one_result_one_account 1 2 s reached.unrestricted
  have balanced := (whole.2.2.2 reached (.order 0)).1
  refine ⟨s, reached.unrestricted, one, paid, by omega, whole.1 (.order 0) rfl⟩

end Solonpad.Vault
