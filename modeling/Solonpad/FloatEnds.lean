import Solonpad.FloatSettlement

/-!
How rebalances end. A record that has ended stays, a report or a return on the wire is never refused, and in
every run each end has its money behind it.
-/

namespace Solonpad.FloatRoute

open Checked CctpV2 Transition RunningTotal
open FloatRebalancer (Rebalance)

variable {c : Config} {s after : State} {r : Rebalance}

def Ended (r : Rebalance) : Prop := r.state = .finalized ∨ r.state = .returned

theorem Ended.closed (ended : Ended r) : ¬ Live r :=
  fun live => ended.elim live.unfinalized live.unreturned

theorem Ended.started (ended : Ended r) : r.state ≠ .none := by
  rcases ended with state | state <;> rw [state] <;> nofun

def Action.Elsewhere : Action → Prop
  | .attest .. | .convert .. | .bridge .. | .expireLeg .. | .returnToArc .. | .credit .. | .lzCompose .. => True
  | _ => False

theorem elsewhere_kept {action : Action} (done : step c s action = .ok after) (elsewhere : action.Elsewhere) :
    after.rebalancer = s.rebalancer := by
  cases action with
  | convert | expireLeg =>
    unfold step at done
    simp only [bind_ok, pure_ok] at done
    obtain ⟨_, _, rfl⟩ := done
    rfl
  | bridge | returnToArc | credit =>
    unfold step at done
    simp only [bind_ok, pure_ok, Prod.exists] at done
    obtain ⟨_, _, _, rfl⟩ := done
    rfl
  | attest =>
    unfold step at done
    simp only [bind_ok, pure_ok, Prod.exists] at done
    obtain ⟨_, _, _, _, _, rfl⟩ := done
    rfl
  | lzCompose =>
    unfold step at done
    simp only [bind_ok, pure_ok, Prod.exists] at done
    obtain ⟨_, _, _, _, _, _, rfl⟩ := done
    rfl
  | _ => exact elsewhere.elim

/-- No step changes a rebalance that has ended. -/
theorem ended_kept {action : Action} (done : step c s action = .ok after) {id : Id}
    (ended : Ended (s.rebalancer.rebalances id)) : after.rebalancer.rebalances id = s.rebalancer.rebalances id := by
  cases action with
  | start now q signed =>
    unfold step at done
    simp only [FloatRebalancer.start, bind_ok, require_ok, pure_ok, Prod.exists, Prod.mk.injEq] at done
    obtain ⟨_, _, ⟨_, _, _, valid, _, _, rfl, rfl⟩, rfl⟩ := done
    refine Function.update_of_ne ?_ _ _
    rintro rfl
    exact valid (.inr (.inr (.inr (.inr (.inr (.inr (.inl ended.started)))))))
  | expire now other =>
    unfold step at done
    simp only [FloatRebalancer.expire, bind_ok, require_ok, pure_ok] at done
    obtain ⟨_, ⟨_, late, rfl⟩, rfl⟩ := done
    refine Function.update_of_ne ?_ _ _
    rintro rfl
    exact late (.inl fun state => ended.closed (.inl state))
  | receiveReturn index =>
    unfold step at done
    simp only [FloatRebalancer.receiveReturn, bind_ok, require_ok, pure_ok, sub_ok, Prod.exists] at done
    obtain ⟨message, _, _, _, ⟨_, _, _, _, _, opened, _, ⟨_, rfl⟩, _, ⟨_, rfl⟩, rfl⟩, rfl⟩ := done
    refine Function.update_of_ne ?_ _ _
    rintro rfl
    exact opened (not_or.mp ended.closed)
  | lzReceive index =>
    unfold step at done
    simp only [FloatRebalancer.lzReceive, bind_ok, require_ok, pure_ok, sub_ok, Prod.exists] at done
    obtain ⟨message, _, _, _, ⟨_, _, _, opened, _, ⟨_, rfl⟩, rfl⟩, rfl⟩ := done
    refine Function.update_of_ne ?_ _ _
    rintro rfl
    exact opened (not_or.mp ended.closed)
  | proposeEnable | enable | disable | sweepDust | setReceiver | donate =>
    rw [(idle_kept done trivial).rebalances]
  | _ => rw [elsewhere_kept done trivial]

/-! Messages that end a rebalance are never refused. -/

theorem report_accepted (sound : Sound c s) {index : Nat} {message : Receipt}
    (found : s.receipts[index]? = some message) : ∃ after, step c s (.lzReceive index) = .ok after := by
  obtain ⟨_, _, live⟩ := sound.wire (.receipt message) (List.mem_of_getElem? found)
  have within : (s.rebalancer.rebalances message.id).amount ≤ s.rebalancer.inFlight :=
    flying_open live ▸ sound.flight.entry_le message.id
  unfold step
  simp only [FloatRebalancer.lzReceive, bind_ok, require_ok, pure_ok, sub_ok, Prod.exists, taken_ok]
  have opened := not_and_or.mpr (live.imp not_not_intro not_not_intro)
  exact ⟨_, message, _, ⟨found, rfl⟩, _, ⟨(), trivial, (), opened, _, ⟨within, rfl⟩, rfl⟩, rfl⟩

theorem return_accepted (sound : Sound c s) {index : Nat} {message : Parsed Id}
    (found : s.returns[index]? = some message) : ∃ after, step c s (.receiveReturn index) = .ok after := by
  obtain ⟨_, live, _, genuine⟩ := sound.wire (.comeback message) (List.mem_of_getElem? found)
  have within : (s.rebalancer.rebalances message.hookData).amount ≤ s.rebalancer.inFlight :=
    flying_open live ▸ sound.flight.entry_le message.hookData
  have grown : s.rebalancer.usdc ≤
      (s.rebalancer.balance + message.amount * FloatRebalancer.unit) / FloatRebalancer.unit :=
    Nat.div_le_div_right (Nat.le_add_right _ _)
  have trusted : ¬ (message.sourceDomain ≠ c.rebalancer.ethDomain ∨
      message.sender ≠ c.rebalancer.ethTokenMessenger ∨ message.messageSender ≠ c.rebalancer.ethAdapter) := by
    rw [genuine]
    simp [returnMessage]
  unfold step
  simp only [FloatRebalancer.receiveReturn, bind_ok, require_ok, pure_ok, sub_ok, Prod.exists, taken_ok]
  have opened := not_and_or.mpr (live.imp not_not_intro not_not_intro)
  exact ⟨_, message, _, ⟨found, rfl⟩, _, ⟨(), trivial, (), trusted, (), opened, _, ⟨grown, rfl⟩, _,
    ⟨within, rfl⟩, rfl⟩, rfl⟩

/-! Runs. -/

theorem run_sound {balance rhReceiver native : Nat}
    (reached : Reachable (accepts c) (deployed balance rhReceiver native) s) : Sound c s :=
  reached.invariant (deployed_sound balance rhReceiver native) (fun _ _ _ sound done => step_sound done sound)

theorem ended_for_good {later : State} (further : Reachable (accepts c) s later) {id : Id}
    (ended : Ended (s.rebalancer.rebalances id)) : later.rebalancer.rebalances id = s.rebalancer.rebalances id := by
  induction further with
  | start => rfl
  | next _ done same =>
    rw [← same] at ended
    exact (ended_kept done ended).trans same

/-- What an ended rebalance says of its money: on the reserve chain, or back on Arc. -/
structure Settled (s : State) (id : Id) : Prop where
  finalized : (s.rebalancer.rebalances id).state = .finalized →
    s.receiver.credits.filter (fun credit => credit.1 = id) = [(id, (s.rebalancer.rebalances id).received)] ∧
      (s.adapter.legs id).state = .bridging
  returned : (s.rebalancer.rebalances id).state = .returned →
    (s.rebalancer.rebalances id).returned = (s.rebalancer.rebalances id).amount ∧
      (s.adapter.legs id).state = .returned ∧ s.receiver.credits.filter (fun credit => credit.1 = id) = []

theorem Sound.settled (sound : Sound c s) (id : Id) : Settled s id where
  finalized := by
    intro state
    obtain ⟨same, some⟩ := (sound.each id).finalized state
    refine ⟨?_, ((sound.each id).passed some).1⟩
    rw [sound.credits id, if_neg some, same]
  returned := by
    intro state
    obtain ⟨kept, whole⟩ := (sound.each id).returned state
    refine ⟨whole, kept, ?_⟩
    rw [sound.credits id, if_pos ((sound.each id).silent kept)]

/-- In every order of calls and messages the open rebalances add up to `inFlight`, each ends at most once, with
its money in the vault or back on Arc, the adapter holds what its legs wait with, and a report or a return on
the wire is accepted. -/
theorem rebalances_settle_once {balance rhReceiver native : Nat}
    (reached : Reachable (accepts c) (deployed balance rhReceiver native) s) :
    Totals (fun id => flying (s.rebalancer.rebalances id)) s.rebalancer.inFlight ∧
      (∀ id, Settled s id) ∧
      (∀ later, Reachable (accepts c) s later → ∀ id, Ended (s.rebalancer.rebalances id) →
        later.rebalancer.rebalances id = s.rebalancer.rebalances id) ∧
      (∃ total, Totals (fun id => holdsUsdc (s.adapter.legs id)) total ∧ total ≤ s.adapter.usdc) ∧
      (∃ total, Totals (fun id => holdsUsdg (s.adapter.legs id)) total ∧ total ≤ s.adapter.usdg) ∧
      (∀ index message, s.receipts[index]? = some message → ∃ after, step c s (.lzReceive index) = .ok after) ∧
      (∀ index message, s.returns[index]? = some message →
        ∃ after, step c s (.receiveReturn index) = .ok after) := by
  have sound := run_sound reached
  refine ⟨sound.flight, sound.settled, ?_, sound.usdc, sound.usdg, fun _ _ found => report_accepted sound found,
    fun _ _ found => return_accepted sound found⟩
  intro later further id ended
  exact ended_for_good further ended

/-! The first rebalance's report comes after its deadline; the second comes back. -/

def sample : Config where
  rebalancer := ⟨10, 1, 2, 0, 20, 11, 30⟩
  adapter := ⟨11, 1, 26, 21, 10⟩
  receiver := ⟨40, 11⟩

def sampleActions : List Action :=
  [.proposeEnable 1 0, .enable 1 172800, .start 200000 ⟨1, 100, 99, 300000, 1⟩ true,
    .start 200000 ⟨2, 50, 40, 300000, 2⟩ true, .attest 1, .attest 0,
    .convert 200001 ⟨1, 100, 300000, 1⟩ true (some ⟨100, 100⟩), .bridge 200002 1 (some ⟨7, 100, 100⟩),
    .credit 0, .expireLeg 300001 2, .returnToArc 2, .expire 300001 1, .lzCompose 0 3, .lzReceive 0, .receiveReturn 0]

def sampleEnds (s : State) : Bool :=
  decide ((s.rebalancer.rebalances 1).state = .finalized ∧ (s.rebalancer.rebalances 2).state = .returned)

theorem sample_run : ∃ s, Reachable (accepts sample) (deployed (10 ^ 20) 12 5) s ∧ sampleEnds s = true := by
  obtain ⟨s, reached, ends⟩ := run_passes (step sample) (fun _ _ => True) sampleActions (deployed (10 ^ 20) 12 5)
    sampleEnds (by decide)
  exact ⟨s, reached.unrestricted, ends⟩

theorem rebalances_settle_once_late :
    ∃ s, Ended (s.rebalancer.rebalances 1) ∧ Ended (s.rebalancer.rebalances 2) ∧ Settled s 1 ∧ Settled s 2 := by
  obtain ⟨s, reached, ends⟩ := sample_run
  have settled := (rebalances_settle_once reached).2.1
  have states := of_decide_eq_true ends
  exact ⟨s, .inl states.1, .inr states.2, settled 1, settled 2⟩

end Solonpad.FloatRoute
