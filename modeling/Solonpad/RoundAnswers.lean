import Solonpad.RoundEffects

/-!
An answer from the journal in a run of the round keeper: the transaction that the task notes was signed for the same
key, it was mined, and what it did is still there.
-/

namespace Solonpad.RoundTasks

open Checked Journal Rounds Transition
open Chain (Address)
open RoundChain
open StockAdapter (SignedQuote)

variable {V : Type} {y : System V} {p : Params} {keeper : Address} {st after : State V}

/-! Views and stages. -/

/-- What the chain has of a round that was read before. -/
structure Seen (y : System V) (chain : RoundChain.State V) (v : RoundView) : Prop where
  follows : Progress v.round (chain.store.rounds v.id)
  result : v.round.status.started = true → ∀ status, v.result = some (some status) → status ≠ 0 →
    Resulting y chain v.id

/-- A stage fits the chain: what is asked for was decided on what still holds of it. -/
def Fits (y : System V) (chain : RoundChain.State V) : Stage → Prop
  | .round _ v => Seen y chain v
  | .asking r _ => Due y chain r
  | .waiting r tx _ => tx.request = r
  | _ => True

theorem After.stage_fits (chain : RoundChain.State V) (next : After) (confirmed : Bool) :
    Fits y chain (next.stage confirmed) := by
  cases next <;> cases confirmed <;> trivial

theorem After.next_fits (chain : RoundChain.State V) {r : Request} (next : After) {answer : Answer Signed}
    (own : ∀ tx, answer = .sent tx → tx.request = r) : Fits y chain (next.next r answer) := by
  cases answer with
  | other | confirmed tx => exact next.stage_fits ..
  | sent tx => exact own tx rfl

/-- A round is finalized for a result that was probed, or once it is refunded. -/
theorem finalize_decided {round : Round} {ctx : Ctx} (decided : nextRoundAction p round ctx = .call .finalize) :
    round.status = .refunded ∨ round.status.started = true ∧ (ctx.result = some 1 ∨ ctx.result = some 2) := by
  unfold nextRoundAction at decided
  cases held : round.status with
  | refunded => exact .inl rfl
  | funding | funded =>
    simp only [held] at decided
    refine .inr ⟨rfl, .inr ?_⟩
    by_contra none
    simp only [if_neg none] at decided
    repeat' split at decided
    all_goals cases decided
  | submitted | quarantined =>
    simp only [held] at decided
    refine .inr ⟨rfl, ?_⟩
    by_contra none
    obtain ⟨one, two⟩ := not_or.mp none
    simp only [if_neg two, if_neg none] at decided
    repeat' split at decided
    all_goals cases decided
  | none | reserved | settled | cancelledUnsent =>
    simp only [held] at decided
    repeat' split at decided
    all_goals cases decided

/-- A probe that finds a result finds it with the adapter's hub. -/
theorem probeResult_ready {chain : RoundChain.State V} {round : Round} {proven : Bool} {status : Nat}
    (found : probeResult y chain round proven = some status) (some_ : status ≠ 0) :
    y.ready chain.world.2.rest round.adapter round.orderId := by
  unfold probeResult at found
  split at found
  · next call =>
    cases found
    obtain ⟨_, _, _, _, claim, _⟩ := StockAdapter.consumeResult_ok call
    exact (y.results.claimed _ _ _ _ _ _ _ claim).1.mp some_
  · cases found

theorem Seen.finalize {chain : RoundChain.State V} {v : RoundView} (seen : Seen y chain v) {now dispatchedAt : Nat}
    {dispatched : Bool} (decided : nextRoundAction p v.round (v.ctx now dispatchedAt dispatched) = .call .finalize) :
    Due y chain (.round v.id .finalize v.round.status) := by
  apply Due.finalize_of
  · intro refunded
    exact refunded_stays refunded seen.follows.status
  · intro other
    rcases finalize_decided decided with refunded | ⟨started, found⟩
    · exact absurd refunded other
    · have read : ∀ status, (v.ctx now dispatchedAt dispatched).result = some status →
          v.result = some (some status) := by
        intro status found
        simp only [RoundView.ctx] at found
        split at found
        · exact Option.join_eq_some_iff.mp found
        · cases found
      rcases found with found | found
      · exact seen.result started 1 (read 1 found) nofun
      · exact seen.result started 2 (read 2 found) nofun

/-- The stage after a read or a decision fits. -/
theorem go_fits {action : Action} {stage : Stage} (fits : Fits y st.chain st.stage)
    (went : go y p st action = some stage) : Fits y st.chain stage := by
  unfold go at went
  split at went
  · cases went
    trivial
  · cases went
    trivial
  · next phase _ =>
    cases went
    cases phase <;> trivial
  · cases went
    trivial
  · cases went
    trivial
  · cases went
    split <;> trivial
  · split at went <;> cases went
    exact ⟨.refl _, nofun⟩
  · next held =>
    rw [held] at fits
    split at went <;> cases went
    exact ⟨fits.follows, fits.result⟩
  · next phase v held =>
    rw [held] at fits
    cases went
    refine ⟨fits.follows, ?_⟩
    intro started status found some_
    have known : v.round.status ≠ .none := by
      intro none
      rw [none] at started
      cases started
    obtain ⟨adapter, order⟩ := fits.follows.order known
    have ready := probeResult_ready (Option.some.inj found) some_
    refine ⟨Status.started_stays started fits.follows.status, .inr ?_⟩
    dsimp only
    rwa [adapter, order]
  · next held =>
    rw [held] at fits
    cases went
    exact ⟨fits.follows, fits.result⟩
  · next phase v held =>
    rw [held] at fits
    split at went <;> cases went
    unfold RoundView.goes
    split
    · next action decided =>
      cases action with
      | finalize => exact fits.finalize decided
      | _ => trivial
    · trivial
  · cases went
    trivial
  · cases went
    trivial
  · split at went <;> cases went
    trivial
  · split at went <;> cases went
    unfold GroupView.goes
    split <;> trivial
  · cases went
    trivial
  · next plan _ =>
    cases went
    unfold Plan.goes
    split
    · intro _
      omega
    · trivial
  · next next' _ =>
    cases went
    exact next'.stage_fits ..
  · cases went
    trivial
  · cases went

/-! Runs. -/

structure Sound (y : System V) (st : State V) : Prop where
  chained : Chained y st.chain
  due : ∀ tx ∈ st.signed, Due y st.chain tx.request
  signed : ∀ tx ∈ st.mined, tx ∈ st.signed
  done : ∀ tx ∈ st.mined, Lasting st.chain tx.request
  notes : ∀ key tx, Notes (st.tasks key) tx → tx.request.key = key
  stage : Fits y st.chain st.stage

theorem deployed_sound (rest : V) : Sound y (deployed rest) where
  chained := deployed_chained rest
  due := nofun
  signed := nofun
  done := nofun
  notes _ _ noted := by
    obtain ⟨_, none, _⟩ := noted
    cases none
  stage := trivial

/-- The stage of a keeper whose decisions are kept fits the chain after a part of a turn. -/
theorem fits_moved {s next : RoundChain.State V} {watched : Address → Hub.RoundOrderId → Prop}
    {spared : Policy → Nat → Prop} {stage : Stage} (known : Known s) (moved : Moved y watched spared s next)
    (fees : ∀ r after, stage = .asking r after → ∀ adapter orderId fees18 value,
      r = .depositFees adapter orderId fees18 value → watched adapter orderId)
    (fits : Fits y s stage) : Fits y next stage := by
  cases stage with
  | round phase v =>
    exact ⟨fits.follows.trans (moved.later.rounds v.id), fun started status found some_ =>
      resulting_moved known moved (fits.result started status found some_)⟩
  | asking r after => exact due_moved known moved (fees r after rfl) fits
  | waiting r tx after => exact fits
  | idle | reconciling | working phase | enqueueing id last | grouping group ids | group v | planned plan => trivial

/-- What the keeper relies on, of a chain that may be another. -/
structure Relies (y : System V) (st : State V) (chain : RoundChain.State V) : Prop where
  chained : Chained y chain
  due : ∀ tx ∈ st.signed, Due y chain tx.request
  done : ∀ tx ∈ st.mined, Lasting chain tx.request
  stage : Fits y chain st.stage

/-- No turn that meets the condition takes away what the keeper relies on. -/
theorem turn_relies {call : Call} {chain : RoundChain.State V} (sound : Sound y st)
    (turn : Turn y st.chain call chain)
    (places : ∀ tx ∈ st.mined, ∀ group cursor n, tx.request = .advance group cursor n →
      Spared st.chain chain group (cursor + n))
    (fees : ∀ adapter sender orderId, call = .refundUnusedFees adapter sender orderId true →
      (st.chain.world.2.adapters adapter).state orderId = .none →
      (st.chain.world.2.adapters adapter).feeBalance orderId ≠ 0 →
      ∀ fees18 value, ¬ st.Decided (.depositFees adapter orderId fees18 value)) : Relies y st chain := by
  let watched := fun adapter orderId => ∃ fees18 value, st.Decided (.depositFees adapter orderId fees18 value)
  let spared := fun group target => ∃ tx ∈ st.mined, ∃ cursor n,
    tx.request = .advance group cursor n ∧ target = cursor + n
  refine turn_keeps watched spared (P := Relies y st) turn sound.chained ?_ ?_ ?_
    ⟨sound.chained, sound.due, sound.done, sound.stage⟩
  · rintro group target ⟨tx, mined, cursor, n, same, rfl⟩
    exact places tx mined group cursor n same
  · rintro adapter sender orderId same fresh some_ ⟨fees18, value, decided⟩
    exact fees adapter sender orderId same fresh some_ fees18 value decided
  · intro before next chained moved relies
    refine ⟨moved.chained, ?_, ?_, ?_⟩
    · intro tx signed
      refine due_moved chained.known moved ?_ (relies.due tx signed)
      intro adapter orderId fees18 value same
      exact ⟨fees18, value, .inl ⟨tx, signed, same⟩⟩
    · intro tx mined
      refine lasting_moved moved ?_ ?_ (relies.done tx mined)
      · intro group cursor n same
        exact ⟨tx, mined, cursor, n, same, rfl⟩
      · intro adapter orderId fees18 value same
        exact ⟨fees18, value, .inl ⟨tx, sound.signed tx mined, same⟩⟩
    · refine fits_moved chained.known moved ?_ relies.stage
      rintro r after asking adapter orderId fees18 value rfl
      exact ⟨fees18, value, .inr ⟨after, asking⟩⟩

/-- One task is rewritten to note what it noted, or what was just signed for it. -/
theorem notes_kept {tasks : Key → Option (Journal.Task Signed)} {key : Key} {task : Option (Journal.Task Signed)}
    (notes : ∀ key tx, Notes (tasks key) tx → tx.request.key = key)
    (own : ∀ tx, Notes task tx → Notes (tasks key) tx ∨ tx.request.key = key) (other : Key) (tx : Signed)
    (noted : Notes (Function.update tasks key task other) tx) : tx.request.key = other := by
  by_cases same : other = key
  · subst same
    rw [Function.update_self] at noted
    exact (own tx noted).elim (notes _ tx) fun held => held
  · rw [Function.update_of_ne same] at noted
    exact notes other tx noted

theorem ask_sound {r : Request} {next : After} {outcome : Outcome} {nonce ms : Nat} (sound : Sound y st)
    (asking : st.stage = .asking r next) (done : ask st r next outcome nonce ms = some after) : Sound y after := by
  have due : Due y st.chain r := by
    have fits := sound.stage
    rwa [asking] at fits
  unfold ask at done
  split at done
  · next task answer sent =>
    have own : ∀ tx, Notes task tx → Notes (st.tasks r.key) tx ∨ tx.request.key = r.key := by
      intro tx noted
      rcases send_notes sent noted with held | ⟨rfl, _⟩
      · exact .inl held
      · exact .inr rfl
    have notes := notes_kept sound.notes own
    have fits : Fits y st.chain (next.next r answer) := next.next_fits _ fun tx same => by
      subst same
      exact (send_sent sent).1 ▸ rfl
    dsimp only at done
    split at done
    · next tx =>
      split at done <;> cases done
      refine ⟨sound.chained, ?_, fun tx mined => List.mem_append_left _ (sound.signed tx mined), sound.done, notes,
        fits⟩
      intro other signed
      rcases List.mem_append.mp signed with old | new
      · exact sound.due other old
      · rw [List.mem_singleton.mp new, (send_sent sent).1]
        exact due
    · cases done
      exact ⟨sound.chained, sound.due, sound.signed, sound.done, notes, fits⟩
  · cases done

theorem await_sound {r : Request} {tx : Signed} {next : After} {outcome : Outcome} {ms : Nat} (sound : Sound y st)
    (waiting : st.stage = .waiting r tx next) (done : await st r tx next outcome ms = some after) : Sound y after := by
  have own : tx.request = r := by
    have fits := sound.stage
    rwa [waiting] at fits
  unfold await at done
  split at done
  · next task answer awaited =>
    cases done
    refine ⟨sound.chained, sound.due, sound.signed, sound.done, ?_, next.next_fits _ ?_⟩
    · refine notes_kept sound.notes fun other noted => ?_
      rcases await_notes awaited noted with held | rfl
      · exact .inl held
      · exact .inr (own ▸ rfl)
    · -- Nothing is signed while a receipt is waited for.
      rintro other rfl
      cases outcome with
      | deferred | failed | signed => cases awaited
      | confirmed =>
        simp only [Journal.await] at awaited
        split at awaited <;> cases awaited
  · cases done

theorem own_sound {action : Action} (sound : Sound y st) (done : own y p st action = some after) : Sound y after := by
  unfold own at done
  split at done
  · next key outcome ms _ =>
    obtain ⟨task, settled, rfl⟩ := Option.map_eq_some_iff.mp done
    refine ⟨sound.chained, sound.due, sound.signed, sound.done, ?_, sound.stage⟩
    exact notes_kept sound.notes fun tx noted => .inl (settle_notes settled noted)
  · next r next asking => exact ask_sound sound asking done
  · next r tx next waiting => exact await_sound sound waiting done
  · obtain ⟨stage, went, rfl⟩ := Option.map_eq_some_iff.mp done
    have fits := go_fits sound.stage went
    exact ⟨sound.chained, sound.due, sound.signed, sound.done, sound.notes, fits⟩

theorem step_sound {action : Action} (sound : Sound y st) (step : Step y p keeper st action after)
    (meets : Meets st action after) : Sound y after := by
  cases step with
  | chain call chain turn =>
    have relies := turn_relies sound turn meets.spared fun adapter sender orderId same =>
      meets.fees adapter sender orderId (congrArg _ same)
    exact ⟨relies.chained, relies.due, sound.signed, relies.done, sound.notes, relies.stage⟩
  | own action done => exact own_sound sound done
  | mine tx now chain signed next turn =>
    have relies := turn_relies sound turn meets.spared fun adapter sender orderId same => by
      cases held : tx.request with
      | round id action status => cases action <;> rw [held] at same <;> cases same
      | _ => rw [held] at same; cases same
    have fresh : Lasting chain tx.request := mined_lasting turn (sound.due tx signed) (meets.blocked tx now rfl)
    refine ⟨relies.chained, relies.due, ?_, ?_, sound.notes, relies.stage⟩
    · intro other mined
      rcases List.mem_append.mp mined with old | new
      · exact sound.signed other old
      · exact List.mem_singleton.mp new ▸ signed
    · intro other mined
      rcases List.mem_append.mp mined with old | new
      · exact relies.done other old
      · exact List.mem_singleton.mp new ▸ fresh
  | reverts tx now signed next =>
    exact ⟨sound.chained, sound.due, sound.signed, sound.done, sound.notes, sound.stage⟩
  | mineOther => exact ⟨sound.chained, sound.due, sound.signed, sound.done, sound.notes, sound.stage⟩

/-- The states of a keeper and its contracts, deployed into any world, when each step meets the condition. -/
def Run (y : System V) (p : Params) (keeper : Address) (st : State V) : Prop :=
  ∃ rest, Reachable (fun st action after => Step y p keeper st action after ∧ Meets st action after)
    (deployed rest) st

theorem run_sound (run : Run y p keeper st) : Sound y st := by
  obtain ⟨rest, reached⟩ := run
  exact reached.invariant (deployed_sound rest) fun _ _ _ sound step => step_sound sound step.1 step.2

/-- A transaction with the key of a request has the request's effect when it passes as many entries, and the order of
its fees has not started. -/
theorem lasting_effect {chain : RoundChain.State V} {r q : Request} (lasting : Lasting chain q) (same : q.key = r.key)
    (entries : ∀ group cursor n, r = .advance group cursor n → ∀ m, q = .advance group cursor m → n ≤ m)
    (unstarted : ∀ adapter orderId fees18 value, r = .depositFees adapter orderId fees18 value →
      (chain.world.2.adapters adapter).state orderId = .none) : Effect chain r := by
  cases r with
  | sealEntry source epoch policy =>
    cases q <;> cases same
    exact lasting
  | enqueue id =>
    cases q <;> cases same
    exact lasting
  | advance group cursor n =>
    cases q <;> cases same
    have passed : cursor + _ ≤ _ := lasting
    have enough := entries group cursor n rfl _ rfl
    exact (Nat.add_le_add_left enough cursor).trans passed
  | depositFees adapter orderId fees18 value =>
    cases q <;> cases same
    exact lasting (unstarted adapter orderId fees18 value rfl)
  | executeAndStart plan =>
    cases q with
    | executeAndStart other =>
      obtain ⟨id, started, order⟩ := lasting
      refine ⟨id, started, order.trans ?_⟩
      injection same
    | _ => cases same
  | round id action status =>
    cases q <;> cases same
    exact lasting

/-- Where every step meets the condition, a request that the journal answers as confirmed has its effect. -/
theorem journal_answers (run : Run y p keeper st) {r : Request} {next : After} (asking : st.stage = .asking r next)
    {outcome : Outcome} {nonce ms : Nat} (meets : Meets st (.ask outcome nonce ms) after)
    {task : Option (Journal.Task Signed)} {tx : Signed}
    (answered : Journal.send st.Received (st.tasks r.key) ⟨r, nonce⟩ outcome ms = some (task, .confirmed tx)) :
    Effect st.chain r := by
  have sound := run_sound run
  obtain ⟨mined, noted⟩ := send_confirmed answered
  apply lasting_effect (sound.done tx mined) (sound.notes _ tx noted)
  · rintro group cursor n rfl m same
    exact meets.entries outcome nonce ms rfl group cursor n next asking tx m noted same
  · rintro adapter orderId fees18 value rfl
    exact meets.unstarted outcome nonce ms rfl adapter orderId fees18 value next asking

/-! Runs that can be evaluated. -/

/-- Money, and an order whose refund waits for its adapter. -/
structure Till where
  manager : Nat
  vault : Nat
  native : Nat
  back : Option (Address × Hub.RoundOrderId)

/-- A hub that gives a budget of 100 back when it has the refund. -/
def tillHub (a : Address) : StockAdapter.Peers Till where
  buyFeeBps _ := pure 25
  rawFor _ _ := pure 0
  isValidSignatureNow _ := true
  beginFunding v _ budget _ _ := pure { v with manager := v.manager - budget }
  fundingReceived _ _ := pure (10 ^ 24)
  submitFundedBuy v _ := pure v
  requestCancel v _ := pure v
  claimResult v id :=
    if v.back = some (a, id) then
      pure ({ v with back := none, native := v.native + 100 * 10 ^ 18 }, 2, 0, 100 * 10 ^ 18)
    else pure (v, 0, 0, 0)
  stock _ := 0
  native := Till.native
  vaultStock _ := 0
  safeTransfer v _ := pure v
  pay v amount := pure { v with native := v.native - amount, vault := v.vault + amount }

theorem till_results : Results tillHub fun v a id => v.back = some (a, id) := by
  constructor
  case claimed =>
    intro a v id after status raw refund18 done
    simp only [tillHub, ite_ok, pure_ok, Prod.mk.injEq] at done
    rcases done with ⟨held, rfl, rfl, _⟩ | ⟨none, rfl, rfl, _⟩
    · refine ⟨iff_of_true nofun held, ?_⟩
      intro other order different found
      rw [held] at found
      exact absurd (Option.some.inj found).symm different
    · exact ⟨iff_of_false (fun some_ => some_ rfl) none, fun _ _ _ found => found⟩
  all_goals
    intros
    rename_i done
    cases done
    exact fun _ _ held => held

def tillSystem : System Till where
  manager := sample
  self := 3
  balances := ⟨Till.manager, Till.vault, fun _ _ => 0⟩
  adapters := fun _ => ⟨20, 21, 22⟩
  peers := tillHub
  ready := fun v a id => v.back = some (a, id)
  results := till_results

/-- An adapter's answer, as the manager gets it. -/
def tillPut (w : World Till) (a : Address) (call : StockAdapter.Tx (StockAdapter.State × Till)) :
    Rounds.Tx (World Till) := do
  let (adapter, rest) ← relay .peer call
  pure (put w a adapter rest)

/-- Peers that seal 100 for each entry. -/
def tillPeers (now : Nat) (quote : SignedQuote) : Peers (World Till) where
  hasCode _ := true
  resolve _ _ _ := pure ⟨7, 8, 9, 10, 0, 0, true, 0⟩
  rewardPolicy _ _ _ _ := pure ⟨1, 1, 0, 0⟩
  sealReward w _ _ _ :=
    pure ((w.1, { w.2 with rest := { w.2.rest with manager := w.2.rest.manager + 100 * 10 ^ 18 } }),
      100 * 10 ^ 18, 5, 0)
  registerAllocation w _ _ _ := pure w
  lRun _ := pure (10 ^ 24)
  reserveFor w _ _ _ := pure w
  releaseUnsent w _ := pure w
  releaseFinalized _ _ := pure ()
  onRoundFinalized s w id := do
    let q ← Batcher.onRoundFinalized s (s.slices id) w.1
    pure (q, w.2)
  startFunding w a id budget minRaw deadline := tillPut w a
    (StockAdapter.startFunding (tillHub a) ⟨20, 21, 22⟩ (w.2.adapters a) w.2.rest
      ⟨20, now, budget, budget, minRaw, deadline, 21⟩ id quote)
  funded w a id := relay .peer (StockAdapter.funded (tillHub a) (w.2.adapters a) w.2.rest id)
  submit w a id := tillPut w a (StockAdapter.submit (tillHub a) ⟨20, 21, 22⟩ (w.2.adapters a) w.2.rest 20 id)
  requestCancel w a id := do
    let rest ← relay .peer
      (StockAdapter.requestCancel (tillHub a) ⟨20, 21, 22⟩ (w.2.adapters a) w.2.rest 20 id)
    pure (put w a (w.2.adapters a) rest)
  consumeResult w a id := do
    let (adapter, rest, outcome, raw, refund) ← relay .peer
      (StockAdapter.consumeResult (tillHub a) ⟨20, 21, 22⟩ (w.2.adapters a) w.2.rest 20 id)
    pure (put w a adapter rest, outcome, raw, refund)
  returnRefund w amount :=
    pure (w.1, { w.2 with rest := { w.2.rest with manager := w.2.rest.manager + amount } })
  sendOrphan w _ _ _ := pure w
  recordDelivery w _ _ := pure w

theorem beside_refl {V : Type} (y : System V) (s : Store) (w : World V) : Beside y s w w :=
  ⟨.refl _, .refl, .refl _ _⟩

theorem tillPeers_served (now : Nat) (quote : SignedQuote) (before next : Store) :
    Served tillSystem (tillPeers now quote) now quote before next := by
  constructor
  case told => exact fun _ _ _ => rfl
  case funded =>
    intro w a id answer done
    exact (relay_ok _ _ _).mp done
  case startFunding | submit =>
    intros
    rename_i done
    simp only [tillPeers, tillPut, bind_ok, relay_ok, pure_ok, Prod.exists] at done
    obtain ⟨adapter, rest, called, rfl⟩ := done
    exact ⟨_, adapter, rest, beside_refl .., called, beside_refl ..⟩
  case requestCancel =>
    intro w a id w' done
    simp only [tillPeers, bind_ok, relay_ok, pure_ok] at done
    obtain ⟨rest, called, rfl⟩ := done
    exact ⟨_, _, rest, beside_refl .., ⟨rfl, called⟩, beside_refl ..⟩
  case consumeResult =>
    intro w a id w' outcome raw refund done
    simp only [tillPeers, bind_ok, relay_ok, pure_ok, Prod.exists, Prod.mk.injEq] at done
    obtain ⟨adapter, rest, _, _, _, called, rfl, rfl, rfl, rfl⟩ := done
    exact ⟨_, adapter, rest, beside_refl .., called, beside_refl ..⟩
  all_goals
    intros
    rename_i done
    cases done
    exact ⟨.refl _, .refl, .refl _ _⟩

theorem tillPeers_spare (now : Nat) (quote : SignedQuote) : Spares tillSystem.purses (tillPeers now quote) := by
  constructor
  case onRoundFinalized =>
    intro s w id after done
    simp only [tillPeers, bind_ok, pure_ok] at done
    obtain ⟨q, _, rfl⟩ := done
    exact Nat.le_refl _
  case startFunding =>
    intro w a id budget minRaw deadline after done
    simp only [tillPeers, tillPut, bind_ok, relay_ok, pure_ok, Prod.exists] at done
    obtain ⟨adapter, rest, called, rfl⟩ := done
    obtain ⟨_, _, _, _, begun⟩ := StockAdapter.startFunding_ok called
    cases begun
    exact Nat.sub_le_iff_le_add.mp (Nat.le_refl _)
  case submit =>
    intro w a id after done
    simp only [tillPeers, tillPut, bind_ok, relay_ok, pure_ok, Prod.exists] at done
    obtain ⟨adapter, rest, called, rfl⟩ := done
    obtain ⟨_, sent⟩ := StockAdapter.submit_ok called
    cases sent
    exact Nat.le_refl _
  case requestCancel =>
    intro w a id after done
    simp only [tillPeers, bind_ok, relay_ok, pure_ok] at done
    obtain ⟨rest, called, rfl⟩ := done
    cases StockAdapter.requestCancel_ok called
    exact Nat.le_refl _
  case consumeResult =>
    intro w a id after outcome raw refund done
    simp only [tillPeers, bind_ok, relay_ok, pure_ok, Prod.exists, Prod.mk.injEq] at done
    obtain ⟨adapter, rest, _, _, _, called, rfl, _⟩ := done
    obtain ⟨_, claimed, _, _, claim, delivered, sent, paid⟩ := StockAdapter.consumeResult_ok called
    have same : claimed.manager = w.2.rest.manager := by
      simp only [tillHub, ite_ok, pure_ok, Prod.mk.injEq] at claim
      rcases claim with ⟨_, rfl, _⟩ | ⟨_, rfl, _⟩ <;> rfl
    have forwarded : delivered.manager = claimed.manager := by
      rcases sent with rfl | ⟨_, sent⟩
      · rfl
      · cases sent
        rfl
    have refunded : rest.manager = delivered.manager := by
      rcases paid with rfl | ⟨_, paid⟩
      · rfl
      · cases paid
        rfl
    exact (refunded.trans (forwarded.trans same)).ge
  case returnRefund =>
    intro w amount after done
    cases done
    exact Nat.le_refl _
  all_goals
    intros
    rename_i done
    cases done
    exact Nat.le_refl _

/-- A step of a run: the keeper's or the chain's, or a refund that comes to the hub. -/
inductive Play where
  | act (action : Action)
  | refund (a : Address) (id : Hub.RoundOrderId)

def playCall (s : RoundChain.State Till) : Call → Rounds.Tx (RoundChain.State Till)
  | .manager env action => do
    require (0 < env.now ∧ env.sender ≠ 3) .required
    Batcher.ownBatcher 3 action
    Rounds.step sample tillSystem.purses (tillPeers env.now ⟨⟨0, 0, 0, 0⟩, 0, 0, 0, 0, 0, 0⟩) s env action
  | .executeAndStart now requested maxBudget quote => do
    require (0 < now ∧ 0 < requested.length ∧ requested.length ≤ 64) .required
    let x := tillPeers now quote
    let limit ← runLimit x s
    let items ← relay .peer (Batcher.previewBatch s.store s.world.1 limit
      (Batcher.groupKey s.store (requested.headD 0)) maxBudget)
    require (items.map Slice.entryId = requested) .required
    let middle ← reserveBatch sample x s ⟨3, now⟩ requested (items.map Slice.budget18) quote.minRawOut quote.deadline
    start x middle ⟨3, now⟩ middle.store.nextRoundId
  | .enqueue id => do
    let q ← relay .peer (Batcher.enqueue s.store s.world.1 id)
    pure ⟨s.store, (q, s.world.2)⟩
  | .advance group max => do
    let q ← relay .peer (Batcher.advance s.store s.world.1 group max)
    pure ⟨s.store, (q, s.world.2)⟩
  | .depositFees a id value => do
    let adapter ← relay .peer (StockAdapter.depositFees (s.world.2.adapters a) id value)
    pure ⟨s.store, put s.world a adapter s.world.2.rest⟩
  | .refundUnusedFees a sender id accepts => do
    let adapter ← relay .peer
      (StockAdapter.refundUnusedFees ⟨20, 21, 22⟩ (s.world.2.adapters a) sender id accepts)
    pure ⟨s.store, put s.world a adapter s.world.2.rest⟩
  | .other => throw (.revert .required)

theorem playCall_turn {s next : RoundChain.State Till} {call : Call} (done : playCall s call = .ok next) :
    Turn tillSystem s call next := by
  cases call with
  | manager env action =>
    simp only [playCall, bind_ok, require_ok] at done
    obtain ⟨_, ⟨clock, other⟩, _, wires, done⟩ := done
    refine .manager _ env action _ clock (tillPeers_spare ..) (tillPeers_served ..) other ?_ done
    rintro batcher capacity rfl
    exact (require_ok _ _ _).mp wires
  | executeAndStart now requested maxBudget quote =>
    simp only [playCall, bind_ok, require_ok, relay_ok] at done
    obtain ⟨_, ⟨clock, some_⟩, limit, limited, items, preview, _, fifo, middle, reserved, started⟩ := done
    exact .executeAndStart _ _ now requested maxBudget quote limit items clock
      ⟨tillPeers_spare .., tillPeers_spare ..⟩ (tillPeers_served ..) (tillPeers_served ..) some_ limited preview fifo
      reserved started
  | enqueue id =>
    simp only [playCall, bind_ok, relay_ok, pure_ok] at done
    obtain ⟨q, taken, rfl⟩ := done
    exact .enqueue id q taken
  | advance group max =>
    simp only [playCall, bind_ok, relay_ok, pure_ok] at done
    obtain ⟨q, taken, rfl⟩ := done
    exact .advance group max q taken
  | depositFees a id value =>
    simp only [playCall, bind_ok, relay_ok, pure_ok] at done
    obtain ⟨adapter, taken, rfl⟩ := done
    exact .depositFees a id value adapter _ taken (.refl _ _) (Nat.le_refl _)
  | refundUnusedFees a sender id accepts =>
    simp only [playCall, bind_ok, relay_ok, pure_ok] at done
    obtain ⟨adapter, taken, rfl⟩ := done
    exact .refundUnusedFees a sender id accepts adapter _ taken (.refl _ _) (Nat.le_refl _)
  | other => exact ((throw_ok _ _).mp done).elim

def Play.action : Play → Action
  | .act action => action
  | .refund _ _ => .chain .other

def play (st : State Till) : Play → Except Unit (State Till)
  | .act (.chain call) =>
    match playCall st.chain call with
    | .ok chain => .ok { st with chain := chain }
    | .error _ => .error ()
  | .act (.mine tx now true) =>
    if tx ∈ st.signed ∧ tx.nonce = st.nextNonce then
      match playCall st.chain (tx.request.call 9 now) with
      | .ok chain => .ok { st with chain := chain, nextNonce := st.nextNonce + 1, mined := st.mined ++ [tx] }
      | .error _ => .error ()
    else .error ()
  | .act action =>
    match own tillSystem roundDefaults st action with
    | some after => .ok after
    | none => .error ()
  | .refund a id =>
    if st.chain.world.2.rest.back = none then
      .ok { st with chain := ⟨st.chain.store, (st.chain.world.1,
        { st.chain.world.2 with rest := { st.chain.world.2.rest with back := some (a, id) } })⟩ }
    else .error ()

theorem play_step {st after : State Till} {q : Play} (done : play st q = .ok after) :
    Step tillSystem roundDefaults 9 st q.action after := by
  unfold play at done
  split at done
  · split at done
    · next chain called =>
      cases done
      exact .chain _ chain (playCall_turn called)
    · cases done
  · split at done
    · next held =>
      split at done
      · next chain called =>
        cases done
        exact .mine _ _ chain held.1 held.2 (playCall_turn called)
      · cases done
    · cases done
  · split at done
    · next went =>
      cases done
      exact .own _ went
    · cases done
  · next a id =>
    split at done
    · next none =>
      cases done
      refine .chain .other _ (.other _ ⟨.refl, ?_⟩ (Nat.le_refl _))
      intro other order held
      exact nomatch none.symm.trans held
    · cases done

def oneGroup : Policy := ⟨1, 1, 0, 0⟩

/-- The order of a round of entries of 100. -/
def orderOf (sourceNonce : Nat) (ids : List EntryId) : Hub.RoundOrderId :=
  ⟨sample.digest (ids.map fun id => ⟨id, 100 * 10 ^ 18⟩), 5, 50, sourceNonce⟩

/-- Its fees are paid in, and the round starts. -/
def startPlays (now nonce sourceNonce : Nat) (ids : List EntryId) : List Play :=
  let orderId := orderOf sourceNonce ids
  let budget := ids.length * (100 * 10 ^ 18)
  [.act (.chain (.depositFees 10 orderId (10 ^ 17))),
    .act (.chain (.executeAndStart now ids budget ⟨orderId, budget, 5, 50, nonce, 10 ^ 17, 10 ^ 17⟩))]

/-- A tick up to the advance of a group, past `n` entries. -/
def tickPlays (n : Nat) : List Play :=
  [.act .tick, .act .settled, .act .pass, .act .pass, .act .pass, .act (.viewGroup oneGroup), .act .viewCursor] ++
    List.replicate n (.act .viewEntry) ++ [.act .advance]

/-- Sixteen entries of one group, the first in a round of its own: the keeper advances past them, that round is refunded
and its entry goes into another, and the keeper is about to advance again. -/
def swallowedPlays : List Play := List.flatten
  [[.act (.chain (.manager ⟨1, 10⟩ (.configureExecution 3 4))),
      .act (.chain (.manager ⟨1, 10⟩ (.registerSource 5 6)))],
    (List.range 16).map fun epoch => .act (.chain (.manager ⟨9, 10⟩ (.sealEntry 5 epoch 0 oneGroup))),
    (List.range' 1 16).map fun id => .act (.chain (.enqueue id)),
    startPlays 10 0 0 [1], startPlays 10 1 0 (List.range' 2 15), tickPlays 16,
    [.act (.ask .signed 0 0), .act (.mine ⟨.advance oneGroup 0 16, 0⟩ 12 true), .act (.await .confirmed 0),
      .refund 10 (orderOf 0 [1]), .act (.chain (.manager ⟨9, 13⟩ (.finalize 1)))],
    startPlays 14 2 1 [1], [.act .pass, .act .pass], tickPlays 16]

/-- The journal confirms an advance that the cursor is behind. -/
def swallows (st : State Till) : Bool :=
  match st.stage with
  | .asking (.advance group cursor n) _ =>
    match Journal.send st.Received (st.tasks (.advance group cursor)) ⟨.advance group cursor n, 1⟩ .confirmed 0 with
    | some (_, .confirmed _) => decide (st.chain.world.1.cursor group < cursor + n)
    | _ => false
  | _ => false

theorem advance_swallowed : ∃ st : State Till,
    Reachable (Step tillSystem roundDefaults 9) (deployed ⟨0, 0, 0, none⟩) st ∧
      ∃ r next nonce ms task tx, st.stage = .asking r next ∧
        Journal.send st.Received (st.tasks r.key) ⟨r, nonce⟩ .confirmed ms = some (task, .confirmed tx) ∧
        ¬ Effect st.chain r := by
  obtain ⟨st, reached, holds⟩ := run_passes play (fun _ _ => True) swallowedPlays (deployed ⟨0, 0, 0, none⟩)
    swallows (by decide +kernel)
  refine ⟨st, reached.map Play.action fun _ _ _ taken => play_step taken.2, ?_⟩
  unfold swallows at holds
  split at holds
  · next group cursor n next asking =>
    split at holds
    · next task tx answered =>
      have behind := of_decide_eq_true holds
      exact ⟨_, next, 1, 0, task, tx, asking, answered, Nat.not_le.mpr behind⟩
    · cases holds
  · cases holds

def Request.simple : Request → Bool
  | .advance _ _ _ | .depositFees _ _ _ _ => false
  | _ => true

/-- A step of a keeper that has neither advanced a cursor nor paid in fees. -/
def routine (st : State Till) (q : Play) : Bool :=
  st.mined.all (fun tx => tx.request.simple) &&
    (match st.stage with
    | .asking r _ => r.simple
    | _ => true) &&
    match q.action with
    | .mine tx _ _ => tx.request.simple
    | .chain (.refundUnusedFees _ _ _ _) => false
    | _ => true

theorem routine_meets {st after : State Till} {q : Play} (held : routine st q = true) : Meets st q.action after := by
  simp only [routine, Bool.and_eq_true, List.all_eq_true] at held
  obtain ⟨⟨mined, stage⟩, action⟩ := held
  constructor
  · intro tx member group cursor n same
    have simple := mined tx member
    rw [same] at simple
    cases simple
  · intro tx now same group cursor n own
    rw [same] at action
    dsimp only at action
    rw [own] at action
    cases action
  · intro adapter sender orderId same
    rw [same] at action
    cases action
  · intro outcome nonce ms same group cursor n next asking
    rw [asking] at stage
    cases stage
  · intro outcome nonce ms same adapter orderId fees18 value next asking
    rw [asking] at stage
    cases stage

/-- An enqueue is mined after the next tick has read the queue. -/
def answeredPlays : List Play :=
  [.act (.chain (.manager ⟨1, 10⟩ (.configureExecution 3 4))), .act (.chain (.manager ⟨1, 10⟩ (.registerSource 5 6))),
    .act (.chain (.manager ⟨9, 10⟩ (.sealEntry 5 0 0 ⟨1, 1, 0, 0⟩))), .act .tick, .act .settled, .act .pass,
    .act .viewQueue, .act .enqueueNext, .act (.ask .signed 0 0), .act (.await .deferred 0), .act .pass, .act .pass,
    .act .pass, .act .tick, .act .settled, .act .pass, .act .viewQueue, .act .enqueueNext,
    .act (.mine ⟨.enqueue 1, 0⟩ 12 true)]

def answers (st : State Till) : Bool :=
  match st.stage with
  | .asking (.enqueue 1) _ =>
    match Journal.send st.Received (st.tasks (.enqueue 1)) ⟨.enqueue 1, 1⟩ .confirmed 0 with
    | some (_, .confirmed _) => routine st (.act (.ask .confirmed 1 0))
    | _ => false
  | _ => false

theorem journal_answers_enqueued : ∃ st : State Till, Effect st.chain (.enqueue 1) := by
  obtain ⟨st, reached, holds⟩ := run_passes play (fun st q => routine st q = true) answeredPlays
    (deployed ⟨0, 0, 0, none⟩) answers (by decide +kernel)
  have run : Run tillSystem roundDefaults 9 st :=
    ⟨_, reached.map Play.action fun _ _ _ taken => ⟨play_step taken.2, routine_meets taken.1⟩⟩
  unfold answers at holds
  split at holds
  · next next asking =>
    split at holds
    · next task tx answered =>
      have meets : Meets st (.ask .confirmed 1 0) st := routine_meets holds
      exact ⟨st, journal_answers run asking meets answered⟩
    · cases holds
  · cases holds

end Solonpad.RoundTasks
