import Solonpad.RefundKeeper

/-!
The float's money through the refund keeper. What is recorded as withdrawn is what the withdrawal took, and it
goes out once: as the order's credit, or back to the float. Two steps trust the order where only the key can
tell: the record of a withdrawal that an earlier tick sent, and the refill of one whose credit is on its way.
-/

namespace Solonpad.RefundKeeper

open Checked SentTasks Transition
open Hub (Order)

/-- In the phase and not about to close by itself. -/
def Needs (o : Order) : Prop := Waits o ∧ ¬ half o.held (if o.kind = .buy then o.amountIn else o.amountOut)

/-- What the journal and the chain say about one order. -/
structure Fits (record : Record) (tasks : Op → Sent Nat) (moved : Op → List Nat) (o : Order) : Prop where
  placed : Placed o
  moved : ∀ op, moved op = (tasks op).landed.toList
  withdrawn : ∀ amount, record.withdrawn = some amount → tasks .withdraw = .confirmed amount
  answered : record.withdrawn ≠ none → o.outcome ≠ none
  credit : ∀ amount, (tasks .credit).content = some amount → record.withdrawn = some amount
  refill : ∀ amount, (tasks .refill).content = some amount →
    record.withdrawn = some amount ∧ tasks .credit = .unsent ∧ ¬ Needs o
  done : record.done = true → ∃ amount, tasks .credit = .confirmed amount
  returned : record.returned = true → ∃ amount, tasks .refill = .confirmed amount

def StageFits (s : State) : Prop :=
  match s.stage with
  | .refilling id amount _ => (s.records id).withdrawn = some amount ∧ ¬ Needs (s.orders id)
  | .refilled id _ => ∃ amount, s.tasks id .refill = .confirmed amount
  | .withdrawing id _ _ _ => (s.records id).withdrawn = none ∧ (s.orders id).outcome ≠ none
  | .withdrawn id need _ _ => (s.records id).withdrawn = none ∧ (s.orders id).outcome ≠ none ∧
      s.tasks id .withdraw = .confirmed need
  | .counting id _ _ _ => (s.records id).withdrawn ≠ none ∧ s.tasks id .refill = .unsent
  | .crediting id amount _ _ => (s.records id).withdrawn = some amount ∧ s.tasks id .refill = .unsent
  | .credited id _ _ => ∃ amount, s.tasks id .credit = .confirmed amount
  | _ => True

structure Sound (s : State) : Prop where
  each : ∀ id, Fits (s.records id) (s.tasks id) (s.moved id) (s.orders id)
  stage : StageFits s

/-- The keeper records a confirmed withdrawal with the amount it was sent with, and sends no refill for an order
whose credit is on its way or there. -/
def careful (s : State) : Action → Bool
  | .answered true =>
    match s.stage with
    | .withdrawing id need _ _ => decide ((s.tasks id .withdraw).content = some need)
    | _ => true
  | .submit =>
    match s.stage with
    | .refilling id _ _ => decide (s.tasks id .credit = .unsent)
    | _ => true
  | _ => true

def Careful (s : State) (action : Action) : Prop := careful s action = true

instance (s : State) (action : Action) : Decidable (Careful s action) := inferInstanceAs (Decidable (_ = _))

variable {c : Config} {s after : State} {next : Order} {amount : Nat} {id : Id} {op : Op}

/-! Orders. -/

theorem refundNeed_credit {o : Order} {proceeds : Option Nat} {need : Nat}
    (needed : refundNeed o proceeds = some (.credit need)) : Needs o := by
  unfold refundNeed at needed
  split at needed
  · next buy =>
    dsimp only at needed
    split at needed
    · cases needed
    · next short => exact ⟨.inl buy, by rw [if_pos buy.1]; exact short⟩
  · split at needed
    · next sell =>
      dsimp only at needed
      split at needed
      · cases needed
      · next short => exact ⟨.inr sell, by rw [if_neg (by rw [sell.1]; nofun)]; exact short⟩
    · cases needed

/-- What an order needs is more than nothing. -/
theorem Needs.credit {o : Order} (needs : Needs o) (placed : Placed o) :
    ∃ less, refundNeed o (some 0) = some (.credit (less + 1)) := by
  obtain ⟨waits, short⟩ := needs
  obtain ⟨_, bought, sold⟩ := placed waits
  rcases waits with buy | sell
  · rw [if_pos buy.1] at short
    have due := bought buy.1
    refine ⟨o.amountIn - o.held - 1, ?_⟩
    rw [refundNeed, if_pos buy]
    dsimp only
    rw [if_neg short]
    simp only [half, not_and_or, not_not] at short
    congr 2
    omega
  · have other : ¬ o.kind = .buy := by rw [sell.1]; nofun
    rw [if_neg other] at short
    have due := sold sell.1
    refine ⟨o.amountOut + o.fee - o.held - 1, ?_⟩
    rw [refundNeed, if_neg (fun buy => other buy.1), if_pos sell]
    dsimp only
    rw [if_neg short, if_neg (fun apart => apart rfl)]
    simp only [half, not_and_or, not_not] at short
    congr 2
    omega

/-- What no longer needs money never does again. -/
theorem Evolves.needs {o : Order} (evolves : Evolves o next) (answered : o.outcome ≠ none)
    (unneeded : ¬ Needs o) : ¬ Needs next := by
  rintro ⟨waits, short⟩
  have before : Waits o := by
    by_contra other
    exact evolves.left answered other waits
  obtain ⟨kind, amountIn, amountOut, held⟩ := evolves.stays before waits
  refine unneeded ⟨before, fun enough => short ?_⟩
  rw [kind, amountIn, amountOut]
  exact ⟨enough.1.trans (Nat.mul_le_mul_right 2 held), by have := enough.2; omega⟩

/-! One order. -/

variable {record : Record} {tasks : Op → Sent Nat} {moved : Op → List Nat} {o : Order}

theorem Fits.evolves (fits : Fits record tasks moved o) (evolves : Evolves o next) :
    Fits record tasks moved next where
  placed := evolves.placed
  moved := fits.moved
  withdrawn := fits.withdrawn
  answered := fun some => evolves.outcome (fits.answered some)
  credit := fits.credit
  refill := by
    intro amount live
    obtain ⟨withdrawn, uncredited, unneeded⟩ := fits.refill amount live
    exact ⟨withdrawn, uncredited, evolves.needs (fits.answered (by rw [withdrawn]; nofun)) unneeded⟩
  done := fits.done
  returned := fits.returned

theorem content_unsent {task : Sent Nat} : task = .unsent ↔ task.content = none := by
  cases task <;> simp [Sent.content]

/-- An order in need has no refill. -/
theorem Fits.unrefilled (fits : Fits record tasks moved o) (needs : Needs o) : tasks .refill = .unsent := by
  rw [content_unsent]
  cases live : (tasks .refill).content with
  | none => rfl
  | some amount => exact absurd needs (fits.refill amount live).2.2

/-- One key's task changes. -/
theorem Fits.retask (fits : Fits record tasks moved o) (op : Op) (task : Sent Nat)
    (withdraw : op = .withdraw → ∀ amount, record.withdrawn = some amount → task = .confirmed amount)
    (credit : op = .credit → (∀ amount, task.content = some amount → record.withdrawn = some amount) ∧
      (task ≠ .unsent → tasks .refill = .unsent) ∧ (record.done = true → ∃ amount, task = .confirmed amount))
    (refill : op = .refill → (∀ amount, task.content = some amount →
        record.withdrawn = some amount ∧ tasks .credit = .unsent ∧ ¬ Needs o) ∧
      (record.returned = true → ∃ amount, task = .confirmed amount)) :
    Fits record (Function.update tasks op task) (Function.update moved op task.landed.toList) o where
  placed := fits.placed
  moved := by
    intro other
    by_cases same : other = op
    · subst same
      rw [Function.update_self, Function.update_self]
    · rw [Function.update_of_ne same, Function.update_of_ne same]
      exact fits.moved other
  withdrawn := by
    intro amount noted
    by_cases same : op = .withdraw
    · subst same
      rw [Function.update_self]
      exact withdraw rfl amount noted
    · rw [Function.update_of_ne (Ne.symm same)]
      exact fits.withdrawn amount noted
  answered := fits.answered
  credit := by
    intro amount live
    by_cases same : op = .credit
    · subst same
      rw [Function.update_self] at live
      exact (credit rfl).1 amount live
    · rw [Function.update_of_ne (Ne.symm same)] at live
      exact fits.credit amount live
  refill := by
    intro amount live
    by_cases same : op = .refill
    · subst same
      rw [Function.update_self] at live
      rw [Function.update_of_ne (by nofun)]
      exact (refill rfl).1 amount live
    · rw [Function.update_of_ne (Ne.symm same)] at live
      obtain ⟨noted, uncredited, unneeded⟩ := fits.refill amount live
      refine ⟨noted, ?_, unneeded⟩
      by_cases own : op = .credit
      · subst own
        rw [Function.update_self]
        by_contra sent
        rw [(credit rfl).2.1 sent] at live
        cases live
      · rw [Function.update_of_ne (Ne.symm own)]
        exact uncredited
  done := by
    intro done
    by_cases same : op = .credit
    · subst same
      rw [Function.update_self]
      exact (credit rfl).2.2 done
    · rw [Function.update_of_ne (Ne.symm same)]
      exact fits.done done
  returned := by
    intro returned
    by_cases same : op = .refill
    · subst same
      rw [Function.update_self]
      exact (refill rfl).2 returned
    · rw [Function.update_of_ne (Ne.symm same)]
      exact fits.returned returned

/-- A key whose transaction may still succeed or has, and which is not confirmed, is in no finished record. -/
theorem Fits.resent (fits : Fits record tasks moved o) (op : Op) (live : (tasks op).content = some amount)
    {task : Sent Nat} (same : task.content = some amount)
    (kept : ∀ confirmed, tasks op = .confirmed confirmed → task = .confirmed confirmed) :
    Fits record (Function.update tasks op task) (Function.update moved op task.landed.toList) o := by
  refine fits.retask op task ?_ ?_ ?_
  · rintro rfl amount' noted
    exact kept amount' (fits.withdrawn amount' noted)
  · rintro rfl
    refine ⟨fun amount' live' => ?_, fun _ => ?_, fun done => ?_⟩
    · rw [same] at live'
      cases live'
      exact fits.credit amount live
    · rw [content_unsent]
      cases refilled : (tasks .refill).content with
      | none => rfl
      | some other =>
        rw [(fits.refill other refilled).2.1] at live
        cases live
    · obtain ⟨confirmed, there⟩ := fits.done done
      exact ⟨confirmed, kept confirmed there⟩
  · rintro rfl
    refine ⟨fun amount' live' => ?_, fun returned => ?_⟩
    · rw [same] at live'
      cases live'
      exact fits.refill amount live
    · obtain ⟨confirmed, there⟩ := fits.returned returned
      exact ⟨confirmed, kept confirmed there⟩

theorem Fits.confirm (fits : Fits record tasks moved o) (op : Op) (landed : (tasks op).landed = some amount) :
    Fits record (Function.update tasks op (.confirmed amount)) moved o := by
  have live := Sent.content_of_landed landed
  have next := fits.resent op live (rfl : (Sent.confirmed amount).content = some amount) (by
    intro confirmed there
    rw [there] at live
    cases live
    rfl)
  have same : Function.update moved op (Sent.confirmed amount).landed.toList = moved := by
    rw [Function.update_eq_self_iff, fits.moved op, landed]
    rfl
  rw [same] at next
  exact next

/-- It is mined. -/
theorem Fits.land (fits : Fits record tasks moved o) (op : Op) (waiting : tasks op = .sent amount false) :
    Fits record (Function.update tasks op (.sent amount true))
      (Function.update moved op (moved op ++ [amount])) o := by
  have empty : moved op = [] := by
    rw [fits.moved op, waiting]
    rfl
  rw [empty]
  exact fits.resent op (by rw [waiting]; rfl) rfl (fun confirmed there => by rw [waiting] at there; cases there)

theorem Fits.drop (fits : Fits record tasks moved o) (op : Op) (waiting : tasks op = .sent amount false) :
    Fits record (Function.update tasks op .unsent) moved o := by
  have next := fits.retask op .unsent
    (by
      rintro rfl amount' noted
      rw [fits.withdrawn amount' noted] at waiting
      cases waiting)
    (by
      rintro rfl
      refine ⟨nofun, fun sent => absurd rfl sent, fun done => ?_⟩
      obtain ⟨confirmed, there⟩ := fits.done done
      rw [there] at waiting
      cases waiting)
    (by
      rintro rfl
      refine ⟨nofun, fun returned => ?_⟩
      obtain ⟨confirmed, there⟩ := fits.returned returned
      rw [there] at waiting
      cases waiting)
  have same : Function.update moved op Sent.unsent.landed.toList = moved := by
    rw [Function.update_eq_self_iff, fits.moved op, waiting]
    rfl
  rw [same] at next
  exact next

/-- A transaction is sent under a free key. -/
theorem Fits.submit (fits : Fits record tasks moved o) (op : Op) (amount : Nat) (free : tasks op = .unsent)
    (credit : op = .credit → record.withdrawn = some amount ∧ tasks .refill = .unsent)
    (refill : op = .refill → record.withdrawn = some amount ∧ tasks .credit = .unsent ∧ ¬ Needs o) :
    Fits record (Function.update tasks op (.sent amount false)) moved o := by
  have next := fits.retask op (.sent amount false)
    (by
      rintro rfl amount' noted
      rw [fits.withdrawn amount' noted] at free
      cases free)
    (by
      intro same
      obtain ⟨noted, unrefilled⟩ := credit same
      subst same
      refine ⟨fun amount' live => ?_, fun _ => unrefilled, fun done => ?_⟩
      · cases live
        exact noted
      · obtain ⟨confirmed, there⟩ := fits.done done
        rw [there] at free
        cases free)
    (by
      intro same
      have allowed := refill same
      subst same
      refine ⟨fun amount' live => ?_, fun returned => ?_⟩
      · cases live
        exact allowed
      · obtain ⟨confirmed, there⟩ := fits.returned returned
        rw [there] at free
        cases free)
  have same : Function.update moved op (Sent.sent amount false).landed.toList = moved := by
    rw [Function.update_eq_self_iff, fits.moved op, free]
    rfl
  rw [same] at next
  exact next

theorem deployed_sound (orders : Id → Order) (float purse : Nat) (placed : ∀ id, Placed (orders id)) :
    Sound (deployed orders float purse) where
  each := fun id => ⟨placed id, fun _ => rfl, nofun, fun some => absurd rfl some, nofun, nofun, nofun, nofun⟩
  stage := trivial

/-! What happens meanwhile. -/

/-- The keeper's stage fits on when only mined and dropped transactions and the hub have changed something. -/
theorem StageFits.meanwhile (fits : StageFits s)
    (answered : ∀ id, (s.records id).withdrawn ≠ none → (s.orders id).outcome ≠ none) (stage : after.stage = s.stage)
    (records : after.records = s.records) (unsent : ∀ id op, s.tasks id op = .unsent → after.tasks id op = .unsent)
    (confirmed : ∀ id op amount, s.tasks id op = .confirmed amount → after.tasks id op = .confirmed amount)
    (outcome : ∀ id, (s.orders id).outcome ≠ none → (after.orders id).outcome ≠ none)
    (needs : ∀ id, (s.orders id).outcome ≠ none → ¬ Needs (s.orders id) → ¬ Needs (after.orders id)) :
    StageFits after := by
  unfold StageFits at fits ⊢
  rw [stage, records]
  cases at_ : s.stage with
  | refilling id amount rest =>
    rw [at_] at fits
    exact ⟨fits.1, needs id (answered id (by rw [fits.1]; nofun)) fits.2⟩
  | refilled id rest =>
    rw [at_] at fits
    exact fits.imp fun amount there => confirmed id _ amount there
  | withdrawing id need rest n =>
    rw [at_] at fits
    exact ⟨fits.1, outcome id fits.2⟩
  | withdrawn id need rest n =>
    rw [at_] at fits
    exact ⟨fits.1, outcome id fits.2.1, confirmed id _ need fits.2.2⟩
  | counting id need rest n =>
    rw [at_] at fits
    exact ⟨fits.1, unsent id _ fits.2⟩
  | crediting id amount rest n =>
    rw [at_] at fits
    exact ⟨fits.1, unsent id _ fits.2⟩
  | credited id rest n =>
    rw [at_] at fits
    exact fits.imp fun amount there => confirmed id _ amount there
  | _ => trivial

theorem setTask_other (s : State) {other : Id} {op' : Op} (task : Sent Nat)
    (apart : ¬ (other = id ∧ op' = op)) : (s.setTask id op task).tasks other op' = s.tasks other op' := by
  simp only [State.setTask]
  by_cases same : other = id
  · subst same
    rw [Function.update_self, Function.update_of_ne (fun eq => apart ⟨rfl, eq⟩)]
  · rw [Function.update_of_ne same]

theorem setTask_own (s : State) (id : Id) (op : Op) (task : Sent Nat) : (s.setTask id op task).tasks id op = task := by
  simp only [State.setTask, Function.update_self]

/-- A key whose transaction waits is neither free nor confirmed, so its change moves no stage. -/
theorem setTask_keeps (waiting : s.tasks id op = .sent amount false) (task : Sent Nat) (other : Id) (op' : Op)
    (kept : Sent Nat) (still : kept = .unsent ∨ ∃ amount, kept = .confirmed amount)
    (there : s.tasks other op' = kept) : (s.setTask id op task).tasks other op' = kept := by
  rw [setTask_other s task, there]
  rintro ⟨rfl, rfl⟩
  rw [waiting] at there
  rcases still with rfl | ⟨_, rfl⟩ <;> cases there

theorem Sound.answered (sound : Sound s) (id : Id) (noted : (s.records id).withdrawn ≠ none) :
    (s.orders id).outcome ≠ none := (sound.each id).answered noted

theorem hub_sound {float : Nat} (done : step c s (.hub id next float) = .ok after) (sound : Sound s) : Sound after := by
  unfold step at done
  simp only [bind_ok, require_ok, pure_ok] at done
  obtain ⟨_, evolves, rfl⟩ := done
  refine ⟨fun other => ?_, sound.stage.meanwhile sound.answered rfl rfl (fun _ _ there => there)
    (fun _ _ _ there => there) ?_ ?_⟩
  · dsimp only
    by_cases same : other = id
    · subst same
      rw [Function.update_self]
      exact (sound.each other).evolves evolves
    · rw [Function.update_of_ne same]
      exact sound.each other
  · intro other answered
    dsimp only
    by_cases same : other = id
    · subst same
      rw [Function.update_self]
      exact evolves.outcome answered
    · rw [Function.update_of_ne same]
      exact answered
  · intro other answered unneeded
    dsimp only
    by_cases same : other = id
    · subst same
      rw [Function.update_self]
      exact evolves.needs answered unneeded
    · rw [Function.update_of_ne same]
      exact unneeded

theorem drop_sound (done : step c s (.drop id op) = .ok after) (sound : Sound s) : Sound after := by
  unfold step at done
  dsimp only at done
  split at done
  · next amount waiting =>
    cases done
    refine ⟨fun other => ?_, sound.stage.meanwhile sound.answered rfl rfl
      (fun other op' there => setTask_keeps waiting _ other op' _ (.inl rfl) there)
      (fun other op' amount' there => setTask_keeps waiting _ other op' _ (.inr ⟨amount', rfl⟩) there)
      (fun _ answered => answered) (fun _ _ unneeded => unneeded)⟩
    by_cases same : other = id
    · subst same
      simp only [State.setTask, Function.update_self]
      exact (sound.each other).drop op waiting
    · simp only [State.setTask, Function.update_of_ne same]
      exact sound.each other
  · cases done

theorem landed_sound (waiting : s.tasks id op = .sent amount false) (sound : Sound s)
    (records : after.records = s.records) (stage : after.stage = s.stage)
    (tasks : after.tasks = (s.setTask id op (.sent amount true)).tasks)
    (moved : after.moved = Function.update s.moved id (Function.update (s.moved id) op (s.moved id op ++ [amount])))
    (orders : ∀ other, after.orders other = s.orders other ∨ Evolves (s.orders other) (after.orders other)) :
    Sound after := by
  have still (other : Id) (op' : Op) (kept : Sent Nat)
      (settled : kept = .unsent ∨ ∃ amount, kept = .confirmed amount) (there : s.tasks other op' = kept) : after.tasks other op' = kept := by
    rw [tasks]
    exact setTask_keeps waiting _ other op' kept settled there
  refine ⟨fun other => ?_, sound.stage.meanwhile sound.answered stage records
    (fun other op' there => still other op' _ (.inl rfl) there)
    (fun other op' amount' there => still other op' _ (.inr ⟨amount', rfl⟩) there) ?_ ?_⟩
  · have here : Fits (s.records other) (after.tasks other) (after.moved other) (s.orders other) := by
      rw [tasks, moved]
      by_cases same : other = id
      · subst same
        simp only [State.setTask, Function.update_self]
        exact (sound.each other).land op waiting
      · simp only [State.setTask, Function.update_of_ne same]
        exact sound.each other
    rw [records]
    rcases orders other with same | evolves
    · rw [same]
      exact here
    · exact here.evolves evolves
  · intro other answered
    rcases orders other with same | evolves
    · rw [same]
      exact answered
    · exact evolves.outcome answered
  · intro other answered unneeded
    rcases orders other with same | evolves
    · rw [same]
      exact unneeded
    · exact evolves.needs answered unneeded

theorem mine_sound (done : step c s (.mine id op next) = .ok after) (sound : Sound s) : Sound after := by
  unfold step at done
  dsimp only at done
  split at done
  · next amount waiting =>
    cases op with
    | withdraw =>
      simp only [land, bind_ok, require_ok, pure_ok] at done
      obtain ⟨_, _, rfl⟩ := done
      exact landed_sound waiting sound rfl rfl rfl rfl (fun _ => .inl rfl)
    | credit =>
      simp only [land, bind_ok, require_ok, pure_ok] at done
      obtain ⟨_, ⟨_, evolves⟩, rfl⟩ := done
      refine landed_sound waiting sound rfl rfl rfl rfl (fun other => ?_)
      -- The hub handles the credit, so the order goes on.
      dsimp only
      by_cases same : other = id
      · subst same
        rw [Function.update_self]
        exact .inr evolves
      · rw [Function.update_of_ne same]
        exact .inl rfl
    | refill =>
      simp only [land, bind_ok, require_ok, pure_ok] at done
      obtain ⟨_, _, rfl⟩ := done
      exact landed_sound waiting sound rfl rfl rfl rfl (fun _ => .inl rfl)
  · cases done

/-! The keeper's own steps. -/

theorem Sound.elsewhere (sound : Sound s) (stage : Stage) (day : Nat) (used : Nat → Nat)
    (fits : StageFits { s with stage := stage, day := day, used := used }) :
    Sound { s with stage := stage, day := day, used := used } :=
  ⟨sound.each, fits⟩

/-- One key of one order changes. -/
theorem Sound.setTask (sound : Sound s) (id : Id) (op : Op) (task : Sent Nat) (stage : Stage)
    (own : Fits (s.records id) (Function.update (s.tasks id) op task) (s.moved id) (s.orders id))
    (fits : StageFits { s.setTask id op task with stage := stage }) :
    Sound { s.setTask id op task with stage := stage } := by
  refine ⟨fun other => ?_, fits⟩
  by_cases same : other = id
  · subst same
    simp only [State.setTask, Function.update_self]
    exact own
  · simp only [State.setTask, Function.update_of_ne same]
    exact sound.each other

/-- One order's record changes. -/
theorem Sound.setRecord (sound : Sound s) (id : Id) (record : Record) (stage : Stage)
    (own : Fits record (s.tasks id) (s.moved id) (s.orders id))
    (fits : StageFits { s.setRecord id record with stage := stage }) :
    Sound { s.setRecord id record with stage := stage } := by
  refine ⟨fun other => ?_, fits⟩
  by_cases same : other = id
  · subst same
    simp only [State.setRecord, Function.update_self]
    exact own
  · simp only [State.setRecord, Function.update_of_ne same]
    exact sound.each other

theorem reconciled_sound (done : step c s (.reconciled id op) = .ok after) (sound : Sound s) : Sound after := by
  unfold step at done
  simp only [bind_ok, require_ok] at done
  obtain ⟨_, at_, done⟩ := done
  split at done
  · next amount mined =>
    cases done
    refine sound.setTask id op _ s.stage ((sound.each id).confirm op (by rw [mined]; rfl)) ?_
    rw [at_]
    trivial
  · cases done

theorem finish_sound (done : step c s .finish = .ok after) (sound : Sound s) : Sound after := by
  unfold step at done
  dsimp only at done
  split at done
  · cases done
    exact sound.elsewhere _ _ _ trivial
  · next id rest at_ =>
    cases done
    unfold finish
    dsimp only
    split
    · exact sound.elsewhere _ _ _ trivial
    · split
      · exact sound.elsewhere _ _ _ trivial
      · next withdrawn noted =>
        split
        · exact sound.elsewhere _ _ _ trivial
        · next unneeded =>
          refine sound.elsewhere _ _ _ ⟨noted, fun needs => ?_⟩
          obtain ⟨less, needed⟩ := needs.credit (sound.each id).placed
          exact unneeded less needed
  · cases done

theorem handle_sound (sound : Sound s) (id : Id) (rest : List Id) (n rhProceeds available : Nat) :
    Sound (handle c s id rest n rhProceeds available) := by
  unfold handle
  dsimp only
  split
  · exact sound.elsewhere _ _ _ trivial
  · exact sound.elsewhere _ _ _ trivial
  · next need needed =>
    have needs := refundNeed_credit needed
    split
    · next withdrawn noted => exact sound.elsewhere _ _ _ ⟨noted, (sound.each id).unrefilled needs⟩
    · next unnoted =>
      split
      · exact sound.elsewhere _ _ _ trivial
      · split
        · exact sound.elsewhere _ _ _ trivial
        · exact sound.elsewhere _ _ _ ⟨unnoted, ((sound.each id).placed needs.1).1⟩

theorem look_sound {rhProceeds available : Nat} (done : step c s (.look rhProceeds available) = .ok after)
    (sound : Sound s) : Sound after := by
  unfold step at done
  dsimp only at done
  split at done
  · cases done
    exact sound.elsewhere _ _ _ trivial
  · next id rest n at_ =>
    split at done
    · cases done
      exact handle_sound sound id rest n rhProceeds available
    · cases done
      exact sound.elsewhere _ _ _ trivial
  · cases done

theorem submit_sound (done : step c s .submit = .ok after) (obeys : Careful s .submit) (sound : Sound s) :
    Sound after := by
  have fits := sound.stage
  unfold step at done
  dsimp only at done
  unfold StageFits at fits
  cases at_ : s.stage with
  | refilling id amount rest =>
    rw [at_] at done fits
    simp only [Stage.awaits, bind_ok, require_ok, pure_ok] at done
    obtain ⟨_, free, rfl⟩ := done
    have uncredited : s.tasks id .credit = .unsent := by
      simpa [Careful, careful, at_] using obeys
    refine sound.setTask id .refill _ s.stage ((sound.each id).submit .refill amount free nofun
      (fun _ => ⟨fits.1, uncredited, fits.2⟩)) ?_
    rw [at_]
    exact fits
  | withdrawing id need rest n =>
    rw [at_] at done fits
    simp only [Stage.awaits, bind_ok, require_ok, pure_ok] at done
    obtain ⟨_, free, rfl⟩ := done
    refine sound.setTask id .withdraw _ s.stage ((sound.each id).submit .withdraw need free nofun nofun) ?_
    rw [at_]
    exact fits
  | crediting id amount rest n =>
    rw [at_] at done fits
    simp only [Stage.awaits, bind_ok, require_ok, pure_ok] at done
    obtain ⟨_, free, rfl⟩ := done
    refine sound.setTask id .credit _ s.stage ((sound.each id).submit .credit amount free
      (fun _ => fits) nofun) ?_
    rw [at_]
    refine ⟨fits.1, ?_⟩
    dsimp only
    rw [setTask_other s _ (by rintro ⟨_, eq⟩; cases eq)]
    exact fits.2
  | _ =>
    rw [at_] at done
    cases done

theorem answered_sound {confirmed : Bool} (done : step c s (.answered confirmed) = .ok after)
    (obeys : Careful s (.answered confirmed)) (sound : Sound s) : Sound after := by
  have fits := sound.stage
  unfold step at done
  dsimp only at done
  unfold StageFits at fits
  cases at_ : s.stage with
  | refilling id amount rest =>
    rw [at_] at done fits
    simp only [Stage.awaits] at done
    split at done
    · split at done
      · cases done
      · next sent landed =>
        cases done
        refine sound.setTask id .refill _ _ ((sound.each id).confirm .refill landed) ⟨sent, ?_⟩
        exact setTask_own s id .refill _
    · cases done
      exact sound.elsewhere _ _ _ trivial
  | withdrawing id need rest n =>
    rw [at_] at done fits
    simp only [Stage.awaits] at done
    split at done
    · next yes =>
      subst yes
      split at done
      · cases done
      · next sent landed =>
        cases done
        -- What was sent is what the order needs, so what is recorded is what was taken.
        have amount : (s.tasks id .withdraw).content = some need := by
          simpa [Careful, careful, at_] using obeys
        rw [Sent.content_of_landed landed] at amount
        cases amount
        refine sound.setTask id .withdraw _ _ ((sound.each id).confirm .withdraw landed) ⟨fits.1, fits.2, ?_⟩
        exact setTask_own s id .withdraw _
    · cases done
      exact sound.elsewhere _ _ _ trivial
  | crediting id amount rest n =>
    rw [at_] at done fits
    simp only [Stage.awaits] at done
    split at done
    · split at done
      · cases done
      · next sent landed =>
        cases done
        refine sound.setTask id .credit _ _ ((sound.each id).confirm .credit landed) ⟨sent, ?_⟩
        exact setTask_own s id .credit _
    · cases done
      exact sound.elsewhere _ _ _ trivial
  | _ =>
    rw [at_] at done
    cases done

theorem Fits.taken (fits : Fits record tasks moved o) (unnoted : record.withdrawn = none)
    (confirmed : tasks .withdraw = .confirmed amount) (answered : o.outcome ≠ none) :
    Fits { record with withdrawn := some amount } tasks moved o where
  placed := fits.placed
  moved := fits.moved
  withdrawn := by
    intro amount' noted
    cases noted
    exact confirmed
  answered := fun _ => answered
  credit := by
    intro amount' live
    have noted := fits.credit amount' live
    rw [unnoted] at noted
    cases noted
  refill := by
    intro amount' live
    have noted := (fits.refill amount' live).1
    rw [unnoted] at noted
    cases noted
  done := fits.done
  returned := fits.returned

/-- Without a record nothing has gone back. -/
theorem Fits.unnoted (fits : Fits record tasks moved o) (unnoted : record.withdrawn = none) :
    tasks .refill = .unsent := by
  rw [content_unsent]
  cases live : (tasks .refill).content with
  | none => rfl
  | some amount =>
    have noted := (fits.refill amount live).1
    rw [unnoted] at noted
    cases noted

theorem note_sound (done : step c s .note = .ok after) (sound : Sound s) : Sound after := by
  have fits := sound.stage
  unfold step at done
  simp only [note] at done
  unfold StageFits at fits
  cases at_ : s.stage with
  | refilled id rest =>
    rw [at_] at done fits
    cases done
    exact sound.setRecord id _ _ { sound.each id with returned := fun _ => fits } trivial
  | withdrawn id need rest n =>
    rw [at_] at done fits
    cases done
    obtain ⟨unnoted, answered, confirmed⟩ := fits
    refine sound.setRecord id _ _ ((sound.each id).taken unnoted confirmed answered) ⟨?_, ?_⟩
    · simp only [State.setRecord, Function.update_self]
      nofun
    · exact (sound.each id).unnoted unnoted
  | counting id need rest n =>
    rw [at_] at done fits
    dsimp only at done
    split at done
    · next withdrawn noted =>
      cases done
      exact sound.elsewhere _ _ _ ⟨noted, fits.2⟩
    · cases done
  | credited id rest n =>
    rw [at_] at done fits
    cases done
    exact sound.setRecord id _ _ { sound.each id with done := fun _ => fits } trivial
  | _ =>
    rw [at_] at done
    cases done

theorem step_sound {action : Action} (obeys : Careful s action) (sound : Sound s)
    (done : accepts c s action after) : Sound after := by
  cases action with
  | tick day =>
    unfold accepts step at done
    simp only [bind_ok, require_ok, pure_ok] at done
    obtain ⟨_, _, rfl⟩ := done
    exact sound.elsewhere _ _ _ trivial
  | reconciled id op => exact reconciled_sound done sound
  | reconciledAll =>
    unfold accepts step at done
    simp only [bind_ok, require_ok, pure_ok] at done
    obtain ⟨_, _, rfl⟩ := done
    exact sound.elsewhere _ _ _ trivial
  | finish => exact finish_sound done sound
  | listed open' =>
    unfold accepts step at done
    simp only [bind_ok, require_ok, pure_ok] at done
    obtain ⟨_, _, rfl⟩ := done
    exact sound.elsewhere _ _ _ trivial
  | look rhProceeds available => exact look_sound done sound
  | submit => exact submit_sound done obeys sound
  | answered confirmed => exact answered_sound done obeys sound
  | note => exact note_sound done sound
  | throws =>
    unfold accepts step at done
    dsimp only at done
    split at done
    · cases done
      exact sound.elsewhere _ _ _ trivial
    · cases done
      exact sound.elsewhere _ _ _ trivial
    · cases done
      exact sound.elsewhere _ _ _ trivial
    · cases done
  | crash =>
    cases done
    exact sound.elsewhere _ _ _ trivial
  | mine id op next => exact mine_sound done sound
  | drop id op => exact drop_sound done sound
  | hub id next float => exact hub_sound done sound

theorem reachable_sound {orders : Id → Order} {float purse : Nat} (placed : ∀ id, Placed (orders id)) {s : State}
    (reached : Reachable (restrict (accepts c) Careful) (deployed orders float purse) s) : Sound s :=
  reached.invariant (deployed_sound orders float purse placed)
    (fun _ _ _ sound taken => step_sound taken.1 sound taken.2)

end Solonpad.RefundKeeper
