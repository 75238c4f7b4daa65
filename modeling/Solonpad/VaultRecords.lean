import Solonpad.VaultWorker
import Solonpad.VaultNotices

/-!
What the vault worker remembers. A waiting order has its record or its event is still to be scanned, over all
runs. What a settled ref is owed is remembered as long as every call that leaves it money tells so, and a record
goes only when nothing worth a return is left.
-/

namespace Solonpad.VaultWorker

open Checked Chain Messages SentTasks Transition
open Vault (Event Fill)

/-- An event from the cursor on. -/
def State.pending (s : State) (told : Event → Bool) : Bool := (s.vault.events.drop s.cursor).any told

/-- There is a record of the settled ref, or its event is still to be scanned. -/
def State.watched (s : State) (ref : Ref) : Bool := ref ∈ s.returnable || s.pending (Event.leaves ref)

variable (c : Config)

/-- A call leaves money to a ref only where the journal knows or will know of it. -/
def announces (s : State) (action : Vault.Action) : Bool :=
  match Vault.hides c.vault c.minReturn6 s.vault action with
  | none => true
  | some ref => isMigrationRef ref || s.watched ref

def tells (s : State) : Action → Bool
  | .vault call => announces c s call.action
  | .mine key now fill fee pulled => announces c s (key.call c now fill fee pulled).action
  | .clear =>
    match s.stage with
    | .forgetting ref _ _ _ => isMigrationRef ref || s.vault.owed ref < c.minReturn6
    | _ => true
  | _ => true

/-- Money comes to a settled ref, or stays with it after a purchase or a delivery, only while it is recorded or
its Sold or Failed event is still to be scanned; and a record is cleared only while less than `minReturn6` is
left. -/
def Tells (s : State) (action : Action) : Prop := tells c s action = true

instance (s : State) (action : Action) : Decidable (Tells c s action) := inferInstanceAs (Decidable (_ = _))

/-- What one event of the log has put into the journal. -/
structure Handled (waiting returnable : List Ref) (event : Event) : Prop where
  waiting : ∀ ref, event.awaits ref = true → ref ∈ waiting
  returnable : ∀ ref, event.leaves ref = true → ref ∈ returnable

def StageFits (s : State) : Prop :=
  match s.stage with
  | .idle | .reconciling | .scanning => True
  | .logs next last => s.cursor ≤ next ∧ next ≤ last ∧ last ≤ s.head ∧ s.head ≤ s.vault.events.length ∧
      ∀ i event, s.cursor ≤ i → i < next → s.vault.events[i]? = some event →
        Handled s.waiting s.returnable event
  | .unwaiting ref _ _ _ => s.head ≤ s.cursor ∧ (s.vault.Waits ref → s.pending (Event.awaits ref) = true)
  | _ => s.head ≤ s.cursor

/-- What holds in every run, and of liabilities in the runs that are `told`. -/
structure Sound (told : Prop) (s : State) : Prop where
  orderly : s.vault.book.Orderly
  cursor : s.cursor ≤ s.vault.events.length
  waits : ∀ ref, s.vault.Waits ref → ref ∈ s.waiting ∨ s.pending (Event.awaits ref) = true
  due : told → ∀ ref, isMigrationRef ref = false → s.vault.Due c.minReturn6 ref →
    ref ∈ s.returnable ∨ s.pending (Event.leaves ref) = true
  executed : ∀ ref, (s.tasks (.executeFunded ref)).landed = some () → s.vault.settled ref = true
  stage : StageFits s

variable {c} {told : Prop} {s after : State} {call : Vault.Call} {fill : Option Fill} {vault : Vault.State}
  {owner bridger : Address}

/-! The log. -/

theorem pending_iff (told : Event → Bool) : s.pending told = true ↔
    ∃ i event, s.cursor ≤ i ∧ s.vault.events[i]? = some event ∧ told event = true := by
  simp only [State.pending, List.any_eq_true, List.mem_iff_getElem?, List.getElem?_drop]
  constructor
  · rintro ⟨event, ⟨i, found⟩, tells⟩
    exact ⟨s.cursor + i, event, Nat.le_add_right .., found, tells⟩
  · rintro ⟨i, event, ahead, found, tells⟩
    refine ⟨event, ⟨i - s.cursor, ?_⟩, tells⟩
    rw [Nat.add_sub_cancel' ahead]
    exact found

theorem pending_more {more : List Event} (cursor : after.cursor = s.cursor)
    (within : s.cursor ≤ s.vault.events.length) (events : after.vault.events = s.vault.events ++ more)
    (told : Event → Bool) : after.pending told = (s.pending told || more.any told) := by
  simp only [State.pending, cursor, events, List.drop_append_of_le_length within, List.any_append]

/-- What was not scanned and is not in the scanned stretch is still to be scanned. -/
theorem pending_scanned {told : Event → Bool} {known : Prop} (vault : after.vault = s.vault)
    (behind : ∀ i event, s.cursor ≤ i → i < after.cursor → s.vault.events[i]? = some event → told event = true → known)
    (pending : s.pending told = true) : known ∨ after.pending told = true := by
  obtain ⟨i, event, ahead, found, tells⟩ := (pending_iff told).mp pending
  by_cases handled : i < after.cursor
  · exact .inl (behind i event ahead handled found tells)
  · right
    rw [pending_iff]
    exact ⟨i, event, Nat.le_of_not_lt handled, vault ▸ found, tells⟩

theorem mem_record {records : List Ref} {ref other : Ref} :
    other ∈ record records ref ↔ other ∈ records ∨ other = ref := by
  unfold record
  split
  · next there =>
    constructor
    · exact .inl
    · rintro (known | rfl)
      · exact known
      · exact there
  · simp

theorem scanLog_grows (s : State) (event : Event) (ref : Ref) :
    (ref ∈ s.waiting → ref ∈ (s.scanLog event).waiting) ∧
      (ref ∈ s.returnable → ref ∈ (s.scanLog event).returnable) := by
  unfold State.scanLog
  split
  · exact ⟨fun known => mem_record.mpr (.inl known), id⟩
  · split
    · exact ⟨id, fun known => mem_record.mpr (.inl known)⟩
    · exact ⟨id, id⟩
  · exact ⟨id, id⟩

theorem scanLog_handled (s : State) (event : Event) :
    Handled (s.scanLog event).waiting (s.scanLog event).returnable event where
  waiting := by
    intro ref awaits
    cases event with
    | orderWaitingFunds own =>
      have same : own = ref := of_decide_eq_true awaits
      exact mem_record.mpr (.inr same.symm)
    | _ => cases awaits
  returnable := by
    intro ref leaves
    cases event with
    | orderExecuted own underlying outcome =>
      have same : own = ref ∧ outcome ≠ .bought := of_decide_eq_true leaves
      simp only [State.scanLog, if_pos same.2]
      exact mem_record.mpr (.inr same.1.symm)
    | _ => cases leaves

theorem scanLog_rest (s : State) (event : Event) : (s.scanLog event).vault = s.vault ∧
    (s.scanLog event).cursor = s.cursor ∧ (s.scanLog event).head = s.head ∧
    (s.scanLog event).tasks = s.tasks := by
  unfold State.scanLog
  split
  · exact ⟨rfl, rfl, rfl, rfl⟩
  · split <;> exact ⟨rfl, rfl, rfl, rfl⟩
  · exact ⟨rfl, rfl, rfl, rfl⟩

/-! The vault goes on. -/

theorem executeFunded_settles {v later : Vault.State} {ref : Ref} {fee : Nat} (orderly : v.book.Orderly)
    (action : call.action = .executeFunded ref fill fee) (done : Vault.step c.vault v call = .ok later) :
    later.settled ref = true := by
  simp only [Vault.step, action, Vault.executeFunded, bind_ok, require_ok, not_or, Bool.not_eq_true] at done
  obtain ⟨_, ⟨present, _⟩, _, _, sent⟩ := done
  obtain ⟨executed, executes, rfl⟩ := Vault.settleAndSend_ok c.vault _ _ _ _ _ sent
  have own : (v.waiting ref).ref = ref := (orderly.waiting ref present).1
  have settled := (Vault.executes_others executes).2.1
  have same : executed.state.settled ref = true := by
    rw [settled]
    simp only [Vault.State.settles, own, Function.update_self]
  exact same

/-- What the worker is about to do fits on when the vault's log only grows. -/
theorem StageFits.later {more : List Event} (fits : StageFits s) (stage : after.stage = s.stage)
    (cursor : after.cursor = s.cursor) (head : after.head = s.head) (waiting : after.waiting = s.waiting)
    (returnable : after.returnable = s.returnable) (events : after.vault.events = s.vault.events ++ more)
    (waits : ∀ ref, after.vault.Waits ref → s.vault.Waits ref ∨ after.pending (Event.awaits ref) = true)
    (grown : ∀ told, s.pending told = true → after.pending told = true) : StageFits after := by
  unfold StageFits at fits ⊢
  rw [stage, cursor, head]
  cases at_ : s.stage with
  | logs next last =>
    rw [at_] at fits
    obtain ⟨behind, within, below, there, handled⟩ := fits
    refine ⟨behind, within, below, ?_, fun i event ahead before found => ?_⟩
    · rw [events, List.length_append]
      omega
    · rw [events, List.getElem?_append_left (by omega)] at found
      obtain ⟨kept, left⟩ := handled i event ahead before found
      exact ⟨waiting ▸ kept, returnable ▸ left⟩
  | unwaiting ref rest floatOn free =>
    rw [at_] at fits
    refine ⟨fits.1, fun still => ?_⟩
    rcases waits ref still with before | pending
    · exact grown _ (fits.2 before)
    · exact pending
  | idle | reconciling | scanning => trivial
  | _ =>
    rw [at_] at fits
    exact fits

/-- A call of the vault between two steps of the worker. -/
theorem call_sound (done : Vault.step c.vault s.vault call = .ok vault)
    (announced : told → announces c s call.action = true) (tasks : Key → Sent Unit)
    (landed : ∀ ref, (tasks (.executeFunded ref)).landed = some () → vault.settled ref = true)
    (sound : Sound c told s) : Sound c told { s with vault := vault, tasks := tasks } := by
  have move := Vault.move_book (Vault.step_move c.vault _ _ _ done)
  obtain ⟨more, events, each⟩ := Vault.step_told c.minReturn6 sound.orderly done
  have pending := @pending_more s { s with vault := vault, tasks := tasks } more rfl sound.cursor events
  have grown (tells : Event → Bool) (before : s.pending tells = true) :
      ({ s with vault := vault, tasks := tasks } : State).pending tells = true := by
    rw [pending, before]
    rfl
  have fresh {tells : Event → Bool} (event : ∃ event ∈ more, tells event = true) :
      ({ s with vault := vault, tasks := tasks } : State).pending tells = true := by
    rw [pending, Bool.or_eq_true]
    exact .inr (List.any_eq_true.mpr event)
  refine ⟨Vault.bookMove_orderly sound.orderly move, ?_, fun ref waits => ?_, fun holds ref own due => ?_, landed,
    sound.stage.later rfl rfl rfl rfl rfl events (fun ref waits => ?_) grown⟩
  · dsimp only
    rw [events, List.length_append]
    exact Nat.le_add_right_of_le sound.cursor
  · rcases (each ref).waits waits with before | event
    · exact (sound.waits ref before).imp_right (grown _)
    · exact .inr (fresh event)
  · rcases (each ref).due due with before | event | hidden
    · exact (sound.due holds ref own before).imp_right (grown _)
    · exact .inr (fresh event)
    · -- Unannounced money is for a ref that is watched already.
      have known := announced holds
      rw [announces, hidden] at known
      simp only [own, Bool.false_or, State.watched, Bool.or_eq_true, decide_eq_true_eq] at known
      exact known.imp_right (grown _)
  · exact ((each ref).waits waits).imp_right fresh

theorem call_settled (done : Vault.step c.vault s.vault call = .ok vault) (ref : Ref)
    (settled : s.vault.settled ref = true) : vault.settled ref = true :=
  Vault.bookMove_settled (Vault.move_book (Vault.step_move c.vault _ _ _ done)) ref settled

/-! The worker's steps. -/

/-- A step that only moves the worker on. -/
theorem Sound.elsewhere (sound : Sound c told s) (stage : Stage) (returned : List Ref)
    (fits : StageFits { s with stage := stage, returned := returned }) :
    Sound c told { s with stage := stage, returned := returned } :=
  ⟨sound.orderly, sound.cursor, sound.waits, sound.due, sound.executed, fits⟩

theorem Sound.setTask (sound : Sound c told s) (key : Key) (task : Sent Unit) (stage : Stage)
    (landed : task.landed = some () → (s.tasks key).landed = some ())
    (fits : StageFits { s with stage := stage }) : Sound c told { s.setTask key task with stage := stage } := by
  refine ⟨sound.orderly, sound.cursor, sound.waits, sound.due, fun ref there => ?_, ?_⟩
  · by_cases same : Key.executeFunded ref = key
    · subst same
      simp only [State.setTask, Function.update_self] at there
      exact sound.executed ref (landed there)
    · simp only [State.setTask, Function.update_of_ne same] at there
      exact sound.executed ref there
  · unfold StageFits at fits ⊢
    exact fits

theorem scan_sound {head : Nat} (done : step c s (.scan head) = .ok after) (sound : Sound c told s) :
    Sound c told after := by
  unfold step at done
  simp only [bind_ok, require_ok, pure_ok] at done
  obtain ⟨_, ⟨_, there⟩, rfl⟩ := done
  refine ⟨sound.orderly, sound.cursor, sound.waits, sound.due, sound.executed, ?_⟩
  by_cases behind : head ≤ s.cursor
  · rw [if_pos behind]
    exact behind
  · rw [if_neg behind]
    refine ⟨Nat.le_refl _, Nat.le_refl _, Nat.le_of_not_le behind, there, fun i event ahead before => ?_⟩
    exact absurd ahead (Nat.not_le.mpr before)

theorem getLogs_sound {last : Nat} (done : step c s (.getLogs last) = .ok after) (sound : Sound c told s) :
    Sound c told after := by
  have fits := sound.stage
  unfold StageFits at fits
  unfold step at done
  dsimp only at done
  split at done
  · next next handled at_ =>
    rw [at_] at fits
    obtain ⟨behind, _, _, there, known⟩ := fits
    simp only [bind_ok, require_ok, pure_ok] at done
    obtain ⟨_, ⟨whole, further, below⟩, rfl⟩ := done
    refine ⟨sound.orderly, ?_, fun ref waits => ?_, fun holds ref own due => ?_, sound.executed, ?_⟩
    · dsimp only
      omega
    · rcases sound.waits ref waits with noted | pending
      · exact .inl noted
      · exact pending_scanned (s := s) rfl (fun i event ahead before found tells =>
          (known i event ahead before found).waiting ref tells) pending
    · rcases sound.due holds ref own due with noted | pending
      · exact .inl noted
      · exact pending_scanned (s := s) rfl (fun i event ahead before found tells =>
          (known i event ahead before found).returnable ref tells) pending
    · by_cases ended : next = s.head
      · rw [if_pos ended]
        exact Nat.le_of_eq ended.symm
      · rw [if_neg ended]
        refine ⟨Nat.le_refl _, by omega, below, there, fun i event ahead before => ?_⟩
        exact absurd ahead (Nat.not_le.mpr before)
  · cases done

theorem log_sound (done : step c s .log = .ok after) (sound : Sound c told s) : Sound c told after := by
  have fits := sound.stage
  unfold StageFits at fits
  unfold step at done
  dsimp only at done
  split at done
  · next next last at_ =>
    rw [at_] at fits
    obtain ⟨behind, _, below, there, known⟩ := fits
    simp only [bind_ok, require_ok] at done
    obtain ⟨_, open', done⟩ := done
    split at done
    · next event found =>
      cases done
      obtain ⟨vault, cursor, head, tasks⟩ := scanLog_rest s event
      have same (told : Event → Bool) : (s.scanLog event).pending told = s.pending told := by
        simp only [State.pending, vault, cursor]
      have grows := scanLog_grows s event
      refine ⟨vault ▸ sound.orderly, ?_, fun ref waits => ?_, fun holds ref own due => ?_,
        fun ref there => ?_, ?_⟩
      · dsimp only
        rw [vault, cursor]
        exact sound.cursor
      · dsimp only at waits
        rw [vault] at waits
        exact (sound.waits ref waits).imp (grows ref).1 (same _).trans
      · dsimp only at due
        rw [vault] at due
        exact (sound.due holds ref own due).imp (grows ref).2 (same _).trans
      · dsimp only at there ⊢
        rw [vault]
        exact sound.executed ref (tasks ▸ there)
      · refine ⟨?_, open', ?_, ?_, fun i other ahead before seen => ?_⟩
        · dsimp only
          rw [cursor]
          omega
        · dsimp only
          rw [head]
          exact below
        · dsimp only
          rw [head, vault]
          exact there
        · dsimp only at ahead seen ⊢
          rw [cursor] at ahead
          rw [vault] at seen
          rcases Nat.lt_succ_iff_lt_or_eq.mp before with earlier | rfl
          · obtain ⟨kept, left⟩ := known i other ahead earlier seen
            exact ⟨fun ref tells => (grows ref).1 (kept ref tells), fun ref tells => (grows ref).2 (left ref tells)⟩
          · rw [found] at seen
            cases seen
            exact scanLog_handled s event
    · cases done
  · cases done

theorem look_sound (done : step c s .look = .ok after) (sound : Sound c told s) : Sound c told after := by
  have fits := sound.stage
  unfold StageFits at fits
  unfold step at done
  simp only [look] at done
  split at done
  · next at_ =>
    rw [at_] at fits
    cases done
    exact sound.elsewhere _ _ fits
  · next ref rest floatOn free at_ =>
    rw [at_] at fits
    cases done
    refine sound.elsewhere _ _ ?_
    split
    · next settled =>
      refine ⟨fits, fun waits => ?_⟩
      have unsettled := (sound.orderly.waiting ref waits).2
      exact absurd (settled.symm.trans unsettled) nofun
    · exact fits
  · next ref rest floatOn free at_ =>
    rw [at_] at fits
    cases done
    refine sound.elsewhere _ _ ?_
    split
    · next blank => exact ⟨fits, fun waits => absurd blank waits⟩
    · exact fits
  · next at_ =>
    rw [at_] at fits
    cases done
    refine sound.elsewhere _ _ ?_
    split <;> exact fits
  · next at_ =>
    rw [at_] at fits
    cases done
    exact sound.elsewhere _ _ fits
  · next at_ =>
    rw [at_] at fits
    cases done
    exact sound.elsewhere _ _ fits
  · next at_ =>
    rw [at_] at fits
    cases done
    refine sound.elsewhere _ _ ?_
    split <;> exact fits
  · next at_ =>
    rw [at_] at fits
    cases done
    refine sound.elsewhere _ _ ?_
    split
    · exact fits
    · split <;> exact fits
  · cases done

theorem quoted_sound {quote : Option (Nat × Nat)} (done : step c s (.quoted quote) = .ok after)
    (sound : Sound c told s) : Sound c told after := by
  have fits := sound.stage
  unfold StageFits at fits
  unfold step at done
  dsimp only at done
  split at done
  · next at_ =>
    rw [at_] at fits
    split at done
    · cases done
      exact sound.elsewhere _ _ fits
    · split at done
      · cases done
        exact sound.elsewhere _ _ fits
      · cases done
        exact sound.elsewhere _ _ fits
  · cases done

theorem submit_sound (done : step c s .submit = .ok after) (sound : Sound c told s) : Sound c told after := by
  unfold step at done
  dsimp only at done
  split at done
  · cases done
  · next key at_ =>
    simp only [bind_ok, require_ok, pure_ok] at done
    obtain ⟨_, _, rfl⟩ := done
    exact sound.setTask key _ s.stage (fun mined => by cases mined) sound.stage

theorem answered_sound {confirmed : Bool} (done : step c s (.answered confirmed) = .ok after)
    (sound : Sound c told s) : Sound c told after := by
  have fits := sound.stage
  unfold StageFits at fits
  unfold step at done
  dsimp only at done
  cases at_ : s.stage with
  | sendingExecution ref rest floatOn free =>
    rw [at_] at done fits
    simp only [Stage.awaits] at done
    split at done
    · simp only [bind_ok, require_ok, pure_ok] at done
      obtain ⟨_, landed, rfl⟩ := done
      refine sound.setTask _ _ _ (fun _ => landed) ⟨fits, fun waits => ?_⟩
      -- What was executed is settled, and a settled ref never waits.
      have unsettled := (sound.orderly.waiting ref waits).2
      cases (sound.executed ref landed).symm.trans unsettled
    · cases done
      exact sound.elsewhere _ _ fits
  | sendingReturn ref orderId rest n =>
    rw [at_] at done fits
    simp only [Stage.awaits] at done
    split at done
    · simp only [bind_ok, require_ok, pure_ok] at done
      obtain ⟨_, landed, rfl⟩ := done
      exact sound.setTask _ _ _ (fun _ => landed) fits
    · cases done
      exact sound.elsewhere _ _ fits
  | _ =>
    rw [at_] at done
    cases done

theorem clear_sound (done : step c s .clear = .ok after) (obeys : told → Tells c s .clear) (sound : Sound c told s) :
    Sound c told after := by
  have fits := sound.stage
  unfold StageFits at fits
  unfold step at done
  dsimp only at done
  split at done
  · next ref rest floatOn free at_ =>
    rw [at_] at fits
    cases done
    refine ⟨sound.orderly, sound.cursor, fun other waits => ?_, sound.due, sound.executed, fits.1⟩
    by_cases same : other = ref
    · subst same
      exact .inr (fits.2 waits)
    · exact (sound.waits other waits).imp_left fun noted => by simpa [same] using noted
  · next ref paid rest n at_ =>
    rw [at_] at fits
    cases done
    refine ⟨sound.orderly, sound.cursor, sound.waits, fun holds other own due => ?_, sound.executed, fits⟩
    by_cases same : other = ref
    · subst same
      have small : s.vault.owed other < c.minReturn6 := by
        simpa [Tells, tells, at_, own] using obeys holds
      exact absurd due.2 (Nat.not_le.mpr small)
    · exact (sound.due holds other own due).imp_left fun noted => by simpa [same] using noted
  · cases done

theorem mine_sound {key : Key} {now fee pulled : Nat} (done : step c s (.mine key now fill fee pulled) = .ok after)
    (obeys : told → Tells c s (.mine key now fill fee pulled)) (sound : Sound c told s) : Sound c told after := by
  unfold step at done
  dsimp only at done
  split at done
  · next waiting =>
    simp only [call] at done
    split at done
    · next vault ran =>
      cases done
      refine call_sound (s := s) ran obeys _ (fun ref landed => ?_) sound
      by_cases same : Key.executeFunded ref = key
      · subst same
        exact executeFunded_settles sound.orderly rfl ran
      · simp only [State.setTask, Function.update_of_ne same] at landed
        exact call_settled ran ref (sound.executed ref landed)
    · cases done
  · cases done

theorem step_sound {action : Action} (obeys : told → Tells c s action) (sound : Sound c told s)
    (done : accepts c s action after) : Sound c told after := by
  cases action with
  | tick =>
    unfold accepts step at done
    simp only [bind_ok, require_ok, pure_ok] at done
    obtain ⟨_, _, rfl⟩ := done
    exact sound.elsewhere _ _ trivial
  | reconciled key =>
    unfold accepts step at done
    simp only [bind_ok, require_ok] at done
    obtain ⟨_, _, done⟩ := done
    split at done
    · next mined =>
      cases done
      refine sound.setTask key _ s.stage (fun _ => ?_) sound.stage
      rw [mined]
      rfl
    · cases done
  | reconciledAll =>
    unfold accepts step at done
    simp only [bind_ok, require_ok, pure_ok] at done
    obtain ⟨_, _, rfl⟩ := done
    exact sound.elsewhere _ _ trivial
  | scan head => exact scan_sound done sound
  | getLogs last => exact getLogs_sound done sound
  | log => exact log_sound done sound
  | entries floatOn free =>
    have fits := sound.stage
    unfold accepts step at done
    simp only [bind_ok, require_ok, pure_ok] at done
    obtain ⟨_, at_, rfl⟩ := done
    unfold StageFits at fits
    rw [at_] at fits
    exact sound.elsewhere _ _ fits
  | look => exact look_sound done sound
  | quoted quote => exact quoted_sound done sound
  | submit => exact submit_sound done sound
  | answered confirmed => exact answered_sound done sound
  | clear => exact clear_sound done obeys sound
  | crash =>
    cases done
    exact sound.elsewhere _ _ trivial
  | mine key now fill fee pulled => exact mine_sound done obeys sound
  | drop key =>
    unfold accepts step at done
    dsimp only at done
    split at done
    · cases done
      exact sound.setTask key _ s.stage (fun mined => by cases mined) sound.stage
    · cases done
  | vault call =>
    unfold accepts step at done
    simp only [VaultWorker.call] at done
    split at done
    · next vault ran =>
      cases done
      exact call_sound ran obeys _ (fun ref landed => call_settled ran ref (sound.executed ref landed)) sound
    · cases done

theorem deployed_sound (owner bridger : Address) : Sound c told (deployed owner bridger) where
  orderly := Vault.deployed_orderly owner bridger
  cursor := Nat.le_refl 0
  waits := fun _ waits => absurd rfl waits
  due := fun _ _ _ due => absurd due.1 nofun
  executed := fun _ landed => absurd landed nofun
  stage := trivial

/-! Whole runs. -/

theorem reachable_sound {s : State} (reached : Reachable (accepts c) (deployed owner bridger) s) : Sound c False s :=
  reached.invariant (deployed_sound owner bridger) (fun _ _ _ sound taken => step_sound nofun sound taken)

theorem told_sound {s : State}
    (reached : Reachable (restrict (accepts c) (Tells c)) (deployed owner bridger) s) : Sound c True s :=
  reached.invariant (deployed_sound owner bridger)
    (fun _ _ _ sound taken => step_sound (fun _ => taken.1) sound taken.2)

/-- An event from the head on that this tick's scan read. -/
def State.later (s : State) (tells : Event → Bool) : Bool := (s.vault.events.drop s.head).any tells

theorem later_of_pending {tells : Event → Bool} (scanned : s.head ≤ s.cursor) (pending : s.pending tells = true) :
    s.later tells = true := by
  obtain ⟨event, beyond, holds⟩ := List.any_eq_true.mp pending
  exact List.any_eq_true.mpr ⟨event, List.drop_subset_drop_left _ scanned beyond, holds⟩

/-- What a tick leaves behind: a waiting ref has its record, and a settled one worth a return has its record or
was returned, unless that came after the head the scan read. -/
structure Remembered (c : Config) (s : State) : Prop where
  waiting : ∀ ref, s.vault.Waits ref → ref ∈ s.waiting ∨ s.later (Event.awaits ref) = true
  returnable : ∀ ref, isMigrationRef ref = false → s.vault.Due c.minReturn6 ref →
    ref ∈ s.returnable ∨ ref ∈ s.returned ∨ s.later (Event.leaves ref) = true

theorem Sound.scanned (sound : Sound c told s) (ended : s.stage = .done) : s.head ≤ s.cursor := by
  have fits := sound.stage
  unfold StageFits at fits
  rw [ended] at fits
  exact fits

/-- No waiting order is forgotten in any run. -/
theorem waiting_remembered {s : State} (reached : Reachable (accepts c) (deployed owner bridger) s)
    (ended : s.stage = .done) (ref : Ref) (waits : s.vault.Waits ref) :
    ref ∈ s.waiting ∨ s.later (Event.awaits ref) = true := by
  have sound := reachable_sound reached
  exact (sound.waits ref waits).imp_right (later_of_pending (sound.scanned ended))

/-- No liability is forgotten either in a run whose calls announce what they leave and whose records are cleared
only with less than `minReturn6` left. -/
theorem worker_forgets_nothing {owner bridger : Address} {s : State}
    (reached : Reachable (restrict (accepts c) (Tells c)) (deployed owner bridger) s) (ended : s.stage = .done) :
    Remembered c s where
  waiting := fun ref waits => waiting_remembered reached.unrestricted ended ref waits
  returnable := by
    intro ref own due
    have sound := told_sound reached
    rcases sound.due trivial ref own due with noted | pending
    · exact .inl noted
    · exact .inr (.inr (later_of_pending (sound.scanned ended) pending))

/-! A buy that waits is executed in the second tick and fails; the third records what was paid in for it. -/

def sample : Config := ⟨⟨1, 2, 3, 4, 5, 6⟩, 7, 1000000, 100, 8⟩

def sampleRef : Ref := .order 1

def sampleBuy : Order := ⟨sampleRef, 9, .buy, 3000000, 0⟩

def sampleScan (head : Nat) : List Action := [.tick, .reconciledAll, .scan head, .getLogs head]

def sampleActions : List Action :=
  ([.vault ⟨0, 0, .lzReceive 3 sampleBuy none 0⟩] : List Action) ++ sampleScan 1 ++
    ([.log, .getLogs 1, .entries false 0, .look, .look, .look, .look, .look, .look,
      .vault ⟨8, 0, .fund sampleRef 3000000 3000000⟩] : List Action) ++
    sampleScan 2 ++
    ([.log, .getLogs 2, .entries false 0, .look, .look, .look, .submit,
      .mine (.executeFunded sampleRef) 0 none 0 0, .answered true, .clear, .look, .look, .look] : List Action) ++
    sampleScan 3 ++
    ([.log, .getLogs 3, .entries false 0, .look, .look, .look, .look, .quoted none, .look] : List Action)

def sampleEnds (s : State) : Bool :=
  decide (s.stage = .done ∧ s.vault.Due 1000000 sampleRef ∧ s.later (Event.leaves sampleRef) = false)

theorem sample_run : ∃ s, Reachable (restrict (accepts sample) (Tells sample)) (deployed 10 11) s ∧
    sampleEnds s = true :=
  run_passes (step sample) (Tells sample) sampleActions (deployed 10 11) sampleEnds (by decide)

theorem worker_forgets_nothing_failed : ∃ s, s.vault.Due 1000000 sampleRef ∧
    s.later (Event.leaves sampleRef) = false ∧ Remembered sample s := by
  obtain ⟨s, reached, ends⟩ := sample_run
  obtain ⟨ended, due, silent⟩ := of_decide_eq_true ends
  exact ⟨s, due, silent, worker_forgets_nothing reached ended⟩

/-! Money that comes for a voided buy once its record is cleared. -/

def lateActions : List Action :=
  ([.vault ⟨0, 0, .lzReceive 3 { sampleBuy with amountIn := 0 } none 0⟩] : List Action) ++ sampleScan 1 ++
    ([.log, .getLogs 1, .entries false 0, .look, .look, .look, .look, .clear, .look,
      .vault ⟨8, 0, .fund sampleRef 5000000 5000000⟩] : List Action) ++
    sampleScan 2 ++ ([.log, .getLogs 2, .entries false 0, .look, .look, .look] : List Action)

def lateEnds (s : State) : Bool :=
  decide (s.stage = .done ∧ s.vault.Due 1000000 sampleRef ∧ s.returnable = [] ∧ s.returned = [] ∧
    s.later (Event.leaves sampleRef) = false)

theorem late_run : ∃ s, Reachable (restrict (accepts sample) (fun _ _ => True)) (deployed 10 11) s ∧
    lateEnds s = true :=
  run_passes (step sample) (fun _ _ => True) lateActions (deployed 10 11) lateEnds (by decide)

theorem late_funding_forgotten : ¬ ∀ (c : Config) (owner bridger : Address) (s : State),
    Reachable (accepts c) (deployed owner bridger) s → s.stage = .done → Remembered c s := by
  intro claim
  obtain ⟨s, reached, ends⟩ := late_run
  obtain ⟨ended, due, unrecorded, unreturned, silent⟩ := of_decide_eq_true ends
  have remembered := claim sample 10 11 s reached.unrestricted ended
  rcases remembered.returnable sampleRef rfl due with recorded | returned | later
  · rw [unrecorded] at recorded
    cases recorded
  · rw [unreturned] at returned
    cases returned
  · rw [silent] at later
    cases later

end Solonpad.VaultWorker
