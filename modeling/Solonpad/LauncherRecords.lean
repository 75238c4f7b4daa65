import Solonpad.Launcher

/-!
What the launcher remembers of a launch that succeeded. The tick that waits for the launch writes it down, asks
Relay about it from then on and sends the dispatch that its reserve did not pay for. Nothing else in the journal
does, so a launch that succeeds outside that wait is not remembered.
-/

namespace Solonpad.Launcher

open Checked SentTasks Transition
open Hub (Order)

/-- A launch succeeds only while its tick waits for it, the tick goes on from there to the record and the dispatch,
and no order is quoted again once a launch of it has succeeded. Relay names the request of every order. -/
def careful (s : State) : Action → Bool
  | .planned (some plan) =>
    match s.stage with
    | .planning id _ => s.landed.all (fun launch => launch.1 ≠ id) && plan.relayRequestId.isSome
    | _ => true
  | .mine id orderId _ =>
    match s.stage with
    | .sending own sent _ => own = id && sent = orderId
    | _ => false
  | .answered false =>
    match s.stage with
    | .sending id orderId _ => (id, orderId) ∉ s.landed
    | _ => true
  | .crash =>
    match s.stage with
    | .sending id orderId _ => (id, orderId) ∉ s.landed
    | .launched _ _ _ => false
    | .dispatching id _ => (s.orders id).status ≠ .funded
    | _ => true
  | _ => true

def Careful (s : State) (action : Action) : Prop := careful s action = true

instance (s : State) (action : Action) : Decidable (Careful s action) := inferInstanceAs (Decidable (_ = _))

/-- The dispatch that a launch left to the keeper. -/
def Stranded (o : Order) : Prop := o.lane = 0 ∧ o.status = .funded

instance (o : Order) : Decidable (Stranded o) := inferInstanceAs (Decidable (_ ∧ _))

/-- A launch that has succeeded: the tick still works on it, or it is written down. -/
structure Kept (s : State) (id : Id) (orderId : Nat) : Prop where
  own : (s.records id).orderId = some orderId
  request : (s.records id).relayRequestId ≠ none
  entry : id ∈ s.entries
  left : (s.orders id).lane = 0 → (s.orders id).status ≠ .pending
  known : (∃ n, s.stage = .sending id orderId n) ∨ (∃ n, s.stage = .launched id orderId n) ∨
    (s.records id).launched = true ∧
      (Stranded (s.orders id) → id ∈ s.attempted ∨ ∃ n, s.stage = .dispatching id n)

def StageFits (s : State) : Prop :=
  match s.stage with
  | .sending id orderId _ => (s.records id).orderId = some orderId ∧ (s.records id).relayRequestId ≠ none ∧
      id ∈ s.entries ∧ ∀ other, (id, other) ∈ s.landed → other = orderId
  | .launched id orderId _ => ∀ other, (id, other) ∈ s.landed → other = orderId
  | .watching rest => ∀ id ∈ s.entries, (s.records id).watchable → id ∈ s.asked ∨ id ∈ rest
  | .done => ∀ id ∈ s.entries, (s.records id).watchable → id ∈ s.asked
  | _ => True

structure Sound (s : State) : Prop where
  each : ∀ launch ∈ s.landed, Kept s launch.1 launch.2
  stage : StageFits s

/-- Stages in which the tick has nothing in hand. -/
def Stage.Free : Stage → Prop
  | .sending _ _ _ | .launched _ _ _ | .dispatching _ _ => False
  | _ => True

variable {c : Config} {s after : State} {id : Id} {orderId : Nat}

theorem Kept.written (kept : Kept s id orderId) (free : s.stage.Free) :
    (s.records id).launched = true ∧ (Stranded (s.orders id) → id ∈ s.attempted) := by
  rcases kept.known with ⟨n, at_⟩ | ⟨n, at_⟩ | ⟨launched, attempted⟩
  · rw [at_] at free
    exact free.elim
  · rw [at_] at free
    exact free.elim
  · refine ⟨launched, fun stranded => ?_⟩
    rcases attempted stranded with there | ⟨n, at_⟩
    · exact there
    · rw [at_] at free
      exact free.elim

/-- While another order's launch is being written down, what is kept is written. -/
theorem Kept.elsewhere {own : Id} {sent n : Nat} (kept : Kept s id orderId) (at_ : s.stage = .launched own sent n)
    (apart : id ≠ own) : (s.records id).launched = true ∧ (Stranded (s.orders id) → id ∈ s.attempted) := by
  rcases kept.known with ⟨m, here⟩ | ⟨m, here⟩ | ⟨launched, attempted⟩
  · rw [at_] at here
    cases here
  · rw [at_] at here
    cases here
    exact absurd rfl apart
  · refine ⟨launched, fun stranded => ?_⟩
    rcases attempted stranded with there | ⟨m, here⟩
    · exact there
    · rw [at_] at here
      cases here

/-- What is written down stays so while the record says the same. -/
theorem Kept.stays (kept : Kept s id orderId) (same : (after.records id).orderId = (s.records id).orderId)
    (request : (after.records id).relayRequestId = (s.records id).relayRequestId)
    (entries : id ∈ s.entries → id ∈ after.entries) (orders : after.orders id = s.orders id)
    (launched : (after.records id).launched = true)
    (attempted : Stranded (s.orders id) → id ∈ after.attempted ∨ ∃ n, after.stage = .dispatching id n) :
    Kept after id orderId where
  own := same.trans kept.own
  request := by
    rw [request]
    exact kept.request
  entry := entries kept.entry
  left := by
    rw [orders]
    exact kept.left
  known := by
    rw [orders]
    exact .inr (.inr ⟨launched, attempted⟩)

/-- A step out of a free stage that keeps the records. -/
theorem Sound.free (sound : Sound s) (free : s.stage.Free) (records : after.records = s.records)
    (entries : after.entries = s.entries) (orders : after.orders = s.orders) (landed : after.landed = s.landed)
    (attempted : after.attempted = s.attempted) (fits : StageFits after) : Sound after := by
  refine ⟨fun launch member => ?_, fits⟩
  rw [landed] at member
  have kept := sound.each launch member
  obtain ⟨launched, there⟩ := kept.written free
  exact kept.stays (by rw [records]) (by rw [records]) (by rw [entries]; exact id) (by rw [orders])
    (by rw [records]; exact launched) (fun stranded => .inl (attempted ▸ there stranded))

/-- Only the sender's tasks change. -/
theorem Sound.setTask (sound : Sound s) (id : Id) (orderId : Nat) (task : Sent Unit) :
    Sound (s.setTask id orderId task) where
  each := fun launch member =>
    let kept := sound.each launch member
    ⟨kept.own, kept.request, kept.entry, kept.left, kept.known⟩
  stage := sound.stage

theorem setRecord_entries (s : State) (id : Id) (record : Record) {other : Id} (there : other ∈ s.entries) :
    other ∈ (s.setRecord id record).entries := by
  simp only [State.setRecord]
  split
  · exact there
  · exact List.mem_append_left _ there

theorem setRecord_entry (s : State) (id : Id) (record : Record) : id ∈ (s.setRecord id record).entries := by
  simp only [State.setRecord]
  split
  · next there => exact there
  · exact List.mem_append_right _ (List.mem_singleton_self id)

theorem entries_setRecord (s : State) (id : Id) (record : Record) {other : Id}
    (there : other ∈ (s.setRecord id record).entries) (apart : other ≠ id) : other ∈ s.entries := by
  simp only [State.setRecord] at there
  split at there
  · exact there
  · rcases List.mem_append.mp there with before | same
    · exact before
    · exact absurd (List.mem_singleton.mp same) apart

/-- A launch that is written down stays so when its order's record changes elsewhere. -/
theorem Kept.rewritten {own : Id} {record : Record} {stage : Stage} {asked : List Id} (kept : Kept s id orderId)
    (written : (s.records id).launched = true ∧ (Stranded (s.orders id) → id ∈ s.attempted))
    (same : record.orderId = (s.records own).orderId) (request : record.relayRequestId = (s.records own).relayRequestId)
    (launched : record.launched = (s.records own).launched) :
    Kept { s.setRecord own record with stage := stage, asked := asked } id orderId := by
  obtain ⟨there, attempted⟩ := written
  by_cases here : id = own
  · subst here
    refine kept.stays ?_ ?_ (setRecord_entries s id record) rfl ?_ (fun stranded => .inl (attempted stranded))
    · simp only [State.setRecord, Function.update_self, same]
    · simp only [State.setRecord, Function.update_self, request]
    · simp only [State.setRecord, Function.update_self, launched, there]
  · refine kept.stays ?_ ?_ (setRecord_entries s own record) rfl ?_ (fun stranded => .inl (attempted stranded))
    · simp only [State.setRecord, Function.update_of_ne here]
    · simp only [State.setRecord, Function.update_of_ne here]
    · simp only [State.setRecord, Function.update_of_ne here, there]

/-! The steps of a launch. -/

theorem planned_sound {plan : Option Plan} (done : step c s (.planned plan) = .ok after)
    (obeys : Careful s (.planned plan)) (sound : Sound s) : Sound after := by
  unfold step at done
  dsimp only at done
  split at done
  · next id n at_ =>
    have free : s.stage.Free := by
      rw [at_]
      trivial
    split at done
    · cases done
      refine ⟨fun launch member => ?_, trivial⟩
      have kept := sound.each launch member
      exact kept.rewritten (kept.written free) rfl rfl rfl
    · next plan =>
      cases done
      simp only [Careful, careful, at_, Bool.and_eq_true, List.all_eq_true, decide_eq_true_eq] at obeys
      obtain ⟨fresh, request⟩ := obeys
      refine ⟨fun launch member => ?_, ?_, ?_, setRecord_entry s id Record.blank, fun other member => ?_⟩
      · have kept := sound.each launch member
        have apart := fresh launch member
        obtain ⟨there, attempted⟩ := kept.written free
        refine kept.stays ?_ ?_ (setRecord_entries s id Record.blank) rfl ?_
          (fun stranded => .inl (attempted stranded))
        · simp only [State.setRecord, Function.update_of_ne apart]
        · simp only [State.setRecord, Function.update_of_ne apart]
        · simp only [State.setRecord, Function.update_of_ne apart, there]
      · simp only [State.setRecord, Function.update_self]
      · simp only [State.setRecord, Function.update_self]
        exact Option.isSome_iff_ne_none.mp request
      · exact absurd rfl (fresh (id, other) member)
  · cases done

theorem answered_sound {confirmed : Bool} (done : step c s (.answered confirmed) = .ok after)
    (obeys : Careful s (.answered confirmed)) (sound : Sound s) : Sound after := by
  have fits := sound.stage
  unfold StageFits at fits
  unfold step at done
  dsimp only at done
  split at done
  · next id orderId n at_ =>
    rw [at_] at fits
    cases confirmed with
    | true =>
      simp only [if_true, bind_ok, require_ok, pure_ok] at done
      obtain ⟨_, _, rfl⟩ := done
      refine ⟨fun launch member => ?_, fits.2.2.2⟩
      have kept := sound.each launch member
      refine ⟨kept.own, kept.request, kept.entry, kept.left, ?_⟩
      rcases kept.known with ⟨m, here⟩ | ⟨m, here⟩ | ⟨launched, attempted⟩
      · rw [at_] at here
        cases here
        exact .inr (.inl ⟨n, rfl⟩)
      · rw [at_] at here
        cases here
      · refine .inr (.inr ⟨launched, fun stranded => ?_⟩)
        rcases attempted stranded with there | ⟨m, here⟩
        · exact .inl there
        · rw [at_] at here
          cases here
    | false =>
      cases done
      have unlanded : (id, orderId) ∉ s.landed := by
        simpa [Careful, careful, at_] using obeys
      refine ⟨fun launch member => ?_, trivial⟩
      have kept := sound.each launch member
      refine kept.rewritten ?_ rfl rfl rfl
      rcases kept.known with ⟨m, here⟩ | ⟨m, here⟩ | ⟨launched, attempted⟩
      · rw [at_] at here
        cases here
        exact absurd member unlanded
      · rw [at_] at here
        cases here
      · refine ⟨launched, fun stranded => ?_⟩
        rcases attempted stranded with there | ⟨m, here⟩
        · exact there
        · rw [at_] at here
          cases here
  · next at_ =>
    cases done
    exact sound.free (by rw [at_]; trivial) rfl rfl rfl rfl rfl trivial
  · cases done

/-- The launch that was confirmed is written down, and the dispatch it left is next. -/
theorem launched_sound {n : Nat} (at_ : s.stage = .launched id orderId n) (sound : Sound s) :
    Sound { s.setRecord id { s.records id with launched := true, failures := 0 } with
      stage := if (s.orders id).status = .funded ∧ (s.orders id).lane = 0 then .dispatching id n
        else .launching (n + 1) } := by
  have fits := sound.stage
  unfold StageFits at fits
  rw [at_] at fits
  refine ⟨fun launch member => ?_, ?_⟩
  · have kept := sound.each launch member
    by_cases here : launch.1 = id
    · obtain ⟨own, other⟩ := launch
      subst here
      refine kept.stays ?_ ?_ (setRecord_entries s own Record.blank) rfl ?_ (fun stranded => .inr ⟨n, ?_⟩)
      · simp only [State.setRecord, Function.update_self]
      · simp only [State.setRecord, Function.update_self]
      · simp only [State.setRecord, Function.update_self]
      · exact if_pos ⟨stranded.2, stranded.1⟩
    · obtain ⟨there, attempted⟩ := kept.elsewhere at_ here
      refine kept.stays ?_ ?_ (setRecord_entries s id Record.blank) rfl ?_
        (fun stranded => .inl (attempted stranded))
      · simp only [State.setRecord, Function.update_of_ne here]
      · simp only [State.setRecord, Function.update_of_ne here]
      · simp only [State.setRecord, Function.update_of_ne here, there]
  · unfold StageFits
    by_cases left : (s.orders id).status = .funded ∧ (s.orders id).lane = 0
    · rw [if_pos left]
      trivial
    · rw [if_neg left]
      trivial

theorem look_sound (done : step c s .look = .ok after) (sound : Sound s) : Sound after := by
  unfold step at done
  simp only [look] at done
  split at done
  · next id n at_ =>
    cases done
    refine sound.free (by rw [at_]; trivial) rfl rfl rfl rfl rfl ?_
    unfold StageFits
    by_cases pending : (s.orders id).status = .pending
    · rw [if_pos pending]
      trivial
    · rw [if_neg pending]
      trivial
  · next at_ =>
    cases done
    exact launched_sound at_ sound
  · cases done

theorem dispatch_sound (done : step c s .dispatch = .ok after) (sound : Sound s) : Sound after := by
  unfold step at done
  dsimp only at done
  split at done
  · next id n at_ =>
    cases done
    refine ⟨fun launch member => ?_, trivial⟩
    have kept := sound.each launch member
    rcases kept.known with ⟨m, here⟩ | ⟨m, here⟩ | ⟨launched, attempted⟩
    · rw [at_] at here
      cases here
    · rw [at_] at here
      cases here
    · refine kept.stays rfl rfl (fun entry => entry) rfl launched (fun stranded => .inl ?_)
      rcases attempted stranded with there | ⟨m, here⟩
      · exact List.mem_append_left _ there
      · rw [at_] at here
        cases here
        exact List.mem_append_right _ (List.mem_singleton_self _)
  · cases done

theorem status_sound {fill : Option Fill} (done : step c s (.status fill) = .ok after) (sound : Sound s) :
    Sound after := by
  have fits := sound.stage
  unfold StageFits at fits
  unfold step at done
  dsimp only at done
  split at done
  · next at_ =>
    rw [at_] at fits
    cases done
    refine sound.free (by rw [at_]; trivial) rfl rfl rfl rfl rfl (fun id entry watchable => ?_)
    exact (fits id entry watchable).resolve_right List.not_mem_nil
  · next id rest at_ =>
    rw [at_] at fits
    have free : s.stage.Free := by
      rw [at_]
      trivial
    split at done
    · split at done
      · cases done
        refine sound.free free rfl rfl rfl rfl rfl (fun other entry watchable => ?_)
        rcases fits other entry watchable with asked | listed
        · exact .inl (List.mem_append_left _ asked)
        · rcases List.mem_cons.mp listed with rfl | later
          · exact .inl (List.mem_append_right _ (List.mem_singleton_self _))
          · exact .inr later
      · next fill =>
        simp only [bind_ok, require_ok, pure_ok] at done
        obtain ⟨_, _, rfl⟩ := done
        refine ⟨fun launch member => ?_, fun other entry watchable => ?_⟩
        · have kept := sound.each launch member
          exact kept.rewritten (kept.written free) rfl rfl rfl
        · by_cases here : other = id
          · exact .inl (List.mem_append_right _ (List.mem_singleton.mpr here))
          · have before := entries_setRecord s id Record.blank entry here
            simp only [State.setRecord, Function.update_of_ne here] at watchable
            rcases fits other before watchable with asked | listed
            · exact .inl (List.mem_append_left _ asked)
            · exact .inr ((List.mem_cons.mp listed).resolve_left here)
    · next unwatched =>
      cases done
      refine sound.free free rfl rfl rfl rfl rfl (fun other entry watchable => ?_)
      refine (fits other entry watchable).imp_right fun listed => ?_
      rcases List.mem_cons.mp listed with rfl | later
      · exact absurd watchable unwatched
      · exact later
  · cases done

theorem crash_sound (obeys : Careful s .crash) (sound : Sound s) : Sound { s with stage := .idle } := by
  refine ⟨fun launch member => ?_, trivial⟩
  have kept := sound.each launch member
  rcases kept.known with ⟨n, at_⟩ | ⟨n, at_⟩ | ⟨launched, attempted⟩
  · simp only [Careful, careful, at_, decide_eq_true_eq] at obeys
    exact absurd member obeys
  · simp only [Careful, careful, at_] at obeys
    cases obeys
  · refine kept.stays rfl rfl (fun entry => entry) rfl launched (fun stranded => .inl ?_)
    rcases attempted stranded with there | ⟨n, at_⟩
    · exact there
    · simp only [Careful, careful, at_, decide_eq_true_eq] at obeys
      exact absurd stranded.2 obeys

/-! The chain. -/

theorem mine_sound {next : Order} (done : step c s (.mine id orderId next) = .ok after)
    (obeys : Careful s (.mine id orderId next)) (sound : Sound s) : Sound after := by
  have fits := sound.stage
  unfold StageFits at fits
  unfold step at done
  dsimp only at done
  split at done
  · simp only [bind_ok, require_ok, pure_ok] at done
    obtain ⟨_, launches, rfl⟩ := done
    have left : next.lane = 0 → next.status ≠ .pending := by
      intro lane pending
      rw [launches.lane] at lane
      rcases launches.left with status | status | ⟨status, _⟩ | ⟨_, reward⟩
      · rw [status] at pending
        cases pending
      · rw [status] at pending
        cases pending
      · rw [status] at pending
        cases pending
      · exact reward lane
    cases at_ : s.stage with
    | sending own sent n =>
      simp only [Careful, careful, at_, Bool.and_eq_true, decide_eq_true_eq] at obeys
      obtain ⟨rfl, rfl⟩ := obeys
      rw [at_] at fits
      obtain ⟨record, request, entry, only⟩ := fits
      have all : ∀ other, (own, other) ∈ s.landed ++ [(own, sent)] → other = sent := by
        intro other member
        rcases List.mem_append.mp member with before | new
        · exact only other before
        · cases List.mem_singleton.mp new
          rfl
      refine ⟨?_, ?_⟩
      · rintro ⟨other, its⟩ member
        by_cases here : other = own
        · subst here
          cases all its member
          refine ⟨record, request, entry, ?_, .inl ⟨n, at_⟩⟩
          dsimp only
          rw [Function.update_self]
          exact left
        · have before : (other, its) ∈ s.landed := by
            rcases List.mem_append.mp member with before | new
            · exact before
            · cases List.mem_singleton.mp new
              exact absurd rfl here
          have kept := sound.each _ before
          rcases kept.known with ⟨m, there⟩ | ⟨m, there⟩ | ⟨launched, attempted⟩
          · rw [at_] at there
            cases there
            exact absurd rfl here
          · rw [at_] at there
            cases there
          · refine kept.stays rfl rfl (fun entry => entry) (Function.update_of_ne here _ _) launched
              (fun stranded => .inl ?_)
            rcases attempted stranded with already | ⟨m, there⟩
            · exact already
            · rw [at_] at there
              cases there
      · unfold StageFits
        dsimp only [State.setTask]
        rw [at_]
        exact ⟨record, request, entry, all⟩
    | _ =>
      simp only [Careful, careful, at_] at obeys
      cases obeys
  · cases done

theorem hub_sound {next : Order} (done : step c s (.hub id next) = .ok after) (sound : Sound s) : Sound after := by
  unfold step at done
  simp only [bind_ok, require_ok, pure_ok] at done
  obtain ⟨_, goes, rfl⟩ := done
  refine ⟨fun launch member => ?_, sound.stage⟩
  have kept := sound.each launch member
  by_cases here : launch.1 = id
  · obtain ⟨own, its⟩ := launch
    subst here
    refine ⟨kept.own, kept.request, kept.entry, ?_, ?_⟩
    · dsimp only
      rw [Function.update_self, goes.lane]
      exact fun lane => goes.left (kept.left lane)
    · dsimp only
      rw [Function.update_self]
      refine kept.known.imp_right (Or.imp_right fun ⟨launched, attempted⟩ => ⟨launched, fun stranded => ?_⟩)
      -- A public order that has left is funded now only if it was.
      have lane : (s.orders own).lane = 0 := goes.lane.symm.trans stranded.1
      have funded := (goes.funded stranded.2).resolve_right (kept.left lane)
      exact attempted ⟨lane, funded⟩
  · refine ⟨kept.own, kept.request, kept.entry, ?_, ?_⟩
    · dsimp only
      rw [Function.update_of_ne here]
      exact kept.left
    · dsimp only
      rw [Function.update_of_ne here]
      exact kept.known

theorem step_sound {action : Action} (obeys : Careful s action) (sound : Sound s)
    (done : accepts c s action after) : Sound after := by
  cases action with
  | tick =>
    unfold accepts step at done
    simp only [bind_ok, require_ok, pure_ok] at done
    obtain ⟨_, at_, rfl⟩ := done
    refine sound.free ?_ rfl rfl rfl rfl rfl trivial
    rcases at_ with at_ | at_
    · rw [at_]
      trivial
    · rw [at_]
      trivial
  | reconciled id orderId =>
    unfold accepts step at done
    simp only [bind_ok, require_ok] at done
    obtain ⟨_, _, done⟩ := done
    split at done
    · cases done
      exact sound.setTask id orderId _
    · cases done
  | reconciledAll =>
    unfold accepts step at done
    simp only [bind_ok, require_ok, pure_ok] at done
    obtain ⟨_, at_, rfl⟩ := done
    exact sound.free (by rw [at_]; trivial) rfl rfl rfl rfl rfl trivial
  | next found =>
    unfold accepts step at done
    dsimp only at done
    split at done
    · next n at_ =>
      have free : s.stage.Free := by
        rw [at_]
        trivial
      split at done
      · cases done
        exact sound.free free rfl rfl rfl rfl rfl trivial
      · cases done
        refine sound.free free rfl rfl rfl rfl rfl ?_
        unfold StageFits
        by_cases more : n < c.maxPerTick
        · rw [if_pos more]
          trivial
        · rw [if_neg more]
          trivial
    · cases done
  | look => exact look_sound done sound
  | planned plan => exact planned_sound done obeys sound
  | submit =>
    unfold accepts step at done
    dsimp only at done
    split at done
    · next id orderId n at_ =>
      simp only [bind_ok, require_ok, pure_ok] at done
      obtain ⟨_, _, rfl⟩ := done
      exact sound.setTask id orderId _
    · cases done
  | answered confirmed => exact answered_sound done obeys sound
  | dispatch => exact dispatch_sound done sound
  | watchQueue =>
    unfold accepts step at done
    simp only [bind_ok, require_ok, pure_ok] at done
    obtain ⟨_, at_, rfl⟩ := done
    exact sound.free (by rw [at_]; trivial) rfl rfl rfl rfl rfl (fun id entry _ => .inr entry)
  | status fill => exact status_sound done sound
  | crash =>
    cases done
    exact crash_sound obeys sound
  | mine id orderId next => exact mine_sound done obeys sound
  | drop id orderId =>
    unfold accepts step at done
    dsimp only at done
    split at done
    · cases done
      exact sound.setTask id orderId _
    · cases done
  | hub id next => exact hub_sound done sound

/-! Whole runs. -/

theorem reachable_sound {orders : Id → Order} {s : State}
    (reached : Reachable (restrict (accepts c) Careful) (deployed orders) s) : Sound s :=
  reached.invariant ⟨nofun, trivial⟩ (fun _ _ _ sound taken => step_sound taken.1 sound taken.2)

/-- What a launch that has succeeded leaves behind: its record, the watch of its fill, and the dispatch of a public
order that it left funded. -/
structure Remembered (s : State) (id : Id) (orderId : Nat) : Prop where
  own : (s.records id).orderId = some orderId
  launched : (s.records id).launched = true
  watched : (s.records id).fill = some .success ∨ (s.records id).fill = some .abandoned ∨ id ∈ s.asked
  dispatched : Stranded (s.orders id) → id ∈ s.attempted

/-- In every run in which launches succeed only while their tick waits for them and that tick goes on to the record
and the dispatch, each completed tick leaves every successful launch remembered. -/
theorem launches_remembered {orders : Id → Order} {s : State}
    (reached : Reachable (restrict (accepts c) Careful) (deployed orders) s) (ended : s.stage = .done) {id : Id}
    {orderId : Nat} (landed : (id, orderId) ∈ s.landed) : Remembered s id orderId := by
  have sound := reachable_sound reached
  have kept := sound.each _ landed
  have fits := sound.stage
  unfold StageFits at fits
  rw [ended] at fits
  obtain ⟨launched, attempted⟩ := kept.written (by rw [ended]; trivial)
  refine ⟨kept.own, launched, ?_, attempted⟩
  by_cases success : (s.records id).fill = some .success
  · exact .inl success
  · by_cases abandoned : (s.records id).fill = some .abandoned
    · exact .inr (.inl abandoned)
    · exact .inr (.inr (fits id kept.entry ⟨launched, success, abandoned, kept.request⟩))

/-! Two launches of one tick; the first leaves its dispatch to the keeper. -/

def sample : Config := ⟨6⟩

def sampleOrders (_ : Id) : Order := Order.blank

def sampleFunded : Order := { Order.blank with status := .funded }

def sampleDispatched : Order := { Order.blank with status := .dispatched }

/-- A launch of the order under `orderId` that ends as `next`. -/
def sampleLaunch (id : Id) (orderId : Nat) (next : Order) : List Action :=
  [.next (some id), .look, .planned (some ⟨orderId, some orderId⟩), .submit, .mine id orderId next, .answered true,
    .look]

def sampleActions : List Action :=
  ([.tick, .reconciledAll] : List Action) ++ sampleLaunch 1 71 sampleFunded ++
    ([.dispatch, .answered false] : List Action) ++ sampleLaunch 2 72 sampleDispatched ++
    ([.next none, .watchQueue, .status none, .status (some .success), .status none] : List Action)

def sampleEnds (s : State) : Bool :=
  decide (s.stage = .done ∧ (1, 71) ∈ s.landed ∧ (2, 72) ∈ s.landed ∧ Stranded (s.orders 1))

theorem sample_run : ∃ s, Reachable (restrict (accepts sample) Careful) (deployed sampleOrders) s ∧
    sampleEnds s = true :=
  run_passes (step sample) Careful sampleActions (deployed sampleOrders) sampleEnds (by decide)

theorem launches_remembered_twice : ∃ s, Stranded (s.orders 1) ∧ Remembered s 1 71 ∧ Remembered s 2 72 := by
  obtain ⟨s, reached, ends⟩ := sample_run
  obtain ⟨ended, first, second, stranded⟩ := of_decide_eq_true ends
  exact ⟨s, stranded, launches_remembered reached ended first, launches_remembered reached ended second⟩

/-! A launch that is mined after its tick gave up waiting. -/

def lateActions : List Action :=
  [.tick, .reconciledAll, .next (some 1), .look, .planned (some ⟨71, some 71⟩), .submit, .answered false,
    .watchQueue, .status none, .status none, .mine 1 71 sampleFunded, .tick, .reconciled 1 71, .reconciledAll,
    .next none, .watchQueue, .status none, .status none]

def lateEnds (s : State) : Bool :=
  decide (s.stage = .done ∧ (1, 71) ∈ s.landed.take s.begun ∧ (s.records 1).launched = false)

theorem late_run : ∃ s, Reachable (restrict (accepts sample) (fun _ _ => True)) (deployed sampleOrders) s ∧
    lateEnds s = true :=
  run_passes (step sample) (fun _ _ => True) lateActions (deployed sampleOrders) lateEnds (by decide)

theorem late_launch_forgotten : ¬ ∀ (c : Config) (orders : Id → Order) (s : State),
    Reachable (accepts c) (deployed orders) s → s.stage = .done →
      ∀ id orderId, (id, orderId) ∈ s.landed.take s.begun → Remembered s id orderId := by
  intro claim
  obtain ⟨s, reached, ends⟩ := late_run
  obtain ⟨ended, landed, unlaunched⟩ := of_decide_eq_true ends
  have remembered := claim sample sampleOrders s reached.unrestricted ended 1 71 landed
  rw [remembered.launched] at unlaunched
  cases unlaunched

end Solonpad.Launcher
