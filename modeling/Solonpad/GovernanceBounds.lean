import Solonpad.Governance

/-!
What no sequence of calls can do to governance. The timelock's answers to a caller are read off
facts that scheduling recorded, so the invariants tie each record to the step of the history that
made it: what is pending was scheduled by a proposer, what calls governance itself is marked, and
what an execution still calls belongs to an operation that waited.
-/

namespace Solonpad.Governance

open Checked Histories
open Chain (Address)

def Action.schedules : Action → Option (Id × Nat)
  | .schedule call predecessor salt delay => some (.single call predecessor salt, delay)
  | .scheduleBatch calls predecessor salt delay => some (.batch calls predecessor salt, delay)
  | _ => none

def Action.executes : Action → Option Id
  | .execute call predecessor salt => some (.single call predecessor salt)
  | .executeBatch calls predecessor salt => some (.batch calls predecessor salt)
  | _ => none

def Action.bootstraps : Action → Prop
  | .bootstrapCreate | .bootstrapCall .. => True
  | _ => False

variable (c : Config)

abbrev Past := List (Taken State Step)

/-- Any accounts' calls from the deployment on. -/
def Calls : Past → State → Prop :=
  History (fun s t after => step c s t = .ok after) (deployed c)

/-! What one action can do. -/

inductive Acts (s : State) (env : Env) (sender origin : Address) (action : Action) : State → Prop where
  | schedules (id : Id) (delay : Nat) (does : action.schedules = some (id, delay))
      (proposer : s.hasRole .proposer sender = true) (fresh : s.timestamps id = 0) (long : s.delay ≤ delay)
      (marks : Id → Bool) (marked : id.callsSelf c = true → marks id = true)
      (others : ∀ other, s.protectedOperation other = true → marks other = true) :
      Acts s env sender origin action { s.stamp id (env.now + delay) with protectedOperation := marks }
  | cancels (id : Id) (does : action = .cancel id)
      (may : s.protectedOperation id = true → s.hasRole .proposer sender = true)
      (pending : doneTimestamp < s.timestamps id) :
      Acts s env sender origin action (s.stamp id 0)
  | executes (id predecessor : Id) (does : action.executes = some id) (ready : s.isReady id env.now) :
      Acts s env sender origin action { s with frames := ⟨id, predecessor, origin, id.calls⟩ :: s.frames }
  | grants (role : Role) (account : Address) (has : Bool) :
      Acts s env sender origin action (s.grant role account has)
  | delays (newDelay : Nat) (floor : minDelay ≤ newDelay) :
      Acts s env sender origin action { s with delay := newDelay }
  | allows (table : Address → Nat → Bool) :
      Acts s env sender origin action { s with guardianAction := table }
  | guards (target : Address) (data : Nat) (guardian : s.hasRole .guardian sender = true)
      (apart : target ≠ c.self) (allowed : s.guardianAction target (c.selector data) = true) :
      Acts s env sender origin action (s.send ⟨target, 0, data⟩ origin .guardian)
  | creates : Acts s env sender origin action s
  | wires (target : Address) (data : Nat) (own : sender = c.bootstrapper) (open_ : s.bootstrapClosed = false)
      (early : env.now ≤ c.bootstrapDeadline) (apart : target ≠ c.self) :
      Acts s env sender origin action (s.send ⟨target, 0, data⟩ origin .bootstrap)
  | closes : Acts s env sender origin action { s with bootstrapClosed := true }

variable {c} {s after : State} {env : Env} {sender origin : Address} {action : Action}

theorem scheduleId_acts {id : Id} {delay : Nat} (taken : scheduleId c s env sender id delay = .ok after)
    (does : action.schedules = some (id, delay)) : Acts c s env sender origin action after := by
  simp only [scheduleId, bind_ok, require_ok, pure_ok] at taken
  obtain ⟨_, proposer, _, fresh, _, long, rfl⟩ := taken
  by_cases own : id.callsSelf c = true
  · rw [if_pos own]
    refine .schedules id delay does proposer fresh long _ (fun _ => Function.update_self ..) ?_
    intro other marked
    by_cases same : other = id
    · rw [same, Function.update_self]
    · rwa [Function.update_of_ne same]
  · rw [if_neg own]
    exact .schedules id delay does proposer fresh long s.protectedOperation (fun yes => absurd yes own)
      fun _ marked => marked

theorem executeId_acts {id predecessor : Id} (taken : executeId s env sender origin id predecessor = .ok after)
    (does : action.executes = some id) : Acts c s env sender origin action after := by
  simp only [executeId, bind_ok, require_ok, pure_ok] at taken
  obtain ⟨_, _, _, ready, _, _, rfl⟩ := taken
  exact .executes id predecessor does ready

theorem act_acts (taken : act c s env sender origin action = .ok after) : Acts c s env sender origin action after := by
  cases action with
  | schedule call predecessor salt delay => exact scheduleId_acts taken rfl
  | scheduleBatch calls predecessor salt delay => exact scheduleId_acts taken rfl
  | execute call predecessor salt => exact executeId_acts taken rfl
  | executeBatch calls predecessor salt => exact executeId_acts taken rfl
  | cancel id =>
    simp only [act, cancel, bind_ok, require_ok, pure_ok] at taken
    obtain ⟨_, may, _, _, _, pending, rfl⟩ := taken
    refine .cancels id rfl (fun marked => ?_) pending
    by_contra lacks
    exact may ⟨marked, Bool.eq_false_iff.mpr lacks⟩
  | grantRole role account =>
    simp only [act, grantRole, bind_ok, require_ok, pure_ok] at taken
    obtain ⟨_, _, rfl⟩ := taken
    exact .grants role account true
  | revokeRole role account =>
    simp only [act, grantRole, bind_ok, require_ok, pure_ok] at taken
    obtain ⟨_, _, rfl⟩ := taken
    exact .grants role account false
  | renounceRole role confirmation =>
    simp only [act, renounceRole, bind_ok, require_ok, pure_ok] at taken
    obtain ⟨_, _, rfl⟩ := taken
    exact .grants role sender false
  | updateDelay newDelay =>
    simp only [act, updateDelay, bind_ok, require_ok, pure_ok] at taken
    obtain ⟨_, floor, _, _, rfl⟩ := taken
    exact .delays newDelay floor
  | setGuardianAction target selector allowed =>
    simp only [act, setGuardianAction, bind_ok, require_ok, pure_ok] at taken
    obtain ⟨_, _, _, _, rfl⟩ := taken
    exact .allows _
  | guardianCall target data =>
    simp only [act, guardianCall, bind_ok, require_ok, pure_ok] at taken
    obtain ⟨_, guardian, _, ⟨apart, allowed⟩, _, _, rfl⟩ := taken
    exact .guards target data guardian apart allowed
  | bootstrapCreate =>
    simp only [act, bootstrapCreate, bind_ok, pure_ok] at taken
    obtain ⟨_, _, _, _, rfl⟩ := taken
    exact .creates
  | bootstrapCall target data =>
    simp only [act, bootstrapCall, onlyBootstrap, bind_ok, require_ok, pure_ok] at taken
    obtain ⟨_, ⟨own, closed, early⟩, _, ⟨apart, _⟩, _, _, rfl⟩ := taken
    exact .wires target data own closed early apart
  | closeBootstrap =>
    simp only [act, closeBootstrap, bind_ok, require_ok, pure_ok] at taken
    obtain ⟨_, _, rfl⟩ := taken
    exact .closes

/-- A bootstrap action is the bootstrapper's, before closure and deadline. -/
theorem act_bootstraps (taken : act c s env sender origin action = .ok after) (does : action.bootstraps) :
    sender = c.bootstrapper ∧ s.bootstrapClosed = false ∧ env.now ≤ c.bootstrapDeadline := by
  cases action with
  | bootstrapCreate =>
    simp only [act, bootstrapCreate, onlyBootstrap, bind_ok, require_ok] at taken
    obtain ⟨_, allowed, _⟩ := taken
    exact allowed
  | bootstrapCall target data =>
    simp only [act, bootstrapCall, onlyBootstrap, bind_ok, require_ok] at taken
    obtain ⟨_, allowed, _⟩ := taken
    exact allowed
  | _ => exact does.elim

/-! What one step can do. -/

/-- An execution's next call leaves its frame and is on record. -/
def State.popped (s : State) (id predecessor : Id) (origin : Address) (call : Call) (rest : List Call)
    (outer : List Frame) : State :=
  State.send { s with frames := ⟨id, predecessor, origin, rest⟩ :: outer } call origin (.operation id)

variable (c) in
inductive Steps (s : State) (t : Step) : State → Prop where
  | calls (sender : Address) (action : Action) (move : t.move = .call sender action) {after : State}
      (acts : Acts c s t.env sender sender action after) : Steps s t after
  | acts (id predecessor : Id) (origin : Address) (call : Call) (rest : List Call) (outer : List Frame)
      (frames : s.frames = ⟨id, predecessor, origin, call :: rest⟩ :: outer) (action : Action)
      (does : performed c s t.move = some (c.self, action)) {after : State}
      (acts : Acts c (s.popped id predecessor origin call rest outer) t.env c.self origin action after) :
      Steps s t after
  | sends (id predecessor : Id) (origin : Address) (call : Call) (rest : List Call) (outer : List Frame)
      (frames : s.frames = ⟨id, predecessor, origin, call :: rest⟩ :: outer) :
      Steps s t (s.popped id predecessor origin call rest outer)
  | finishes (id predecessor : Id) (origin : Address) (outer : List Frame)
      (frames : s.frames = ⟨id, predecessor, origin, []⟩ :: outer) (ready : s.isReady id t.env.now) :
      Steps s t (State.stamp { s with frames := outer } id doneTimestamp)

theorem step_steps {t : Step} (taken : step c s t = .ok after) : Steps c s t after := by
  obtain ⟨env, move⟩ := t
  cases move with
  | call sender action =>
    simp only [step, bind_ok, require_ok] at taken
    obtain ⟨_, _, acted⟩ := taken
    exact .calls sender action rfl (act_acts acted)
  | proceed =>
    simp only [step, proceed] at taken
    split at taken
    · next id predecessor origin call rest outer frames =>
      split at taken
      · next action read =>
        refine .acts id predecessor origin call rest outer frames action ?_ (act_acts taken)
        by_cases own : call.target = c.self
        · rw [if_pos own] at read
          simp [performed, frames, own, read]
        · rw [if_neg own] at read
          cases read
      · simp only [bind_ok, require_ok, pure_ok] at taken
        obtain ⟨_, _, rfl⟩ := taken
        exact .sends id predecessor origin call rest outer frames
    · cases taken
  | finish =>
    simp only [step, finish] at taken
    split at taken
    · next id predecessor origin outer frames =>
      simp only [bind_ok, require_ok, pure_ok] at taken
      obtain ⟨_, ready, rfl⟩ := taken
      exact .finishes id predecessor origin outer frames ready
    · cases taken

/-! The records along a history. -/

variable (c)

/-- A step in which a proposer schedules an operation. -/
def Schedules (t : Taken State Step) (id : Id) : Prop :=
  ∃ sender action delay, performed c t.before t.action.move = some (sender, action) ∧
    action.schedules = some (id, delay) ∧ t.before.hasRole .proposer sender = true

def Executes (t : Taken State Step) (id : Id) : Prop :=
  ∃ sender action, performed c t.before t.action.move = some (sender, action) ∧ action.executes = some id

/-- An operation was scheduled by a proposer and executed at least the delay later. -/
def Waited (past : Past) (id : Id) : Prop :=
  ∃ t ∈ past, ∃ e ∈ past, Schedules c t id ∧ Executes c e id ∧ t.action.env.now + minDelay ≤ e.action.env.now

structure Sound (past : Past) (s : State) : Prop where
  delay : minDelay ≤ s.delay
  marked : ∀ id, s.timestamps id ≠ 0 → id.callsSelf c = true → s.protectedOperation id = true
  scheduled : ∀ id, doneTimestamp < s.timestamps id →
    ∃ t ∈ past, Schedules c t id ∧ t.action.env.now + minDelay ≤ s.timestamps id
  calls : ∀ f ∈ s.frames, (∀ call ∈ f.rest, call ∈ f.id.calls) ∧ Waited c past f.id

variable {c} {past : Past}

theorem Waited.later {id : Id} (waited : Waited c past id) (t : Taken State Step) : Waited c (past ++ [t]) id := by
  obtain ⟨first, member, second, also, rest⟩ := waited
  exact ⟨first, List.mem_append_left _ member, second, List.mem_append_left _ also, rest⟩

/-- The records do not change while the frames only shrink. -/
theorem Sound.kept (sound : Sound c past s) (t : Taken State Step) (delay : minDelay ≤ after.delay)
    (times : after.timestamps = s.timestamps) (marks : after.protectedOperation = s.protectedOperation)
    (frames : ∀ f ∈ after.frames, ∃ g ∈ s.frames, g.id = f.id ∧ ∀ call ∈ f.rest, call ∈ g.rest) :
    Sound c (past ++ [t]) after where
  delay := delay
  marked id used own := by
    rw [times] at used
    rw [marks]
    exact sound.marked id used own
  scheduled id pending := by
    rw [times] at pending ⊢
    obtain ⟨first, member, rest⟩ := sound.scheduled id pending
    exact ⟨first, List.mem_append_left _ member, rest⟩
  calls f member := by
    obtain ⟨g, known, same, fewer⟩ := frames f member
    obtain ⟨belongs, waited⟩ := sound.calls g known
    rw [← same]
    exact ⟨fun call inside => belongs call (fewer call inside), waited.later t⟩

/-- One action, in a state that has the records of the state before the step. -/
theorem Acts.sound {base before : State} {move : Move} {sender origin : Address} {action : Action}
    (acts : Acts c base env sender origin action after) (does : performed c before move = some (sender, action))
    (roles : base.hasRole = before.hasRole) (sound : Sound c past base) :
    Sound c (past ++ [⟨before, ⟨env, move⟩, after⟩]) after := by
  have stays : ∀ f ∈ base.frames, ∃ g ∈ base.frames, g.id = f.id ∧ ∀ call ∈ f.rest, call ∈ g.rest :=
    fun f member => ⟨f, member, rfl, fun _ inside => inside⟩
  cases acts with
  | schedules id delay scheduled proposer fresh long marks marked others =>
    have new : ∀ last, Schedules c ⟨before, ⟨env, move⟩, last⟩ id := fun last =>
      ⟨sender, action, delay, does, scheduled, by rw [← roles]; exact proposer⟩
    constructor
    · exact sound.delay
    · intro other used own
      by_cases same : other = id
      · rw [same] at own ⊢
        exact marked own
      · exact others other (sound.marked other (fun none => used ((stamp_other same ..).trans none)) own)
    · intro other pending
      by_cases same : other = id
      · rw [same]
        refine ⟨_, List.mem_append_right _ (List.mem_singleton_self _), new _, ?_⟩
        simp only [State.stamp, Function.update_self]
        exact Nat.add_le_add_left (Nat.le_trans sound.delay long) _
      · simp only [State.stamp, Function.update_of_ne same] at pending ⊢
        obtain ⟨first, member, rest⟩ := sound.scheduled other pending
        exact ⟨first, List.mem_append_left _ member, rest⟩
    · intro f member
      obtain ⟨belongs, waited⟩ := sound.calls f member
      exact ⟨belongs, waited.later _⟩
  | cancels id _ may pending =>
    have smaller : ∀ other, (base.stamp id 0).timestamps other ≠ 0 →
        (base.stamp id 0).timestamps other = base.timestamps other := by
      intro other used
      by_cases same : other = id
      · rw [same] at used
        exact absurd (stamp_same base id 0) used
      · exact stamp_other same ..
    constructor
    · exact sound.delay
    · intro other used own
      exact sound.marked other (smaller other used ▸ used) own
    · intro other waits
      have used : (base.stamp id 0).timestamps other ≠ 0 := by
        intro none
        rw [none] at waits
        cases waits
      rw [smaller other used] at waits ⊢
      obtain ⟨first, member, rest⟩ := sound.scheduled other waits
      exact ⟨first, List.mem_append_left _ member, rest⟩
    · intro f member
      obtain ⟨belongs, waited⟩ := sound.calls f member
      exact ⟨belongs, waited.later _⟩
  | executes id predecessor executed ready =>
    constructor
    · exact sound.delay
    · exact sound.marked
    · intro other pending
      obtain ⟨first, member, rest⟩ := sound.scheduled other pending
      exact ⟨first, List.mem_append_left _ member, rest⟩
    · intro f member
      rcases List.mem_cons.mp member with rfl | older
      · obtain ⟨first, known, scheduled, early⟩ := sound.scheduled id ready.1
        exact ⟨fun _ inside => inside, first, List.mem_append_left _ known, _,
          List.mem_append_right _ (List.mem_singleton_self _), scheduled, ⟨sender, action, does, executed⟩,
          Nat.le_trans early ready.2⟩
      · obtain ⟨belongs, waited⟩ := sound.calls f older
        exact ⟨belongs, waited.later _⟩
  | delays newDelay floor => exact sound.kept _ floor rfl rfl stays
  | grants role account has => exact sound.kept _ sound.delay rfl rfl stays
  | allows table => exact sound.kept _ sound.delay rfl rfl stays
  | guards target data => exact sound.kept _ sound.delay rfl rfl stays
  | creates => exact sound.kept _ sound.delay rfl rfl stays
  | wires target data => exact sound.kept _ sound.delay rfl rfl stays
  | closes => exact sound.kept _ sound.delay rfl rfl stays

/-- A popped frame keeps the records. -/
theorem Sound.popped (sound : Sound c past s) {id predecessor : Id} {origin : Address} {call : Call}
    {rest : List Call} {outer : List Frame} (frames : s.frames = ⟨id, predecessor, origin, call :: rest⟩ :: outer) :
    Sound c past (s.popped id predecessor origin call rest outer) where
  delay := sound.delay
  marked := sound.marked
  scheduled := sound.scheduled
  calls f member := by
    rcases List.mem_cons.mp member with rfl | older
    · obtain ⟨belongs, waited⟩ := sound.calls _ (by rw [frames]; exact List.mem_cons_self)
      exact ⟨fun one inside => belongs one (List.mem_cons_of_mem _ inside), waited⟩
    · exact sound.calls f (by rw [frames]; exact List.mem_cons_of_mem _ older)

theorem step_sound {before : State} {t : Step} (taken : step c before t = .ok after)
    (sound : Sound c past before) : Sound c (past ++ [⟨before, t, after⟩]) after := by
  obtain ⟨env, move⟩ := t
  cases step_steps taken with
  | calls sender action does acts =>
    cases does
    exact acts.sound rfl rfl sound
  | acts id predecessor origin call rest outer frames action does acts =>
    exact acts.sound does rfl (sound.popped frames)
  | sends id predecessor origin call rest outer frames =>
    exact (sound.popped frames).kept _ sound.delay rfl rfl fun f member => ⟨f, member, rfl, fun _ inside => inside⟩
  | finishes id predecessor origin outer frames ready =>
    obtain ⟨pending, due⟩ := ready
    constructor
    · exact sound.delay
    · intro other used own
      apply sound.marked other ?_ own
      by_cases same : other = id
      · rw [same]
        intro none
        rw [none] at pending
        cases pending
      · exact fun none => used ((stamp_other same ..).trans none)
    · intro other waits
      by_cases same : other = id
      · rw [same, stamp_same] at waits
        exact absurd waits (Nat.lt_irrefl _)
      · simp only [State.stamp, Function.update_of_ne same] at waits ⊢
        obtain ⟨first, member, rest⟩ := sound.scheduled other waits
        exact ⟨first, List.mem_append_left _ member, rest⟩
    · intro f member
      obtain ⟨belongs, waited⟩ := sound.calls f (by rw [frames]; exact List.mem_cons_of_mem _ member)
      exact ⟨belongs, waited.later _⟩

theorem calls_sound (calls : Calls c past s) : Sound c past s := by
  apply calls.invariant
  · constructor
    · exact Nat.le_refl _
    · intro id used
      exact absurd rfl used
    · intro id pending
      cases pending
    · intro f member
      cases member
  · intro past before t after _ sound taken
    exact step_sound taken sound

/-! The bounds. -/

variable (c)

/-- Why a call was made: a guardian's is on the allowlist, a bootstrap call comes before closure and
deadline, and any other belongs to an operation that waited. -/
def Justified (past : Past) (t : Taken State Step) (x : Sent) : Prop :=
  match x.cause with
  | .guardian => ∃ sender, t.before.hasRole .guardian sender = true ∧ x.call.target ≠ c.self ∧
      t.before.guardianAction x.call.target (c.selector x.call.data) = true
  | .bootstrap => x.call.target ≠ c.self ∧ t.before.bootstrapClosed = false ∧
      t.action.env.now ≤ c.bootstrapDeadline
  | .operation id => x.call ∈ id.calls ∧ Waited c past id

structure Bounded (past : Past) (t : Taken State Step) : Prop where
  delay : minDelay ≤ t.before.delay ∧ minDelay ≤ t.after.delay
  cancels : ∀ sender id, performed c t.before t.action.move = some (sender, .cancel id) →
    id.callsSelf c = true → t.before.hasRole .proposer sender = true
  calls : ∃ new, t.after.sent = t.before.sent ++ new ∧ ∀ x ∈ new, Justified c past t x
  bootstraps : ∀ sender action, performed c t.before t.action.move = some (sender, action) →
    action.bootstraps → sender = c.bootstrapper ∧ t.before.bootstrapClosed = false ∧
      t.action.env.now ≤ c.bootstrapDeadline

variable {c}

/-- What one action adds to the record of calls. -/
theorem Acts.sends {base before last : State} {move : Move} {sender origin : Address} {action : Action}
    (acts : Acts c base env sender origin action after) (roles : base.hasRole = before.hasRole)
    (table : base.guardianAction = before.guardianAction) (closed : base.bootstrapClosed = before.bootstrapClosed) :
    ∃ new, after.sent = base.sent ++ new ∧ ∀ x ∈ new, Justified c past ⟨before, ⟨env, move⟩, last⟩ x := by
  have nothing : ∃ new, base.sent = base.sent ++ new ∧
      ∀ x ∈ new, Justified c past ⟨before, ⟨env, move⟩, last⟩ x :=
    ⟨[], (List.append_nil _).symm, fun x member => by cases member⟩
  cases acts with
  | guards target data guardian apart allowed =>
    refine ⟨[⟨⟨target, 0, data⟩, origin, .guardian⟩], rfl, ?_⟩
    intro x member
    rw [List.mem_singleton.mp member]
    exact ⟨sender, by rw [← roles]; exact guardian, apart, by rw [← table]; exact allowed⟩
  | wires target data own allowed early apart =>
    refine ⟨[⟨⟨target, 0, data⟩, origin, .bootstrap⟩], rfl, ?_⟩
    intro x member
    rw [List.mem_singleton.mp member]
    exact ⟨apart, by rw [← closed]; exact allowed, early⟩
  | _ => exact nothing

/-- A cancellation of what calls governance is a proposer's. -/
theorem act_cancels {base : State} {id : Id} (sound : Sound c past base)
    (acts : act c base env sender origin (.cancel id) = .ok after) (own : id.callsSelf c = true) :
    base.hasRole .proposer sender = true := by
  simp only [act, cancel, bind_ok, require_ok, pure_ok] at acts
  obtain ⟨_, may, _, _, _, pending, _⟩ := acts
  have marked := sound.marked id (fun none => by rw [none] at pending; cases pending) own
  by_contra lacks
  exact may ⟨marked, Bool.eq_false_iff.mpr lacks⟩

/-- The state in which a step's action is performed has the roles, marks and window of the state before. -/
theorem performed_acts {before : State} {t : Step} (taken : step c before t = .ok after)
    (sound : Sound c past before) (does : performed c before t.move = some (sender, action)) :
    ∃ base origin, act c base t.env sender origin action = .ok after ∧ Sound c past base ∧
      base.hasRole = before.hasRole ∧ base.bootstrapClosed = before.bootstrapClosed := by
  obtain ⟨env, move⟩ := t
  cases move with
  | call other called =>
    cases does
    simp only [step, bind_ok, require_ok] at taken
    obtain ⟨_, _, acted⟩ := taken
    exact ⟨before, sender, acted, sound, rfl, rfl⟩
  | proceed =>
    simp only [step, proceed] at taken
    split at taken
    · next id predecessor origin call rest outer frames =>
      simp only [performed, frames] at does
      by_cases own : call.target = c.self
      · rw [if_pos own] at does taken
        obtain ⟨called, read, same⟩ := Option.map_eq_some_iff.mp does
        cases same
        rw [read] at taken
        exact ⟨_, origin, taken, sound.popped frames, rfl, rfl⟩
      · rw [if_neg own] at does
        cases does
    · cases taken
  | finish => cases does

/-- What one step adds to the record of calls. -/
theorem step_sends {before last : State} {t : Step} (taken : step c before t = .ok after)
    (sound : Sound c past before) :
    ∃ new, after.sent = before.sent ++ new ∧ ∀ x ∈ new, Justified c past ⟨before, t, last⟩ x := by
  obtain ⟨env, move⟩ := t
  cases step_steps taken with
  | calls sender action does acts => exact acts.sends rfl rfl rfl
  | acts id predecessor origin call rest outer frames action does acts =>
    obtain ⟨new, added, justified⟩ :
        ∃ new, after.sent = (before.popped id predecessor origin call rest outer).sent ++ new ∧
          ∀ x ∈ new, Justified c past ⟨before, ⟨env, move⟩, last⟩ x := acts.sends rfl rfl rfl
    refine ⟨⟨call, origin, .operation id⟩ :: new, ?_, ?_⟩
    · rw [added]
      exact List.append_assoc ..
    · intro x member
      rcases List.mem_cons.mp member with rfl | later
      · obtain ⟨belongs, waited⟩ := sound.calls _ (by rw [frames]; exact List.mem_cons_self)
        exact ⟨belongs call List.mem_cons_self, waited⟩
      · exact justified x later
  | sends id predecessor origin call rest outer frames =>
    refine ⟨[⟨call, origin, .operation id⟩], rfl, ?_⟩
    intro x member
    rw [List.mem_singleton.mp member]
    obtain ⟨belongs, waited⟩ := sound.calls _ (by rw [frames]; exact List.mem_cons_self)
    exact ⟨belongs call List.mem_cons_self, waited⟩
  | finishes id predecessor origin outer frames ready =>
    exact ⟨[], (List.append_nil _).symm, fun x member => by cases member⟩

/-- In every history each step keeps to the bounds after the steps before it. -/
theorem governance_bounds (past : Past) (s : State) (calls : Calls c past s) (front back : Past)
    (t : Taken State Step) (split : past = front ++ t :: back) : Bounded c front t := by
  obtain ⟨earlier, taken⟩ := History.taken calls front back t split
  obtain ⟨before, ⟨env, move⟩, after⟩ := t
  have sound := calls_sound earlier
  constructor
  · exact ⟨sound.delay, (step_sound taken sound).delay⟩
  · intro sender id does own
    obtain ⟨base, origin, acted, known, roles, _⟩ := performed_acts taken sound does
    exact roles ▸ act_cancels known acted own
  · exact step_sends taken sound
  · intro sender action does bootstraps
    obtain ⟨base, origin, acted, _, _, window⟩ := performed_acts taken sound does
    obtain ⟨own, open_, early⟩ := act_bootstraps acted bootstraps
    exact ⟨own, window ▸ open_, early⟩

/-! A proposer's operation that the guardian executes: self 100, multisig 1, guardian 2. -/

def sample : Config := ⟨100, 1, 2, 3, 0, id, fun _ => none⟩

def payment : Call := ⟨9, 0, 5⟩

def sampleSteps : List Step :=
  let env (now : Nat) : Env := ⟨now, fun _ => true, fun _ _ => false, true⟩
  [⟨env 10, .call 1 (.schedule payment (.other 0) 0 minDelay)⟩,
    ⟨env (10 + minDelay), .call 2 (.execute payment (.other 0) 0)⟩, ⟨env (10 + minDelay), .proceed⟩]

/-- The history of the sample ends with governance's call, made by the guardian's execution. -/
theorem sample_calls : ∃ front t s, Calls sample (front ++ [t]) s ∧ t.before.sent = [] ∧
    t.after.sent = [⟨payment, sample.guardian, .operation (.single payment (.other 0) 0)⟩] ∧
    t.before.guardianAction payment.target (sample.selector payment.data) = false := by
  have first : Calls sample [] (deployed sample) := .nil
  have second := History.snoc first sampleSteps[0] (show step sample _ _ = .ok _ from rfl)
  have third := History.snoc second sampleSteps[1] (show step sample _ _ = .ok _ from rfl)
  have fourth := History.snoc third sampleSteps[2] (show step sample _ _ = .ok _ from rfl)
  exact ⟨_, _, _, fourth, rfl, rfl, rfl⟩

theorem governance_bounds_executed : ∃ front t, Bounded sample front t ∧
    t.after.sent = [⟨payment, sample.guardian, .operation (.single payment (.other 0) 0)⟩] := by
  obtain ⟨front, t, s, calls, _, sent, _⟩ := sample_calls
  exact ⟨front, t, governance_bounds _ s calls front [] t rfl, sent⟩

/-- An operation that is ready may be executed by anyone, so the guardian can make governance call a
selector that no allowlist holds. -/
theorem guardian_executes : ¬ ∀ (c : Config) (past : Past) (s : State), c.Valid → Calls c past s →
    ∀ (front back : Past) (t : Taken State Step), past = front ++ t :: back →
      ∀ new, t.after.sent = t.before.sent ++ new → ∀ x ∈ new, x.origin = c.guardian →
        t.before.guardianAction x.call.target (c.selector x.call.data) = true := by
  intro claimed
  obtain ⟨front, t, s, calls, none, sent, refused⟩ := sample_calls
  have allowed := claimed sample _ s ⟨by decide, by decide, by decide, by decide⟩ calls front [] t rfl
    _ (by rw [none, sent]; rfl) _ (List.mem_singleton_self _) rfl
  rw [refused] at allowed
  cases allowed

end Solonpad.Governance
