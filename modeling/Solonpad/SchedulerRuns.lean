import Solonpad.OrderScheduler

/-!
What the scheduler's queues do over a run. A head moves over closed entries and over the entry that
is launched; so launches are in order, and each of an entry that no head has passed. The streak counts
the public launches since the last reward launch, which decides between two lanes that are ready.
-/

namespace Solonpad.OrderScheduler

open Checked Histories
open Chain (Address)

variable {c : Config} {s after : State}

/-! The head's scan. -/

/-- A position whose entry the hub says is closed. -/
def ClosedAt (answers : Answers) (queue : List Nat) (i : Nat) : Prop :=
  ∃ id, queue[i]? = some id ∧ answers.pending id = false

theorem scan_found {answers : Answers} {queue : List Nat} {n h position : Nat}
    (found : scan answers queue n h = some position) :
    h ≤ position ∧ (∃ id, queue[position]? = some id ∧ answers.pending id = true) ∧
      ∀ i, h ≤ i → i < position → ClosedAt answers queue i := by
  induction n generalizing h with
  | zero => cases found
  | succ n ih =>
    unfold scan at found
    split at found
    · cases found
    · next id entry =>
      split at found
      · next pending =>
        cases found
        exact ⟨Nat.le_refl _, ⟨id, entry, pending⟩, fun i low high => absurd low (Nat.not_le.mpr high)⟩
      · next closed =>
        obtain ⟨later, here, between⟩ := ih found
        refine ⟨Nat.le_of_succ_le later, here, ?_⟩
        intro i low high
        by_cases first : i = h
        · exact first ▸ ⟨id, entry, by simpa using closed⟩
        · exact between i (by omega) high

theorem skip_closed (answers : Answers) (queue : List Nat) (n h : Nat) :
    h ≤ skip answers queue n h ∧
      ∀ i, h ≤ i → i < skip answers queue n h → ClosedAt answers queue i := by
  induction n generalizing h with
  | zero => exact ⟨Nat.le_refl _, fun i low high => absurd low (Nat.not_le.mpr high)⟩
  | succ n ih =>
    unfold skip
    split
    · exact ⟨Nat.le_refl _, fun i low high => absurd low (Nat.not_le.mpr high)⟩
    · next id entry =>
      split
      · exact ⟨Nat.le_refl _, fun i low high => absurd low (Nat.not_le.mpr high)⟩
      · next closed =>
        obtain ⟨later, between⟩ := ih (h + 1)
        refine ⟨Nat.le_of_succ_le later, ?_⟩
        intro i low high
        by_cases first : i = h
        · exact first ▸ ⟨id, entry, by simpa using closed⟩
        · exact between i (by omega) high

/-- A lane whose head may be launched now. -/
def Ready (s : State) (answers : Answers) (lane : Lane) : Prop := (headOf s answers lane).1 = true

theorem headOf_ready {answers : Answers} {lane : Lane} (ready : Ready s answers lane) :
    ∃ position id, scan answers (s.queue lane) scanLimit (s.head lane) = some position ∧
      (s.queue lane)[position]? = some id ∧ headOf s answers lane = (true, id, position) := by
  unfold Ready at ready
  cases found : scan answers (s.queue lane) scanLimit (s.head lane) with
  | none => simp [headOf, found] at ready
  | some position =>
    obtain ⟨_, ⟨id, entry, _⟩, _⟩ := scan_found found
    have named : (s.queue lane).getD position 0 = id := by rw [List.getD_eq_getElem?_getD, entry]; rfl
    simp only [headOf, found, named] at ready ⊢
    exact ⟨position, id, rfl, entry, by rw [ready]⟩

/-- Which lane is next: a public launch leaves no reward turn unused, and a reward launch takes its
turn or finds no public head. -/
theorem nextLaunch_some {answers : Answers} {lane : Lane} {id : Nat} (next : nextLaunch s answers = some (lane, id)) :
    Ready s answers lane ∧ (headOf s answers lane).2.1 = id ∧
      (lane = .pub → Ready s answers .reward → s.publicStreak < publicPerReward) ∧
      (lane = .reward → Ready s answers .pub → publicPerReward ≤ s.publicStreak) := by
  unfold Ready
  unfold nextLaunch at next
  dsimp only at next
  by_cases due : publicPerReward ≤ s.publicStreak
  · rw [decide_eq_true due, if_pos rfl] at next
    by_cases turn : (headOf s answers .reward).1 = true
    · rw [if_pos turn] at next
      cases next
      exact ⟨turn, rfl, fun no => (by cases no), fun _ _ => due⟩
    · rw [if_neg turn] at next
      split at next
      · next ready =>
        cases next
        exact ⟨ready, rfl, fun _ waits => absurd waits turn, fun no => (by cases no)⟩
      · cases next
  · rw [decide_eq_false due, if_neg Bool.false_ne_true] at next
    by_cases turn : (!(headOf s answers .pub).1 && (headOf s answers .reward).1) = true
    · rw [if_pos turn] at next
      cases next
      obtain ⟨lent, ready⟩ := Bool.and_eq_true_iff.mp turn
      refine ⟨ready, rfl, fun no => (by cases no), fun _ waits => ?_⟩
      rw [waits] at lent
      cases lent
    · rw [if_neg turn] at next
      split at next
      · next ready =>
        cases next
        exact ⟨ready, rfl, fun _ _ => Nat.not_le.mp due, fun no => (by cases no)⟩
      · cases next

/-! Moves that launch nothing. -/

/-- Queues grow and heads move over entries that one of the answers says are closed. -/
structure Skips (answers : List Answers) (s after : State) : Prop where
  queue : ∀ lane, s.queue lane <+: after.queue lane
  head : ∀ lane, s.head lane ≤ after.head lane
  closed : ∀ lane i, s.head lane ≤ i → i < after.head lane →
    ∃ a ∈ answers, ClosedAt a (after.queue lane) i
  streak : after.publicStreak = s.publicStreak

theorem entry_later {queue longer : List Nat} {i id : Nat} (entry : queue[i]? = some id)
    (grows : queue <+: longer) : longer[i]? = some id := by
  obtain ⟨rest, rfl⟩ := grows
  obtain ⟨within, _⟩ := List.getElem?_eq_some_iff.mp entry
  rw [List.getElem?_append_left within, entry]

theorem ClosedAt.later {answers : Answers} {queue longer : List Nat} {i : Nat}
    (closed : ClosedAt answers queue i) (grows : queue <+: longer) : ClosedAt answers longer i := by
  obtain ⟨id, entry, pending⟩ := closed
  exact ⟨id, entry_later entry grows, pending⟩

theorem Skips.refl (answers : List Answers) (s : State) : Skips answers s s :=
  ⟨fun _ => List.prefix_refl _, fun _ => Nat.le_refl _,
    fun _ _ low high => absurd low (Nat.not_le.mpr high), rfl⟩

theorem Skips.trans {answers : List Answers} {middle : State} (first : Skips answers s middle)
    (second : Skips answers middle after) : Skips answers s after where
  queue lane := (first.queue lane).trans (second.queue lane)
  head lane := (first.head lane).trans (second.head lane)
  closed lane i low high := by
    by_cases early : i < middle.head lane
    · obtain ⟨a, member, closed⟩ := first.closed lane i low early
      exact ⟨a, member, closed.later (second.queue lane)⟩
    · exact second.closed lane i (Nat.not_lt.mp early) high
  streak := second.streak.trans first.streak

theorem Skips.mono {answers more : List Answers} (skips : Skips answers s after)
    (subset : ∀ a ∈ answers, a ∈ more) : Skips more s after where
  queue := skips.queue
  head := skips.head
  closed lane i low high := by
    obtain ⟨a, member, closed⟩ := skips.closed lane i low high
    exact ⟨a, subset a member, closed⟩
  streak := skips.streak

theorem enqueue_skips {sender : Address} {lane id : Nat} (answers : List Answers)
    (taken : enqueue c s sender lane id = .ok after) : Skips answers s after := by
  simp only [enqueue, bind_ok, require_ok, pure_ok] at taken
  obtain ⟨_, _, _, _, rfl⟩ := taken
  refine ⟨?_, fun _ => Nat.le_refl _, fun _ _ low high => absurd low (Nat.not_le.mpr high), rfl⟩
  intro other
  by_cases same : other = laneOf lane
  · subst same
    simp
  · simp [Function.update_of_ne same]

theorem skipClosed_skips (answers : Answers) (lane max : Nat) : Skips [answers] s (skipClosed s answers lane max) := by
  have skips := skip_closed answers (s.queue (laneOf lane)) max (s.head (laneOf lane))
  refine ⟨fun _ => List.prefix_refl _, ?_, ?_, rfl⟩
  · intro other
    by_cases same : other = laneOf lane
    · subst same
      simpa [skipClosed] using skips.1
    · simp [skipClosed, Function.update_of_ne same]
  · intro other i low high
    by_cases same : other = laneOf lane
    · subst same
      simp only [skipClosed, Function.update_self] at high
      exact ⟨answers, List.mem_singleton_self _, skips.2 i low high⟩
    · simp only [skipClosed, Function.update_of_ne same] at high
      exact absurd low (Nat.not_le.mpr high)

/-- What the hub answers during its launch. -/
def Inner.answers : Inner → List Answers
  | .enqueue _ _ => []
  | .skipClosed answers _ _ => [answers]

theorem inners_skips {calls : List Inner} (taken : inners c s calls = .ok after) :
    Skips (calls.flatMap Inner.answers) s after := by
  induction calls generalizing s with
  | nil =>
    cases taken
    exact .refl _ _
  | cons call rest ih =>
    simp only [inners, bind_ok] at taken
    obtain ⟨middle, first, taken⟩ := taken
    rw [List.flatMap_cons]
    have later := (ih taken).mono fun a member => List.mem_append_right call.answers member
    refine Skips.trans ?_ later
    cases call with
    | enqueue lane id => exact enqueue_skips _ first
    | skipClosed answers lane max =>
      cases first
      exact (skipClosed_skips answers lane max).mono fun a member => List.mem_append_left _ member

/-! Calls. -/

/-- All that the hub answers during a call. -/
def Step.views (t : Step) : List Answers :=
  t.answers :: match t.action with
    | .launchNext _ (some calls) => calls.flatMap Inner.answers
    | _ => []

/-- What a call does: it launches an entry, after it skipped what is closed before it, or only skips. -/
inductive Acts (c : Config) (s : State) (t : Step) (after : State) : Prop where
  | skips (none : launched c s t = none) (moves : Skips t.views s after)
  | launches (lane : Lane) (position id : Nat) (launch : Option (List Inner))
      (made : launched c s t = some (lane, position)) (does : t.action = .launchNext id launch)
      (ready : Ready s t.answers lane)
      (found : scan t.answers (s.queue lane) scanLimit (s.head lane) = some position)
      (entry : (s.queue lane)[position]? = some id)
      (pub : lane = .pub → Ready s t.answers .reward → s.publicStreak < publicPerReward)
      (reward : lane = .reward → Ready s t.answers .pub → publicPerReward ≤ s.publicStreak)
      (moves : Skips t.views (advance s lane position) after)

theorem launchNext_acts {answers : Answers} {expectedId : Nat} {launch : Option (List Inner)}
    (taken : launchNext c s answers expectedId launch = .ok after) :
    Acts c s ⟨answers, .launchNext expectedId launch⟩ after := by
  have ran := taken
  unfold launchNext at taken
  split at taken
  · simp only [throw_ok] at taken
  · next lane id next =>
    obtain ⟨ready, named, pub, reward⟩ := nextLaunch_some next
    obtain ⟨position, entryId, found, entry, head⟩ := headOf_ready ready
    simp only [bind_ok, require_ok] at taken
    obtain ⟨_, expected, taken⟩ := taken
    rw [head] at taken named
    have same : entryId = expectedId := named.trans expected
    subst same
    cases launch with
    | none => simp only [throw_ok] at taken
    | some calls =>
      have made : launched c s ⟨answers, .launchNext entryId (some calls)⟩ = some (lane, position) := by
        simp only [launched, step, ran, next, Option.map_some, head]
      exact .launches lane position entryId (some calls) made rfl ready found entry pub reward
        ((inners_skips taken).mono fun a member => List.mem_cons_of_mem _ member)

theorem outcome_acts (s : State) (t : Step) : Acts c s t (outcome c s t) := by
  obtain ⟨answers, action⟩ := t
  cases taken : step c s ⟨answers, action⟩ with
  | error fault =>
    have same : outcome c s ⟨answers, action⟩ = s := by rw [outcome, taken]
    rw [same]
    exact .skips (by simp only [launched, taken]) (.refl _ _)
  | ok after =>
    have same : outcome c s ⟨answers, action⟩ = after := by rw [outcome, taken]
    rw [same]
    cases action with
    | enqueue sender lane id => exact .skips rfl (enqueue_skips _ taken)
    | launchNext expectedId launch => exact launchNext_acts taken
    | skipClosed lane max =>
      cases taken
      exact .skips rfl ((skipClosed_skips answers lane max).mono fun a member => by
        rw [List.mem_singleton.mp member]
        exact List.mem_cons_self)

/-! Along a run. -/

abbrev Past := List (Taken State Step)

/-- Any calls, failed ones included, whatever the hub answers to each. -/
def Runs (c : Config) : Past → State → Prop :=
  History (fun s t after => outcome c s t = after) deployed

def launchOf (c : Config) (t : Taken State Step) : Option (Lane × Nat) := launched c t.before t.action

theorem Acts.grows {t : Step} (acts : Acts c s t after) (lane : Lane) :
    s.queue lane <+: after.queue lane ∧ s.head lane ≤ after.head lane := by
  cases acts with
  | skips none moves => exact ⟨moves.queue lane, moves.head lane⟩
  | launches own position id launch made does ready found entry pub reward moves =>
    refine ⟨moves.queue lane, le_trans ?_ (moves.head lane)⟩
    by_cases same : lane = own
    · subst same
      simpa [advance] using Nat.le_succ_of_le (scan_found found).1
    · simp [advance, Function.update_of_ne same]

/-- What a launch says of the queue as it is later. -/
structure Launched (t : Taken State Step) (lane : Lane) (position : Nat) (s : State) : Prop where
  entry : ∃ id launch, (s.queue lane)[position]? = some id ∧ t.action.action = .launchNext id launch ∧
    t.action.answers.pending id = true
  passed : t.before.head lane ≤ position ∧ position < s.head lane

/-- Every position that a head passed was launched there, or closed by an answer of that call. -/
def Passes (c : Config) (t : Taken State Step) (s : State) : Prop :=
  ∀ lane i, t.before.head lane ≤ i → i < t.after.head lane →
    launchOf c t = some (lane, i) ∨ ∃ a ∈ t.action.views, ClosedAt a (s.queue lane) i

theorem outcome_launched {t : Step} {lane : Lane} {position : Nat} (made : launched c s t = some (lane, position)) :
    Launched ⟨s, t, outcome c s t⟩ lane position (outcome c s t) := by
  cases outcome_acts (c := c) s t with
  | skips none moves =>
    rw [none] at made
    cases made
  | launches own at_ id launch made' does ready found entry pub reward moves =>
    rw [made'] at made
    cases made
    obtain ⟨low, ⟨same, here, pending⟩, _⟩ := scan_found found
    obtain rfl : same = id := Option.some.inj (here.symm.trans entry)
    refine ⟨⟨same, launch, entry_later entry (moves.queue lane), does, pending⟩, low, ?_⟩
    refine Nat.lt_of_lt_of_le ?_ (moves.head lane)
    simp [advance]

theorem runs_launched {past : Past} (runs : Runs c past s) : ∀ t ∈ past, ∀ lane position,
    launchOf c t = some (lane, position) → Launched t lane position s := by
  refine History.each (fun t s => ∀ lane position, launchOf c t = some (lane, position) →
    Launched t lane position s) runs ?_ ?_
  · rintro before t _ rfl earlier holds lane position made
    obtain ⟨⟨id, launch, entry, does, pending⟩, low, high⟩ := holds lane position made
    obtain ⟨queue, head⟩ := (outcome_acts (c := c) before t).grows lane
    exact ⟨⟨id, launch, entry_later entry queue, does, pending⟩, low, high.trans_le head⟩
  · rintro before t _ rfl lane position made
    exact outcome_launched made

theorem runs_passes {past : Past} (runs : Runs c past s) : ∀ t ∈ past, Passes c t s := by
  refine History.each (fun t s => Passes c t s) runs ?_ ?_
  · rintro before t _ rfl earlier holds lane i low high
    obtain ⟨queue, _⟩ := (outcome_acts (c := c) before t).grows lane
    rcases holds lane i low high with made | ⟨a, member, closed⟩
    · exact .inl made
    · exact .inr ⟨a, member, closed.later queue⟩
  · rintro before t _ rfl lane i low high
    cases outcome_acts (c := c) before t with
    | skips none moves => exact .inr (moves.closed lane i low high)
    | launches own position id launch made does ready found entry pub reward moves =>
      by_cases early : i < (advance before own position).head lane
      · by_cases same : lane = own
        · subst same
          simp only [advance, Function.update_self] at early
          by_cases last : i = position
          · subst last
            exact .inl made
          · obtain ⟨_, _, between⟩ := scan_found found
            have closed := between i low (by omega)
            exact .inr ⟨t.answers, List.mem_cons_self, closed.later (moves.queue lane)⟩
        · simp only [advance, Function.update_of_ne same] at early
          exact absurd low (Nat.not_le.mpr early)
      · exact .inr (moves.closed lane i (Nat.not_lt.mp early) high)

/-! The streak. -/

/-- Public launches since the last reward launch, one step on. -/
def tally (c : Config) (n : Nat) (t : Taken State Step) : Nat :=
  match launchOf c t with
  | some (.pub, _) => n + 1
  | some (.reward, _) => 0
  | none => n

/-- Public launches since the last reward launch. -/
def publicsSince (c : Config) (past : Past) : Nat := past.foldl (tally c) 0

theorem publicsSince_snoc (past : Past) (t : Taken State Step) :
    publicsSince c (past ++ [t]) = tally c (publicsSince c past) t := by
  simp [publicsSince]

theorem streak_counts {past : Past} (runs : Runs c past s) : s.publicStreak = min (publicsSince c past) 255 := by
  induction runs with
  | nil => rfl
  | @snoc past before after earlier t taken ih =>
    subst taken
    rw [publicsSince_snoc]
    cases outcome_acts (c := c) before t with
    | skips none moves =>
      rw [moves.streak, tally, launchOf, none]
      exact ih
    | launches lane position id launch made does ready found entry pub reward moves =>
      rw [moves.streak, tally, launchOf, made]
      cases lane with
      | pub =>
        simp only [advance]
        split <;> omega
      | reward => rfl

def isPublic (c : Config) (t : Taken State Step) : Bool :=
  match launchOf c t with
  | some (.pub, _) => true
  | _ => false

/-- Without a reward launch the public ones add up. -/
theorem tally_publics (steps : Past) (n : Nat) (quiet : ∀ t ∈ steps, ∀ i, launchOf c t ≠ some (.reward, i)) :
    steps.foldl (tally c) n = n + steps.countP (isPublic c) := by
  induction steps generalizing n with
  | nil => rfl
  | cons t rest ih =>
    rw [List.foldl_cons, ih _ fun u member => quiet u (List.mem_cons_of_mem _ member), List.countP_cons]
    unfold tally isPublic
    cases made : launchOf c t with
    | none => simp
    | some launch =>
      obtain ⟨lane, position⟩ := launch
      cases lane with
      | pub =>
        simp
        omega
      | reward => exact absurd made (quiet t List.mem_cons_self position)

theorem step_turns {past : Past} {t : Step} (runs : Runs c past s) {lane : Lane} {position : Nat}
    (made : launched c s t = some (lane, position)) :
    (lane = .pub → Ready s t.answers .reward → publicsSince c past < publicPerReward) ∧
      (lane = .reward → Ready s t.answers .pub → publicPerReward ≤ publicsSince c past) := by
  have streak := streak_counts runs
  unfold publicPerReward at *
  cases outcome_acts (c := c) s t with
  | skips none moves =>
    rw [none] at made
    cases made
  | launches own at_ id launch made' does ready found entry pub reward moves =>
    rw [made'] at made
    cases made
    unfold publicPerReward at *
    constructor
    · intro own waits
      have short := pub own waits
      omega
    · intro own waits
      have due := reward own waits
      omega

/-- A stretch without a reward launch, whose public launches all found a reward order ready, is short. -/
theorem publics_bounded (front mid : Past) (before : State) (runs : Runs c (front ++ mid) before)
    (quiet : ∀ t ∈ mid, ∀ i, launchOf c t ≠ some (.reward, i))
    (waits : ∀ t ∈ mid, isPublic c t = true → Ready t.before t.action.answers .reward) :
    mid.countP (isPublic c) ≤ publicPerReward := by
  induction mid using List.reverseRecOn generalizing before with
  | nil => exact Nat.zero_le _
  | append_singleton rest t ih =>
    rw [List.countP_append]
    obtain ⟨earlier, taken⟩ := History.taken runs (front ++ rest) [] t (by simp)
    have inner : ∀ u ∈ rest, ∀ i, launchOf c u ≠ some (.reward, i) :=
      fun u member => quiet u (List.mem_append_left _ member)
    by_cases pub : isPublic c t = true
    · -- this launch found fewer than three since the last reward launch
      have ready := waits t (by simp) pub
      unfold isPublic at pub
      split at pub
      · next position made =>
        have short := (step_turns earlier made).1 rfl ready
        rw [publicsSince, List.foldl_append, tally_publics rest _ inner] at short
        have one : [t].countP (isPublic c) ≤ 1 := List.countP_le_length
        omega
      · cases pub
    · have fewer := ih t.before earlier inner fun u member => waits u (List.mem_append_left _ member)
      rw [List.countP_singleton, if_neg pub]
      exact fewer

/-- What holds of the calls of a run. -/
structure Fair (c : Config) (past : Past) (s : State) : Prop where
  /-- A launch is of the entry at its position, which was pending. -/
  entries : ∀ t ∈ past, ∀ lane position, launchOf c t = some (lane, position) → Launched t lane position s
  /-- A later launch of a lane is of a later entry. -/
  ordered : ∀ front t mid u back, past = front ++ t :: (mid ++ u :: back) → ∀ lane i j,
    launchOf c t = some (lane, i) → launchOf c u = some (lane, j) → i < j
  passes : ∀ t ∈ past, Passes c t s
  /-- At most three public launches between reward launches, while the reward lane is ready. -/
  reward : ∀ front mid back, past = front ++ (mid ++ back) →
    (∀ t ∈ mid, ∀ i, launchOf c t ≠ some (.reward, i)) →
    (∀ t ∈ mid, isPublic c t = true → Ready t.before t.action.answers .reward) →
      mid.countP (isPublic c) ≤ publicPerReward
  /-- A reward launch past a ready public head comes after three public ones. -/
  pub : ∀ front t back i, past = front ++ t :: back → launchOf c t = some (.reward, i) →
    Ready t.before t.action.answers .pub → publicPerReward ≤ publicsSince c front
  reverted : ∀ t ∈ past, ∀ id, t.action.action = .launchNext id none → t.after = t.before

theorem launchNext_reverts {t : Step} {id : Nat} (does : t.action = .launchNext id none) : outcome c s t = s := by
  cases taken : step c s t with
  | error fault => rw [outcome, taken]
  | ok after =>
    rw [step, does] at taken
    simp only [launchNext] at taken
    split at taken
    · simp only [throw_ok] at taken
    · simp only [bind_ok, require_ok, throw_ok, and_false, exists_false] at taken

/-- The part of a history up to a split. -/
theorem runs_front {past : Past} (runs : Runs c past s) (front back : Past) (split : past = front ++ back) :
    ∃ middle, Runs c front middle := by
  cases back with
  | nil => exact ⟨s, by rwa [split, List.append_nil] at runs⟩
  | cons t rest => exact ⟨t.before, (History.taken runs front rest t split).1⟩

theorem runs_fair (c : Config) (past : Past) (s : State) (runs : Runs c past s) : Fair c past s where
  entries := runs_launched runs
  ordered := by
    intro front t mid u back split lane i j first second
    obtain ⟨earlier, taken⟩ := History.taken runs (front ++ t :: mid) back u (by simp [split])
    have before := (runs_launched earlier t (by simp) lane i first).passed.2
    have after := (runs_launched runs u (by simp [split]) lane j second).passed.1
    omega
  passes := runs_passes runs
  reward := by
    intro front mid back split quiet waits
    obtain ⟨middle, earlier⟩ := runs_front runs (front ++ mid) back (by simp [split])
    exact publics_bounded front mid middle earlier quiet waits
  pub := by
    intro front t back i split made ready
    obtain ⟨earlier, _⟩ := History.taken runs front back t split
    exact (step_turns earlier made).2 rfl ready
  reverted := by
    intro t member id does
    obtain ⟨front, back, split⟩ := List.append_of_mem member
    obtain ⟨_, taken⟩ := History.taken runs front back t split
    exact taken.symm.trans (launchNext_reverts does)

/-! One public and one reward order; the public one goes first, the reward one takes the lent slot once
the hub launches it. -/

def sample : Config := ⟨1⟩

def open_ : Answers := ⟨fun _ => true, fun _ => 5, fun _ => true⟩

def sampleSteps : List Step :=
  [⟨open_, .enqueue 1 0 7⟩, ⟨open_, .enqueue 1 1 9⟩, ⟨open_, .launchNext 7 (some [])⟩,
    ⟨⟨fun id => decide (id = 9), fun _ => 5, fun _ => true⟩, .launchNext 9 none⟩,
    ⟨⟨fun id => decide (id = 9), fun _ => 5, fun _ => true⟩, .launchNext 9 (some [.enqueue 1 9])⟩]

theorem runs_fair_launched : ∃ past s, Fair sample past s ∧
    past.map (launchOf sample) = [none, none, some (.pub, 0), none, some (.reward, 0)] ∧
    s.queue .reward = [9, 9] := by
  have first : Runs sample [] deployed := .nil
  have second := History.snoc first sampleSteps[0] rfl
  have third := History.snoc second sampleSteps[1] rfl
  have fourth := History.snoc third sampleSteps[2] rfl
  have fifth := History.snoc fourth sampleSteps[3] rfl
  have sixth := History.snoc fifth sampleSteps[4] rfl
  exact ⟨_, _, runs_fair sample _ _ sixth, rfl, rfl⟩

end Solonpad.OrderScheduler
