import Solonpad.ConfirmQueue
import Solonpad.HubSolvency
import Solonpad.HubFile

/-!
Stale reconciliation stops minting. The hub runs under block time, with a record of what the fast lane
settled and of the last resume. Proofs arrive in any order, but the queue of results without one stays in
order of settlement, so the age of its front bounds the age of all of them.
-/

namespace Solonpad.Hub

open Checked Chain Messages Transition ConfirmQueue

variable {c : Config} {s after : State} {run : Clocked} {now id : Nat} {r : Result} {canonical : Bool}

/-! Runs. -/

/-- The hub with the time of its last call, what the fast lane settled and when, and the last resume. -/
structure Clocked where
  hub : State
  clock : Nat
  settled : List (Ref × Nat)
  resumed : Nat

def Clocked.deployed (c : Config) : Clocked := ⟨Hub.deployed c, 0, [], 0⟩

def Clocked.note (run : Clocked) (c : Config) (call : Call) (after : State) : Clocked where
  hub := after
  clock := call.env.now
  settled := run.settled ++ (call.settles c run.hub).map (·, call.env.now)
  resumed := match call.action with
    | .resumeMints => call.env.now
    | _ => run.resumed

/-- A call, no earlier than the one before. -/
def Clocked.step (c : Config) (run : Clocked) (call : Call) : Tx Clocked := do
  let after ← Hub.step c run.hub call
  pure (run.note c call after)

def InTime (run : Clocked) (call : Call) : Prop := run.clock ≤ call.env.now

instance (run : Clocked) (call : Call) : Decidable (InTime run call) := inferInstanceAs (Decidable (_ ≤ _))

def clocked (c : Config) : Clocked → Call → Clocked → Prop :=
  restrict (fun run call after => run.step c call = .ok after) InTime

theorem clocked_ok {next : Clocked} {call : Call} (taken : clocked c run call next) :
    run.clock ≤ call.env.now ∧ ∃ after, step c run.hub call = .ok after ∧ next = run.note c call after := by
  obtain ⟨order, done⟩ := taken
  simp only [Clocked.step, bind_ok, pure_ok] at done
  obtain ⟨after, stepped, same⟩ := done
  exact ⟨order, after, stepped, same.symm⟩

theorem clocked_regular (reached : Reachable (clocked c) (Clocked.deployed c) run) : Regular run.hub := by
  apply reached.invariant deployed_regular
  intro before call next regular taken
  obtain ⟨_, after, stepped, rfl⟩ := clocked_ok taken
  exact (step_moves before.hub after call regular stepped).regular regular

/-! The file along a run. -/

def File.settled (f : File) (ref : Ref) : Prop := ∃ id, ref = .order id ∧ (f.stamps id).lzSettled = true

structure Watched (f : File) (clock : Nat) (log : List (Ref × Nat)) (resumed : Nat) : Prop where
  waiting : Waiting f.settled f.lzSettledAt f.reconciled clock f.unreconciled
  answered : ∀ id, (f.stamps id).lzSettled = true → (f.stamps id).outcome ≠ none
  logged : ∀ entry, entry ∈ log ↔ f.settled entry.1 ∧ entry.2 = f.lzSettledAt entry.1
  resumed : f.resumedAt = resumed

variable {f : File} {clock resumed : Nat} {log : List (Ref × Nat)}

theorem Watched.later (watched : Watched f clock log resumed) (order : clock ≤ now) : Watched f now log resumed :=
  { watched with waiting := watched.waiting.later order }

theorem Watched.check (watched : Watched f clock log resumed) (now : Nat) :
    Watched (f.check now) clock log resumed := by
  have trimmed := watched.waiting.trims
  unfold File.check
  split
  · next empty =>
    rw [empty] at trimmed
    exact ⟨trimmed, watched.answered, watched.logged, watched.resumed⟩
  · next front rest waits =>
    rw [waits] at trimmed
    exact ⟨trimmed, watched.answered, watched.logged, watched.resumed⟩

theorem Watched.sends (watched : Watched f clock log resumed) (sent : List Messages.Order) :
    Watched (f.sends sent) clock log resumed :=
  ⟨watched.waiting, watched.answered, watched.logged, watched.resumed⟩

theorem Watched.halt (watched : Watched f clock log resumed) (halted : Bool) :
    Watched { f with mintsHalted := halted } clock log resumed :=
  ⟨watched.waiting, watched.answered, watched.logged, watched.resumed⟩

theorem Watched.resume (watched : Watched f clock log resumed) (now : Nat) :
    Watched { f with mintsHalted := false, resumedAt := now } clock log now :=
  ⟨watched.waiting, watched.answered, watched.logged, rfl⟩

theorem Watched.prove (watched : Watched f clock log resumed) (ref : Ref) :
    Watched (f.prove ref) clock log resumed := by
  refine ⟨watched.waiting.confirms ?_, watched.answered, watched.logged, watched.resumed⟩
  intro other proven
  by_cases same : other = ref
  · rw [same]
    exact Function.update_self ..
  · exact (Function.update_of_ne same ..).trans proven

/-- A stamp with the same mark opens no ref. -/
theorem Watched.restamp (watched : Watched f clock log resumed) {stamp : Stamp}
    (mark : stamp.lzSettled = (f.stamps id).lzSettled) (answered : stamp.lzSettled = true → stamp.outcome ≠ none) :
    Watched (f.write id stamp) clock log resumed := by
  have same : ∀ ref, (f.write id stamp).settled ref ↔ f.settled ref := by
    intro ref
    apply exists_congr
    intro own
    by_cases other : own = id
    · rw [other, File.write_self, mark]
    · rw [File.write_other _ _ other]
  refine ⟨?_, ?_, fun entry => (watched.logged entry).trans (and_congr_left' (same entry.1).symm), watched.resumed⟩
  · exact ⟨watched.waiting.sorted, watched.waiting.once,
      fun ref member => (same ref).mpr (watched.waiting.known ref member),
      fun ref settled => watched.waiting.past ref ((same ref).mp settled),
      fun ref settled => watched.waiting.complete ref ((same ref).mp settled)⟩
  · intro own marked
    by_cases other : own = id
    · rw [other, File.write_self] at marked ⊢
      exact answered marked
    · rw [File.write_other _ _ other] at marked ⊢
      exact watched.answered own marked

theorem Watched.places (watched : Watched f clock log resumed) (minOut : Nat)
    (blank : (f.stamps f.orderCount).lzSettled = false) : Watched (f.place minOut) clock log resumed := by
  have stamped : Watched (f.write f.orderCount ⟨false, none, minOut⟩) clock log resumed :=
    watched.restamp blank.symm fun marked => (by cases marked)
  exact ⟨stamped.waiting, stamped.answered, stamped.logged, stamped.resumed⟩

def Stamp.fast (stamp : Stamp) (outcome : Outcome) : Stamp :=
  { stamp with lzSettled := true, outcome := some outcome }

/-- The fast lane opens the ref of an order without an answer. -/
theorem Watched.opens (watched : Watched f clock log resumed) (unmarked : (f.stamps id).lzSettled ≠ true)
    (outcome : Outcome) :
    Watched ((f.write id ((f.stamps id).fast outcome)).opens (.order id) clock) clock
      (log ++ [(.order id, clock)]) resumed := by
  have fresh : ¬ f.settled (.order id) := by
    rintro ⟨own, same, marked⟩
    cases same
    exact unmarked marked
  have adds : ∀ ref, ((f.write id ((f.stamps id).fast outcome)).opens (.order id) clock).settled ref ↔
      f.settled ref ∨ ref = .order id := by
    intro ref
    constructor
    · rintro ⟨own, rfl, marked⟩
      by_cases other : own = id
      · exact .inr (other ▸ rfl)
      · rw [File.opens_stamps, File.write_other _ _ other] at marked
        exact .inl ⟨own, rfl, marked⟩
    · rintro (⟨own, rfl, marked⟩ | rfl)
      · refine ⟨own, rfl, ?_⟩
        have other : own ≠ id := fun same => unmarked (same ▸ marked)
        rw [File.opens_stamps, File.write_other _ _ other]
        exact marked
      · exact ⟨id, rfl, congrArg Stamp.lzSettled (File.write_self f id _)⟩
  refine ⟨watched.waiting.opens fresh adds, ?_, ?_, watched.resumed⟩
  · intro own marked
    by_cases other : own = id
    · rw [other, File.opens_stamps, File.write_self]
      exact Option.some_ne_none outcome
    · rw [File.opens_stamps, File.write_other _ _ other] at marked ⊢
      exact watched.answered own marked
  · intro entry
    rw [List.mem_append, List.mem_singleton, adds, watched.logged]
    simp only [File.opens, File.write]
    constructor
    · rintro (⟨settled, at_⟩ | rfl)
      · refine ⟨.inl settled, ?_⟩
        rw [Function.update_of_ne, at_]
        rintro same
        exact fresh (same ▸ settled)
      · exact ⟨.inr rfl, (Function.update_self (Ref.order id) clock f.lzSettledAt).symm⟩
    · rintro ⟨settled | same, at_⟩
      · refine .inl ⟨settled, ?_⟩
        rwa [Function.update_of_ne] at at_
        rintro same
        exact fresh (same ▸ settled)
      · refine .inr (Prod.ext same ?_)
        rw [at_, same, Function.update_self]

/-- What a result's booking starts with. -/
theorem Checks.watched (checks : Checks s now r canonical f) (watched : Watched s.file clock log resumed) :
    Watched f clock log resumed := by
  by_cases fast : r.outcome = .bought ∧ canonical = false
  · rw [(checks.checked fast.1 fast.2).1]
    exact watched.check now
  · rw [checks.plain (by rw [not_and_or] at fast; simpa using fast)]
    exact watched

theorem Answers.unanswered (regular : Regular s) (answers : Answers s now id r canonical after) :
    (s.orders id).outcome = none := by
  rcases answers.1 with none | pending
  · exact none
  · exact ((regular.orders id).pending pending).1

theorem Watched.answers (watched : Watched s.file clock log resumed) (regular : Regular s)
    (ref : r.ref = .order id) (answers : Answers s clock id r canonical after) :
    Watched after.file clock (log ++ (if canonical then [] else [r.ref]).map (·, clock)) resumed := by
  have none := answers.unanswered regular
  obtain ⟨_, f, checks, same⟩ := answers
  have first := checks.watched watched
  rw [same, File.settle, File.mark]
  cases canonical with
  | true =>
    rw [if_pos rfl, if_pos rfl, List.map_nil, List.append_nil]
    have answered : Watched (f.write id { f.stamps id with outcome := some r.outcome }) clock log resumed :=
      first.restamp rfl fun _ => Option.some_ne_none r.outcome
    exact answered.prove r.ref
  | false =>
    have unmarked : (f.stamps id).lzSettled ≠ true := by
      intro marked
      apply first.answered id marked
      rw [checks.stamps]
      exact none
    rw [if_neg Bool.false_ne_true, if_neg Bool.false_ne_true, File.write_self, File.write_write, ref]
    exact first.opens unmarked r.outcome

theorem Watched.note {call : Call} (watched : Watched run.hub.file run.clock run.settled run.resumed)
    (regular : Regular run.hub) (order : run.clock ≤ call.env.now) (taken : step c run.hub call = .ok after) :
    Watched after.file call.env.now (run.note c call after).settled (run.note c call after).resumed := by
  have now := watched.later order
  have calmly : call.action ≠ .resumeMints → (run.note c call after).resumed = run.resumed := by
    intro calm
    unfold Clocked.note
    split
    · next called => exact absurd called calm
    · rfl
  have silently : call.settles c run.hub = [] → (run.note c call after).settled = run.settled := by
    intro none
    simp only [Clocked.note, none, List.map_nil, List.append_nil]
  cases step_files taken with
  | keeps none calm sent telling same =>
    rw [silently none, calmly calm, same]
    exact now.sends sent
  | places none calm minOut asks sent telling placed =>
    have blank : (run.hub.file.stamps run.hub.orderCount).lzSettled = false := by
      change (run.hub.orders run.hub.orderCount).lzSettled = false
      rw [regular.fresh run.hub.orderCount (Nat.le_refl _)]
      rfl
    rw [silently none, calmly calm, placed]
    exact (now.places minOut blank).sends sent
  | checks none calm checked =>
    rw [silently none, calmly calm, checked]
    exact now.check call.env.now
  | resumes none called restarted =>
    have restart : (run.note c call after).resumed = call.env.now := by simp only [Clocked.note, called]
    rw [silently none, restart, restarted]
    exact now.resume call.env.now
  | proves none calm ref halted proven =>
    rw [silently none, calmly calm, proven]
    exact (now.prove ref).halt halted
  | halts none calm halted =>
    rw [silently none, calmly calm, halted]
    exact now.halt true
  | answers id r canonical calm ref settled answered =>
    rw [calmly calm]
    simp only [Clocked.note, settled]
    exact now.answers regular ref answered

def Clocked.Kept (run : Clocked) : Prop := Watched run.hub.file run.clock run.settled run.resumed

theorem deployed_kept : (Clocked.deployed c).Kept := by
  refine ⟨.empty ?_, ?_, ?_, rfl⟩
  · rintro ref ⟨id, _, marked⟩
    cases marked
  · intro id marked
    cases marked
  · intro entry
    constructor
    · exact fun member => absurd member List.not_mem_nil
    · rintro ⟨⟨id, _, marked⟩, _⟩
      cases marked

theorem clocked_watched (reached : Reachable (clocked c) (Clocked.deployed c) run) : run.Kept := by
  apply reached.invariant_under (fun _ => clocked_regular) deployed_kept
  intro before call next regular watched taken
  obtain ⟨order, after, stepped, rfl⟩ := clocked_ok taken
  exact Watched.note watched regular order stepped

/-- A check that leaves minting on has seen no result that waits too long. -/
theorem Watched.timely (watched : Watched f clock log resumed) (running : (f.check now).mintsHalted = false)
    {entry : Ref × Nat} (settled : entry ∈ log) (unproven : f.reconciled entry.1 = false) :
    now ≤ max entry.2 resumed + reconcileWindow := by
  obtain ⟨opened, at_⟩ := (watched.logged entry).mp settled
  have trimmed := watched.waiting.trims
  unfold File.check at running
  split at running
  · next empty =>
    rw [empty] at trimmed
    rw [trimmed.none_open opened] at unproven
    cases unproven
  · next front rest waits =>
    rw [waits] at trimmed
    have oldest := trimmed.front_oldest opened unproven
    split at running
    · cases running
    · next young =>
      rw [at_, ← watched.resumed]
      omega

theorem stale_stops_minting (c : Config) (run : Clocked)
    (reached : Reachable (clocked c) (Clocked.deployed c) run) :
    (∀ call next srcEid r, clocked c run call next → call.action = .lzReceive srcEid r → r.outcome = .bought →
      call.settles c run.hub = [r.ref] → ∀ entry ∈ run.settled, run.hub.reconciled entry.1 = false →
        call.env.now ≤ max entry.2 run.resumed + reconcileWindow) ∧
    (run.hub.watch.unreconciled.Pairwise fun first second =>
      run.hub.watch.lzSettledAt first ≤ run.hub.watch.lzSettledAt second) ∧
    run.hub.watch.unreconciled.Nodup ∧
    (∀ ref ∈ run.hub.watch.unreconciled, (ref, run.hub.watch.lzSettledAt ref) ∈ run.settled) ∧
    (∀ entry ∈ run.settled, entry.2 = run.hub.watch.lzSettledAt entry.1 ∧
      (run.hub.reconciled entry.1 = false → entry.1 ∈ run.hub.watch.unreconciled)) := by
  have watched := clocked_watched reached
  have regular := clocked_regular reached
  refine ⟨?_, watched.waiting.sorted, watched.waiting.once, ?_, ?_⟩
  · intro call next srcEid r taken action bought applied entry settled unproven
    obtain ⟨_, after, stepped, rfl⟩ := clocked_ok taken
    have received : lzReceive c run.hub call.env srcEid r = .ok after := by
      simpa only [step, action] using stepped
    obtain ⟨id, changed, ref, _, answered⟩ := lzReceive_applies received
    rw [settles_fast action ref answered] at applied
    rcases settle_file answered with ⟨rfl, _⟩ | ⟨rfl, _, f, checks, _⟩
    · cases applied
    · obtain ⟨same, running⟩ := checks.checked bought rfl
      exact watched.timely (same ▸ running) settled unproven
  · intro ref member
    exact (watched.logged _).mpr ⟨watched.waiting.known ref member, rfl⟩
  · intro entry settled
    obtain ⟨opened, at_⟩ := (watched.logged entry).mp settled
    exact ⟨at_, watched.waiting.complete entry.1 opened⟩

/-- Three buys are launched; the second is answered first, and the first one's result is proven. -/
def answeredTwice : List Call :=
  [by' 2 0 (.listStock 50 30 (10 ^ 20) 60 1),
    by' 12 (32 * 10 ^ 18) (.requestBuy 50 (30 * 10 ^ 18) 1),
    by' 12 (32 * 10 ^ 18) (.requestBuy 50 (30 * 10 ^ 18) 1),
    by' 12 (32 * 10 ^ 18) (.requestBuy 50 (30 * 10 ^ 18) 1),
    by' 3 0 (.launch 0 0 0),
    by' 3 0 (.launch 1 0 0),
    by' 3 0 (.launch 2 0 0),
    by' 11 0 (.lzReceive 30 ⟨.order 1, 50, .bought, 20 * 10 ^ 6, 10 ^ 18, 1⟩),
    by' 11 0 (.lzReceive 30 ⟨.order 0, 50, .bought, 20 * 10 ^ 6, 10 ^ 18, 2⟩),
    by' 11 0 (.reconcile ⟨.order 0, 50, .bought, 20 * 10 ^ 6, 10 ^ 18, 2⟩)]

/-- The third result, on the last second the second one may still wait. -/
def lastMint : Call where
  env := { (by' 11 0 .checkStale).env with now := 10 ^ 6 + reconcileWindow }
  action := .lzReceive 30 ⟨.order 2, 50, .bought, 20 * 10 ^ 6, 10 ^ 18, 3⟩

theorem stale_stops_minting_third : ∃ run next,
    Reachable (clocked sample) (Clocked.deployed sample) run ∧ clocked sample run lastMint next ∧
    (Ref.order 1, 10 ^ 6) ∈ run.settled ∧ run.hub.reconciled (.order 1) = false ∧
    run.hub.reconciled (.order 0) = true ∧ lastMint.settles sample run.hub = [.order 2] ∧
    lastMint.env.now ≤ max (10 ^ 6) run.resumed + reconcileWindow := by
  obtain ⟨run, reached, passed⟩ := run_passes (Clocked.step sample) InTime answeredTwice
    (Clocked.deployed sample) (fun run => decide ((Ref.order 1, 10 ^ 6) ∈ run.settled ∧
      run.hub.reconciled (.order 1) = false ∧ run.hub.reconciled (.order 0) = true ∧
      lastMint.settles sample run.hub = [.order 2] ∧ InTime run lastMint ∧
      (run.step sample lastMint).toBool = true)) (by decide +kernel)
  obtain ⟨settled, unproven, proven, applied, order, accepted⟩ := of_decide_eq_true passed
  obtain ⟨next, taken⟩ : ∃ next, run.step sample lastMint = .ok next := by
    cases outcome : run.step sample lastMint with
    | ok next => exact ⟨next, rfl⟩
    | error error => simp [outcome, Except.toBool] at accepted
  have law := (stale_stops_minting sample run reached).1 lastMint next 30 _ ⟨order, taken⟩ rfl rfl applied
  exact ⟨run, next, reached, ⟨order, taken⟩, settled, unproven, proven, applied,
    law (.order 1, 10 ^ 6) settled unproven⟩

end Solonpad.Hub
