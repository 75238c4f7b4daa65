import Solonpad.PayoutCustody
import Solonpad.Transition

/-!
What the loops over accounts and assets leave. Each turn of a loop is one entry, what was staged and
what was paid of one debt. The debts afterwards are those before with what was staged and without
what was paid, an entry pays all of the debt of its moment or nothing, and an entry that paid nothing
did not end its loop.
-/

namespace Solonpad.Payout

open Checked RunningTotal
open Chain (Address)

variable {W : Type} {c : Config} {b : Balance W} {x : Peers W} {s middle after : State W}
  {account asset amount : Nat}

structure Entry where
  account : Address
  asset : Address
  staged : Nat
  paid : Nat

/-- What the entries of one debt sum to. -/
def sumFor (f : Entry → Nat) (a asset : Address) (entries : List Entry) : Nat :=
  (entries.map fun e => if e.account = a ∧ e.asset = asset then f e else 0).sum

@[simp]
theorem sumFor_nil (f : Entry → Nat) (a asset : Address) : sumFor f a asset [] = 0 := rfl

@[simp]
theorem sumFor_cons (f : Entry → Nat) (a asset : Address) (e : Entry) (rest : List Entry) :
    sumFor f a asset (e :: rest) =
      (if e.account = a ∧ e.asset = asset then f e else 0) + sumFor f a asset rest := rfl

/-- One turn of a loop. -/
structure Serves (c : Config) (b : Balance W) (e : Entry) (s after : State W) : Prop where
  moves : Moves c b s after
  debt : ∀ a asset, after.store.readyRaw a asset +
      (if e.account = a ∧ e.asset = asset then e.paid else 0) =
    s.store.readyRaw a asset + (if e.account = a ∧ e.asset = asset then e.staged else 0)
  whole : e.paid = 0 ∨ e.paid = s.store.readyRaw e.account e.asset + e.staged

/-- One turn after the other. -/
structure Settles (c : Config) (b : Balance W) (entries : List Entry) (s after : State W) : Prop where
  moves : Moves c b s after
  debt : ∀ a asset, after.store.readyRaw a asset + sumFor Entry.paid a asset entries =
    s.store.readyRaw a asset + sumFor Entry.staged a asset entries
  whole : ∀ earlier e later, entries = earlier ++ e :: later → e.paid = 0 ∨
    e.paid + sumFor Entry.paid e.account e.asset earlier =
      s.store.readyRaw e.account e.asset + sumFor Entry.staged e.account e.asset earlier + e.staged

theorem Settles.nil : Settles c b [] s s := by
  constructor
  · exact .refl
  · intro a asset
    rfl
  · intro earlier e later split
    cases earlier <;> cases split

theorem Settles.cons {e : Entry} {rest : List Entry} (serves : Serves c b e s middle)
    (settles : Settles c b rest middle after) : Settles c b (e :: rest) s after := by
  constructor
  · exact serves.moves.trans settles.moves
  · intro a asset
    have first := serves.debt a asset
    have others := settles.debt a asset
    rw [sumFor_cons, sumFor_cons]
    omega
  · intro earlier e' later split
    cases earlier with
    | nil =>
      cases split
      rcases serves.whole with none | all
      · exact .inl none
      · exact .inr (by rw [sumFor_nil, sumFor_nil]; omega)
    | cons head tail =>
      cases split
      rcases settles.whole tail e' later rfl with none | all
      · exact .inl none
      · have first := serves.debt e'.account e'.asset
        rw [sumFor_cons, sumFor_cons]
        exact .inr (by omega)

theorem Serves.stages {source : Address} (stages : Stages c b s source account asset amount after) :
    Serves c b ⟨account, asset, amount, 0⟩ s after := by
  constructor
  · exact .single (.stages stages)
  · intro a other
    rw [stages.store, credited_ready]
    by_cases own : a = account ∧ other = asset
    · rw [if_pos own, if_pos ⟨own.1.symm, own.2.symm⟩, if_pos ⟨own.1.symm, own.2.symm⟩, own.1, own.2]
      rfl
    · rw [if_neg own, if_neg (fun same => own ⟨same.1.symm, same.2.symm⟩),
        if_neg (fun same => own ⟨same.1.symm, same.2.symm⟩)]
  · exact .inl rfl

theorem Serves.nothing (account asset : Address) : Serves c b ⟨account, asset, 0, 0⟩ s s := by
  constructor
  · exact .refl
  · intro a other
    rfl
  · exact .inl rfl

/-- More is staged for the same debt. -/
theorem Serves.more {source more : Nat} (serves : Serves c b ⟨account, asset, amount, 0⟩ s middle)
    (stages : Stages c b middle source account asset more after) :
    Serves c b ⟨account, asset, amount + more, 0⟩ s after := by
  have second := Serves.stages stages
  constructor
  · exact serves.moves.trans second.moves
  · intro a other
    have first := serves.debt a other
    have next := second.debt a other
    simp only at first next ⊢
    split <;> simp_all
    omega
  · exact .inl rfl

/-- The debt is paid at the end. -/
theorem Serves.pays {paid : Nat} (serves : Serves c b ⟨account, asset, amount, 0⟩ s middle)
    (pays : Pays c b middle account asset paid after) : Serves c b ⟨account, asset, amount, paid⟩ s after := by
  obtain ⟨rfl, store, sent, others⟩ := pays
  have own := serves.debt account asset
  simp only [and_self, if_true, Nat.add_zero] at own
  constructor
  · exact serves.moves.tail (.pays ⟨rfl, store, sent, others⟩)
  · intro a other
    rw [store, cleared_ready]
    by_cases same : a = account ∧ other = asset
    · rw [if_pos same, if_pos ⟨same.1.symm, same.2.symm⟩, if_pos ⟨same.1.symm, same.2.symm⟩, same.1,
        same.2]
      simp only
      omega
    · have kept := serves.debt a other
      have apart : ¬ (account = a ∧ asset = other) := fun eq => same ⟨eq.1.symm, eq.2.symm⟩
      simp only [if_neg apart] at kept
      rw [if_neg same, if_neg apart, if_neg apart]
      exact kept
  · exact .inr own

/-! The vault's own claims. -/

/-- What a claim did about one asset. -/
def claimed (account : Address) (item : Address × Option Nat) : Entry :=
  ⟨account, item.1, 0, item.2.getD 0⟩

/-- An asset was blocked only where its own payment failed, or ran out of its allowance. -/
def Refused (c : Config) (b : Balance W) (x : Peers W) (gas : Nat → Bool) (account : Address) (i : Nat)
    (paid : List (Address × Option Nat)) : Prop :=
  ∀ k asset, paid[k]? = some (asset, none) → gas (i + k) = false ∨
    ∃ (s : State W) (fault : Fault PayoutError), pay c b x s account asset = .error fault

theorem Refused.cons {gas : Nat → Bool} {i : Nat} {paid : List (Address × Option Nat)} {item : Address × Option Nat}
    (refused : Refused c b x gas account (i + 1) paid)
    (own : item.2 = none → gas i = false ∨
      ∃ (s : State W) (fault : Fault PayoutError), pay c b x s account item.1 = .error fault) :
    Refused c b x gas account i (item :: paid) := by
  intro k asset at_
  cases k with
  | zero =>
    cases at_
    exact own rfl
  | succ k =>
    have later := refused k asset at_
    rwa [Nat.add_right_comm, Nat.add_assoc] at later

/-- Every asset has its turn, whatever became of the others. -/
theorem claimAssets_settles (spares : Spares c b x) (gas : Nat → Bool) (assets : List Address) (i : Nat) :
    (claimAssets c b x gas account i assets s).2.map Prod.fst = assets ∧
      Settles c b ((claimAssets c b x gas account i assets s).2.map (claimed account)) s
        (claimAssets c b x gas account i assets s).1 ∧
      Refused c b x gas account i (claimAssets c b x gas account i assets s).2 := by
  induction assets generalizing i s with
  | nil =>
    refine ⟨rfl, .nil, ?_⟩
    intro k asset at_
    cases at_
  | cons asset rest ih =>
    rw [claimAssets]
    split
    · next next amount gone =>
      obtain ⟨_, paid⟩ := (attempted_some _ _ _).mp gone
      obtain ⟨names, settles, refused⟩ := ih (s := next) (i + 1)
      refine ⟨?_, .cons ((Serves.nothing account asset).pays (pay_pays spares paid)) settles,
        refused.cons (fun none => by cases none)⟩
      rw [List.map_cons, names]
    · next blocked =>
      obtain ⟨names, settles, refused⟩ := ih (s := s) (i + 1)
      refine ⟨?_, .cons (Serves.nothing account asset) settles, refused.cons (fun _ => ?_)⟩
      · rw [List.map_cons, names]
      · rcases (attempted_none _ _).mp blocked with out | ⟨fault, failed⟩
        · exact .inl out
        · exact .inr ⟨s, fault, failed⟩

end Solonpad.Payout

namespace Solonpad.Distributor

open Checked RunningTotal Payout
open Chain (Address)

variable {W : Type} {c : Config} {p : Payout.Config} {b : Payout.Balance W} {x : Payout.Peers W} {v : Views W}
  {env : Env} {store : Store} {visits : List Visit} {source : Address} {claimed : List Claimed}

/-! Batches. -/

def Visit.entry (asset : Address) (visit : Visit) : Entry :=
  ⟨visit.account, asset, visit.staged, visit.paid⟩

theorem attempt_pays {now : Nat} {s after : Payout.State W} {account asset paid : Nat}
    (spares : Payout.Spares p b x) (done : attempt c p b x v store now s account asset = .ok (after, paid)) :
    (after = s ∧ paid = 0) ∨ Pays p b s account asset paid after := by
  simp only [attempt, bind_ok, ite_ok, pure_ok, relay_ok, Prod.mk.injEq] at done
  obtain ⟨price, _, done⟩ := done
  rcases done with ⟨_, rfl, rfl⟩ | ⟨_, ⟨_, rfl, rfl⟩ | ⟨_, done⟩⟩
  · exact .inl ⟨rfl, rfl⟩
  · exact .inl ⟨rfl, rfl⟩
  · exact .inr (claimFor_pays spares done)

/-- Why a visit ended as it did: the failed call is the account's own. -/
def Answers (c : Config) (p : Payout.Config) (b : Payout.Balance W) (x : Payout.Peers W) (v : Views W)
    (store : Store) (env : Env) (q : Queue) (i : Nat) (visit : Visit) : Prop :=
  match visit.outcome with
  | .paid => True
  | .skippedSmall => ∃ s after : Payout.State W,
      attempt c p b x v store env.now s visit.account q.asset = .ok (after, 0)
  | .deliveryBlocked => (env.gas i).pay = false ∨ ∃ (s : Payout.State W) (fault : Fault DistributorError),
      attempt c p b x v store env.now s visit.account q.asset = .error fault
  | .stageBlocked => (env.gas i).stage = false ∨ ∃ (s : Payout.State W) (fault : Fault Payout.PayoutError),
      Payout.stageCredit p b x s q.source visit.account [q.epoch] q.asset = .error fault

/-- How far a batch came: through its page, unless a staging failed or the gas ran low. -/
structure Walked (env : Env) (i page cursor : Nat) (walk : Walk W) : Prop where
  unpaid : ∀ visit ∈ walk.visits, visit.outcome = .paid ↔ visit.paid ≠ 0
  page : walk.blocked = false → walk.cursor = cursor + walk.visits.length ∧
    (walk.visits.length = page ∨ (env.gas (i + walk.visits.length)).low = true)
  blocked : walk.blocked = true → ∃ visit, walk.visits.getLast? = some visit ∧
    visit.outcome = .stageBlocked ∧ walk.cursor + 1 = cursor + walk.visits.length

theorem Walked.cons {i page cursor : Nat} {walk : Walk W} (walked : Walked env (i + 1) page (cursor + 1) walk)
    (visit : Visit) (unpaid : visit.outcome = .paid ↔ visit.paid ≠ 0) :
    Walked env i (page + 1) cursor { walk with visits := visit :: walk.visits } := by
  constructor
  · intro other member
    rcases List.mem_cons.mp member with rfl | later
    · exact unpaid
    · exact walked.unpaid other later
  · intro open_
    obtain ⟨far, whole⟩ := walked.page open_
    have shift : i + 1 + walk.visits.length = i + (walk.visits.length + 1) := by omega
    rw [shift] at whole
    constructor
    · simp only [List.length_cons]
      omega
    · exact whole.imp (congrArg (· + 1)) id
  · intro blocked
    obtain ⟨last, found, outcome, far⟩ := walked.blocked blocked
    refine ⟨last, ?_, outcome, ?_⟩
    · rw [List.getLast?_cons, found]
      rfl
    · rw [List.length_cons]
      simp only
      omega

/-- The accounts stand where the batch found them, and each is answered for itself. -/
def Found (c : Config) (p : Payout.Config) (b : Payout.Balance W) (x : Payout.Peers W) (v : Views W)
    (store : Store) (env : Env) (q : Queue) (i cursor : Nat) (visits : List Visit) : Prop :=
  ∀ k visit, visits[k]? = some visit → Answers c p b x v store env q (i + k) visit ∧
    ∃ w, participantAt v store w q.source q.epoch (cursor + k) = .ok visit.account

theorem Found.cons {q : Queue} {i cursor : Nat} {visit : Visit} {w : W}
    (here : participantAt v store w q.source q.epoch cursor = .ok visit.account)
    (answers : Answers c p b x v store env q i visit)
    (found : Found c p b x v store env q (i + 1) (cursor + 1) visits) :
    Found c p b x v store env q i cursor (visit :: visits) := by
  intro k other at_
  cases k with
  | zero =>
    cases at_
    exact ⟨answers, w, here⟩
  | succ k =>
    have later := found k other at_
    rwa [Nat.add_right_comm i, Nat.add_right_comm cursor, Nat.add_assoc, Nat.add_assoc] at later

theorem batchLoop_settles {q : Queue} (spares : Payout.Spares p b x) (n i cursor : Nat) {s : Payout.State W}
    {walk : Walk W} (done : batchLoop c p b x v store env q n i cursor s = .ok walk) :
    Settles p b (walk.visits.map (Visit.entry q.asset)) s walk.payout ∧ Walked env i n cursor walk ∧
      Found c p b x v store env q i cursor walk.visits := by
  induction n generalizing i cursor s walk with
  | zero =>
    cases done
    refine ⟨.nil, ⟨?_, fun _ => ⟨rfl, .inl rfl⟩, fun blocked => by cases blocked⟩, ?_⟩
    · intro visit member
      cases member
    · intro k visit at_
      cases at_
  | succ n ih =>
    simp only [batchLoop, ite_ok, pure_ok] at done
    rcases done with ⟨low, rfl⟩ | ⟨_, done⟩
    · refine ⟨.nil, ⟨?_, fun _ => ⟨rfl, .inr low⟩, fun blocked => by cases blocked⟩, ?_⟩
      · intro visit member
        cases member
      · intro k visit at_
        cases at_
    · obtain ⟨account, here, done⟩ := (bind_ok _ _ _).mp done
      split at done
      · -- the staging failed, and the walk stops at this account
        next blocked =>
        cases done
        have none : Serves p b ⟨account, q.asset, 0, 0⟩ s s := .nothing account q.asset
        refine ⟨.cons none .nil, ⟨?_, fun open_ => Bool.noConfusion open_, fun _ => ⟨_, rfl, rfl, rfl⟩⟩, ?_⟩
        · intro visit member
          rw [List.mem_singleton.mp member]
          simp
        · intro k visit at_
          cases k with
          | zero =>
            cases at_
            refine ⟨?_, _, here⟩
            rcases (attempted_none _ _).mp blocked with out | ⟨fault, failed⟩
            · exact .inl out
            · exact .inr ⟨s, fault, failed⟩
          | succ k => cases at_
      · next middle staged got =>
        obtain ⟨_, staging⟩ := (attempted_some _ _ _).mp got
        have first := Serves.stages (stageCredit_stages spares staging)
        split at done
        · next blocked =>
          obtain ⟨rest, walked, done⟩ := (bind_ok _ _ _).mp done
          obtain ⟨settles, walks, found⟩ := ih _ _ walked
          cases done
          refine ⟨.cons first settles, walks.cons _ ?_, found.cons here ?_⟩
          · simp
          · rcases (attempted_none _ _).mp blocked with out | ⟨fault, failed⟩
            · exact .inl out
            · exact .inr ⟨middle, fault, failed⟩
        · next last paid got' =>
          obtain ⟨_, attempting⟩ := (attempted_some _ _ _).mp got'
          obtain ⟨rest, walked, done⟩ := (bind_ok _ _ _).mp done
          obtain ⟨settles, walks, found⟩ := ih _ _ walked
          cases done
          have second : Serves p b ⟨account, q.asset, staged, paid⟩ s last := by
            rcases attempt_pays spares attempting with ⟨rfl, rfl⟩ | pays
            · exact first
            · exact first.pays pays
          refine ⟨.cons second settles, walks.cons _ ?_, found.cons here ?_⟩
          · simp only
            split <;> simp_all
          · by_cases none : paid = 0
            · subst none
              exact ⟨middle, last, attempting⟩
            · simp [Answers, none]

/-! Claims through the distributor. -/

def Claimed.entry (account : Address) (item : Claimed) : Entry :=
  ⟨account, item.asset, item.staged, item.paid.getD 0⟩

theorem stageEpochs_serves {asset : Address} (spares : Payout.Spares p b x) (epochs : List Nat) (i : Nat)
    {s middle : Payout.State W} {already : Nat} (serves : Serves p b ⟨env.sender, asset, already, 0⟩ s middle) :
    Serves p b ⟨env.sender, asset, already + (stageEpochs p b x env source asset i epochs middle).2.1, 0⟩ s
      (stageEpochs p b x env source asset i epochs middle).1 := by
  induction epochs generalizing i middle already with
  | nil => exact serves
  | cons epoch rest ih =>
    rw [stageEpochs]
    split
    · exact serves
    · split
      · exact ih (i + 1) serves
      · next next staged got =>
        obtain ⟨_, staging⟩ := (attempted_some _ _ _).mp got
        have more := ih (i + 1) (serves.more (stageCredit_stages spares staging))
        rw [Nat.add_assoc] at more
        exact more

/-- An asset was left unpaid only where its own payment failed, or gas ran out. -/
def Left (c : Config) (p : Payout.Config) (b : Payout.Balance W) (x : Payout.Peers W) (env : Env)
    (claimed : List Claimed) : Prop :=
  ∀ item ∈ claimed, item.paid = none → (∃ i, (env.gas i).low = true ∨ (env.gas i).pay = false) ∨
    ∃ (s : Payout.State W) (fault : Fault Payout.PayoutError),
      Payout.claimFor p b x s c.self env.sender item.asset = .error fault

theorem Left.cons {item : Claimed} (left : Left c p b x env claimed)
    (own : item.paid = none → (∃ i, (env.gas i).low = true ∨ (env.gas i).pay = false) ∨
      ∃ (s : Payout.State W) (fault : Fault Payout.PayoutError),
        Payout.claimFor p b x s c.self env.sender item.asset = .error fault) :
    Left c p b x env (item :: claimed) := by
  intro other member none
  rcases List.mem_cons.mp member with rfl | later
  · exact own none
  · exact left other later none

theorem stageEpochs_stops {asset : Address} (epochs : List Nat) (i : Nat) {s : Payout.State W}
    (stopped : (stageEpochs p b x env source asset i epochs s).2.2 = false) : ∃ i, (env.gas i).low = true := by
  induction epochs generalizing i s with
  | nil => cases stopped
  | cons epoch rest ih =>
    rw [stageEpochs] at stopped
    split at stopped
    · next low => exact ⟨i, low⟩
    · split at stopped
      · exact ih (i + 1) stopped
      · exact ih (i + 1) stopped

theorem claimLoop_settles {epochs : List Nat} (spares : Payout.Spares p b x) (assets : List Address) (i : Nat)
    {s : Payout.State W} :
    Settles p b ((claimLoop c p b x env source epochs i assets s).2.1.map (Claimed.entry env.sender)) s
        (claimLoop c p b x env source epochs i assets s).1 ∧
      ((claimLoop c p b x env source epochs i assets s).2.2 = true →
        (claimLoop c p b x env source epochs i assets s).2.1.map Claimed.asset = assets) ∧
      Left c p b x env (claimLoop c p b x env source epochs i assets s).2.1 := by
  induction assets generalizing i s with
  | nil =>
    refine ⟨.nil, fun _ => rfl, ?_⟩
    intro item member
    cases member
  | cons asset rest ih =>
    have nothing : Serves p b ⟨env.sender, asset, 0, 0⟩ s s := .nothing env.sender asset
    have staging : Serves p b ⟨env.sender, asset,
        0 + (stageEpochs p b x env source asset i epochs s).2.1, 0⟩ s
          (stageEpochs p b x env source asset i epochs s).1 := stageEpochs_serves spares epochs i nothing
    rw [Nat.zero_add] at staging
    rw [claimLoop]
    simp only
    split
    · next stops =>
      refine ⟨.cons staging .nil, fun done => Bool.noConfusion done, ?_⟩
      intro item member _
      rcases stops with stopped | low
      · obtain ⟨k, low⟩ := stageEpochs_stops epochs i stopped
        exact .inl ⟨k, .inl low⟩
      · exact .inl ⟨_, .inl low⟩
    · split
      · next blocked =>
        obtain ⟨settles, names, left⟩ := ih (i + epochs.length + 1)
            (s := (stageEpochs p b x env source asset i epochs s).1)
        refine ⟨.cons staging settles, fun done => ?_, left.cons (fun _ => ?_)⟩
        · rw [List.map_cons, names done]
        · rcases (attempted_none _ _).mp blocked with out | ⟨fault, failed⟩
          · exact .inl ⟨_, .inr out⟩
          · exact .inr ⟨_, fault, failed⟩
      · next next paid got =>
        obtain ⟨_, paying⟩ := (attempted_some _ _ _).mp got
        obtain ⟨settles, names, left⟩ := ih (i + epochs.length + 1) (s := next)
        refine ⟨.cons (staging.pays (claimFor_pays spares paying)) settles, fun done => ?_,
          left.cons (fun none => by cases none)⟩
        rw [List.map_cons, names done]

/-! Runs. -/

variable {s after : State W}

/-- A batch walks from its queue's cursor, or from the start of a queue that was done. -/
structure Batched (c : Config) (p : Payout.Config) (b : Payout.Balance W) (x : Payout.Peers W)
    (v : Views W) (env : Env) (page : Nat) (s : State W) (q : Queue) (visits : List Visit) (after : State W) : Prop where
  settles : Settles p b (visits.map (Visit.entry q.asset)) s.payout after.payout
  unpaid : ∀ visit ∈ visits, visit.outcome = .paid ↔ visit.paid ≠ 0
  found : ∃ store, Found c p b x v store env q 0 (if q.cursor = q.upperBound then 0 else q.cursor) visits
  ends : env.enough = false ∨ (∃ i, (env.gas i).low = true) ∨
    (∃ visit, visits.getLast? = some visit ∧ visit.outcome = .stageBlocked) ∨
    visits.length = min ((if q.cursor = q.upperBound then 0 else q.cursor) + page) q.upperBound -
      if q.cursor = q.upperBound then 0 else q.cursor

theorem batchDistribute_settles {id maxAccounts maxEpochs gasBudget : Nat} (spares : Payout.Spares p b x)
    (done : batchDistribute c p b x v s env id maxAccounts maxEpochs gasBudget = .ok (after, visits)) :
    ∃ q, s.store.queues[id]? = some q ∧ Batched c p b x v env maxAccounts s q visits after := by
  simp only [batchDistribute, bind_ok, require_ok] at done
  obtain ⟨_, _, _, _, done⟩ := done
  cases queue : s.store.queues[id]? with
  | none =>
    rw [queue] at done
    cases done
  | some q =>
    refine ⟨q, rfl, ?_⟩
    rw [queue] at done
    simp only [ite_ok, bind_ok, pure_ok, Prod.mk.injEq] at done
    rcases done with ⟨low, rfl, rfl⟩ | ⟨_, walk, walked, done⟩
    · refine ⟨.nil, ?_, ⟨s.store, ?_⟩, .inl low⟩
      · intro visit member
        cases member
      · intro k visit at_
        cases at_
    · obtain ⟨settles, walks, found⟩ := batchLoop_settles spares _ _ _ walked
      have came : after.payout = walk.payout ∧ visits = walk.visits := by
        rcases done with ⟨_, rfl, rfl⟩ | ⟨_, rfl, rfl⟩ <;> exact ⟨rfl, rfl⟩
      obtain ⟨payout, rfl⟩ := came
      refine ⟨payout ▸ settles, walks.unpaid, ⟨_, found⟩, .inr ?_⟩
      cases open_ : walk.blocked with
      | false =>
        rcases (walks.page open_).2 with whole | low
        · exact .inr (.inr whole)
        · exact .inl ⟨_, low⟩
      | true =>
        obtain ⟨visit, last, outcome, _⟩ := walks.blocked open_
        exact .inr (.inl ⟨visit, last, outcome⟩)

theorem claim_settles {epochs : List Nat} {assets : List Address} {done_ : Bool} (spares : Payout.Spares p b x)
    (done : claim c p b x s env source epochs assets = .ok (after, claimed, done_)) :
    Settles p b (claimed.map (Claimed.entry env.sender)) s.payout after.payout ∧
      (done_ = true → claimed.map Claimed.asset = assets) ∧ Left c p b x env claimed := by
  simp only [claim, bind_ok, require_ok, pure_ok, Prod.mk.injEq] at done
  obtain ⟨_, _, _, _, rfl, rfl, rfl⟩ := done
  exact claimLoop_settles spares assets 0

theorem step_moves {action : Action} (spares : Payout.Spares p b x)
    (done : step c p b x v s env action = .ok after) : Payout.Moves p b s.payout after.payout := by
  have own : ∀ call : Tx Store, s.own call = .ok after → Payout.Moves p b s.payout after.payout := by
    intro call called
    simp only [State.own, bind_ok, pure_ok] at called
    obtain ⟨_, _, rfl⟩ := called
    exact .refl
  cases action with
  | schedulePolicy cost maxAge => exact own _ done
  | applyPolicy => exact own _ done
  | openQueue source epoch asset => exact own _ done
  | batchDistribute id maxAccounts maxEpochs gasBudget =>
    simp only [step, bind_ok, pure_ok] at done
    obtain ⟨⟨next, visits⟩, batch, rfl⟩ := done
    obtain ⟨q, _, batched⟩ := batchDistribute_settles spares batch
    exact batched.settles.moves
  | claim source epochs assets =>
    simp only [step, bind_ok, pure_ok] at done
    obtain ⟨⟨next, claimed, ends⟩, called, rfl⟩ := done
    exact (claim_settles spares called).1.moves

theorem turn_sound (turn : Turn c p b s after) (sound : Payout.Sound p b s.payout) : Payout.Sound p b after.payout := by
  cases turn with
  | payout x env action spares taken => exact (Payout.step_moves spares taken).sound sound
  | call x v env action spares taken => exact (step_moves spares taken).sound sound
  | world world spares =>
    exact ⟨sound.owed, fun asset => (sound.backed asset).trans (spares asset), sound.split⟩

theorem run_sound (run : Run c p b s after) (sound : Payout.Sound p b s.payout) : Payout.Sound p b after.payout := by
  induction run with
  | refl => exact sound
  | tail _ turn ih => exact turn_sound turn ih

abbrev Holdings := Address → Address → Nat

def sampleVault : Payout.Config := ⟨1, 4⟩

def sample : Config := ⟨2, 4⟩

def gains (w : Holdings) (asset holder amount : Nat) : Holdings :=
  Function.update w asset (Function.update (w asset) holder (w asset holder + amount))

def samplePeers : Payout.Peers Holdings where
  hasCode := fun _ => true
  stageCredit := fun w _ _ _ asset => .ok (gains w asset 1 5, 5)
  canReceiveStock := fun _ _ _ => true
  transfer := fun w asset receiver amount =>
    if receiver = 66 ∨ w asset 1 < amount then .error (.revert .peer)
    else
      let sent := Function.update w asset (Function.update (w asset) 1 (w asset 1 - amount))
      .ok (gains sent asset receiver amount)

theorem samplePeers_spare : Payout.Spares sampleVault (fun w => w) samplePeers := by
  constructor
  · intro w source account epochs asset after amount other done
    cases done
    simp only [gains, sampleVault]
    by_cases same : other = asset
    · subst same
      simp
    · simp [same]
  · intro w asset account amount after other done apart
    simp only [samplePeers, ite_ok] at done
    rcases done with ⟨_, failed⟩ | ⟨_, done⟩
    · cases failed
    · cases done
      simp [gains, apart]

theorem Run.of_calls (start : State Holdings) (calls : List (Payout.Env × Payout.Action)) (test : State Holdings → Bool)
    (passes : (Transition.run (fun s call => do
        let payout ← Payout.step sampleVault (fun w => w) samplePeers s.payout call.1 call.2
        pure ⟨s.store, payout⟩) (fun _ _ => True) start calls).any test = true) :
    ∃ s, Run sample sampleVault (fun w => w) start s ∧ test s = true := by
  obtain ⟨s, reached, passed⟩ := Transition.run_passes _ _ calls _ test passes
  refine ⟨s, ?_, passed⟩
  refine reached.invariant .refl ?_
  intro before call after run taken
  obtain ⟨_, taken⟩ := taken
  simp only [bind_ok, pure_ok] at taken
  obtain ⟨payout, taken, rfl⟩ := taken
  exact run.tail (.payout samplePeers call.1 call.2 samplePeers_spare taken)

end Solonpad.Distributor
