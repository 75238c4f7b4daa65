import Solonpad.RoundLedger

/-!
Rounds only move forward. A round keeps its order, its adapter, its submission and its request to cancel, and its status
takes one of the ways from reserved to an end; a sealed epoch and a consumed orphan stay so. No round is ever
quarantined.
-/

namespace Solonpad.Rounds

open Checked
open Chain (Address)

/-- The statuses that a round may be found in after one. -/
def Status.leads : Status → Status → Bool
  | .none, later => later != .quarantined
  | .reserved, later => later != .none && later != .quarantined
  | .funding, later => later == .funding || later == .funded || later == .submitted || later == .settled ||
    later == .refunded
  | .funded, later => later == .funded || later == .submitted || later == .settled || later == .refunded
  | .submitted, later => later == .submitted || later == .settled || later == .refunded
  | .settled, later => later == .settled
  | .quarantined, later => later == .quarantined
  | .refunded, later => later == .refunded
  | .cancelledUnsent, later => later == .cancelledUnsent

theorem Status.leads_self (status : Status) : status.leads status = true := by
  cases status <;> rfl

theorem Status.leads_trans {first second third : Status} (one : first.leads second = true)
    (two : second.leads third = true) : first.leads third = true := by
  cases first <;> cases second <;> cases third <;>
    first | rfl | exact absurd one (by decide) | exact absurd two (by decide)

variable {status : Status} {r : Round}

theorem Status.leads_known {later : Status} (leads : status.leads later = true) (held : status ≠ .none) :
    later ≠ .none := by
  rintro rfl
  cases status <;> first | exact held rfl | exact absurd leads (by decide)

/-- The order of the round was handed to its adapter. -/
def Status.started : Status → Bool
  | .funding | .funded | .submitted | .quarantined | .settled | .refunded => true
  | .none | .reserved | .cancelledUnsent => false

/-- The round has its result. -/
def Status.final : Status → Bool
  | .settled | .refunded => true
  | _ => false

theorem Status.final_stays {later : Status} (held : status.final = true) (leads : status.leads later = true) :
    later.final = true := by
  cases status <;> cases later <;>
    first | rfl | exact absurd held (by decide) | exact absurd leads (by decide)

theorem Status.started_stays {later : Status} (held : status.started = true)
    (leads : status.leads later = true) : later.started = true := by
  cases status <;> cases later <;>
    first | rfl | exact absurd held (by decide) | exact absurd leads (by decide)

theorem Round.awaits.started (awaits : r.awaits) : r.status.started = true := by
  rcases awaits with held | held | held | held <;> rw [held] <;> rfl

/-- What stays of a round when it is rewritten. -/
structure Progress (r next : Round) : Prop where
  status : r.status.leads next.status = true
  order : r.status ≠ .none → next.adapter = r.adapter ∧ next.orderId = r.orderId
  submitted : r.submittedAt ≠ 0 → next.submittedAt ≠ 0
  cancel : r.cancelRequested = true → next.cancelRequested = true

theorem Progress.refl (r : Round) : Progress r r := ⟨r.status.leads_self, fun _ => ⟨rfl, rfl⟩, id, id⟩

theorem Progress.trans {middle next : Round} (first : Progress r middle) (second : Progress middle next) :
    Progress r next where
  status := Status.leads_trans first.status second.status
  order held := by
    have known : middle.status ≠ .none := Status.leads_known first.status held
    obtain ⟨adapter, orderId⟩ := first.order held
    obtain ⟨adapter', orderId'⟩ := second.order known
    exact ⟨adapter'.trans adapter, orderId'.trans orderId⟩
  submitted held := second.submitted (first.submitted held)
  cancel held := second.cancel (first.cancel held)

structure Later (s after : Store) : Prop where
  sealed : ∀ key, s.sealedSource key = true → after.sealedSource key = true
  orphan : ∀ id, s.orphanConsumed id = true → after.orphanConsumed id = true
  rounds : ∀ id, Progress (s.rounds id) (after.rounds id)

variable {s after : Store}

theorem Later.refl (s : Store) : Later s s := ⟨fun _ held => held, fun _ held => held, fun _ => .refl _⟩

theorem Later.same (sealed : after.sealedSource = s.sealedSource) (orphan : after.orphanConsumed = s.orphanConsumed)
    (rounds : after.rounds = s.rounds) : Later s after where
  sealed _ held := sealed ▸ held
  orphan _ held := orphan ▸ held
  rounds _ := rounds ▸ .refl _

/-- One round is rewritten. -/
theorem Later.rewritten {id : RoundId} (sealed : after.sealedSource = s.sealedSource)
    (orphan : after.orphanConsumed = s.orphanConsumed) (rounds : after.rounds = Function.update s.rounds id r)
    (follows : Progress (s.rounds id) r) : Later s after where
  sealed _ held := sealed ▸ held
  orphan _ held := orphan ▸ held
  rounds other := by
    rw [rounds]
    by_cases same : other = id
    · subst same
      rwa [Function.update_self]
    · rw [Function.update_of_ne same]
      exact .refl _

/-- A round that keeps all but its status, which moves on. -/
theorem Progress.restatus {next : Round} (status : r.status.leads next.status = true)
    (adapter : next.adapter = r.adapter) (orderId : next.orderId = r.orderId)
    (submitted : next.submittedAt = r.submittedAt) (cancel : next.cancelRequested = r.cancelRequested) :
    Progress r next where
  status := status
  order _ := ⟨adapter, orderId⟩
  submitted held := submitted ▸ held
  cancel held := cancel ▸ held

/-- No round is quarantined. -/
def Calm (s : Store) : Prop := ∀ id, (s.rounds id).status ≠ .quarantined

theorem Calm.empty : Calm Store.empty := fun _ => nofun

theorem Status.leads_calm {later : Status} (leads : status.leads later = true)
    (calm : status ≠ .quarantined) : later ≠ .quarantined := by
  rintro rfl
  cases status <;> first | exact calm rfl | exact absurd leads (by decide)

theorem Calm.later (calm : Calm s) (later : Later s after) : Calm after := fun id =>
  Status.leads_calm (later.rounds id).status (calm id)

variable {W : Type} {c : Config} {b : Balances W} {x : Peers W} {now : Nat} {st next : State W}

theorem awaits_final {r : Round} (awaits : r.awaits) (calm : r.status ≠ .quarantined) (status : Status)
    (final : status.final = true) : r.status.leads status = true := by
  rcases awaits with held | held | held | held
  · rw [held]
    cases status <;> first | rfl | cases final
  · exact absurd held calm
  · rw [held]
    cases status <;> first | rfl | cases final
  · rw [held]
    cases status <;> first | rfl | cases final

theorem move_later (spares : Spares b x) (booked : Booked st.store) (calm : Calm st.store) (clock : 0 < now)
    (move : Move c b x now st next) : Later st.store next.store := by
  cases move with
  | wires wired =>
    have same := wired.same
    rw [wired]
    exact .same rfl rfl rfl
  | @seals source _ epoch cohort _ _ _ _ _ answer received registered =>
    refine ⟨?_, fun _ held => held, fun _ => .refl _⟩
    intro key held
    simp only [Store.sealed]
    by_cases same : key = (source, epoch, cohort)
    · rw [same, Function.update_self]
    · rwa [Function.update_of_ne same]
  | @reserves policy route minRaw deadline items first store _ routed minimum some taken costs reserved =>
    have fresh : st.store.rounds (st.store.nextRoundId + 1) = Round.blank :=
      (booked.fresh _ (Nat.lt_succ_self _)).1
    have rest := taken.rest
    refine ⟨?_, ?_, ?_⟩
    · intro key held
      simp only [Store.linked, Store.setRound]
      rw [rest]
      exact held
    · intro id held
      simp only [Store.linked, Store.setRound]
      rw [rest]
      exact held
    · intro id
      simp only [Store.linked, Store.setRound]
      by_cases same : id = st.store.nextRoundId + 1
      · -- A new round was blank.
        rw [same, fresh, Function.update_self]
        exact ⟨rfl, fun known => absurd rfl known, fun held => absurd rfl held, fun held => by cases held⟩
      · rw [Function.update_of_ne same, taken.others id same]
        simp only [Store.opened, Store.setRound, Function.update_of_ne same]
        exact .refl _
  | @starts id _ status sent =>
    refine .rewritten rfl rfl rfl (.restatus ?_ rfl rfl rfl rfl)
    rw [status]
    rfl
  | @pokes id status funded =>
    refine .rewritten rfl rfl rfl (.restatus ?_ rfl rfl rfl rfl)
    rcases status with status | ⟨status, _⟩
    · rw [status]
      rfl
    · exact absurd status (calm id)
  | @submits id _ status sent =>
    refine .rewritten rfl rfl rfl ⟨?_, fun _ => ⟨rfl, rfl⟩, fun _ => Nat.ne_of_gt clock, fun held => held⟩
    rw [status]
    rfl
  | @cancels id _ _ status covered released told =>
    refine .rewritten rfl rfl rfl (.restatus ?_ rfl rfl rfl rfl)
    rw [status]
    rfl
  | @requests id _ status sent =>
    exact .rewritten rfl rfl rfl ⟨Status.leads_self _, fun _ => ⟨rfl, rfl⟩, fun held => held, fun _ => rfl⟩
  | waits status consumed => exact .refl _
  | @refunds id _ _ _ status covered answer back released told =>
    exact .rewritten rfl rfl rfl (.restatus (awaits_final status (calm id) .refunded rfl) rfl rfl rfl rfl)
  | @settles id raw _ _ parts paid status sent enough covered answer recorded released told =>
    obtain ⟨store, _⟩ := recordParts_ok spares parts recorded
    have rounds : paid.store.rounds = Function.update st.store.rounds id { st.store.rounds id with
        delivered := raw, status := .settled } := by
      rw [store]
      rfl
    refine .rewritten ?_ ?_ rounds (.restatus (awaits_final status (calm id) .settled rfl) rfl rfl rfl rfl)
    · rw [store]
      rfl
    · rw [store]
      rfl
  | @orphans id _ _ _ status first answer sent =>
    refine ⟨fun _ held => held, ?_, fun _ => .refl _⟩
    intro other held
    dsimp only
    by_cases same : other = id
    · rw [same, Function.update_self]
    · rwa [Function.update_of_ne same]

end Solonpad.Rounds
