import Solonpad.RewardDistributor

/-!
The payout vault's debts. Every call is a chain of two moves on the money: a source stages an amount
that the vault received, or an account's whole debt in an asset goes out. By them the liability is
the sum of the debts, the balance covers it, and a debt and what was paid of it are what the sources
staged. A visit or an attempt that fails makes no move for its account.
-/

namespace Solonpad.Payout

open Checked RunningTotal
open Chain (Address)

variable {W : Type} {c : Config} {b : Balance W} {x : Peers W} {s after : State W}
  {account asset amount : Nat} {source : Address} {store : Store} {sources : List Address}

/-! The two moves. -/

@[simp]
theorem owe_ready (s : Store) (account asset amount a other : Nat) :
    (s.owe account asset amount).readyRaw a other =
      if a = account ∧ other = asset then amount else s.readyRaw a other := by
  by_cases own : a = account
  · subst own
    by_cases same : other = asset
    · subst same
      simp [Store.owe]
    · simp [Store.owe, same]
  · simp [Store.owe, own]

@[simp]
theorem note_staged (s : Store) (source account asset amount from_ a other : Nat) :
    (s.note source account asset amount).staged from_ a other = s.staged from_ a other +
      if from_ = source ∧ a = account ∧ other = asset then amount else 0 := by
  by_cases told : from_ = source
  · subst told
    by_cases own : a = account
    · subst own
      by_cases same : other = asset
      · subst same
        simp [Store.note]
      · simp [Store.note, same]
    · simp [Store.note, own]
  · simp [Store.note, told]

/-- The store once an amount is staged. -/
def Store.credited (s : Store) (source account asset amount : Nat) : Store :=
  { (s.owe account asset (s.readyRaw account asset + amount)).note source account asset amount with
    totalLiability := Function.update s.totalLiability asset (s.totalLiability asset + amount) }

/-- The store once an account's debt is paid. -/
def Store.cleared (s : Store) (account asset : Nat) : Store :=
  { s.owe account asset 0 with
    paidTotal := Function.update s.paidTotal account (Function.update (s.paidTotal account) asset
      (s.paidTotal account asset + s.readyRaw account asset))
    totalLiability := Function.update s.totalLiability asset
      (s.totalLiability asset - s.readyRaw account asset) }

@[simp]
theorem credited_ready (s : Store) (source account asset amount a other : Nat) :
    (s.credited source account asset amount).readyRaw a other =
      if a = account ∧ other = asset then s.readyRaw account asset + amount else s.readyRaw a other :=
  owe_ready s account asset _ a other

@[simp]
theorem cleared_ready (s : Store) (account asset a other : Nat) :
    (s.cleared account asset).readyRaw a other =
      if a = account ∧ other = asset then 0 else s.readyRaw a other :=
  owe_ready s account asset 0 a other

theorem cleared_paid (s : Store) (account asset a other : Nat) :
    (s.cleared account asset).paidTotal a other = s.paidTotal a other +
      if a = account ∧ other = asset then s.readyRaw account asset else 0 := by
  by_cases own : a = account
  · subst own
    by_cases same : other = asset
    · subst same
      simp [Store.cleared]
    · simp [Store.cleared, same]
  · simp [Store.cleared, own]

/-- A source staged what the vault then held more. -/
structure Stages (c : Config) (b : Balance W) (s : State W) (source account asset amount : Nat)
    (after : State W) : Prop where
  store : after.store = s.store.credited source account asset amount
  received : b after.world asset c.self = b s.world asset c.self + amount
  others : ∀ other, b s.world other c.self ≤ b after.world other c.self

/-- A whole debt went out, or there was none. -/
structure Pays (c : Config) (b : Balance W) (s : State W) (account asset amount : Nat)
    (after : State W) : Prop where
  whole : amount = s.store.readyRaw account asset
  store : after.store = s.store.cleared account asset
  sent : b after.world asset c.self + amount = b s.world asset c.self
  others : ∀ other, other ≠ asset → b s.world other c.self ≤ b after.world other c.self

theorem stageCredit_stages {epochs : List Nat} (spares : Spares c b x)
    (done : stageCredit c b x s source account epochs asset = .ok (after, amount)) :
    Stages c b s source account asset amount after := by
  simp only [stageCredit, bind_ok, require_ok, pure_ok, Prod.mk.injEq] at done
  obtain ⟨_, _, _, _, ⟨world, brought⟩, staged, _, exact_, rfl, rfl⟩ := done
  constructor
  · rfl
  · exact exact_
  · intro other
    exact spares.stageCredit _ _ _ _ _ _ _ other staged

theorem Store.cleared_none (s : Store) (none : s.readyRaw account asset = 0) : s.cleared account asset = s := by
  have ready : (s.cleared account asset).readyRaw = s.readyRaw := by
    funext a other
    rw [cleared_ready]
    split
    · next own => rw [own.1, own.2, none]
    · rfl
  have paid : (s.cleared account asset).paidTotal = s.paidTotal := by
    funext a other
    rw [cleared_paid, none]
    simp
  have liability : (s.cleared account asset).totalLiability = s.totalLiability := by
    rw [Store.cleared, none, Nat.sub_zero]
    exact Function.update_eq_self asset s.totalLiability
  cases s
  simp only [Store.cleared, Store.owe, Store.mk.injEq] at ready paid liability ⊢
  exact ⟨trivial, ready, paid, liability, trivial, trivial, trivial, trivial, trivial, trivial⟩

theorem pay_pays (spares : Spares c b x) (done : pay c b x s account asset = .ok (after, amount)) :
    Pays c b s account asset amount after := by
  simp only [pay, ite_ok, pure_ok, Prod.mk.injEq] at done
  rcases done with ⟨none, rfl, rfl⟩ | ⟨some, done⟩
  · exact ⟨none.symm, (Store.cleared_none _ none).symm, rfl, fun _ _ => le_rfl⟩
  · simp only [bind_ok, require_ok, sub_ok, pure_ok, Prod.mk.injEq] at done
    obtain ⟨_, _, _, ⟨_, rfl⟩, world, moved, _, ⟨sent, _⟩, rfl, rfl⟩ := done
    constructor
    · rfl
    · rfl
    · exact sent
    · intro other apart
      exact spares.transfer _ _ _ _ _ other moved apart

theorem claimFor_pays {sender : Address} (spares : Spares c b x)
    (done : claimFor c b x s sender account asset = .ok (after, amount)) : Pays c b s account asset amount after := by
  simp only [claimFor, bind_ok, require_ok] at done
  obtain ⟨_, _, done⟩ := done
  exact pay_pays spares done

/-- The stores that differ in wiring only. -/
structure Wired (s after : Store) : Prop where
  readyRaw : after.readyRaw = s.readyRaw
  paidTotal : after.paidTotal = s.paidTotal
  totalLiability : after.totalLiability = s.totalLiability
  staged : after.staged = s.staged

inductive Move (c : Config) (b : Balance W) (s : State W) : State W → Prop where
  | wires {store : Store} (wired : Wired s.store store) : Move c b s ⟨store, s.world⟩
  | stages {source account asset amount : Nat} {after : State W}
      (stages : Stages c b s source account asset amount after) : Move c b s after
  | pays {account asset amount : Nat} {after : State W}
      (pays : Pays c b s account asset amount after) : Move c b s after

def Moves (c : Config) (b : Balance W) : State W → State W → Prop := Relation.ReflTransGen (Move c b)

theorem addSource_wired {next : Store} (done : addSource x store source = .ok next) : Wired store next := by
  simp only [addSource, bind_ok, require_ok, pure_ok] at done
  obtain ⟨_, _, rfl⟩ := done
  exact ⟨rfl, rfl, rfl, rfl⟩

theorem claimAssets_moves (spares : Spares c b x) (gas : Nat → Bool) (assets : List Address) (i : Nat) :
    Moves c b s (claimAssets c b x gas account i assets s).1 := by
  induction assets generalizing i s with
  | nil => exact .refl
  | cons asset rest ih =>
    rw [claimAssets]
    split
    · next next amount gone =>
      obtain ⟨_, paid⟩ := (attempted_some _ _ _).mp gone
      exact Relation.ReflTransGen.head (.pays (pay_pays spares paid)) (ih (i + 1))
    · exact ih (i + 1)

theorem wired_moves {call : Store → Tx Store} (done : s.wired call = .ok after)
    (wires : ∀ store, call s.store = .ok store → Wired s.store store) : Moves c b s after := by
  simp only [State.wired, bind_ok, pure_ok] at done
  obtain ⟨store, called, rfl⟩ := done
  exact .single (.wires (wires store called))

/-- Every call is a chain of moves. -/
theorem step_moves {env : Env} {action : Action} (spares : Spares c b x)
    (done : step c b x s env action = .ok after) : Moves c b s after := by
  cases action with
  | configureFactory factory =>
    simp only [step] at done
    apply wired_moves done
    intro store called
    simp only [configureFactory, bind_ok, require_ok, pure_ok] at called
    obtain ⟨_, _, rfl⟩ := called
    exact ⟨rfl, rfl, rfl, rfl⟩
  | registerSource source =>
    simp only [step] at done
    apply wired_moves done
    intro store called
    simp only [registerSource, bind_ok, require_ok] at called
    obtain ⟨_, _, called⟩ := called
    exact addSource_wired called
  | configureRewardModules desk staking =>
    simp only [step] at done
    apply wired_moves done
    intro store called
    simp only [configureRewardModules, bind_ok, require_ok, pure_ok] at called
    obtain ⟨_, _, _, _, rfl⟩ := called
    exact ⟨rfl, rfl, rfl, rfl⟩
  | configureDistributor distributor =>
    simp only [step] at done
    apply wired_moves done
    intro store called
    simp only [configureDistributor, bind_ok, require_ok, pure_ok] at called
    obtain ⟨_, _, rfl⟩ := called
    exact ⟨rfl, rfl, rfl, rfl⟩
  | stageCredit source account epochs asset =>
    simp only [step, bind_ok, pure_ok] at done
    obtain ⟨⟨next, amount⟩, staged, rfl⟩ := done
    exact .single (.stages (stageCredit_stages spares staged))
  | claim assets =>
    simp only [step, claim, bind_ok, require_ok, pure_ok] at done
    obtain ⟨_, ⟨_, _, rfl⟩, rfl⟩ := done
    exact claimAssets_moves spares env.gas assets 0
  | claimFor account asset =>
    simp only [step, bind_ok, pure_ok] at done
    obtain ⟨⟨next, amount⟩, paid, rfl⟩ := done
    exact .single (.pays (claimFor_pays spares paid))

/-! What the moves keep. -/

structure Sound (c : Config) (b : Balance W) (s : State W) : Prop where
  owed : ∀ asset, Totals (fun account => s.store.readyRaw account asset) (s.store.totalLiability asset)
  backed : ∀ asset, s.store.totalLiability asset ≤ b s.world asset c.self
  split : ∀ account asset, Totals (fun source => s.store.staged source account asset)
    (s.store.readyRaw account asset + s.store.paidTotal account asset)

theorem Sound.wired (sound : Sound c b s) (wired : Wired s.store store) : Sound c b ⟨store, s.world⟩ := by
  obtain ⟨ready, paid, liability, staged⟩ := wired
  constructor
  · rw [ready, liability]
    exact sound.owed
  · rw [liability]
    exact sound.backed
  · rw [staged, ready, paid]
    exact sound.split

theorem Sound.stages (sound : Sound c b s) (stages : Stages c b s source account asset amount after) :
    Sound c b after := by
  obtain ⟨store, received, others⟩ := stages
  constructor
  · intro other
    rw [store]
    by_cases same : other = asset
    · subst same
      apply (sound.owed other).moved account
      · intro a apart
        simp [apart]
      · simp only [credited_ready, and_self, if_true]
        simp only [Store.credited, Function.update_self]
        omega
    · refine (sound.owed other).of_eq (fun a => ?_) ?_
      · simp [same]
      · simp [Store.credited, same]
  · intro other
    rw [store]
    have covered := sound.backed other
    by_cases same : other = asset
    · subst same
      simp only [Store.credited, Function.update_self]
      omega
    · have grown := others other
      simp only [Store.credited, Function.update_of_ne same]
      omega
  · intro a other
    rw [store]
    have noted : ∀ from_, (s.store.credited source account asset amount).staged from_ a other =
        s.store.staged from_ a other +
          if from_ = source ∧ a = account ∧ other = asset then amount else 0 :=
      fun from_ => note_staged _ source account asset amount from_ a other
    by_cases own : a = account ∧ other = asset
    · apply (sound.split a other).moved source
      · intro from_ apart
        rw [noted, if_neg (fun told => apart told.1)]
        rfl
      · rw [noted, if_pos ⟨rfl, own⟩, credited_ready, if_pos own, own.1, own.2]
        simp only [Store.credited, Store.note, Store.owe]
        omega
    · refine (sound.split a other).of_eq (fun from_ => ?_) ?_
      · rw [noted, if_neg (fun told => own told.2)]
        rfl
      · rw [credited_ready, if_neg own]
        rfl

theorem Sound.pays (sound : Sound c b s) (pays : Pays c b s account asset amount after) : Sound c b after := by
  obtain ⟨rfl, store, sent, others⟩ := pays
  have held := (sound.owed asset).entry_le account
  constructor
  · intro other
    rw [store]
    by_cases same : other = asset
    · subst same
      apply (sound.owed other).moved account
      · intro a apart
        simp [apart]
      · simp only [Store.cleared, Function.update_self, owe_ready, and_self, if_true]
        omega
    · refine (sound.owed other).of_eq (fun a => ?_) ?_
      · simp [same]
      · simp [Store.cleared, same]
  · intro other
    rw [store]
    have covered := sound.backed other
    by_cases same : other = asset
    · subst same
      simp only [Store.cleared, Function.update_self]
      omega
    · have grown := others other same
      simp only [Store.cleared, Function.update_of_ne same]
      omega
  · intro a other
    rw [store]
    refine (sound.split a other).of_eq (fun from_ => rfl) ?_
    rw [cleared_ready, cleared_paid]
    split
    · next own =>
      rw [own.1, own.2]
      omega
    · omega

theorem Move.sound (move : Move c b s after) (sound : Sound c b s) : Sound c b after := by
  cases move with
  | wires wired => exact sound.wired wired
  | stages stages => exact sound.stages stages
  | pays pays => exact sound.pays pays

theorem Moves.sound (moves : Moves c b s after) (sound : Sound c b s) : Sound c b after := by
  induction moves with
  | refl => exact sound
  | tail _ move ih => exact move.sound ih

theorem deploy_wired {next : Store} (done : deploy x sources store = .ok next) : Wired store next := by
  induction sources generalizing store with
  | nil =>
    cases done
    exact ⟨rfl, rfl, rfl, rfl⟩
  | cons source rest ih =>
    simp only [deploy, bind_ok] at done
    obtain ⟨middle, added, done⟩ := done
    obtain ⟨ready, paid, liability, staged⟩ := addSource_wired added
    obtain ⟨ready', paid', liability', staged'⟩ := ih done
    exact ⟨ready'.trans ready, paid'.trans paid, liability'.trans liability, staged'.trans staged⟩

theorem deployed_sound (world : W) (done : deploy x sources .empty = .ok store) : Sound c b ⟨store, world⟩ := by
  have empty : Sound c b ⟨.empty, world⟩ := by
    constructor
    · intro asset
      exact .zero
    · intro asset
      exact Nat.zero_le _
    · intro account asset
      exact .zero
  exact empty.wired (deploy_wired done)

end Solonpad.Payout
