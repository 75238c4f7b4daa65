import Solonpad.FloatRoute

/-!
A rebalance ends once. For each id the rebalancer's record, the adapter's leg and what the receiver passed on
fit together, and a message on the wire fits them until it is executed: so a report finds its rebalance
open, a return as well, and never both are on their way for one id. The figures over all ids follow one id at
a time.
-/

namespace Solonpad.FloatRoute

open Checked CctpV2 Transition RunningTotal
open FloatRebalancer (Rebalance)
open FloatAdapter (Leg)

/-! What the three contracts say about one id. -/

/-- Sent or quarantined. -/
def Live (r : Rebalance) : Prop := r.state = .sent ∨ r.state = .quarantined

instance (r : Rebalance) : Decidable (Live r) := inferInstanceAs (Decidable (_ ∨ _))

def flying (r : Rebalance) : Nat := if Live r then r.amount else 0

/-- The USDC a leg is kept for: attested, and neither converted nor returned. -/
def holdsUsdc (l : Leg) : Nat :=
  match l.state with
  | .attested => l.usdc
  | .quarantined => if l.usdg = 0 then l.usdc else 0
  | _ => 0

/-- The USDG a leg is kept for: converted and not bridged. -/
def holdsUsdg (l : Leg) : Nat :=
  match l.state with
  | .converted | .quarantined => l.usdg
  | _ => 0

structure Fits (r : Rebalance) (l : Leg) (got : Nat) : Prop where
  priced : r.state ≠ .none → r.minUSDG ≠ 0
  legged : l.state ≠ .none → r.state ≠ .none ∧ l.usdc = r.amount ∧ l.minUSDG = r.minUSDG
  unconverted : l.state = .attested → l.usdg = 0
  converted : l.state = .converted → l.usdg ≠ 0
  passed : got ≠ 0 → l.state = .bridging ∧ r.minUSDG ≤ got
  finalized : r.state = .finalized → got = r.received ∧ got ≠ 0
  returned : r.state = .returned → l.state = .returned ∧ r.returned = r.amount

inductive Message where
  | burn (m : Parsed StartHook)
  | transfer (m : Compose)
  | compose (m : Compose)
  | receipt (m : Receipt)
  | comeback (m : Parsed Id)

def Message.id : Message → Id
  | .burn m => m.hookData.id
  | .transfer m | .compose m => m.id
  | .receipt m => m.id
  | .comeback m => m.hookData

def State.wire (s : State) : Message → Prop
  | .burn m => m ∈ s.burns
  | .transfer m => m ∈ s.transfers
  | .compose m => m ∈ s.composes
  | .receipt m => m ∈ s.receipts
  | .comeback m => m ∈ s.returns

variable (c : Config)

/-- What a message on the wire says about its id. -/
def Message.Fits (r : Rebalance) (l : Leg) (got : Nat) : Message → Prop
  | .burn m => r.state ≠ .none ∧ r.amount = m.amount ∧ r.minUSDG = m.hookData.minUSDG
  | .transfer m | .compose m => l.state = .bridging ∧ r.minUSDG ≤ m.amount
  | .receipt m => got = m.received ∧ got ≠ 0 ∧ Live r
  | .comeback m => l.state = .returned ∧ Live r ∧ m.amount = r.amount ∧
      m = returnMessage c m.nonce m.amount m.hookData

/-- The ids of all three contracts and of the wire. -/
structure Tracked (s : State) : Prop where
  each : ∀ id, FloatRoute.Fits (s.rebalancer.rebalances id) (s.adapter.legs id) (s.receiver.received id)
  wire : ∀ message, s.wire message → message.Fits c (s.rebalancer.rebalances message.id)
    (s.adapter.legs message.id) (s.receiver.received message.id)
  reports : (s.receipts.map Receipt.id).Nodup
  comebacks : (s.returns.map Parsed.hookData).Nodup
  credits : ∀ id, s.receiver.credits.filter (fun credit => credit.1 = id) =
    if s.receiver.received id = 0 then [] else [(id, s.receiver.received id)]

structure Sound (s : State) : Prop extends Tracked c s where
  flight : Totals (fun id => flying (s.rebalancer.rebalances id)) s.rebalancer.inFlight
  usdc : ∃ total, Totals (fun id => holdsUsdc (s.adapter.legs id)) total ∧ total ≤ s.adapter.usdc
  usdg : ∃ total, Totals (fun id => holdsUsdg (s.adapter.legs id)) total ∧ total ≤ s.adapter.usdg

variable {c} {s after : State}

theorem deployed_sound (balance rhReceiver native : Nat) : Sound c (deployed balance rhReceiver native) where
  each := fun _ => ⟨fun some => absurd rfl some, fun some => absurd rfl some, fun _ => rfl, nofun,
    fun some => absurd rfl some, nofun, nofun⟩
  wire := by
    intro message member
    cases message <;> exact absurd member List.not_mem_nil
  reports := .nil
  comebacks := .nil
  credits := fun _ => rfl
  flight := Totals.zero
  usdc := ⟨0, Totals.zero, Nat.le_refl _⟩
  usdg := ⟨0, Totals.zero, Nat.le_refl _⟩

/-- One id changes; the messages for the others were on the wire before. -/
theorem Tracked.change (tracked : Tracked c s) (id : Id)
    (records : ∀ other, other ≠ id → after.rebalancer.rebalances other = s.rebalancer.rebalances other)
    (legs : ∀ other, other ≠ id → after.adapter.legs other = s.adapter.legs other)
    (received : ∀ other, other ≠ id → after.receiver.received other = s.receiver.received other)
    (fits : FloatRoute.Fits (after.rebalancer.rebalances id) (after.adapter.legs id) (after.receiver.received id))
    (others : ∀ message, after.wire message → message.id ≠ id → s.wire message)
    (own : ∀ message, after.wire message → message.id = id →
      message.Fits c (after.rebalancer.rebalances id) (after.adapter.legs id) (after.receiver.received id))
    (reports : (after.receipts.map Receipt.id).Nodup) (comebacks : (after.returns.map Parsed.hookData).Nodup)
    (credits : ∀ id, after.receiver.credits.filter (fun credit => credit.1 = id) =
      if after.receiver.received id = 0 then [] else [(id, after.receiver.received id)]) :
    Tracked c after where
  each := by
    intro other
    by_cases same : other = id
    · subst same
      exact fits
    · rw [records other same, legs other same, received other same]
      exact tracked.each other
  wire := by
    intro message member
    by_cases same : message.id = id
    · rw [same]
      exact own message member same
    · rw [records _ same, legs _ same, received _ same]
      exact tracked.wire message (others message member same)
  reports := reports
  comebacks := comebacks
  credits := credits

/-- A total over the ids after a change under one of them. -/
theorem covered_change {table : Id → Nat} {held : Nat} (covered : ∃ total, Totals table total ∧ total ≤ held)
    (id : Id) {next : Id → Nat} (others : ∀ other, other ≠ id → next other = table other) {left : Nat}
    (moved : held + next id ≤ left + table id) : ∃ total, Totals next total ∧ total ≤ left := by
  obtain ⟨total, sums, within⟩ := covered
  obtain ⟨other, changed, balanced⟩ := sums.changed id others
  exact ⟨other, changed, by omega⟩

/-! Facts about one id. -/

variable {r : Rebalance} {l : Leg} {got : Nat} {message : Message}

/-- Before a start nothing is known of an id. -/
theorem Fits.fresh (fits : FloatRoute.Fits r l got) (none : r.state = .none) : l.state = .none ∧ got = 0 := by
  have leg : l.state = .none := by
    by_contra some
    exact (fits.legged some).1 none
  refine ⟨leg, ?_⟩
  by_contra some
  have bridging := (fits.passed some).1
  rw [leg] at bridging
  cases bridging

theorem Message.Fits.started (said : message.Fits c r l got) (fits : FloatRoute.Fits r l got) : r.state ≠ .none := by
  intro none
  obtain ⟨leg, nothing⟩ := fits.fresh none
  cases message with
  | burn m => exact said.1 none
  | transfer m | compose m =>
    rw [Message.Fits, leg] at said
    cases said.1
  | receipt m => exact said.2.1 nothing
  | comeback m =>
    rw [Message.Fits, leg] at said
    cases said.1

/-- A leg that is neither bridging nor returned belongs to an open rebalance nothing was passed on for. -/
theorem Fits.running (fits : FloatRoute.Fits r l got) (leg : l.state ≠ .none) (unbridged : l.state ≠ .bridging)
    (kept : l.state ≠ .returned) : got = 0 ∧ Live r := by
  have nothing : got = 0 := by
    by_contra some
    exact unbridged (fits.passed some).1
  refine ⟨nothing, ?_⟩
  have started := (fits.legged leg).1
  cases state : r.state with
  | none => exact absurd state started
  | sent => exact .inl state
  | finalized => exact absurd nothing (fits.finalized state).2
  | quarantined => exact .inr state
  | returned => exact absurd (fits.returned state).1 kept

/-- So does a bridged leg until the receiver has passed its money on. -/
theorem Fits.bridged (fits : FloatRoute.Fits r l got) (bridging : l.state = .bridging) (nothing : got = 0) :
    Live r := by
  have started := (fits.legged (by rw [bridging]; nofun)).1
  cases state : r.state with
  | none => exact absurd state started
  | sent => exact .inl state
  | finalized => exact absurd nothing (fits.finalized state).2
  | quarantined => exact .inr state
  | returned =>
    have back := (fits.returned state).1
    rw [bridging] at back
    cases back

/-- Nothing was passed on for a leg that went back. -/
theorem Fits.silent (fits : FloatRoute.Fits r l got) (kept : l.state = .returned) : got = 0 := by
  by_contra some
  have bridging := (fits.passed some).1
  rw [kept] at bridging
  cases bridging

/-- A message fits through a change of the leg that no message on the wire speaks of. -/
theorem Message.Fits.leg (said : message.Fits c r l got) {next : Leg} (unbridged : l.state ≠ .bridging)
    (kept : l.state ≠ .returned) : message.Fits c r next got := by
  cases message with
  | burn m => exact said
  | transfer m | compose m => exact absurd said.1 unbridged
  | receipt m => exact said
  | comeback m => exact absurd said.1 kept

/-- A message that ends its rebalance. -/
def Message.Ends : Message → Prop
  | .receipt _ | .comeback _ => True
  | _ => False

/-- It fits through a change of the record as well, one that ends it only while the record stays open. -/
theorem Message.Fits.record (said : message.Fits c r l got) {next : Rebalance} (started : next.state ≠ .none)
    (amount : next.amount = r.amount) (minimum : next.minUSDG = r.minUSDG) (live : message.Ends → Live next) :
    message.Fits c next l got := by
  cases message with
  | burn m => exact ⟨started, amount.trans said.2.1, minimum.trans said.2.2⟩
  | transfer m | compose m => exact ⟨said.1, minimum ▸ said.2⟩
  | receipt m => exact ⟨said.1, said.2.1, live trivial⟩
  | comeback m => exact ⟨said.1, live trivial, said.2.2.1.trans amount.symm, said.2.2.2⟩

theorem Live.started (live : Live r) : r.state ≠ .none := by
  rcases live with state | state <;> rw [state] <;> nofun

theorem Live.unfinalized (live : Live r) : r.state ≠ .finalized := by
  rcases live with state | state <;> rw [state] <;> nofun

theorem Live.unreturned (live : Live r) : r.state ≠ .returned := by
  rcases live with state | state <;> rw [state] <;> nofun

theorem flying_open (live : Live r) : flying r = r.amount := if_pos live

theorem flying_ended (ended : r.state = .finalized ∨ r.state = .returned) : flying r = 0 :=
  if_neg (fun live => ended.elim live.unfinalized live.unreturned)

/-! The wire. -/

theorem erased_apart {α : Type} {list : List α} {key : α → Id} (once : (list.map key).Nodup) {index : Nat}
    {message other : α} (found : list[index]? = some message) (left : other ∈ list.eraseIdx index) :
    key other ≠ key message := by
  intro same
  obtain ⟨place, apart, there⟩ := List.mem_eraseIdx_iff_getElem?.mp left
  have first : (list.map key)[index]? = some (key message) := by simp [found]
  have second : (list.map key)[place]? = some (key message) := by simp [there, same]
  have bound := (List.getElem?_eq_some_iff.mp second).1
  exact apart ((List.getElem?_inj bound once).mp (second.trans first.symm))

theorem erased_nodup {α : Type} {list : List α} {key : α → Id} (once : (list.map key).Nodup) (index : Nat) :
    ((list.eraseIdx index).map key).Nodup :=
  once.sublist ((List.eraseIdx_sublist list index).map key)

end Solonpad.FloatRoute
