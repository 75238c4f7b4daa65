import Solonpad.EthereumBridger
import Solonpad.HubDeliveries
import Solonpad.HubSolvency
import Solonpad.VaultResults

/-!
The canonical lane from Arc to the reserve: the hub hands deliveries over, anyone relays each attested one
once and in any order, and a ticket calls the vault or lapses. The bridger keeps one delivery a ref, so a
relay puts the one relayed before it out of reach. That one may still have money to hand over when it was
sent after the other; relayed in the order they were sent, every delivery with something left to do is the
one a retry creates.
-/

namespace Solonpad.CanonicalLane

open Checked Messages Transition
open Chain (Address)

structure Config where
  hub : Hub.Config
  bridger : Bridger.Config
  vault : Vault.Config

structure State where
  hub : Hub.State
  bridger : Bridger.State Nat
  vault : Vault.State
  /-- The places of the hub's deliveries that were relayed. -/
  relayed : List Nat
  /-- The places of the tickets that were executed or have lapsed. -/
  closed : List Nat

/-- Which party refuses. -/
inductive Refusal where
  | hub | bridger | vault | spent | absent
  deriving DecidableEq

abbrev Tx (α : Type) := Checked.Tx Refusal α

variable (c : Config)

def deployed (bridgerUsdc : Nat) (vaultOwner : Address) : State where
  hub := Hub.deployed c.hub
  bridger := Bridger.deployed bridgerUsdc
  vault := Vault.deployed vaultOwner c.bridger.self
  relayed := []
  closed := []

def Config.alias (c : Config) : Address := Vault.applyL1ToL2Alias c.bridger.self

def found {α : Type} (list : List α) (index : Nat) : Tx α :=
  match list[index]? with
  | some value => .ok value
  | none => .error (.revert .absent)

/-- The attested burn of the gate for a delivery. -/
def attested (d : Deliver) (index amount : Nat) : CctpV2.Parsed Deliver where
  sourceDomain := c.bridger.arcDomain
  nonce := index
  sender := c.bridger.arcTokenMessenger
  mintRecipient := c.bridger.self
  amount := amount
  messageSender := c.bridger.gate
  hookData := d

inductive Action where
  | hub (call : Hub.Call)
  /-- A call on the reserve chain that is no ticket. -/
  | vault (call : Vault.Call)
  | relay (index amount : Nat) (accepted : Bool)
  | retry (ref : Ref) (accepted : Bool)
  | execute (index : Nat) (fill : Option Vault.Fill) (accepted : Bool)
  | lapse (index : Nat)

def step (s : State) : Action → Tx State
  | .hub call => do
    let hub ← Checked.relay .hub (Hub.step c.hub s.hub call)
    pure { s with hub := hub }
  | .vault call => do
    require (call.sender ≠ c.alias) .vault
    let vault ← Checked.relay .vault (Vault.step c.vault s.vault call)
    pure { s with vault := vault }
  | .relay index amount accepted => do
    require (index ∉ s.relayed) .spent
    let d ← found s.hub.deliveries index
    let bridger ← Checked.relay .bridger
      (Bridger.relay c.bridger s.bridger (attested c d index amount) true accepted)
    pure { s with bridger := bridger, relayed := index :: s.relayed }
  | .retry ref accepted => do
    let bridger ← Checked.relay .bridger (Bridger.retry s.bridger ref accepted)
    pure { s with bridger := bridger }
  | .execute index fill accepted => do
    require (index ∉ s.closed) .spent
    let d ← found s.bridger.tickets index
    let vault ← Checked.relay .vault (Vault.deliver c.vault s.vault c.alias d fill accepted)
    pure { s with vault := vault, closed := index :: s.closed }
  | .lapse index => pure { s with closed := index :: s.closed }

def accepts (s : State) (action : Action) (after : State) : Prop := step c s action = .ok after

/-- What the channels promise: the vault gets orders from the hub, and the hub results from the vault. -/
def Genuine (s : State) : Action → Prop
  | .hub call => match call.action.result with
    | some (r, _) => r ∈ s.vault.results
    | none => True
  | .vault call => match call.action with
    | .lzReceive _ o _ _ => o ∈ s.hub.packets
    | _ => True
  | _ => True

instance (s : State) (action : Action) : Decidable (Genuine s action) := by
  unfold Genuine
  cases action with
  | hub call => dsimp only; split <;> infer_instance
  | vault call => dsimp only; split <;> infer_instance
  | relay | retry | execute | lapse => exact instDecidableTrue

/-- Executed now for a sender, the delivery would change more than the vault's event log. -/
def Changes (c : Vault.Config) (sender : Address) (vault : Vault.State) (d : Deliver) : Prop :=
  ∃ fill accepted after, Vault.deliver c vault sender d fill accepted = .ok after ∧
    { after with events := vault.events } ≠ vault

/-- A retry creates the ticket that does it. -/
def Retriable (s : State) : Prop :=
  ∀ index ∈ s.relayed, ∀ d, s.hub.deliveries[index]? = some d → Changes c.vault c.alias s.vault d →
    ∃ after, Bridger.retry s.bridger d.ref true = .ok after ∧
      after.tickets = s.bridger.tickets ++ [d]

/-- Before a delivery only those for its ref were relayed that the hub sent earlier, and with shares. -/
def InOrder (s : State) : Action → Prop
  | .relay index _ _ => ∀ earlier ∈ s.relayed,
      match s.hub.deliveries[earlier]?, s.hub.deliveries[index]? with
      | some d, some e => d.ref = e.ref → earlier < index ∧ d.shares ≠ 0
      | _, _ => True
  | _ => True

instance (s : State) (action : Action) : Decidable (InOrder s action) := by
  unfold InOrder
  cases action with
  | relay index amount accepted =>
    dsimp only
    refine @List.decidableBAll _ _ (fun earlier => ?_) _
    split <;> infer_instance
  | hub | vault | retry | execute | lapse => exact instDecidableTrue

variable {c} {s after : State}

theorem found_ok {α : Type} (list : List α) (index : Nat) (value : α) :
    found list index = .ok value ↔ list[index]? = some value := by
  unfold found
  split
  · next same => simp [same]
  · next none => simp [none]

/-! The vault's side. -/

def Answered (s : State) (ref : Ref) : Prop := s.vault.settled ref = true

/-- For a settled ref a delivery of shares does nothing. -/
theorem settled_unchanged {c : Vault.Config} {sender : Address} {vault : Vault.State} {d : Deliver}
    (settled : vault.settled d.ref = true) (shares : d.shares ≠ 0) : ¬ Changes c sender vault d := by
  rintro ⟨fill, accepted, after, done, changed⟩
  simp only [Vault.deliver, bind_ok, require_ok, if_pos settled, if_neg shares, pure_ok] at done
  obtain ⟨_, _, rfl⟩ := done
  exact changed rfl

theorem vault_kept {vault next : Vault.State} {call : Vault.Call} (orderly : vault.book.Orderly)
    (move : Vault.Move c.vault vault call next) :
    next.book.Orderly ∧ ∀ ref, vault.settled ref = true → next.settled ref = true :=
  ⟨Vault.bookMove_orderly orderly (Vault.move_book move), Vault.bookMove_settled (Vault.move_book move)⟩

/-! What every state keeps. -/

structure Sound (s : State) : Prop where
  regular : Hub.Regular s.hub
  orderly : s.vault.book.Orderly
  sent : Hub.Sent (Answered s) s.hub
  /-- A relayed delivery is the one kept for its ref, or it brought shares to a ref that is settled. -/
  last : ∀ index ∈ s.relayed, ∀ d, s.hub.deliveries[index]? = some d →
    s.bridger.relayed d.ref = true ∧
      (s.bridger.deliveries d.ref = d ∨ d.shares ≠ 0 ∧ Answered s d.ref)
  /-- Only what the hub sent was relayed. -/
  there : ∀ index ∈ s.relayed, index < s.hub.deliveries.length

theorem deployed_sound (bridgerUsdc : Nat) (vaultOwner : Address) : Sound (deployed c bridgerUsdc vaultOwner) where
  regular := Hub.deployed_regular
  orderly := Vault.deployed_orderly _ _
  sent := Hub.deployed_sent
  last := fun _ member => absurd member List.not_mem_nil
  there := fun _ member => absurd member List.not_mem_nil

/-- A vault that settled some more refs. -/
theorem Sound.vault (sound : Sound s) (vault : Vault.State) (closed : List Nat)
    (orderly : vault.book.Orderly) (more : ∀ ref, s.vault.settled ref = true → vault.settled ref = true) :
    Sound { s with vault := vault, closed := closed } where
  regular := sound.regular
  orderly := orderly
  sent := sound.sent.mono more
  last := by
    intro index member d here
    obtain ⟨relayed, kept⟩ := sound.last index member d here
    exact ⟨relayed, kept.imp id fun dead => ⟨dead.1, more _ dead.2⟩⟩
  there := sound.there

theorem hub_sound {call : Hub.Call} {hub : Hub.State} (sound : Sound s) (taken : Hub.step c.hub s.hub call = .ok hub)
    (genuine : ∀ r canonical, call.action.result = some (r, canonical) → r ∈ s.vault.results) :
    Sound { s with hub := hub } := by
  have moves := Hub.step_moves s.hub hub call sound.regular taken
  have told : Hub.FromVault (Answered s) call.action := by
    intro r canonical id result ref
    have member := genuine r canonical result
    exact ref ▸ sound.orderly.answered r member (by rw [ref]; rfl)
  obtain ⟨extra, same⟩ := moves.deliveries
  refine ⟨moves.regular sound.regular, sound.orderly, moves.sent sound.regular told sound.sent, ?_, ?_⟩
  · intro index member d here
    dsimp only at here
    rw [← same, List.getElem?_append_left (sound.there index member)] at here
    exact sound.last index member d here
  · intro index member
    have within := sound.there index member
    dsimp only
    rw [← same, List.length_append]
    omega

theorem relay_ok {s after : Bridger.State Nat} {d : Deliver} {index amount : Nat} {accepted : Bool}
    (done : Bridger.relay c.bridger s (attested c d index amount) true accepted = .ok after) :
    after.deliveries = Function.update s.deliveries d.ref d ∧
      after.relayed = Function.update s.relayed d.ref true := by
  simp only [Bridger.relay, Bridger.ticket, attested, bind_ok, require_ok, pure_ok] at done
  obtain ⟨_, _, _, _, _, _, _, _, rfl⟩ := done
  exact ⟨rfl, rfl⟩

/-- A relay replaces what was kept for its ref; in order, what it replaces is done with. -/
theorem relay_sound {index amount : Nat} {accepted : Bool} (sound : Sound s)
    (inOrder : InOrder s (.relay index amount accepted))
    (taken : step c s (.relay index amount accepted) = .ok after) : Sound after := by
  simp only [step, bind_ok, require_ok, Checked.relay_ok, pure_ok, found_ok] at taken
  obtain ⟨_, _, e, new, bridger, done, rfl⟩ := taken
  obtain ⟨deliveries, relayed⟩ := relay_ok done
  refine ⟨sound.regular, sound.orderly, sound.sent, ?_, ?_⟩
  · intro other member d here
    dsimp only at here ⊢
    rw [deliveries, relayed]
    rcases List.mem_cons.mp member with rfl | old
    · rw [new] at here
      obtain rfl := Option.some.inj here
      exact ⟨Function.update_self .., .inl (Function.update_self ..)⟩
    · by_cases same : d.ref = e.ref
      · have ordered := inOrder other old
        rw [here, new] at ordered
        obtain ⟨before, shares⟩ := ordered same
        rw [same, Function.update_self, ← same]
        have settled := sound.sent.again other index d e before here new same
        exact ⟨rfl, .inr ⟨shares, same ▸ settled⟩⟩
      · rw [Function.update_of_ne same, Function.update_of_ne same]
        exact sound.last other old d here
  · intro other member
    rcases List.mem_cons.mp member with rfl | old
    · exact (List.getElem?_eq_some_iff.mp new).1
    · exact sound.there other old

theorem step_sound {action : Action} (genuine : Genuine s action) (inOrder : InOrder s action)
    (taken : step c s action = .ok after) (sound : Sound s) : Sound after := by
  cases action with
  | hub call =>
    simp only [step, bind_ok, Checked.relay_ok, pure_ok] at taken
    obtain ⟨hub, taken, rfl⟩ := taken
    refine hub_sound sound taken ?_
    intro r canonical result
    simp only [Genuine, result] at genuine
    exact genuine
  | vault call =>
    simp only [step, bind_ok, require_ok, Checked.relay_ok, pure_ok] at taken
    obtain ⟨_, _, vault, taken, rfl⟩ := taken
    obtain ⟨orderly, more⟩ := vault_kept sound.orderly (Vault.step_move c.vault _ _ _ taken)
    exact sound.vault vault s.closed orderly more
  | relay index amount accepted => exact relay_sound sound inOrder taken
  | retry ref accepted =>
    simp only [step, Bridger.retry, Bridger.ticket, bind_ok, require_ok, Checked.relay_ok, pure_ok] at taken
    obtain ⟨_, ⟨_, _, _, _, rfl⟩, rfl⟩ := taken
    exact ⟨sound.regular, sound.orderly, sound.sent, sound.last, sound.there⟩
  | execute index fill accepted =>
    simp only [step, bind_ok, require_ok, Checked.relay_ok, pure_ok, found_ok] at taken
    obtain ⟨_, _, d, _, vault, taken, rfl⟩ := taken
    obtain ⟨orderly, more⟩ := vault_kept sound.orderly
      (Vault.deliver_move c.vault _ _ c.alias 0 d fill accepted taken)
    exact sound.vault vault _ orderly more
  | lapse index =>
    simp only [step, pure_ok] at taken
    cases taken
    exact ⟨sound.regular, sound.orderly, sound.sent, sound.last, sound.there⟩

theorem Sound.retriable (sound : Sound s) : Retriable c s := by
  intro index member d here changes
  obtain ⟨relayed, kept | ⟨shares, settled⟩⟩ := sound.last index member d here
  · refine ⟨{ s.bridger with tickets := s.bridger.tickets ++ [d] }, ?_, rfl⟩
    simp only [Bridger.retry, Bridger.ticket, bind_ok, require_ok, pure_ok]
    exact ⟨(), relayed, (), trivial, by rw [kept]⟩
  · exact absurd changes (settled_unchanged settled shares)

/-- In every run whose relays of one ref come in the order they were sent. -/
theorem deliveries_retriable (c : Config) (bridgerUsdc : Nat) (vaultOwner : Address) (s : State)
    (reached : Reachable (restrict (accepts c) fun s action => Genuine s action ∧ InOrder s action)
      (deployed c bridgerUsdc vaultOwner) s) : Retriable c s := by
  have sound : Sound s := by
    refine reached.invariant (deployed_sound bridgerUsdc vaultOwner) ?_
    intro before action next sound taken
    exact step_sound taken.1.1 taken.1.2 taken.2 sound
  exact sound.retriable

/-! A sell that is escalated with its shares, answered by the fast lane, and escalated for its money. -/

def sample : Config where
  hub := Hub.sample
  bridger := ⟨20, 21, 22, 23, 24, 70, 25⟩
  vault := ⟨25, 7, 1, 50, 51, 52⟩

/-- A call of the hub at a later time. -/
def hubAt (now sender value : Nat) (action : Hub.Action) : Action :=
  .hub { Hub.by' sender value action with env := { (Hub.by' sender value action).env with now := now } }

/-- The treasury sells shares that a migration brought; the vault sells them before the escalation arrives. -/
def soldTwice : List Action :=
  [hubAt 100 2 0 (.listStock 50 30 0 60 1),
    hubAt 100 2 0 (.setCanonicalGate 70),
    .vault ⟨26, 100, .listStock 50 true⟩,
    .vault ⟨26, 100, .donate 7 (10 ^ 8)⟩,
    .vault ⟨26, 100, .migrateIn 50 (10 ^ 8) 1 (some ⟨10 ^ 8, 10 ^ 18, 10 ^ 18⟩)⟩,
    hubAt 100 10 0 (.reconcile ⟨.migration 50 0, 50, .bought, 10 ^ 8, 10 ^ 18, 0⟩),
    hubAt 100 6 1 (.requestSell 50 (10 ^ 18) 0),
    hubAt 30000 6 (10 ^ 18) (.escalate 0 80),
    .vault ⟨27, 30000, .lzReceive 1 ⟨.order 0, 50, .sell, 10 ^ 18, 0⟩ (some ⟨10 ^ 18, 10 ^ 8, 10 ^ 8⟩) 0⟩,
    hubAt 30000 11 0 (.lzReceive 30 ⟨.order 0, 50, .sold, 10 ^ 18, 10 ^ 8, 1⟩),
    hubAt 60000 6 (2 * 10 ^ 18) (.escalateFunds 0 80)]

/-- Both deliveries are relayed and their tickets lapse. -/
def relays (first second : Nat) : List Action :=
  [.relay first (10 ^ 6) true, .lapse 0, .relay second (10 ^ 6) true, .lapse 1]

/-- The money of the sell, which its second delivery hands over. -/
def moneyDelivery : Deliver := ⟨.order 0, 50, 0, 80, .settlement⟩

/-- Executed now without a sale, the delivery hands over proceeds. -/
def handsOver (c : Vault.Config) (sender : Address) (vault : Vault.State) (d : Deliver) : Bool :=
  match Vault.deliver c vault sender d none true with
  | .ok after => decide (after.proceeds d.ref ≠ vault.proceeds d.ref)
  | .error _ => false

theorem handsOver_changes {c : Vault.Config} {sender : Address} {vault : Vault.State} {d : Deliver}
    (hands : handsOver c sender vault d = true) : Changes c sender vault d := by
  unfold handsOver at hands
  split at hands
  · next after done =>
    refine ⟨none, true, after, done, fun same => of_decide_eq_true hands ?_⟩
    have proceeds := congrArg Vault.State.proceeds same
    exact congrFun proceeds d.ref
  · cases hands

theorem deliveries_retriable_in_order : ∃ s, s.relayed = [1, 0] ∧
    Changes sample.vault sample.alias s.vault moneyDelivery ∧ Retriable sample s := by
  obtain ⟨s, reached, passed⟩ := run_passes (step sample) (fun s action => Genuine s action ∧ InOrder s action)
    (soldTwice ++ relays 0 1) (deployed sample 0 26) (fun s => decide (s.relayed = [1, 0]) &&
      handsOver sample.vault sample.alias s.vault moneyDelivery) (by decide)
  obtain ⟨relayed, hands⟩ := Bool.and_eq_true_iff.mp passed
  exact ⟨s, of_decide_eq_true relayed, handsOver_changes hands, deliveries_retriable sample 0 26 s reached⟩

/-- Relayed the other way round, only the delivery of shares is kept, and the money stays where it is. -/
theorem money_unretriable : ∃ s, Reachable (restrict (accepts sample) Genuine) (deployed sample 0 26) s ∧
    Changes sample.vault sample.alias s.vault moneyDelivery ∧ ¬ Retriable sample s := by
  obtain ⟨s, reached, passed⟩ := run_passes (step sample) Genuine (soldTwice ++ relays 1 0)
    (deployed sample 0 26) (fun s => decide (1 ∈ s.relayed ∧ s.hub.deliveries[1]? = some moneyDelivery ∧
      (s.bridger.deliveries (.order 0)).shares ≠ 0) &&
      handsOver sample.vault sample.alias s.vault moneyDelivery) (by decide)
  obtain ⟨kept, hands⟩ := Bool.and_eq_true_iff.mp passed
  obtain ⟨relayed, here, shares⟩ := of_decide_eq_true kept
  have changes := handsOver_changes hands
  refine ⟨s, reached, changes, fun retriable => ?_⟩
  obtain ⟨after, done, tickets⟩ := retriable 1 relayed moneyDelivery here changes
  simp only [Bridger.retry, Bridger.ticket, bind_ok, require_ok, pure_ok] at done
  obtain ⟨_, _, _, _, rfl⟩ := done
  have same := List.singleton_inj.mp (List.append_cancel_left tickets)
  exact shares (congrArg Deliver.shares same)

end Solonpad.CanonicalLane
