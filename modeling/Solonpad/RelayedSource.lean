import Mathlib.Logic.Function.Basic
import Solonpad.Chain
import Solonpad.Histories
import Solonpad.NewestKept

/-!
`RelayedStockSource.sol`, the Arc side of the relayed price. A message brings entries for several underlyings; each
underlying keeps the newest usable entry that arrived, with the time it was read clamped to the time it arrived.
Over any run of deliveries and peer changes the source is one such register for each underlying.
-/

namespace Solonpad.RelayedSource

open Checked Histories NewestKept
open Chain (Address)

inductive SourceError where
  | onlyEndpoint | noPeer | onlyPeer | wrongSource | undecodable | required
  | unauthorizedAccount | timelocked | noObservation
  deriving DecidableEq, Repr

abbrev Tx (α : Type) := Checked.Tx SourceError α

/-- `StockObservation`. -/
structure Observation where
  price18 : Nat
  multiplier : Nat
  quoteUsd18 : Nat
  twapPrice18 : Nat
  sourceUpdatedAt : Nat
  roundId : Nat
  observedAt : Nat
  sourceBlock : Nat
  deriving DecidableEq

/-- What `abi.decode` takes for an observation: each field within the width of its type. -/
def Observation.decodes (o : Observation) : Prop :=
  o.price18 < 2 ^ 256 ∧ o.multiplier < 2 ^ 256 ∧ o.quoteUsd18 < 2 ^ 256 ∧ o.twapPrice18 < 2 ^ 256 ∧
    o.sourceUpdatedAt < 2 ^ 64 ∧ o.roundId < 2 ^ 80 ∧ o.observedAt < 2 ^ 64 ∧ o.sourceBlock < 2 ^ 64

instance (o : Observation) : Decidable o.decodes := inferInstanceAs (Decidable (_ ∧ _))

def Observation.zero : Observation := ⟨0, 0, 0, 0, 0, 0, 0, 0⟩

structure PendingPeer where
  peer : Nat
  eta : Nat

structure Origin where
  srcEid : Nat
  sender : Nat

structure State where
  owner : Address
  pendingOwner : Address
  peers : Nat → Nat
  pendingPeer : Nat → PendingPeer
  latest : Address → Observation

structure Config where
  endpoint : Address
  rhEid : Nat

structure Env where
  sender : Address
  now : Nat

def configDelay : Nat := 48 * 3600

def deployed (owner : Address) : State where
  owner := owner
  pendingOwner := 0
  peers := fun _ => 0
  pendingPeer := fun _ => ⟨0, 0⟩
  latest := fun _ => .zero

variable (c : Config)

def observe (s : State) (underlying : Address) : Tx Observation := do
  let o := s.latest underlying
  require (o.observedAt ≠ 0) .noObservation
  pure o

/-- An entry with a price and an observation time. -/
def Observation.usable (o : Observation) : Prop := o.price18 ≠ 0 ∧ o.observedAt ≠ 0

instance (o : Observation) : Decidable o.usable := inferInstanceAs (Decidable (_ ∧ _))

/-- The read time is not later than the arrival. -/
def clamp (now : Nat) (o : Observation) : Observation :=
  if now < o.observedAt then { o with observedAt := now % 2 ^ 64 } else o

/-- One turn of the loop of `_lzReceive`. -/
def applied (now : Nat) (s : State) (key : Address) (o : Observation) : State :=
  if o.sourceBlock ≤ (s.latest key).sourceBlock ∨ o.price18 = 0 ∨ o.observedAt = 0 then s
  else { s with latest := Function.update s.latest key (clamp now o) }

/-- `lzReceive` with `_lzReceive`. -/
def lzReceive (s : State) (env : Env) (origin : Origin) (keys : List Address) (obs : List Observation) :
    Tx State := do
  require (env.sender = c.endpoint) .onlyEndpoint
  require (s.peers origin.srcEid ≠ 0) .noPeer
  require (s.peers origin.srcEid = origin.sender) .onlyPeer
  require (origin.srcEid = c.rhEid) .wrongSource
  require (∀ o ∈ obs, o.decodes) .undecodable
  require (keys.length = obs.length) .required
  pure ((keys.zip obs).foldl (fun s entry => applied env.now s entry.1 entry.2) s)

/-! Peers and the owner. -/

def onlyOwner (s : State) (env : Env) : Tx Unit := require (s.owner = env.sender) .unauthorizedAccount

def State.setPeer (s : State) (eid peer : Nat) : State :=
  { s with peers := Function.update s.peers eid peer }

def setPeer (s : State) (env : Env) (eid peer : Nat) : Tx State := do
  onlyOwner s env
  require (s.peers eid = 0) .timelocked
  pure (s.setPeer eid peer)

def proposePeer (s : State) (env : Env) (eid peer : Nat) : Tx State := do
  onlyOwner s env
  let eta ← Checked.add 64 (env.now % 2 ^ 64) configDelay
  pure { s with pendingPeer := Function.update s.pendingPeer eid ⟨peer, eta⟩ }

def executePeer (s : State) (env : Env) (eid : Nat) : Tx State := do
  onlyOwner s env
  let p := s.pendingPeer eid
  require (p.eta ≠ 0 ∧ p.eta ≤ env.now) .timelocked
  pure ({ s with pendingPeer := Function.update s.pendingPeer eid ⟨0, 0⟩ }.setPeer eid p.peer)

def transferOwnership (s : State) (env : Env) (newOwner : Address) : Tx State := do
  onlyOwner s env
  pure { s with pendingOwner := newOwner }

/-- `_transferOwnership`. -/
def State.transferOwnership (s : State) (newOwner : Address) : State :=
  { s with owner := newOwner, pendingOwner := 0 }

def acceptOwnership (s : State) (env : Env) : Tx State := do
  require (s.pendingOwner = env.sender) .unauthorizedAccount
  pure (s.transferOwnership env.sender)

def renounceOwnership (s : State) (env : Env) : Tx State := do
  onlyOwner s env
  pure (s.transferOwnership 0)

inductive Action where
  | lzReceive (origin : Origin) (keys : List Address) (obs : List Observation)
  | setPeer (eid peer : Nat)
  | proposePeer (eid peer : Nat)
  | executePeer (eid : Nat)
  | transferOwnership (newOwner : Address)
  | acceptOwnership
  | renounceOwnership

structure Step where
  env : Env
  action : Action

def step (s : State) (t : Step) : Tx State :=
  match t.action with
  | .lzReceive origin keys obs => lzReceive c s t.env origin keys obs
  | .setPeer eid peer => setPeer s t.env eid peer
  | .proposePeer eid peer => proposePeer s t.env eid peer
  | .executePeer eid => executePeer s t.env eid
  | .transferOwnership newOwner => transferOwnership s t.env newOwner
  | .acceptOwnership => acceptOwnership s t.env
  | .renounceOwnership => renounceOwnership s t.env

abbrev Past := List (Taken State Step)

/-- Any calls, in any order and at any times. -/
def Calls (owner : Address) : Past → State → Prop :=
  History (fun s t after => step c s t = .ok after) (deployed owner)

/-! What was delivered. -/

structure Delivery where
  key : Address
  entry : Observation
  at_ : Nat
  deriving DecidableEq

/-- The entries of a step's message, as they arrive. -/
def Step.delivers (t : Step) : List Delivery :=
  match t.action with
  | .lzReceive _ keys obs => (keys.zip obs).map fun entry => ⟨entry.1, entry.2, t.env.now⟩
  | _ => []

def delivered (past : Past) : List Delivery := past.flatMap fun t => t.action.delivers

/-- The deliveries of usable entries for one underlying. -/
def valid (u : Address) (ds : List Delivery) : List Delivery :=
  ds.filter fun d => decide (d.key = u ∧ d.entry.usable)

def Delivery.stored (d : Delivery) : Observation := clamp d.at_ d.entry

variable {c} {s after : State} {u : Address} {past : Past}

theorem clamp_block (now : Nat) (o : Observation) : (clamp now o).sourceBlock = o.sourceBlock := by
  unfold clamp
  split <;> rfl

/-- One turn of the loop keeps the newer of the entry and what is stored. -/
theorem applied_latest (now : Nat) (s : State) (key : Address) (o : Observation) (u : Address) :
    (applied now s key o).latest u = newest Observation.sourceBlock (s.latest u)
      ((valid u [⟨key, o, now⟩]).map Delivery.stored) := by
  by_cases own : key = u ∧ o.usable
  · obtain ⟨rfl, priced, timed⟩ := own
    have listed : valid key [⟨key, o, now⟩] = [⟨key, o, now⟩] :=
      List.filter_eq_self.mpr (by simp [Observation.usable, priced, timed])
    rw [listed]
    change _ = keep _ _ (clamp now o)
    unfold applied keep
    rw [clamp_block]
    by_cases newer : (s.latest key).sourceBlock < o.sourceBlock
    · rw [if_neg (by simp [priced, timed, newer]), if_pos newer]
      exact Function.update_self ..
    · rw [if_pos (.inl (Nat.not_lt.mp newer)), if_neg newer]
  · have none_ : valid u [⟨key, o, now⟩] = [] := by simp [valid, own]
    rw [none_]
    change _ = s.latest u
    unfold applied
    split
    · rfl
    · rename_i taken
      have other : u ≠ key := by
        rintro rfl
        obtain ⟨_, priced, timed⟩ : _ ∧ ¬ o.price18 = 0 ∧ ¬ o.observedAt = 0 := by simpa using taken
        exact own ⟨rfl, priced, timed⟩
      exact Function.update_of_ne other ..

theorem valid_append (first second : List Delivery) : valid u (first ++ second) = valid u first ++ valid u second :=
  List.filter_append ..

theorem message_latest (now : Nat) (entries : List (Address × Observation)) (s : State) (u : Address) :
    (entries.foldl (fun s entry => applied now s entry.1 entry.2) s).latest u =
      newest Observation.sourceBlock (s.latest u)
        ((valid u (entries.map fun entry => ⟨entry.1, entry.2, now⟩)).map Delivery.stored) := by
  induction entries generalizing s with
  | nil => rfl
  | cons entry rest ih =>
    rw [List.foldl_cons, ih, applied_latest, ← newest_append, ← List.map_append, ← valid_append]
    rfl

/-- Only deliveries change what is stored. -/
theorem step_latest {t : Step} (taken : step c s t = .ok after) (u : Address) :
    after.latest u = newest Observation.sourceBlock (s.latest u) ((valid u t.delivers).map Delivery.stored) := by
  obtain ⟨env, action⟩ := t
  cases action with
  | lzReceive origin keys obs =>
    simp only [step, lzReceive, bind_ok, require_ok, pure_ok] at taken
    obtain ⟨_, _, _, _, _, _, _, _, _, _, _, _, rfl⟩ := taken
    exact message_latest env.now (keys.zip obs) s u
  | setPeer eid peer =>
    simp only [step, setPeer, onlyOwner, bind_ok, require_ok, pure_ok] at taken
    obtain ⟨_, _, _, _, rfl⟩ := taken
    rfl
  | proposePeer eid peer =>
    simp only [step, proposePeer, onlyOwner, bind_ok, require_ok, pure_ok] at taken
    obtain ⟨_, _, _, _, rfl⟩ := taken
    rfl
  | executePeer eid =>
    simp only [step, executePeer, onlyOwner, bind_ok, require_ok, pure_ok] at taken
    obtain ⟨_, _, _, _, rfl⟩ := taken
    rfl
  | transferOwnership newOwner =>
    simp only [step, transferOwnership, onlyOwner, bind_ok, require_ok, pure_ok] at taken
    obtain ⟨_, _, rfl⟩ := taken
    rfl
  | acceptOwnership =>
    simp only [step, acceptOwnership, bind_ok, require_ok, pure_ok] at taken
    obtain ⟨_, _, rfl⟩ := taken
    rfl
  | renounceOwnership =>
    simp only [step, renounceOwnership, onlyOwner, bind_ok, require_ok, pure_ok] at taken
    obtain ⟨_, _, rfl⟩ := taken
    rfl

theorem step_decodes {t : Step} (taken : step c s t = .ok after) : ∀ d ∈ t.delivers, d.entry.decodes := by
  obtain ⟨env, action⟩ := t
  intro d member
  cases action with
  | lzReceive origin keys obs =>
    simp only [step, lzReceive, bind_ok, require_ok, pure_ok] at taken
    obtain ⟨_, _, _, _, _, _, _, _, _, decodes, _⟩ := taken
    obtain ⟨entry, listed, rfl⟩ := List.mem_map.mp member
    exact decodes entry.2 (List.of_mem_zip listed).2
  | _ => exact absurd member List.not_mem_nil

/-! Runs. -/

theorem delivered_snoc (past : Past) (t : Taken State Step) :
    delivered (past ++ [t]) = delivered past ++ t.action.delivers := by
  rw [delivered, List.flatMap_append, List.flatMap_singleton]
  rfl

/-- The source is a newest-kept register for each underlying. -/
theorem run_latest {owner : Address} (calls : Calls c owner past s) (u : Address) :
    s.latest u = newest Observation.sourceBlock .zero ((valid u (delivered past)).map Delivery.stored) := by
  induction calls with
  | nil => rfl
  | snoc _ t taken ih =>
    rw [step_latest taken u, ih, delivered_snoc, valid_append, List.map_append, newest_append]

theorem run_decodes {owner : Address} (calls : Calls c owner past s) : ∀ d ∈ delivered past, d.entry.decodes := by
  induction calls with
  | nil => exact fun _ member => absurd member List.not_mem_nil
  | snoc _ t taken ih =>
    intro d member
    rw [delivered_snoc] at member
    rcases List.mem_append.mp member with earlier | now
    · exact ih d earlier
    · exact step_decodes taken d now

theorem delivered_at {now : Nat} (until_ : ∀ t ∈ past, t.action.env.now ≤ now) : ∀ d ∈ delivered past, d.at_ ≤ now := by
  intro d member
  obtain ⟨⟨_, ⟨env, action⟩, _⟩, listed, own⟩ := List.mem_flatMap.mp member
  have bound := until_ _ listed
  cases action with
  | lzReceive origin keys obs =>
    obtain ⟨entry, _, rfl⟩ := List.mem_map.mp own
    exact bound
  | _ => exact absurd own List.not_mem_nil

/-- For an entry that decodes the cut to 64 bits does nothing. -/
theorem clamp_min {now : Nat} {o : Observation} (decodes : o.decodes) :
    clamp now o = { o with observedAt := min o.observedAt now } := by
  unfold clamp
  split
  · rename_i later
    have fits : o.observedAt < 2 ^ 64 := decodes.2.2.2.2.2.2.1
    rw [Nat.mod_eq_of_lt (later.trans fits), Nat.min_eq_right later.le]
  · rename_i arrived
    rw [Nat.min_eq_left (Nat.not_lt.mp arrived)]

theorem mem_valid {d : Delivery} {ds : List Delivery} : d ∈ valid u ds ↔ d ∈ ds ∧ d.key = u ∧ d.entry.usable := by
  rw [valid, List.mem_filter, decide_eq_true_iff]

/-- An observation but for when it was read. -/
def Observation.untimed (o : Observation) : Observation := { o with observedAt := 0 }

theorem clamp_untimed (now : Nat) (o : Observation) : (clamp now o).untimed = o.untimed := by
  unfold clamp
  split <;> rfl

/-- The same messages' entries, whatever their order, number and times. -/
def SameEntries (first second : List Delivery) : Prop :=
  ∀ key entry, (∃ d ∈ first, d.key = key ∧ d.entry = entry) ↔ (∃ d ∈ second, d.key = key ∧ d.entry = entry)

theorem SameEntries.found {first second : List Delivery} (same : SameEntries first second) :
    ∀ a ∈ (valid u first).map Delivery.stored, ∃ b ∈ (valid u second).map Delivery.stored,
      b.untimed = a.untimed ∧ b.sourceBlock = a.sourceBlock := by
  intro a member
  obtain ⟨d, listed, rfl⟩ := List.mem_map.mp member
  obtain ⟨present, key, usable⟩ := mem_valid.mp listed
  obtain ⟨other, there, key', entry⟩ := (same d.key d.entry).mp ⟨d, present, rfl, rfl⟩
  refine ⟨other.stored, List.mem_map_of_mem (mem_valid.mpr ⟨there, key'.trans key, ?_⟩), ?_, ?_⟩
  · rw [entry]
    exact usable
  · rw [Delivery.stored, Delivery.stored, clamp_untimed, clamp_untimed, entry]
  · rw [Delivery.stored, Delivery.stored, clamp_block, clamp_block, entry]

/-- Usable entries of an underlying with the same source block are the same entry. -/
def Distinct (u : Address) (ds : List Delivery) : Prop :=
  ∀ a ∈ valid u ds, ∀ b ∈ valid u ds, a.entry.sourceBlock = b.entry.sourceBlock → a.entry = b.entry

/-- The block stored is the greatest that arrived in a usable entry, an update raises it, the rest of what is stored
is that entry's with its time clamped, and the order of the deliveries shows in nothing but the clamp. -/
theorem newest_relayed {owner : Address} {past : Past} (calls : Calls c owner past s) (u : Address) :
    (s.latest u).sourceBlock =
      greatest 0 ((valid u (delivered past)).map fun d => d.entry.sourceBlock) ∧
    (∀ (other : State) now key o, (applied now other key o).latest u = other.latest u ∨
      (other.latest u).sourceBlock < ((applied now other key o).latest u).sourceBlock) ∧
    ((s.latest u).sourceBlock ≠ 0 → ∃ d ∈ delivered past, d.key = u ∧ d.entry.usable ∧
      s.latest u = { d.entry with observedAt := min d.entry.observedAt d.at_ }) ∧
    (∀ now, (∀ t ∈ past, t.action.env.now ≤ now) → (s.latest u).observedAt ≤ now) ∧
    ∀ (c' : Config) owner' past' s', Calls c' owner' past' s' → SameEntries (delivered past) (delivered past') →
      Distinct u (delivered past) → (s.latest u).untimed = (s'.latest u).untimed := by
  have kept := run_latest calls u
  have found : s.latest u = .zero ∨ ∃ d ∈ delivered past, d.key = u ∧ d.entry.usable ∧
      s.latest u = { d.entry with observedAt := min d.entry.observedAt d.at_ } := by
    rw [kept]
    rcases newest_source Observation.sourceBlock with none_ | ⟨arrived, _⟩
    · exact .inl none_
    · obtain ⟨d, listed, same⟩ := List.mem_map.mp arrived
      obtain ⟨present, key, usable⟩ := mem_valid.mp listed
      exact .inr ⟨d, present, key, usable, same.symm.trans (clamp_min (run_decodes calls d present))⟩
  refine ⟨?_, fun other now key o => ?_, fun stored => ?_, fun now until_ => ?_, ?_⟩
  · rw [kept, newest_version Observation.sourceBlock, List.map_map]
    congr 1
    exact List.map_congr_left fun d _ => clamp_block d.at_ d.entry
  · rw [applied_latest]
    rcases newest_source Observation.sourceBlock with same | ⟨_, above⟩
    · exact .inl same
    · exact .inr above
  · rcases found with none_ | there
    · rw [none_] at stored
      exact absurd rfl stored
    · exact there
  · rcases found with none_ | ⟨d, present, _, _, same⟩
    · rw [none_]
      exact Nat.zero_le now
    · rw [same]
      exact (Nat.min_le_right ..).trans (delivered_at until_ d present)
  · intro c' owner' past' s' calls' same distinct
    rw [kept, run_latest calls' u]
    have back : SameEntries (delivered past') (delivered past) := fun key entry => (same key entry).symm
    refine newest_agree _ Observation.untimed same.found back.found ?_
    intro a first b second block
    obtain ⟨d, here, rfl⟩ := List.mem_map.mp first
    obtain ⟨other, member, rfl⟩ := List.mem_map.mp second
    obtain ⟨there, key, usable⟩ := mem_valid.mp member
    obtain ⟨twin, present, key', entry⟩ := (back other.key other.entry).mp ⟨other, there, rfl, rfl⟩
    have own : twin ∈ valid u (delivered past) := by
      rw [mem_valid, entry, key']
      exact ⟨present, key, usable⟩
    rw [Delivery.stored, Delivery.stored, clamp_block, clamp_block, ← entry] at block
    rw [Delivery.stored, Delivery.stored, clamp_untimed, clamp_untimed, distinct d here twin own block, entry]

/-! A message for two underlyings, then one that is older for the first and newer for the second. -/

def sample : Config := ⟨1, 30⟩

def sampleSteps : List Step :=
  [⟨⟨2, 100⟩, .setPeer 30 9⟩,
    ⟨⟨1, 200⟩, .lzReceive ⟨30, 9⟩ [5, 6] [⟨70, 0, 1, 0, 90, 1, 150, 12⟩, ⟨80, 0, 1, 0, 90, 1, 250, 12⟩]⟩,
    ⟨⟨1, 300⟩, .lzReceive ⟨30, 9⟩ [5, 6] [⟨71, 0, 1, 0, 80, 1, 140, 11⟩, ⟨81, 0, 1, 0, 95, 2, 260, 13⟩]⟩]

theorem newest_relayed_two : ∃ past s, Calls sample 2 past s ∧
    (s.latest 5).sourceBlock = 12 ∧ (s.latest 6).sourceBlock = 13 ∧ (s.latest 6).observedAt ≤ 300 := by
  have run : ∃ past s, Calls sample 2 past s ∧ past.map Taken.action = sampleSteps :=
    ⟨_, _, .snoc (.snoc (.snoc .nil _ rfl) _ rfl) _ rfl, rfl⟩
  obtain ⟨past, s, calls, steps⟩ := run
  have entries : delivered past = sampleSteps.flatMap Step.delivers := by
    rw [← steps, List.flatMap_map]
    rfl
  have first := (newest_relayed calls 5).1
  obtain ⟨second, _, _, arrived, _⟩ := newest_relayed calls 6
  rw [entries] at first second
  refine ⟨past, s, calls, first, second, arrived 300 fun t member => ?_⟩
  have early : ∀ other ∈ sampleSteps, other.env.now ≤ 300 := by decide
  rw [← steps] at early
  exact early t.action (List.mem_map_of_mem member)

end Solonpad.RelayedSource
