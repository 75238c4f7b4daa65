import Solonpad.FirstSightings
import Solonpad.Transition
import Mathlib.Data.List.Sort
import Mathlib.Data.Prod.Lex

/-!
`keepers/v3/lib/discovery.mjs`: a scan of a contract's logs in chunks, with the items found and the cursor in the
journal. Runs may stop between any two writes of the journal, which is all that is left then, and each query goes to a
node of its own height.
-/

namespace Solonpad.LogDiscovery

open Transition FirstSightings

/-- A log as a node answers it. -/
structure Log (Hash Body : Type) where
  blockNumber : Nat
  index : Nat
  transactionHash : Hash
  removed : Bool
  body : Body

/-- The fields `decode` gives an item beside its id. -/
abbrev Fields (Content : Type) := String → Option Content

structure Record (Hash Content : Type) where
  id : String
  fields : Fields Content
  block : Nat
  logIndex : Nat
  tx : Hash

variable {Hash Body Content : Type}

/-- `pos`. -/
def pos (x : Record Hash Content) : Nat ×ₗ Nat := toLex (x.block, x.logIndex)

def earlier (a b : Record Hash Content) : Prop := a.block < b.block ∨ a.block = b.block ∧ a.logIndex < b.logIndex

theorem earlier_iff (a b : Record Hash Content) : earlier a b ↔ pos a < pos b := by
  simp [earlier, pos, Prod.Lex.toLex_lt_toLex]

/-- `{ ...prev, ...patch }`. -/
def setRecord (prev patch : Record Hash Content) : Record Hash Content where
  id := patch.id
  fields name := (patch.fields name).or (prev.fields name)
  block := patch.block
  logIndex := patch.logIndex
  tx := patch.tx

/-- What `decode` makes of a log: nothing, where the log is not one of these. -/
abbrev Decode (Hash Body Content : Type) := Log Hash Body → Option (String × Fields Content)

variable (decode : Decode Hash Body Content)

def itemOf (log : Log Hash Body) : Option (Record Hash Content) :=
  (decode log).map fun item => ⟨item.1, item.2, log.blockNumber, log.index, log.transactionHash⟩

/-- One turn of the loop over a chunk's logs: `decode`, then `upsert`. -/
def upsertLog (records : List (Record Hash Content)) (log : Log Hash Body) : List (Record Hash Content) :=
  sight (itemOf decode) Record.id pos setRecord records log

/-- The order of a chunk's logs. -/
def logPos (log : Log Hash Body) : Nat ×ₗ Nat := toLex (log.blockNumber, log.index)

def sorted (logs : List (Log Hash Body)) : List (Log Hash Body) :=
  (logs.filter fun log => !log.removed).insertionSort fun a b => logPos a ≤ logPos b

/-- `items()`: the records with an id, in order of position. -/
def items (records : List (Record Hash Content)) : List (Record Hash Content) :=
  (records.filter fun r => r.id ≠ "").insertionSort fun a b => pos a ≤ pos b

structure Params where
  confirmations : Nat
  chunk : Nat
  maxChunksPerTick : Nat

/-- Where a `sync` stands. In `applying`, the node that answered had the blocks up to `height`. -/
inductive Phase (Hash Body : Type) where
  | idle
  | scanning (head : Nat) (p : Params) (i : Nat)
  | applying (head : Nat) (p : Params) (i last height : Nat) (rest : List (Log Hash Body))

structure State (Hash Body Content : Type) where
  records : List (Record Hash Content)
  /-- `discoverCursor`. -/
  next : Option Nat
  phase : Phase Hash Body
  /-- For each answer, the first and the last block it was asked for and could cover. -/
  answered : List (Nat × Nat)

inductive Action (Hash Body : Type) where
  /-- `getBlockNumber` answers. -/
  | begin (head : Nat) (p : Params)
  /-- A node that has the blocks up to `height` answers `getLogs`. -/
  | answer (height : Nat) (logs : List (Log Hash Body))
  /-- The next log of the chunk is decoded, and written where it is new. -/
  | apply
  /-- The node tells whether it has the chunk's last block. -/
  | check (known : Bool)
  /-- The loop ends. -/
  | finish
  /-- The process dies, or a call throws. -/
  | crash

inductive Refused where
  | refused

abbrev refuse : Except Refused (State Hash Body Content) := .error .refused

variable (fromBlock : Nat)

/-- `cursor()`. -/
def State.cursor (s : State Hash Body Content) : Nat := s.next.getD fromBlock

/-- `safe` is not behind the cursor, and the loop has turns left. -/
def More (from_block head : Nat) (p : Params) (i : Nat) : Prop :=
  i < p.maxChunksPerTick ∧ from_block + p.confirmations ≤ head

instance (from_block head : Nat) (p : Params) (i : Nat) : Decidable (More from_block head p i) :=
  inferInstanceAs (Decidable (_ ∧ _))

/-- The last block of a chunk. -/
def chunkEnd (from_block head : Nat) (p : Params) : Nat := min (head - p.confirmations) (from_block + p.chunk - 1)

def step (s : State Hash Body Content) : Action Hash Body → Except Refused (State Hash Body Content)
  | .begin head p => match s.phase with
    | .idle => if 0 < p.chunk then .ok { s with phase := .scanning head p 0 } else refuse
    | _ => refuse
  | .answer height logs => match s.phase with
    | .scanning head p i =>
      let start := s.cursor fromBlock
      if More start head p i then
        .ok { s with
          phase := .applying head p i (chunkEnd start head p) height (sorted logs)
          answered := s.answered ++ [(start, min (chunkEnd start head p) height)] }
      else refuse
    | _ => refuse
  | .apply => match s.phase with
    | .applying head p i last height (log :: rest) =>
      .ok { s with records := upsertLog decode s.records log, phase := .applying head p i last height rest }
    | _ => refuse
  | .check known => match s.phase with
    | .applying head p i last _ [] =>
      if known = true then .ok { s with next := some (last + 1), phase := .scanning head p (i + 1) }
      else .ok { s with phase := .idle }
    | _ => refuse
  | .finish => match s.phase with
    | .scanning head p i => if More (s.cursor fromBlock) head p i then refuse else .ok { s with phase := .idle }
    | _ => refuse
  | .crash => .ok { s with phase := .idle }

def initial : State Hash Body Content := ⟨[], none, .idle, []⟩

/-! The chain, and what nodes answer of it. -/

/-- The logs of each block, once no reorganisation reaches it. -/
structure Chain (Hash Body : Type) where
  logs : Nat → List (Log Hash Body)
  block : ∀ n, ∀ log ∈ logs n, log.blockNumber = n
  kept : ∀ n, ∀ log ∈ logs n, log.removed = false
  apart : ∀ n, ∀ log ∈ logs n, ∀ other ∈ logs n, log.index = other.index → log = other

def Chain.On (chain : Chain Hash Body) (log : Log Hash Body) : Prop := log ∈ chain.logs log.blockNumber

/-- The logs from one block up to another, the second left out. -/
def Chain.range (chain : Chain Hash Body) (first next : Nat) : List (Log Hash Body) :=
  (List.range' first (next - first)).flatMap chain.logs

/-- Nodes answer of the blocks that they have, all of which are below the head by the confirmations and so final: in
any order, with duplicates, and with removed logs marked. One that lacks the last block of the range lacks it still
when it is asked for the block. -/
def Honest (chain : Chain Hash Body) (s : State Hash Body Content) : Action Hash Body → Prop
  | .answer height logs => match s.phase with
    | .scanning head p _ => ∀ log, (log ∈ logs ∧ log.removed = false) ↔ chain.On log ∧
        s.cursor fromBlock ≤ log.blockNumber ∧ log.blockNumber ≤ min (chunkEnd (s.cursor fromBlock) head p) height
    | _ => True
  | .check known => match s.phase with
    | .applying _ _ _ last height _ => known = true → last ≤ height
    | _ => True
  | _ => True

/-- One uninterrupted scan: all logs from the first block up to the next, in order. -/
def fullScan (chain : Chain Hash Body) (next : Nat) : List (Record Hash Content) :=
  (sorted (chain.range fromBlock next)).foldl (upsertLog decode) []

/-- The records from blocks below the cursor. -/
def below (next : Nat) (records : List (Record Hash Content)) : List (Record Hash Content) :=
  records.filter fun r => r.block < next

end Solonpad.LogDiscovery
