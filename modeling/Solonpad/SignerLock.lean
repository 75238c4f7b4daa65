import Solonpad.Transition
import Mathlib.Logic.Function.Basic

/-!
The signer lock of `keepers/v3/lib/lock.mjs`: a directory with an owner file in it. Any number of processes take the
file-system steps of `tryLock` and `unlock` in any order, start, and die between two of them. A process is its number
among those alive; a number may be given again after a death.
-/

namespace Solonpad.SignerLock

open Transition

/-- `owner.json`: `pid` and `at`. -/
structure Owner where
  pid : Nat
  stamp : Nat
  deriving DecidableEq

/-- The directory at the path. The inode tells it from another made there before or after. -/
structure Directory where
  inode : Nat
  owner : Option Owner
  mtime : Nat
  deriving DecidableEq

/-- Where a process stands; what it saw and made is kept with the place, for the proofs. -/
inductive Phase where
  | dead
  | idle
  /-- `mkdirSync` met a directory. -/
  | met
  /-- `readOwner` returned the owner of what was seen. -/
  | read (seen : Option Directory)
  /-- No owner was read, and `statSync` gave the time, or failed and left zero. -/
  | dated (seen : Option Directory) (stamp : Nat)
  | doomed (seen : Option Directory)
  | cleared
  /-- An own `mkdirSync` succeeded and the owner file is not written. -/
  | made (inode : Nat)
  /-- `tryLock` returned true. -/
  | holding (inode stamp : Nat)
  /-- In `unlock`, before and after the owner is read. -/
  | leaving (inode stamp : Nat)
  | leavingOwn (inode stamp : Nat)
  deriving DecidableEq

structure State where
  dir : Option Directory
  phase : Nat → Phase
  now : Nat
  fresh : Nat

inductive Action where
  | wait (now : Nat)
  | start (p : Nat)
  | die (p : Nat)
  | tryLock (p : Nat)
  | readOwner (p : Nat)
  | stat (p : Nat)
  /-- With what `pidAlive` answers. -/
  | judge (p : Nat) (answer : Bool)
  | remove (p : Nat)
  | remake (p : Nat)
  | writeOwner (p : Nat)
  | unlock (p : Nat)
  | readOwn (p : Nat)
  | release (p : Nat)

namespace State

def enter (s : State) (p : Nat) (phase : Phase) : State := { s with phase := Function.update s.phase p phase }

/-- A successful `mkdirSync`. -/
def make (s : State) (p : Nat) : State where
  dir := some ⟨s.fresh, none, s.now⟩
  phase := Function.update s.phase p (.made s.fresh)
  now := s.now
  fresh := s.fresh + 1

/-- `rmSync`, recursive and forced: whatever is at the path goes. -/
def clear (s : State) : State := { s with dir := none }

/-- `writeFileSync` of the owner file, into whatever directory is at the path; the first write changes its time. -/
def write (s : State) (p : Nat) (d : Directory) : State :=
  { s with dir := some ⟨d.inode, some ⟨p, s.now⟩, if d.owner = none then s.now else d.mtime⟩ }

end State

def ownerOf (seen : Option Directory) : Option Owner := seen.bind Directory.owner

/-- What `alive && Date.now() - at < staleMs` decides. -/
def verdict (staleMs now : Nat) (alive : Bool) (stamp : Nat) (seen : Option Directory) : Phase :=
  if alive = true ∧ now - stamp < staleMs then .idle else .doomed seen

/-- No such step in this state. -/
inductive Refused where
  | refused
  deriving DecidableEq

abbrev refuse : Except Refused State := .error .refused

/-- The age at which a directory without an owner counts as left behind. -/
def unownedMs : Nat := 60000

def step (staleMs : Nat) (s : State) : Action → Except Refused State
  | .wait now => if s.now ≤ now then .ok { s with now := now } else refuse
  | .start p => if s.phase p = .dead then .ok (s.enter p .idle) else refuse
  | .die p => if s.phase p ≠ .dead then .ok (s.enter p .dead) else refuse
  | .tryLock p => match s.phase p, s.dir with
    | .idle, none => .ok (s.make p)
    | .idle, some _ => .ok (s.enter p .met)
    | _, _ => refuse
  | .readOwner p => match s.phase p with
    | .met => .ok (s.enter p (.read s.dir))
    | _ => refuse
  | .stat p => match s.phase p with
    | .read seen =>
      if ownerOf seen = none then .ok (s.enter p (.dated seen ((s.dir.map Directory.mtime).getD 0))) else refuse
    | _ => refuse
  | .judge p answer => match s.phase p with
    | .read seen => match ownerOf seen with
      -- A signal to a live process is answered; to the number of a dead one, by whoever has the number now.
      | some info =>
        if s.phase info.pid = .dead ∨ answer = true then
          .ok (s.enter p (verdict staleMs s.now answer info.stamp seen))
        else refuse
      | none => refuse
    | .dated seen stamp => .ok (s.enter p (verdict staleMs s.now (s.now - stamp < unownedMs) stamp seen))
    | _ => refuse
  | .remove p => match s.phase p with
    | .doomed _ => .ok (s.clear.enter p .cleared)
    | _ => refuse
  | .remake p => match s.phase p, s.dir with
    | .cleared, none => .ok (s.make p)
    | .cleared, some _ => .ok (s.enter p .idle)
    | _, _ => refuse
  | .writeOwner p => match s.phase p, s.dir with
    | .made inode, some d => .ok ((s.write p d).enter p (.holding inode s.now))
    -- The write throws: the directory is gone.
    | .made _, none => .ok (s.enter p .idle)
    | _, _ => refuse
  | .unlock p => match s.phase p with
    | .holding inode stamp => .ok (s.enter p (.leaving inode stamp))
    | _ => refuse
  | .readOwn p => match s.phase p with
    | .leaving inode stamp =>
      .ok (s.enter p (if (ownerOf s.dir).map Owner.pid = some p then .leavingOwn inode stamp else .idle))
    | _ => refuse
  | .release p => match s.phase p with
    | .leavingOwn _ _ => .ok (s.clear.enter p .idle)
    | _ => refuse

/-- No process is there yet; the directory may be, from processes of before. -/
structure Start (s : State) : Prop where
  none_alive : ∀ p, s.phase p = .dead
  inode : ∀ d, s.dir = some d → d.inode < s.fresh

/-! What a process has. -/

/-- The directory of a process between a `tryLock` that returned true and the end of its `unlock`, and since when. -/
def Phase.held : Phase → Option (Nat × Nat)
  | .holding inode stamp | .leaving inode stamp | .leavingOwn inode stamp => some (inode, stamp)
  | _ => none

def Holds (s : State) (p : Nat) : Prop := (s.phase p).held ≠ none

def Phase.unwritten : Phase → Option Nat
  | .made inode => some inode
  | _ => none

def Phase.seen : Phase → Option Directory
  | .read seen | .dated seen _ | .doomed seen => seen
  | _ => none

def Phase.condemned : Phase → Option Directory
  | .doomed seen => seen
  | _ => none

/-- Live holders release in time: the owner a `tryLock` judges, if it holds the lock, took it less than `staleMs` ago. -/
def Timely (staleMs : Nat) (s : State) : Action → Prop
  | .judge p _ => ∀ info ∈ ownerOf (s.phase p).seen, ∀ held ∈ (s.phase info.pid).held, s.now - held.2 < staleMs
  | _ => True

/-- A removal by `tryLock` finds nothing or just what was judged, and a write of the owner file nothing or the
directory the writer made. -/
def Careful (s : State) : Action → Prop
  | .remove p => s.dir = none ∨ s.dir = (s.phase p).condemned
  | .writeOwner p => s.dir = none ∨ s.dir.map Directory.inode = (s.phase p).unwritten
  | _ => True

instance (staleMs : Nat) (s : State) : (action : Action) → Decidable (Timely staleMs s action)
  | .judge p _ => inferInstanceAs (Decidable (∀ info ∈ ownerOf (s.phase p).seen, _))
  | .wait _ | .start _ | .die _ | .tryLock _ | .readOwner _ | .stat _ | .remove _ | .remake _ | .writeOwner _
  | .unlock _ | .readOwn _ | .release _ => inferInstanceAs (Decidable True)

instance (s : State) : (action : Action) → Decidable (Careful s action)
  | .remove p => inferInstanceAs (Decidable (s.dir = none ∨ s.dir = (s.phase p).condemned))
  | .writeOwner p => inferInstanceAs (Decidable (s.dir = none ∨ s.dir.map Directory.inode = (s.phase p).unwritten))
  | .wait _ | .start _ | .die _ | .tryLock _ | .readOwner _ | .stat _ | .judge _ _ | .remake _
  | .unlock _ | .readOwn _ | .release _ => inferInstanceAs (Decidable True)

/-- The steps of the processes under a rule. -/
def under (staleMs : Nat) (rule : State → Action → Prop) : State → Action → State → Prop :=
  restrict (fun before action after => step staleMs before action = .ok after) rule

end Solonpad.SignerLock
