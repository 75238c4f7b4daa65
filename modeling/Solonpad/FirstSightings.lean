import Mathlib.Data.List.Nodup
import Mathlib.Order.Lattice
import Mathlib.Tactic.Common

/-!
A store that keeps, for each id, the earliest entry seen. Entries come from a world in which no two share a position.
When an entry comes no earlier than those of its id that stand before it, the store holds the first entry of each id
in the world, however entries were cut up, repeated or given up half-way.
-/

namespace Solonpad.FirstSightings

variable {Entry Id Pos : Type*} [DecidableEq Id] [LinearOrder Pos] (id : Entry → Id) (pos : Entry → Pos)
  (merge : Entry → Entry → Entry)

def sighting (store : List Entry) (key : Id) : Option Entry := store.find? fun e => id e = key

/-- The entry merged into the one of its id, or a new one. -/
def put (store : List Entry) (entry : Entry) : List Entry :=
  match sighting id store (id entry) with
  | some _ => store.map fun e => if id e = id entry then merge e entry else e
  | none => store ++ [entry]

def upsert (store : List Entry) (entry : Entry) : List Entry :=
  match sighting id store (id entry) with
  | some prev => if pos entry < pos prev then put id merge store entry else store
  | none => put id merge store entry

def Listed (store : List Entry) (key : Id) : Prop := ∃ e ∈ store, id e = key

/-- One entry for each id listed, the first of its id in the world. -/
structure Firsts (world : Entry → Prop) (store : List Entry) : Prop where
  distinct : (store.map id).Nodup
  known : ∀ e ∈ store, world e
  first : ∀ e ∈ store, ∀ other, world other → id other = id e → pos e ≤ pos other

/-- What stands before the entry in the world and has its id is listed already. -/
def Led (world : Entry → Prop) (store : List Entry) (entry : Entry) : Prop :=
  ∀ other, world other → id other = id entry → pos other < pos entry → Listed id store (id entry)

variable {id pos merge} {world : Entry → Prop} {store : List Entry} {entry : Entry}

theorem sighting_some {key : Id} {e : Entry} (found : sighting id store key = some e) : e ∈ store ∧ id e = key :=
  ⟨List.mem_of_find?_eq_some found, of_decide_eq_true (List.find?_some (p := fun e => decide (id e = key)) found)⟩

theorem sighting_none {key : Id} : sighting id store key = none ↔ ¬ Listed id store key := by
  simp [sighting, Listed, List.find?_eq_none]

omit [DecidableEq Id] in
theorem firsts_nil : Firsts id pos world [] := ⟨List.nodup_nil, by simp, by simp⟩

/-- An entry of an id that is listed changes nothing. -/
theorem Firsts.upsert_listed (firsts : Firsts id pos world store) (inside : world entry)
    (listed : Listed id store (id entry)) : upsert id pos merge store entry = store := by
  unfold upsert
  split
  · rename_i prev found
    obtain ⟨member, same⟩ := sighting_some found
    rw [if_neg (not_lt.mpr (firsts.first prev member entry inside same.symm))]
  · rename_i missing
    exact absurd listed (sighting_none.mp missing)

theorem upsert_fresh (fresh : ¬ Listed id store (id entry)) : upsert id pos merge store entry = store ++ [entry] := by
  have missing : sighting id store (id entry) = none := sighting_none.mpr fresh
  simp only [upsert, put, missing]

theorem Firsts.upsert_mem (firsts : Firsts id pos world store) (inside : world entry) (e : Entry) :
    e ∈ upsert id pos merge store entry ↔ e ∈ store ∨ e = entry ∧ ¬ Listed id store (id entry) := by
  by_cases listed : Listed id store (id entry)
  · rw [firsts.upsert_listed inside listed]
    simp [listed]
  · rw [upsert_fresh listed]
    simp [listed]

/-- The step: an entry that comes in its turn leaves first entries. -/
theorem Firsts.upsert (firsts : Firsts id pos world store) (inside : world entry)
    (led : Led id pos world store entry) : Firsts id pos world (upsert id pos merge store entry) := by
  by_cases listed : Listed id store (id entry)
  · rwa [firsts.upsert_listed inside listed]
  · rw [upsert_fresh listed]
    refine ⟨?_, ?_, ?_⟩
    · rw [List.map_append, List.map_singleton]
      refine List.nodup_append.mpr ⟨firsts.distinct, List.nodup_singleton _, ?_⟩
      rintro key old other new rfl
      obtain ⟨e, member, same⟩ := List.mem_map.mp old
      exact listed ⟨e, member, same.trans (List.mem_singleton.mp new)⟩
    · intro e member
      rcases List.mem_append.mp member with old | new
      · exact firsts.known e old
      · rw [List.mem_singleton.mp new]
        exact inside
    · intro e member other outside same
      rcases List.mem_append.mp member with old | new
      · exact firsts.first e old other outside same
      · obtain rfl := List.mem_singleton.mp new
        by_contra before
        exact listed (led other outside same (not_le.mp before))

theorem Firsts.upsert_lists (firsts : Firsts id pos world store) (inside : world entry) (key : Id) :
    Listed id (FirstSightings.upsert id pos merge store entry) key ↔ Listed id store key ∨ key = id entry := by
  constructor
  · rintro ⟨e, member, rfl⟩
    rcases (firsts.upsert_mem inside e).mp member with old | ⟨rfl, -⟩
    · exact .inl ⟨e, old, rfl⟩
    · exact .inr rfl
  · rintro (⟨e, member, rfl⟩ | rfl)
    · exact ⟨e, (firsts.upsert_mem inside e).mpr (.inl member), rfl⟩
    · by_cases listed : Listed id store (id entry)
      · obtain ⟨e, member, same⟩ := listed
        exact ⟨e, (firsts.upsert_mem inside e).mpr (.inl member), same⟩
      · exact ⟨entry, (firsts.upsert_mem inside entry).mpr (.inr ⟨rfl, listed⟩), rfl⟩

omit [DecidableEq Id] in
/-! Reading through a list. -/

section Scan

variable {Log : Type*} (read : Log → Option Entry)

/-- One log: what it reads as, if anything, goes into the store. -/
def sight (id : Entry → Id) (pos : Entry → Pos) (merge : Entry → Entry → Entry) (store : List Entry) (log : Log) :
    List Entry :=
  match read log with
  | some entry => upsert id pos merge store entry
  | none => store

/-- The list reads as entries of the world in order of position, and leaves out none of an id it comes to that stands
before and is not listed yet. -/
structure Ready (id : Entry → Id) (pos : Entry → Pos) (world : Entry → Prop) (store : List Entry) (logs : List Log) :
    Prop where
  inside : ∀ log ∈ logs, ∀ e, read log = some e → world e
  ordered : logs.Pairwise fun a b => ∀ e f, read a = some e → read b = some f → pos e ≤ pos f
  led : ∀ log ∈ logs, ∀ e, read log = some e → ∀ other, world other → id other = id e → pos other < pos e →
    Listed id store (id e) ∨ ∃ l ∈ logs, read l = some other

variable {read} {log : Log} {rest logs : List Log}

theorem Firsts.sight (firsts : Firsts id pos world store) (ready : Ready read id pos world store (log :: rest)) :
    Firsts id pos world (sight read id pos merge store log) := by
  unfold FirstSightings.sight
  split
  · rename_i entry reads
    refine firsts.upsert (ready.inside log List.mem_cons_self entry reads) fun other outside same before => ?_
    obtain listed | ⟨l, member, other_reads⟩ :=
      ready.led log List.mem_cons_self entry reads other outside same before
    · exact listed
    · rcases List.mem_cons.mp member with rfl | later
      · cases reads.symm.trans other_reads
        exact absurd before (lt_irrefl _)
      · exact absurd before (not_lt.mpr ((List.pairwise_cons.mp ready.ordered).1 l later entry other reads other_reads))
  · exact firsts

theorem Firsts.sight_lists (firsts : Firsts id pos world store)
    (ready : Ready read id pos world store (log :: rest)) (key : Id) :
    Listed id (FirstSightings.sight read id pos merge store log) key ↔
      Listed id store key ∨ ∃ e, read log = some e ∧ key = id e := by
  unfold FirstSightings.sight
  split
  · rename_i entry reads
    rw [firsts.upsert_lists (ready.inside log List.mem_cons_self entry reads)]
    simp [reads]
  · rename_i reads
    simp [reads]

theorem Ready.later (ready : Ready read id pos world store (log :: rest)) (firsts : Firsts id pos world store) :
    Ready read id pos world (FirstSightings.sight read id pos merge store log) rest where
  inside l member := ready.inside l (List.mem_cons_of_mem log member)
  ordered := (List.pairwise_cons.mp ready.ordered).2
  led l member e reads other outside same before := by
    obtain listed | ⟨first, there, other_reads⟩ :=
      ready.led l (List.mem_cons_of_mem log member) e reads other outside same before
    · exact .inl ((firsts.sight_lists ready _).mpr (.inl listed))
    · rcases List.mem_cons.mp there with rfl | later
      · exact .inl ((firsts.sight_lists ready _).mpr (.inr ⟨other, other_reads, same.symm⟩))
      · exact .inr ⟨first, later, other_reads⟩

/-- The run: a ready list read to its end leaves first entries of every id it came to. -/
theorem Firsts.scan (firsts : Firsts id pos world store) (ready : Ready read id pos world store logs) :
    Firsts id pos world (logs.foldl (FirstSightings.sight read id pos merge) store) ∧
      ∀ key, Listed id (logs.foldl (FirstSightings.sight read id pos merge) store) key ↔
        Listed id store key ∨ ∃ log ∈ logs, ∃ e, read log = some e ∧ key = id e := by
  induction logs generalizing store with
  | nil => exact ⟨firsts, fun key => by simp⟩
  | cons log rest ih =>
    obtain ⟨left, listed⟩ := ih (firsts.sight ready) (ready.later firsts)
    refine ⟨left, fun key => ?_⟩
    rw [List.foldl_cons, listed, firsts.sight_lists ready]
    simp only [List.mem_cons, exists_eq_or_imp, or_assoc]

end Scan

end Solonpad.FirstSightings
