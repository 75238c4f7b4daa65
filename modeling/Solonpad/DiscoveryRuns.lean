import Solonpad.LogDiscovery

/-!
However the runs of a discovery are cut up, its items from blocks below the cursor are those of one scan, each the
earliest of its id.
-/

namespace Solonpad.LogDiscovery

open Transition FirstSightings

variable {Hash Body Content : Type} {decode : Decode Hash Body Content} {fromBlock : Nat} {chain : Chain Hash Body}
  {s after : State Hash Body Content} {logs : List (Log Hash Body)} {log : Log Hash Body} {r : Record Hash Content}
  {head i height : Nat} {p : Params} {last : Nat}

/-! The records that the logs of the chain make. -/

/-- The record of a log from the first block on. -/
def World (decode : Decode Hash Body Content) (fromBlock : Nat) (chain : Chain Hash Body)
    (r : Record Hash Content) : Prop :=
  ∃ log, chain.On log ∧ fromBlock ≤ log.blockNumber ∧ itemOf decode log = some r

def WorldBelow (decode : Decode Hash Body Content) (fromBlock next : Nat) (chain : Chain Hash Body)
    (r : Record Hash Content) : Prop :=
  World decode fromBlock chain r ∧ r.block < next

theorem itemOf_pos (reads : itemOf decode log = some r) : pos r = logPos log := by
  obtain ⟨item, _, rfl⟩ := Option.map_eq_some_iff.mp reads
  rfl

theorem itemOf_block (reads : itemOf decode log = some r) : r.block = log.blockNumber := by
  obtain ⟨item, _, rfl⟩ := Option.map_eq_some_iff.mp reads
  rfl

theorem world_apart (a b : Record Hash Content) (one : World decode fromBlock chain a)
    (two : World decode fromBlock chain b) (same : pos a = pos b) : a = b := by
  obtain ⟨log, here, -, reads⟩ := one
  obtain ⟨other, there, -, other_reads⟩ := two
  rw [itemOf_pos reads, itemOf_pos other_reads] at same
  obtain ⟨block, index⟩ := Prod.mk.inj (toLex.injective same)
  have equal : log = other := chain.apart _ log here other (by rw [block]; exact there) index
  subst equal
  exact Option.some.inj (reads.symm.trans other_reads)

theorem block_le {a b : Record Hash Content} (before : pos a ≤ pos b) : a.block ≤ b.block := by
  rcases Prod.Lex.toLex_le_toLex.mp before with less | ⟨same, -⟩
  · exact Nat.le_of_lt less
  · exact Nat.le_of_eq same

theorem mem_sorted : log ∈ sorted logs ↔ log ∈ logs ∧ log.removed = false := by
  simp [sorted, List.mem_insertionSort]

theorem sorted_ordered (logs : List (Log Hash Body)) :
    (sorted logs).Pairwise fun a b => ∀ e f : Record Hash Content,
      itemOf decode a = some e → itemOf decode b = some f → pos e ≤ pos f := by
  refine (List.pairwise_insertionSort _ _).imp fun {a b} before e f reads other => ?_
  rw [itemOf_pos reads, itemOf_pos other]
  exact before

theorem mem_range {first next : Nat} :
    log ∈ chain.range first next ↔ chain.On log ∧ first ≤ log.blockNumber ∧ log.blockNumber < next := by
  simp only [Chain.range, List.mem_flatMap, List.mem_range'_1, Chain.On]
  constructor
  · rintro ⟨n, bounds, member⟩
    rw [chain.block n log member]
    exact ⟨member, by omega, by omega⟩
  · rintro ⟨member, low, high⟩
    exact ⟨log.blockNumber, by omega, member⟩

/-! One scan. -/

theorem fullScan_firsts (decode : Decode Hash Body Content) (fromBlock next : Nat) (chain : Chain Hash Body) :
    Firsts Record.id pos (WorldBelow decode fromBlock next chain) (fullScan decode fromBlock chain next) ∧
      ∀ r, WorldBelow decode fromBlock next chain r →
        Listed Record.id (fullScan decode fromBlock chain next) r.id := by
  have inside : ∀ log ∈ sorted (chain.range fromBlock next), ∀ e, itemOf decode log = some e →
      WorldBelow decode fromBlock next chain e := by
    intro log member e reads
    obtain ⟨here, low, high⟩ := mem_range.mp (mem_sorted.mp member).1
    exact ⟨⟨log, here, low, reads⟩, by rwa [itemOf_block reads]⟩
  have covers : ∀ e, WorldBelow decode fromBlock next chain e →
      ∃ log ∈ sorted (chain.range fromBlock next), itemOf decode log = some e := by
    rintro e ⟨⟨log, here, low, reads⟩, high⟩
    rw [itemOf_block reads] at high
    exact ⟨log, mem_sorted.mpr ⟨mem_range.mpr ⟨here, low, high⟩, chain.kept _ log here⟩, reads⟩
  have ready : Ready (itemOf decode) Record.id pos (WorldBelow decode fromBlock next chain) []
      (sorted (chain.range fromBlock next)) :=
    ⟨inside, sorted_ordered _, fun log _ e _ other outside _ _ => .inr (covers other outside)⟩
  obtain ⟨firsts, listed⟩ : Firsts Record.id pos (WorldBelow decode fromBlock next chain)
      (fullScan decode fromBlock chain next) ∧ ∀ key, Listed Record.id (fullScan decode fromBlock chain next) key ↔ _ :=
    firsts_nil.scan ready
  refine ⟨firsts, fun r outside => (listed r.id).mpr (.inr ?_)⟩
  obtain ⟨log, member, reads⟩ := covers r outside
  exact ⟨log, member, r, reads, rfl⟩

/-! What the runs keep. -/

/-- The rest of a chunk is in its turn, and with the records it covers what the answer covered. -/
structure InTurn (decode : Decode Hash Body Content) (fromBlock : Nat) (chain : Chain Hash Body)
    (s : State Hash Body Content) (last height : Nat) (rest : List (Log Hash Body)) : Prop where
  ready : Ready (itemOf decode) Record.id pos (World decode fromBlock chain) s.records rest
  covers : ∀ log, chain.On log → s.cursor fromBlock ≤ log.blockNumber → log.blockNumber ≤ min last height →
    ∀ r, itemOf decode log = some r → Listed Record.id s.records r.id ∨ log ∈ rest
  forward : s.cursor fromBlock ≤ last + 1
  asked : (s.cursor fromBlock, min last height) ∈ s.answered

structure Faithful (decode : Decode Hash Body Content) (fromBlock : Nat) (chain : Chain Hash Body)
    (s : State Hash Body Content) : Prop where
  start : fromBlock ≤ s.cursor fromBlock
  firsts : Firsts Record.id pos (World decode fromBlock chain) s.records
  complete : ∀ log, chain.On log → fromBlock ≤ log.blockNumber → log.blockNumber < s.cursor fromBlock →
    ∀ r, itemOf decode log = some r → Listed Record.id s.records r.id
  turn : ∀ head p i last height rest, s.phase = .applying head p i last height rest →
    InTurn decode fromBlock chain s last height rest
  read : ∀ b, fromBlock ≤ b → b < s.cursor fromBlock → ∃ range ∈ s.answered, range.1 ≤ b ∧ b ≤ range.2

theorem initial_faithful : Faithful decode fromBlock chain initial where
  start := Nat.le_refl _
  firsts := firsts_nil
  complete log _ low high := absurd low (Nat.not_le.mpr high)
  turn head p i last height rest phase := by cases phase
  read b low high := absurd low (Nat.not_le.mpr high)

/-- Outside a chunk only the records and the cursor count. -/
theorem Faithful.quiet (faithful : Faithful decode fromBlock chain s) (phase : Phase Hash Body)
    (outside : ∀ head p i last height rest, phase ≠ .applying head p i last height rest) :
    Faithful decode fromBlock chain { s with phase := phase } :=
  ⟨faithful.start, faithful.firsts, faithful.complete,
    fun head p i last height rest same => absurd same (outside head p i last height rest), faithful.read⟩

theorem Faithful.answer (faithful : Faithful decode fromBlock chain s) (more : More (s.cursor fromBlock) head p i)
    (honest : ∀ log, (log ∈ logs ∧ log.removed = false) ↔ chain.On log ∧ s.cursor fromBlock ≤ log.blockNumber ∧
      log.blockNumber ≤ min (chunkEnd (s.cursor fromBlock) head p) height) :
    Faithful decode fromBlock chain { s with
      phase := .applying head p i (chunkEnd (s.cursor fromBlock) head p) height (sorted logs)
      answered := s.answered ++ [(s.cursor fromBlock, min (chunkEnd (s.cursor fromBlock) head p) height)] } := by
  refine ⟨faithful.start, faithful.firsts, faithful.complete, ?_, ?_⟩
  · rintro _ _ _ _ _ _ ⟨⟩
    refine ⟨⟨?_, sorted_ordered logs, ?_⟩, ?_, ?_, List.mem_append_right _ (List.mem_singleton_self _)⟩
    · intro log member e reads
      obtain ⟨here, low, -⟩ := (honest log).mp (mem_sorted.mp member)
      exact ⟨log, here, faithful.start.trans low, reads⟩
    · intro log member e reads other outside same before
      obtain ⟨here, low, high⟩ := (honest log).mp (mem_sorted.mp member)
      obtain ⟨first, there, from_first, other_reads⟩ := outside
      have earlier_block : first.blockNumber ≤ log.blockNumber := by
        rw [← itemOf_block reads, ← itemOf_block other_reads]
        exact block_le (le_of_lt before)
      -- An earlier log of the id is recorded where its block was read before, and is in the answer otherwise.
      by_cases passed : first.blockNumber < s.cursor fromBlock
      · exact .inl (same ▸ faithful.complete first there from_first passed other other_reads)
      · refine .inr ⟨first, mem_sorted.mpr ((honest first).mpr ⟨there, Nat.le_of_not_lt passed, ?_⟩), other_reads⟩
        exact earlier_block.trans high
    · intro log here low high r reads
      exact .inr (mem_sorted.mpr ((honest log).mpr ⟨here, low, high⟩))
    · have reach : s.cursor fromBlock ≤ chunkEnd (s.cursor fromBlock) head p + 1 := by
        have within := more.2
        unfold chunkEnd
        omega
      exact reach
  · intro b low high
    obtain ⟨range, member, bounds⟩ := faithful.read b low high
    exact ⟨range, List.mem_append_left _ member, bounds⟩

theorem Faithful.apply (faithful : Faithful decode fromBlock chain s) {rest : List (Log Hash Body)}
    (phase : s.phase = .applying head p i last height (log :: rest)) :
    Faithful decode fromBlock chain
      { s with records := upsertLog decode s.records log, phase := .applying head p i last height rest } := by
  have turn := faithful.turn _ _ _ _ _ _ phase
  have firsts : Firsts Record.id pos (World decode fromBlock chain) (upsertLog decode s.records log) :=
    faithful.firsts.sight turn.ready
  have listed : ∀ key, Listed Record.id (upsertLog decode s.records log) key ↔ _ :=
    faithful.firsts.sight_lists turn.ready
  refine ⟨faithful.start, firsts, ?_, ?_, faithful.read⟩
  · intro other here low high r reads
    exact (listed r.id).mpr (.inl (faithful.complete other here low high r reads))
  · rintro _ _ _ _ _ _ ⟨⟩
    refine ⟨turn.ready.later faithful.firsts, ?_, turn.forward, turn.asked⟩
    intro other here low high r reads
    rcases turn.covers other here low high r reads with before | member
    · exact .inl ((listed r.id).mpr (.inl before))
    · rcases List.mem_cons.mp member with rfl | later
      · exact .inl ((listed r.id).mpr (.inr ⟨r, reads, rfl⟩))
      · exact .inr later

theorem Faithful.pass (faithful : Faithful decode fromBlock chain s)
    (phase : s.phase = .applying head p i last height []) (known : last ≤ height) :
    Faithful decode fromBlock chain { s with next := some (last + 1), phase := .scanning head p (i + 1) } := by
  have turn := faithful.turn _ _ _ _ _ _ phase
  have forward := turn.forward
  have whole : min last height = last := Nat.min_eq_left known
  refine ⟨faithful.start.trans forward, faithful.firsts, ?_, fun _ _ _ _ _ _ same => (by cases same), ?_⟩
  · intro log here low high r reads
    by_cases passed : log.blockNumber < s.cursor fromBlock
    · exact faithful.complete log here low passed r reads
    · have inside : log.blockNumber ≤ min last height := by
        rw [whole]
        exact Nat.le_of_lt_succ high
      exact (turn.covers log here (Nat.le_of_not_lt passed) inside r reads).resolve_right List.not_mem_nil
  · intro b low high
    by_cases passed : b < s.cursor fromBlock
    · exact faithful.read b low passed
    · have asked := turn.asked
      rw [whole] at asked
      exact ⟨_, asked, Nat.le_of_not_lt passed, Nat.le_of_lt_succ high⟩

theorem Faithful.step {action : Action Hash Body} (faithful : Faithful decode fromBlock chain s)
    (honest : Honest fromBlock chain s action) (done : step decode fromBlock s action = .ok after) :
    Faithful decode fromBlock chain after := by
  unfold LogDiscovery.step at done
  cases action with
  | begin head p =>
    dsimp only at done
    split at done
    · split at done <;> cases done
      exact faithful.quiet _ (by simp)
    · cases done
  | answer height logs =>
    dsimp only at done
    split at done
    · rename_i head p i phase
      split at done <;> cases done
      rename_i more
      simp only [Honest, phase] at honest
      exact faithful.answer more honest
    · cases done
  | apply =>
    dsimp only at done
    split at done <;> cases done
    rename_i phase
    exact faithful.apply phase
  | check known =>
    dsimp only at done
    split at done
    · rename_i head p i last height phase
      simp only [Honest, phase] at honest
      split at done <;> cases done
      · rename_i there
        exact faithful.pass phase (honest there)
      · exact faithful.quiet _ (by simp)
    · cases done
  | finish =>
    dsimp only at done
    split at done
    · split at done <;> cases done
      exact faithful.quiet _ (by simp)
    · cases done
  | crash =>
    cases done
    exact faithful.quiet _ (by simp)

/-! The runs against the one scan. -/

/-- The items and the cursor that one scan of the chain would have left. -/
structure Discovered (decode : Decode Hash Body Content) (fromBlock : Nat) (chain : Chain Hash Body)
    (s : State Hash Body Content) : Prop where
  records : (below (s.cursor fromBlock) s.records).Perm (fullScan decode fromBlock chain (s.cursor fromBlock))
  items : items (below (s.cursor fromBlock) s.records) = items (fullScan decode fromBlock chain (s.cursor fromBlock))
  distinct : (s.records.map Record.id).Nodup
  earliest : ∀ r ∈ s.records, World decode fromBlock chain r ∧
    ∀ other, World decode fromBlock chain other → other.id = r.id → pos r ≤ pos other
  read : ∀ b, fromBlock ≤ b → b < s.cursor fromBlock → ∃ range ∈ s.answered, range.1 ≤ b ∧ b ≤ range.2

theorem below_mem (faithful : Faithful decode fromBlock chain s) (r : Record Hash Content) :
    r ∈ below (s.cursor fromBlock) s.records ↔ r ∈ fullScan decode fromBlock chain (s.cursor fromBlock) := by
  obtain ⟨scanned, listed⟩ := fullScan_firsts decode fromBlock (s.cursor fromBlock) chain
  have firsts := faithful.firsts
  simp only [below, List.mem_filter, decide_eq_true_eq]
  constructor
  · rintro ⟨member, low⟩
    have outside := firsts.known r member
    obtain ⟨other, there, same⟩ := listed r ⟨outside, low⟩
    have known := (scanned.known other there).1
    have equal : r = other := world_apart r other outside known
      (le_antisymm (firsts.first r member other known same) (scanned.first other there r ⟨outside, low⟩ same.symm))
    rwa [equal]
  · intro member
    obtain ⟨⟨log, here, first, reads⟩, low⟩ := scanned.known r member
    have reached : log.blockNumber < s.cursor fromBlock := by rwa [← itemOf_block reads]
    obtain ⟨other, there, same⟩ := faithful.complete log here first reached r reads
    have outside := firsts.known other there
    have before := firsts.first other there r ⟨log, here, first, reads⟩ same.symm
    have within := lt_of_le_of_lt (block_le before) low
    have equal : other = r := world_apart other r outside ⟨log, here, first, reads⟩
      (le_antisymm before (scanned.first r member other ⟨outside, within⟩ same))
    exact equal ▸ ⟨there, within⟩

theorem items_perm {a b : List (Record Hash Content)} (perm : a.Perm b)
    (known : ∀ r ∈ a, World decode fromBlock chain r) : items a = items b := by
  have kept : (items a).Perm (items b) :=
    (List.perm_insertionSort _ _).trans ((perm.filter _).trans (List.perm_insertionSort _ _).symm)
  have from_world : ∀ r ∈ items a, World decode fromBlock chain r := by
    intro r member
    exact known r (List.mem_filter.mp ((List.mem_insertionSort _).mp member)).1
  have ordered : ∀ records : List (Record Hash Content), (items records).Pairwise fun a b => pos a ≤ pos b :=
    fun records => List.pairwise_insertionSort _ _
  refine kept.eq_of_pairwise ?_ (ordered a) (ordered b)
  intro x y one two before later
  exact world_apart x y (from_world x one) (from_world y (kept.symm.subset two)) (le_antisymm before later)

theorem Faithful.discovered (faithful : Faithful decode fromBlock chain s) : Discovered decode fromBlock chain s := by
  have distinct : (s.records.map Record.id).Nodup := faithful.firsts.distinct
  have scanned := (fullScan_firsts decode fromBlock (s.cursor fromBlock) chain).1
  have records : (below (s.cursor fromBlock) s.records).Perm
      (fullScan decode fromBlock chain (s.cursor fromBlock)) :=
    (List.perm_ext_iff_of_nodup (distinct.of_map.filter _) scanned.distinct.of_map).mpr (below_mem faithful)
  have known : ∀ r ∈ below (s.cursor fromBlock) s.records, World decode fromBlock chain r :=
    fun r member => faithful.firsts.known r (List.mem_of_mem_filter member)
  exact ⟨records, items_perm records known, distinct,
    fun r member => ⟨faithful.firsts.known r member, faithful.firsts.first r member⟩, faithful.read⟩

/-- In every state that syncs of any heads and sizes reach, stopped anywhere. -/
theorem sync_scans (decode : Decode Hash Body Content) (fromBlock : Nat) (chain : Chain Hash Body)
    (s : State Hash Body Content) (reached : Reachable (restrict (fun before action after =>
      step decode fromBlock before action = .ok after) (Honest fromBlock chain)) initial s) :
    Discovered decode fromBlock chain s := by
  have faithful : Faithful decode fromBlock chain s := by
    apply reached.invariant initial_faithful
    intro before action after faithful taken
    exact faithful.step taken.1 taken.2
  exact faithful.discovered

theorem reached_next {before after : State Hash Body Content}
    (earlier : Reachable (restrict (fun before action after => step decode fromBlock before action = .ok after)
      (Honest fromBlock chain)) initial before)
    (action : Action Hash Body) (honest : Honest fromBlock chain before action)
    (done : step decode fromBlock before action = .ok after) :
    Reachable (restrict (fun before action after => step decode fromBlock before action = .ok after)
      (Honest fromBlock chain)) initial after := .next earlier ⟨honest, done⟩

/-! One log in block 1, answered twice over, and a node that lags before. -/

def sampleLog : Log Nat Unit := ⟨1, 0, 7, false, ()⟩

def sampleChain : Chain Nat Unit where
  logs n := if n = 1 then [sampleLog] else []
  block n log member := by
    split at member
    · rename_i one
      rw [List.mem_singleton.mp member, one]
      rfl
    · cases member
  kept n log member := by
    split at member
    · rw [List.mem_singleton.mp member]
      rfl
    · cases member
  apart n log member other there _ := by
    split at member
    · rw [if_pos ‹n = 1›] at there
      rw [List.mem_singleton.mp member, List.mem_singleton.mp there]
    · cases member

def sampleDecode : Decode Nat Unit Unit := fun _ => some ("lane", fun _ => none)

theorem sampleChain_on (log : Log Nat Unit) : sampleChain.On log ↔ log = sampleLog := by
  unfold Chain.On sampleChain
  by_cases one : log.blockNumber = 1
  · simp [one]
  · simp only [one, if_false, List.not_mem_nil, false_iff]
    rintro rfl
    exact one rfl

theorem sync_scans_sample : ∃ s : State Nat Unit Unit, s.next = some 6 ∧ s.records.length = 1 ∧
    Discovered sampleDecode 0 sampleChain s := by
  let params : Params := ⟨2, 10, 3⟩
  refine ⟨_, ?_, ?_, sync_scans sampleDecode 0 sampleChain _ (reached_next (reached_next (reached_next (reached_next
    (reached_next (reached_next (reached_next (reached_next .start (.begin 7 params) trivial rfl) (.answer 0 []) ?_ rfl)
    (.check false) ?_ rfl) (.begin 7 params) trivial rfl) (.answer 6 [sampleLog, sampleLog]) ?_ rfl) .apply trivial rfl)
    .apply trivial rfl) (.check true) ?_ rfl)⟩
  · rfl
  · rfl
  -- The lagging node has block 0 only.
  · intro log
    change (log ∈ [] ∧ log.removed = false) ↔ sampleChain.On log ∧ 0 ≤ log.blockNumber ∧ log.blockNumber ≤ 0
    rw [sampleChain_on]
    constructor
    · rintro ⟨member, -⟩
      cases member
    · rintro ⟨rfl, -, high⟩
      exact absurd high (by decide)
  · intro known
    cases known
  · intro log
    change (log ∈ [sampleLog, sampleLog] ∧ log.removed = false) ↔
      sampleChain.On log ∧ 0 ≤ log.blockNumber ∧ log.blockNumber ≤ 5
    rw [sampleChain_on]
    constructor
    · rintro ⟨member, -⟩
      obtain rfl : log = sampleLog := by simpa using member
      exact ⟨rfl, by decide, by decide⟩
    · rintro ⟨rfl, -, -⟩
      exact ⟨List.mem_cons_self, rfl⟩
  · intro _
    change 5 ≤ 6
    decide

end Solonpad.LogDiscovery
