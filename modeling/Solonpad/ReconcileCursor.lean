import Solonpad.CanonicalKeeper
import Solonpad.HubSolvency

/-!
The cursor of the canonical keeper goes forward only, over checkpoints of which each result of a hub order is
reconciled or was presented.
-/

/-! The hub keeps its proofs. -/

namespace Solonpad.Hub

variable {c : Config} {s after : State}

theorem prove_keeps (f : File) (proven ref : Messages.Ref) (known : f.reconciled ref = true) :
    (f.prove proven).reconciled ref = true := by
  by_cases same : ref = proven
  · rw [same]
    exact Function.update_self ..
  · exact (Function.update_of_ne same ..).trans known

theorem check_reconciled (f : File) (now : Nat) : (f.check now).reconciled = f.reconciled := by
  unfold File.check
  split <;> rfl

theorem settle_keeps (f : File) (id now : Nat) (settled ref : Messages.Ref) (canonical : Bool)
    (outcome : Messages.Outcome) (known : f.reconciled ref = true) :
    (f.settle id now settled canonical outcome).reconciled ref = true := by
  unfold File.settle File.mark
  cases canonical with
  | true => exact prove_keeps _ settled ref known
  | false => exact known

theorem Checks.reconciled {now : Nat} {r : Messages.Result} {canonical : Bool} {f : File}
    (checks : Checks s now r canonical f) : f.reconciled = s.reconciled := by
  by_cases fast : r.outcome = .bought ∧ canonical = false
  · rw [(checks.checked fast.1 fast.2).1, check_reconciled]
    rfl
  · rw [checks.plain (by rw [not_and_or] at fast; simpa using fast)]
    rfl

theorem step_reconciled {call : Call} (taken : step c s call = .ok after) (ref : Messages.Ref)
    (known : s.reconciled ref = true) : after.reconciled ref = true := by
  have file : ∀ f : File, after.file = f → f.reconciled ref = true → after.reconciled ref = true := by
    rintro f rfl kept
    exact kept
  cases step_files taken with
  | keeps none calm sent telling same => exact file _ same known
  | places none calm minOut asks sent telling placed => exact file _ placed known
  | checks none calm checked => exact file _ checked (by rw [check_reconciled]; exact known)
  | resumes none called restarted => exact file _ restarted known
  | proves none calm proven halted same => exact file _ same (prove_keeps s.file proven ref known)
  | halts none calm halted => exact file _ halted known
  | answers id r canonical calm same settled answered =>
    obtain ⟨_, f, checks, same⟩ := answered
    exact file _ same (settle_keeps f id _ _ ref canonical _ (by rw [checks.reconciled]; exact known))

theorem step_orderCount {call : Call} (taken : step c s call = .ok after) : s.orderCount ≤ after.orderCount := by
  rcases (step_adds taken).orders with same | ⟨_, _, more⟩ <;> omega

end Solonpad.Hub

namespace Solonpad.CanonicalKeeper

open Checked Messages Transition MerkleProofs
open Chain (Address)
open Vault (covered)

variable {Hash : Type} [LinearOrder Hash] {c : Config Hash} {st after : State Hash} {i : Nat} {r : Result}
  {cp : Checkpoint Hash} {proof : List Hash} {t : Turn Hash} {phase : Phase Hash} {env : Hub.Env}
  {tx : Signed Hash} {key : Key} {gate : Journal.Gate} {outcome : Outcome} {now : Nat} {action : Action Hash}

/-! What is covered, and what stays. -/

omit [LinearOrder Hash] in
theorem mem_covered {results : List Result} :
    r ∈ covered results cp ↔ ∃ j, cp.fromSeq ≤ j ∧ j ≤ cp.toSeq ∧ results[j]? = some r := by
  constructor
  · intro member
    obtain ⟨n, found⟩ := List.mem_iff_getElem?.mp member
    obtain ⟨inside, entry⟩ := Vault.covered_entry found
    exact ⟨cp.fromSeq + n, Nat.le_add_right .., inside, entry⟩
  · rintro ⟨j, low, high, entry⟩
    refine List.mem_iff_getElem?.mpr ⟨j - cp.fromSeq, ?_⟩
    rw [covered, List.getElem?_take, if_pos (by omega), List.getElem?_drop, Nat.add_sub_cancel' low]
    exact entry

/-- The chains only add. -/
structure Grows (st after : State Hash) : Prop where
  arrived : st.arrived <+: after.arrived
  results : st.posted.vault.results <+: after.posted.vault.results
  reconciled : ∀ ref, st.hub.reconciled ref = true → after.hub.reconciled ref = true
  mined : ∀ e ∈ st.mined, e ∈ after.mined

theorem getElem?_grown {α : Type} {list longer : List α} (grown : list <+: longer) {n : Nat} (inside : n < list.length) :
    longer[n]? = list[n]? := by
  obtain ⟨rest, rfl⟩ := grown
  exact List.getElem?_append_left inside

theorem gateVerify_later {arrived later : List (Checkpoint Hash)} (grown : arrived <+: later)
    (taken : gateVerify c.hashing arrived r i proof = .ok ()) : gateVerify c.hashing later r i proof = .ok () := by
  obtain ⟨cp, there, checked⟩ := (Vault.gateVerify_ok arrived r i proof).mp taken
  refine (Vault.gateVerify_ok later r i proof).mpr ⟨cp, ?_, checked⟩
  rw [getElem?_grown grown (List.getElem?_eq_some_iff.mp there).1]
  exact there

theorem Handled.later (handled : Handled c st i r) (grows : Grows st after) : Handled c after i r := by
  intro id ref
  rcases handled id ref with known | ⟨tx, mined, result, index, taken⟩
  · exact .inl (grows.reconciled _ known)
  · exact .inr ⟨tx, grows.mined _ mined, result, index, gateVerify_later grows.arrived taken⟩

/-! What holds in the loops. -/

/-- The count of orders was read after the count of checkpoints. -/
structure Fits (st : State Hash) (w : Walk) : Prop where
  count : w.count ≤ st.arrived.length
  orders : ∀ i < w.count, ∀ cp, st.arrived[i]? = some cp → ∀ r ∈ covered st.posted.vault.results cp,
    ∀ id, r.ref = .order id → id < w.orders

structure FitsTurn (st : State Hash) (t : Turn Hash) : Prop extends Fits st t.toWalk where
  inside : t.i < t.count
  there : st.arrived[t.i]? = some t.cp
  first : t.cp.fromSeq ≤ t.s
  last : t.s ≤ t.cp.toSeq + 1

/-- The results the inner loop has gone past are handled. -/
def Past (c : Config Hash) (st : State Hash) (t : Turn Hash) : Prop :=
  ∀ j r, t.cp.fromSeq ≤ j → j < t.s → st.posted.vault.results[j]? = some r → Handled c st t.i r

/-- In `tx.call` for a result: it is counted as open, and nothing else is where all before are handled. -/
structure Asks (c : Config Hash) (st : State Hash) (t : Turn Hash) (r : Result) : Prop extends FitsTurn st t where
  found : st.posted.vault.results[t.s]? = some r
  within : t.s ≤ t.cp.toSeq
  counted : 0 < t.unproven
  past : t.unproven = 1 → Past c st t
  order : ∃ id, r.ref = .order id

def PhaseFits (c : Config Hash) (st : State Hash) : Phase Hash → Prop
  | .idle => True
  | .counted count => count ≤ st.arrived.length
  | .outer w => Fits st w
  | .inner t => FitsTurn st t ∧ (t.unproven = 0 → Past c st t)
  | .asking t r _ => Asks c st t r
  | .waiting t tx => Asks c st t tx.result ∧ tx.index = t.i ∧ tx ∈ st.signed

structure Faithful (c : Config Hash) (st : State Hash) : Prop where
  posted : Vault.Checkpointed c.hashing c.zero st.posted
  genuine : ∀ cp ∈ st.arrived, cp ∈ st.posted.sent
  known : ∀ r ∈ st.posted.vault.results, ∀ id, r.ref = .order id → id < st.hub.orderCount
  signed : ∀ tx ∈ st.signed, tx.result ∈ st.posted.vault.results
  mined : ∀ tx, (tx, true) ∈ st.mined →
    tx ∈ st.signed ∧ gateVerify c.hashing st.arrived tx.result tx.index tx.proof = .ok ()
  tasks : ∀ key task tx, st.tasks key = some task → task.tx = some tx →
    tx ∈ st.signed ∧ (tx.result.ref, tx.index) = key
  skipped : NoneSkipped c st
  phase : PhaseFits c st st.phase

theorem initial_faithful (vaultOwner bridger : Address) : Faithful c (initial c vaultOwner bridger) where
  posted := by
    have deployed : Reachable (Vault.posts c.hashing c.zero c.vault) ⟨Vault.deployed vaultOwner bridger, []⟩
        ⟨Vault.deployed vaultOwner bridger, []⟩ := .start
    exact Vault.run_checkpointed deployed
  genuine := by simp [initial]
  known := by simp [initial, Vault.deployed]
  signed := by simp [initial]
  mined := by simp [initial]
  tasks := by simp [initial]
  skipped := fun i below => absurd below (Nat.not_lt_zero i)
  phase := trivial

/-- An arrived checkpoint covers results that are all there. -/
theorem Faithful.within (faithful : Faithful c st) (there : st.arrived[i]? = some cp) :
    cp.toSeq < st.posted.vault.results.length :=
  (faithful.posted.tiles.each cp (faithful.genuine cp (List.mem_of_getElem? there))).2.2.1

/-- A hub order has one result. -/
theorem Faithful.once (faithful : Faithful c st) {a b : Result} (one : a ∈ st.posted.vault.results)
    (two : b ∈ st.posted.vault.results) {id : Nat} (order : a.ref = .order id) (same : b.ref = a.ref) : a = b := by
  have count := faithful.posted.orderly.once a.ref (by rw [order]; rfl)
  have results : st.posted.vault.book.results = st.posted.vault.results := rfl
  rw [results] at count
  obtain ⟨before, rest, split⟩ := List.append_of_mem one
  rw [split, List.map_append, List.map_cons, List.count_append, List.count_cons_self] at count
  by_contra different
  have other : b ∈ before ∨ b ∈ rest := by
    rw [split] at two
    rcases List.mem_append.mp two with early | late
    · exact .inl early
    · exact .inr ((List.mem_cons.mp late).resolve_left (Ne.symm different))
  rcases other with early | late
  · have more : 0 < (before.map Result.ref).count a.ref :=
      List.count_pos_iff.mpr (same ▸ List.mem_map_of_mem early)
    omega
  · have more : 0 < (rest.map Result.ref).count a.ref :=
      List.count_pos_iff.mpr (same ▸ List.mem_map_of_mem late)
    omega

theorem Fits.later {w : Walk} (fits : Fits st w) (faithful : Faithful c st) (grows : Grows st after) :
    Fits after w where
  count := fits.count.trans grows.arrived.length_le
  orders i below cp there r member := by
    rw [getElem?_grown grows.arrived (Nat.lt_of_lt_of_le below fits.count)] at there
    rw [Vault.covered_later grows.results (faithful.within there)] at member
    exact fits.orders i below cp there r member

theorem FitsTurn.later (fits : FitsTurn st t) (faithful : Faithful c st) (grows : Grows st after) :
    FitsTurn after t where
  toFits := fits.toFits.later faithful grows
  inside := fits.inside
  there := by
    rw [getElem?_grown grows.arrived (Nat.lt_of_lt_of_le fits.inside fits.count)]
    exact fits.there
  first := fits.first
  last := fits.last

theorem Past.later (past : Past c st t) (fits : FitsTurn st t) (faithful : Faithful c st)
    (grows : Grows st after) : Past c after t := by
  intro j r low high found
  have within := faithful.within fits.there
  have last := fits.last
  rw [getElem?_grown grows.results (by omega)] at found
  exact (past j r low high found).later grows

theorem Asks.later (asks : Asks c st t r) (faithful : Faithful c st) (grows : Grows st after) :
    Asks c after t r where
  toFitsTurn := asks.toFitsTurn.later faithful grows
  found := by
    rw [getElem?_grown grows.results (Nat.lt_of_le_of_lt asks.within (faithful.within asks.there))]
    exact asks.found
  within := asks.within
  counted := asks.counted
  past one := (asks.past one).later asks.toFitsTurn faithful grows
  order := asks.order

theorem PhaseFits.later (fits : PhaseFits c st phase) (faithful : Faithful c st) (grows : Grows st after)
    (signed : ∀ tx ∈ st.signed, tx ∈ after.signed) : PhaseFits c after phase := by
  cases phase with
  | idle => trivial
  | counted count => exact Nat.le_trans fits grows.arrived.length_le
  | outer w => exact Fits.later fits faithful grows
  | inner t => exact ⟨fits.1.later faithful grows, fun none => (fits.2 none).later fits.1 faithful grows⟩
  | asking t r proof => exact Asks.later fits faithful grows
  | waiting t tx => exact ⟨fits.1.later faithful grows, fits.2.1, signed tx fits.2.2⟩

theorem NoneSkipped.later (skipped : NoneSkipped c st) (faithful : Faithful c st) (grows : Grows st after)
    (cursor : after.cursor = st.cursor) : NoneSkipped c after := by
  intro i below
  obtain ⟨cp, there, handled⟩ := skipped i (cursor ▸ below)
  refine ⟨cp, ?_, fun r member => ?_⟩
  · rw [getElem?_grown grows.arrived (List.getElem?_eq_some_iff.mp there).1]
    exact there
  · rw [Vault.covered_later grows.results (faithful.within there)] at member
    exact (handled r member).later grows

/-! Steps of the chains. -/

/-- The chains went on and the keeper did nothing. -/
theorem Faithful.world (faithful : Faithful c st) (grows : Grows st after)
    (posted : Vault.Checkpointed c.hashing c.zero after.posted) (genuine : ∀ cp ∈ after.arrived, cp ∈ after.posted.sent)
    (known : ∀ r ∈ after.posted.vault.results, ∀ id, r.ref = .order id → id < after.hub.orderCount)
    (mined : ∀ tx, (tx, true) ∈ after.mined →
      tx ∈ after.signed ∧ gateVerify c.hashing after.arrived tx.result tx.index tx.proof = .ok ())
    (signed : after.signed = st.signed) (tasks : after.tasks = st.tasks) (cursor : after.cursor = st.cursor)
    (phase : after.phase = st.phase) : Faithful c after where
  posted := posted
  genuine := genuine
  known := known
  signed tx member := grows.results.subset (faithful.signed tx (signed ▸ member))
  mined := mined
  tasks key task tx noted of := by
    rw [tasks] at noted
    rw [signed]
    exact faithful.tasks key task tx noted of
  skipped := faithful.skipped.later faithful grows cursor
  phase := by
    rw [phase]
    exact faithful.phase.later faithful grows fun tx member => signed ▸ member

omit [LinearOrder Hash] in
/-- Where the chains stand still. -/
theorem grows_still (posted : after.posted = st.posted) (arrived : after.arrived = st.arrived)
    (hub : after.hub = st.hub) (mined : after.mined = st.mined) : Grows st after :=
  ⟨arrived ▸ List.prefix_rfl, posted ▸ List.prefix_rfl, fun _ known => hub ▸ known, fun _ member => mined ▸ member⟩

theorem Faithful.vault (faithful : Faithful c st) {call : Vault.Call} {posted : Vault.Posted Hash}
    (genuine : Genuine c st (.vault call)) (done : Vault.post c.hashing c.zero c.vault st.posted call = .ok posted) :
    Faithful c { st with posted := posted } := by
  obtain ⟨stepped, told⟩ := Vault.post_ok done
  have results := Vault.bookMove_results (Vault.move_book (Vault.step_move c.vault _ _ _ stepped))
  have kept : ∀ cp ∈ st.posted.sent, cp ∈ posted.sent := by
    intro cp member
    rcases told with ⟨_, same⟩ | ⟨m, _, more⟩
    · rw [same]
      exact member
    · rw [more]
      exact List.mem_append_left _ member
  exact faithful.world ⟨List.prefix_rfl, results, fun _ known => known, fun _ member => member⟩
    (Vault.post_checkpointed done faithful.posted) (fun cp member => kept cp (faithful.genuine cp member))
    (genuine posted done) faithful.mined rfl rfl rfl rfl

theorem Faithful.arrive (faithful : Faithful c st) (sent : cp ∈ st.posted.sent) :
    Faithful c { st with arrived := st.arrived ++ [cp] } := by
  refine faithful.world ⟨List.prefix_append .., List.prefix_rfl, fun _ known => known, fun _ member => member⟩
    faithful.posted ?_ faithful.known (fun tx member => ?_) rfl rfl rfl rfl
  · intro other member
    rcases List.mem_append.mp member with old | new
    · exact faithful.genuine other old
    · rw [List.mem_singleton.mp new]
      exact sent
  · obtain ⟨own, taken⟩ := faithful.mined tx member
    exact ⟨own, gateVerify_later (List.prefix_append ..) taken⟩

theorem Faithful.hub (faithful : Faithful c st) {call : Hub.Call} {hub : Hub.State}
    (done : Hub.step c.hub st.hub call = .ok hub) : Faithful c { st with hub := hub } :=
  faithful.world ⟨List.prefix_rfl, List.prefix_rfl, Hub.step_reconciled done, fun _ member => member⟩
    faithful.posted faithful.genuine
    (fun r member id ref => Nat.lt_of_lt_of_le (faithful.known r member id ref) (Hub.step_orderCount done))
    faithful.mined rfl rfl rfl rfl

omit [LinearOrder Hash] in
/-- A reconciliation that goes through has passed the gate. -/
theorem reconcile_proven {s hub : Hub.State} (done : Hub.step c.hub s ⟨env, .reconcile r⟩ = .ok hub) :
    env.proven = true := by
  have run : Hub.reconcile c.hub s env r = .ok hub := done
  simp only [Hub.reconcile, bind_ok, require_ok] at run
  obtain ⟨_, proven, _⟩ := run
  exact proven

theorem Faithful.mine (faithful : Faithful c st) {gas : Bool} (done : mine c st tx env gas = .ok after) :
    Faithful c after := by
  unfold CanonicalKeeper.mine at done
  split at done
  · rename_i own
    dsimp only at done
    split at done
    · rename_i hub taken
      cases done
      have passed := of_decide_eq_true (reconcile_proven taken)
      refine faithful.world ⟨List.prefix_rfl, List.prefix_rfl, Hub.step_reconciled taken,
        fun _ member => List.mem_append_left _ member⟩ faithful.posted faithful.genuine
        (fun r member id ref => Nat.lt_of_lt_of_le (faithful.known r member id ref) (Hub.step_orderCount taken))
        (fun other member => ?_) rfl rfl rfl rfl
      rcases List.mem_append.mp member with old | new
      · exact faithful.mined other old
      · cases List.mem_singleton.mp new
        exact ⟨own, passed⟩
    · cases done
      refine faithful.world ⟨List.prefix_rfl, List.prefix_rfl, fun _ known => known,
        fun _ member => List.mem_append_left _ member⟩ faithful.posted faithful.genuine faithful.known
        (fun other member => ?_) rfl rfl rfl rfl
      rcases List.mem_append.mp member with old | new
      · exact faithful.mined other old
      · cases List.mem_singleton.mp new
  · cases done

/-! Steps of the keeper. -/

/-- A step that only moves on in the phase. -/
theorem Faithful.goes (faithful : Faithful c st) (fits : PhaseFits c st phase) :
    Faithful c { st with phase := phase } :=
  ⟨faithful.posted, faithful.genuine, faithful.known, faithful.signed, faithful.mined, faithful.tasks,
    faithful.skipped.later faithful (grows_still rfl rfl rfl rfl) rfl,
    fits.later faithful (grows_still rfl rfl rfl rfl) fun _ member => member⟩

/-- A task written down again, of a transaction that is its own. -/
theorem Faithful.notes (faithful : Faithful c st) {task : Journal.Task (Signed Hash)}
    (own : ∀ tx, task.tx = some tx → tx ∈ st.signed ∧ (tx.result.ref, tx.index) = key) :
    Faithful c (st.onTask key task) := by
  refine ⟨faithful.posted, faithful.genuine, faithful.known, faithful.signed, faithful.mined, ?_,
    faithful.skipped.later faithful (grows_still rfl rfl rfl rfl) rfl,
    faithful.phase.later faithful (grows_still rfl rfl rfl rfl) fun _ member => member⟩
  intro other noted tx found of
  by_cases same : other = key
  · have written : (st.onTask key task).tasks key = some task := Function.update_self ..
    rw [same, written] at found
    cases found
    rw [same]
    exact own tx of
  · have kept : (st.onTask key task).tasks other = st.tasks other := Function.update_of_ne same ..
    rw [kept] at found
    exact faithful.tasks other noted tx found of

theorem Faithful.fails (faithful : Faithful c st) (key : Key) (now : Nat) :
    Faithful c (st.onTask key (Journal.markFailure (st.tasks key) now)) := by
  refine faithful.notes fun tx of => ?_
  cases noted : st.tasks key with
  | none =>
    rw [noted] at of
    cases of
  | some task =>
    rw [noted] at of
    exact faithful.tasks key task tx noted of

theorem Faithful.confirms (faithful : Faithful c st)
    (own : tx ∈ st.signed ∧ (tx.result.ref, tx.index) = key) : Faithful c (st.confirms gate key tx) := by
  unfold State.confirms
  split
  · refine faithful.notes fun other of => ?_
    cases of
    exact own
  · exact faithful

theorem Faithful.signs (faithful : Faithful c st) (tx : Signed Hash)
    (found : tx.result ∈ st.posted.vault.results) : Faithful c { st with signed := st.signed ++ [tx] } := by
  have kept : ∀ other ∈ st.signed, other ∈ st.signed ++ [tx] := fun _ member => List.mem_append_left _ member
  refine ⟨faithful.posted, faithful.genuine, faithful.known, ?_, ?_, ?_,
    faithful.skipped.later faithful (grows_still rfl rfl rfl rfl) rfl, ?_⟩
  · intro other member
    rcases List.mem_append.mp member with old | new
    · exact faithful.signed other old
    · rw [List.mem_singleton.mp new]
      exact found
  · exact fun other member => (faithful.mined other member).imp_left (kept other)
  · exact fun key task other noted of => (faithful.tasks key task other noted of).imp_left (kept other)
  · exact faithful.phase.later faithful (grows_still rfl rfl rfl rfl) kept

theorem taskTx_own (faithful : Faithful c st) (found : taskTx gate (st.tasks key) = some tx) :
    tx ∈ st.signed ∧ (tx.result.ref, tx.index) = key := by
  have noted : (st.tasks key).bind Journal.Task.tx = some tx := by
    cases gate <;> first | exact found | cases found
  obtain ⟨task, some_task, of⟩ := Option.bind_eq_some_iff.mp noted
  exact faithful.tasks key task tx some_task of

/-- The result in `tx.call` is handled by a transaction of its task that went through. -/
theorem Faithful.presented (faithful : Faithful c st) (asks : Asks c st t r)
    (own : tx ∈ st.signed ∧ (tx.result.ref, tx.index) = (r.ref, t.i)) (received : st.Received tx) :
    Handled c st t.i r := by
  obtain ⟨member, key⟩ := own
  obtain ⟨ref, index⟩ := Prod.mk.inj key
  obtain ⟨id, order⟩ := asks.order
  have result : r = tx.result :=
    faithful.once (List.mem_of_getElem? asks.found) (faithful.signed tx member) order ref
  obtain ⟨_, taken⟩ := faithful.mined tx received
  rw [← result, index] at taken
  exact fun _ _ => .inr ⟨tx, received, result.symm, index, taken⟩

theorem Asks.pass (asks : Asks c st t r) : PhaseFits c st (.inner t.pass) := by
  have within := asks.within
  have first := asks.first
  refine ⟨⟨asks.toFits, asks.inside, asks.there, Nat.le_succ_of_le first, Nat.succ_le_succ within⟩, fun none => ?_⟩
  have counted := asks.counted
  have none : t.unproven = 0 := none
  omega

theorem Asks.proven (asks : Asks c st t r) (handled : Handled c st t.i r) : PhaseFits c st (.inner t.proven) := by
  have within := asks.within
  have first := asks.first
  refine ⟨⟨asks.toFits, asks.inside, asks.there, Nat.le_succ_of_le first, Nat.succ_le_succ within⟩, fun none => ?_⟩
  have counted := asks.counted
  have none : t.unproven - 1 = 0 := none
  intro j other low high found
  have high : j < t.s + 1 := high
  by_cases last : j = t.s
  · have same : other = r := Option.some.inj (found.symm.trans (last ▸ asks.found))
    rw [same]
    exact handled
  · exact asks.past (by omega) j other low (by omega) found

/-- Its transaction is signed, written down and handed over. -/
theorem Faithful.sends (faithful : Faithful c st) (asks : Asks c st t tx.result) (index : tx.index = t.i) (now : Nat) :
    Faithful c { st.onTask (tx.result.ref, t.i) (Journal.markSent (st.tasks (tx.result.ref, t.i)) tx now) with
      signed := st.signed ++ [tx]
      phase := .waiting t tx } := by
  have own : tx ∈ st.signed ++ [tx] := List.mem_append_right _ (List.mem_singleton_self _)
  have noted : Faithful c ({ st with signed := st.signed ++ [tx] }.onTask (tx.result.ref, t.i)
      (Journal.markSent (st.tasks (tx.result.ref, t.i)) tx now)) := by
    refine (faithful.signs tx (List.mem_of_getElem? asks.found)).notes fun other of => ?_
    cases of
    exact ⟨own, by rw [index]⟩
  have fits : PhaseFits c ({ st with signed := st.signed ++ [tx] }.onTask (tx.result.ref, t.i)
      (Journal.markSent (st.tasks (tx.result.ref, t.i)) tx now)) (.waiting t tx) :=
    ⟨asks.later faithful (grows_still rfl rfl rfl rfl), index, own⟩
  exact noted.goes fits

theorem Faithful.ask (faithful : Faithful c st) (asks : Asks c st t r)
    (done : ask st t r proof outcome now = .ok after) : Faithful c after := by
  unfold CanonicalKeeper.ask at done
  cases outcome with
  | deferred =>
    cases done
    exact faithful.goes asks.pass
  | failed =>
    dsimp only at done
    split at done <;> cases done
    have kept : Asks c (st.onTask (r.ref, t.i) (Journal.markFailure (st.tasks (r.ref, t.i)) now)) t r :=
      asks.later faithful (grows_still rfl rfl rfl rfl)
    exact (faithful.fails (r.ref, t.i) now).goes kept.pass
  | sign nonce =>
    dsimp only at done
    split at done <;> cases done
    have asked : Asks c st t (⟨r, t.i, proof, nonce⟩ : Signed Hash).result := asks
    exact faithful.sends asked rfl now
  | confirmed =>
    dsimp only at done
    split at done
    · rename_i tx found
      have own := taskTx_own faithful found
      split at done <;> cases done
      rename_i received
      have handled := faithful.presented asks own received
      have still : Grows st (st.confirms (Journal.taskGate (st.tasks (r.ref, t.i)) now) (r.ref, t.i) tx) := by
        unfold State.confirms
        split <;> exact grows_still rfl rfl rfl rfl
      exact (faithful.confirms own).goes ((asks.later faithful still).proven (handled.later still))
    · cases done

theorem Faithful.await (faithful : Faithful c st) (asks : Asks c st t tx.result) (index : tx.index = t.i)
    (own : tx ∈ st.signed) (done : await st t tx outcome now = .ok after) : Faithful c after := by
  unfold CanonicalKeeper.await at done
  cases outcome with
  | deferred =>
    cases done
    exact faithful.goes asks.pass
  | failed =>
    cases done
    have kept : Asks c (st.onTask (tx.result.ref, tx.index)
        (Journal.markFailure (st.tasks (tx.result.ref, tx.index)) now)) t tx.result :=
      asks.later faithful (grows_still rfl rfl rfl rfl)
    exact (faithful.fails (tx.result.ref, tx.index) now).goes kept.pass
  | sign nonce => cases done
  | confirmed =>
    dsimp only at done
    split at done <;> cases done
    rename_i received
    have handled := faithful.presented asks ⟨own, by rw [index]⟩ received
    have still : Grows st (st.onTask (tx.result.ref, tx.index)
        (Journal.markConfirmed (st.tasks (tx.result.ref, tx.index)) tx)) := grows_still rfl rfl rfl rfl
    have noted : Faithful c (st.onTask (tx.result.ref, tx.index)
        (Journal.markConfirmed (st.tasks (tx.result.ref, tx.index)) tx)) := by
      refine faithful.notes fun other of => ?_
      cases of
      exact ⟨own, rfl⟩
    exact noted.goes ((asks.later faithful still).proven (handled.later still))

theorem Faithful.settle (faithful : Faithful c st) (done : settle st key outcome now = .ok after) :
    Faithful c after := by
  unfold CanonicalKeeper.settle at done
  dsimp only at done
  split at done
  · cases outcome with
    | deferred =>
      cases done
      exact faithful
    | failed =>
      cases done
      exact faithful.fails key now
    | sign nonce => cases done
    | confirmed =>
      dsimp only at done
      split at done
      · rename_i tx found
        split at done <;> cases done
        exact faithful.confirms (taskTx_own faithful found)
      · cases done
  · cases done

/-- The cursor moves over a checkpoint the inner loop went through with nothing open. -/
theorem Faithful.close (faithful : Faithful c st) (fits : PhaseFits c st (.inner t))
    (ended : ¬ (t.s ≤ t.cp.toSeq ∧ 0 < t.budget)) : Faithful c (st.close t) := by
  obtain ⟨turn, past⟩ := fits
  have outer : PhaseFits c st (.outer { t.toWalk with i := t.i + 1 }) := ⟨turn.count, turn.orders⟩
  refine ⟨faithful.posted, faithful.genuine, faithful.known, faithful.signed, faithful.mined, faithful.tasks, ?_,
    outer.later faithful (grows_still rfl rfl rfl rfl) fun _ member => member⟩
  intro i below
  have below : i < if t.unproven = 0 ∧ 0 < t.budget ∧ t.i = st.cursor then st.cursor + 1 else st.cursor := below
  by_cases before : i < st.cursor
  · exact faithful.skipped i before
  · split at below
    · rename_i over_
      obtain ⟨none, left, next⟩ := over_
      obtain rfl : i = t.i := by omega
      have whole : t.s = t.cp.toSeq + 1 := by
        have last := turn.last
        omega
      refine ⟨t.cp, turn.there, fun r member => ?_⟩
      obtain ⟨j, low, high, found⟩ := mem_covered.mp member
      exact past none j r low (by omega) found
    · exact absurd below before

theorem Faithful.look (faithful : Faithful c st) (fits : PhaseFits c st (.inner t))
    (done : look c st t = .ok after) : Faithful c after := by
  unfold CanonicalKeeper.look at done
  split at done
  · rename_i more
    obtain ⟨turn, past⟩ := fits
    have first := turn.first
    split at done
    · cases done
    · rename_i r found
      have covers : r ∈ covered st.posted.vault.results t.cp := mem_covered.mpr ⟨t.s, first, more.1, found⟩
      split at done
      · rename_i passed
        cases done
        refine faithful.goes ⟨⟨turn.toFits, turn.inside, turn.there, Nat.le_succ_of_le first,
          Nat.succ_le_succ more.1⟩, fun none => ?_⟩
        intro j other low high entry
        have high : j < t.s + 1 := high
        by_cases last : j = t.s
        · have same : other = r := Option.some.inj (entry.symm.trans (last ▸ found))
          subst same
          intro id ref
          -- A hub order's number is below the count that was read.
          have counted := turn.orders t.i turn.inside t.cp turn.there other covers id ref
          rcases passed with foreign | known
          · rw [ref] at foreign
            exact absurd (of_decide_eq_true foreign) (Nat.not_le.mpr counted)
          · exact .inl known
        · exact past none j other low (by omega) entry
      · rename_i owed
        split at done <;> cases done
        have order : ∃ id, r.ref = .order id := by
          cases ref : r.ref with
          | order id => exact ⟨id, rfl⟩
          | migration underlying nonce => exact absurd (.inl (by rw [ref]; rfl)) owed
        exact faithful.goes (show PhaseFits c st (.asking t.presents r _) from
          ⟨⟨⟨turn.count, turn.orders⟩, turn.inside, turn.there, first, turn.last⟩, found, more.1, Nat.succ_pos _,
            fun one => past (Nat.succ.inj one), order⟩)
  · rename_i ended
    cases done
    exact faithful.close fits ended

theorem Faithful.step (faithful : Faithful c st) (genuine : Genuine c st action)
    (done : step c st action = .ok after) : Faithful c after := by
  unfold CanonicalKeeper.step at done
  have fits := faithful.phase
  cases action with
  | vault call =>
    dsimp only at done
    split at done <;> cases done
    exact faithful.vault genuine (by assumption)
  | arrive cp =>
    dsimp only at done
    split at done <;> cases done
    exact faithful.arrive (by assumption)
  | hub call =>
    dsimp only at done
    split at done <;> cases done
    exact faithful.hub (by assumption)
  | mine tx env gas => exact faithful.mine done
  | settle key outcome now =>
    dsimp only at done
    split at done
    · exact faithful.settle done
    · cases done
  | begin =>
    dsimp only at done
    split at done <;> cases done
    exact faithful.goes (Nat.le_refl _)
  | ordersRead budget =>
    dsimp only at done
    split at done <;> cases done
    rename_i count phase
    rw [phase] at fits
    refine faithful.goes ⟨fits, fun i _ cp there r member => ?_⟩
    obtain ⟨j, _, _, found⟩ := mem_covered.mp member
    exact faithful.known r (List.mem_of_getElem? found)
  | next =>
    dsimp only at done
    split at done
    · rename_i w phase
      rw [phase] at fits
      split at done
      · rename_i more
        split at done <;> cases done
        rename_i cp there
        have ordered := (faithful.posted.tiles.each cp (faithful.genuine cp (List.mem_of_getElem? there))).1
        refine faithful.goes ⟨⟨⟨fits.count, fits.orders⟩, more.1, there, Nat.le_refl _, Nat.le_succ_of_le ordered⟩,
          fun _ j r low high => absurd low (Nat.not_le.mpr high)⟩
      · cases done
        exact faithful.goes trivial
    · cases done
  | look =>
    dsimp only at done
    split at done
    · rename_i t phase
      rw [phase] at fits
      exact faithful.look fits done
    · cases done
  | ask outcome now =>
    dsimp only at done
    split at done
    · rename_i t r proof phase
      rw [phase] at fits
      exact faithful.ask fits done
    · cases done
  | await outcome now =>
    dsimp only at done
    split at done
    · rename_i t tx phase
      rw [phase] at fits
      exact faithful.await fits.1 fits.2.1 fits.2.2 done
    · cases done
  | crash =>
    cases done
    exact faithful.goes trivial

/-! The cursor. -/

omit [LinearOrder Hash] in
theorem confirms_cursor (gate : Journal.Gate) (key : Key) (tx : Signed Hash) :
    (st.confirms gate key tx).cursor = st.cursor := by
  unfold State.confirms
  split <;> rfl

theorem mine_cursor {gas : Bool} (done : mine c st tx env gas = .ok after) : after.cursor = st.cursor := by
  unfold mine at done
  split at done
  · dsimp only at done
    split at done <;> cases done <;> rfl
  · cases done

theorem settle_cursor (done : settle st key outcome now = .ok after) : after.cursor = st.cursor := by
  unfold settle at done
  dsimp only at done
  split at done
  · split at done
    · cases done
      rfl
    · cases done
      rfl
    · cases done
    · split at done
      · split at done <;> cases done
        exact confirms_cursor ..
      · cases done
  · cases done

theorem ask_cursor (done : ask st t r proof outcome now = .ok after) : after.cursor = st.cursor := by
  unfold ask at done
  dsimp only at done
  split at done
  · cases done
    rfl
  · split at done <;> cases done
    rfl
  · split at done <;> cases done
    rfl
  · split at done
    · split at done <;> cases done
      exact confirms_cursor ..
    · cases done

theorem await_cursor (done : await st t tx outcome now = .ok after) : after.cursor = st.cursor := by
  unfold await at done
  dsimp only at done
  split at done
  · cases done
    rfl
  · cases done
    rfl
  · cases done
  · split at done <;> cases done
    rfl

theorem look_cursor (done : look c st t = .ok after) : st.cursor ≤ after.cursor := by
  unfold look at done
  split at done
  · split at done
    · cases done
    · split at done
      · cases done
        exact Nat.le_refl _
      · split at done <;> cases done
        exact Nat.le_refl _
  · cases done
    simp only [State.close]
    split <;> omega

theorem step_cursor (done : step c st action = .ok after) : st.cursor ≤ after.cursor := by
  unfold CanonicalKeeper.step at done
  cases action with
  | vault | arrive | hub | begin | ordersRead =>
    dsimp only at done
    split at done <;> cases done
    exact Nat.le_refl _
  | mine tx env gas => exact (mine_cursor done).ge
  | settle key outcome now =>
    dsimp only at done
    split at done
    · exact (settle_cursor done).ge
    · cases done
  | next =>
    dsimp only at done
    split at done
    · split at done
      · split at done <;> cases done
        exact Nat.le_refl _
      · cases done
        exact Nat.le_refl _
    · cases done
  | look =>
    dsimp only at done
    split at done
    · exact look_cursor done
    · cases done
  | ask outcome now =>
    dsimp only at done
    split at done
    · exact (ask_cursor done).ge
    · cases done
  | await outcome now =>
    dsimp only at done
    split at done
    · exact (await_cursor done).ge
    · cases done
  | crash =>
    cases done
    exact Nat.le_refl _

theorem run_faithful {vaultOwner bridger : Address} (reached : Reachable (runs c) (initial c vaultOwner bridger) st) :
    Faithful c st :=
  reached.invariant (initial_faithful vaultOwner bridger) fun _ _ _ faithful taken => faithful.step taken.1 taken.2

/-- In every run the cursor never goes back, and nothing below it was left out. -/
theorem reconcile_skips_none (c : Config Hash) (vaultOwner bridger : Address) (st later : State Hash)
    (reached : Reachable (runs c) (initial c vaultOwner bridger) st) (run : Reachable (runs c) st later) :
    NoneSkipped c st ∧ st.cursor ≤ later.cursor := by
  refine ⟨(run_faithful reached).skipped, ?_⟩
  apply run.invariant (Nat.le_refl st.cursor)
  exact fun before action after before_le taken => before_le.trans (step_cursor taken.2)

/-! A checkpoint over one result, which somebody else proved on the hub. -/

def sample : Config Nat := ⟨Hub.sample, Vault.sample, Vault.sampleHashing, 0⟩

/-- An order is bought and its result proven before its vault sends a checkpoint. -/
def provenElsewhere : List (Action Nat) :=
  [.hub (Hub.by' 2 0 (.listStock 50 30 (10 ^ 20) 60 1)),
    .hub (Hub.by' 12 (32 * 10 ^ 18) (.requestBuy 50 (30 * 10 ^ 18) 1)), .hub (Hub.by' 3 0 (.launch 0 0 0)),
    .hub (Hub.by' 11 0 (.reconcile ⟨.order 0, 50, .bought, 20 * 10 ^ 6, 10 ^ 18, 0⟩))] ++
  Vault.boughtOnce.map .vault

/-- Nothing is under way, and the one result is proven and not covered. -/
def awaitsCheckpoint (st : State Nat) : Bool :=
  (match st.phase with
    | .idle => true
    | _ => false) &&
  decide (st.hub.reconciled (.order 0) = true ∧
    st.posted.vault.results.map Result.ref = [.order 0] ∧ st.posted.vault.checkpointedThrough = 0 ∧
    st.posted.sent = [] ∧ st.arrived = [] ∧ st.cursor = 0)

/-- From there a checkpoint is sent and passed. -/
theorem passes_checkpoint {st : State Nat} (reached : Reachable (runs sample) (initial sample 1 2) st)
    (ready : awaitsCheckpoint st = true) : ∃ later, Reachable (runs sample) st later ∧ later.cursor = 1 := by
  have known := (run_faithful reached).known
  obtain ⟨⟨vault, sent⟩, arrived, hub, signed, mined, tasks, cursor, phase⟩ := st
  simp only [awaitsCheckpoint, Bool.and_eq_true, decide_eq_true_eq, List.map_eq_singleton_iff] at ready
  obtain ⟨idle, proven, ⟨r, results, ref⟩, mark, rfl, rfl, rfl⟩ := ready
  obtain ⟨posted, ⟨root, first, last⟩, sent⟩ :=
    (Vault.sendCheckpoint_succeeds (by
      rw [mark, results]
      exact (by decide : 0 < toUint64 1)) :
      ∃ after m, Vault.sendCheckpoint sample.hashing sample.zero vault = .ok (after, m))
  obtain ⟨_, start, _, _, within, kept, _⟩ := Vault.sendCheckpoint_ok sent
  rw [results] at kept within
  cases start.trans mark
  cases Nat.lt_one_iff.mp within
  cases phase with
  | idle =>
    have done : Vault.post sample.hashing sample.zero sample.vault ⟨vault, []⟩ ⟨9, 1, .checkpoint⟩ =
        .ok ⟨posted, [⟨root, 0, 0⟩]⟩ := by
      simp only [Vault.post, sent, bind_ok, pure_ok]
      exact ⟨_, rfl, rfl⟩
    have genuine : Genuine sample ⟨⟨vault, []⟩, [], hub, signed, mined, tasks, 0, .idle⟩
        (.vault ⟨9, 1, .checkpoint⟩) := by
      intro _ also r there
      cases done.symm.trans also
      rw [kept, ← results] at there
      exact known r there
    have sends : runs sample _ (.vault ⟨9, 1, .checkpoint⟩)
        ⟨⟨posted, [⟨root, 0, 0⟩]⟩, [], hub, signed, mined, tasks, 0, .idle⟩ :=
      ⟨genuine, by simp only [step]; rw [done]⟩
    -- The checkpoint arrives, and the keeper's next phase finds its result proven.
    let moment (phase : Phase Nat) : State Nat :=
      ⟨⟨posted, [⟨root, 0, 0⟩]⟩, [⟨root, 0, 0⟩], hub, signed, mined, tasks, 0, phase⟩
    have arrives := Reachable.next (.next .start sends) (show runs sample _ (.arrive ⟨root, 0, 0⟩) (moment .idle)
      from ⟨trivial, if_pos (List.mem_singleton_self _)⟩)
    have begins := Reachable.next arrives (show runs sample _ .begin (moment (.counted 1)) from ⟨trivial, rfl⟩)
    have counts := Reachable.next begins (show runs sample _ (.ordersRead 5) (moment (.outer ⟨1, hub.orderCount, 5, 0⟩))
      from ⟨trivial, rfl⟩)
    have enters := Reachable.next counts (show runs sample _ .next
      (moment (.inner ⟨⟨1, hub.orderCount, 5, 0⟩, ⟨root, 0, 0⟩, 0, 0⟩)) from ⟨trivial, rfl⟩)
    have found : look sample (moment (.inner ⟨⟨1, hub.orderCount, 5, 0⟩, ⟨root, 0, 0⟩, 0, 0⟩))
        ⟨⟨1, hub.orderCount, 5, 0⟩, ⟨root, 0, 0⟩, 0, 0⟩ =
        .ok (moment (.inner ⟨⟨1, hub.orderCount, 5, 0⟩, ⟨root, 0, 0⟩, 1, 0⟩)) := by
      simp [look, moment, kept, ref, proven, Turn.pass]
    have passes := Reachable.next enters (show runs sample _ .look _ from ⟨trivial, found⟩)
    exact ⟨_, .next passes (show runs sample _ .look _ from ⟨trivial, rfl⟩), rfl⟩
  | _ => cases idle

theorem reconcile_skips_none_proven : ∃ st later : State Nat, st.cursor = 1 ∧ NoneSkipped sample st ∧
    st.cursor ≤ later.cursor := by
  obtain ⟨before, reached, ready⟩ :=
    run_passes (step sample) (Genuine sample) provenElsewhere (initial sample 1 2) awaitsCheckpoint (by decide)
  obtain ⟨st, passing, passed⟩ := passes_checkpoint reached ready
  have dies : runs sample st .crash { st with phase := .idle } := ⟨trivial, rfl⟩
  have kept := reconcile_skips_none sample 1 2 st _ (reached.trans passing) (.next .start dies)
  exact ⟨st, _, passed, kept⟩

end Solonpad.CanonicalKeeper
