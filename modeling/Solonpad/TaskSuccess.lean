import Solonpad.TxSender

/-!
One success for a task key. A transaction is dead once it can neither have succeeded nor be mined any more;
a new one is signed only over dead ones. What `reconcile` and `send` count as a failure is dead except in
three places, where they go by a read or an answer that the chain has overtaken.
-/

namespace Solonpad.TxSender

open Checked Journal Transition

def Dead (s : State) (tx : Signed) : Prop :=
  s.receipt tx ≠ some true ∧ (tx ∈ s.handed → tx.nonce < s.mined.length)

/-- The task is Sent with this transaction. -/
def InFlight (task : Option (Journal.Task Signed)) (tx : Signed) : Prop :=
  ∃ t, task = some t ∧ t.state = .sent ∧ t.tx = some tx

/-- Of all that was signed only this one may live. -/
def Only (s : State) (tx : Signed) : Prop := ∀ other ∈ s.signed, other ≠ tx → Dead s other

def StageFits (s : State) : Prop :=
  match s.stage with
  | .idle | .confirmedReceipt _ => True
  | .receipt tx _ _ _ | .latestCount tx _ _ _ | .rebroadcast tx _ | .rebroadcasting tx _ | .waiting tx
  | .lateReceipt tx => InFlight s.task tx
  | .simulation _ _ | .feeData _ _ | .estimate _ _ | .pendingCount _ _ _ => Open s.task
  | .broadcast tx => InFlight s.task tx ∧ tx ∉ s.handed
  | .broadcasting tx => InFlight s.task tx ∧ tx ∉ s.handed.erase tx

structure Sound (s : State) : Prop where
  mined : ∀ (i : Nat) tx success, s.mined[i]? = some (.own tx success) → tx.nonce = i ∧ tx ∈ s.signed
  handed : ∀ tx ∈ s.handed, tx ∈ s.signed
  opened : Open s.task → ∀ tx ∈ s.signed, Dead s tx
  current : ∀ t, s.task = some t → t.state = .sent ∨ t.state = .confirmed →
    ∃ tx, t.tx = some tx ∧ tx ∈ s.signed ∧ Only s tx
  stage : StageFits s

/-- Failures are counted for dead transactions: the receipt was not overtaken between the two reads of
`reconcile`, it gives up on nothing the provider has, and what `send` takes for a rejection is none of a
transaction that waits or has succeeded. -/
def careful (c : Config) (s : State) : Action → Bool
  | .latestCountRead =>
    match s.stage with
    | .latestCount tx _ sentAt _ => decide (s.receipt tx ≠ some true ∧
        (s.mined.length ≤ tx.nonce → c.giveUpMs < s.now - sentAt → tx ∉ s.handed))
    | _ => true
  | .answered .alreadyKnown | .answered .nonceTooLow =>
    match s.stage with
    | .broadcasting tx => decide (tx.nonce < s.mined.length ∧ s.receipt tx ≠ some true)
    | _ => true
  | _ => true

def Careful (c : Config) (s : State) (action : Action) : Prop := careful c s action = true

instance (c : Config) (s : State) (action : Action) : Decidable (Careful c s action) :=
  inferInstanceAs (Decidable (_ = _))

variable {c : Config} {s after : State} {tx : Signed}

theorem deployed_sound (now : Nat) (mined : List Entry) (foreign : ∀ entry ∈ mined, entry = .other) :
    Sound (deployed mined now) where
  mined := by
    intro i tx success found
    cases foreign _ (List.mem_of_getElem? found)
  handed := nofun
  opened := fun _ => nofun
  current := nofun
  stage := trivial

theorem receipt_some {success : Bool} (read : s.receipt tx = some success) :
    s.mined[tx.nonce]? = some (.own tx success) := by
  unfold State.receipt at read
  split at read
  · next own success' found =>
    split at read
    · next same =>
      cases read
      rw [found, same]
    · cases read
  · cases read

/-- A transaction with a receipt has used its nonce. -/
theorem receipt_used {success : Bool} (read : s.receipt tx = some success) : tx.nonce < s.mined.length :=
  (List.getElem?_eq_some_iff.mp (receipt_some read)).1

theorem InFlight.closed {task : Option (Journal.Task Signed)} (flying : InFlight task tx) : ¬ Open task := by
  obtain ⟨t, same, state, _⟩ := flying
  exact fun free => (free t same).1 state

theorem InFlight.only (sound : Sound s) (flying : InFlight s.task tx) : tx ∈ s.signed ∧ Only s tx := by
  obtain ⟨t, same, state, noted⟩ := flying
  obtain ⟨own, current, only⟩ := sound.current t same (.inl state)
  rw [noted] at current
  cases current
  exact only

theorem InFlight.dead (sound : Sound s) (flying : InFlight s.task tx) (dead : Dead s tx) :
    ∀ other ∈ s.signed, Dead s other := by
  intro other member
  by_cases same : other = tx
  · exact same ▸ dead
  · exact (flying.only sound).2 other member same

/-! What a call does. -/

theorem Sound.moves (sound : Sound s) (stage : Stage) (answer : Option Status)
    (fits : StageFits { s with stage := stage, answer := answer }) :
    Sound { s with stage := stage, answer := answer } :=
  ⟨sound.mined, sound.handed, sound.opened, sound.current, fits⟩

theorem Sound.ends (sound : Sound s) (answer : Status) : Sound (s.ends answer) :=
  sound.moves .idle (some answer) trivial

theorem Sound.fails (sound : Sound s) (answer : Status) (dead : ∀ tx ∈ s.signed, Dead s tx) :
    Sound (s.fails answer) where
  mined := sound.mined
  handed := sound.handed
  opened := fun _ => dead
  current := by
    intro t same state
    obtain ⟨unsent, unconfirmed⟩ := markFailure_open s.task s.now t same
    exact absurd state (not_or.mpr ⟨unsent, unconfirmed⟩)
  stage := trivial

theorem Sound.confirms (sound : Sound s) (flying : InFlight s.task tx) : Sound (s.confirms tx) where
  mined := sound.mined
  handed := sound.handed
  opened := fun free => absurd rfl (free _ rfl).2
  current := by
    rintro t ⟨⟩ _
    obtain ⟨member, only⟩ := flying.only sound
    exact ⟨tx, rfl, member, only⟩
  stage := trivial

theorem Sound.signs (sound : Sound s) (body gasLimit fee : Nat) {nonce : Nat} (free : Open s.task)
    (unused : s.mined.length ≤ nonce) : Sound (sign s body nonce gasLimit fee) := by
  have dead := sound.opened free
  refine ⟨fun i tx success found => ?_, fun tx member => ?_, fun free => absurd rfl (free _ rfl).1, ?_,
    ⟨_, rfl, rfl, rfl⟩, ?_⟩
  · obtain ⟨placed, member⟩ := sound.mined i tx success found
    exact ⟨placed, List.mem_append_left _ member⟩
  · exact List.mem_append_left _ (sound.handed tx member)
  · rintro t ⟨⟩ _
    refine ⟨_, rfl, List.mem_append_right _ (List.mem_singleton.mpr rfl), fun other member apart => ?_⟩
    rcases List.mem_append.mp member with old | new
    · exact dead other old
    · exact absurd (List.mem_singleton.mp new) apart
  · intro there
    -- Had the provider these very bytes, they would be dead by their nonce, which is unused.
    have used := (dead _ (sound.handed _ there)).2 there
    exact absurd used (Nat.not_lt.mpr unused)

/-- The chain and the journal stay while what the provider has of this transaction changes. -/
theorem Sound.hands (sound : Sound s) (flying : InFlight s.task tx) {handed : List Signed}
    (others : ∀ other ∈ handed, other ≠ tx → other ∈ s.handed) (stage : Stage) (answer : Option Status)
    (fits : StageFits { s with stage := stage, answer := answer, handed := handed }) :
    Sound { s with stage := stage, answer := answer, handed := handed } := by
  obtain ⟨member, only⟩ := flying.only sound
  have dead : ∀ other ∈ s.signed, other ≠ tx →
      Dead { s with stage := stage, answer := answer, handed := handed } other := by
    intro other known apart
    obtain ⟨unmined, used⟩ := only other known apart
    exact ⟨unmined, fun there => used (others other there apart)⟩
  refine ⟨sound.mined, fun other there => ?_, fun free => absurd free flying.closed, ?_, fits⟩
  · by_cases same : other = tx
    · exact same ▸ member
    · exact sound.handed other (others other there same)
  · intro t same state
    obtain ⟨own, noted, known, _⟩ := sound.current t same state
    obtain ⟨t', same', _, noted'⟩ := flying
    rw [same] at same'
    cases same'
    rw [noted] at noted'
    cases noted'
    exact ⟨tx, noted, known, dead⟩

theorem Sound.reverts (sound : Sound s) (flying : InFlight s.task tx) (read : s.receipt tx = some false)
    (answer : Status) : Sound (s.fails answer) :=
  sound.fails answer (flying.dead sound ⟨by rw [read]; nofun, fun _ => receipt_used read⟩)

theorem handOver_sound (done : step c s .handOver = .ok after) (sound : Sound s) : Sound after := by
  have fits := sound.stage
  unfold step at done
  cases stage : s.stage with
  | broadcast tx =>
    simp only [stage, pure_ok] at done
    simp only [StageFits, stage] at fits
    subst done
    refine sound.hands fits.1 (fun other there apart => ?_) _ _ ⟨fits.1, ?_⟩
    · exact (List.mem_cons.mp there).resolve_left apart
    · rw [List.erase_cons_head]
      exact fits.2
  | rebroadcast tx sending =>
    simp only [stage, pure_ok] at done
    simp only [StageFits, stage] at fits
    subst done
    refine sound.hands fits (fun other there apart => ?_) _ _ fits
    exact (List.mem_cons.mp there).resolve_left apart
  | _ => simp [stage, throw_ok] at done

theorem receiptRead_sound (done : step c s .receiptRead = .ok after) (sound : Sound s) : Sound after := by
  have fits := sound.stage
  unfold step at done
  simp only [receiptRead] at done
  cases stage : s.stage with
  | receipt tx raw sentAt sending =>
    simp only [StageFits, stage] at fits
    simp only [stage] at done
    cases read : s.receipt tx with
    | none =>
      simp only [read, pure_ok] at done
      subst done
      exact sound.moves _ _ fits
    | some success =>
      cases success with
      | true =>
        simp only [read, pure_ok] at done
        subst done
        exact sound.confirms fits
      | false =>
        simp only [read, pure_ok] at done
        subst done
        exact sound.reverts fits read _
  | confirmedReceipt tx =>
    simp only [stage, pure_ok] at done
    subst done
    exact sound.ends _
  | lateReceipt tx =>
    simp only [StageFits, stage] at fits
    simp only [stage] at done
    cases read : s.receipt tx with
    | none =>
      simp only [read, pure_ok] at done
      subst done
      exact sound.ends _
    | some success =>
      cases success with
      | true =>
        simp only [read, pure_ok] at done
        subst done
        exact sound.confirms fits
      | false =>
        simp only [read, pure_ok] at done
        subst done
        exact sound.reverts fits read _
  | _ => simp [stage, throw_ok] at done

theorem latestCountRead_sound (done : step c s .latestCountRead = .ok after)
    (fair : Careful c s .latestCountRead) (sound : Sound s) : Sound after := by
  have fits := sound.stage
  unfold step at done
  simp only [latestCountRead] at done
  cases stage : s.stage with
  | latestCount tx raw sentAt sending =>
    simp only [StageFits, stage] at fits
    simp only [stage, ite_ok, pure_ok] at done
    simp only [Careful, careful, stage, decide_eq_true_eq] at fair
    obtain ⟨unmined, unspent⟩ := fair
    rcases done with ⟨used, rfl⟩ | ⟨unused, ⟨late, rfl⟩ | ⟨_, ⟨_, rfl⟩ | ⟨_, rfl⟩⟩⟩
    · exact sound.fails _ (fits.dead sound ⟨unmined, fun _ => used⟩)
    · have kept := unspent (Nat.not_lt.mp unused) late
      exact sound.fails _ (fits.dead sound ⟨unmined, fun there => absurd there kept⟩)
    · exact sound.moves _ _ fits
    · exact sound.ends _
  | _ => simp [stage, throw_ok] at done

theorem answered_sound {answer : Answer} (done : step c s (.answered answer) = .ok after)
    (fair : Careful c s (.answered answer)) (sound : Sound s) : Sound after := by
  have fits := sound.stage
  unfold step at done
  simp only [answered] at done
  cases stage : s.stage with
  | broadcasting tx =>
    simp only [StageFits, stage] at fits
    simp only [stage, bind_ok, require_ok] at done
    obtain ⟨_, honest, done⟩ := done
    have spent (used : tx.nonce < s.mined.length ∧ s.receipt tx ≠ some true) : Sound (s.fails .rejected) :=
      sound.fails _ (fits.1.dead sound ⟨used.2, fun _ => used.1⟩)
    cases answer with
    | accepted =>
      simp only [pure_ok] at done
      subst done
      exact sound.moves _ _ fits.1
    | ambiguous =>
      simp only [pure_ok] at done
      subst done
      exact sound.ends _
    | alreadyKnown | nonceTooLow =>
      simp only [pure_ok] at done
      simp only [Careful, careful, stage, decide_eq_true_eq] at fair
      subst done
      exact spent fair
    | refused =>
      simp only [pure_ok] at done
      subst done
      have without : Sound { s with stage := .idle, handed := s.handed.erase tx } :=
        sound.hands fits.1 (fun other there _ => List.mem_of_mem_erase there) .idle s.answer trivial
      have refused : s.receipt tx ≠ some true := by
        rw [show s.receipt tx = none from honest]
        nofun
      exact without.fails _ (InFlight.dead without fits.1 ⟨refused, fun there => absurd there fits.2⟩)
  | rebroadcasting tx sending =>
    simp only [StageFits, stage] at fits
    simp only [stage, bind_ok, require_ok, pure_ok] at done
    obtain ⟨_, _, rfl⟩ := done
    split
    · exact sound.hands fits (fun other there _ => List.mem_of_mem_erase there) _ _ trivial
    · exact sound.ends _
  | _ => simp [stage, throw_ok] at done

theorem waited_sound {found : Bool} (done : step c s (.waited found) = .ok after) (sound : Sound s) : Sound after := by
  have fits := sound.stage
  unfold step at done
  cases stage : s.stage with
  | waiting tx =>
    simp only [StageFits, stage] at fits
    simp only [stage] at done
    cases found with
    | false =>
      simp only [pure_ok] at done
      subst done
      exact sound.moves _ _ fits
    | true =>
      cases read : s.receipt tx with
      | none => simp [read, throw_ok] at done
      | some success =>
        cases success with
        | true =>
          simp only [read, pure_ok] at done
          subst done
          exact sound.confirms fits
        | false =>
          simp only [read, pure_ok] at done
          subst done
          exact sound.reverts fits read _
  | _ => simp [stage, throw_ok] at done

theorem send_sound {body : Nat} {gasLimit : Option Nat} (done : send s body gasLimit = .ok after)
    (sound : Sound s) : Sound after := by
  unfold send at done
  split at done
  · next attempts tx raw sentAt next gate task =>
    cases done
    obtain ⟨t, same, state⟩ := taskGate_reconcile gate
    rw [task] at same
    cases same
    exact sound.moves _ _ ⟨_, task, state, rfl⟩
  · cases done
    exact sound.moves _ _ trivial
  · cases done
    exact sound.ends _
  · cases done
    exact sound.ends _
  · next gate =>
    cases done
    exact sound.moves _ _ (taskGate_go gate)
  · cases done

theorem simulated_sound {passes : Bool} (done : step c s (.simulated passes) = .ok after) (sound : Sound s) :
    Sound after := by
  have fits := sound.stage
  unfold step at done
  cases stage : s.stage with
  | simulation body gasLimit =>
    simp only [StageFits, stage] at fits
    simp only [stage, ite_ok, pure_ok] at done
    rcases done with ⟨_, ⟨_, rfl⟩ | ⟨_, rfl⟩⟩ | ⟨_, ⟨_, rfl⟩ | ⟨_, rfl⟩⟩
    · exact sound.moves _ _ fits
    · exact sound.ends _
    · exact sound.fails _ (sound.opened fits)
    · exact sound.ends _
  | _ => simp [stage, throw_ok] at done

theorem feeRead_sound {fee : Nat} (done : step c s (.feeRead fee) = .ok after) (sound : Sound s) : Sound after := by
  have fits := sound.stage
  unfold step at done
  cases stage : s.stage with
  | feeData body gasLimit =>
    simp only [StageFits, stage] at fits
    simp only [stage, ite_ok, pure_ok] at done
    rcases done with ⟨_, rfl⟩ | ⟨_, done⟩
    · exact sound.ends _
    · cases gasLimit with
      | none =>
        cases done
        exact sound.moves _ _ fits
      | some limit =>
        cases done
        exact sound.moves _ _ fits
  | _ => simp [stage, throw_ok] at done

theorem estimated_sound {gas : Nat} (done : step c s (.estimated gas) = .ok after) (sound : Sound s) : Sound after := by
  have fits := sound.stage
  unfold step at done
  cases stage : s.stage with
  | estimate body fee =>
    simp only [StageFits, stage] at fits
    simp only [stage, pure_ok] at done
    subst done
    exact sound.moves _ _ fits
  | _ => simp [stage, throw_ok] at done

theorem pendingCountRead_sound {count : Nat} (done : step c s (.pendingCountRead count) = .ok after)
    (sound : Sound s) : Sound after := by
  have fits := sound.stage
  unfold step at done
  cases stage : s.stage with
  | pendingCount body gasLimit fee =>
    simp only [StageFits, stage] at fits
    simp only [stage, bind_ok, require_ok, pure_ok] at done
    obtain ⟨_, unused, rfl⟩ := done
    exact sound.signs body gasLimit fee fits unused
  | _ => simp [stage, throw_ok] at done

theorem reconcile_sound (done : step c s .reconcile = .ok after) (sound : Sound s) : Sound after := by
  unfold step at done
  simp only [bind_ok, require_ok] at done
  obtain ⟨_, _, done⟩ := done
  split at done
  · next attempts tx raw sentAt next task =>
    cases done
    exact sound.moves _ _ ⟨_, task, rfl, rfl⟩
  · cases done

/-! What happens meanwhile. -/

theorem mined_receipt {entry : Entry} (apart : ∀ success, entry ≠ .own tx success) :
    State.receipt { s with mined := s.mined ++ [entry] } tx = s.receipt tx := by
  unfold State.receipt
  dsimp only
  by_cases inside : tx.nonce < s.mined.length
  · rw [List.getElem?_append_left inside]
  · rw [List.getElem?_append_right (Nat.not_lt.mp inside), List.getElem?_eq_none (Nat.not_lt.mp inside)]
    by_cases last : tx.nonce - s.mined.length = 0
    · rw [last, List.getElem?_cons_zero]
      cases entry with
      | own mined success =>
        have other : mined ≠ tx := by
          rintro rfl
          exact apart success rfl
        exact if_neg other
      | other => rfl
    · rw [List.getElem?_eq_none (by simp only [List.length_singleton]; omega)]

theorem Dead.mined {entry : Entry} (dead : Dead s tx) (apart : ∀ success, entry ≠ .own tx success) :
    Dead { s with mined := s.mined ++ [entry] } tx := by
  refine ⟨?_, fun there => ?_⟩
  · rw [mined_receipt apart]
    exact dead.1
  · have used := dead.2 there
    rw [List.length_append]
    omega

/-- A block with one transaction of the account. -/
theorem Sound.mines (sound : Sound s) (entry : Entry)
    (own : ∀ tx success, entry = .own tx success → tx ∈ s.handed ∧ tx.nonce = s.mined.length) :
    Sound { s with mined := s.mined ++ [entry] } := by
  have dead : ∀ tx, Dead s tx → Dead { s with mined := s.mined ++ [entry] } tx := by
    intro tx dead
    refine dead.mined ?_
    rintro success rfl
    obtain ⟨there, next⟩ := own tx success rfl
    exact absurd (dead.2 there) (by omega)
  refine ⟨?_, sound.handed, fun free tx member => dead tx (sound.opened free tx member), ?_, sound.stage⟩
  · intro i tx success found
    rw [List.getElem?_append] at found
    split at found
    · exact sound.mined i tx success found
    · next beyond =>
      have last : i - s.mined.length = 0 := by
        by_contra more
        rw [List.getElem?_eq_none (by simp only [List.length_singleton]; omega)] at found
        cases found
      rw [last, List.getElem?_cons_zero, Option.some.injEq] at found
      obtain ⟨there, next⟩ := own tx success found
      exact ⟨by omega, sound.handed tx there⟩
  · intro t same state
    obtain ⟨tx, noted, member, only⟩ := sound.current t same state
    exact ⟨tx, noted, member, fun other known apart => dead other (only other known apart)⟩

theorem step_sound {action : Action} (done : step c s action = .ok after) (fair : Careful c s action)
    (sound : Sound s) : Sound after := by
  cases action with
  | reconcile => exact reconcile_sound done sound
  | send body gasLimit =>
    unfold step at done
    simp only [bind_ok, require_ok] at done
    obtain ⟨_, _, done⟩ := done
    exact send_sound done sound
  | receiptRead => exact receiptRead_sound done sound
  | latestCountRead => exact latestCountRead_sound done fair sound
  | simulated => exact simulated_sound done sound
  | feeRead => exact feeRead_sound done sound
  | estimated => exact estimated_sound done sound
  | pendingCountRead => exact pendingCountRead_sound done sound
  | handOver => exact handOver_sound done sound
  | answered => exact answered_sound done fair sound
  | waited => exact waited_sound done sound
  | crash =>
    cases done
    exact sound.moves .idle s.answer trivial
  | tick =>
    cases done
    exact ⟨sound.mined, sound.handed, sound.opened, sound.current, sound.stage⟩
  | mine tx success =>
    unfold step at done
    simp only [bind_ok, require_ok, pure_ok] at done
    obtain ⟨_, ready, rfl⟩ := done
    refine sound.mines _ ?_
    rintro tx' success' ⟨⟩
    exact ready
  | mineOther =>
    cases done
    exact sound.mines _ nofun

/-! Runs. -/

theorem run_sound {mined : List Entry} {now : Nat} (foreign : ∀ entry ∈ mined, entry = .other)
    (reached : Reachable (restrict (accepts c) (Careful c)) (deployed mined now) s) : Sound s :=
  reached.invariant (deployed_sound now mined foreign)
    (fun _ _ _ sound done => step_sound done.2 done.1 sound)

/-- What succeeded is the transaction of a task that is Sent or Confirmed. -/
theorem Sound.success (sound : Sound s) {i : Nat} (found : s.mined[i]? = some (.own tx true)) :
    ∃ t, s.task = some t ∧ t.tx = some tx ∧ (t.state = .sent ∨ t.state = .confirmed) := by
  obtain ⟨rfl, member⟩ := sound.mined i tx true found
  have alive : ¬ Dead s tx := fun dead => dead.1 (by simp [State.receipt, found])
  have closed : ¬ Open s.task := fun free => alive (sound.opened free tx member)
  simp only [Open, not_forall] at closed
  obtain ⟨t, same, state⟩ := closed
  have kept : t.state = .sent ∨ t.state = .confirmed := by
    by_contra other
    exact state (not_or.mp other)
  obtain ⟨own, noted, _, only⟩ := sound.current t same kept
  refine ⟨t, same, ?_, kept⟩
  by_cases current : tx = own
  · rw [current, noted]
  · exact absurd (only tx member current) alive

/-- While every failure is counted of a dead transaction, at most one that was signed for the key succeeds, and a
task that is Retryable or Quarantined has none that succeeded or can be mined. -/
theorem key_succeeds_once {mined : List Entry} {now : Nat} (foreign : ∀ entry ∈ mined, entry = .other)
    (reached : Reachable (restrict (accepts c) (Careful c)) (deployed mined now) s) :
    (∀ (i j : Nat) first second, s.mined[i]? = some (.own first true) →
      s.mined[j]? = some (.own second true) → i = j) ∧
      ∀ t, s.task = some t → t.state = .retryable ∨ t.state = .quarantined → ∀ tx ∈ s.signed, Dead s tx := by
  have sound := run_sound foreign reached
  refine ⟨fun i j first second one two => ?_, fun t same state => sound.opened ?_⟩
  · obtain ⟨t, task, noted, _⟩ := sound.success one
    obtain ⟨t', task', noted', _⟩ := sound.success two
    rw [task] at task'
    cases task'
    rw [noted] at noted'
    cases noted'
    rw [← (sound.mined i first true one).1, (sound.mined j first true two).1]
  · rintro t' same'
    rw [same] at same'
    cases same'
    rcases state with state | state <;> rw [state] <;> exact ⟨nofun, nofun⟩

def sample : Config := ⟨true, 13000, 900000, none⟩

/-- A send with an explicit gas limit, up to the end of its wait. -/
def sampleSend (nonce : Nat) : List Action :=
  [.send 1 (some 100000), .simulated true, .feeRead 40, .pendingCountRead nonce, .handOver, .answered .accepted]

def sampleTx (nonce : Nat) : Signed := ⟨1, nonce, 100000, 40⟩

/-- The wait times out, the process restarts in a rebroadcast, and the transaction is mined before the next
`reconcile`. -/
def lateSuccess : List Action :=
  sampleSend 0 ++ ([.waited false, .receiptRead, .tick 60000, .reconcile, .receiptRead, .latestCountRead, .handOver,
    .crash, .mine (sampleTx 0) true, .reconcile, .receiptRead] : List Action)

theorem key_succeeds_once_late : ∃ s, s.mined = [.own (sampleTx 0) true] ∧
    ∀ t, s.task = some t → t.state = .retryable ∨ t.state = .quarantined → ∀ tx ∈ s.signed, Dead s tx := by
  obtain ⟨s, reached, ends⟩ := run_passes (step sample) (Careful sample) lateSuccess (deployed [] 0)
    (fun s => decide (s.mined = [.own (sampleTx 0) true])) (by decide)
  exact ⟨s, of_decide_eq_true ends, (key_succeeds_once (fun _ member => absurd member List.not_mem_nil) reached).2⟩

/-- Mined between the two reads of `reconcile`, the first transaction is counted as failed and signed again. -/
def overtaken : List Action :=
  sampleSend 0 ++ ([.waited false, .receiptRead, .tick 60000, .reconcile, .receiptRead, .mine (sampleTx 0) true,
    .latestCountRead, .tick 15000] : List Action) ++ sampleSend 1 ++
    ([.mine (sampleTx 1) true, .waited true] : List Action)

/-- Given up after fifteen minutes, it is mined after the second is signed. -/
def givenUp : List Action :=
  sampleSend 0 ++ ([.waited false, .receiptRead, .tick 900001, .reconcile, .receiptRead, .latestCountRead,
    .tick 15000] : List Action) ++ sampleSend 1 ++
    ([.mine (sampleTx 0) true, .mine (sampleTx 1) true, .waited true] : List Action)

/-- Answered "already known" it waits in the pool, and counts as rejected. -/
def knownAlready : List Action :=
  (sampleSend 0).dropLast ++ ([.answered .alreadyKnown, .tick 15000] : List Action) ++ sampleSend 1 ++
    ([.mine (sampleTx 0) true, .mine (sampleTx 1) true, .waited true] : List Action)

/-- Each of the three ends with both transactions mined. -/
theorem runs_succeed_twice : ∀ actions ∈ [overtaken, givenUp, knownAlready],
    ∃ s, Reachable (accepts sample) (deployed [] 0) s ∧
      run (step sample) (fun _ _ => True) (deployed [] 0) actions = some s ∧
      s.mined = [.own (sampleTx 0) true, .own (sampleTx 1) true] := by
  have twice : ∀ actions ∈ [overtaken, givenUp, knownAlready],
      (run (step sample) (fun _ _ => True) (deployed [] 0) actions).any (fun s =>
        decide (s.mined = [.own (sampleTx 0) true, .own (sampleTx 1) true])) = true := by decide
  intro actions member
  obtain ⟨s, ran, ends⟩ := (Option.any_eq_true ..).mp (twice actions member)
  exact ⟨s, (run_reachable (step sample) (fun _ _ => True) actions (deployed [] 0) s ran).unrestricted, ran,
    of_decide_eq_true ends⟩

theorem key_succeeds_twice : ¬ ∀ (c : Config) (mined : List Entry) (now : Nat) (s : State),
    (∀ entry ∈ mined, entry = .other) → Reachable (accepts c) (deployed mined now) s →
      ∀ (i j : Nat) first second, s.mined[i]? = some (.own first true) →
        s.mined[j]? = some (.own second true) → i = j := by
  intro claim
  obtain ⟨s, reached, _, both⟩ := runs_succeed_twice overtaken (List.mem_cons_self ..)
  have none : ∀ entry ∈ ([] : List Entry), entry = .other := nofun
  have first : s.mined[0]? = some (.own (sampleTx 0) true) := by rw [both]; rfl
  have second : s.mined[1]? = some (.own (sampleTx 1) true) := by rw [both]; rfl
  have same := claim sample [] 0 s none reached 0 1 _ _ first second
  cases same

end Solonpad.TxSender
