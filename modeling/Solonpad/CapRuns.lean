import Mathlib.Algebra.BigOperators.Group.Finset.Basic
import Solonpad.RefundCap

/-!
The refund keeper stays within its cap on every day on which each new withdrawal finds the earlier ones counted.
-/

namespace Solonpad.RefundCap

open Checked Journal Transition
open Hub (Order)
open RefundKeeper (Config Id Record refundNeed)

/-- Amounts that are each covered by an entry of their own come to no more than the entries. -/
theorem sum_covered {α : Type} [DecidableEq α] (amount : α → Nat) (entries : List (α × Nat)) (s : Finset α)
    (covered : ∀ a ∈ s, ∃ entry ∈ entries, entry.1 = a ∧ amount a ≤ entry.2) :
    s.sum amount ≤ (entries.map Prod.snd).sum := by
  induction entries generalizing s with
  | nil =>
    have none : s = ∅ := Finset.eq_empty_of_forall_notMem fun a member => by
      obtain ⟨_, inside, _⟩ := covered a member
      cases inside
    rw [none]
    exact Nat.le_refl 0
  | cons entry rest ih =>
    rw [List.map_cons, List.sum_cons]
    by_cases own : entry.1 ∈ s ∧ amount entry.1 ≤ entry.2
    · have others : ∀ a ∈ s.erase entry.1, ∃ other ∈ rest, other.1 = a ∧ amount a ≤ other.2 := by
        intro a member
        obtain ⟨apart, inside⟩ := Finset.mem_erase.mp member
        obtain ⟨other, listed, same, enough⟩ := covered a inside
        rcases List.mem_cons.mp listed with rfl | later
        · exact absurd same.symm apart
        · exact ⟨other, later, same, enough⟩
      rw [← Finset.add_sum_erase s amount own.1]
      exact Nat.add_le_add own.2 (ih _ others)
    · have others : ∀ a ∈ s, ∃ other ∈ rest, other.1 = a ∧ amount a ≤ other.2 := by
        intro a inside
        obtain ⟨other, listed, same, enough⟩ := covered a inside
        rcases List.mem_cons.mp listed with rfl | later
        · exact absurd ⟨same.symm ▸ inside, same.symm ▸ enough⟩ own
        · exact ⟨other, later, same, enough⟩
      exact (ih s others).trans (Nat.le_add_left ..)

variable {c : Config} {st after : State} {tx : Signed} {t : Turn} {outcome : Outcome} {ms : Nat}

/-- The withdrawals of a day that landed or still can. -/
def State.afoot (st : State) (day : Nat) : Finset Signed :=
  (st.signed.map Prod.fst).toFinset.filter fun tx => st.OnDay day tx ∧ ¬ st.Dead tx

theorem mem_afoot {day : Nat} : tx ∈ st.afoot day ↔ st.OnDay day tx ∧ ¬ st.Dead tx := by
  simp only [State.afoot, Finset.mem_filter, List.mem_toFinset, List.mem_map, and_iff_right_iff_imp]
  rintro ⟨⟨entry, member, same, _⟩, _⟩
  exact ⟨entry, member, same⟩

/-- What the total of the turn's day is read as, and that its need fits when no withdrawal of the order is out. -/
def StageFits (c : Config) (st : State) : Prop :=
  match st.stage with
  | .asking t => t.used = st.used t.day ∧ (Open (st.tasks t.id) → t.used + t.need ≤ c.dailyCap)
  | .waiting t _ | .withdrawn t _ | .counting t _ => t.used = st.used t.day
  | _ => True

structure Sound (c : Config) (st : State) : Prop where
  used : ∀ day, st.used day = ((st.booked day).map Prod.snd).sum
  nonces : ∀ tx ∈ st.taken, tx.nonce < st.nextNonce
  once : st.taken.Nodup
  capped : ∀ day, (st.afoot day).sum Signed.amount ≤ c.dailyCap
  stage : StageFits c st

theorem deployed_sound (orders : Id → Order) (now : Nat) : Sound c (deployed orders now) where
  used := fun _ => rfl
  nonces := nofun
  once := List.nodup_nil
  capped := fun _ => Nat.zero_le _
  stage := trivial

/-- A step that signs, counts and mines nothing. -/
theorem Sound.quiet (sound : Sound c st) (used : after.used = st.used) (booked : after.booked = st.booked)
    (nonce : after.nextNonce = st.nextNonce) (taken : after.taken = st.taken) (signed : after.signed = st.signed)
    (stage : StageFits c after) : Sound c after where
  used := by
    rw [used, booked]
    exact sound.used
  nonces := by
    rw [taken, nonce]
    exact sound.nonces
  once := taken ▸ sound.once
  capped := by
    intro day
    have same : after.afoot day = st.afoot day := by
      ext tx
      simp only [mem_afoot, State.OnDay, State.Dead, signed, nonce, taken]
    exact same ▸ sound.capped day
  stage := stage

/-- A nonce of the account is used, by a withdrawal or another transaction. -/
theorem Sound.mines (sound : Sound c st) (taken : List Signed) (more : taken = st.taken ∨
    ∃ tx, tx.nonce = st.nextNonce ∧ taken = st.taken ++ [tx]) :
    Sound c { st with nextNonce := st.nextNonce + 1, taken := taken } where
  used := sound.used
  nonces := by
    intro tx member
    rcases more with rfl | ⟨new, nonce, rfl⟩
    · exact Nat.lt_succ_of_lt (sound.nonces tx member)
    · rcases List.mem_append.mp member with old | same
      · exact Nat.lt_succ_of_lt (sound.nonces tx old)
      · rw [List.mem_singleton.mp same, nonce]
        exact Nat.lt_succ_self _
  once := by
    rcases more with rfl | ⟨new, nonce, rfl⟩
    · exact sound.once
    · refine List.nodup_append.mpr ⟨sound.once, List.nodup_singleton new, ?_⟩
      intro old member other same equal
      rw [List.mem_singleton.mp same] at equal
      exact Nat.lt_irrefl _ (nonce ▸ equal ▸ sound.nonces old member)
  capped := by
    intro day
    refine le_trans (Finset.sum_le_sum_of_subset ?_) (sound.capped day)
    intro tx
    simp only [mem_afoot]
    rintro ⟨onDay, alive⟩
    refine ⟨onDay, fun dead => alive ⟨Nat.lt_succ_of_lt dead.1, ?_⟩⟩
    rcases more with rfl | ⟨new, nonce, rfl⟩
    · exact dead.2
    · intro member
      rcases List.mem_append.mp member with old | same
      · exact dead.2 old
      · have below := dead.1
        rw [List.mem_singleton.mp same, nonce] at below
        exact Nat.lt_irrefl _ below
  stage := sound.stage

/-- Only the keeper moves on. -/
theorem Sound.goes (sound : Sound c st) {stage : Stage} (fits : StageFits c { st with stage := stage }) :
    Sound c { st with stage := stage } :=
  sound.quiet rfl rfl rfl rfl rfl fits

theorem finish_goes (c : Config) (st : State) (id : Id) (rest : List Id) :
    ∃ stage, finish st id rest = { st with stage := stage } ∧ StageFits c { st with stage := stage } := by
  unfold finish
  dsimp only
  split
  · exact ⟨_, rfl, trivial⟩
  · split <;> exact ⟨_, rfl, trivial⟩

/-- When `credit` goes on to a withdrawal it has checked the cap. -/
theorem handle_goes (c : Config) (st : State) (id : Id) (rest : List Id) (n rhProceeds available : Nat) :
    ∃ stage, handle c st id rest n rhProceeds available = { st with stage := stage } ∧
      StageFits c { st with stage := stage } := by
  unfold handle
  dsimp only
  split
  · exact ⟨_, rfl, trivial⟩
  · exact ⟨_, rfl, trivial⟩
  · next need _ =>
    split
    · exact ⟨_, rfl, trivial⟩
    · split
      · exact ⟨_, rfl, trivial⟩
      · next checked =>
        split
        · exact ⟨_, rfl, trivial⟩
        · refine ⟨_, rfl, rfl, fun free => ?_⟩
          -- A task in flight or confirmed skips the check; it is not open.
          have fresh : ¬ ((st.tasks id).map Journal.Task.state = some .sent ∨
              (st.tasks id).map Journal.Task.state = some .confirmed) := by
            simp only [Option.map_eq_some_iff]
            rintro (⟨t, held, state⟩ | ⟨t, held, state⟩)
            · exact (free t held).1 state
            · exact (free t held).2 state
          exact Nat.le_of_not_lt fun above => checked ⟨fresh, above⟩

theorem Turn.next_fits (c : Config) (st : State) (used : t.used = st.used t.day) (answer : Answer Signed) :
    StageFits c { st with stage := t.next answer } := by
  cases answer with
  | other => trivial
  | sent tx | confirmed tx => exact used

/-- The withdrawal of an open task, when every other one of the day is counted or dead. -/
theorem Sound.signs (sound : Sound c st) {day : Nat} (today : st.now / daySec = day)
    (fits : st.used day + tx.amount ≤ c.dailyCap)
    (others : ∀ entry ∈ st.signed, entry.2 / daySec = day → entry.1 ≠ tx → st.Booked day entry.1 ∨ st.Dead entry.1)
    (stage : StageFits c st) : Sound c { st with signed := st.signed ++ [(tx, st.now)] } where
  used := sound.used
  nonces := sound.nonces
  once := sound.once
  capped := by
    intro other
    -- On another day nothing is new.
    by_cases same : other = day
    · subst same
      have counted : ((st.afoot other).erase tx).sum Signed.amount ≤ st.used other := by
        rw [sound.used]
        apply sum_covered
        intro a member
        obtain ⟨apart, inside⟩ := Finset.mem_erase.mp member
        obtain ⟨⟨entry, listed, same, onDay⟩, alive⟩ := mem_afoot.mp inside
        subst same
        exact (others entry listed onDay apart).resolve_right alive
      have more : State.afoot { st with signed := st.signed ++ [(tx, st.now)] } other ⊆
          insert tx ((st.afoot other).erase tx) := by
        intro a member
        obtain ⟨⟨entry, listed, same, onDay⟩, alive⟩ := mem_afoot.mp member
        subst same
        by_cases new : entry.1 = tx
        · exact Finset.mem_insert.mpr (.inl new)
        · rcases List.mem_append.mp listed with old | last
          · have before : entry.1 ∈ st.afoot other := mem_afoot.mpr ⟨⟨entry, old, rfl, onDay⟩, alive⟩
            exact Finset.mem_insert_of_mem (Finset.mem_erase.mpr ⟨new, before⟩)
          · exact absurd (congrArg Prod.fst (List.mem_singleton.mp last)) new
      calc (State.afoot { st with signed := st.signed ++ [(tx, st.now)] } other).sum Signed.amount
          ≤ (insert tx ((st.afoot other).erase tx)).sum Signed.amount := Finset.sum_le_sum_of_subset more
        _ = tx.amount + ((st.afoot other).erase tx).sum Signed.amount :=
          Finset.sum_insert (Finset.notMem_erase tx _)
        _ ≤ c.dailyCap := by omega
    · refine le_trans (Finset.sum_le_sum_of_subset ?_) (sound.capped other)
      intro a member
      obtain ⟨⟨entry, listed, held, onDay⟩, alive⟩ := mem_afoot.mp member
      rcases List.mem_append.mp listed with old | last
      · exact mem_afoot.mpr ⟨⟨entry, old, held, onDay⟩, alive⟩
      · rw [List.mem_singleton.mp last] at onDay
        exact absurd (onDay.symm.trans today) same
  stage := stage

theorem Sound.ask (sound : Sound c st) {nonce : Nat} (asking : st.stage = .asking t)
    (fair : Counted st (.ask outcome nonce ms)) (done : ask st t outcome nonce ms = .ok after) : Sound c after := by
  have fits := sound.stage
  unfold StageFits at fits
  rw [asking] at fits
  obtain ⟨used, room⟩ := fits
  unfold RefundCap.ask at done
  split at done
  · next task answer sent =>
    dsimp only at done
    have goes : Sound c { st.setTask t.id task with stage := t.next answer } :=
      sound.quiet rfl rfl rfl rfl rfl (Turn.next_fits c (st.setTask t.id task) used answer)
    split at done
    · next tx =>
      split at done <;> cases done
      obtain ⟨rfl, free⟩ := send_sent sent
      cases outcome with
      | signed =>
        unfold Counted counted at fair
        rw [asking] at fair
        obtain ⟨today, others⟩ := of_decide_eq_true fair
        exact goes.signs today (used ▸ room free) others goes.stage
      | deferred => cases sent
      | failed =>
        simp only [send] at sent
        split at sent <;> cases sent
      | confirmed =>
        simp only [send, Option.map_eq_some_iff, Prod.exists] at sent
        obtain ⟨_, _, _, other⟩ := sent
        cases other
    · cases done
      exact goes
  · cases done

theorem Sound.await (sound : Sound c st) (waiting : st.stage = .waiting t tx)
    (done : await st t tx outcome ms = .ok after) : Sound c after := by
  have fits := sound.stage
  unfold StageFits at fits
  rw [waiting] at fits
  unfold RefundCap.await at done
  split at done <;> cases done
  next task answer _ =>
  exact sound.quiet rfl rfl rfl rfl rfl (Turn.next_fits c (st.setTask t.id task) fits answer)

theorem Sound.note (sound : Sound c st) (done : note st = .ok after) : Sound c after := by
  have fits := sound.stage
  unfold StageFits at fits
  unfold RefundCap.note at done
  split at done
  · next t tx stage =>
    cases done
    rw [stage] at fits
    exact sound.quiet rfl rfl rfl rfl rfl fits
  · next t tx stage =>
    cases done
    rw [stage] at fits
    refine { sound with used := ?_, stage := trivial }
    intro day
    by_cases same : day = t.day
    · subst same
      simp only [Function.update_self, List.map_append, List.map_singleton, List.sum_append, List.sum_singleton]
      rw [fits, sound.used]
    · simp only [Function.update_of_ne same]
      exact sound.used day
  · cases done

theorem Sound.step {action : Action} (sound : Sound c st) (fair : Counted st action)
    (done : step c st action = .ok after) : Sound c after := by
  unfold RefundCap.step at done
  cases action with
  | wait | order | crash =>
    cases done
    exact sound.quiet rfl rfl rfl rfl rfl (by first | exact sound.stage | trivial)
  | tick | settled | listed =>
    dsimp only at done
    split at done <;> cases done
    exact sound.quiet rfl rfl rfl rfl rfl trivial
  | settle id outcome ms =>
    dsimp only at done
    split at done <;> cases done
    next reconciling _ =>
    refine sound.quiet rfl rfl rfl rfl rfl ?_
    unfold StageFits
    rw [show (st.setTask id _).stage = .reconciling from reconciling]
    trivial
  | finish =>
    dsimp only at done
    split at done <;> cases done
    · exact sound.goes trivial
    · next id rest _ =>
      obtain ⟨stage, same, fits⟩ := finish_goes c st id rest
      rw [same]
      exact sound.goes fits
  | refilled confirmed | credited confirmed =>
    dsimp only at done
    split at done <;> cases done
    cases confirmed <;> exact sound.quiet rfl rfl rfl rfl rfl trivial
  | look rhProceeds available =>
    dsimp only at done
    split at done
    · cases done
      exact sound.goes trivial
    · next id rest n _ =>
      split at done <;> cases done
      · obtain ⟨stage, same, fits⟩ := handle_goes c st id rest n rhProceeds available
        rw [same]
        exact sound.goes fits
      · exact sound.goes trivial
    · cases done
  | ask outcome nonce ms =>
    dsimp only at done
    split at done
    · exact sound.ask ‹_› fair done
    · cases done
  | await outcome ms =>
    dsimp only at done
    split at done
    · exact sound.await ‹_› done
    · cases done
  | note => exact sound.note done
  | throws =>
    dsimp only at done
    split at done <;> cases done <;> exact sound.goes trivial
  | mine tx success =>
    dsimp only at done
    split at done <;> cases done
    next there =>
    cases success with
    | false => exact sound.mines st.taken (.inl rfl)
    | true => exact sound.mines (st.taken ++ [tx]) (.inr ⟨tx, there.2, rfl⟩)
  | mineOther =>
    cases done
    exact sound.mines st.taken (.inl rfl)

/-- What landed of a day's withdrawals is afoot. -/
theorem Sound.takenOn (sound : Sound c st) (day : Nat) : st.takenOn day ≤ c.dailyCap := by
  have distinct : (st.taken.filter (st.OnDay day)).Nodup := sound.once.filter _
  calc st.takenOn day = (st.taken.filter (st.OnDay day)).toFinset.sum Signed.amount :=
        (List.sum_toFinset Signed.amount distinct).symm
    _ ≤ (st.afoot day).sum Signed.amount := by
      apply Finset.sum_le_sum_of_subset
      intro tx member
      obtain ⟨taken, onDay⟩ := List.mem_filter.mp (List.mem_toFinset.mp member)
      exact mem_afoot.mpr ⟨of_decide_eq_true onDay, fun dead => dead.2 taken⟩
    _ ≤ c.dailyCap := sound.capped day

/-- Runs in which each withdrawal is signed on the day of its tick, with every other one of the day counted or dead. -/
theorem cap_holds (c : Config) (orders : Id → Order) (now : Nat) (st : State)
    (reached : Reachable (restrict (accepts c) Counted) (deployed orders now) st) (day : Nat) :
    st.takenOn day ≤ c.dailyCap := by
  have sound : Sound c st :=
    reached.invariant (deployed_sound orders now) fun _ _ _ sound taken => sound.step taken.1 taken.2
  exact sound.takenOn day

/-! Two failed buys of 5 each. -/

def failedBuy : Order := { Order.blank with status := .returning, outcome := some .failed, amountIn := 5 }

/-- A tick over both, up to the first withdrawal. -/
def startsTick : List Action := [.tick, .settled, .finish, .listed [1, 2], .look 0 20]

/-- Each withdrawal is mined and counted before the next. -/
def settledRun : List Action :=
  startsTick ++ [.ask .signed 0 0, .mine ⟨1, 5, 0⟩ true, .await .confirmed 0, .note, .note, .credited false,
    .look 0 20, .ask .signed 1 0, .mine ⟨2, 5, 1⟩ true]

theorem cap_holds_settled : ∃ st : State, st.takenOn 0 = 10 ∧ st.takenOn 0 ≤ 10 := by
  obtain ⟨st, reached, passed⟩ := run_passes (step ⟨4, 10, false⟩) Counted settledRun
    (deployed (fun _ => failedBuy) 0) (fun st => decide (st.takenOn 0 = 10)) (by decide)
  exact ⟨st, of_decide_eq_true passed, cap_holds ⟨4, 10, false⟩ (fun _ => failedBuy) 0 st reached 0⟩

/-- Both withdrawals wait for their receipts when they are checked. -/
def inflightRun : List Action :=
  startsTick ++ [.ask .signed 0 0, .await .deferred 0, .look 0 20, .ask .signed 1 0, .mine ⟨1, 5, 0⟩ true,
    .mine ⟨2, 5, 1⟩ true]

theorem cap_exceeded : ¬ ∀ (c : Config) (orders : Id → Order) (now : Nat) (st : State),
    Reachable (accepts c) (deployed orders now) st → ∀ day, st.takenOn day ≤ c.dailyCap := by
  intro claim
  obtain ⟨st, reached, passed⟩ := run_passes (step ⟨4, 8, false⟩) (fun _ _ => True) inflightRun
    (deployed (fun _ => failedBuy) 0) (fun st => decide (st.takenOn 0 = 10)) (by decide)
  have bound := claim ⟨4, 8, false⟩ (fun _ => failedBuy) 0 st reached.unrestricted 0
  rw [of_decide_eq_true passed] at bound
  exact absurd bound (by decide)

end Solonpad.RefundCap
