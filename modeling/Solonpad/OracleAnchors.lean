import Solonpad.StockOracle

/-!
The two-observation rule of the stock oracle. The accepted price moves further than a poke may move
it only onto an observation that agrees with a candidate, and a candidate is what an earlier poke of
the same source recorded. The rule speaks of prices as they are stored: an observation that leaves 128
bits is cut when it is accepted, so the rule is proved of the pokes that accept none such.
-/

namespace Solonpad.StockOracle

open Checked Histories
open Chain (Address)

variable (c : Config)

abbrev Past := List (Taken State Step)

/-- Any accounts' calls, at any times and with any observations. -/
def Calls : Past → State → Prop :=
  History (fun s t after => step c s t = .ok after) deployed

/-- A poke recorded this candidate, and the source has not changed since. -/
def Recorded (past : Past) (u : Address) (candidate : Quote) : Prop :=
  Since (fun t => ∃ asset, t.action.action = .poke asset ∧ t.before.key asset = u ∧
      t.after.candidate u = candidate)
    (fun t => (t.after.assets u).source ≠ (t.before.assets u).source) past

/-- The rule for one step, after the steps before it. -/
def Steady (past : Past) (t : Taken State Step) : Prop :=
  ∀ u, (t.before.anchor u).price18 ≠ 0 → (t.after.anchor u).price18 ≠ 0 →
    (t.after.assets u).source = (t.before.assets u).source →
    moved (t.after.anchor u).price18 (t.before.anchor u).price18 (t.before.assets u).params.maxMoveBps →
      ∃ candidate, Recorded past u candidate ∧
        candidate.sourceUpdatedAt < (t.after.anchor u).sourceUpdatedAt ∧
        ¬ moved (t.after.anchor u).price18 candidate.price18 (t.before.assets u).params.confirmBps

/-- An observation that the step makes the anchor has a price of at most 128 bits. -/
def Fits (t : Taken State Step) : Prop :=
  ∀ asset o, t.action.action = .poke asset →
    read t.before t.action.env (t.before.key asset) = some o →
    t.before.follows (t.before.key asset) o ∨ t.before.confirms (t.before.key asset) o →
      o.price18 < 2 ^ 128

/-- What an execution price says: a fresh read, within the allowed move of the anchor. -/
def Backed (s : State) (env : Env) (asset : Address) (price at_ : Nat) : Prop :=
  ∃ o, read s env (s.key asset) = some o ∧ o.price18 = price ∧ o.observedAt = at_ ∧
    env.now - at_ ≤ (s.assets (s.key asset)).params.maxAge ∧
    env.now - o.sourceUpdatedAt ≤ (s.assets (s.key asset)).params.maxSourceAge ∧
    (s.anchor (s.key asset)).price18 ≠ 0 ∧
    ¬ moved price (s.anchor (s.key asset)).price18 (s.assets (s.key asset)).params.maxMoveBps

/-! What one call does to an underlying's anchor and candidate. -/

inductive Moves (s : State) (t : Step) (u : Address) (after : State) : Prop where
  /-- Anchor, candidate and source stay. -/
  | stays (anchor : after.anchor u = s.anchor u) (candidate : after.candidate u = s.candidate u)
      (source : (after.assets u).source = (s.assets u).source)
  | resets (anchor : after.anchor u = .zero) (candidate : after.candidate u = .zero)
  | accepts (asset : Address) (does : t.action = .poke asset) (key : s.key asset = u) (o : Observation)
      (found : read s t.env u = some o) (may : s.follows u o ∨ s.confirms u o)
      (anchor : after.anchor u = o.quote) (candidate : after.candidate u = .zero)
      (source : (after.assets u).source = (s.assets u).source)
  | records (asset : Address) (does : t.action = .poke asset) (key : s.key asset = u)
      (anchor : after.anchor u = s.anchor u) (source : (after.assets u).source = (s.assets u).source)

variable {c} {s after : State} {t : Step} {u asset : Address} {past : Past}

theorem setAsset_moves {v : Address} {a : Asset} (source : a.source = (s.assets u).source) :
    Moves s t v (s.setAsset u a) := by
  refine .stays rfl rfl ?_
  by_cases same : v = u
  · rw [same, setAsset_same, source]
  · rw [setAsset_other s a same]

theorem known_key (found : known s asset = .ok u) : s.key asset = u := by
  simp only [known, bind_ok, require_ok, pure_ok] at found
  obtain ⟨_, _, same⟩ := found
  exact same

theorem configureAsset_moves {underlying token source : Address} {p : Params}
    (taken : configureAsset c s t.env underlying token source p = .ok after) : Moves s t u after := by
  simp only [configureAsset, bind_ok, require_ok, pure_ok] at taken
  obtain ⟨_, _, _, _, _, _, _, _, rfl⟩ := taken
  by_cases same : u = underlying
  · subst same
    by_cases changes : (s.assets u).source ≠ source
    · rw [if_pos changes]
      exact .resets (Function.update_self ..) (Function.update_self ..)
    · rw [if_neg changes]
      have kept := not_not.mp changes
      refine .stays ?_ ?_ ?_
      · split <;> rfl
      · split <;> rfl
      · rw [setAsset_same]
        exact kept.symm
  · refine .stays ?_ ?_ ?_
    · split <;> split <;> simp [State.setAsset, Function.update_of_ne same]
    · split <;> split <;> simp [State.setAsset, Function.update_of_ne same]
    · rw [setAsset_other _ _ same]
      split <;> split <;> rfl

theorem evaluate_some {env : Env} {checkAge : Bool} {status : Status} {o : Observation}
    (found : evaluate s env u checkAge = (status, some o)) :
    read s env u = some o ∧ (status = .paused ∨ judge s env.now u checkAge o = status) := by
  unfold evaluate at found
  cases usable : read s env u with
  | none =>
    rw [usable] at found
    dsimp only at found
    split at found <;> cases found
  | some last =>
    rw [usable] at found
    dsimp only at found
    split at found
    · cases found
      exact ⟨rfl, .inl rfl⟩
    · cases found
      exact ⟨rfl, .inr rfl⟩

/-- What a live judgement says: each check of the source, in its order, did not stop the price. -/
theorem judge_live {now : Nat} {o : Observation} (live : judge s now u true o = .live) :
    now - o.observedAt ≤ (s.assets u).params.maxAge ∧
      now - o.sourceUpdatedAt ≤ (s.assets u).params.maxSourceAge ∧ (s.anchor u).price18 ≠ 0 ∧
      ¬ moved o.price18 (s.anchor u).price18 (s.assets u).params.maxMoveBps := by
  unfold judge at live
  dsimp only at live
  split at live
  · cases live
  · next young =>
    split at live
    · cases live
    · next recent =>
      split at live
      · cases live
      · split at live
        · cases live
        · split at live
          · cases live
          · next close =>
            obtain ⟨anchored, near⟩ := not_or.mp close
            exact ⟨Nat.not_lt.mp fun old => young ⟨rfl, old⟩, Nat.not_lt.mp recent, anchored, near⟩

theorem poke_moves (does : t.action = .poke asset) (taken : poke s t.env asset = .ok after) : Moves s t u after := by
  simp only [poke, bind_ok] at taken
  obtain ⟨v, found, taken⟩ := taken
  have key := known_key found
  split at taken
  · next status o evaluated =>
    cases taken
    by_cases judged : status = .live ∨ status = .suspect
    · rw [if_pos judged, observed]
      by_cases same : u = v
      · subst same
        by_cases may : s.follows u o ∨ s.confirms u o
        · rw [if_pos may]
          exact .accepts asset does key o (evaluate_some evaluated).1 may (Function.update_self ..)
            (Function.update_self ..) rfl
        · rw [if_neg may]
          exact .records asset does key rfl rfl
      · refine .stays ?_ ?_ ?_ <;> split <;> simp [accept, Function.update_of_ne same]
    · rw [if_neg judged]
      exact .stays rfl rfl rfl
  · cases taken
    exact .stays rfl rfl rfl

theorem step_moves (taken : step c s t = .ok after) (u : Address) : Moves s t u after := by
  obtain ⟨env, action⟩ := t
  cases action with
  | configureAsset underlying token source p => exact configureAsset_moves taken
  | poke asset => exact poke_moves rfl taken
  | tighten asset p =>
    simp only [step, tighten, bind_ok, require_ok, pure_ok] at taken
    obtain ⟨_, _, v, _, _, _, _, _, rfl⟩ := taken
    exact setAsset_moves rfl
  | pause asset =>
    simp only [step, pause, bind_ok, require_ok, pure_ok] at taken
    obtain ⟨_, _, v, _, rfl⟩ := taken
    exact setAsset_moves rfl
  | resume asset =>
    simp only [step, resume, bind_ok, require_ok, pure_ok] at taken
    obtain ⟨_, _, v, _, rfl⟩ := taken
    exact setAsset_moves rfl

/-! Along a history. -/

/-- A candidate is always one that a poke recorded under the present source. -/
def Known (past : Past) (s : State) : Prop :=
  ∀ u, (s.candidate u).price18 ≠ 0 → Recorded past u (s.candidate u)

theorem Moves.known (moves : ∀ u, Moves s t u after) (known : Known past s) :
    Known (past ++ [⟨s, t, after⟩]) after := by
  intro u some_price
  cases moves u with
  | stays anchor candidate source =>
    rw [candidate] at some_price ⊢
    exact (known u some_price).kept fun changed => changed source
  | resets anchor candidate =>
    rw [candidate] at some_price
    exact absurd rfl some_price
  | accepts asset does key o found may anchor candidate source =>
    rw [candidate] at some_price
    exact absurd rfl some_price
  | records asset does key anchor source => exact .now past ⟨asset, does, key, rfl⟩

theorem calls_known (calls : Calls c past s) : Known past s := by
  apply calls.invariant
  · intro u some_price
    exact absurd rfl some_price
  · intro past before t after _ known taken
    exact Moves.known (step_moves taken) known

theorem not_moved (price bps : Nat) : ¬ moved price price bps := by
  simp [moved]

theorem Moves.steady (moves : ∀ u, Moves s t u after) (known : Known past s) (fits : Fits ⟨s, t, after⟩) :
    Steady past ⟨s, t, after⟩ := by
  intro u was is_ same jumps
  simp only at was is_ same jumps ⊢
  cases moves u with
  | stays anchor candidate source =>
    rw [anchor] at jumps
    exact absurd jumps (not_moved _ _)
  | resets anchor candidate =>
    rw [anchor] at is_
    exact absurd rfl is_
  | accepts asset does key o found may anchor candidate source =>
    subst key
    have small := Nat.mod_eq_of_lt (fits asset o does found may)
    have price : (after.anchor (s.key asset)).price18 = o.price18 := by rw [anchor]; exact small
    rw [price] at jumps ⊢
    rcases may with (none | near) | ⟨some_price, older, agrees⟩
    · exact absurd none was
    · exact absurd jumps near
    · rw [anchor]
      exact ⟨_, known _ some_price, older, agrees⟩
  | records asset does key anchor source =>
    rw [anchor] at jumps
    exact absurd jumps (not_moved _ _)

theorem execPrice_backed {env : Env} {price at_ : Nat} (returned : execPrice s env asset = .ok (price, at_)) :
    Backed s env asset price at_ := by
  simp only [execPrice, bind_ok] at returned
  obtain ⟨u, found, returned⟩ := returned
  have key := known_key found
  subst key
  split at returned
  · next o evaluated =>
    cases returned
    obtain ⟨found, paused | live⟩ := evaluate_some evaluated
    · cases paused
    · exact ⟨o, found, rfl, rfl, judge_live live⟩
  · cases returned

/-- In every history: the rule for each step that accepts no price beyond 128 bits, and what an
execution price says. -/
theorem anchors_steady (past : Past) (s : State) (calls : Calls c past s) :
    (∀ front t back, past = front ++ t :: back → Fits t → Steady front t) ∧
      ∀ env asset price at_, execPrice s env asset = .ok (price, at_) → Backed s env asset price at_ := by
  constructor
  · intro front t back split fits
    obtain ⟨earlier, taken⟩ := History.taken calls front back t split
    exact Moves.steady (step_moves taken) (calls_known earlier) fits
  · intro env asset price at_ returned
    exact execPrice_backed returned

/-! One asset: owner 1, underlying 7, its token 8, its source 9. -/

def sample : Config := ⟨1, 2⟩

def observing (now price at_ : Nat) : Env :=
  ⟨1, now, fun _ => true, fun _ _ => some ⟨price, 10 ^ 18, 0, at_, at_⟩⟩

def listing : Step := ⟨observing 100 0 0, .configureAsset 7 8 9 ⟨900, 1000, 100, 1000, 3600, 0⟩⟩

def observation (now price : Nat) : Step := ⟨observing now price now, .poke 7⟩

set_option maxRecDepth 4000 in
/-- A jump to twice the price, confirmed by the observation after it. -/
theorem anchors_steady_confirmed : ∃ front t, Steady front t ∧ (t.before.anchor 7).price18 = 100 ∧
    (t.after.anchor 7).price18 = 200 := by
  have first : Calls sample [] deployed := .nil
  have second := History.snoc first listing (show step sample _ _ = .ok _ from rfl)
  have third := History.snoc second (observation 200 100) (show step sample _ _ = .ok _ from rfl)
  have fourth := History.snoc third (observation 300 200) (show step sample _ _ = .ok _ from rfl)
  have fifth := History.snoc fourth (observation 400 200) (show step sample _ _ = .ok _ from rfl)
  refine ⟨_, _, (anchors_steady (c := sample) _ _ fifth).1 _ _ [] rfl ?_, rfl, rfl⟩
  intro asset o does found _
  cases does
  cases found
  decide

set_option maxRecDepth 4000 in
/-- A price beyond 128 bits that is within the allowed move of the anchor is stored cut, so that the
anchor falls to next to nothing after one observation. -/
theorem anchors_jump : ¬ ∀ (c : Config) (past : Past) (s : State), Calls c past s →
    ∀ (front back : Past) (t : Taken State Step), past = front ++ t :: back → Steady front t := by
  intro claimed
  have first : Calls sample [] deployed := .nil
  have second := History.snoc first listing (show step sample _ _ = .ok _ from rfl)
  have third := History.snoc second (observation 200 (2 ^ 128 - 1)) (show step sample _ _ = .ok _ from rfl)
  have fourth := History.snoc third (observation 300 (2 ^ 128 + 5)) (show step sample _ _ = .ok _ from rfl)
  have steady := claimed sample _ _ fourth _ [] _ rfl
  obtain ⟨candidate, recorded, older, near⟩ := steady 7 (by decide) (by decide) rfl (by decide)
  obtain ⟨front, p, back, split, ⟨asset, does, key, same⟩, _⟩ := recorded
  -- no step before it records a candidate: the first lists the asset, the second accepts its price
  have member := split ▸ List.mem_append_right front (List.mem_cons_self (a := p) (l := back))
  rcases List.mem_cons.mp member with rfl | member
  · cases does
  · rw [List.mem_singleton.mp member] at same
    cases same
    exact near (by decide)

end Solonpad.StockOracle
