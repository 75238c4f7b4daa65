import Solonpad.SignerLock

/-!
Where every removal hits what was judged and every owner file lands in the writer's own directory, one process at most
is inside the lock, and a lock that no live process holds can be taken again.
-/

namespace Solonpad.SignerLock

open Transition

variable {staleMs : Nat} {s after : State} {p q : Nat} {next : Phase} {d : Directory}

/-! What one step does. -/

/-- The holder of what was judged does not hold it any more. -/
def Abandoned (s : State) (d : Directory) : Prop :=
  ∀ info, d.owner = some info → (s.phase info.pid).held ≠ some (d.inode, info.stamp)

/-- A place a process moves to without touching the path. -/
structure Quiet (s : State) (p : Nat) (next : Phase) : Prop where
  held : next.held = none ∨ next.held = (s.phase p).held
  unwritten : next.unwritten = none
  seen : ∀ d, next.seen = some d → s.dir = some d ∨ (s.phase p).seen = some d
  condemned : ∀ d, next.condemned = some d → (s.phase p).seen = some d ∧ Abandoned s d
  dated : ∀ seen stamp, next = .dated seen stamp → ownerOf seen = none

inductive Did (s : State) : State → Prop where
  | elapsed (now : Nat) : Did s { s with now := now }
  | moved (p : Nat) (next : Phase) (quiet : Quiet s p next) : Did s (s.enter p next)
  | made (p : Nat) (empty : s.dir = none) : Did s (s.make p)
  | wrote (p inode : Nat) (d : Directory) (own : (s.phase p).unwritten = some inode) (there : s.dir = some d)
    (same : d.inode = inode) : Did s ((s.write p d).enter p (.holding inode s.now))
  | removed (p : Nat) (judged : (s.phase p).condemned = s.dir) : Did s (s.clear.enter p .cleared)
  | missed (p : Nat) (empty : s.dir = none) : Did s (s.clear.enter p .cleared)
  | released (p : Nat) (own : Holds s p) : Did s (s.clear.enter p .idle)

theorem quiet_plain (held : next.held = none ∨ next.held = (s.phase p).held)
    (unwritten : next.unwritten = none) (seen : next.seen = none) (condemned : next.condemned = none)
    (dated : ∀ seen stamp, next ≠ .dated seen stamp) : Quiet s p next where
  held := held
  unwritten := unwritten
  seen d some := by simp [seen] at some
  condemned d some := by simp [condemned] at some
  dated seen stamp same := absurd same (dated seen stamp)

theorem quiet_idle : Quiet s p .idle := quiet_plain (.inl rfl) rfl rfl rfl (by simp)

/-- A judgement against an owner that answers, or is too old, finds no holder left that releases in time. -/
theorem verdict_quiet {seen : Option Directory} {alive : Bool} {stamp : Nat} (known : (s.phase p).seen = seen)
    (abandoned : ∀ d, seen = some d → ¬ (alive = true ∧ s.now - stamp < staleMs) → Abandoned s d) :
    Quiet s p (verdict staleMs s.now alive stamp seen) := by
  unfold verdict
  split
  · exact quiet_idle
  · rename_i stale
    refine ⟨.inl rfl, rfl, fun d condemned => .inr (known.trans condemned), fun d condemned => ?_, by simp⟩
    exact ⟨known.trans condemned, abandoned d condemned stale⟩

/-- The owner judged is dead or too old: it holds nothing since the time it wrote. -/
theorem judged_abandoned {info : Owner} {answer : Bool} (owner : d.owner = some info)
    (truthful : s.phase info.pid = .dead ∨ answer = true)
    (timely : ∀ held ∈ (s.phase info.pid).held, s.now - held.2 < staleMs)
    (stale : ¬ (answer = true ∧ s.now - info.stamp < staleMs)) : Abandoned s d := by
  intro other same held
  obtain rfl : info = other := Option.some.inj (owner.symm.trans same)
  rcases truthful with dead | answered
  · simp [dead, Phase.held] at held
  · exact stale ⟨answered, timely _ held⟩

theorem step_did {action : Action} (dated : ∀ p seen stamp, s.phase p = .dated seen stamp → ownerOf seen = none)
    (timely : Timely staleMs s action) (careful : Careful s action)
    (done : step staleMs s action = .ok after) : Did s after := by
  unfold step at done
  cases action with
  | wait now =>
    dsimp only at done
    split at done <;> cases done
    exact .elapsed now
  | start p =>
    dsimp only at done
    split at done <;> cases done
    exact .moved p .idle quiet_idle
  | die p =>
    dsimp only at done
    split at done <;> cases done
    exact .moved p .dead (quiet_plain (.inl rfl) rfl rfl rfl (by simp))
  | tryLock p =>
    dsimp only at done
    split at done <;> cases done
    · exact .made p (by assumption)
    · exact .moved p .met (quiet_plain (.inl rfl) rfl rfl rfl (by simp))
  | readOwner p =>
    dsimp only at done
    split at done <;> cases done
    exact .moved p _ ⟨.inl rfl, rfl, fun d seen => .inl seen, by simp [Phase.condemned], by simp⟩
  | stat p =>
    dsimp only at done
    split at done
    · rename_i seen place
      split at done <;> cases done
      rename_i unowned
      refine .moved p _ ⟨.inl rfl, rfl, fun d same => .inr ?_, by simp [Phase.condemned], ?_⟩
      · rw [place]
        exact same
      · rintro seen stamp ⟨⟩
        exact unowned
    · cases done
  | judge p answer =>
    dsimp only at done
    split at done
    · rename_i seen place
      split at done
      · rename_i info owner
        split at done <;> cases done
        rename_i truthful
        refine .moved p _ (verdict_quiet (by rw [place]; rfl) fun d same stale => ?_)
        have judged : ownerOf (s.phase p).seen = some info := by rw [place]; exact owner
        have named : d.owner = some info := by rw [same] at owner; exact owner
        exact judged_abandoned named truthful (timely info judged) stale
      · cases done
    · rename_i seen stamp place
      cases done
      refine .moved p _ (verdict_quiet (by rw [place]; rfl) fun d same _ info owner => ?_)
      have unowned : d.owner = none := by
        have none := dated p seen stamp place
        rw [same] at none
        exact none
      rw [unowned] at owner
      cases owner
    · cases done
  | remove p =>
    dsimp only at done
    split at done <;> cases done
    rcases careful with empty | judged
    · exact .missed p empty
    · exact .removed p judged.symm
  | remake p =>
    dsimp only at done
    split at done <;> cases done
    · exact .made p (by assumption)
    · exact .moved p .idle quiet_idle
  | writeOwner p =>
    dsimp only at done
    split at done <;> cases done
    · rename_i inode d place there
      have same : d.inode = inode := by
        rcases careful with empty | same
        · rw [there] at empty
          cases empty
        · rw [there, place] at same
          exact Option.some.inj same
      exact .wrote p inode d (by rw [place]; rfl) there same
    · exact .moved p .idle quiet_idle
  | unlock p =>
    dsimp only at done
    split at done <;> cases done
    rename_i inode stamp place
    exact .moved p _ (quiet_plain (.inr (by rw [place]; rfl)) rfl rfl rfl (by simp))
  | readOwn p =>
    dsimp only at done
    split at done <;> cases done
    rename_i inode stamp place
    split
    · exact .moved p _ (quiet_plain (.inr (by rw [place]; rfl)) rfl rfl rfl (by simp))
    · exact .moved p .idle quiet_idle
  | release p =>
    dsimp only at done
    split at done <;> cases done
    rename_i inode stamp place
    exact .released p (by simp [Holds, place, Phase.held])

/-! What every state of a careful run keeps. -/

structure Sole (s : State) : Prop where
  fresh : ∀ d, s.dir = some d → d.inode < s.fresh
  unwrittenFresh : ∀ p inode, (s.phase p).unwritten = some inode → inode < s.fresh
  seenFresh : ∀ p d, (s.phase p).seen = some d → d.inode < s.fresh
  distinct : ∀ p q inode, (s.phase p).unwritten = some inode → (s.phase q).unwritten = some inode → p = q
  unowned : ∀ p d, (s.phase p).unwritten = some d.inode → s.dir = some d → d.owner = none
  seenUnowned : ∀ p q d, (s.phase p).unwritten = some d.inode → (s.phase q).seen = some d → d.owner = none
  dated : ∀ p seen stamp, s.phase p = .dated seen stamp → ownerOf seen = none
  condemned : ∀ p d, (s.phase p).condemned = some d → Abandoned s d
  /-- A holder's own directory is at the path and names it. -/
  held : ∀ p inode stamp, (s.phase p).held = some (inode, stamp) →
    ∃ mtime, s.dir = some ⟨inode, some ⟨p, stamp⟩, mtime⟩

theorem phase_enter (s : State) (p : Nat) (next : Phase) (q : Nat) :
    q = p ∧ (s.enter p next).phase q = next ∨ q ≠ p ∧ (s.enter p next).phase q = s.phase q := by
  by_cases same : q = p
  · exact .inl ⟨same, by rw [same]; exact Function.update_self ..⟩
  · exact .inr ⟨same, Function.update_of_ne same ..⟩

theorem seen_of_condemned {place : Phase} (condemned : place.condemned = some d) : place.seen = some d := by
  cases place <;> simp_all [Phase.condemned, Phase.seen]

theorem Start.sole (start : Start s) : Sole s := by
  have dead := start.none_alive
  exact ⟨start.inode, by simp [dead, Phase.unwritten], by simp [dead, Phase.seen], by simp [dead, Phase.unwritten],
    by simp [dead, Phase.unwritten], by simp [dead, Phase.unwritten], by simp [dead], by simp [dead, Phase.condemned],
    by simp [dead, Phase.held]⟩

/-- Where nothing is at the path, or what is there is abandoned, nobody holds the lock. -/
theorem Sole.nobody (sole : Sole s) (gone : ∀ d, s.dir = some d → Abandoned s d) (p : Nat) :
    (s.phase p).held = none := by
  cases held : (s.phase p).held with
  | none => rfl
  | some place =>
    obtain ⟨inode, stamp⟩ := place
    obtain ⟨mtime, there⟩ := sole.held p inode stamp held
    exact absurd held (gone _ there ⟨p, stamp⟩ rfl)

/-- Holders are the same process. -/
theorem Sole.one (sole : Sole s) (first : Holds s p) (second : Holds s q) : p = q := by
  obtain ⟨⟨inode, stamp⟩, held⟩ := Option.ne_none_iff_exists'.mp first
  obtain ⟨⟨inode', stamp'⟩, held'⟩ := Option.ne_none_iff_exists'.mp second
  obtain ⟨mtime, there⟩ := sole.held p inode stamp held
  obtain ⟨mtime', there'⟩ := sole.held q inode' stamp' held'
  have same := Option.some.inj (there.symm.trans there')
  simp only [Directory.mk.injEq, Option.some.injEq, Owner.mk.injEq] at same
  exact same.2.1.1

/-- Fewer holders abandon no less. -/
theorem Abandoned.mono (abandoned : Abandoned s d)
    (fewer : ∀ p place, (after.phase p).held = some place → (s.phase p).held = some place) : Abandoned after d :=
  fun info owner held => abandoned info owner (fewer _ _ held)

theorem Sole.moved (sole : Sole s) (quiet : Quiet s p next) : Sole (s.enter p next) := by
  have unwritten : ∀ q inode, ((s.enter p next).phase q).unwritten = some inode →
      (s.phase q).unwritten = some inode := by
    intro q inode made
    rcases phase_enter s p next q with ⟨rfl, here⟩ | ⟨-, there⟩
    · rw [here, quiet.unwritten] at made
      cases made
    · rwa [there] at made
  have held : ∀ q place, ((s.enter p next).phase q).held = some place → (s.phase q).held = some place := by
    intro q place holds
    rcases phase_enter s p next q with ⟨rfl, here⟩ | ⟨-, there⟩
    · rw [here] at holds
      rcases quiet.held with none | same
      · rw [none] at holds
        cases holds
      · rwa [same] at holds
    · rwa [there] at holds
  have seen : ∀ q d, ((s.enter p next).phase q).seen = some d → s.dir = some d ∨ ∃ q, (s.phase q).seen = some d := by
    intro q d saw
    rcases phase_enter s p next q with ⟨rfl, here⟩ | ⟨-, there⟩
    · rw [here] at saw
      exact (quiet.seen d saw).imp_right fun before => ⟨q, before⟩
    · rw [there] at saw
      exact .inr ⟨q, saw⟩
  refine ⟨sole.fresh, fun q inode made => sole.unwrittenFresh q inode (unwritten q inode made), ?_, ?_, ?_, ?_, ?_, ?_,
    fun q inode stamp holds => sole.held q inode stamp (held q _ holds)⟩
  · intro q d saw
    rcases seen q d saw with there | ⟨other, before⟩
    · exact sole.fresh d there
    · exact sole.seenFresh other d before
  · exact fun q r inode first second => sole.distinct q r inode (unwritten q inode first) (unwritten r inode second)
  · exact fun q d made there => sole.unowned q d (unwritten q _ made) there
  · intro q r d made saw
    rcases seen r d saw with there | ⟨other, before⟩
    · exact sole.unowned q d (unwritten q _ made) there
    · exact sole.seenUnowned q other d (unwritten q _ made) before
  · intro q looked stamp place
    rcases phase_enter s p next q with ⟨rfl, here⟩ | ⟨-, there⟩
    · exact quiet.dated looked stamp (here.symm.trans place)
    · exact sole.dated q looked stamp (there.symm.trans place)
  · intro q d condemned
    rcases phase_enter s p next q with ⟨rfl, here⟩ | ⟨-, there⟩
    · rw [here] at condemned
      exact (quiet.condemned d condemned).2.mono held
    · rw [there] at condemned
      exact (sole.condemned q d condemned).mono held

/-- The path is emptied by a process when no other holds the lock. -/
theorem Sole.cleared (sole : Sole s) (quiet : Quiet s p next) (quits : next.held = none)
    (others : ∀ q, q ≠ p → (s.phase q).held = none) : Sole (s.clear.enter p next) := by
  have moved := sole.moved quiet
  refine ⟨by simp [State.clear, State.enter], moved.unwrittenFresh, moved.seenFresh, moved.distinct,
    by simp [State.clear, State.enter], moved.seenUnowned, moved.dated, moved.condemned, ?_⟩
  intro q inode stamp held
  rcases phase_enter s.clear p next q with ⟨-, here⟩ | ⟨other, there⟩
  · rw [here, quits] at held
    cases held
  · rw [there] at held
    exact absurd ((others q other).symm.trans held) (by simp)

theorem Sole.made (sole : Sole s) (empty : s.dir = none) : Sole (s.make p) := by
  have nobody := sole.nobody (by simp [empty])
  have place : ∀ q, q = p ∧ (s.make p).phase q = .made s.fresh ∨ q ≠ p ∧ (s.make p).phase q = s.phase q :=
    phase_enter s p (.made s.fresh)
  have held : ∀ q, ((s.make p).phase q).held = none := by
    intro q
    rcases place q with ⟨-, here⟩ | ⟨-, there⟩
    · rw [here]
      rfl
    · rw [there]
      exact nobody q
  have seen : ∀ q d, ((s.make p).phase q).seen = some d → (s.phase q).seen = some d := by
    intro q d saw
    rcases place q with ⟨-, here⟩ | ⟨-, there⟩
    · rw [here] at saw
      cases saw
    · rwa [there] at saw
  have unwritten : ∀ q inode, ((s.make p).phase q).unwritten = some inode →
      q = p ∧ inode = s.fresh ∨ (s.phase q).unwritten = some inode := by
    intro q inode made
    rcases place q with ⟨same, here⟩ | ⟨-, there⟩
    · rw [here] at made
      exact .inl ⟨same, (Option.some.inj made).symm⟩
    · exact .inr (there ▸ made)
  refine ⟨?_, ?_, fun q d saw => Nat.lt_succ_of_lt (sole.seenFresh q d (seen q d saw)), ?_, ?_, ?_, ?_, ?_, ?_⟩
  · rintro d ⟨⟩
    exact Nat.lt_succ_self s.fresh
  · intro q inode made
    rcases unwritten q inode made with ⟨-, rfl⟩ | before
    · exact Nat.lt_succ_self s.fresh
    · exact Nat.lt_succ_of_lt (sole.unwrittenFresh q inode before)
  · intro q r inode first second
    -- The new inode is no other process's.
    rcases unwritten q inode first with ⟨rfl, rfl⟩ | before <;>
      rcases unwritten r _ second with ⟨rfl, same⟩ | earlier
    · rfl
    · exact absurd (sole.unwrittenFresh r _ earlier) (Nat.lt_irrefl _)
    · exact absurd (same ▸ sole.unwrittenFresh q _ before) (Nat.lt_irrefl _)
    · exact sole.distinct q r inode before earlier
  · rintro q d - ⟨⟩
    rfl
  · intro q r d made saw
    rcases unwritten q d.inode made with ⟨-, same⟩ | before
    · exact absurd (same ▸ sole.seenFresh r d (seen r d saw)) (Nat.lt_irrefl _)
    · exact sole.seenUnowned q r d before (seen r d saw)
  · intro q looked stamp dated
    rcases place q with ⟨-, here⟩ | ⟨-, there⟩
    · cases here.symm.trans dated
    · exact sole.dated q looked stamp (there.symm.trans dated)
  · intro q d _ info _ holds
    rw [held info.pid] at holds
    cases holds
  · intro q inode stamp holds
    rw [held q] at holds
    cases holds

theorem Sole.wrote (sole : Sole s) {inode : Nat} (own : (s.phase p).unwritten = some inode) (there : s.dir = some d)
    (same : d.inode = inode) : Sole ((s.write p d).enter p (.holding inode s.now)) := by
  subst same
  have unowned := sole.unowned p d own there
  have nobody := sole.nobody fun other at_path info owner => by
    rw [Option.some.inj (there.symm.trans at_path)] at unowned
    rw [unowned] at owner
    cases owner
  have place := phase_enter (s.write p d) p (.holding d.inode s.now)
  have seen : ∀ q saw, (((s.write p d).enter p (.holding d.inode s.now)).phase q).seen = some saw →
      (s.phase q).seen = some saw := by
    intro q saw here
    rcases place q with ⟨-, same⟩ | ⟨-, same⟩
    · rw [same] at here
      cases here
    · rwa [same] at here
  have unwritten : ∀ q inode, (((s.write p d).enter p (.holding d.inode s.now)).phase q).unwritten = some inode →
      q ≠ p ∧ (s.phase q).unwritten = some inode := by
    intro q inode made
    rcases place q with ⟨-, same⟩ | ⟨other, same⟩
    · rw [same] at made
      cases made
    · exact ⟨other, same ▸ made⟩
  have held : ∀ q inode stamp,
      (((s.write p d).enter p (.holding d.inode s.now)).phase q).held = some (inode, stamp) →
      q = p ∧ inode = d.inode ∧ stamp = s.now := by
    intro q inode stamp holds
    rcases place q with ⟨rfl, same⟩ | ⟨-, same⟩
    · rw [same] at holds
      cases holds
      exact ⟨rfl, rfl, rfl⟩
    · rw [same] at holds
      cases (nobody q).symm.trans holds
  refine ⟨?_, fun q inode made => sole.unwrittenFresh q inode (unwritten q inode made).2,
    fun q saw here => sole.seenFresh q saw (seen q saw here),
    fun q r inode first second => sole.distinct q r inode (unwritten q inode first).2 (unwritten r inode second).2,
    ?_, fun q r saw made here => sole.seenUnowned q r saw (unwritten q _ made).2 (seen r saw here), ?_, ?_, ?_⟩
  · rintro other ⟨⟩
    exact sole.fresh d there
  · rintro q other made ⟨⟩
    -- The directory written is nobody else's.
    obtain ⟨another, before⟩ := unwritten q d.inode made
    exact absurd (sole.distinct q p d.inode before own) another
  · intro q looked stamp dated
    rcases place q with ⟨-, same⟩ | ⟨-, same⟩
    · cases same.symm.trans dated
    · exact sole.dated q looked stamp (same.symm.trans dated)
  · intro q saw condemned info owner holds
    obtain ⟨-, same, -⟩ := held info.pid saw.inode info.stamp holds
    have unseen := sole.seenUnowned p q saw (same ▸ own) (seen q saw (seen_of_condemned condemned))
    rw [unseen] at owner
    cases owner
  · intro q inode stamp holds
    obtain ⟨rfl, rfl, rfl⟩ := held q inode stamp holds
    exact ⟨_, rfl⟩

theorem Sole.did (sole : Sole s) (did : Did s after) : Sole after := by
  cases did with
  | elapsed now => exact ⟨sole.fresh, sole.unwrittenFresh, sole.seenFresh, sole.distinct, sole.unowned,
      sole.seenUnowned, sole.dated, sole.condemned, sole.held⟩
  | moved p next quiet => exact sole.moved quiet
  | made p empty => exact sole.made empty
  | wrote p inode d own there same => exact sole.wrote own there same
  | removed p judged =>
    apply sole.cleared (quiet_plain (.inl rfl) rfl rfl rfl (by simp)) rfl
    exact fun q _ => sole.nobody (fun d there => sole.condemned p d (judged.trans there)) q
  | missed p empty =>
    apply sole.cleared (quiet_plain (.inl rfl) rfl rfl rfl (by simp)) rfl
    exact fun q _ => sole.nobody (by simp [empty]) q
  | released p own =>
    apply sole.cleared quiet_idle rfl
    intro q other
    by_contra holds
    exact other (sole.one holds own)

/-- The rule of a careful run. -/
def Orderly (staleMs : Nat) (s : State) (action : Action) : Prop := Timely staleMs s action ∧ Careful s action

instance (staleMs : Nat) (s : State) (action : Action) : Decidable (Orderly staleMs s action) :=
  inferInstanceAs (Decidable (_ ∧ _))

theorem sole_reached {start : State} (clean : Start start)
    (reached : Reachable (under staleMs (Orderly staleMs)) start s) : Sole s := by
  apply reached.invariant clean.sole
  intro before action after sole taken
  exact sole.did (step_did sole.dated taken.1.1 taken.1.2 taken.2)

/-! Taking a lock that nobody holds. -/

/-- The steps of one `tryLock` on its own. -/
def takeover (s : State) (p : Nat) (answer : Bool) : List Action :=
  match s.dir with
  | none => [.tryLock p, .writeOwner p]
  | some d => match d.owner with
    | some _ => [.tryLock p, .readOwner p, .judge p answer, .remove p, .remake p, .writeOwner p]
    | none => [.tryLock p, .readOwner p, .stat p, .judge p answer, .remove p, .remake p, .writeOwner p]

/-- The steps, all of them careful, end inside the lock. -/
def Takes (staleMs : Nat) (p : Nat) (s : State) (actions : List Action) : Prop :=
  ∃ last, run (step staleMs) (Orderly staleMs) s actions = some last ∧ Holds last p

theorem Takes.first {action : Action} {rest : List Action} (takes : Takes staleMs p after rest)
    (orderly : Orderly staleMs s action) (done : step staleMs s action = .ok after) :
    Takes staleMs p s (action :: rest) := by
  obtain ⟨last, ran, holds⟩ := takes
  exact ⟨last, by rw [run, if_pos orderly, done]; exact ran, holds⟩

theorem phase_entered (s : State) (p : Nat) (next : Phase) : (s.enter p next).phase p = next := Function.update_self ..

theorem enter_twice (s : State) (p : Nat) (first second : Phase) :
    (s.enter p first).enter p second = s.enter p second := by
  simp [State.enter, Function.update_idem]

theorem takes_written : Takes staleMs p (s.make p) [.writeOwner p] := by
  have place : (s.make p).phase p = .made s.fresh := Function.update_self ..
  have written : step staleMs (s.make p) (.writeOwner p) =
      .ok (((s.make p).write p ⟨s.fresh, none, s.now⟩).enter p (.holding s.fresh s.now)) := by
    simp only [step, place]
    rfl
  refine Takes.first ⟨_, rfl, ?_⟩ ⟨trivial, .inr ?_⟩ written
  · simp [Holds, phase_entered, Phase.held]
  · rw [place]
    rfl

theorem takes_removed (place : (s.phase p) = .doomed s.dir) :
    Takes staleMs p s [.remove p, .remake p, .writeOwner p] := by
  have cleared : step staleMs s (.remove p) = .ok (s.clear.enter p .cleared) := by simp only [step, place]
  have remade : step staleMs (s.clear.enter p .cleared) (.remake p) = .ok ((s.clear.enter p .cleared).make p) := by
    simp only [step, phase_entered]
    rfl
  have hits : Careful s (.remove p) := .inr (by rw [place]; rfl)
  exact Takes.first (Takes.first takes_written ⟨trivial, trivial⟩ remade) ⟨trivial, hits⟩ cleared

/-- Once the owner or the directory is old enough, the lock is taken, whether or not the owner's number answers. -/
theorem takes_left (idle : s.phase p = .idle) (nobody : ∀ q, ¬ Holds s q) (answer : Bool)
    (truthful : ∀ info ∈ ownerOf s.dir, s.phase info.pid = .dead ∨ answer = true) (old : ∀ d, s.dir = some d → (∀ info, d.owner = some info → staleMs ≤ s.now - info.stamp) ∧
      (d.owner = none → unownedMs ≤ s.now - d.mtime)) : Takes staleMs p s (takeover s p answer) := by
  cases there : s.dir with
  | none =>
    have made : step staleMs s (.tryLock p) = .ok (s.make p) := by simp only [step, idle, there]
    rw [takeover, there]
    exact takes_written.first ⟨trivial, trivial⟩ made
  | some d =>
    have met : step staleMs s (.tryLock p) = .ok (s.enter p .met) := by simp only [step, idle, there]
    have read : step staleMs (s.enter p .met) (.readOwner p) = .ok (s.enter p (.read (some d))) := by
      simp only [step, phase_entered, enter_twice]
      rw [show (s.enter p .met).dir = some d from there]
    have removed : Takes staleMs p (s.enter p (.doomed (some d))) [.remove p, .remake p, .writeOwner p] :=
      takes_removed (by rw [phase_entered, show (s.enter p _).dir = some d from there])
    have quits : ∀ next q, next.held = none → ((s.enter p next).phase q).held = none := by
      intro next q none
      rcases phase_enter s p next q with ⟨-, here⟩ | ⟨-, elsewhere⟩
      · rw [here, none]
      · rw [elsewhere]
        exact not_not.mp (nobody q)
    rw [takeover, there]
    dsimp only
    cases owner : d.owner with
    | some info =>
      have aged := (old d there).1 info owner
      have listed : ownerOf s.dir = some info := by rw [there]; exact owner
      have answered : (s.enter p (.read (some d))).phase info.pid = .dead ∨ answer = true := by
        rcases phase_enter s p (.read (some d)) info.pid with ⟨same, -⟩ | ⟨-, elsewhere⟩
        · refine .inr ((truthful info listed).resolve_left fun dead => ?_)
          rw [same, idle] at dead
          cases dead
        · rw [elsewhere]
          exact truthful info listed
      have judged : step staleMs (s.enter p (.read (some d))) (.judge p answer) =
          .ok (s.enter p (.doomed (some d))) := by
        simp only [step, phase_entered, ownerOf, Option.bind_some, owner, if_pos answered, enter_twice, verdict]
        rw [if_neg (by simp only [State.enter]; omega)]
      have timely : Timely staleMs (s.enter p (.read (some d))) (.judge p answer) := by
        intro info _ held holds
        rw [Option.mem_def, quits _ _ rfl] at holds
        cases holds
      refine Takes.first ?_ ⟨trivial, trivial⟩ met
      refine Takes.first ?_ ⟨trivial, trivial⟩ read
      exact Takes.first removed ⟨timely, trivial⟩ judged
    | none =>
      have aged := (old d there).2 owner
      have dated : step staleMs (s.enter p (.read (some d))) (.stat p) =
          .ok (s.enter p (.dated (some d) d.mtime)) := by
        simp only [step, phase_entered, ownerOf, Option.bind_some, owner, if_true, enter_twice]
        rw [show (s.enter p _).dir = some d from there]
        rfl
      have judged : step staleMs (s.enter p (.dated (some d) d.mtime)) (.judge p answer) =
          .ok (s.enter p (.doomed (some d))) := by
        simp only [step, phase_entered, enter_twice, verdict]
        rw [if_neg fun young => absurd (of_decide_eq_true young.1) (Nat.not_lt.mpr aged)]
      have timely : Timely staleMs (s.enter p (.dated (some d) d.mtime)) (.judge p answer) := by
        intro info _ held holds
        rw [Option.mem_def, quits _ _ rfl] at holds
        cases holds
      refine Takes.first ?_ ⟨trivial, trivial⟩ met
      refine Takes.first ?_ ⟨trivial, trivial⟩ read
      refine Takes.first ?_ ⟨trivial, trivial⟩ dated
      exact Takes.first removed ⟨timely, trivial⟩ judged

/-- At most one process is inside the lock; and when no process is, one that comes takes it after a while, whether or
not the number in the owner file belongs to somebody by then. -/
def Exclusive (staleMs : Nat) (s : State) : Prop :=
  (∀ p q, Holds s p → Holds s q → p = q) ∧
  ∀ p, s.phase p = .idle → (∀ q, ¬ Holds s q) → ∃ now, s.now ≤ now ∧
    ∀ answer, (∀ info ∈ ownerOf s.dir, s.phase info.pid = .dead ∨ answer = true) →
      Takes staleMs p s (.wait now :: takeover s p answer)

theorem lock_exclusive (staleMs : Nat) (start s : State) (clean : Start start)
    (reached : Reachable (under staleMs (Orderly staleMs)) start s) : Exclusive staleMs s := by
  refine ⟨fun p q => (sole_reached clean reached).one, fun p idle nobody => ?_⟩
  -- Long enough after the owner's time and after the directory's.
  let stamp := ((ownerOf s.dir).map Owner.stamp).getD 0
  let mtime := (s.dir.map Directory.mtime).getD 0
  refine ⟨s.now + staleMs + unownedMs + stamp + mtime, by omega, fun answer truthful => ?_⟩
  have waited : step staleMs s (.wait (s.now + staleMs + unownedMs + stamp + mtime)) =
      .ok { s with now := s.now + staleMs + unownedMs + stamp + mtime } := by
    simp only [step]
    rw [if_pos (by omega)]
  refine Takes.first ?_ ⟨trivial, trivial⟩ waited
  apply takes_left (s := { s with now := s.now + staleMs + unownedMs + stamp + mtime }) idle nobody answer truthful
  intro d there
  have there : s.dir = some d := there
  constructor
  · intro info owner
    have stamped : stamp = info.stamp := by simp [stamp, ownerOf, there, owner]
    dsimp only
    omega
  · intro _
    have dated : mtime = d.mtime := by simp [mtime, there]
    dsimp only
    omega

/-! One lock left by a dead process, and two processes that come for it. -/

def leftState : State := ⟨some ⟨0, some ⟨1, 0⟩, 0⟩, fun _ => .dead, 5, 1⟩

theorem leftState_start : Start leftState := ⟨fun _ => rfl, by rintro d ⟨⟩; decide⟩

def takeoverRun : List Action :=
  [.start 2, .tryLock 2, .readOwner 2, .judge 2 false, .remove 2, .remake 2, .writeOwner 2]

theorem lock_exclusive_sample : ∃ s, Holds s 2 ∧ Exclusive 1200000 s := by
  obtain ⟨last, ran, holds⟩ := run_passes (step 1200000) (Orderly 1200000) takeoverRun leftState
    (fun s => decide (s.phase 2 = .holding 1 5)) (by decide)
  refine ⟨last, ?_, lock_exclusive 1200000 leftState last leftState_start ran⟩
  rw [Holds, of_decide_eq_true holds]
  simp [Phase.held]

/-- Both judge the dead owner; the second then removes the first one's new lock. -/
def doubleRun : List Action :=
  [.start 2, .start 3, .tryLock 2, .readOwner 2, .judge 2 false, .tryLock 3, .readOwner 3, .judge 3 false,
    .remove 2, .remake 2, .writeOwner 2, .remove 3, .remake 3, .writeOwner 3]

theorem lock_doubled : Start leftState ∧ ∃ s, Reachable (under 1200000 (Timely 1200000)) leftState s ∧
    s.phase 2 = .holding 1 5 ∧ s.phase 3 = .holding 2 5 ∧ ¬ Exclusive 1200000 s := by
  obtain ⟨last, ran, both⟩ := run_passes (step 1200000) (Timely 1200000) doubleRun leftState
    (fun s => decide (s.phase 2 = .holding 1 5 ∧ s.phase 3 = .holding 2 5)) (by decide)
  obtain ⟨second, third⟩ := of_decide_eq_true both
  refine ⟨leftState_start, last, ran, second, third, fun exclusive => ?_⟩
  have same := exclusive.1 2 3 (by simp [Holds, second, Phase.held]) (by simp [Holds, third, Phase.held])
  exact absurd same (by decide)

end Solonpad.SignerLock
