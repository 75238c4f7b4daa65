import Solonpad.RewardHolders
import Solonpad.Enrolment

/-!
The participant list of the reward token. An account joins it with its first point, at that point's
time, and never leaves; so the bound of an ended epoch counts everyone who had a point before its
end. Who earned anything in the epoch stands below that bound, once.
-/

namespace Solonpad.RewardToken

open Checked Checkpoints Enrolment Eligibility
open Chain (Address)

variable {c : Config} {k : Controller} {env : Env} {governance : Address}
variable {s mid after : State} {told : List Tell} {now : Nat} {account : Address}

def participantAt (s : State) (index : Nat) : Option Address := s.participants[index]?.map Prod.fst

/-- The bound and the revision of an ended epoch. -/
def queueSnapshot (s : State) (now epoch : Nat) : Option (Nat × Nat) :=
  if epoch < now / day then
    some (joinedBefore s.participants ((epoch + 1) * day), s.payouts.cumulativeDelivered epoch + 1)
  else none

structure Roster (s : State) (now : Nat) : Prop where
  listed : ∀ a, s.accountHistory a ≠ [] → ∃ since, (a, since) ∈ s.participants
  since : ∀ p ∈ s.participants,
    (s.accountHistory p.1).head?.map AccountPoint.time = some p.2
  enrolled : Enrolled s.participants now

theorem Roster.same (roster : Roster s now) (participants : after.participants = s.participants)
    (history : after.accountHistory = s.accountHistory) : Roster after now := by
  obtain ⟨listed, since, enrolled⟩ := roster
  constructor
  · rwa [history, participants]
  · rwa [history, participants]
  · rwa [participants]

theorem Roster.later (roster : Roster s now) {later : Nat} (order : now ≤ later) : Roster s later :=
  ⟨roster.listed, roster.since, roster.enrolled.later order⟩

/-- A new point of an account that has some. -/
theorem Roster.pointed (roster : Roster s now) (seen : s.accountHistory account ≠ [])
    (pointed : Pointed now account s after) : Roster after now := by
  obtain ⟨point, _, _, rfl⟩ := pointed
  obtain ⟨listed, since, enrolled⟩ := roster
  refine ⟨fun a some => ?_, fun p member => ?_, enrolled⟩
  · by_cases own : a = account
    · subst own
      exact listed a seen
    · simp only [Function.update_of_ne own] at some
      exact listed a some
  · have known := since p member
    by_cases own : p.1 = account
    · rw [own] at known
      simp only [own, Function.update_self, head_record, known, Option.getD_some]
    · simpa only [Function.update_of_ne own] using known

/-- A first point makes its account a participant, behind all others. -/
theorem Roster.joined (roster : Roster s now) (unseen : s.accountHistory account = [])
    (pointed : Pointed now account { s with participants := s.participants ++ [(account, now)] } after) :
    Roster after now := by
  obtain ⟨point, time, _, rfl⟩ := pointed
  obtain ⟨listed, since, enrolled⟩ := roster
  have absent : ∀ p ∈ s.participants, p.1 ≠ account := by
    intro p member own
    have known := since p member
    rw [own, unseen] at known
    cases known
  refine ⟨fun a some => ?_, fun p member => ?_, enrolled.joined absent⟩
  · by_cases own : a = account
    · subst own
      exact ⟨now, List.mem_append_right _ (List.mem_singleton_self _)⟩
    · simp only [Function.update_of_ne own] at some
      obtain ⟨t, member⟩ := listed a some
      exact ⟨t, List.mem_append_left _ member⟩
  · rcases List.mem_append.mp member with older | only
    · simp only [Function.update_of_ne (absent p older)]
      exact since p older
    · rw [List.mem_singleton.mp only]
      simp only [Function.update_self, head_record, unseen, time]
      rfl

theorem Move.roster (move : Move c k env s told after) (roster : Roster s env.now) :
    Roster after env.now ∧ Enrols env.now s.participants after.participants := by
  cases move with
  | frame same =>
    refine ⟨roster.same same.participants same.history, ?_⟩
    rw [same.participants]
    exact .refl _ _
  | weigh account next tree generation fair earns covered grown kept pointed =>
    have bare : Roster { s with
        eligible := Function.update s.eligible account next
        totalEligible := s.totalEligible + next - s.eligible account
        expiryWeights := tree } env.now := roster.same rfl rfl
    by_cases unseen : s.accountHistory account = []
    · rw [if_pos unseen] at pointed
      refine ⟨bare.joined unseen pointed, ?_⟩
      obtain ⟨_, _, _, rfl⟩ := pointed
      exact .one _ _ account
    · rw [if_neg unseen] at pointed
      refine ⟨bare.pointed unseen pointed, ?_⟩
      obtain ⟨_, _, _, rfl⟩ := pointed
      exact .refl _ _
  | point account seen pointed =>
    refine ⟨roster.pointed seen pointed, ?_⟩
    obtain ⟨_, _, _, rfl⟩ := pointed
    exact .refl _ _
  | switch | migrate | retire | qualify | withdraw => exact ⟨roster.same rfl rfl, .refl _ _⟩

theorem Moves.roster (moves : Moves c k env s told after) (roster : Roster s env.now) :
    Roster after env.now ∧ Enrols env.now s.participants after.participants := by
  induction moves with
  | refl => exact ⟨roster, .refl _ _⟩
  | tail _ move ih =>
    obtain ⟨held, enrols⟩ := ih
    obtain ⟨kept, more⟩ := move.roster held
    exact ⟨kept, enrols.trans le_rfl more⟩

theorem Passes.roster (passes : Passes c k env s told after) (roster : Roster s env.now) :
    Roster after env.now ∧ Enrols env.now s.participants after.participants := by
  cases passes with
  | moves moves => exact moves.roster roster
  | transfers sender receiver first token others second settled =>
    rename_i released moved
    obtain ⟨held, enrols⟩ := first.roster roster
    have same : moved.participants = released.participants := by rw [token]
    have between : Roster moved env.now := held.same same (by rw [token])
    obtain ⟨kept, more⟩ := second.roster between
    rw [same] at more
    exact ⟨kept, enrols.trans le_rfl more⟩

/-! Runs. -/

theorem turn_roster {sys next : System} (turn : Turn c governance sys next) (whole : Whole sys)
    (roster : Roster sys.token sys.now) : Roster next.token next.now ∧
      Enrols sys.now sys.token.participants next.token.participants := by
  cases turn with
  | wait now order => exact ⟨roster.later order, .refl _ _⟩
  | govern env action order taken => exact ⟨roster.later order, .refl _ _⟩
  | call env call order taken =>
    obtain ⟨_, _, passes⟩ := step_passes (whole.sound.wait order) taken
    obtain ⟨kept, enrols⟩ := passes.roster (roster.later order)
    have still : Enrols sys.now sys.token.participants sys.token.participants := .refl _ _
    exact ⟨kept, still.trans order enrols⟩

theorem run_roster {sys final : System} (run : Run c governance sys final) (whole : Whole sys)
    (roster : Roster sys.token sys.now) : Roster final.token final.now ∧
      Enrols sys.now sys.token.participants final.token.participants := by
  induction run with
  | refl => exact ⟨roster, .refl _ _⟩
  | tail earlier turn ih =>
    obtain ⟨held, enrols⟩ := ih
    obtain ⟨whole, later⟩ := run_whole earlier whole
    obtain ⟨kept, more⟩ := turn_roster turn whole held
    exact ⟨kept, enrols.trans later.order more⟩

theorem start_roster (c : Config) (k : Controller) (now : Nat) : Roster (start c k now).token (start c k now).now := by
  refine ⟨fun _ some => absurd rfl some, ?_, .empty _⟩
  intro _ member
  cases member

/-- Credit in an epoch takes a point before its end. -/
theorem credit_joined {cut : Option Nat} {a : Address} {epoch credit : Nat} (points : Points s cut now)
    (roster : Roster s now) (read : s.epochCredit27 cut a epoch = .ok credit) (some : credit ≠ 0) :
    ∃ since, (a, since) ∈ s.participants ∧ since < (epoch + 1) * day := by
  simp only [State.epochCredit27, bind_ok, sub_ok] at read
  obtain ⟨upper, earned, _, _, _, rfl⟩ := read
  cases found : before AccountPoint.time (s.accountHistory a) ((epoch + 1) * day) with
  | none =>
    rw [State.earnedBefore, found] at earned
    cases earned
    omega
  | some p =>
    obtain ⟨member, early⟩ := before_some (points.stamped a) found
    obtain ⟨since, listed⟩ := roster.listed a (List.ne_nil_of_mem member)
    have began := roster.since _ listed
    refine ⟨since, listed, ?_⟩
    cases points_ : s.accountHistory a with
    | nil =>
      rw [points_] at member
      cases member
    | cons first rest =>
      have rising := (points.stamped a).rising
      simp only [points_] at member began rising
      cases began
      rcases List.mem_cons.mp member with rfl | later
      · exact early
      · have := (List.pairwise_cons.mp rising).1 p later
        omega

/-- Once an epoch has ended its bound and everyone below it stay, and whoever earned in it stands
below, at one index. -/
theorem participants_complete {k : Controller} {start_ : Nat} {sys final : System}
    (reached : Run c governance (start c k start_) sys) (further : Run c governance sys final)
    {epoch : Nat} (ended : epoch < sys.now / day) :
    ∃ bound, (∃ revision, queueSnapshot sys.token sys.now epoch = some (bound, revision)) ∧
      (∃ revision, queueSnapshot final.token final.now epoch = some (bound, revision)) ∧
      (∀ i, i < bound → participantAt final.token i = participantAt sys.token i ∧
        (participantAt sys.token i).isSome = true) ∧
      ∀ a credit, final.token.epochCredit27 (final.token.cutoff final.controller final.now) a epoch =
        .ok credit → credit ≠ 0 → ∃ i, i < bound ∧ participantAt sys.token i = some a ∧
          ∀ j, participantAt final.token j = some a → j = i := by
  obtain ⟨whole, _⟩ := run_whole reached (start_whole c k start_)
  obtain ⟨roster, _⟩ := run_roster reached (start_whole c k start_) (start_roster c k start_)
  obtain ⟨whole', later⟩ := run_whole further whole
  obtain ⟨roster', enrols⟩ := run_roster further whole roster
  have past : (epoch + 1) * day ≤ sys.now := by
    simp only [day] at ended ⊢
    omega
  have order := later.order
  have ended' : epoch < final.now / day := by
    simp only [day] at past ⊢
    omega
  obtain ⟨same, kept⟩ := roster.enrolled.frozen roster'.enrolled enrols past
  refine ⟨joinedBefore sys.token.participants ((epoch + 1) * day), ⟨_, if_pos ended⟩,
    ⟨_, by rw [queueSnapshot, if_pos ended', same]⟩, fun i below => ?_, fun a credit read some => ?_⟩
  · have bound := (roster.enrolled.below ((epoch + 1) * day)).1
    refine ⟨by rw [participantAt, participantAt, kept i below], ?_⟩
    rw [participantAt, List.getElem?_eq_getElem (by omega)]
    rfl
  · obtain ⟨since, member, early⟩ := credit_joined whole'.sound.points roster' read some
    obtain ⟨i, below, at_, unique⟩ := roster'.enrolled.found member early
    rw [same] at below
    rw [kept i below] at at_
    exact ⟨i, below, at_, unique⟩

end Solonpad.RewardToken
