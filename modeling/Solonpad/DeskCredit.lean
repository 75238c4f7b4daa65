import Solonpad.DeskTurns
import Solonpad.Transition

/-!
Where a desk card's credit comes from. A credit moves what remained of earlier days, opens a generation
where cards were issued, and shares the rest by the cards issued. Over a run a card's credit is the naive
replay of the credits that counted it, and nothing of what was received is lost.
-/

namespace Solonpad.Desk

open Checked AdmittedCredit RunningTotal Transition
open Eligibility (day)
open RewardToken (precision)

variable {W : Type} {c : Config} {b : Balance W} {x : Peers W}

/-! One stream's credit. -/

def CreditEvent.payment (e : CreditEvent) : Payment := ⟨e.supply, e.quotient⟩

/-- The generations against the credits, which were shared by the cards issued then. -/
structure Accrued (cards : Cards) (st : Stream) : Prop where
  tracks : Tracks Generation.upperId Generation.initialCounter st.generations st.counter st.supply
    (st.events.map CreditEvent.payment)
  bounded : st.supply ≤ cards.totalSupply
  shared : ∀ e ∈ st.events, e.supply ≤ cards.totalSupply ∧ e.protocol ≤ e.supply ∧
    (List.range' 1 e.supply).countP cards.protocolCard = e.protocol
  total : st.totalCredit27 = (st.events.map fun e => e.quotient * (e.supply - e.protocol)).sum

variable {cards : Cards} {s after : Store} {base : Base} {st : Stream}

theorem blank_accrued (cards : Cards) : Accrued cards .blank where
  tracks := .empty
  bounded := Nat.zero_le _
  shared _ member := by cases member
  total := rfl

theorem Accrued.of_account {other : Stream} (accrued : Accrued cards st) (same : other.account = st.account) :
    Accrued cards other := by
  simp only [Stream.account, Prod.mk.injEq] at same
  obtain ⟨_, counter, _, supply, total, _, generations, _, events⟩ := same
  constructor
  · rw [generations, counter, supply, events]
    exact accrued.tracks
  · rw [supply]
    exact accrued.bounded
  · rw [events]
    exact accrued.shared
  · rw [total, events]
    exact accrued.total

theorem Accrued.follows {later : Cards} (accrued : Accrued cards st) (follows : Follows cards later) :
    Accrued later st where
  tracks := accrued.tracks
  bounded := accrued.bounded.trans follows.grows
  shared e member := by
    obtain ⟨within, part, count⟩ := accrued.shared e member
    exact ⟨within.trans follows.grows, part, by rw [follows.countP _ within, count]⟩
  total := accrued.total

/-- What remained of a stream does not matter to its credit. -/
theorem Accrued.empty (accrued : Accrued cards st) : Accrued cards { st with rem := 0 } :=
  ⟨accrued.tracks, accrued.bounded, accrued.shared, accrued.total⟩

theorem roll_streams (s : Store) (base : Base) (key other : Key) : (s.roll base key).1.streams other = s.streams other ∨
    (s.roll base key).1.streams other = { s.streams other with rem := 0 } := by
  unfold Store.roll
  split
  · exact .inl rfl
  · next previous _ =>
    split
    · exact .inl rfl
    · dsimp only
      by_cases same : other = previous
      · rw [same, Function.update_self]
        exact .inr rfl
      · rw [Function.update_of_ne same]
        exact .inl rfl

theorem Accrued.regenerate (accrued : Accrued cards st) (new : st.supply ≠ cards.totalSupply) :
    Accrued cards { st with
      rem := 0
      generations := st.generations ++ [⟨cards.totalSupply, st.counter⟩]
      supply := cards.totalSupply } where
  tracks := accrued.tracks.mark (Nat.lt_of_le_of_ne accrued.bounded new) rfl
  bounded := Nat.le_refl _
  shared := accrued.shared
  total := accrued.total

theorem Accrued.accrue (accrued : Accrued cards st) (dealt : Dealt cards) (some' : 0 < cards.totalSupply)
    (part : cards.protocolMinted ≤ cards.totalSupply) (current : st.supply = cards.totalSupply) (key : Key)
    (amount rolled : Nat) : Accrued cards (st.accrue key cards.totalSupply cards.protocolMinted cards.minted
      (cards.totalSupply - cards.protocolMinted) amount rolled) where
  tracks := by
    have paid := accrued.tracks.pay (by omega) ((amount * precision + st.rem + rolled) / cards.totalSupply)
    simp only [Stream.accrue, List.map_append, List.map_cons, List.map_nil, CreditEvent.payment]
    rw [← current] at paid ⊢
    exact paid
  bounded := accrued.bounded
  shared e member := by
    rcases List.mem_append.mp member with older | new
    · exact accrued.shared e older
    · obtain rfl := List.mem_singleton.mp new
      exact ⟨Nat.le_refl _, part, dealt.protocol⟩
  total := by
    simp only [Stream.accrue, List.map_append, List.map_cons, List.map_nil, List.sum_append, List.sum_cons,
      List.sum_nil, Nat.add_zero]
    rw [accrued.total]

theorem credited_accrued (dealt : Dealt cards) (some' : 0 < cards.totalSupply)
    (part : cards.protocolMinted ≤ cards.totalSupply) (accrued : ∀ key, Accrued cards (s.streams key)) (epoch : Nat)
    (base : Base) (amount : Nat) (key : Key) : Accrued cards ((s.credited cards epoch base amount).streams key) := by
  have rolled : ∀ key, Accrued cards ((s.roll base (base.on epoch)).1.streams key) := by
    intro key
    rcases roll_streams s base (base.on epoch) key with same | emptied
    · rw [same]
      exact accrued key
    · rw [emptied]
      exact (accrued key).empty
  unfold Store.credited Store.regenerate
  dsimp only
  generalize s.roll base (base.on epoch) = roll at rolled
  split
  · next current =>
    rw [Store.setStream]
    dsimp only
    by_cases same : key = base.on epoch
    · rw [same, Function.update_self]
      exact (rolled _).accrue dealt some' part current _ _ _
    · rw [Function.update_of_ne same]
      exact rolled key
  · next new =>
    rw [Store.setStream]
    dsimp only
    by_cases same : key = base.on epoch
    · rw [same, Function.update_self, Function.update_self]
      exact ((rolled _).regenerate new).accrue dealt some' part rfl _ _ _
    · rw [Function.update_of_ne same, Function.update_of_ne same]
      exact rolled key

/-! What was received and where it is. -/

/-- A day's credit, its remainder, and what an earlier day carried to it. -/
def Store.held (s : Store) (key : Key) : Nat :=
  (s.streams key).totalCredit27 + (s.streams key).delegatedCredit27 + (s.streams key).rem + s.nextEpochRemainder key

def Store.received (s : Store) (key : Key) : Nat := (s.streams key).received

def Held (s : Store) (base : Base) (total : Nat) : Prop := Totals (fun epoch => s.held (base.on epoch)) total

def Received (s : Store) (base : Base) (total : Nat) : Prop := Totals (fun epoch => s.received (base.on epoch)) total

structure Conserved (s : Store) : Prop where
  named : ∀ base key, s.latestStream base = some key → key = base.on (s.streams key).epoch
  whole : ∀ base, ∃ received, Received s base received ∧ Held s base (received * precision)

theorem on_epoch {base : Base} {a b : Nat} (different : a ≠ b) : base.on a ≠ base.on b := by
  intro same
  exact different (congrArg Key.epoch same)

theorem on_base {base other : Base} {a b : Nat} (different : other ≠ base) : other.on a ≠ base.on b := by
  intro same
  simp only [Base.on, Key.mk.injEq] at same
  exact different (by cases base; cases other; simp_all)

/-- One part of a credit: what it takes from a base's days and what it adds to them. -/
structure Moves (base : Base) (s after : Store) (out added : Nat) : Prop where
  apart : ∀ other, other ≠ base → ∀ epoch, after.held (other.on epoch) = s.held (other.on epoch)
  sums : ∀ total, Held s base total → ∃ total', Held after base total' ∧ total' + out = total + added

theorem Moves.refl (base : Base) (s : Store) : Moves base s s 0 0 :=
  ⟨fun _ _ _ => rfl, fun total held => ⟨total, held, rfl⟩⟩

theorem Moves.trans {middle : Store} {out added out' added' : Nat} (first : Moves base s middle out added)
    (second : Moves base middle after out' added') : Moves base s after (out + out') (added + added') where
  apart other different epoch := (second.apart other different epoch).trans (first.apart other different epoch)
  sums total held := by
    obtain ⟨total₁, held₁, balanced₁⟩ := first.sums total held
    obtain ⟨total₂, held₂, balanced₂⟩ := second.sums total₁ held₁
    exact ⟨total₂, held₂, by omega⟩

/-- A change of one day. -/
theorem Moves.day (epoch : Nat) {out added : Nat} (others : ∀ key, key ≠ base.on epoch → after.held key = s.held key)
    (here : after.held (base.on epoch) + out = s.held (base.on epoch) + added) : Moves base s after out added where
  apart other different epoch' := others _ (on_base different)
  sums total held := by
    obtain ⟨total', held', changed⟩ := @Totals.changed _ _ _ (fun epoch => after.held (base.on epoch)) _ held epoch
      fun other different => others _ (on_epoch different)
    exact ⟨total', held', by omega⟩

theorem roll_moves (named : ∀ key, s.latestStream base = some key → key = base.on (s.streams key).epoch) (key : Key) :
    Moves base s (s.roll base key).1 (s.roll base key).2 0 := by
  unfold Store.roll
  split
  · exact .refl base s
  · next previous latest =>
    split
    · exact .refl base s
    · have name := named previous latest
      dsimp only
      have emptied : Moves base s
          { s with streams := Function.update s.streams previous { s.streams previous with rem := 0 } }
          (s.streams previous).rem 0 := by
        refine .day (s.streams previous).epoch ?_ ?_
        · intro other different
          rw [← name] at different
          simp only [Store.held, Function.update_of_ne different]
        · rw [← name]
          simp only [Store.held, Function.update_self]
          omega
      have taken : Moves base
          { s with streams := Function.update s.streams previous { s.streams previous with rem := 0 } }
          { s with
            streams := Function.update s.streams previous { s.streams previous with rem := 0 }
            nextEpochRemainder := Function.update s.nextEpochRemainder (base.on ((s.streams previous).epoch + 1)) 0 }
          (s.nextEpochRemainder (base.on ((s.streams previous).epoch + 1))) 0 := by
        refine .day ((s.streams previous).epoch + 1) ?_ ?_
        · intro other different
          simp only [Store.held, Function.update_of_ne different]
        · simp only [Store.held, Function.update_self]
          omega
      exact emptied.trans taken

def Stream.admitted (st : Stream) (n : Nat) : Stream :=
  { st with rem := 0, generations := st.generations ++ [⟨n, st.counter⟩], supply := n }

/-- What remained waits for the next day. -/
theorem regenerate_moves (s : Store) (base : Base) (epoch n : Nat) : Moves base s (s.regenerate base epoch n) 0 0 := by
  unfold Store.regenerate
  dsimp only
  split
  · exact .refl base s
  · have opened : Moves base s (s.setStream (base.on epoch) ((s.streams (base.on epoch)).admitted n))
        (s.streams (base.on epoch)).rem 0 := by
      refine .day epoch ?_ ?_
      · intro other different
        simp only [Store.held, Store.setStream, Function.update_of_ne different]
      · simp only [Store.held, Store.setStream, Function.update_self, Stream.admitted]
        omega
    have carried : Moves base (s.setStream (base.on epoch) ((s.streams (base.on epoch)).admitted n))
        { s.setStream (base.on epoch) ((s.streams (base.on epoch)).admitted n) with
          nextEpochRemainder := Function.update s.nextEpochRemainder (base.on (epoch + 1))
            (s.nextEpochRemainder (base.on (epoch + 1)) + (s.streams (base.on epoch)).rem) }
        0 (s.streams (base.on epoch)).rem := by
      refine .day (epoch + 1) ?_ ?_
      · intro other different
        simp only [Store.held, Function.update_of_ne different]
        rfl
      · simp only [Store.held, Store.setStream, Function.update_self]
        omega
    have moved := opened.trans carried
    refine ⟨moved.apart, fun total held => ?_⟩
    obtain ⟨total', held', balanced⟩ := moved.sums total held
    exact ⟨total', held', by omega⟩

theorem accrue_moves (s : Store) (base : Base) {n np : Nat} (part : np ≤ n) (epoch minted amount rolled : Nat) :
    Moves base s (s.setStream (base.on epoch)
      ((s.streams (base.on epoch)).accrue (base.on epoch) n np minted (n - np) amount rolled)) 0
      (amount * precision + rolled) := by
  refine .day epoch ?_ ?_
  · intro other different
    simp only [Store.held, Store.setStream, Function.update_of_ne different]
  · simp only [Store.held, Store.setStream, Function.update_self, Stream.accrue]
    generalize numerator : amount * precision + (s.streams (base.on epoch)).rem + rolled = numerator'
    have whole : numerator' / n * (n - np) + numerator' / n * np = numerator' / n * n := by
      rw [← Nat.mul_add, Nat.sub_add_cancel part]
    have divided := Nat.div_add_mod' numerator' n
    omega

theorem credited_moves (conserved : Conserved s) (part : cards.protocolMinted ≤ cards.totalSupply) (epoch : Nat)
    (base : Base) (amount : Nat) : Moves base s (s.credited cards epoch base amount) 0 (amount * precision) := by
  have rolled := roll_moves (conserved.named base) (base.on epoch)
  unfold Store.credited
  dsimp only
  generalize s.roll base (base.on epoch) = roll at rolled
  have named : Moves base s { roll.1 with
      latestStream := Function.update roll.1.latestStream base (some (base.on epoch)) } roll.2 0 :=
    ⟨rolled.apart, rolled.sums⟩
  have moved := (named.trans (regenerate_moves _ base epoch cards.totalSupply)).trans
    (accrue_moves _ base part epoch cards.minted amount roll.2)
  refine ⟨moved.apart, fun total held => ?_⟩
  obtain ⟨total', held', balanced⟩ := moved.sums total held
  exact ⟨total', held', by omega⟩

/-- Before the sharing no stream's day or receipts change. -/
theorem rolled_same (s : Store) (base : Base) (key other : Key) :
    ((s.roll base key).1.streams other).received = (s.streams other).received ∧
      ((s.roll base key).1.streams other).epoch = (s.streams other).epoch ∧
      (s.roll base key).1.latestStream = s.latestStream := by
  have latest : (s.roll base key).1.latestStream = s.latestStream := by
    unfold Store.roll
    split
    · rfl
    · split <;> rfl
  rcases roll_streams s base key other with same | emptied
  · rw [same]
    exact ⟨rfl, rfl, latest⟩
  · rw [emptied]
    exact ⟨rfl, rfl, latest⟩

theorem regenerated_same (s : Store) (base : Base) (epoch n : Nat) (other : Key) :
    ((s.regenerate base epoch n).streams other).received = (s.streams other).received ∧
      ((s.regenerate base epoch n).streams other).epoch = (s.streams other).epoch ∧
      (s.regenerate base epoch n).latestStream = s.latestStream := by
  unfold Store.regenerate
  dsimp only
  split
  · exact ⟨rfl, rfl, rfl⟩
  · dsimp only
    by_cases same : other = base.on epoch
    · rw [same, Function.update_self]
      exact ⟨rfl, rfl, rfl⟩
    · rw [Function.update_of_ne same]
      exact ⟨rfl, rfl, rfl⟩

theorem credited_received (s : Store) (cards : Cards) (epoch : Nat) (base : Base) (amount : Nat) (key : Key) :
    ((s.credited cards epoch base amount).streams key).received =
      (s.streams key).received + if key = base.on epoch then amount else 0 := by
  have rolled := fun key => (rolled_same s base (base.on epoch) key).1
  unfold Store.credited
  dsimp only
  rw [Store.setStream]
  dsimp only
  by_cases same : key = base.on epoch
  · rw [same, Function.update_self, if_pos rfl]
    simp only [Stream.accrue]
    rw [(regenerated_same _ base epoch cards.totalSupply _).1, rolled]
  · rw [Function.update_of_ne same, if_neg same, (regenerated_same _ base epoch cards.totalSupply _).1, rolled,
      Nat.add_zero]

theorem credited_named (conserved : Conserved s) (cards : Cards) (epoch : Nat) (base : Base) (amount : Nat)
    (other : Base) (key : Key) (latest : (s.credited cards epoch base amount).latestStream other = some key) :
    key = other.on ((s.credited cards epoch base amount).streams key).epoch := by
  have rolled := fun key => (rolled_same s base (base.on epoch) key).2
  unfold Store.credited at latest ⊢
  dsimp only at latest ⊢
  simp only [Store.setStream] at latest ⊢
  rw [(regenerated_same _ base epoch cards.totalSupply (base.on epoch)).2.2] at latest
  dsimp only at latest
  by_cases same : other = base
  · subst same
    rw [Function.update_self] at latest
    obtain rfl := Option.some.inj latest
    rw [Function.update_self]
    rfl
  · rw [Function.update_of_ne same, (rolled key).2] at latest
    have name := conserved.named other key latest
    have different : key ≠ base.on epoch := by
      rw [name]
      exact on_base same
    rw [Function.update_of_ne different, (regenerated_same _ base epoch cards.totalSupply key).2.1]
    dsimp only
    rw [(rolled key).1]
    exact name

theorem credited_conserved (conserved : Conserved s) (part : cards.protocolMinted ≤ cards.totalSupply)
    (epoch : Nat) (base : Base) (amount : Nat) : Conserved (s.credited cards epoch base amount) := by
  have receives := credited_received s cards epoch base amount
  have named := credited_named conserved cards epoch base amount
  have moves := credited_moves conserved part epoch base amount
  refine ⟨named, fun other => ?_⟩
  obtain ⟨received, sums, held⟩ := conserved.whole other
  by_cases same : other = base
  · subst same
    obtain ⟨total, held', balanced⟩ := moves.sums _ held
    refine ⟨received + amount, ?_, ?_⟩
    · refine sums.moved epoch ?_ ?_
      · intro day different
        simp only [Store.received, receives, if_neg (on_epoch different), Nat.add_zero]
      · simp only [Store.received, receives, if_true]
        omega
    · rw [Nat.add_mul, ← balanced]
      exact held'
  · refine ⟨received, sums.of_eq (fun day => ?_) rfl, held.of_eq (fun day => moves.apart other same day) rfl⟩
    simp only [Store.received, receives, if_neg (on_base same), Nat.add_zero]

/-! Every run. -/

/-- A call of the cards or the rewards, or anything that goes on elsewhere. -/
inductive Move (W : Type) where
  | call (env : Env) (action : Action)
  | elsewhere (world : W)

def advance (c : Config) (b : Balance W) (x : Peers W) (s : State W) : Move W → Tx (State W)
  | .call env action => step c b x s env action
  | .elsewhere world => .ok { s with world := world }

def accepts (c : Config) (b : Balance W) (x : Peers W) (s : State W) (move : Move W) (after : State W) : Prop :=
  advance c b x s move = .ok after

structure Sound (s : State W) : Prop where
  dealt : Dealt s.cards
  accrued : ∀ key, Accrued s.cards (s.store.streams key)
  conserved : Conserved s.store

theorem start_sound (world : W) : Sound (start world) where
  dealt := empty_dealt
  accrued _ := blank_accrued _
  conserved := by
    refine ⟨fun base key latest => ?_, fun base => ⟨0, .zero, ?_⟩⟩
    · cases latest
    · rw [Nat.zero_mul]
      exact .zero

theorem Conserved.keeps (conserved : Conserved s) (keeps : Keeps s after) : Conserved after := by
  have same := fun key => by
    have same := keeps.streams key
    simp only [Stream.account, Prod.mk.injEq] at same
    exact same
  refine ⟨fun base key latest => ?_, fun base => ?_⟩
  · rw [(same key).1]
    exact conserved.named base key (keeps.latest ▸ latest)
  · obtain ⟨received, sums, held⟩ := conserved.whole base
    refine ⟨received, sums.of_eq (fun epoch => ?_) rfl, held.of_eq (fun epoch => ?_) rfl⟩
    · obtain ⟨_, _, _, _, _, received, _⟩ := same (base.on epoch)
      exact received
    · obtain ⟨_, _, rem, _, total, _, _, delegated, _⟩ := same (base.on epoch)
      rw [Store.held, Store.held, total, delegated, rem, keeps.carried]

theorem advance_sound {s after : State W} {move : Move W} (taken : accepts c b x s move after) (sound : Sound s) :
    Sound after := by
  cases move with
  | elsewhere world =>
    obtain rfl := Except.ok.inj taken
    exact ⟨sound.dealt, sound.accrued, sound.conserved⟩
  | call env action =>
    obtain ⟨⟨dealt, follows⟩, middle, keeps, ends⟩ := step_turn sound.dealt taken
    have accrued : ∀ key, Accrued after.cards (middle.streams key) :=
      fun key => ((sound.accrued key).of_account (keeps.streams key)).follows follows
    have conserved := sound.conserved.keeps keeps
    rcases ends with same | ⟨world, base, amount, credited⟩
    · rw [← same] at accrued conserved
      exact ⟨dealt, accrued, conserved⟩
    · obtain ⟨_, same | ⟨some', part, credits⟩⟩ := credit_ok credited
      · have same : after.store = middle := same
        rw [← same] at accrued conserved
        exact ⟨dealt, accrued, conserved⟩
      · refine ⟨dealt, fun key => ?_, ?_⟩
        · rw [credits]
          exact credited_accrued dealt some' part accrued _ base amount key
        · rw [credits]
          exact credited_conserved conserved part _ base amount

/-- What a card's credit is by replay: the credits it was counted in. -/
def Stream.replay (st : Stream) (counted : CreditEvent → Nat) (id : Nat) : Nat :=
  ((st.events.filter fun e => decide (id ≤ counted e)).map CreditEvent.quotient).sum

/-- Credit by the ids issued is credit by the cards that exist wherever no batch was under way; the cards
of others share the credit, and what was received is credit, delegated credit and what is carried. -/
structure Accounted (s : State W) : Prop where
  issued : ∀ key id, (s.store.streams key).credit27 id = .ok ((s.store.streams key).replay CreditEvent.supply id)
  existing : ∀ key id, (∀ e ∈ (s.store.streams key).events, e.minted = e.supply) →
    (s.store.streams key).credit27 id = .ok ((s.store.streams key).replay CreditEvent.minted id)
  shared : ∀ key, (s.cards.ordinary.map ((s.store.streams key).replay CreditEvent.supply)).sum =
    (s.store.streams key).totalCredit27
  conserved : ∀ base, ∃ received, Received s.store base received ∧ Held s.store base (received * precision)

theorem worthOf_events (events : List CreditEvent) (id : Nat) :
    worthOf (events.map CreditEvent.payment) (fun bound => decide (id ≤ bound)) =
      ((events.filter fun e => decide (id ≤ e.supply)).map CreditEvent.quotient).sum := by
  induction events with
  | nil => rfl
  | cons e rest ih =>
    rw [List.map_cons, worthOf_cons, ih]
    by_cases counted : id ≤ e.supply
    · simp [CreditEvent.payment, counted]
    · simp [CreditEvent.payment, counted]

theorem Accrued.credit27 {cards : Cards} (accrued : Accrued cards st) (id : Nat) :
    st.credit27 id = .ok (st.replay CreditEvent.supply id) := by
  have replayed := accrued.tracks.creditOf_eq id
  rw [worthOf_events] at replayed
  rw [Stream.credit27, Stream.replay, ← replayed, creditOf]
  cases found : admitting Generation.upperId st.generations id with
  | none => rfl
  | some generation =>
    have member : generation ∈ st.generations := List.mem_of_getElem? found
    have enough := accrued.tracks.start_le member
    exact (sub_ok _ _ _).mpr ⟨enough, rfl⟩

/-- The others' cards share what was not delegated. -/
theorem Accrued.ordinary {cards : Cards} (accrued : Accrued cards st) :
    (cards.ordinary.map (st.replay CreditEvent.supply)).sum = st.totalCredit27 := by
  have replay : st.replay CreditEvent.supply = fun id =>
      worthOf (st.events.map CreditEvent.payment) fun bound => decide (id ≤ bound) :=
    funext fun id => (worthOf_events st.events id).symm
  rw [replay, sum_worthOf, accrued.total, List.map_map]
  congr 1
  apply List.map_congr_left
  intro e member
  obtain ⟨within, part, count⟩ := accrued.shared e member
  have others : cards.ordinary.countP (fun id => decide (id ≤ e.payment.bound)) = e.supply - e.protocol := by
    have split : (List.range' 1 e.supply).length = (List.range' 1 e.supply).countP cards.protocolCard +
      (List.range' 1 e.supply).countP fun id => !cards.protocolCard id := by
      rw [List.length_eq_countP_add_countP cards.protocolCard]
      congr 2
      funext id
      simp
    have first := countP_within cards.totalSupply e.payment.bound (fun id => !cards.protocolCard id) within
    rw [List.length_range', count] at split
    rw [Cards.ordinary, List.countP_filter, Cards.ids, first]
    show (List.range' 1 e.supply).countP _ = _
    omega
  show e.quotient * _ = _
  rw [others]

theorem Sound.accounted {s : State W} (sound : Sound s) : Accounted s where
  issued key id := (sound.accrued key).credit27 id
  existing key id outside := by
    rw [(sound.accrued key).credit27 id]
    congr 1
    rw [Stream.replay, Stream.replay]
    congr 2
    apply List.filter_congr
    intro e member
    rw [outside e member]
  shared key := (sound.accrued key).ordinary
  conserved := sound.conserved.whole

/-- Every run of the cards and the rewards. -/
theorem desk_accounted (c : Config) (b : Balance W) (x : Peers W) (world : W) (s : State W)
    (reached : Reachable (accepts c b x) (start world) s) : Accounted s := by
  refine (reached.invariant (start_sound world) ?_).accounted
  intro before move after sound taken
  exact advance_sound taken sound

/-! A receiver that sends coin while its batch is minted. -/

def sample : Config where
  self := 1
  ledger := 2
  nft := 3
  solon := 4
  cards := ⟨5, 10⟩
  royalty := 100
  surcharge := 101

/-- A world of the desk's native coin, in which nothing else goes through. -/
def coin : Peers Nat where
  poolInfo := fun _ _ => ⟨0, 0, 0⟩
  accrued := fun _ _ => 0
  claim := fun _ _ _ => .error (.revert .peer)
  paidTotal := fun _ _ => 0
  stageCredit := fun _ _ _ => .error (.revert .peer)
  claimFor := fun _ _ => .error (.revert .peer)
  entry := fun _ _ => (0, 0)
  queueAsset := fun _ _ => 0
  delivered := fun _ _ => 0
  registerSource := fun _ _ _ => .error (.revert .peer)
  fundEntry := fun _ _ _ => .error (.revert .peer)
  notifyProtocolDeskCredit := fun _ _ _ _ _ _ => .error (.revert .peer)
  fundProtocolDesk := fun _ _ _ _ _ _ => .error (.revert .peer)
  canReceiveStock := fun _ _ _ => false
  transfer := fun _ _ _ _ => .error (.revert .peer)
  transferFrom := fun _ _ _ _ => .error (.revert .peer)
  arrive := fun world _ value => .ok (world + value)

def purse : Balance Nat := fun world asset holder => if asset = 0 ∧ holder = 1 then world else 0

def sent (sender value : Nat) (action : Action) : Move Nat :=
  .call ⟨sender, 10 ^ 6, value, fun _ => false, fun _ => true, true, 0⟩ action

/-- Three cards; the second batch's receiver sends thirty units when it has the first of its two. -/
def batched : List (Move Nat) :=
  [sent 7 10 (.mint 1 7), sent 7 0 .mintDone, sent 8 20 (.mint 2 8), sent 8 30 .receive, sent 8 0 .mintNext,
    sent 8 0 .mintDone]

/-- The stream of the coin sent. -/
def sentKey : Key := ⟨100, 11, 0, 0⟩

theorem desk_accounted_batched : ∃ s, Reachable (accepts sample purse coin) (start 0) s ∧
    s.cards.ordinary = [1, 2, 3] ∧ (s.store.streams sentKey).totalCredit27 = 30 * precision ∧ Accounted s := by
  obtain ⟨s, reached, passed⟩ := run_passes (advance sample purse coin) (fun _ _ => True) batched (start 0)
    (fun s => decide (s.cards.ordinary = [1, 2, 3] ∧ (s.store.streams sentKey).totalCredit27 = 30 * precision))
    (by decide)
  obtain ⟨ordinary, total⟩ := of_decide_eq_true passed
  exact ⟨s, reached.unrestricted, ordinary, total,
    desk_accounted sample purse coin 0 s reached.unrestricted⟩

/-- The third card has credit of coin that came before it existed. -/
theorem credit_before_card : ∃ s, Reachable (accepts sample purse coin) (start 0) s ∧ s.cards.ownerOf 3 = 8 ∧
    (s.store.streams sentKey).credit27 3 = .ok (10 * precision) ∧
    (s.store.streams sentKey).replay CreditEvent.minted 3 = 0 := by
  obtain ⟨s, reached, passed⟩ := run_passes (advance sample purse coin) (fun _ _ => True) batched (start 0)
    (fun s => decide (s.cards.ownerOf 3 = 8 ∧ (s.store.streams sentKey).credit27 3 = .ok (10 * precision) ∧
      (s.store.streams sentKey).replay CreditEvent.minted 3 = 0)) (by decide)
  exact ⟨s, reached.unrestricted, of_decide_eq_true passed⟩

end Solonpad.Desk
