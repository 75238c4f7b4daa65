import Solonpad.LargestRemainder
import Solonpad.RoundLedger
import Mathlib.Data.Prod.Lex

/-!
The split of what a round delivered. Every slice gets the floor of its share, and each pass of the bonus
loop one unit to the unawarded slice with the largest remainder, the smallest entry first. The keys of the
awarded are the largest of all keys, so what an entry gets does not depend on the order of the slices.
-/

namespace Solonpad.Rounds

open Checked LargestRemainder

/-! The order of candidates. -/

/-- A larger remainder first, then a smaller entry. -/
def Part.key (part : Part) : ℕ ×ₗ ℕᵒᵈ := toLex (part.remainder, OrderDual.toDual part.entryId)

theorem Part.key_lt (part other : Part) : other.key < part.key ↔
    other.remainder < part.remainder ∨ part.remainder = other.remainder ∧ part.entryId < other.entryId := by
  unfold Part.key
  rw [Prod.Lex.toLex_lt_toLex]
  simp only [OrderDual.toDual_lt_toDual, eq_comm]

@[simp]
theorem best_nil (start : Nat) (found : Option (Nat × Part)) : best start found [] = found := by
  unfold best
  rfl

/-- The search takes a part up where it is unawarded and ahead of what was found. -/
theorem best_cons (start : Nat) (found : Option (Nat × Part)) (part : Part) (rest : List Part) :
    best start found (part :: rest) = best (start + 1)
      (if part.awarded = false ∧ (∀ other, found = some other → other.2.key < part.key) then some (start, part)
        else found) rest := by
  rw [best.eq_def]
  cases found with
  | none => simp
  | some other => simp [Part.key_lt]

/-- What the search finds: at the position given it is unawarded, or it was found before; and no unawarded
part is ahead of it. -/
theorem best_some (parts : List Part) {start i : Nat} {found : Option (Nat × Part)} {part : Part}
    (chosen : best start found parts = some (i, part)) :
    (found = some (i, part) ∨ ∃ n, i = start + n ∧ parts[n]? = some part ∧ part.awarded = false) ∧
      (∀ other ∈ parts, other.awarded = false → other.key ≤ part.key) ∧
      ∀ other, found = some other → other.2.key ≤ part.key := by
  induction parts generalizing start found with
  | nil =>
    rw [best_nil] at chosen
    refine ⟨Or.inl chosen, fun _ member => absurd member List.not_mem_nil, fun other earlier => ?_⟩
    rw [chosen] at earlier
    cases earlier
    exact le_refl _
  | cons head rest ih =>
    rw [best_cons] at chosen
    obtain ⟨where_, later, kept⟩ := ih chosen
    split at where_
    · next taken =>
      rw [if_pos taken] at kept
      refine ⟨Or.inr ?_, ?_, ?_⟩
      · rcases where_ with same | ⟨n, rfl, found, free⟩
        · cases same
          exact ⟨0, rfl, rfl, taken.1⟩
        · exact ⟨n + 1, by omega, found, free⟩
      · rintro other (_ | ⟨_, member⟩) free
        · exact kept (start, head) rfl
        · exact later other member free
      · -- the head is ahead of what was found before, so what is chosen in the end is too
        rintro other rfl
        exact le_trans (le_of_lt (taken.2 other rfl)) (kept (start, head) rfl)
    · next passed =>
      rw [if_neg passed] at kept
      refine ⟨?_, ?_, kept⟩
      · rcases where_ with same | ⟨n, rfl, found, free⟩
        · exact Or.inl same
        · exact Or.inr ⟨n + 1, by omega, found, free⟩
      · rintro other (_ | ⟨_, member⟩) free
        · -- an unawarded head is passed over only for one found before that it is not ahead of
          have behind : ∃ before, found = some before ∧ ¬ before.2.key < head.key := by
            by_contra none_
            push Not at none_
            exact passed ⟨free, none_⟩
          obtain ⟨before, earlier, least⟩ := behind
          exact le_trans (not_lt.mp least) (kept before earlier)
        · exact later other member free

/-- The search fails only where every part is awarded. -/
theorem best_none (parts : List Part) {start : Nat} {found : Option (Nat × Part)}
    (none_ : best start found parts = none) : found = none ∧ ∀ part ∈ parts, part.awarded = true := by
  induction parts generalizing start found with
  | nil =>
    rw [best_nil] at none_
    exact ⟨none_, fun _ member => absurd member List.not_mem_nil⟩
  | cons head rest ih =>
    rw [best_cons] at none_
    obtain ⟨where_, later⟩ := ih none_
    split at where_
    · cases where_
    · next passed =>
      subst where_
      refine ⟨rfl, ?_⟩
      rintro part (_ | ⟨_, member⟩)
      · by_contra free
        exact passed ⟨by simpa using free, fun _ same => by cases same⟩
      · exact later part member

/-! The bonus loop. -/

/-- A part once it may have got its unit. -/
structure Follows (first now : Part) : Prop where
  entryId : now.entryId = first.entryId
  remainder : now.remainder = first.remainder
  amount : now.amount = first.amount + if now.awarded then 1 else 0

/-- What so many passes of the loop leave. -/
structure Awarded (first now : List Part) (k : Nat) : Prop where
  each : List.Forall₂ Follows first now
  count : now.countP Part.awarded = k
  above : ∀ part ∈ now, part.awarded = true → ∀ other ∈ now, other.awarded = false → other.key ≤ part.key

theorem forall₂_set {α β : Type*} {related : α → β → Prop} {first : List α} {now : List β}
    (each : List.Forall₂ related first now) (i : Nat) (value : β)
    (kept : ∀ a b, now[i]? = some b → related a b → related a value) :
    List.Forall₂ related first (now.set i value) := by
  induction each generalizing i with
  | nil => exact .nil
  | cons head rest ih =>
    cases i with
    | zero => exact .cons (kept _ _ rfl head) rest
    | succ i => exact .cons head (ih i kept)

theorem countP_set {α : Type*} {counted : α → Bool} {items : List α} {i : Nat} {value next : α}
    (found : items[i]? = some value) (free : counted value = false) (taken : counted next = true) :
    (items.set i next).countP counted = items.countP counted + 1 := by
  induction items generalizing i with
  | nil => cases found
  | cons head rest ih =>
    cases i with
    | zero =>
      cases found
      rw [List.set_cons_zero, List.countP_cons_of_pos taken, List.countP_cons_of_neg (by simp [free])]
    | succ i =>
      have step := ih found
      rw [List.set_cons_succ, List.countP_cons, List.countP_cons, step]
      omega

variable {first now : List Part} {k : Nat}

/-- One pass awards one unit to the greatest of those left. -/
theorem Awarded.pass {i : Nat} {part : Part} (awarded : Awarded first now k)
    (chosen : best 0 none now = some (i, part)) :
    Awarded first (now.set i { part with amount := part.amount + 1, awarded := true }) (k + 1) := by
  obtain ⟨where_, greatest, _⟩ := best_some now chosen
  obtain ⟨n, rfl, found, free⟩ := where_.resolve_left (fun same => by cases same)
  rw [Nat.zero_add]
  constructor
  · refine forall₂_set awarded.each n _ ?_
    rintro before now' same ⟨entryId, remainder, amount⟩
    rw [found] at same
    cases same
    rw [free] at amount
    exact ⟨entryId, remainder, by rw [amount]; rfl⟩
  · rw [countP_set found free rfl, awarded.count]
  · intro winner member won other inside free'
    have before : other ∈ now := by
      rcases List.mem_or_eq_of_mem_set inside with old | rfl
      · exact old
      · cases free'
    rcases List.mem_or_eq_of_mem_set member with old | rfl
    · exact awarded.above winner old won other before free'
    · exact greatest other before free'

/-- As long as there are candidates the loop goes through. -/
theorem Awarded.run (awarded : Awarded first now k) (n : Nat) (enough : k + n ≤ now.length) :
    ∃ after, award n now = .ok after ∧ Awarded first after (k + n) := by
  induction n generalizing now k with
  | zero => exact ⟨now, rfl, awarded⟩
  | succ n ih =>
    cases chosen : best 0 none now with
    | none =>
      have all := List.countP_eq_length.mpr (best_none now chosen).2
      rw [awarded.count] at all
      omega
    | some winner =>
      obtain ⟨i, part⟩ := winner
      obtain ⟨after, done, final⟩ := ih (awarded.pass chosen) (by rw [List.length_set]; omega)
      refine ⟨after, ?_, ?_⟩
      · rw [award, chosen]
        exact done
      · rwa [Nat.add_right_comm] at final

/-! What the parts sum to. -/

/-- What an entry gets over all parts. -/
def gets (parts : List Part) (e : EntryId) : Nat :=
  (parts.map fun part => if part.entryId = e then part.amount else 0).sum

section Sums

variable {first now : List Part}

theorem follows_sum (each : List.Forall₂ Follows first now) :
    (now.map Part.amount).sum = (first.map Part.amount).sum + now.countP Part.awarded := by
  induction each with
  | nil => rfl
  | cons head rest ih =>
    rw [List.map_cons, List.map_cons, List.sum_cons, List.sum_cons, List.countP_cons, ih, head.amount]
    omega

theorem follows_gets (each : List.Forall₂ Follows first now) (e : EntryId) :
    gets now e = gets first e + (now.filter Part.awarded).countP (fun part => part.entryId = e) := by
  induction each with
  | nil => rfl
  | @cons before part _ _ head rest ih =>
    unfold gets at ih ⊢
    rw [List.map_cons, List.map_cons, List.sum_cons, List.sum_cons, ih, head.amount, head.entryId]
    have same := head.entryId
    cases won : part.awarded with
    | false =>
      rw [List.filter_cons_of_neg (by simp [won])]
      by_cases own : before.entryId = e
      · simp only [if_pos own, Bool.false_eq_true, if_false]
        omega
      · simp only [if_neg own]
        omega
    | true =>
      rw [List.filter_cons_of_pos (by simp [won]), List.countP_cons, same]
      by_cases own : before.entryId = e
      · simp only [if_pos own, if_true, decide_eq_true own]
        omega
      · simp only [if_neg own, decide_eq_false own, Bool.false_eq_true, if_false]
        omega

theorem follows_keys (each : List.Forall₂ Follows first now) : now.map Part.key = first.map Part.key := by
  induction each with
  | nil => rfl
  | cons head rest ih =>
    rw [List.map_cons, List.map_cons, ih]
    unfold Part.key
    rw [head.remainder, head.entryId]

end Sums

/-! The awarded are determined by the keys. -/

/-- The keys of the parts that got a unit, and of those that did not. -/
def won (parts : List Part) : Multiset (ℕ ×ₗ ℕᵒᵈ) := (parts.filter Part.awarded).map Part.key
def lost (parts : List Part) : Multiset (ℕ ×ₗ ℕᵒᵈ) := (parts.filter (!·.awarded)).map Part.key

theorem won_lost (parts : List Part) : won parts + lost parts = (parts.map Part.key : Multiset _) := by
  unfold won lost
  rw [Multiset.coe_add, Multiset.coe_eq_coe, ← List.map_append]
  exact (List.filter_append_perm _ _).map _

variable {first now first' : List Part} {k : Nat} {now' : List Part}

theorem Awarded.above_lost (awarded : Awarded first now k) : ∀ a ∈ won now, ∀ b ∈ lost now, b ≤ a := by
  unfold won lost
  simp only [Multiset.mem_coe, List.mem_map, List.mem_filter, Bool.not_eq_true']
  rintro _ ⟨part, ⟨inside, taken⟩, rfl⟩ _ ⟨other, ⟨member, free⟩, rfl⟩
  exact awarded.above part inside taken other member free

/-- Loops of the same length over the same candidates, listed in any order, award the same keys. -/
theorem Awarded.same_won (awarded : Awarded first now k) (other : Awarded first' now' k)
    (listed : first.Perm first') : won now = won now' := by
  refine chosen_unique ?_ ?_ awarded.above_lost other.above_lost
  · rw [won_lost, won_lost, follows_keys awarded.each, follows_keys other.each, Multiset.coe_eq_coe]
    exact listed.map _
  · unfold won
    rw [Multiset.coe_card, Multiset.coe_card, List.length_map, List.length_map, ← List.countP_eq_length_filter,
      ← List.countP_eq_length_filter, awarded.count, other.count]

theorem countP_won (parts : List Part) (e : EntryId) :
    (parts.filter Part.awarded).countP (fun part => part.entryId = e) =
      (won parts).countP (fun key => (ofLex key).2 = OrderDual.toDual e) := by
  unfold won
  rw [Multiset.coe_countP, List.countP_map]
  rfl

theorem Awarded.same_gets (awarded : Awarded first now k) (other : Awarded first' now' k) (listed : first.Perm first')
    (e : EntryId) : gets now e = gets now' e := by
  rw [follows_gets awarded.each, follows_gets other.each, countP_won, countP_won,
    awarded.same_won other listed]
  exact congrArg (· + _) (listed.map _).sum_eq

/-! The allocation of a round. -/

variable {W : Type}

/-- The slices of a round make up a positive total, which is its budget. -/
structure Whole (s : State W) (id : RoundId) : Prop where
  total : (s.store.rounds id).budget18 = ((s.store.slices id).map Slice.budget18).sum
  positive : 0 < ((s.store.slices id).map Slice.budget18).sum

/-- The parts of the slices: the floor of each share, or one more for those with the largest remainders. -/
structure Apportioned (raw : Nat) (slices : List Slice) (parts : List Part) : Prop where
  each : List.Forall₂ (fun slice part => part.entryId = slice.entryId ∧
    part.remainder = raw * slice.budget18 % (slices.map Slice.budget18).sum ∧
    part.amount = raw * slice.budget18 / (slices.map Slice.budget18).sum + if part.awarded then 1 else 0)
    slices parts
  sum : (parts.map Part.amount).sum = raw
  largest : ∀ part ∈ parts, part.awarded = true → ∀ other ∈ parts, other.awarded = false →
    other.remainder < part.remainder ∨ part.remainder = other.remainder ∧ part.entryId ≤ other.entryId

theorem floors_awarded (raw total : Nat) (slices : List Slice) :
    Awarded (floors raw total slices) (floors raw total slices) 0 := by
  constructor
  · rw [List.forall₂_same]
    intro part inside
    obtain ⟨slice, _, rfl⟩ := List.mem_map.mp inside
    exact ⟨rfl, rfl, rfl⟩
  · rw [List.countP_eq_zero]
    intro part inside
    obtain ⟨slice, _, rfl⟩ := List.mem_map.mp inside
    exact Bool.false_ne_true
  · intro part inside taken
    obtain ⟨slice, _, rfl⟩ := List.mem_map.mp inside
    cases taken

theorem floors_amounts (raw total : Nat) (slices : List Slice) :
    (floors raw total slices).map Part.amount =
      (slices.map Slice.budget18).map fun budget => raw * budget / total := by
  unfold floors
  rw [List.map_map, List.map_map]
  rfl

theorem Part.key_le (part other : Part) : other.key ≤ part.key ↔
    other.remainder < part.remainder ∨ part.remainder = other.remainder ∧ part.entryId ≤ other.entryId := by
  unfold Part.key
  rw [Prod.Lex.toLex_le_toLex]
  simp only [OrderDual.toDual_le_toDual, eq_comm]

/-- The units that the floors of a round leave. -/
def units (raw : Nat) (slices : List Slice) : Nat :=
  raw - ((floors raw (slices.map Slice.budget18).sum slices).map Part.amount).sum

theorem Awarded.apportioned {raw : Nat} {slices : List Slice} {parts : List Part}
    (positive : 0 < (slices.map Slice.budget18).sum)
    (awarded : Awarded (floors raw (slices.map Slice.budget18).sum slices) parts (units raw slices)) :
    Apportioned raw slices parts := by
  constructor
  · have each := awarded.each
    rw [floors, List.forall₂_map_left_iff] at each
    exact each.imp (fun _ _ follows => ⟨follows.entryId, follows.remainder, follows.amount⟩)
  · have covered := floors_le raw positive
    have sum := follows_sum awarded.each
    rw [awarded.count, units] at sum
    rw [floors_amounts] at sum
    omega
  · intro part inside taken other member free
    exact (part.key_le other).mp (awarded.above part inside taken other member free)

/-- The bonus loop of a round goes through, and its parts are recorded. -/
theorem allocate_runs (x : Peers W) {s : State W} {id : RoundId} (raw : Nat) (whole : Whole s id) :
    ∃ parts, allocate x s id raw = recordParts x parts s ∧
      Awarded (floors raw ((s.store.slices id).map Slice.budget18).sum (s.store.slices id)) parts
        (units raw (s.store.slices id)) := by
  have covered := floors_le raw whole.positive
  have fewer := left_lt raw whole.positive
  rw [← floors_amounts] at covered fewer
  obtain ⟨parts, done, awarded⟩ := (floors_awarded raw ((s.store.slices id).map Slice.budget18).sum
    (s.store.slices id)).run (units raw (s.store.slices id)) (by
      rw [Nat.zero_add, floors, List.length_map]
      rw [List.length_map] at fewer
      exact Nat.le_of_lt fewer)
  rw [Nat.zero_add] at awarded
  refine ⟨parts, ?_, awarded⟩
  have left := (sub_ok (ε := RoundError) _ _ (units raw (s.store.slices id))).mpr ⟨covered, rfl⟩
  simp only [allocate, whole.total, left, bind, Except.bind]
  rw [done]

/-- What a record of parts adds to what each entry was delivered. -/
theorem recordParts_delivered (x : Peers W) {parts : List Part} {s after : State W}
    (done : recordParts x parts s = .ok after) (e : EntryId) :
    after.store.delivered e = s.store.delivered e + gets parts e := by
  induction parts generalizing s with
  | nil =>
    cases done
    rfl
  | cons part rest ih =>
    rw [recordParts, bind_ok] at done
    obtain ⟨world, _, done⟩ := done
    rw [ih done]
    unfold gets
    rw [List.map_cons, List.sum_cons]
    by_cases own : part.entryId = e
    · subst own
      simp only [Function.update_self, if_true]
      omega
    · simp only [Function.update_of_ne (Ne.symm own), if_neg own, Nat.zero_add]

/-- In a run every round with slices has their total as its budget. -/
theorem run_whole {c : Config} {b : Balances W} {s : State W} (run : Run c b s) {id : RoundId}
    (some_ : s.store.slices id ≠ []) : Whole s id := by
  obtain ⟨booked, _⟩ := run_sound run
  refine ⟨booked.budget id, ?_⟩
  obtain ⟨slice, rest, listed⟩ := List.exists_cons_of_ne_nil some_
  have positive := booked.positive id slice (by rw [listed]; exact List.mem_cons_self ..)
  rw [listed, List.map_cons, List.sum_cons]
  omega

end Solonpad.Rounds
