import Solonpad.PlatformRouter

/-!
The platform router's accounts. What it owes in a token is what its unfinished lots still wait with,
and it holds that; the half that goes to stock is half of all amounts, whatever the lots, because the
odd unit is carried to the next one; and a lot's slices are told apart by their count.
-/

namespace Solonpad.PlatformRouter

open Checked LockedCalls RunningTotal Transition
open Chain (Address)

def Status.unfinished : Status → Bool
  | .funded | .routed | .converting => true
  | .none | .done => false

/-- What a lot still waits with in a token. -/
def waiting (b : Book) (token : Address) (id : Nat) : Nat :=
  if (b.state id).unfinished = true ∧ (b.pending id).token = token then (b.pending id).raw else 0

structure Accounted (b : Book) : Prop where
  liability : ∀ token, Totals (waiting b token) (b.rawLiability token)
  backed : ∀ token, b.rawLiability token ≤ b.held token
  half : ∀ asset, b.stock asset = (b.halved asset).sum / 2
  once : b.conversions.Nodup

/-- A conversion is below its lot's count. -/
def Counted (b : Book) : ConversionId → Prop
  | .lot id => b.conversionCount id ≠ 0
  | .slice id count => count < b.conversionCount id

/-- The odd unit is what the halves do not show. -/
structure Carried (b : Book) (asset : Address) : Prop where
  exact_ : 2 * b.stock asset + b.halfRemainder asset = (b.halved asset).sum
  odd : b.halfRemainder asset ≤ 1

structure Sound (b : Book) : Prop where
  liability : ∀ token, Totals (waiting b token) (b.rawLiability token)
  backed : ∀ token, b.rawLiability token ≤ b.held token
  carried : ∀ asset, Carried b asset
  once : b.conversions.Nodup
  counted : ∀ id ∈ b.conversions, Counted b id

structure During (b : Book) (f : Conversion) : Prop where
  converting : b.state f.id = .converting
  part : f.raw ≤ (b.pending f.id).raw
  backed : b.rawLiability (b.pending f.id).token ≤ f.beforeRaw

variable {b after : Book}

theorem Sound.accounted (sound : Sound b) : Accounted b where
  liability := sound.liability
  backed := sound.backed
  half asset := by
    have carried := sound.carried asset
    have exact_ := carried.exact_
    have odd := carried.odd
    omega
  once := sound.once

theorem deployed_sound (balance : Nat) (held : Address → Nat) : Sound (deployed balance held) where
  liability token := by
    refine Totals.zero.of_eq (fun id => ?_) rfl
    simp [waiting, deployed, Status.unfinished]
  backed _ := Nat.zero_le _
  carried _ := ⟨rfl, Nat.zero_le _⟩
  once := .nil
  counted _ member := by cases member

/-- The books of a step that leaves lots and slices alone. -/
structure Same (b after : Book) : Prop where
  state : after.state = b.state
  pending : after.pending = b.pending
  liability : after.rawLiability = b.rawLiability
  remainder : after.halfRemainder = b.halfRemainder
  halved : after.halved = b.halved
  stock : after.stock = b.stock
  conversions : after.conversions = b.conversions
  counts : after.conversionCount = b.conversionCount
  held : ∀ token, b.held token ≤ after.held token

theorem Sound.kept (sound : Sound b) (same : Same b after) : Sound after ∧ ∀ f, During b f → During after f := by
  refine ⟨⟨?_, ?_, ?_, same.conversions ▸ sound.once, ?_⟩, ?_⟩
  · intro token
    refine (sound.liability token).of_eq (fun id => ?_) (by rw [same.liability])
    rw [waiting, waiting, same.state, same.pending]
  · intro token
    rw [same.liability]
    exact (sound.backed token).trans (same.held token)
  · intro asset
    obtain ⟨exact_, odd⟩ := sound.carried asset
    exact ⟨by rw [same.stock, same.remainder, same.halved]; exact exact_, by rw [same.remainder]; exact odd⟩
  · intro id member
    have counted := sound.counted id (same.conversions ▸ member)
    cases id with
    | lot id => rwa [Counted, same.counts]
    | slice id count => rwa [Counted, same.counts]
  · intro f during
    exact ⟨by rw [same.state]; exact during.converting, by rw [same.pending]; exact during.part,
      by rw [same.liability, same.pending]; exact during.backed⟩

theorem free_sound {c : Config} {call : Free} (taken : free c b call = .ok after) (sound : Sound b) :
    Sound after ∧ ∀ f, During b f → During after f := by
  cases call with
  | receive sender value =>
    simp only [free, receive, bind_ok, require_ok, pure_ok] at taken
    obtain ⟨_, _, rfl⟩ := taken
    exact sound.kept ⟨rfl, rfl, rfl, rfl, rfl, rfl, rfl, rfl, fun _ => Nat.le_refl _⟩
  | setConverter sender converter hasCode =>
    simp only [free, setConverter, bind_ok, require_ok, pure_ok] at taken
    obtain ⟨_, _, rfl⟩ := taken
    exact sound.kept ⟨rfl, rfl, rfl, rfl, rfl, rfl, rfl, rfl, fun _ => Nat.le_refl _⟩
  | scheduleAssetConverter sender now token converter bound =>
    simp only [free, scheduleAssetConverter, checkConverter, bind_ok, require_ok, pure_ok] at taken
    obtain ⟨_, _, _, _, rfl⟩ := taken
    exact sound.kept ⟨rfl, rfl, rfl, rfl, rfl, rfl, rfl, rfl, fun _ => Nat.le_refl _⟩
  | activateAssetConverter now token converter bound =>
    simp only [free, activateAssetConverter, checkConverter, bind_ok, require_ok, pure_ok] at taken
    obtain ⟨_, _, _, _, rfl⟩ := taken
    exact sound.kept ⟨rfl, rfl, rfl, rfl, rfl, rfl, rfl, rfl, fun _ => Nat.le_refl _⟩
  | forced value =>
    cases taken
    exact sound.kept ⟨rfl, rfl, rfl, rfl, rfl, rfl, rfl, rfl, fun _ => Nat.le_refl _⟩
  | donated token amount =>
    cases taken
    refine sound.kept ⟨rfl, rfl, rfl, rfl, rfl, rfl, rfl, rfl, fun other => ?_⟩
    by_cases same : other = token
    · subst same
      simp
    · simp [Function.update_of_ne same]

/-! The half for stock. -/

theorem stockHalf_carried (asset other : Address) (amount : Nat) (carried : Carried b other) :
    Carried (stockHalf b asset amount) other := by
  obtain ⟨exact_, odd⟩ := carried
  by_cases same : other = asset
  · subst same
    constructor
    · simp only [stockHalf, stockShare, Function.update_self, List.sum_append, List.sum_singleton]
      omega
    · simp only [stockHalf, Function.update_self]
      omega
  · exact ⟨by simpa only [stockHalf, Function.update_of_ne same] using exact_,
      by simpa only [stockHalf, Function.update_of_ne same] using odd⟩

theorem stockHalf_sound (sound : Sound b) (asset : Address) (amount : Nat) :
    Sound (stockHalf b asset amount) where
  liability := sound.liability
  backed := sound.backed
  carried other := stockHalf_carried asset other amount (sound.carried other)
  once := sound.once
  counted := sound.counted

/-! Lots. -/

/-- A step on one lot moves each token's liability by what the lot waits with. -/
theorem Sound.lot_moved (sound : Sound b) (id : Nat)
    (state : ∀ other, other ≠ id → after.state other = b.state other ∧ after.pending other = b.pending other)
    (moved : ∀ token, after.rawLiability token + waiting b token id = b.rawLiability token + waiting after token id)
    (token : Address) : Totals (waiting after token) (after.rawLiability token) := by
  refine (sound.liability token).moved id ?_ (moved token)
  intro other apart
  obtain ⟨same, sameToo⟩ := state other apart
  rw [waiting, waiting, same, sameToo]

theorem waiting_le (sound : Sound b) (token : Address) (id : Nat) : waiting b token id ≤ b.rawLiability token :=
  (sound.liability token).entry_le id

theorem nativePolicy_sound {kind amount : Nat} {accepted : Bool}
    (taken : nativePolicy b kind amount accepted = .ok after) (sound : Sound b) : Sound after := by
  simp only [nativePolicy, bind_ok, require_ok, pure_ok, sub_ok] at taken
  obtain ⟨_, _, _, ⟨_, rfl⟩, rfl⟩ := taken
  by_cases first : kind = 1
  · simp only [if_pos first]
    refine ((stockHalf_sound sound 0 amount).kept ?_).1
    exact ⟨rfl, rfl, rfl, rfl, rfl, rfl, rfl, rfl, fun _ => Nat.le_refl _⟩
  · simp only [if_neg first]
    refine (sound.kept ?_).1
    exact ⟨rfl, rfl, rfl, rfl, rfl, rfl, rfl, rfl, fun _ => Nat.le_refl _⟩

theorem onFunded_sound {c : Config} {sender token : Address} {id kind amount value : Nat} {accepted : Bool}
    (taken : onFunded c b sender id kind token amount value accepted = .ok after) (sound : Sound b) : Sound after := by
  simp only [onFunded, bind_ok, require_ok, ite_ok, pure_ok] at taken
  obtain ⟨_, ⟨_, fresh, _⟩, taken⟩ := taken
  have nothing : ∀ asset, waiting b asset id = 0 := fun asset => by
    rw [waiting, fresh]
    rfl
  rcases taken with ⟨_, _, _, taken⟩ | ⟨_, _, _, _, covered, rfl⟩
  · refine nativePolicy_sound taken ⟨?_, sound.backed, ?_, sound.once, ?_⟩
    · refine sound.lot_moved id (fun other apart => ⟨Function.update_of_ne apart .., rfl⟩) ?_
      intro asset
      rw [nothing asset]
      simp [waiting, Status.unfinished]
    · exact fun asset => ⟨(sound.carried asset).exact_, (sound.carried asset).odd⟩
    · intro conversion member
      have counted := sound.counted conversion member
      cases conversion <;> exact counted
  · refine ⟨?_, ?_, ?_, sound.once, ?_⟩
    · refine sound.lot_moved id (fun other apart =>
        ⟨Function.update_of_ne apart .., Function.update_of_ne apart ..⟩) ?_
      intro asset
      rw [nothing asset]
      by_cases same : asset = token
      · subst same
        simp [waiting, Status.unfinished]
      · simp [waiting, Status.unfinished, Function.update_of_ne same, Ne.symm same]
    · intro asset
      by_cases same : asset = token
      · subst same
        simpa using covered
      · simpa only [Function.update_of_ne same] using sound.backed asset
    · exact fun asset => ⟨(sound.carried asset).exact_, (sound.carried asset).odd⟩
    · intro conversion member
      have counted := sound.counted conversion member
      cases conversion <;> exact counted

theorem routeLot_sound {id : Nat} {burned : Burn} (taken : routeLot b id burned = .ok after)
    (sound : Sound b) : Sound after := by
  simp only [routeLot, bind_ok, require_ok, ite_ok, pure_ok, sub_ok] at taken
  obtain ⟨_, funded, taken⟩ := taken
  have waits : ∀ token, waiting b token id =
      if (b.pending id).token = token then (b.pending id).raw else 0 := fun token => by
    simp [waiting, funded, Status.unfinished]
  rcases taken with ⟨_, burn, ⟨part, rfl⟩, liability, ⟨owed, rfl⟩, expected, ⟨_, rfl⟩, _, ⟨burnt, _⟩, rfl⟩ | ⟨_, rfl⟩
  · have halves := stockHalf_sound sound (b.pending id).token (b.pending id).raw
    generalize stock_def : stockShare b (b.pending id).token (b.pending id).raw = stock at *
    refine ⟨?_, ?_, fun asset => ⟨(halves.carried asset).exact_, (halves.carried asset).odd⟩, halves.once, ?_⟩
    · refine halves.lot_moved id (fun other apart =>
        ⟨Function.update_of_ne apart .., Function.update_of_ne apart ..⟩) ?_
      intro token
      have before : waiting (stockHalf b (b.pending id).token (b.pending id).raw) token id =
          waiting b token id := rfl
      rw [before, waits token]
      by_cases same : token = (b.pending id).token
      · subst same
        have whole := waiting_le sound (b.pending id).token id
        rw [waits, if_pos rfl] at whole
        by_cases none : stock = 0
        · simp [waiting, none, Status.unfinished, stockHalf]
          omega
        · simp [waiting, none, Status.unfinished, stockHalf]
          omega
      · by_cases none : stock = 0
        · simp [waiting, none, Status.unfinished, stockHalf, Function.update_of_ne same, Ne.symm same]
        · simp [waiting, none, Status.unfinished, stockHalf, Function.update_of_ne same, Ne.symm same]
    · intro token
      by_cases same : token = (b.pending id).token
      · subst same
        simp only [Function.update_self]
        rw [burnt]
        exact Nat.sub_le_sub_right (sound.backed _) _
      · simpa only [Function.update_of_ne same] using halves.backed token
    · intro conversion member
      have counted := halves.counted conversion member
      cases conversion <;> exact counted
  · refine ⟨?_, sound.backed, ?_, sound.once, ?_⟩
    · refine sound.lot_moved id (fun other apart => ⟨Function.update_of_ne apart .., rfl⟩) ?_
      intro token
      rw [waits token]
      simp [waiting, Status.unfinished]
    · exact fun asset => ⟨(sound.carried asset).exact_, (sound.carried asset).odd⟩
    · intro conversion member
      have counted := sound.counted conversion member
      cases conversion <;> exact counted

/-! Conversions. -/

/-- A slice that opens is a new one, and its lot keeps waiting with all of it. -/
theorem convertLot_sound {id : Nat} {amount : Option Nat} {f : Conversion}
    (taken : convertLot b id amount = .ok (after, f)) (sound : Sound b) : Sound after ∧ During after f := by
  simp only [convertLot, bind_ok, require_ok, pure_ok] at taken
  obtain ⟨_, routed, _, _, _, ⟨_, part⟩, same⟩ := taken
  obtain ⟨rfl, rfl⟩ := Prod.mk.inj same
  refine ⟨⟨?_, sound.backed, ?_, ?_, ?_⟩, Function.update_self .., part, sound.backed _⟩
  · refine sound.lot_moved id (fun other apart => ⟨Function.update_of_ne apart .., rfl⟩) ?_
    intro token
    simp [waiting, routed, Status.unfinished]
  · exact fun asset => ⟨(sound.carried asset).exact_, (sound.carried asset).odd⟩
  · refine List.nodup_append.mpr ⟨sound.once, List.nodup_singleton _, ?_⟩
    intro other member last only
    rw [List.mem_singleton.mp only]
    rintro rfl
    have counted := sound.counted _ member
    unfold nextConversionId at counted
    split at counted
    · next none => exact counted none
    · exact absurd counted (Nat.lt_irrefl _)
  · have grows : ∀ other, b.conversionCount other ≤
        Function.update b.conversionCount id (b.conversionCount id + 1) other := by
      intro other
      by_cases same : other = id
      · subst same
        simp
      · simp [Function.update_of_ne same]
    intro conversion member
    rcases List.mem_append.mp member with old | only
    · have counted := sound.counted conversion old
      cases conversion with
      | lot lot => exact Nat.pos_iff_ne_zero.mp ((Nat.pos_of_ne_zero counted).trans_le (grows lot))
      | slice lot count => exact Nat.lt_of_lt_of_le counted (grows lot)
    · rw [List.mem_singleton.mp only]
      unfold nextConversionId
      split <;> simp [Counted]

theorem conclude_sound {f : Conversion} {a : Answer} (taken : conclude b f a = .ok after) (sound : Sound b)
    (during : During b f) : Sound after := by
  simp only [conclude, bind_ok, require_ok, pure_ok, sub_ok] at taken
  obtain ⟨held, ⟨_, rfl⟩, expected, ⟨_, rfl⟩, _, ⟨_, _, pulled⟩, liability, ⟨owed, rfl⟩, raw, ⟨_, rfl⟩, _, _,
    balance, ⟨_, rfl⟩, rfl⟩ := taken
  have waits : ∀ token, waiting b token f.id =
      if (b.pending f.id).token = token then (b.pending f.id).raw else 0 := fun token => by
    simp [waiting, during.converting, Status.unfinished]
  have part := during.part
  have backed := during.backed
  refine ⟨?_, ?_, ?_, sound.once, ?_⟩
  · refine sound.lot_moved f.id (fun other apart =>
      ⟨Function.update_of_ne apart .., Function.update_of_ne apart ..⟩) ?_
    intro token
    rw [waits token]
    by_cases same : token = (b.pending f.id).token
    · subst same
      have whole := waiting_le sound (b.pending f.id).token f.id
      rw [waits, if_pos rfl] at whole
      by_cases none : (b.pending f.id).raw - f.raw = 0
      · simp [waiting, none, Status.unfinished]
        omega
      · simp [waiting, none, Status.unfinished]
        omega
    · by_cases none : (b.pending f.id).raw - f.raw = 0
      · simp [waiting, none, Status.unfinished, Function.update_of_ne same, Ne.symm same]
      · simp [waiting, none, Status.unfinished, Function.update_of_ne same, Ne.symm same]
  · intro token
    by_cases same : token = (b.pending f.id).token
    · subst same
      simp only [Function.update_self]
      rw [pulled]
      exact Nat.sub_le_sub_right backed _
    · simpa only [Function.update_of_ne same] using sound.backed token
  · exact fun asset => ⟨(sound.carried asset).exact_, (sound.carried asset).odd⟩
  · intro conversion member
    have counted := sound.counted conversion member
    cases conversion <;> exact counted

theorem keeps (c : Config) : Keeps (contract c) Sound During where
  free _ _ _ taken sound := free_sound taken sound
  whole _ call _ taken sound := by
    cases call with
    | onFunded sender id kind token amount value accepted => exact onFunded_sound taken sound
    | routeLot id burned => exact routeLot_sound taken sound
  enter _ _ _ _ taken sound := convertLot_sound taken sound
  leave _ _ _ _ taken sound during := conclude_sound taken sound during

def sample : Config := ⟨9, 1, 2⟩

end Solonpad.PlatformRouter
