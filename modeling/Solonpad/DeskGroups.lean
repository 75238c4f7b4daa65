import Solonpad.KeyedGroups
import Mathlib.Algebra.GroupWithZero.Nat
import Mathlib.Data.List.Sort

/-!
How the desk keeper groups the streams that are ready into queues, `desk/decide.mjs`. Per asset, oldest first,
a window over the front of the streams opens as a group when a card's share of them is worth the push minimum
and a margin; a full window that is not gives up its oldest stream, and a window that is not full waits.
-/

namespace Solonpad.DeskGroups

open KeyedGroups

variable {Key Asset : Type}

structure Stream (Key Asset : Type) where
  key : Key
  asset : Asset
  /-- Raw stock of a first-generation card. -/
  perCard : Nat
  readyAt : Int

structure Group (Key Asset : Type) where
  asset : Asset
  keys : List Key
  valueUSD18 : Nat
  deriving DecidableEq

structure Dust (Key : Type) where
  key : Key
  valueUSD18 : Nat
  deriving DecidableEq

structure Plan (Key Asset : Type) where
  opened : List (Group Key Asset)
  hold : List Key
  dust : List (Dust Key)
  deriving DecidableEq

def maxKeysLimit : Int := 20

def usdOf (raw price18 : Nat) : Nat := raw * price18 / 10 ^ 18

/-- The comparator: older first, then larger. Of two streams alike in both it puts either first. -/
def compare (x y : Stream Key Asset) : Int :=
  if x.readyAt - y.readyAt ≠ 0 then x.readyAt - y.readyAt else if x.perCard < y.perCard then 1 else -1

/-- `sort` with that comparator; how streams alike in age and amount end up is the engine's. -/
structure Sorter (Key Asset : Type) where
  sort : List (Stream Key Asset) → List (Stream Key Asset)
  permutes : ∀ list, (sort list).Perm list
  ordered : ∀ list, (sort list).Pairwise fun x y => compare x y ≤ 0

theorem compare_first (x y : Stream Key Asset) :
    compare x y ≤ 0 ↔ x.readyAt < y.readyAt ∨ x.readyAt = y.readyAt ∧ y.perCard ≤ x.perCard := by
  unfold compare
  split
  · omega
  · split <;> omega

theorem compare_total (x y : Stream Key Asset) : compare x y ≤ 0 ∨ compare y x ≤ 0 := by
  rw [compare_first, compare_first]
  omega

theorem compare_trans {x y z : Stream Key Asset} (first : compare x y ≤ 0) (second : compare y z ≤ 0) :
    compare x z ≤ 0 := by
  rw [compare_first] at *
  omega

/-- One engine's way: each stream is inserted before those that do not come before it. -/
def insertionSorter (Key Asset : Type) : Sorter Key Asset :=
  have : Std.Total fun x y : Stream Key Asset => compare x y ≤ 0 := ⟨compare_total⟩
  have : IsTrans (Stream Key Asset) fun x y => compare x y ≤ 0 := ⟨fun _ _ _ => compare_trans⟩
  { sort := List.insertionSort fun x y => compare x y ≤ 0
    permutes := List.perm_insertionSort _
    ordered := List.pairwise_insertionSort _ }

variable [DecidableEq Asset] (lower : Asset → Asset)

/-- The price under the first key that spells the asset; 0 when there is none. -/
def priceOf (prices : List (Asset × Option Nat)) (asset : Asset) : Nat :=
  match prices.find? (fun entry => lower entry.1 = asset) with
  | some entry => entry.2.getD 0
  | none => 0

def rawOf (group : List (Stream Key Asset)) : Nat := (group.map Stream.perCard).sum

/-- The loop over one asset's streams. -/
def windows (price need cap : Nat) (rest : List (Stream Key Asset)) (plan : Plan Key Asset) : Plan Key Asset :=
  match _front : rest.take cap with
  | [] => plan
  | first :: others =>
    let group := first :: others
    let value := usdOf (rawOf group) price
    if need ≤ value then
      windows price need cap (rest.drop group.length)
        { plan with opened := plan.opened ++ [⟨first.asset, group.map Stream.key, value⟩] }
    else if group.length = cap then
      windows price need cap (rest.drop 1)
        { plan with dust := plan.dust ++ [⟨first.key, usdOf first.perCard price⟩] }
    else { plan with hold := plan.hold ++ group.map Stream.key }
termination_by rest.length
decreasing_by
  all_goals
    have taken := congrArg List.length _front
    simp only [List.length_take, List.length_cons, List.length_drop] at taken ⊢
    omega

def needOf (minimumUSD18 marginBps : Nat) : Nat := minimumUSD18 * (10000 + marginBps) / 10000

def capOf (maxKeys : Int) : Nat := (min (max 1 maxKeys) maxKeysLimit).toNat

/-- `planGroups`; `lower` spells an asset in lower case. -/
def planGroups (sorter : Sorter Key Asset) (ready : List (Stream Key Asset)) (prices : List (Asset × Option Nat))
    (minimumUSD18 : Nat) (maxKeys : Int) (marginBps : Nat) : Plan Key Asset :=
  let need := needOf minimumUSD18 marginBps
  let cap := capOf maxKeys
  (collect (fun r => lower r.asset) ready).foldl (fun plan byAsset =>
    let price := priceOf lower prices byAsset.1
    let rest := sorter.sort byAsset.2
    if price = 0 then { plan with hold := plan.hold ++ rest.map Stream.key }
    else windows price need cap rest plan) ⟨[], [], []⟩

/-! What the windows did, step by step. -/

inductive Step (Key Asset : Type) where
  | opened (group : List (Stream Key Asset))
  | dropped (stream : Stream Key Asset)
  | held (rest : List (Stream Key Asset))

def Step.taken : Step Key Asset → List (Stream Key Asset)
  | .opened group => group
  | .dropped stream => [stream]
  | .held _ => []

def Step.waiting : Step Key Asset → List (Stream Key Asset)
  | .opened _ => []
  | .dropped _ => []
  | .held rest => rest

variable (prices : List (Asset × Option Nat))

/-- What a stream's asset is worth. -/
def priced (stream : Stream Key Asset) : Nat := priceOf lower prices (lower stream.asset)

/-- A step written to the plan. -/
def record (plan : Plan Key Asset) : Step Key Asset → Plan Key Asset
  | .opened [] => plan
  | .opened (first :: others) =>
    { plan with opened := plan.opened ++ [⟨first.asset, (first :: others).map Stream.key,
        usdOf (rawOf (first :: others)) (priced lower prices first)⟩] }
  | .dropped stream =>
    { plan with dust := plan.dust ++ [⟨stream.key, usdOf stream.perCard (priced lower prices stream)⟩] }
  | .held rest => { plan with hold := plan.hold ++ rest.map Stream.key }

/-- What may be done to streams of one price. -/
def Step.Fits (price need cap : Nat) : Step Key Asset → Prop
  | .opened group => group ≠ [] ∧ group.length ≤ cap ∧ need ≤ usdOf (rawOf group) price
  | .dropped stream => usdOf stream.perCard price < need
  | .held rest => price = 0 ∨ rest.length < cap ∧ usdOf (rawOf rest) price < need

theorem usdOf_mono {raw more : Nat} (least : raw ≤ more) (price : Nat) : usdOf raw price ≤ usdOf more price :=
  Nat.div_le_div_right (Nat.mul_le_mul_right price least)

/-- The steps over one asset's streams. -/
def windowSteps (price need cap : Nat) (rest : List (Stream Key Asset)) : List (Step Key Asset) :=
  match _front : rest.take cap with
  | [] => []
  | first :: others =>
    let group := first :: others
    if need ≤ usdOf (rawOf group) price then .opened group :: windowSteps price need cap (rest.drop group.length)
    else if group.length = cap then .dropped first :: windowSteps price need cap (rest.drop 1)
    else [.held group]
termination_by rest.length
decreasing_by
  all_goals
    have taken := congrArg List.length _front
    simp only [List.length_take, List.length_cons, List.length_drop] at taken ⊢
    omega

omit [DecidableEq Asset] in
theorem windowSteps_nil {price need cap : Nat} {rest : List (Stream Key Asset)} (front : rest.take cap = []) :
    windowSteps price need cap rest = [] := by
  rw [windowSteps]
  split
  · rfl
  · next first others some => simp [front] at some

omit [DecidableEq Asset] in
theorem windowSteps_cons {price need cap : Nat} {rest others : List (Stream Key Asset)} {first : Stream Key Asset}
    (front : rest.take cap = first :: others) : windowSteps price need cap rest =
      if need ≤ usdOf (rawOf (first :: others)) price then
        .opened (first :: others) :: windowSteps price need cap (rest.drop (first :: others).length)
      else if (first :: others).length = cap then .dropped first :: windowSteps price need cap (rest.drop 1)
      else [.held (first :: others)] := by
  rw [windowSteps]
  split
  · next none => simp [front] at none
  · next head tail same =>
    rw [front, List.cons.injEq] at same
    rw [same.1, same.2]

omit [DecidableEq Asset] in
/-- The window and what is behind it. -/
theorem window_append {cap : Nat} {rest group : List (Stream Key Asset)} (front : rest.take cap = group) :
    group ++ rest.drop group.length = rest := by
  rw [← front, List.length_take]
  rcases Nat.le_total cap rest.length with within | beyond
  · rw [Nat.min_eq_left within]
    exact List.take_append_drop ..
  · rw [Nat.min_eq_right beyond, List.take_of_length_le beyond, List.drop_length, List.append_nil]

omit [DecidableEq Asset] in
/-- The oldest stream and the others. -/
theorem window_head {cap : Nat} {rest others : List (Stream Key Asset)} {first : Stream Key Asset}
    (front : rest.take cap = first :: others) : first :: rest.drop 1 = rest := by
  have whole := window_append front
  rw [List.cons_append] at whole
  rw [← whole, List.drop_one, List.tail_cons]

/-- The plan of one asset is its steps written down, at the price its streams share. -/
theorem windows_record {price need cap : Nat} (rest : List (Stream Key Asset)) (plan : Plan Key Asset)
    (shared : ∀ stream ∈ rest, priced lower prices stream = price) : windows price need cap rest plan =
      (windowSteps price need cap rest).foldl (record lower prices) plan := by
  fun_induction windows price need cap rest plan with
  | case1 rest plan front => rw [windowSteps_nil front, List.foldl_nil]
  | case2 rest plan first others front group value enough ih =>
    have oldest : priced lower prices first = price :=
      shared first (window_head front ▸ List.mem_cons_self)
    rw [windowSteps_cons front, if_pos enough, List.foldl_cons, record, oldest]
    exact ih fun stream member => shared stream (List.mem_of_mem_drop member)
  | case3 rest plan first others front group value low full ih =>
    have oldest : priced lower prices first = price :=
      shared first (window_head front ▸ List.mem_cons_self)
    rw [windowSteps_cons front, if_neg low, if_pos full, List.foldl_cons, record, oldest]
    exact ih fun stream member => shared stream (List.mem_of_mem_drop member)
  | case4 rest plan first others front group value low short =>
    rw [windowSteps_cons front, if_neg low, if_neg short]
    rfl

omit [DecidableEq Asset] in
theorem windowSteps_fit {price need cap : Nat} (rest : List (Stream Key Asset)) :
    ∀ step ∈ windowSteps price need cap rest, step.Fits price need cap := by
  fun_induction windowSteps price need cap rest with
  | case1 rest front => exact fun _ member => absurd member List.not_mem_nil
  | case2 rest first others front group enough ih =>
    have bound : group.length ≤ cap := by
      rw [show group = rest.take cap from front.symm, List.length_take]
      exact Nat.min_le_left ..
    exact List.forall_mem_cons.mpr ⟨⟨List.cons_ne_nil _ _, bound, enough⟩, ih⟩
  | case3 rest first others front group low full ih =>
    -- a stream alone is worth no more than its window
    have alone : usdOf first.perCard price ≤ usdOf (rawOf (first :: others)) price := by
      refine usdOf_mono ?_ price
      rw [rawOf, List.map_cons, List.sum_cons]
      exact Nat.le_add_right ..
    exact List.forall_mem_cons.mpr ⟨Nat.lt_of_le_of_lt alone (Nat.lt_of_not_le low), ih⟩
  | case4 rest first others front group low short =>
    intro step member
    rw [List.mem_singleton.mp member]
    have bound : group.length ≤ cap := by
      rw [show group = rest.take cap from front.symm, List.length_take]
      exact Nat.min_le_left ..
    exact .inr ⟨Nat.lt_of_le_of_ne bound short, Nat.lt_of_not_le low⟩

omit [DecidableEq Asset] in
/-- The steps take the streams one after the other, and what waits comes last. -/
theorem windowSteps_order {price need cap : Nat} (capped : 0 < cap) (rest : List (Stream Key Asset)) :
    (windowSteps price need cap rest).flatMap Step.taken ++ (windowSteps price need cap rest).flatMap Step.waiting =
      rest := by
  fun_induction windowSteps price need cap rest with
  | case1 rest front =>
    rcases List.take_eq_nil_iff.mp front with none | empty
    · omega
    · rw [empty]
      rfl
  | case2 rest first others front group enough ih =>
    rw [List.flatMap_cons, List.flatMap_cons, Step.taken, Step.waiting, List.append_assoc, List.nil_append, ih]
    exact window_append front
  | case3 rest first others front group low full ih =>
    rw [List.flatMap_cons, List.flatMap_cons, Step.taken, Step.waiting, List.append_assoc, List.nil_append, ih]
    exact window_head front
  | case4 rest first others front group low short =>
    -- the window is short, so nothing is behind it
    have whole := window_append front
    have behind : rest.drop group.length = [] := by
      have length : group.length = min cap rest.length := by
        rw [show group = rest.take cap from front.symm, List.length_take]
      refine List.drop_eq_nil_of_le ?_
      omega
    rw [show rest.drop (first :: others).length = [] from behind, List.append_nil] at whole
    simpa only [List.flatMap_cons, List.flatMap_nil, Step.taken, Step.waiting, List.append_nil, List.nil_append]
      using whole

omit [DecidableEq Asset] in
/-- At most one window waits. -/
theorem windowSteps_waiting {price need cap : Nat} (rest : List (Stream Key Asset)) :
    (windowSteps price need cap rest).flatMap Step.waiting = [] ∨
      ∃ waiting, Step.held waiting ∈ windowSteps price need cap rest ∧
        (windowSteps price need cap rest).flatMap Step.waiting = waiting := by
  fun_induction windowSteps price need cap rest with
  | case1 rest front => exact .inl rfl
  | case2 rest first others front group enough ih =>
    rw [List.flatMap_cons, Step.waiting, List.nil_append]
    rcases ih with none | ⟨waiting, listed, same⟩
    · exact .inl none
    · exact .inr ⟨waiting, List.mem_cons_of_mem _ listed, same⟩
  | case3 rest first others front group low full ih =>
    rw [List.flatMap_cons, Step.waiting, List.nil_append]
    rcases ih with none | ⟨waiting, listed, same⟩
    · exact .inl none
    · exact .inr ⟨waiting, List.mem_cons_of_mem _ listed, same⟩
  | case4 rest first others front group low short =>
    exact .inr ⟨group, List.mem_singleton_self _, List.append_nil _⟩

/-! All assets. -/

variable (sorter : Sorter Key Asset) (need cap : Nat)

/-- The steps over the streams of one asset. -/
def assetSteps (byAsset : Asset × List (Stream Key Asset)) : List (Step Key Asset) :=
  if priceOf lower prices byAsset.1 = 0 then [.held (sorter.sort byAsset.2)]
  else windowSteps (priceOf lower prices byAsset.1) need cap (sorter.sort byAsset.2)

theorem assetSteps_order (capped : 0 < cap) (byAsset : Asset × List (Stream Key Asset)) :
    (assetSteps lower prices sorter need cap byAsset).flatMap Step.taken ++
      (assetSteps lower prices sorter need cap byAsset).flatMap Step.waiting = sorter.sort byAsset.2 := by
  unfold assetSteps
  split
  · exact List.append_nil _
  · exact windowSteps_order capped _

theorem assetSteps_fit (byAsset : Asset × List (Stream Key Asset)) :
    ∀ step ∈ assetSteps lower prices sorter need cap byAsset,
      step.Fits (priceOf lower prices byAsset.1) need cap := by
  unfold assetSteps
  split
  · next free =>
    intro step member
    rw [List.mem_singleton.mp member]
    exact .inl free
  · exact windowSteps_fit _

theorem assetSteps_waiting (byAsset : Asset × List (Stream Key Asset)) (valued : priceOf lower prices byAsset.1 ≠ 0) :
    (assetSteps lower prices sorter need cap byAsset).flatMap Step.waiting = [] ∨
      ((assetSteps lower prices sorter need cap byAsset).flatMap Step.waiting).length < cap ∧
        usdOf (rawOf ((assetSteps lower prices sorter need cap byAsset).flatMap Step.waiting))
          (priceOf lower prices byAsset.1) < need := by
  have fit := assetSteps_fit lower prices sorter need cap byAsset
  unfold assetSteps at fit ⊢
  rw [if_neg valued] at fit ⊢
  rcases windowSteps_waiting (sorter.sort byAsset.2) with none | ⟨waiting, listed, same⟩
  · exact .inl none
  · rw [same]
    exact .inr ((fit _ listed).resolve_left valued)

/-- The plan of all assets is their steps written down. -/
theorem planGroups_record (groups : List (Asset × List (Stream Key Asset)))
    (keyed : Keyed (fun stream : Stream Key Asset => lower stream.asset) groups) (plan : Plan Key Asset) :
    groups.foldl (fun plan byAsset =>
      if priceOf lower prices byAsset.1 = 0 then
        { plan with hold := plan.hold ++ (sorter.sort byAsset.2).map Stream.key }
      else windows (priceOf lower prices byAsset.1) need cap (sorter.sort byAsset.2) plan) plan =
    (groups.flatMap (assetSteps lower prices sorter need cap)).foldl (record lower prices) plan := by
  induction groups generalizing plan with
  | nil => rfl
  | cons byAsset rest ih =>
    obtain ⟨first, later⟩ := List.forall_mem_cons.mp keyed
    rw [List.foldl_cons, List.flatMap_cons, List.foldl_append, ih later]
    congr 1
    unfold assetSteps
    split
    · rfl
    · refine windows_record lower prices _ plan fun stream member => ?_
      exact congrArg (priceOf lower prices) (first stream ((sorter.permutes _).subset member))

/-- The streams of one asset among some. -/
def ofAsset (asset : Asset) (streams : List (Stream Key Asset)) : List (Stream Key Asset) :=
  streams.filter fun stream => lower stream.asset = asset

/-- The steps over all ready streams. -/
def planSteps (ready : List (Stream Key Asset)) : List (Step Key Asset) :=
  (collect (fun stream => lower stream.asset) ready).flatMap (assetSteps lower prices sorter need cap)

theorem planSteps_perm (capped : 0 < cap) (ready : List (Stream Key Asset)) :
    ((planSteps lower prices sorter need cap ready).flatMap Step.taken ++
      (planSteps lower prices sorter need cap ready).flatMap Step.waiting).Perm ready := by
  unfold planSteps
  rw [List.flatMap_assoc, List.flatMap_assoc]
  refine (List.flatMap_append_perm _ _ _).trans ?_
  refine List.Perm.trans ?_ (collect_perm (fun stream => lower stream.asset) ready)
  refine List.Perm.flatMap_left _ fun byAsset _ => ?_
  rw [assetSteps_order lower prices sorter need cap capped]
  exact sorter.permutes byAsset.2

/-- Of an asset the steps take and leave what its own group says, or there is none of it. -/
theorem planSteps_asset (capped : 0 < cap) (ready : List (Stream Key Asset)) (asset : Asset) :
    (ofAsset lower asset ((planSteps lower prices sorter need cap ready).flatMap Step.taken) = [] ∧
      ofAsset lower asset ((planSteps lower prices sorter need cap ready).flatMap Step.waiting) = []) ∨
    ∃ byAsset ∈ collect (fun stream => lower stream.asset) ready, byAsset.1 = asset ∧
      ofAsset lower asset ((planSteps lower prices sorter need cap ready).flatMap Step.taken) =
        (assetSteps lower prices sorter need cap byAsset).flatMap Step.taken ∧
      ofAsset lower asset ((planSteps lower prices sorter need cap ready).flatMap Step.waiting) =
        (assetSteps lower prices sorter need cap byAsset).flatMap Step.waiting := by
  have keyed := collect_keyed (fun stream : Stream Key Asset => lower stream.asset) ready
  have nodup := collect_nodup (fun stream : Stream Key Asset => lower stream.asset) ready
  have inside : ∀ byAsset, (assetSteps lower prices sorter need cap byAsset).flatMap Step.taken ++
      (assetSteps lower prices sorter need cap byAsset).flatMap Step.waiting ⊆ byAsset.2 := by
    intro byAsset
    rw [assetSteps_order lower prices sorter need cap capped]
    exact (sorter.permutes byAsset.2).subset
  have taken := fun byAsset => (List.append_subset.mp (inside byAsset)).1
  have waiting := fun byAsset => (List.append_subset.mp (inside byAsset)).2
  unfold planSteps ofAsset
  rw [List.flatMap_assoc, List.flatMap_assoc]
  by_cases listed : asset ∈ (collect (fun stream => lower stream.asset) ready).map Prod.fst
  · obtain ⟨byAsset, member, rfl⟩ := List.mem_map.mp listed
    exact .inr ⟨byAsset, member, rfl, filter_listed keyed nodup taken member,
      filter_listed keyed nodup waiting member⟩
  · exact .inl ⟨filter_absent keyed taken listed, filter_absent keyed waiting listed⟩

/-- What a step does is right for the asset of its streams. -/
def Step.Sound : Step Key Asset → Prop
  | .opened group => ∃ asset, (∀ stream ∈ group, lower stream.asset = asset) ∧ group ≠ [] ∧
      group.length ≤ cap ∧ need ≤ usdOf (rawOf group) (priceOf lower prices asset)
  | .dropped stream => usdOf stream.perCard (priced lower prices stream) < need
  | .held _ => True

theorem assetSteps_sound (capped : 0 < cap) {byAsset : Asset × List (Stream Key Asset)}
    (keyed : ∀ stream ∈ byAsset.2, lower stream.asset = byAsset.1) :
    ∀ step ∈ assetSteps lower prices sorter need cap byAsset, step.Sound lower prices need cap := by
  intro step member
  have fit := assetSteps_fit lower prices sorter need cap byAsset step member
  have taken : ∀ stream ∈ step.taken, lower stream.asset = byAsset.1 := by
    intro stream one
    have whole := assetSteps_order lower prices sorter need cap capped byAsset
    refine keyed stream ((sorter.permutes _).subset ?_)
    rw [← whole]
    exact List.mem_append_left _ (List.mem_flatMap.mpr ⟨step, member, one⟩)
  cases step with
  | opened group => exact ⟨byAsset.1, taken, fit⟩
  | dropped stream =>
    have price : priced lower prices stream = priceOf lower prices byAsset.1 :=
      congrArg (priceOf lower prices) (taken stream (List.mem_singleton_self _))
    rw [Step.Sound, price]
    exact fit
  | held rest => trivial

theorem needOf_eq (minimumUSD18 marginBps : Nat) :
    needOf minimumUSD18 marginBps = minimumUSD18 + minimumUSD18 * marginBps / 10000 := by
  unfold needOf
  rw [Nat.mul_add, Nat.add_comm, Nat.add_mul_div_right _ _ (by decide), Nat.add_comm]

theorem capOf_eq (maxKeys : Int) : (capOf maxKeys : Int) = min (max 1 maxKeys) 20 := by
  unfold capOf maxKeysLimit
  omega

theorem capOf_pos (maxKeys : Int) : 0 < capOf maxKeys := by
  have same := capOf_eq maxKeys
  omega

/-- A plan is steps written down in order: the groups that opened, the streams given up and the rest that
waits, with every ready stream in exactly one of them. -/
theorem streams_grouped (ready : List (Stream Key Asset)) (minimumUSD18 marginBps : Nat) (maxKeys : Int) :
    ∃ (steps : List (Step Key Asset)) (need cap : Nat),
      need = minimumUSD18 + minimumUSD18 * marginBps / 10000 ∧ (cap : Int) = min (max 1 maxKeys) 20 ∧
      planGroups lower sorter ready prices minimumUSD18 maxKeys marginBps =
        steps.foldl (record lower prices) ⟨[], [], []⟩ ∧
      (steps.flatMap Step.taken ++ steps.flatMap Step.waiting).Perm ready ∧
      (∀ step ∈ steps, step.Sound lower prices need cap) ∧
      (∀ asset, (ofAsset lower asset (steps.flatMap Step.taken) ++
        ofAsset lower asset (steps.flatMap Step.waiting)).Pairwise fun x y => x.readyAt ≤ y.readyAt) ∧
      ∀ asset, priceOf lower prices asset ≠ 0 → ofAsset lower asset (steps.flatMap Step.waiting) = [] ∨
        (ofAsset lower asset (steps.flatMap Step.waiting)).length < cap ∧
          usdOf (rawOf (ofAsset lower asset (steps.flatMap Step.waiting))) (priceOf lower prices asset) < need := by
  have capped := capOf_pos maxKeys
  have keyed := collect_keyed (fun stream : Stream Key Asset => lower stream.asset) ready
  have assets := planSteps_asset lower prices sorter (needOf minimumUSD18 marginBps) _ capped ready
  refine ⟨planSteps lower prices sorter (needOf minimumUSD18 marginBps) (capOf maxKeys) ready, _, _,
    needOf_eq _ _, capOf_eq maxKeys, ?written, planSteps_perm lower prices sorter _ _ capped ready, ?sound, ?ages,
    ?held⟩
  case written => exact planGroups_record lower prices sorter _ _ _ keyed _
  case sound =>
    intro step member
    obtain ⟨byAsset, listed, member⟩ := List.mem_flatMap.mp member
    exact assetSteps_sound lower prices sorter _ _ capped (keyed byAsset listed) step member
  case ages =>
    intro asset
    rcases assets asset with ⟨none, nothing⟩ | ⟨byAsset, _, _, taken, waiting⟩
    · rw [none, nothing]
      exact .nil
    · rw [taken, waiting, assetSteps_order lower prices sorter _ _ capped]
      refine (sorter.ordered byAsset.2).imp fun {x y} before => ?_
      have ages := (compare_first x y).mp before
      omega
  case held =>
    intro asset valued
    rcases assets asset with ⟨_, nothing⟩ | ⟨byAsset, _, rfl, _, waiting⟩
    · exact .inl nothing
    · rw [waiting]
      exact assetSteps_waiting lower prices sorter _ _ byAsset valued

/-- Three streams at $100 and two a queue: two open together, the smallest waits. -/
example : planGroups id (insertionSorter Nat Nat) [⟨1, 7, 10 ^ 18, 1⟩, ⟨2, 7, 10 ^ 18, 2⟩, ⟨3, 7, 10 ^ 15, 3⟩]
    [(7, some (100 * 10 ^ 18))] (2 * 10 ^ 18) 2 1000 = ⟨[⟨7, [1, 2], 200 * 10 ^ 18⟩], [3], []⟩ := by
  decide +kernel

end Solonpad.DeskGroups
