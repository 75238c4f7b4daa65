import Mathlib.Data.List.Range
import Solonpad.DeskNFT

/-!
Who a card was issued to. A card of a batch under way is the recipient's before it is minted, and whether
a card is the protocol's never changes once it is issued, so the protocol's cards are as many as were
counted.
-/

namespace Solonpad.Desk

open Checked
open Chain (Address)

def Cards.issuedTo (c : Cards) (id : Nat) : Address :=
  match c.minting with
  | some m => if m.next ≤ id ∧ id < m.upper then m.recipient else c.ownerOf id
  | none => c.ownerOf id

def Cards.protocolCard (c : Cards) (id : Nat) : Bool := decide (c.issuedTo id = c.protocolVault)

/-- The ids issued so far. -/
def Cards.ids (c : Cards) : List Nat := List.range' 1 c.totalSupply

/-- The cards of owners other than the protocol. -/
def Cards.ordinary (c : Cards) : List Nat := c.ids.filter fun id => !c.protocolCard id

structure Dealt (c : Cards) : Prop where
  counted : 0 < c.nextTokenId
  issued : ∀ id, 0 < id → id < c.nextTokenId → c.issuedTo id ≠ 0
  batch : ∀ m, c.minting = some m → m.next ≤ m.upper ∧ m.upper = c.nextTokenId ∧
    ∃ id, 0 < id ∧ id < m.next ∧ c.ownerOf id = m.recipient
  protocol : c.ids.countP c.protocolCard = c.protocolMinted

/-- Cards are only added, and stay the protocol's or others'. -/
structure Follows (c after : Cards) : Prop where
  grows : c.totalSupply ≤ after.totalSupply
  same : ∀ id, 0 < id → id ≤ c.totalSupply → after.protocolCard id = c.protocolCard id

variable {c middle after : Cards} {env : Env} {k : CardsConfig} {count fee : Nat} {recipient : Address}

theorem Follows.refl (c : Cards) : Follows c c := ⟨Nat.le_refl _, fun _ _ _ => rfl⟩

/-- The ids up to a bound are the first ones. -/
theorem countP_within (total n : Nat) (test : Nat → Bool) (within : n ≤ total) :
    (List.range' 1 total).countP (fun id => decide (id ≤ n) && test id) = (List.range' 1 n).countP test := by
  have split : List.range' 1 total = List.range' 1 n ++ List.range' (1 + n) (total - n) := by
    rw [List.range'_append_1, Nat.add_sub_cancel' within]
  have first : (List.range' 1 n).countP (fun id => decide (id ≤ n) && test id) = (List.range' 1 n).countP test := by
    apply List.countP_congr
    intro id member
    have small : id ≤ n := by
      rw [List.mem_range'_1] at member
      omega
    simp [small]
  have rest : (List.range' (1 + n) (total - n)).countP (fun id => decide (id ≤ n) && test id) = 0 := by
    apply List.countP_eq_zero.mpr
    intro id member
    have large : ¬ id ≤ n := by
      rw [List.mem_range'_1] at member
      omega
    simp [large]
  rw [split, List.countP_append, first, rest, Nat.add_zero]

theorem Follows.countP (follows : Follows c after) (n : Nat) (within : n ≤ c.totalSupply) :
    (List.range' 1 n).countP after.protocolCard = (List.range' 1 n).countP c.protocolCard := by
  apply List.countP_congr
  intro id member
  rw [List.mem_range'_1] at member
  rw [follows.same id (by omega) (by omega)]

/-- Cards whose ids and protocol cards are the same are dealt the same. -/
theorem Dealt.keep (dealt : Dealt c) (next : after.nextTokenId = c.nextTokenId)
    (issuedTo : ∀ id, 0 < id → id < c.nextTokenId → after.issuedTo id ≠ 0 ∧
      (after.issuedTo id = after.protocolVault ↔ c.issuedTo id = c.protocolVault))
    (batch : ∀ m, after.minting = some m → m.next ≤ m.upper ∧ m.upper = after.nextTokenId ∧
      ∃ id, 0 < id ∧ id < m.next ∧ after.ownerOf id = m.recipient)
    (protocolMinted : after.protocolMinted = c.protocolMinted) : Dealt after ∧ Follows c after := by
  have supply : after.totalSupply = c.totalSupply := by rw [Cards.totalSupply, next, Cards.totalSupply]
  have follows : Follows c after := by
    refine ⟨supply.ge, fun id positive within => ?_⟩
    have known : id < c.nextTokenId := by
      have counted := dealt.counted
      rw [Cards.totalSupply] at within
      omega
    rw [Cards.protocolCard, Cards.protocolCard, decide_eq_decide]
    exact (issuedTo id positive known).2
  refine ⟨⟨next ▸ dealt.counted, ?_, batch, ?_⟩, follows⟩
  · intro id positive known
    exact (issuedTo id positive (next ▸ known)).1
  · rw [Cards.ids, supply, follows.countP _ (Nat.le_refl _), protocolMinted]
    exact dealt.protocol

theorem empty_dealt : Dealt .empty where
  counted := by decide
  issued id positive known := by
    have bound : id < 1 := known
    omega
  batch _ minting := by cases minting
  protocol := by decide

/-! Minting. -/

theorem issuedTo_free (free : c.minting = none) (id : Nat) : c.issuedTo id = c.ownerOf id := by
  rw [Cards.issuedTo, free]

theorem mintPaid_ok (taken : c.mintPaid k env count recipient fee = .ok after) :
    0 < count ∧ recipient ≠ 0 ∧ after.nextTokenId = c.nextTokenId + count ∧ after.protocolVault = c.protocolVault ∧
      after.protocolMinted = c.protocolMinted ∧
      after.ownerOf = Function.update c.ownerOf c.nextTokenId recipient ∧
      after.minting = some ⟨recipient, c.nextTokenId + 1, c.nextTokenId + count, fee⟩ := by
  simp only [Cards.mintPaid, Cards.mintCard, bind_ok, require_ok, pure_ok] at taken
  obtain ⟨_, ⟨some', _, _⟩, _, _, _, _, _, _, _, ⟨_, real, _, _, _, _, rfl⟩, rfl⟩ := taken
  exact ⟨some', real, rfl, rfl, rfl, rfl, rfl⟩

/-- A batch is issued; what is the protocol's has been counted. -/
theorem mintPaid_dealt (free : c.minting = none) (counted : 0 < c.nextTokenId)
    (issued : ∀ id, 0 < id → id < c.nextTokenId → c.ownerOf id ≠ 0)
    (protocol : c.ids.countP c.protocolCard + (if recipient = c.protocolVault then count else 0) = c.protocolMinted)
    (taken : c.mintPaid k env count recipient fee = .ok after) : Dealt after ∧ Follows c after := by
  obtain ⟨positive, real, next, vault, minted, owners, batch⟩ := mintPaid_ok taken
  have supply : c.totalSupply = c.nextTokenId - 1 := rfl
  -- Below the batch cards are where they were, and the rest are the recipient's.
  have older : ∀ id, id < c.nextTokenId → after.issuedTo id = c.issuedTo id := by
    intro id below
    rw [issuedTo_free free, Cards.issuedTo, batch]
    dsimp only
    rw [if_neg (by omega), owners, Function.update_of_ne (Nat.ne_of_lt below)]
  have newer : ∀ id, c.nextTokenId ≤ id → id < c.nextTokenId + count → after.issuedTo id = recipient := by
    intro id above within
    rw [Cards.issuedTo, batch]
    dsimp only
    by_cases first : id = c.nextTokenId
    · rw [if_neg (by omega), owners, first, Function.update_self]
    · rw [if_pos (by omega)]
  have follows : Follows c after := by
    constructor
    · rw [Cards.totalSupply, Cards.totalSupply, next]
      omega
    · intro id positive within
      rw [Cards.protocolCard, Cards.protocolCard, older id (by omega), vault]
  refine ⟨⟨?_, ?_, ?_, ?_⟩, follows⟩
  · omega
  · intro id positive within
    by_cases below : id < c.nextTokenId
    · rw [older id below, issuedTo_free free]
      exact issued id positive below
    · rw [newer id (not_lt.mp below) (next ▸ within)]
      exact real
  · intro m minting
    obtain rfl := Option.some.inj (batch.symm.trans minting)
    refine ⟨by dsimp only; omega, next.symm, c.nextTokenId, counted, Nat.lt_succ_self _, ?_⟩
    rw [owners, Function.update_self]
  · have split : List.range' 1 after.totalSupply =
        List.range' 1 c.totalSupply ++ List.range' c.nextTokenId count := by
      have joined := List.range'_append_1 (s := 1) (m := c.totalSupply) (n := count)
      rw [show 1 + c.totalSupply = c.nextTokenId by omega] at joined
      rw [joined, Cards.totalSupply, next]
      congr 1
      omega
    rw [minted, ← protocol, Cards.ids, split, List.countP_append, follows.countP _ (Nat.le_refl _)]
    congr 1
    have all : ∀ id ∈ List.range' c.nextTokenId count,
        after.protocolCard id = decide (recipient = c.protocolVault) := by
      intro id member
      rw [List.mem_range'_1] at member
      rw [Cards.protocolCard, newer id member.1 member.2, vault]
    split
    · next own =>
      have every : (List.range' c.nextTokenId count).countP after.protocolCard =
          (List.range' c.nextTokenId count).length := by
        apply List.countP_eq_length.mpr
        intro id member
        rw [all id member, decide_eq_true own]
      rw [every, List.length_range']
    · next other =>
      apply List.countP_eq_zero.mpr
      intro id member
      rw [all id member, decide_eq_false other]
      exact Bool.false_ne_true

theorem mintNext_dealt (dealt : Dealt c) (taken : c.mintNext env = .ok after) : Dealt after ∧ Follows c after := by
  unfold Cards.mintNext at taken
  split at taken
  · cases taken
  · next m minting =>
    simp only [Cards.mintCard, bind_ok, require_ok, pure_ok] at taken
    obtain ⟨_, more, _, ⟨_, _, _, _, _, unowned, rfl⟩, rfl⟩ := taken
    obtain ⟨_, upper, first, positive, below, owned⟩ := dealt.batch m minting
    have same : ∀ id, Cards.issuedTo { c with
        ownerOf := Function.update c.ownerOf m.next m.recipient
        minting := some { m with next := m.next + 1 } } id = c.issuedTo id := by
      intro id
      rw [Cards.issuedTo, Cards.issuedTo, minting]
      dsimp only
      by_cases here : id = m.next
      · rw [if_neg (by omega), if_pos (by omega), here, Function.update_self]
      · rw [Function.update_of_ne here]
        by_cases later : m.next ≤ id ∧ id < m.upper
        · rw [if_pos (by omega), if_pos later]
        · rw [if_neg (by omega), if_neg later]
    refine dealt.keep rfl ?_ ?_ rfl
    · intro id positive known
      rw [same id]
      exact ⟨dealt.issued id positive known, Iff.rfl⟩
    · rintro m' minting'
      cases minting'
      refine ⟨by dsimp only; omega, upper, first, positive, by dsimp only; omega, ?_⟩
      dsimp only
      rw [Function.update_of_ne (Nat.ne_of_lt below), owned]

theorem mintDone_dealt (dealt : Dealt c) (taken : c.mintDone = .ok (after, fee)) : Dealt after ∧ Follows c after := by
  unfold Cards.mintDone at taken
  split at taken
  · cases taken
  · next m minting =>
    simp only [bind_ok, require_ok, pure_ok, Prod.mk.injEq] at taken
    obtain ⟨_, whole, rfl, _⟩ := taken
    have same : ∀ id, Cards.issuedTo { c with minting := none } id = c.issuedTo id := by
      intro id
      rw [issuedTo_free rfl, Cards.issuedTo, minting]
      dsimp only
      rw [if_neg (by omega)]
    refine dealt.keep rfl ?_ ?_ rfl
    · intro id positive known
      rw [same id]
      exact ⟨dealt.issued id positive known, Iff.rfl⟩
    · intro m' minting'
      cases minting'

theorem free_of_nonReentrant {u : Unit} (free : c.nonReentrant = .ok u) : c.minting = none := by
  rw [Cards.nonReentrant, require_ok] at free
  exact Option.isNone_iff_eq_none.mp free

theorem mint_dealt (dealt : Dealt c) (taken : c.mint k env count recipient = .ok after) :
    Dealt after ∧ Follows c after := by
  simp only [Cards.mint, bind_ok, require_ok] at taken
  obtain ⟨_, guarded, _, other, taken⟩ := taken
  have free := free_of_nonReentrant guarded
  refine mintPaid_dealt free dealt.counted ?_ ?_ taken
  · intro id positive known
    rw [← issuedTo_free free]
    exact dealt.issued id positive known
  · rw [if_neg other]
    exact dealt.protocol

theorem mintProtocol_dealt (dealt : Dealt c) (taken : c.mintProtocol k env count = .ok after) :
    Dealt after ∧ Follows c after := by
  simp only [Cards.mintProtocol, bind_ok, require_ok] at taken
  obtain ⟨_, guarded, _, _, taken⟩ := taken
  have free := free_of_nonReentrant guarded
  have minted := mintPaid_dealt (c := { c with protocolMinted := c.protocolMinted + count }) free dealt.counted
    (by
      intro id positive known
      rw [← issuedTo_free free]
      exact dealt.issued id positive known)
    (by
      rw [if_pos rfl]
      exact congrArg (· + count) dealt.protocol) taken
  exact ⟨minted.1, minted.2.grows, minted.2.same⟩

theorem grantSponsored_dealt {sponsor : Address} (dealt : Dealt c)
    (taken : c.grantSponsored k env recipient sponsor = .ok after) : Dealt after ∧ Follows c after := by
  simp only [Cards.grantSponsored, bind_ok, require_ok] at taken
  obtain ⟨_, guarded, _, ⟨_, other⟩, _, _, taken⟩ := taken
  have free := free_of_nonReentrant guarded
  have minted := mintPaid_dealt (c := { c with
    sponsorEscrow := Function.update c.sponsorEscrow sponsor
      (Function.update (c.sponsorEscrow sponsor) recipient 0) }) free dealt.counted
    (by
      intro id positive known
      rw [← issuedTo_free free]
      exact dealt.issued id positive known)
    (by
      rw [if_neg other]
      exact dealt.protocol) taken
  exact ⟨minted.1, minted.2.grows, minted.2.same⟩

/-! Owners and settings. -/

theorem transfer_dealt {holder : Address} {id : Nat} (free : c.minting = none) (dealt : Dealt c)
    (taken : c.transfer env holder recipient id = .ok after) : Dealt after ∧ Follows c after := by
  simp only [Cards.transfer, bind_ok, require_ok, pure_ok] at taken
  obtain ⟨_, _, _, real, _, locked, _, other, _, _, _, _, rfl⟩ := taken
  refine dealt.keep rfl ?_ ?_ rfl
  · intro id' positive known
    have issued := dealt.issued id' positive known
    rw [issuedTo_free free] at issued ⊢
    rw [issuedTo_free (by exact free)]
    dsimp only
    by_cases same : id' = id
    · subst same
      rw [Function.update_self]
      exact ⟨real, fun own => absurd own other, fun own => absurd own locked⟩
    · rw [Function.update_of_ne same]
      exact ⟨issued, Iff.rfl⟩
  · intro m minting
    exact absurd (free.symm.trans minting) nofun

/-- The protocol's account is named before it has a card. -/
theorem configureProtocolVault_dealt {vault : Address} (dealt : Dealt c)
    (taken : c.configureProtocolVault k env vault = .ok after) : Dealt after ∧ Follows c after := by
  simp only [Cards.configureProtocolVault, bind_ok, require_ok, pure_ok] at taken
  obtain ⟨_, ⟨_, unset, _, none⟩, rfl⟩ := taken
  have owned : ∀ id, 0 < id → id < c.nextTokenId → c.ownerOf id ≠ vault := by
    intro id positive known own
    have counts := List.countP_eq_zero.mp none id (List.mem_range.mpr known)
    simp only [decide_eq_true_eq, not_and] at counts
    exact counts (Nat.ne_of_gt positive) own
  have apart : ∀ id, 0 < id → id < c.nextTokenId → c.issuedTo id ≠ vault := by
    intro id positive known
    rw [Cards.issuedTo]
    split
    · next m minting =>
      obtain ⟨_, upper, first, positive', below, own⟩ := dealt.batch m minting
      split
      · rw [← own]
        exact owned first positive' (by omega)
      · exact owned id positive known
    · exact owned id positive known
  refine dealt.keep rfl ?_ dealt.batch rfl
  intro id positive known
  have issued := dealt.issued id positive known
  refine ⟨issued, fun own => absurd own (apart id positive known), fun own => ?_⟩
  rw [unset] at own
  exact absurd own issued

theorem Dealt.elsewhere (dealt : Dealt c) (next : after.nextTokenId = c.nextTokenId)
    (owners : after.ownerOf = c.ownerOf) (minting : after.minting = c.minting)
    (vault : after.protocolVault = c.protocolVault) (minted : after.protocolMinted = c.protocolMinted) :
    Dealt after ∧ Follows c after := by
  have same : ∀ id, after.issuedTo id = c.issuedTo id := by
    intro id
    rw [Cards.issuedTo, Cards.issuedTo, minting, owners]
  refine dealt.keep next ?_ ?_ minted
  · intro id positive known
    rw [same id, vault]
    exact ⟨dealt.issued id positive known, Iff.rfl⟩
  · rw [minting, next, owners]
    exact dealt.batch

end Solonpad.Desk
