import Solonpad.DeskCards
import Solonpad.DeskRewards

/-!
What a call does to the desk's streams. Every call either leaves the streams' credit as it was or makes one
credit at its end, and deals with the cards as they are dealt.
-/

namespace Solonpad.Desk

open Checked
open Chain (Address)
open Eligibility (day)
open RewardToken (precision)

variable {W : Type} {c : Config} {b : Balance W} {x : Peers W} {key : Key} {s after : State W} {now amount id : Nat}
  {env : Env} {before : Store}

/-! What a call does to the streams. -/

/-- The part of a stream that credits are made of. -/
def Stream.account (st : Stream) :=
  (st.epoch, st.counter, st.rem, st.supply, st.totalCredit27, st.received, st.generations,
    st.delegatedCredit27, st.events)

structure Keeps (s after : Store) : Prop where
  streams : ∀ key, (after.streams key).account = (s.streams key).account
  carried : after.nextEpochRemainder = s.nextEpochRemainder
  latest : after.latestStream = s.latestStream

theorem Keeps.refl (s : Store) : Keeps s s := ⟨fun _ => rfl, rfl, rfl⟩

theorem Keeps.trans {s middle after : Store} (first : Keeps s middle) (second : Keeps middle after) : Keeps s after :=
  ⟨fun key => (second.streams key).trans (first.streams key), second.carried.trans first.carried,
    second.latest.trans first.latest⟩

theorem Keeps.same {s after : Store} (streams : after.streams = s.streams)
    (carried : after.nextEpochRemainder = s.nextEpochRemainder) (latest : after.latestStream = s.latestStream) :
    Keeps s after := ⟨fun key => by rw [streams], carried, latest⟩

/-- A stream rewritten in nothing that credits are made of. -/
theorem Keeps.set {s after : Store} {st : Stream} (streams : after.streams = Function.update s.streams key st)
    (same : st.account = (s.streams key).account) (carried : after.nextEpochRemainder = s.nextEpochRemainder)
    (latest : after.latestStream = s.latestStream) : Keeps s after := by
  refine ⟨fun other => ?_, carried, latest⟩
  rw [streams]
  by_cases here : other = key
  · rw [here, Function.update_self, same]
  · rw [Function.update_of_ne here]

/-- The store after a credit. -/
def Store.credited (s : Store) (cards : Cards) (epoch : Nat) (base : Base) (amount : Nat) : Store :=
  let key := base.on epoch
  let rolled := s.roll base key
  let store := Store.regenerate { rolled.1 with
    latestStream := Function.update rolled.1.latestStream base (some key) } base epoch cards.totalSupply
  store.setStream key ((store.streams key).accrue key cards.totalSupply cards.protocolMinted cards.minted
    (cards.totalSupply - cards.protocolMinted) amount rolled.2)

theorem credit_ok {base : Base} (taken : credit x s now base amount = .ok after) :
    after.cards = s.cards ∧ (after.store = s.store ∨ 0 < s.cards.totalSupply ∧
      s.cards.protocolMinted ≤ s.cards.totalSupply ∧
      after.store = s.store.credited s.cards (now / day) base amount) := by
  simp only [credit, ite_ok, bind_ok, require_ok, sub_ok, pure_ok] at taken
  rcases taken with ⟨_, rfl⟩ | ⟨_, _, some', ordinary, ⟨within, rfl⟩, ⟨_, _, _, _, _, _, _, rfl⟩ | ⟨_, rfl⟩⟩
  · exact ⟨rfl, .inl rfl⟩
  · exact ⟨rfl, .inr ⟨some', within, rfl⟩⟩
  · exact ⟨rfl, .inr ⟨some', within, rfl⟩⟩

/-- A call leaves the credit as it was, or makes one credit at its end. -/
def Turn (x : Peers W) (before : Store) (after : State W) (now : Nat) : Prop :=
  ∃ middle, Keeps before middle ∧
    (after.store = middle ∨ ∃ world base amount, credit x ⟨after.cards, middle, world⟩ now base amount = .ok after)

theorem Turn.quiet (keeps : Keeps before after.store) :
    Turn x before after now := ⟨after.store, keeps, .inl rfl⟩

theorem Turn.credited {middle : State W} {base : Base} (taken : credit x middle now base amount = .ok after)
    (keeps : Keeps before middle.store) : Turn x before after now := by
  refine ⟨middle.store, keeps, .inr ⟨middle.world, base, amount, ?_⟩⟩
  rw [(credit_ok taken).1]
  exact taken

theorem pull_keeps {source : Source} (taken : pull c b x s source = .ok after) :
    after.cards = s.cards ∧ after.store.streams = s.store.streams ∧ Keeps s.store after.store := by
  simp only [pull, ite_ok, bind_ok, require_ok, pure_ok] at taken
  rcases taken with ⟨_, rfl⟩ | ⟨_, _, _, _, _, rfl⟩
  · exact ⟨rfl, rfl, .refl _⟩
  · dsimp only
    split
    · exact ⟨rfl, rfl, .same rfl rfl rfl⟩
    · exact ⟨rfl, rfl, .refl _⟩

theorem fundProtocol_keeps (taken : fundProtocol c b x s key = .ok after) :
    after.cards = s.cards ∧ Keeps s.store after.store := by
  simp only [fundProtocol, bind_ok, ite_ok, require_ok, sub_ok, pure_ok] at taken
  obtain ⟨amount, _, ⟨_, rfl⟩ | ⟨_, pulled, taken, ⟨_, _, _, rfl⟩ | ⟨_, _, _, _, _, _, _, rfl⟩⟩⟩ := taken
  · exact ⟨rfl, .refl _⟩
  · obtain ⟨cards, _, keeps⟩ := pull_keeps taken
    exact ⟨cards, keeps.trans (.set rfl rfl rfl rfl)⟩
  · obtain ⟨cards, _, keeps⟩ := pull_keeps taken
    exact ⟨cards, keeps.trans (.set rfl rfl rfl rfl)⟩

theorem payKey_keeps {owner : Address} (taken : payKey c b x s id owner key = .ok (after, amount)) :
    after.cards = s.cards ∧ Keeps s.store after.store := by
  simp only [payKey, bind_ok, ite_ok, require_ok, sub_ok, pure_ok, Prod.mk.injEq] at taken
  obtain ⟨owed, _, _, _, ⟨_, rfl, _⟩ | ⟨_, _, _, pulled, taken, rest⟩⟩ := taken
  · exact ⟨rfl, .refl _⟩
  · obtain ⟨cards, _, keeps⟩ := pull_keeps taken
    have noted : Keeps s.store (s.store.pays id key owed) := .same rfl rfl rfl
    have keeps := noted.trans keeps
    obtain ⟨_, ⟨_, _, _, rfl⟩ | ⟨_, _, _, rfl⟩, _, _, _, _, ⟨rfl, _⟩⟩ := rest
    · exact ⟨cards, keeps.trans (.same rfl rfl rfl)⟩
    · exact ⟨cards, keeps.trans (.same rfl rfl rfl)⟩

theorem payKeys_keeps {owner : Address} (keys : List Key)
    (taken : payKeys c b x id owner keys s = .ok (after, amount)) :
    after.cards = s.cards ∧ Keeps s.store after.store := by
  induction keys generalizing s amount with
  | nil =>
    simp only [payKeys, pure_ok, Prod.mk.injEq] at taken
    obtain ⟨rfl, _⟩ := taken
    exact ⟨rfl, .refl _⟩
  | cons key rest ih =>
    simp only [payKeys, bind_ok, pure_ok, Prod.exists, Prod.mk.injEq] at taken
    obtain ⟨middle, _, paid, _, _, taken, rfl, _⟩ := taken
    obtain ⟨cards, keeps⟩ := payKey_keeps paid
    obtain ⟨cards', keeps'⟩ := ih taken
    exact ⟨cards'.trans cards, keeps.trans keeps'⟩

theorem deliver_keeps {keys : List Key} (taken : deliver c b x s id keys = .ok after) :
    after.cards = s.cards ∧ Keeps s.store after.store := by
  simp only [deliver, pay, bind_ok, require_ok, pure_ok, Prod.exists] at taken
  obtain ⟨_, _, _, _, _, _, _, _, ⟨_, _, paid⟩, rfl⟩ := taken
  exact payKeys_keeps keys paid

theorem receiveNative_turn {sender : Address} {value : Nat}
    (taken : receiveNative c x s sender now value = .ok after) : after.cards = s.cards ∧
      Turn x s.store after now := by
  simp only [receiveNative, bind_ok, ite_ok, pure_ok] at taken
  obtain ⟨_, _, ⟨_, taken⟩ | ⟨_, rfl⟩⟩ := taken
  · exact ⟨(credit_ok taken).1, .credited taken (.refl _)⟩
  · exact ⟨rfl, .quiet (.refl _)⟩

theorem admitRoyaltyAssets_keeps (assets : List Address) {s after : Store}
    (taken : admitRoyaltyAssets c env assets s = .ok after) : Keeps s after := by
  induction assets generalizing s with
  | nil =>
    simp only [admitRoyaltyAssets, pure_ok] at taken
    exact taken ▸ .refl _
  | cons asset rest ih =>
    simp only [admitRoyaltyAssets, bind_ok, require_ok] at taken
    obtain ⟨_, _, taken⟩ := taken
    have admitted : Keeps s { s with royaltyAsset := Function.update s.royaltyAsset asset true } := .same rfl rfl rfl
    exact admitted.trans (ih taken)

theorem syncRoyalty_turn {asset : Address} (taken : syncRoyalty c b x s env asset = .ok after) :
    after.cards = s.cards ∧ Turn x s.store after env.now := by
  simp only [syncRoyalty, bind_ok, require_ok, ite_ok, pure_ok, sub_ok] at taken
  obtain ⟨_, _, taken⟩ := taken
  have ends : ∃ purchased fresh raw, (fresh = b s.world asset c.self - s.store.rawCustody asset) ∧ raw = fresh - purchased ∧
      (raw ≠ 0 ∧ credit x { s with store := s.store.hold asset (s.store.rawCustody asset + raw) } env.now
        ⟨c.royalty, asset, 1⟩ raw = .ok after ∨ ¬ raw ≠ 0 ∧ s = after) := by
    rcases taken with ⟨_, purchased, _, fresh, ⟨_, within⟩, raw, ⟨_, left⟩, ends⟩ |
      ⟨_, purchased, _, fresh, ⟨_, within⟩, raw, ⟨_, left⟩, ends⟩
    · exact ⟨purchased, fresh, raw, within, left, ends⟩
    · exact ⟨purchased, fresh, raw, within, left, ends⟩
  obtain ⟨_, _, raw, _, _, ⟨_, taken⟩ | ⟨_, rfl⟩⟩ := ends
  · exact ⟨(credit_ok taken).1, .credited taken (.same rfl rfl rfl)⟩
  · exact ⟨rfl, .quiet (.refl _)⟩

/-- A call on the cards alone. -/
theorem dealt_turn {call : Cards → Tx Cards} (taken : s.dealt call = .ok after)
    (deals : ∀ cards, call s.cards = .ok cards → Dealt cards ∧ Follows s.cards cards) :
    (Dealt after.cards ∧ Follows s.cards after.cards) ∧ Turn x s.store after now := by
  simp only [State.dealt, bind_ok, pure_ok] at taken
  obtain ⟨cards, called, rfl⟩ := taken
  exact ⟨deals cards called, .quiet (.refl _)⟩

/-- Every call, with what it does to the cards. -/
theorem step_turn {action : Action} (dealt : Dealt s.cards) (taken : step c b x s env action = .ok after) :
    (Dealt after.cards ∧ Follows s.cards after.cards) ∧ Turn x s.store after env.now := by
  have still : after.cards = s.cards → Dealt after.cards ∧ Follows s.cards after.cards := by
    intro cards
    rw [cards]
    exact ⟨dealt, .refl _⟩
  cases action with
  | mint count recipient =>
    simp only [step] at taken
    exact dealt_turn taken fun cards called => mint_dealt dealt called
  | mintProtocol count =>
    simp only [step] at taken
    exact dealt_turn taken fun cards called => mintProtocol_dealt dealt called
  | mintNext =>
    simp only [step] at taken
    exact dealt_turn taken fun cards called => mintNext_dealt dealt called
  | mintDone =>
    simp only [step, recordMintSurcharge, bind_ok, Prod.exists] at taken
    obtain ⟨cards, value, done, world, _, taken⟩ := taken
    have deals := mintDone_dealt dealt done
    have same : after.cards = cards := (credit_ok taken).1
    rw [← same] at deals
    exact ⟨deals, .credited taken (.refl _)⟩
  | authorizeSponsored recipient =>
    simp only [step] at taken
    refine dealt_turn taken fun cards called => ?_
    simp only [Cards.authorizeSponsored, bind_ok, require_ok, pure_ok] at called
    obtain ⟨_, _, _, _, rfl⟩ := called
    exact dealt.elsewhere rfl rfl rfl rfl rfl
  | grantSponsored recipient sponsor =>
    simp only [step] at taken
    exact dealt_turn taken fun cards called => grantSponsored_dealt dealt called
  | transferFrom holder recipient id =>
    simp only [step] at taken
    refine dealt_turn taken fun cards called => ?_
    simp only [Cards.transferFrom, bind_ok, require_ok] at called
    obtain ⟨_, guarded, _, _, called⟩ := called
    exact transfer_dealt (free_of_nonReentrant guarded) dealt called
  | purchase order =>
    simp only [step, purchase, bind_ok, require_ok, ite_ok, pure_ok] at taken
    obtain ⟨_, guarded, _, _, _, _, _, _, _, _, _, _, cards, called, taken⟩ := taken
    have deals := transfer_dealt (free_of_nonReentrant guarded) dealt called
    rcases taken with ⟨_, taken⟩ | ⟨_, rfl⟩
    · obtain ⟨same, turn⟩ := receiveNative_turn taken
      have same : after.cards = cards := same
      rw [← same] at deals
      exact ⟨deals, turn⟩
    · exact ⟨deals, .quiet (.refl _)⟩
  | configureProtocolVault vault =>
    simp only [step] at taken
    exact dealt_turn taken fun cards called => configureProtocolVault_dealt dealt called
  | setMintCapPerAddress cap =>
    simp only [step] at taken
    refine dealt_turn taken fun cards called => ?_
    simp only [Cards.setMintCapPerAddress, bind_ok, require_ok, pure_ok] at called
    obtain ⟨_, _, rfl⟩ := called
    exact dealt.elsewhere rfl rfl rfl rfl rfl
  | tightenMintCapPerAddress cap =>
    simp only [step] at taken
    refine dealt_turn taken fun cards called => ?_
    simp only [Cards.tightenMintCapPerAddress, bind_ok, require_ok, pure_ok] at called
    obtain ⟨_, _, rfl⟩ := called
    exact dealt.elsewhere rfl rfl rfl rfl rfl
  | claim id keys =>
    simp only [step, bind_ok, require_ok] at taken
    obtain ⟨_, _, taken⟩ := taken
    obtain ⟨cards, keeps⟩ := deliver_keeps taken
    exact ⟨still cards, .quiet keeps⟩
  | push id keys =>
    obtain ⟨cards, keeps⟩ := deliver_keeps taken
    exact ⟨still cards, .quiet keeps⟩
  | configureRoyaltyAssets assets =>
    simp only [step, configureRoyaltyAssets, bind_ok, require_ok, pure_ok] at taken
    obtain ⟨_, _, store, admitted, rfl⟩ := taken
    have set : Keeps s.store { s.store with royaltyAssetsConfigured := true } := .same rfl rfl rfl
    exact ⟨still rfl, .quiet (set.trans (admitRoyaltyAssets_keeps assets admitted))⟩
  | depositRoyalty asset raw =>
    simp only [step, depositRoyalty, bind_ok, require_ok] at taken
    obtain ⟨_, _, _, _, _, _, taken⟩ := taken
    exact ⟨still (credit_ok taken).1, .credited taken (.same rfl rfl rfl)⟩
  | syncRoyalty asset =>
    obtain ⟨cards, turn⟩ := syncRoyalty_turn taken
    exact ⟨still cards, turn⟩
  | configureRounds manager payout schedule =>
    simp only [step, State.wired, configureRounds, bind_ok, require_ok, pure_ok] at taken
    obtain ⟨_, ⟨_, _, rfl⟩, rfl⟩ := taken
    exact ⟨still rfl, .quiet (.same rfl rfl rfl)⟩
  | entrySource key =>
    simp only [step, entrySource, bind_ok, require_ok, ite_ok, pure_ok] at taken
    obtain ⟨_, _, ⟨_, _, _, rfl⟩ | ⟨_, rfl⟩⟩ := taken
    · exact ⟨still rfl, .quiet (.set rfl rfl rfl rfl)⟩
    · exact ⟨still rfl, .quiet (.refl _)⟩
  | sealDesk key =>
    simp only [step, sealDesk, bind_ok, require_ok, pure_ok] at taken
    obtain ⟨_, _, _, _, pulled, taken, _, _, rfl⟩ := taken
    obtain ⟨cards, _, keeps⟩ := pull_keeps taken
    have marked : Keeps s.store (s.store.setStream key { s.store.streams key with streamSealed := true }) :=
      .set rfl rfl rfl rfl
    exact ⟨still cards, .quiet (marked.trans keeps)⟩
  | syncPurchased key entryId =>
    simp only [step, syncPurchased, bind_ok, require_ok, pure_ok] at taken
    obtain ⟨_, _, _, _, _, _, _, _, _, _, rfl⟩ := taken
    exact ⟨still rfl, .quiet (.set rfl rfl rfl rfl)⟩
  | configureProtocolStaking staking =>
    simp only [step, State.wired, configureProtocolStaking, bind_ok, require_ok, pure_ok] at taken
    obtain ⟨_, ⟨_, _, rfl⟩, rfl⟩ := taken
    exact ⟨still rfl, .quiet (.same rfl rfl rfl)⟩
  | fundProtocolDeskBudget key =>
    simp only [step, fundProtocolDeskBudget, bind_ok, require_ok] at taken
    obtain ⟨_, _, taken⟩ := taken
    obtain ⟨cards, keeps⟩ := fundProtocol_keeps taken
    exact ⟨still cards, .quiet keeps⟩
  | forwardProtocolDesk key =>
    simp only [step, forwardProtocolDesk, bind_ok, require_ok] at taken
    obtain ⟨_, _, taken⟩ := taken
    obtain ⟨cards, keeps⟩ := fundProtocol_keeps taken
    exact ⟨still cards, .quiet keeps⟩
  | onFeeCredit source asset kind amount =>
    simp only [step, onFeeCredit, bind_ok, require_ok] at taken
    obtain ⟨_, _, _, _, taken⟩ := taken
    exact ⟨still (credit_ok taken).1, .credited taken (.refl _)⟩
  | receive =>
    obtain ⟨cards, turn⟩ := receiveNative_turn taken
    exact ⟨still cards, turn⟩

end Solonpad.Desk
