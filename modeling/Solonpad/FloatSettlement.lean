import Solonpad.FloatFits

/-!
Every call and every message keeps what the ids and the wire fit by.
-/

namespace Solonpad.FloatRoute

open Checked CctpV2 Transition RunningTotal

variable {c : Config} {s after : State} {now id index : Nat}

/-- Calls of the rebalancer that change one record: the leg, the receiver and the coverage stay. -/
theorem Sound.record (sound : Sound c s) (id : Id)
    (records : ∀ other, other ≠ id → after.rebalancer.rebalances other = s.rebalancer.rebalances other)
    (adapter : after.adapter = s.adapter) (receiver : after.receiver = s.receiver)
    (fits : FloatRoute.Fits (after.rebalancer.rebalances id) (s.adapter.legs id) (s.receiver.received id))
    (others : ∀ message, after.wire message → message.id ≠ id → s.wire message)
    (own : ∀ message, after.wire message → message.id = id →
      message.Fits c (after.rebalancer.rebalances id) (s.adapter.legs id) (s.receiver.received id))
    (reports : (after.receipts.map Receipt.id).Nodup) (comebacks : (after.returns.map Parsed.hookData).Nodup)
    (moved : after.rebalancer.inFlight + flying (s.rebalancer.rebalances id) =
      s.rebalancer.inFlight + flying (after.rebalancer.rebalances id)) : Sound c after where
  toTracked := by
    refine sound.toTracked.change id records (fun _ _ => by rw [adapter]) (fun _ _ => by rw [receiver]) ?_
      others ?_ reports comebacks ?_
    · rw [adapter, receiver]
      exact fits
    · rw [adapter, receiver]
      exact own
    · rw [receiver]
      exact sound.credits
  flight := by
    refine sound.flight.moved id (fun other apart => ?_) moved
    rw [records other apart]
  usdc := adapter ▸ sound.usdc
  usdg := adapter ▸ sound.usdg

/-- Calls of the adapter that change one leg. -/
theorem Sound.leg (sound : Sound c s) (id : Id) (rebalancer : after.rebalancer = s.rebalancer)
    (legs : ∀ other, other ≠ id → after.adapter.legs other = s.adapter.legs other)
    (receiver : after.receiver = s.receiver)
    (fits : FloatRoute.Fits (s.rebalancer.rebalances id) (after.adapter.legs id) (s.receiver.received id))
    (others : ∀ message, after.wire message → message.id ≠ id → s.wire message)
    (own : ∀ message, after.wire message → message.id = id →
      message.Fits c (s.rebalancer.rebalances id) (after.adapter.legs id) (s.receiver.received id))
    (receipts : after.receipts = s.receipts) (comebacks : (after.returns.map Parsed.hookData).Nodup)
    (usdc : s.adapter.usdc + holdsUsdc (after.adapter.legs id) ≤
      after.adapter.usdc + holdsUsdc (s.adapter.legs id))
    (usdg : s.adapter.usdg + holdsUsdg (after.adapter.legs id) ≤
      after.adapter.usdg + holdsUsdg (s.adapter.legs id)) : Sound c after where
  toTracked := by
    refine sound.toTracked.change id (fun _ _ => by rw [rebalancer]) legs (fun _ _ => by rw [receiver]) ?_
      others ?_ (receipts ▸ sound.reports) comebacks ?_
    · rw [rebalancer, receiver]
      exact fits
    · rw [rebalancer, receiver]
      exact own
    · rw [receiver]
      exact sound.credits
  flight := rebalancer ▸ sound.flight
  usdc := covered_change sound.usdc id (fun other apart => by rw [legs other apart]) usdc
  usdg := covered_change sound.usdg id (fun other apart => by rw [legs other apart]) usdg

theorem start_sound {q : FloatRebalancer.StartQuote} {signed : Bool}
    (done : step c s (.start now q signed) = .ok after) (sound : Sound c s) : Sound c after := by
  unfold step at done
  simp only [FloatRebalancer.start, bind_ok, require_ok, pure_ok, Prod.exists, Prod.mk.injEq] at done
  obtain ⟨rebalancer, hook, ⟨_, _, _, valid, _, _, rfl, rfl⟩, rfl⟩ := done
  have blank : (s.rebalancer.rebalances q.id).state = .none := by
    by_contra some
    exact valid (.inr (.inr (.inr (.inr (.inr (.inr (.inl some)))))))
  have priced : q.minUSDG ≠ 0 := fun zero => valid (.inr (.inr (.inl zero)))
  have fits := sound.each q.id
  obtain ⟨leg, nothing⟩ := fits.fresh blank
  refine sound.record q.id (fun other apart => ?_) rfl rfl ?_ ?_ ?_ sound.reports sound.comebacks ?_
  · simp only [FloatRebalancer.State.set, Function.update_of_ne apart]
  · simp only [FloatRebalancer.State.set, Function.update_self]
    exact ⟨fun _ => priced, fun some => absurd leg some, fits.unconverted, fits.converted,
      fun some => absurd nothing some, nofun, nofun⟩
  · intro message member apart
    cases message with
    | burn m =>
      rcases List.mem_append.mp member with old | new
      · exact old
      · exact absurd (congrArg (fun m => m.hookData.id) (List.mem_singleton.mp new)) apart
    | _ => exact member
  · intro message member same
    simp only [FloatRebalancer.State.set, Function.update_self]
    have unknown : ¬ s.wire message := by
      intro old
      have said := sound.wire message old
      rw [same] at said
      exact said.started fits blank
    cases message with
    | burn m =>
      rcases List.mem_append.mp member with old | new
      · exact absurd old unknown
      · rw [List.mem_singleton.mp new]
        exact ⟨nofun, rfl, rfl⟩
    | _ => exact absurd member unknown
  · simp only [FloatRebalancer.State.set, Function.update_self, flying, Live, blank]
    simp

theorem expire_sound (done : step c s (.expire now id) = .ok after) (sound : Sound c s) : Sound c after := by
  unfold step at done
  simp only [FloatRebalancer.expire, bind_ok, require_ok, pure_ok] at done
  obtain ⟨_, ⟨_, late, rfl⟩, rfl⟩ := done
  have sent : (s.rebalancer.rebalances id).state = .sent := by
    by_contra other
    exact late (.inl other)
  have fits := sound.each id
  have started : (s.rebalancer.rebalances id).state ≠ .none := Live.started (.inl sent)
  refine sound.record id (fun other apart => ?_) rfl rfl ?_ (fun _ member _ => member) ?_ sound.reports
    sound.comebacks ?_
  · simp only [FloatRebalancer.State.set, Function.update_of_ne apart]
  · simp only [FloatRebalancer.State.set, Function.update_self]
    exact ⟨fun _ => fits.priced started, fun some => ⟨nofun, (fits.legged some).2⟩, fits.unconverted,
      fits.converted, fits.passed, nofun, nofun⟩
  · intro message member same
    simp only [FloatRebalancer.State.set, Function.update_self]
    have said := sound.wire message member
    rw [same] at said
    exact said.record nofun rfl rfl (fun _ => .inr rfl)
  · simp only [FloatRebalancer.State.set, Function.update_self]
    rw [flying_open (.inl sent), flying_open (.inr rfl)]

/-- A return finds its rebalance open, and what comes back is what was sent. -/
theorem receiveReturn_sound (done : step c s (.receiveReturn index) = .ok after) (sound : Sound c s) :
    Sound c after := by
  unfold step at done
  simp only [FloatRebalancer.receiveReturn, bind_ok, require_ok, pure_ok, sub_ok, Prod.exists, taken_ok]
    at done
  obtain ⟨message, _, ⟨found, rfl⟩, _, ⟨_, _, _, _, _, _, _, ⟨_, rfl⟩, _,
    ⟨within, rfl⟩, rfl⟩, rfl⟩ := done
  have fits := sound.each message.hookData
  have said := sound.wire (.comeback message) (List.mem_of_getElem? found)
  simp only [Message.id] at said
  obtain ⟨kept, live, whole, _⟩ := said
  have arrived : ∀ other : Message, State.wire { s with returns := s.returns.eraseIdx index } other →
      s.wire other := by
    intro other left
    cases other with
    | comeback m => exact List.mem_of_mem_eraseIdx left
    | _ => exact left
  refine sound.record message.hookData (fun other apart => ?_) rfl rfl ?_ (fun other left _ => arrived other left)
    ?_ sound.reports (erased_nodup sound.comebacks index) ?_
  · simp only [FloatRebalancer.State.set, Function.update_of_ne apart]
  · simp only [FloatRebalancer.State.set, Function.update_self]
    refine ⟨fun _ => fits.priced live.started, fun some => ⟨nofun, (fits.legged some).2⟩, fits.unconverted,
      fits.converted, fits.passed, nofun, fun _ => ⟨kept, ?_⟩⟩
    -- The units that the message adds are its amount, whatever tail the balance has.
    have units : 0 < FloatRebalancer.unit := by decide
    simp only [FloatRebalancer.State.usdc, Nat.add_mul_div_right _ _ units, Nat.add_sub_cancel_left]
    exact whole
  · intro other left same
    simp only [FloatRebalancer.State.set, Function.update_self]
    have said := sound.wire other (arrived other left)
    rw [same] at said
    refine said.record nofun rfl rfl (fun ends => ?_)
    cases other with
    | receipt m => exact absurd (fits.silent kept) said.2.1
    | comeback m => exact absurd same (erased_apart sound.comebacks found left)
    | _ => exact ends.elim
  · simp only [FloatRebalancer.State.set, Function.update_self]
    rw [flying_open live, flying_ended (.inr rfl)]
    omega

/-- A report finds its rebalance open, and nothing is on its way back for it. -/
theorem lzReceive_sound (done : step c s (.lzReceive index) = .ok after) (sound : Sound c s) : Sound c after := by
  unfold step at done
  simp only [FloatRebalancer.lzReceive, bind_ok, require_ok, pure_ok, sub_ok, Prod.exists, taken_ok]
    at done
  obtain ⟨message, _, ⟨found, rfl⟩, _, ⟨_, _, _, _, _, ⟨within, rfl⟩, rfl⟩, rfl⟩ := done
  have fits := sound.each message.id
  have said := sound.wire (.receipt message) (List.mem_of_getElem? found)
  simp only [Message.id] at said
  obtain ⟨reported, some, live⟩ := said
  have arrived : ∀ other : Message, State.wire { s with receipts := s.receipts.eraseIdx index } other →
      s.wire other := by
    intro other left
    cases other with
    | receipt m => exact List.mem_of_mem_eraseIdx left
    | _ => exact left
  refine sound.record message.id (fun other apart => ?_) rfl rfl ?_ (fun other left _ => arrived other left)
    ?_ (erased_nodup sound.reports index) sound.comebacks ?_
  · simp only [FloatRebalancer.State.set, Function.update_of_ne apart]
  · simp only [FloatRebalancer.State.set, Function.update_self]
    exact ⟨fun _ => fits.priced live.started, fun some => ⟨nofun, (fits.legged some).2⟩, fits.unconverted,
      fits.converted, fits.passed, fun _ => ⟨reported, some⟩, nofun⟩
  · intro other left same
    simp only [FloatRebalancer.State.set, Function.update_self]
    have said := sound.wire other (arrived other left)
    rw [same] at said
    refine said.record nofun rfl rfl (fun ends => ?_)
    cases other with
    | receipt m => exact absurd same (erased_apart sound.reports found left)
    | comeback m => exact absurd (fits.silent said.1) some
    | _ => exact ends.elim
  · simp only [FloatRebalancer.State.set, Function.update_self]
    rw [flying_open live, flying_ended (.inl rfl)]
    omega

theorem attest_sound (done : step c s (.attest index) = .ok after) (sound : Sound c s) : Sound c after := by
  unfold step at done
  simp only [FloatAdapter.attest, bind_ok, require_ok, pure_ok, sub_ok, Prod.exists, taken_ok] at done
  obtain ⟨message, _, ⟨found, rfl⟩, _, ⟨_, _, _, genuine, _, fresh, got, ⟨_, rfl⟩, rfl⟩, rfl⟩ := done
  have own : message.mintRecipient = c.adapter.self := by
    by_contra other
    exact genuine (.inr (.inr (.inr other)))
  have blank : (s.adapter.legs message.hookData.id).state = .none := by
    by_contra some
    exact fresh (.inl some)
  have fits := sound.each message.hookData.id
  have said := sound.wire (.burn message) (List.mem_of_getElem? found)
  simp only [Message.id] at said
  obtain ⟨started, whole, minimum⟩ := said
  have silent : s.receiver.received message.hookData.id = 0 := by
    by_contra some
    have bridging := (fits.passed some).1
    rw [blank] at bridging
    cases bridging
  have arrived : ∀ other : Message, State.wire { s with burns := s.burns.eraseIdx index } other →
      s.wire other := by
    intro other left
    cases other with
    | burn m => exact List.mem_of_mem_eraseIdx left
    | _ => exact left
  refine sound.leg message.hookData.id rfl (fun other apart => ?_) rfl ?_ (fun other left _ => arrived other left)
    ?_ rfl sound.comebacks ?_ ?_
  · simp only [FloatAdapter.State.set, Function.update_of_ne apart]
  · simp only [FloatAdapter.State.set, Function.update_self, if_pos own, Nat.add_sub_cancel_left]
    refine ⟨fits.priced, fun _ => ⟨started, whole.symm, minimum.symm⟩, fun _ => rfl, nofun,
      fun some => absurd silent some, fits.finalized, fun state => ?_⟩
    have back := (fits.returned state).1
    rw [blank] at back
    cases back
  · intro other left same
    have said := sound.wire other (arrived other left)
    rw [same] at said
    exact said.leg (by rw [blank]; nofun) (by rw [blank]; nofun)
  · simp only [FloatAdapter.State.set, Function.update_self, holdsUsdc, blank]
    omega
  · simp only [FloatAdapter.State.set, Function.update_self, holdsUsdg, blank]
    omega

theorem convert_sound {q : FloatAdapter.ConvertQuote} {signed : Bool} {conversion : Option FloatAdapter.Conversion}
    (done : step c s (.convert now q signed conversion) = .ok after) (sound : Sound c s) : Sound c after := by
  unfold step at done
  simp only [FloatAdapter.convert, bind_ok, require_ok, pure_ok] at done
  obtain ⟨_, ⟨_, attested, _, _, _, priced, _, _, done⟩, rfl⟩ := done
  cases conversion with
  | none => cases done
  | some conversion =>
    simp only [bind_ok, require_ok, pure_ok] at done
    obtain ⟨_, ⟨approved, held⟩, _, enough, rfl⟩ := done
    have fits := sound.each q.id
    have unbridged : (s.adapter.legs q.id).state ≠ .bridging := by rw [attested]; nofun
    have kept : (s.adapter.legs q.id).state ≠ .returned := by rw [attested]; nofun
    obtain ⟨started, whole, minimum⟩ := fits.legged (by rw [attested]; nofun)
    obtain ⟨silent, live⟩ := fits.running (by rw [attested]; nofun) unbridged kept
    have some : conversion.out ≠ 0 := by
      have := fits.priced started
      omega
    refine sound.leg q.id rfl (fun other apart => ?_) rfl ?_ (fun _ left _ => left) ?_ rfl sound.comebacks ?_ ?_
    · simp only [FloatAdapter.State.set, Function.update_of_ne apart]
    · simp only [FloatAdapter.State.set, Function.update_self]
      exact ⟨fits.priced, fun _ => ⟨started, whole, minimum⟩, nofun, fun _ => some,
        fun passed => absurd silent passed, fits.finalized, fun state => absurd state live.unreturned⟩
    · intro other left same
      have said := sound.wire other left
      rw [same] at said
      exact said.leg unbridged kept
    · simp only [FloatAdapter.State.set, Function.update_self, holdsUsdc, attested]
      omega
    · simp only [FloatAdapter.State.set, Function.update_self, holdsUsdg, attested]
      omega

theorem bridge_sound {sending : Option FloatAdapter.Sending}
    (done : step c s (.bridge now id sending) = .ok after) (sound : Sound c s) : Sound c after := by
  unfold step at done
  simp only [FloatAdapter.bridge, bind_ok, require_ok, pure_ok, Prod.exists] at done
  obtain ⟨_, message, ⟨_, ready, _, _, done⟩, rfl⟩ := done
  cases sending with
  | none => cases done
  | some sending =>
    simp only [bind_ok, require_ok, pure_ok, Prod.mk.injEq] at done
    obtain ⟨_, ⟨within, held⟩, _, enough, rfl, rfl⟩ := done
    have converted : (s.adapter.legs id).state = .converted := by
      by_contra other
      exact ready (.inl other)
    have fits := sound.each id
    have unbridged : (s.adapter.legs id).state ≠ .bridging := by rw [converted]; nofun
    have kept : (s.adapter.legs id).state ≠ .returned := by rw [converted]; nofun
    obtain ⟨started, whole, minimum⟩ := fits.legged (by rw [converted]; nofun)
    obtain ⟨silent, live⟩ := fits.running (by rw [converted]; nofun) unbridged kept
    refine sound.leg id rfl (fun other apart => ?_) rfl ?_ ?_ ?_ rfl sound.comebacks ?_ ?_
    · simp only [FloatAdapter.State.set, Function.update_of_ne apart]
    · simp only [FloatAdapter.State.set, Function.update_self]
      exact ⟨fits.priced, fun _ => ⟨started, whole, minimum⟩, nofun, nofun,
        fun passed => absurd silent passed, fits.finalized, fun state => absurd state live.unreturned⟩
    · intro other left apart
      cases other with
      | transfer m =>
        rcases List.mem_append.mp left with old | new
        · exact old
        · exact absurd (congrArg Compose.id (List.mem_singleton.mp new)) apart
      | _ => exact left
    · intro other left same
      have passed : s.wire other → other.Fits c (s.rebalancer.rebalances id)
          { s.adapter.legs id with guid := sending.guid, state := .bridging } (s.receiver.received id) := by
        intro old
        have said := sound.wire other old
        rw [same] at said
        exact said.leg unbridged kept
      simp only [FloatAdapter.State.set, Function.update_self]
      cases other with
      | transfer m =>
        rcases List.mem_append.mp left with old | new
        · exact passed old
        · rw [List.mem_singleton.mp new]
          refine ⟨rfl, ?_⟩
          simp only
          omega
      | _ => exact passed left
    · simp only [FloatAdapter.State.set, Function.update_self, holdsUsdc, converted]
      omega
    · simp only [FloatAdapter.State.set, Function.update_self, holdsUsdg, converted]
      omega

theorem expireLeg_sound (done : step c s (.expireLeg now id) = .ok after) (sound : Sound c s) : Sound c after := by
  unfold step at done
  simp only [FloatAdapter.expire, bind_ok, require_ok, pure_ok] at done
  obtain ⟨_, ⟨_, late, rfl⟩, rfl⟩ := done
  have waiting : (s.adapter.legs id).state = .attested ∨ (s.adapter.legs id).state = .converted := by
    by_contra other
    exact late (.inl (not_or.mp other))
  have begun : (s.adapter.legs id).state ≠ .none := by rcases waiting with state | state <;> rw [state] <;> nofun
  have unbridged : (s.adapter.legs id).state ≠ .bridging := by
    rcases waiting with state | state <;> rw [state] <;> nofun
  have kept : (s.adapter.legs id).state ≠ .returned := by
    rcases waiting with state | state <;> rw [state] <;> nofun
  have fits := sound.each id
  obtain ⟨silent, live⟩ := fits.running begun unbridged kept
  refine sound.leg id rfl (fun other apart => ?_) rfl ?_ (fun _ left _ => left) ?_ rfl sound.comebacks ?_ ?_
  · simp only [FloatAdapter.State.set, Function.update_of_ne apart]
  · simp only [FloatAdapter.State.set, Function.update_self]
    exact ⟨fits.priced, fun _ => fits.legged begun, nofun, nofun, fun passed => absurd silent passed,
      fits.finalized, fun state => absurd state live.unreturned⟩
  · intro other left same
    have said := sound.wire other left
    rw [same] at said
    exact said.leg unbridged kept
  · simp only [FloatAdapter.State.set, Function.update_self, holdsUsdc]
    rcases waiting with state | state
    · simp only [state, fits.unconverted state, if_pos]
      omega
    · simp only [state, if_neg (fits.converted state)]
      omega
  · simp only [FloatAdapter.State.set, Function.update_self, holdsUsdg]
    rcases waiting with state | state
    · simp only [state, fits.unconverted state]
      omega
    · simp only [state]
      omega

theorem returnToArc_sound (done : step c s (.returnToArc id) = .ok after) (sound : Sound c s) : Sound c after := by
  unfold step at done
  simp only [FloatAdapter.returnToArc, bind_ok, require_ok, pure_ok, Prod.exists, Prod.mk.injEq] at done
  obtain ⟨_, _, ⟨_, ready, _, held, rfl, rfl⟩, rfl⟩ := done
  have stopped : (s.adapter.legs id).state = .quarantined := by
    by_contra other
    exact ready (.inl other)
  have plain : (s.adapter.legs id).usdg = 0 := by
    by_contra some
    exact ready (.inr some)
  have begun : (s.adapter.legs id).state ≠ .none := by rw [stopped]; nofun
  have unbridged : (s.adapter.legs id).state ≠ .bridging := by rw [stopped]; nofun
  have kept : (s.adapter.legs id).state ≠ .returned := by rw [stopped]; nofun
  have fits := sound.each id
  obtain ⟨silent, live⟩ := fits.running begun unbridged kept
  have unsent : ∀ m ∈ s.returns, m.hookData ≠ id := by
    intro m member same
    have said := sound.wire (.comeback m) member
    simp only [Message.id, same] at said
    exact kept said.1
  refine sound.leg id rfl (fun other apart => ?_) rfl ?_ ?_ ?_ rfl ?_ ?_ ?_
  · simp only [FloatAdapter.State.set, Function.update_of_ne apart]
  · simp only [FloatAdapter.State.set, Function.update_self]
    exact ⟨fits.priced, fun _ => fits.legged begun, nofun, nofun, fun passed => absurd silent passed,
      fits.finalized, fun state => absurd state live.unreturned⟩
  · intro other left apart
    cases other with
    | comeback m =>
      rcases List.mem_append.mp left with old | new
      · exact old
      · exact absurd (congrArg Parsed.hookData (List.mem_singleton.mp new)) apart
    | _ => exact left
  · intro other left same
    have passed : s.wire other → other.Fits c (s.rebalancer.rebalances id)
        { s.adapter.legs id with state := .returned } (s.receiver.received id) := by
      intro old
      have said := sound.wire other old
      rw [same] at said
      exact said.leg unbridged kept
    simp only [FloatAdapter.State.set, Function.update_self]
    cases other with
    | comeback m =>
      rcases List.mem_append.mp left with old | new
      · exact passed old
      · rw [List.mem_singleton.mp new]
        exact ⟨rfl, live, (fits.legged begun).2.1, rfl⟩
    | _ => exact passed left
  · rw [List.map_append, List.nodup_append]
    refine ⟨sound.comebacks, List.nodup_singleton _, ?_⟩
    rintro _ member _ new rfl
    obtain ⟨m, there, same⟩ := List.mem_map.mp member
    exact unsent m there (same.trans (List.mem_singleton.mp new))
  · simp only [FloatAdapter.State.set, Function.update_self, holdsUsdc, stopped, if_pos plain]
    omega
  · simp only [FloatAdapter.State.set, Function.update_self, holdsUsdg, stopped, plain]
    omega

theorem credit_sound (done : step c s (.credit index) = .ok after) (sound : Sound c s) : Sound c after := by
  unfold step at done
  simp only [bind_ok, pure_ok, Prod.exists, taken_ok] at done
  obtain ⟨message, _, ⟨found, rfl⟩, rfl⟩ := done
  have arrived := List.mem_of_getElem? found
  have fitted := sound.wire (.transfer message) arrived
  refine ⟨⟨sound.each, ?_, sound.reports, sound.comebacks, sound.credits⟩, sound.flight, sound.usdc, sound.usdg⟩
  intro other left
  cases other with
  | transfer m => exact sound.wire (.transfer m) (List.mem_of_mem_eraseIdx left)
  | compose m =>
    rcases List.mem_append.mp left with old | new
    · exact sound.wire (.compose m) old
    · rw [List.mem_singleton.mp new]
      exact fitted
  | burn m => exact sound.wire (.burn m) left
  | receipt m => exact sound.wire (.receipt m) left
  | comeback m => exact sound.wire (.comeback m) left

/-- The receiver passes money on once for an id, and its report is the only one. -/
theorem lzCompose_sound {fee : Nat} (done : step c s (.lzCompose index fee) = .ok after) (sound : Sound c s) :
    Sound c after := by
  unfold step at done
  simp only [FloatReceiver.lzCompose, bind_ok, require_ok, pure_ok, Prod.exists, taken_ok, Prod.mk.injEq]
    at done
  obtain ⟨message, _, ⟨found, rfl⟩, _, _, ⟨_, _, _, _, _, fresh, _, _, _, _, rfl, rfl⟩, rfl⟩ := done
  have fits := sound.each message.id
  have said := sound.wire (.compose message) (List.mem_of_getElem? found)
  simp only [Message.id] at said
  obtain ⟨bridging, enough⟩ := said
  have silent : s.receiver.received message.id = 0 := by
    by_contra some
    exact fresh (.inr some)
  have live := fits.bridged bridging silent
  have some : message.amount ≠ 0 := by
    have := fits.priced live.started
    omega
  have unreported : ∀ m ∈ s.receipts, m.id ≠ message.id := by
    intro m member same
    have said := sound.wire (.receipt m) member
    simp only [Message.id, same] at said
    exact said.2.1 silent
  refine ⟨sound.toTracked.change message.id (fun _ _ => rfl) (fun _ _ => rfl)
    (fun other apart => Function.update_of_ne apart _ _) ?_ ?_ ?_ ?_ sound.comebacks ?_, sound.flight, sound.usdc,
    sound.usdg⟩
  · simp only [Function.update_self]
    exact ⟨fits.priced, fits.legged, fits.unconverted, fits.converted, fun _ => ⟨bridging, enough⟩,
      fun state => absurd state live.unfinalized, fits.returned⟩
  · intro other left apart
    cases other with
    | receipt m =>
      rcases List.mem_append.mp left with old | new
      · exact old
      · exact absurd (congrArg Receipt.id (List.mem_singleton.mp new)) apart
    | compose m => exact List.mem_of_mem_eraseIdx left
    | _ => exact left
  · intro other left same
    simp only [Function.update_self]
    cases other with
    | receipt m =>
      rcases List.mem_append.mp left with old | new
      · exact absurd same (unreported m old)
      · rw [List.mem_singleton.mp new]
        exact ⟨rfl, some, live⟩
    | comeback m =>
      have said := sound.wire (.comeback m) left
      rw [same, Message.Fits, bridging] at said
      cases said.1
    | burn m =>
      have said := sound.wire (.burn m) left
      rw [same] at said
      exact said
    | transfer m =>
      have said := sound.wire (.transfer m) left
      rw [same] at said
      exact said
    | compose m =>
      have said := sound.wire (.compose m) (List.mem_of_mem_eraseIdx left)
      rw [same] at said
      exact said
  · rw [List.map_append, List.nodup_append]
    refine ⟨sound.reports, List.nodup_singleton _, ?_⟩
    rintro _ member _ new rfl
    obtain ⟨m, there, same⟩ := List.mem_map.mp member
    exact unreported m there (same.trans (List.mem_singleton.mp new))
  · intro id
    have before := sound.credits id
    simp only [List.filter_append, before]
    by_cases same : id = message.id
    · subst same
      rw [if_pos silent, Function.update_self, if_neg some]
      simp
    · have apart : message.id ≠ id := fun eq => same eq.symm
      simp [Function.update_of_ne same, apart]

/-- Calls and gifts that are about no rebalance. -/
def Action.Idle : Action → Prop
  | .proposeEnable .. | .enable .. | .disable .. | .sweepDust .. | .setReceiver .. | .donate .. => True
  | _ => False

/-- What such a call leaves as it was, and that it takes nothing from the adapter. -/
structure Kept (s after : State) : Prop where
  rebalances : after.rebalancer.rebalances = s.rebalancer.rebalances
  inFlight : after.rebalancer.inFlight = s.rebalancer.inFlight
  legs : after.adapter.legs = s.adapter.legs
  received : after.receiver.received = s.receiver.received
  credits : after.receiver.credits = s.receiver.credits
  wire : after.wire = s.wire
  receipts : after.receipts = s.receipts
  returns : after.returns = s.returns
  usdc : s.adapter.usdc ≤ after.adapter.usdc
  usdg : s.adapter.usdg ≤ after.adapter.usdg

theorem idle_kept {action : Action} (done : step c s action = .ok after) (idle : action.Idle) : Kept s after := by
  cases action with
  | proposeEnable sender now =>
    unfold step at done
    simp only [FloatRebalancer.proposeEnable, bind_ok, require_ok, pure_ok] at done
    obtain ⟨_, ⟨_, _, rfl⟩, rfl⟩ := done
    exact ⟨rfl, rfl, rfl, rfl, rfl, rfl, rfl, rfl, Nat.le_refl _, Nat.le_refl _⟩
  | enable sender now =>
    unfold step at done
    simp only [FloatRebalancer.enable, bind_ok, require_ok, pure_ok] at done
    obtain ⟨_, ⟨_, _, _, _, rfl⟩, rfl⟩ := done
    exact ⟨rfl, rfl, rfl, rfl, rfl, rfl, rfl, rfl, Nat.le_refl _, Nat.le_refl _⟩
  | disable sender =>
    unfold step at done
    simp only [FloatRebalancer.disable, bind_ok, require_ok, pure_ok] at done
    obtain ⟨_, ⟨_, _, rfl⟩, rfl⟩ := done
    exact ⟨rfl, rfl, rfl, rfl, rfl, rfl, rfl, rfl, Nat.le_refl _, Nat.le_refl _⟩
  | sweepDust sender paid =>
    unfold step at done
    simp only [FloatRebalancer.sweepDust, bind_ok, require_ok, ite_ok, pure_ok] at done
    obtain ⟨_, ⟨_, _, ⟨_, rfl⟩ | ⟨_, _, _, rfl⟩⟩, rfl⟩ := done
    all_goals exact ⟨rfl, rfl, rfl, rfl, rfl, rfl, rfl, rfl, Nat.le_refl _, Nat.le_refl _⟩
  | setReceiver sender receiver =>
    unfold step at done
    simp only [FloatAdapter.setReceiver, bind_ok, require_ok, pure_ok] at done
    obtain ⟨_, ⟨_, _, _, _, rfl⟩, rfl⟩ := done
    exact ⟨rfl, rfl, rfl, rfl, rfl, rfl, rfl, rfl, Nat.le_refl _, Nat.le_refl _⟩
  | donate balance adapterUsdc adapterUsdg receiverUsdg coins =>
    cases done
    exact ⟨rfl, rfl, rfl, rfl, rfl, rfl, rfl, rfl, Nat.le_add_right _ _, Nat.le_add_right _ _⟩
  | _ => exact idle.elim

theorem idle_sound (kept : Kept s after) (sound : Sound c s) : Sound c after where
  each := by
    rw [kept.rebalances, kept.legs, kept.received]
    exact sound.each
  wire := by
    rw [kept.wire, kept.rebalances, kept.legs, kept.received]
    exact sound.wire
  reports := kept.receipts ▸ sound.reports
  comebacks := kept.returns ▸ sound.comebacks
  credits := by
    rw [kept.credits, kept.received]
    exact sound.credits
  flight := by
    rw [kept.rebalances, kept.inFlight]
    exact sound.flight
  usdc := by
    rw [kept.legs]
    exact sound.usdc.imp fun _ covered => ⟨covered.1, covered.2.trans kept.usdc⟩
  usdg := by
    rw [kept.legs]
    exact sound.usdg.imp fun _ covered => ⟨covered.1, covered.2.trans kept.usdg⟩

theorem step_sound {action : Action} (done : step c s action = .ok after) (sound : Sound c s) : Sound c after := by
  cases action with
  | start => exact start_sound done sound
  | expire => exact expire_sound done sound
  | receiveReturn => exact receiveReturn_sound done sound
  | lzReceive => exact lzReceive_sound done sound
  | attest => exact attest_sound done sound
  | convert => exact convert_sound done sound
  | bridge => exact bridge_sound done sound
  | expireLeg => exact expireLeg_sound done sound
  | returnToArc => exact returnToArc_sound done sound
  | credit => exact credit_sound done sound
  | lzCompose => exact lzCompose_sound done sound
  | _ => exact idle_sound (idle_kept done trivial) sound

end Solonpad.FloatRoute
