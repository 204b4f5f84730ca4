import QuorumRelay.Proofs.Admission
import QuorumRelay.Proofs.Credits
import QuorumRelay.Proofs.Inbound.Rejected

/-!
# What one message is accepted for

`Inbound.acceptance` is the list of everything that is asked of a submission, in
the order in which it is looked at, each with the reason for which it is refused.
`Inbound.process_exactly` says that executing a message goes by this list and by
nothing else, and names the records that it leaves: the submission is executed
exactly if all conditions hold, it fails for the first that does not, and a
failure leaves everything as it was.

The list names no step of the program.  The count of a rate window, the relayers
that back a digest, the slot that is paid are said in terms of the records.

## The last condition

The last thing that can fail is not a check but a payment: the reward has to fit
into what the submitter has earned.  It is paid in the lowest slot that the
submitter owns.  The program names that slot by eight bits, which is the slot
itself on a roster with no more slots than a roster can have.
-/

namespace QuorumRelay

open Condition

namespace Roster

variable {r r' : Roster} {owner : Key} {n : Nat} {e : Relayer} {reward : Amount}

/-- The lowest slot of an owner. -/
def seatOf? (r : Roster) (owner : Key) : Option Nat :=
  r.slots.findIdx? fun slot => slot.any fun e => e.owner = owner

/-- The roster with a reward in the lowest slot of an owner, if there is one. -/
def rewarded (r : Roster) (owner : Key) (reward : Amount) : Roster :=
  match r.seatOf? owner with
  | none => r
  | some n => { r with
      slots := r.slots.modify n (Option.map fun e => { e with earned := e.earned + reward }) }

/-- In the lowest slot of an owner sits a relayer, and it is among the slots there are. -/
theorem exists_seated_of_seatOf? (h : r.seatOf? owner = some n) :
    n < r.slots.length ∧ ∃ e, r.Seated n e := by
  obtain ⟨hlt, hany, -⟩ := List.findIdx?_eq_some_iff_getElem.1 h
  obtain ⟨hsome, -⟩ := (Option.any_eq_true_iff_get _ _).1 hany
  refine ⟨hlt, r.slots[n].get hsome, ?_⟩
  rw [Seated, List.getElem?_eq_getElem hlt, Option.some_get]

theorem indexOfOwner_eq (r : Roster) (owner : Key) :
    r.indexOfOwner owner = (r.seatOf? owner).map UInt8.ofNat := rfl

/-- The roster with a reward for the relayer in the lowest slot. -/
theorem rewarded_of_seated (h : r.seatOf? owner = some n) (he : r.Seated n e) :
    r.rewarded owner reward = r.setSlot n (some { e with earned := e.earned + reward }) := by
  have hslot : r.slots[n]? = some (some e) := he
  unfold rewarded setSlot
  simp only [h]
  rw [List.modify_eq_set_getElem?, hslot]
  rfl

/-- **A reward is paid exactly where it has room**, and by adding it. -/
theorem gains_iff_rewarded (hslots : r.slots.length ≤ maxRelayers) :
    Gains (r.indexOfOwner owner) reward.toNat r r' ↔
      (∀ n e, r.seatOf? owner = some n → r.Seated n e →
        e.earned.toNat + reward.toNat < UInt64.size) ∧ r' = r.rewarded owner reward := by
  rw [indexOfOwner_eq]
  cases hseat : r.seatOf? owner with
  | none => simp [rewarded, hseat]
  | some n =>
    obtain ⟨hlt, e, he⟩ := exists_seated_of_seatOf? hseat
    have hindex : (UInt8.ofNat n).toNat = n := by
      unfold maxRelayers at hslots
      exact UInt8.toNat_ofNat_of_lt' (by show n < 256; omega)
    have hroom : (∀ n' e', some n = some n' → r.Seated n' e' →
        e'.earned.toNat + reward.toNat < UInt64.size) ↔
          e.earned.toNat + reward.toNat < UInt64.size := by
      constructor
      · exact fun h => h n e rfl he
      · rintro h _ e' ⟨⟩ he'
        exact he.unique he' ▸ h
    rw [hroom, rewarded_of_seated hseat he, Option.map_some]
    by_cases hzero : reward = 0
    · subst hzero
      have hsame : r.setSlot n (some { e with earned := e.earned + 0 }) = r := by
        have hslot : r.slots[n]? = some (some e) := he
        obtain ⟨_, hslot⟩ := List.getElem?_eq_some_iff.1 hslot
        rw [UInt64.add_zero, setSlot, ← hslot, List.set_getElem_self]
      have hearned : e.earned.toNat + (0 : Amount).toNat < UInt64.size := e.earned.toNat_lt
      rw [hsame, UInt64.toNat_zero, gains_zero]
      exact ⟨fun h => ⟨hearned, h⟩, fun h => h.2⟩
    · have hpos : reward.toNat ≠ 0 := fun h => hzero (UInt64.toNat_inj.1 h)
      rw [gains_some hpos, Pays, hindex]
      constructor
      · rintro ⟨e', earned, he', hearned, rfl⟩
        obtain rfl := he'.unique he
        obtain ⟨hfits, rfl⟩ := Amount.eq_add_of_toNat hearned
        exact ⟨hfits, rfl⟩
      · rintro ⟨hfits, rfl⟩
        exact ⟨e, _, he, Amount.toNat_add hfits, rfl⟩

end Roster

/-! ## The shape of a message and its order -/

/-- What is asked of a message by itself. -/
def InboundMessage.conditions (m : InboundMessage) : List Condition :=
  [requires (m.sender ≠ []) .emptySender,
   requires (m.sender.length ≤ maxSenderLength) .senderTooLong]

namespace Inbound

variable {ω : Type} {s : Submission} {executor : Executor ω} {m : InboundMessage}
  {attestations : List Attestation} {st st' : State ω} {o : Outcome} {f : Fault}

/-- The digest of a message, whatever its shape. -/
def Submission.digestOf (s : Submission) (m : InboundMessage) : Digest :=
  keccak256 (Digest.messagePreimage s.bridge.hostChain s.bridge.identity m)

theorem ofMessage_follows : Follows (Digest.ofMessage s.bridge.hostChain s.bridge.identity m)
    m.conditions := by
  unfold Digest.ofMessage InboundMessage.check checkSender
  exact .map (.bind (C := [_]) .require fun _ _ => .require) _

theorem eq_digestOf {d : Digest}
    (h : Digest.ofMessage s.bridge.hostChain s.bridge.identity m = .ok d) : d = s.digestOf m := by
  unfold Digest.ofMessage at h
  simp only [except_bind_eq_ok, except_pure_eq_ok] at h
  obtain ⟨-, -, rfl⟩ := h
  rfl

/-- What strict ordering asks for: a cursor, the right one, and a nonce beyond it. -/
def orderConditions (chain : Chain) (cursor : Option Cursor) (m : InboundMessage) :
    List Condition :=
  let ordered : Prop := chain.limits.strictOrdering = true
  [requires (ordered → cursor ≠ none) .missingSenderCursor,
   requires (ordered → ∀ k, cursor = some k →
      k.sourceChain = m.sourceChain ∧ k.senderKey = Digest.ofSender m.sender)
    .senderCursorMismatch,
   requires (ordered → ∀ k, cursor = some k → ∀ last, k.lastNonce = some last →
      last < m.sourceNonce) .outOfOrder]

theorem checkOrder_follows {chain : Chain} {cursor : Option Cursor} :
    Follows (checkOrder chain cursor m) (orderConditions chain cursor m) := by
  unfold checkOrder orderConditions
  by_cases hordered : chain.limits.strictOrdering = true
  · simp only [hordered, if_true, true_implies]
    cases cursor with
    | none =>
      constructor
      · simp [throw, throwThe, MonadExceptOf.throw]
      · simp [throw, throwThe, MonadExceptOf.throw, eq_comm]
    | some k =>
      have hnonce : Follows (k.checkNonce m.sourceNonce)
          [requires (∀ last, k.lastNonce = some last → last < m.sourceNonce) .outOfOrder] := by
        unfold Cursor.checkNonce
        cases k.lastNonce with
        | none => refine (Follows.pure ()).congr ?_ fun f => ?_ <;> simp
        | some last => simpa using Follows.require
      have hmatches : Follows (k.checkMatches m.sourceChain (Digest.ofSender m.sender))
          [requires (k.sourceChain = m.sourceChain ∧ k.senderKey = Digest.ofSender m.sender)
            .senderCursorMismatch] := .require
      refine (hmatches.bind fun _ _ => hnonce).congr ?_ fun f => ?_ <;> simp
  · simp only [hordered]
    refine (Follows.pure ()).congr ?_ fun f => ?_ <;> simp

/-! ## The whole list -/

/-- What is asked of the roster: the reward has room where it goes. -/
def RewardFits (s : Submission) (r : Roster) : Prop :=
  ∀ n e, r.seatOf? s.submitter = some n → r.Seated n e →
    e.earned.toNat + s.bridge.fees.relayReward.toNat < UInt64.size

/-- What a submission is checked for before anything is written. -/
def checks (s : Submission) (executor : Executor ω) (m : InboundMessage)
    (attestations : List Attestation) (st : State ω) : List Condition :=
  m.conditions ++
  [requires (¬ (st.receipt.processed = true ∧ st.receipt.digest = s.digestOf m))
    .alreadyProcessed,
   requires (st.chain.id = m.sourceChain) .chainMismatch] ++
  st.chain.conditions m.payload.length m.computeBudget ++
  orderConditions st.chain st.cursor m ++
  st.chain.inbound.conditions s.now s.bridge.epochLength st.chain.limits.rateLimit 1 ++
  Quorum.conditions st.roster (s.digestOf m) attestations s.verify ++
  [requires (m.value ≤ s.liquidity) .insufficientLiquidity,
   .passes (executor.prepare m)]

/-- **What a submission has to be like**, in the order in which it is looked at. -/
def acceptance (s : Submission) (executor : Executor ω) (m : InboundMessage)
    (attestations : List Attestation) (st : State ω) : List Condition :=
  checks s executor m attestations st ++ [requires (RewardFits s st.roster) .arithmeticOverflow]

theorem vet_follows : Follows (vet s executor m attestations st)
    (checks s executor m attestations st) := by
  unfold vet
  have hfresh : ∀ d, d = s.digestOf m → Follows
      (require (st.receipt.contains d = false) .alreadyProcessed : Except Fault Unit)
      [requires (¬ (st.receipt.processed = true ∧ st.receipt.digest = s.digestOf m))
        .alreadyProcessed] := by
    rintro _ rfl
    rw [← Receipt.contains_eq_true, Bool.not_eq_true]
    exact .require
  refine .bind (C := [_, _]) ofMessage_follows fun d hd => ?_
  obtain rfl := eq_digestOf hd
  refine .bind (C := [_]) (hfresh _ rfl) fun _ _ => ?_
  refine .bind (C := [_]) .require fun _ _ => ?_
  refine .bind (C := [_]) Chain.checkActive_follows fun _ _ => ?_
  refine .bind (C := [_, _]) Chain.checkLimits_follows fun _ _ => ?_
  refine .bind (C := [_, _, _]) checkOrder_follows fun _ _ => ?_
  refine .bind (C := [_, _]) RateWindow.accept_follows fun window _ => ?_
  refine .bind (C := [_, _, _]) Quorum.check_follows fun _ _ => ?_
  refine .bind (C := [_]) .require fun _ _ => ?_
  exact .map (.check _) _

/-- **One credit is paid exactly if it has room.** -/
theorem creditSubmitter_one_eq_ok {r r' : Roster} {total : Amount}
    (hslots : r.slots.length ≤ maxRelayers) :
    creditSubmitter s 1 r = .ok total r' ↔ RewardFits s r ∧ total = s.rewardOn r ∧
      r' = r.rewarded s.submitter s.bridge.fees.relayReward := by
  rw [creditSubmitter_eq_ok_iff, Credited, Nat.mul_one, Nat.mul_one,
    Roster.gains_iff_rewarded hslots, UInt64.toNat_inj]
  constructor
  · rintro ⟨-, htotal, hfits, hroster⟩
    exact ⟨hfits, htotal, hroster⟩
  · rintro ⟨hfits, htotal, hroster⟩
    exact ⟨UInt64.toNat_lt _, htotal, hfits, hroster⟩

/-- A credit fails for the room alone. -/
theorem creditSubmitter_one_eq_error {r r' : Roster} (hslots : r.slots.length ≤ maxRelayers)
    (h : creditSubmitter s 1 r = .error f r') : f = .refused .arithmeticOverflow := by
  unfold creditSubmitter at h
  rcases lift_bind_eq_error.1 h with ⟨hproduct, -⟩ | ⟨amount, -, h⟩
  · exact (Amount.fit_eq_error_iff.1 hproduct).2
  by_cases hzero : amount = 0
  · simp only [hzero, if_true, pure_ne_error] at h
  simp only [hzero, if_false, get_bind, Roster.indexOfOwner_eq] at h
  cases hseat : r.seatOf? s.submitter with
  | none => simp only [hseat, Option.map_none, pure_ne_error] at h
  | some n =>
    -- the slot that was found has a relayer, so only the sum is left to fail
    obtain ⟨hlt, e, he⟩ := Roster.exists_seated_of_seatOf? hseat
    have hindex : r.relayer (UInt8.ofNat n) = .ok e := by
      unfold maxRelayers at hslots
      rwa [Roster.relayer_eq_ok, UInt8.toNat_ofNat_of_lt' (by show n < 256; omega)]
    simp only [hseat, Option.map_some, bind_eq_error, pure_ne_error, and_false, exists_false,
      or_false] at h
    unfold Roster.credit at h
    simp only [get_bind, lift_bind_eq_error, hindex, set_ne_error, and_false, exists_false,
      or_false, reduceCtorEq, false_and, false_or, Except.ok.injEq, Amount.plus_eq_error] at h
    obtain ⟨_, -, ⟨-, hf⟩, -⟩ := h
    exact hf

/-- **What a credit asks for.** -/
theorem creditSubmitter_one_follows {r : Roster} (hslots : r.slots.length ≤ maxRelayers) :
    Follows ((creditSubmitter s 1).result r)
      [requires (RewardFits s r) .arithmeticOverflow] := by
  refine .single_step ?_ fun f r' h => creditSubmitter_one_eq_error hslots h
  simp only [creditSubmitter_one_eq_ok hslots]
  exact ⟨fun ⟨_, _, h, _⟩ => h, fun h => ⟨_, _, h, rfl, rfl⟩⟩

/-! ## What is left -/

/-- Why a delivery fails, if it does. -/
def failureOf (executor : Executor ω) (digest : Digest) (m : InboundMessage) (w : ω) :
    Option Fault :=
  match (executor.execute digest m).result w with
  | .ok () => none
  | .error f => some f

theorem eq_of_deliver {digest : Digest} {w w' : ω} {failure : Option Fault}
    (h : deliver executor digest m w = .ok failure w') :
    failure = failureOf executor digest m w ∧ w' = (executor.execute digest m).after w := by
  refine ⟨?_, (after_of_deliver h).symm⟩
  unfold failureOf
  rcases deliver_eq_ok.1 h with ⟨hok, rfl⟩ | ⟨e, herror, rfl⟩
  · rw [Action.result_of_ok hok]
  · rw [Action.result_of_error herror]

/-- How an accepted message is reported. -/
def outcomeOf (s : Submission) (executor : Executor ω) (m : InboundMessage) (st : State ω) :
    Outcome where
  digest := s.digestOf m
  sourceChain := m.sourceChain
  sourceNonce := m.sourceNonce
  failure := failureOf executor (s.digestOf m) m st.world
  reward := if (st.roster.seatOf? s.submitter).isSome then s.bridge.fees.relayReward else 0

/-- **The records that an accepted message leaves**: its digest is marked, the window has one
message more, the highest nonce is the higher one, the submitter has its reward, the cursor of a
strictly ordered chain stands at the message, and the destination has been called once. -/
def accepted (s : Submission) (executor : Executor ω) (m : InboundMessage) (st : State ω) :
    State ω where
  chain := { st.chain with
    inbound := st.chain.inbound.grown s.now s.bridge.epochLength 1
    highestInbound := max st.chain.highestInbound m.sourceNonce }
  roster := st.roster.rewarded s.submitter s.bridge.fees.relayReward
  receipt := { st.receipt with digest := s.digestOf m, processed := true }
  cursor := if st.chain.limits.strictOrdering then
      st.cursor.map fun k => { k with lastNonce := some m.sourceNonce }
    else st.cursor
  world := (executor.execute (s.digestOf m) m).after st.world

/-- Executing a message goes by its whole list. -/
theorem process_follows (hslots : st.roster.slots.length ≤ maxRelayers)
    (hserves : st.receipt.Serves (s.digestOf m)) :
    Follows ((process s executor m attestations).result st)
      (acceptance s executor m attestations st) := by
  unfold Action.result acceptance
  rw [process_eq]
  refine .lift vet_follows fun p hvet => ?_
  rw [← List.append_nil [_]]
  refine .step (.on (creditSubmitter_one_follows hslots)) fun reward st₁ hcredit => ?_
  -- the receipt is the one that was checked, so nothing is left that could fail
  obtain ⟨hdigest, hfresh, -⟩ := vet_eq_ok.1 hvet
  obtain ⟨roster, -, rfl⟩ := Action.on_eq_ok.1 hcredit
  obtain ⟨o, st', hcommit⟩ : ∃ o st', commit executor m p.1 p.2 reward { st with roster } =
      .ok o st' := exists_commit (eq_digestOf hdigest ▸ hserves) hfresh
  exact .unconditional hcommit

/-- An executed message leaves what it has to leave. -/
theorem Processed.eq_accepted (h : Processed s executor m attestations st o st')
    (hslots : st.roster.slots.length ≤ maxRelayers) :
    o = outcomeOf s executor m st ∧ st' = accepted s executor m st := by
  obtain ⟨digest, sourceChain, sourceNonce, failure, reward⟩ := o
  obtain ⟨chain, roster, receipt, cursor, world⟩ := st'
  obtain rfl : digest = s.digestOf m := eq_digestOf h.digest
  obtain ⟨rfl, rfl⟩ : sourceChain = m.sourceChain ∧ sourceNonce = m.sourceNonce := h.source
  obtain ⟨-, rfl, rfl⟩ := (creditSubmitter_one_eq_ok hslots).1 h.credited
  obtain ⟨-, -, rfl⟩ := Receipt.insert_eq_ok.1 h.marked
  obtain ⟨hfailure, hworld⟩ := eq_of_deliver h.delivered
  obtain ⟨window, hwindow, hchain⟩ := h.window
  have hchain : chain = (accepted s executor m st).chain := by
    rw [show chain = _ from hchain, Chain.recordInboundNonce_eq,
      RateWindow.eq_grown_of_accept hwindow]
    rfl
  have hcursor : cursor = (accepted s executor m st).cursor := h.cursor
  have hworld : world = (accepted s executor m st).world := hworld
  constructor
  · rw [outcomeOf, ← hfailure, Submission.rewardOn, Roster.indexOfOwner_eq, Option.isSome_map]
  · rw [hchain, hcursor, hworld]
    rfl

/-- **A submission is executed exactly if all its conditions hold**, leaves then these records,
and fails otherwise for the first condition that does not hold, with everything as it was. -/
theorem process_exactly (hslots : st.roster.slots.length ≤ maxRelayers)
    (hserves : st.receipt.Serves (s.digestOf m)) :
    (∀ o st', process s executor m attestations st = .ok o st' ↔
      AllHold (acceptance s executor m attestations st) ∧ o = outcomeOf s executor m st ∧
        st' = accepted s executor m st) ∧
    ∀ f st', process s executor m attestations st = .error f st' ↔
      FirstFails (acceptance s executor m attestations st) f ∧ st' = st := by
  have hok : ∀ o st', process s executor m attestations st = .ok o st' →
      o = outcomeOf s executor m st ∧ st' = accepted s executor m st :=
    fun o st' h => (processed_of_process h).eq_accepted hslots
  have herror : ∀ f st', process s executor m attestations st = .error f st' → st' = st :=
    fun f st' h => ((process_eq_error_iff fun d hd => eq_digestOf hd ▸ hserves).1 h).1
  exact (process_follows hslots hserves).exactly hok herror

/-- A relayer submits the next message of a strictly ordered chain and earns its reward.  On a
paused chain the message is refused for the pause, although there is no quorum for it either. -/
theorem processed_exactly_in_order :
    let s : Submission := {
      bridge := { fees := { relayReward := 3 } }, verify := fun _ _ _ => true
      submitter := .zero, liquidity := 7, now := 0 }
    let m : InboundMessage := { sender := [1], sourceNonce := 5, value := 7 }
    let executor : Executor Nat := ⟨fun _ => .ok (), fun _ _ => modify (· + 1)⟩
    let st : State Nat := {
      chain := { active := true, limits := { rateLimit := 1, strictOrdering := true } }
      roster := { required := 1, active := 1, slots := [none, some { earned := 2 }] }
      receipt := {}
      cursor := some { senderKey := Digest.ofSender [1], lastNonce := some 4 }, world := 0 }
    let paused : State Nat := { st with chain.active := false }
    process s executor m [{ index := 1 }] st =
        .ok (outcomeOf s executor m st) (accepted s executor m st) ∧
      (accepted s executor m st).roster.slots = [none, some { earned := 5 }] ∧
      (accepted s executor m st).world = 1 ∧
      process s executor m [] paused = .error (.refused .chainPaused) paused := by
  intro s m executor st paused
  have hblank : ∀ d, Receipt.Serves d {} := fun d => ⟨.inl rfl, fun h => by cases h⟩
  have hfresh : ∀ d, ¬ (({} : Receipt).processed = true ∧ ({} : Receipt).digest = d) :=
    fun d h => Bool.false_ne_true h.1
  refine ⟨((process_exactly (by decide) (hblank _)).1 _ _).2 ⟨?_, rfl, rfl⟩, by decide, rfl,
    ((process_exactly (by decide) (hblank _)).2 _ _).2 ⟨⟨(acceptance s executor m [] paused).take 4,
      _, _, rfl, ?_, Bool.false_ne_true, rfl⟩, rfl⟩⟩
  · simp only [acceptance, checks, InboundMessage.conditions, Chain.conditions, orderConditions,
      RateWindow.conditions, Quorum.conditions, List.cons_append, List.nil_append,
      allHold_cons, allHold_nil, holds_requires, holds_of, and_true]
    refine ⟨by decide, by decide, hfresh _, rfl, rfl, by decide, by decide, fun _ => Option.some_ne_none _,
      ?_, ?_, by decide, by decide, by decide, by decide, ⟨by decide, by decide⟩, by decide,
      ⟨(), rfl⟩, ?_⟩
    · rintro - _ ⟨⟩
      exact ⟨rfl, rfl⟩
    · rintro - _ ⟨⟩ _ ⟨⟩
      decide
    · rintro _ _ ⟨⟩ ⟨⟩
      decide
  · show AllHold [_, _, _, _]
    simp only [allHold_cons, allHold_nil, holds_requires, and_true]
    exact ⟨by decide, by decide, hfresh _, rfl⟩

end Inbound
end QuorumRelay
