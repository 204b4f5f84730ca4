import QuorumRelay.Proofs.AppendOnly
import QuorumRelay.Proofs.Governed
import QuorumRelay.Proofs.Preimages

/-!
# What is sent can be told apart on the far side

A message is announced by an event, and a relayer makes of the event the message
that it delivers (`MessageSent.arriving`).  The far side executes a digest once.
If two messages of one bridge arrived under one digest, the second would be taken
for a repetition of the first and be lost, with the value that its sender locked
for it.

`Ledger.sends_differ_on_far_side` excludes this for all runs of a bridge, also
where the same sender asks twice for the same thing.

## Why the fields need not differ

Two sends may agree in everything that was asked for.  They differ in their
nonces, which the bridge hands out (`Sound.dense_moves`), and a nonce is written
into the preimage at its full width.  So the preimages differ, and the digests do
too unless the hash takes both to one value.

## Whose message it is

An event is read by those who have not seen the record.  What it says about the
message is what the record says (`MessageSent.Describes`), and goes on to say:
later moves change the status of the record, which no event carries.
-/

namespace QuorumRelay

/-! ## From an event to the message that arrives -/

namespace MessageSent

variable {e e' : MessageSent}

/-- The message that a relayer makes of an event, to deliver it. -/
def arriving (e : MessageSent) : InboundMessage where
  sourceChain := e.hostChain
  sourceNonce := e.nonce
  sender := e.sourceSender.toList
  destination := e.destination
  payload := e.payload
  value := e.value
  computeBudget := e.computeBudget

/-- Its sender is an address, which is short enough and not empty. -/
theorem check_arriving (e : MessageSent) : e.arriving.check = .ok () := by
  have hlength : e.arriving.sender.length = 20 := e.sourceSender.length_toList
  refine InboundMessage.check_eq_ok.2 ⟨fun hempty => ?_, ?_⟩
  · rw [hempty] at hlength
    cases hlength
  · rw [hlength]
    decide

/-- **Two messages that the far side can tell apart**: both have a digest, and only different bytes
with one hash can give them the same one.  So no receipt marks both as executed. -/
def Apart (e e' : MessageSent) : Prop :=
  ∀ (hostChain hostChain' : ChainId) (identity identity' : Address), ∃ d d' : Digest,
    Digest.ofMessage hostChain identity e.arriving = .ok d ∧
    Digest.ofMessage hostChain' identity' e'.arriving = .ok d' ∧
    (d = d' → Digest.Collide (Digest.messagePreimage hostChain identity e.arriving)
      (Digest.messagePreimage hostChain' identity' e'.arriving)) ∧
    ∀ r : Receipt, r.contains d = true → r.contains d' = true →
      Digest.Collide (Digest.messagePreimage hostChain identity e.arriving)
        (Digest.messagePreimage hostChain' identity' e'.arriving)

/-- **A nonce of its own is enough**, whatever else two messages share. -/
theorem apart_of_nonce_ne (h : e.nonce ≠ e'.nonce) : e.Apart e' := by
  intro hostChain hostChain' identity identity'
  have hne : Digest.messagePreimage hostChain identity e.arriving ≠
      Digest.messagePreimage hostChain' identity' e'.arriving := by
    intro heq
    obtain ⟨-, -, -, hnonce, -⟩ :=
      (Digest.messagePreimage_inj e.check_arriving e'.check_arriving).1 heq
    exact h hnonce
  refine ⟨_, _, Digest.ofMessage_eq_ok.2 ⟨e.check_arriving, rfl⟩,
    Digest.ofMessage_eq_ok.2 ⟨e'.check_arriving, rfl⟩, fun hhash => ⟨hne, hhash⟩,
    fun r hr hr' => ⟨hne, ?_⟩⟩
  -- a receipt holds one digest
  exact (Receipt.contains_eq_true.1 hr).2.symm.trans (Receipt.contains_eq_true.1 hr').2

/-- **An event says of a message what its record says**, in every field that both have. -/
structure Describes (e : MessageSent) (m : OutboundMessage) : Prop where
  nonce : e.nonce = m.nonce
  destinationChain : e.destinationChain = m.destinationChain
  sender : e.sender = m.sender
  sourceSender : e.sourceSender = Address.ofKey m.sender
  destination : e.destination = m.destination
  payload : e.payload = m.payload
  value : e.value = m.value
  computeBudget : e.computeBudget = m.computeBudget
  fee : e.fee = m.fee
  feePayer : e.feePayer = m.feePayer
  createdAt : e.createdAt = m.createdAt

theorem Describes.withStatus {m : OutboundMessage} (h : e.Describes m) (status : MessageStatus) :
    e.Describes { m with status } :=
  ⟨h.nonce, h.destinationChain, h.sender, h.sourceSender, h.destination, h.payload, h.value,
    h.computeBudget, h.fee, h.feePayer, h.createdAt⟩

/-- **An event is on the books**: it names their bridge, and describes the message of its nonce. -/
structure Recorded (e : MessageSent) (books : Books) : Prop where
  bridge : ∃ b, books .bridge = some b ∧ e.hostChain = b.hostChain ∧ e.identity = b.identity
  message : ∃ m, books (.outbound e.nonce) = some m ∧ e.Describes m

end MessageSent

/-! ## What an instruction announces -/

/-- The message that an event announces. -/
def Event.sent? : Event → Option MessageSent
  | .messageSent e => some e
  | _ => none

/-- The messages that events announce, in order. -/
def announced (events : List Event) : List MessageSent := events.filterMap Event.sent?

theorem Event.sentNonce?_eq (event : Event) :
    event.sentNonce? = event.sent?.map MessageSent.nonce := by
  cases event with
  | messageSent e => rfl
  | _ => rfl

theorem map_nonce_announced (events : List Event) :
    (announced events).map MessageSent.nonce = sentNonces events := by
  rw [announced, sentNonces, List.map_filterMap]
  exact List.filterMap_congr fun event _ => event.sentNonce?_eq.symm

/-- Executing messages announces none. -/
theorem announced_members (submitter : Key)
    (members : List (InboundMessage × Inbound.MemberResult)) :
    announced (members.filterMap (memberEvent? submitter)) = [] := by
  rw [← List.map_eq_nil_iff (f := MessageSent.nonce), map_nonce_announced, sentNonces_members]

/-- **What an instruction announces of messages that leave**: the one that it was asked to send,
and nothing if it was not asked. -/
inductive Announces (after : Books) (i : Instruction) (sent : List MessageSent) : Prop
  | silent (unasked : i.request? = none) (idle : sent = [])
  | once (e : MessageSent) (only : sent = [e]) (recorded : e.Recorded after)

/-- The event of a queued message describes what was queued. -/
theorem announced_sentEvent (b : Bridge) (c : Chain) (m : OutboundMessage) (bump : UInt8) :
    ∃ e, announced [sentEvent b c m] = [e] ∧ e.nonce = m.nonce ∧ e.hostChain = b.hostChain ∧
      e.identity = b.identity ∧ e.Describes { m with bump } :=
  ⟨_, rfl, rfl, rfl, rfl, rfl, rfl, rfl, rfl, rfl, rfl, rfl, rfl, rfl, rfl, rfl⟩

/-- **Queueing announces the message that it records**, whatever else is written. -/
theorem Outbox.Queued.announces {after : Books} {i : Instruction} {sender : Key} {q : SendRequest}
    {now : Slot} {o o' : Outbox} {m : OutboundMessage} (bump : UInt8)
    (h : Outbox.Queued sender q now o m o') (hbridge : after .bridge = some o'.bridge)
    (hstored : after (.outbound o.bridge.nextNonce) = some { m with bump }) :
    Announces after i (announced [sentEvent o'.bridge o'.chain m]) := by
  obtain ⟨hnonce, -⟩ := Bridge.recordSend_eq_ok h.counted
  obtain ⟨e, honly, hown, hhostChain, hidentity, hdescribes⟩ :=
    announced_sentEvent o'.bridge o'.chain m bump
  have hplace : e.nonce = o.bridge.nextNonce := hown.trans hnonce
  refine .once e honly ⟨⟨o'.bridge, hbridge, hhostChain, hidentity⟩, _, ?_, hdescribes⟩
  rw [hplace]
  exact hstored

/-- **Every instruction announces what it sends**, and nothing else. -/
theorem Effect.announces {env : Environment} {A : List Passed} {spendable : Amount}
    {before after : Books} {i : Instruction} {t : Trace}
    (h : Effect env A spendable before i after t) : Announces after i (announced t.events) := by
  cases h with
  | sendMessage signed bridge chain vault absent step owes =>
    exact (Outbox.queued_of_queue step).announces derivedBump (by simp [Books.put_of_ne])
      (Books.put_self ..)
  | sendSponsored signed bridge chain sponsor vault absent step charged =>
    exact (Outbox.queued_of_queue step).announces derivedBump (by simp [Books.put_of_ne])
      (by simp [Books.put_of_ne])
  | processBatch given => exact .silent rfl (announced_members _ _)
  | _ => exact .silent rfl rfl

namespace Ledger

variable {l : Ledger} {move : Move} {ms : List Move} {e : MessageSent} {q : SendRequest}

/-! ## Moves -/

/-- The messages that a move announces. -/
def announces (l : Ledger) : Move → List MessageSent
  | .run env data accounts => announced (l.run env data accounts).events
  | .outside _ => []

/-- The messages that a row of moves announces, in order. -/
def announcements (l : Ledger) : List Move → List MessageSent
  | [] => []
  | move :: ms => l.announces move ++ (l.move move).announcements ms

/-- A move is an instruction to send a message, by the sender or by a sponsor, and succeeds. -/
def SendsFor (l : Ledger) (move : Move) (q : SendRequest) : Prop :=
  ∃ env data accounts i value, move = .run env data accounts ∧ Instruction.decode data = .ok i ∧
    i.request? = some q ∧ (l.run env data accounts).result = .ok value

theorem map_nonce_announces (l : Ledger) (move : Move) :
    (l.announces move).map MessageSent.nonce = l.handsOut move := by
  cases move with
  | run env data accounts => exact map_nonce_announced _
  | outside change => rfl

theorem map_nonce_announcements (l : Ledger) (ms : List Move) :
    (l.announcements ms).map MessageSent.nonce = l.handedOut ms := by
  induction ms generalizing l with
  | nil => rfl
  | cons move ms ih => rw [announcements, handedOut, List.map_append, map_nonce_announces, ih]

theorem announcements_append (l : Ledger) (first rest : List Move) :
    l.announcements (first ++ rest) =
      l.announcements first ++ (l.moves first).announcements rest :=
  collected_append (fun _ => rfl) (fun _ _ _ => rfl) l first rest

/-- **What a move announces is on the books after it.** -/
theorem Sound.recorded (hs : l.Sound) (hm : move.Allowed) (he : e ∈ l.announces move) :
    e.Recorded (l.move move).books := by
  cases move with
  | outside change => cases he
  | run env data accounts =>
    show e.Recorded (l.run env data accounts).ledger.books
    replace he : e ∈ announced (l.run env data accounts).events := he
    rcases hs.carriesOut hm with ⟨f, notices, hrun⟩ | ⟨i, t, hrun⟩
    · rw [hrun] at he
      cases he
    · rw [hrun.events] at he
      cases hrun.effect.announces with
      | silent unasked idle =>
        rw [idle] at he
        cases he
      | once e' only recorded =>
        rw [only] at he
        rw [List.mem_singleton.1 he]
        exact recorded

/-- **A send that succeeds announces one message.** -/
theorem Sound.announces_of_sendsFor (hs : l.Sound) (hm : move.Allowed) (h : l.SendsFor move q) :
    ∃ e, l.announces move = [e] := by
  obtain ⟨env, data, accounts, i, value, rfl, hdecode, hasked, hvalue⟩ := h
  rcases hs.carriesOut hm with ⟨f, notices, hrun⟩ | ⟨i', t, hrun⟩
  · rw [hrun] at hvalue
    cases hvalue
  · obtain rfl : i = i' := Except.ok.inj (hdecode.symm.trans hrun.decoded)
    cases hrun.effect.announces with
    | silent unasked idle =>
      rw [hasked] at unasked
      cases unasked
    | once e only recorded =>
      refine ⟨e, ?_⟩
      rw [announces, hrun.events]
      exact only

/-! ## Runs -/

/-- **An event stays true of the books**, whatever becomes of its message. -/
theorem Sound.recorded_moves (hs : l.Sound) (h : ∀ m ∈ ms, m.Allowed) (hdense : l.books.Dense)
    (he : e.Recorded l.books) : e.Recorded (l.moves ms).books := by
  obtain ⟨m, hm, hdescribes⟩ := he.message
  obtain ⟨status, hlater, -⟩ := hs.exists_status_moves h hdense hm
  refine ⟨?_, _, hlater, hdescribes.withStatus status⟩
  obtain ⟨b, hb, hhostChain, hidentity⟩ := he.bridge
  clear hdense he hm hlater
  induction ms generalizing l b with
  | nil => exact ⟨b, hb, hhostChain, hidentity⟩
  | cons move ms ih =>
    rw [List.forall_mem_cons] at h
    obtain ⟨b', hb', hcharter⟩ := hs.sameCharter h.1 hb
    rw [moves_cons]
    exact ih (hs.move h.1) h.2 b' hb' (hhostChain.trans hcharter.hostChain.symm)
      (hidentity.trans hcharter.identity.symm)

/-- **All that a run announces is on the books at its end.** -/
theorem Sound.recorded_of_mem (hs : l.Sound) (h : ∀ m ∈ ms, m.Allowed) (hdense : l.books.Dense)
    (he : e ∈ l.announcements ms) : e.Recorded (l.moves ms).books := by
  induction ms generalizing l with
  | nil => cases he
  | cons move ms ih =>
    rw [List.forall_mem_cons] at h
    have hdense' := (hs.logStep h.1).dense hdense
    rw [moves_cons]
    rcases List.mem_append.1 he with hfirst | hrest
    · exact (hs.move h.1).recorded_moves h.2 hdense' (hs.recorded h.1 hfirst)
    · exact ih (hs.move h.1) h.2 hdense' hrest

/-- **No nonce is handed out twice in a run.** -/
theorem Sound.nodup_handedOut (hs : l.Sound) (h : ∀ m ∈ ms, m.Allowed) (hdense : l.books.Dense) :
    (l.handedOut ms).Nodup := by
  have hnodup : (List.range l.books.sentCount ++ (l.handedOut ms).map UInt64.toNat).Nodup := by
    rw [(hs.dense_moves h hdense).2]
    exact List.nodup_range
  exact .of_map UInt64.toNat (List.nodup_append.1 hnodup).2.1

/-- **Two sends never share a digest on the far side, over any run.**  Every send that succeeds
announces one message.  What relayers make of an announcement has the shape that the far side asks
for, and the announcement agrees with the record of its message in every field that both have, now
and later.  And whichever chains and bridges they arrive at, two messages of the run have one
digest, or one receipt, only if the hash takes their two preimages to the same value. -/
theorem sends_differ_on_far_side {l : Ledger} (hfresh : l.Fresh) {ms : List Move}
    (hms : ∀ move ∈ ms, move.Allowed) :
    (∀ first move rest q, ms = first ++ move :: rest → (l.moves first).SendsFor move q →
      ∃ e ∈ l.announcements ms, (l.moves first).announces move = [e]) ∧
    (∀ e ∈ l.announcements ms, e.arriving.check = .ok () ∧
      (∃ b, Bridge.record.load ((l.moves ms).account .bridge) = .ok b ∧
        e.hostChain = b.hostChain ∧ e.identity = b.identity) ∧
      ∃ m, OutboundMessage.record.load ((l.moves ms).account (.outbound e.nonce)) = .ok m ∧
        e.Describes m) ∧
    (l.announcements ms).Pairwise MessageSent.Apart := by
  have hs := hfresh.sound
  refine ⟨?_, fun e he => ⟨e.check_arriving, ?_⟩, ?_⟩
  · rintro first move rest q rfl hsends
    rw [List.forall_mem_append, List.forall_mem_cons] at hms
    obtain ⟨e, honce⟩ := (hs.moves hms.1).announces_of_sendsFor hms.2.1 hsends
    refine ⟨e, ?_, honce⟩
    rw [announcements_append, announcements, honce]
    simp
  · obtain ⟨⟨b, hb, hcharter⟩, m, hm, hdescribes⟩ := hs.recorded_of_mem hms hfresh.dense he
    exact ⟨⟨b, load_bridge hb, hcharter⟩, m, load_outbound hm, hdescribes⟩
  · have hnodup := hs.nodup_handedOut hms hfresh.dense
    rw [← map_nonce_announcements, List.Nodup, List.pairwise_map] at hnodup
    exact hnodup.imp fun hne => MessageSent.apart_of_nonce_ne hne

end Ledger

/-- The founder sends the same message twice. -/
def Move.sendingTwice : List Move := [
  founding,
  byFounder ⟨.configureChain, 2, {
    confirmations := 1, maxMessageBytes := 1, maxComputeBudget := 1, feeMultiplier := 1
    rateLimit := 2 }⟩ [.bridge, .chain 2, founder, .systemProgram],
  sending,
  byFounder ⟨.sendMessage, { destinationChain := 2, value := 5 }⟩
    [.bridge, .chain 2, .outbound 1, .vault, founder, .systemProgram]]

namespace Ledger

/-- Two sends of one sender that ask for the same are told apart. -/
theorem sends_differ_when_repeated :
    ∃ e e', funded.announcements Move.sendingTwice = [e, e'] ∧
      e.destination = e'.destination ∧ e.payload = e'.payload ∧ e.value = e'.value ∧
      e.arriving.check = .ok () ∧ e'.arriving.check = .ok () ∧ e.Apart e' := by
  have hfields : (funded.announcements Move.sendingTwice).map
      (fun e => (e.nonce, e.destination, e.payload, e.value)) =
        [(0, .zero, [], 5), (1, .zero, [], 5)] := by
    decide +kernel
  have hallowed : ∀ move ∈ Move.sendingTwice, move.Allowed := by
    simp only [Move.sendingTwice, List.forall_mem_cons]
    exact ⟨Move.allowed_byFounder _ _, Move.allowed_byFounder _ _, Move.allowed_byFounder _ _,
      Move.allowed_byFounder _ _, nofun⟩
  obtain ⟨-, hchecked, hapart⟩ := sends_differ_on_far_side fresh_funded hallowed
  obtain ⟨e, sent, hsent, hfirst, hrest⟩ := List.map_eq_cons_iff.1 hfields
  obtain ⟨e', sent', rfl, hsecond, hlast⟩ := List.map_eq_cons_iff.1 hrest
  obtain rfl := List.map_eq_nil_iff.1 hlast
  simp only [Prod.mk.injEq] at hfirst hsecond
  rw [hsent] at hchecked hapart
  refine ⟨e, e', hsent, hfirst.2.1.trans hsecond.2.1.symm,
    hfirst.2.2.1.trans hsecond.2.2.1.symm, hfirst.2.2.2.trans hsecond.2.2.2.symm,
    (hchecked e (by simp)).1, (hchecked e' (by simp)).1, ?_⟩
  exact (List.pairwise_cons.1 hapart).1 e' (List.mem_singleton_self e')

end Ledger
end QuorumRelay
