import Mathlib.Data.List.Forall2
import QuorumRelay.Ledger.Program
import QuorumRelay.Proofs.Inbound.Batch
import QuorumRelay.Proofs.Ledger.Money

/-!
# The program on its books

What an instruction does, said of records instead of bytes.  `Effect` has one
case for each of the twenty-four instructions.  A case names the records that the
instruction found and where, the step of the program that ran on them, who signed
for it, the books that it left, and what it did besides (`Trace`): the lamports
that went into the vault and out of it, the deliveries that were begun, and the
events.

That a committed instruction has such an effect is proved file by file, in the
order of the program's own files.  Once it is, statements about all instructions
are case distinctions on `Effect`, and bytes and accounts do not come up again.

## What is not said

An effect tells what was found and written, and it says nothing of instructions
that fail: those leave the ledger as it was.  The bytes behind a record, the
lamports of users, and the log lines are left out.
-/

namespace QuorumRelay

/-- The receipts of a batch are noted, each with how its member went. -/
def Books.close (submitter : Key) (now : Slot) :
    Books → List (Digest × Receipt × Inbound.MemberResult) → Books
  | books, [] => books
  | books, (_, _, .skipped _) :: rest => close submitter now books rest
  | books, (d, r, .executed o) :: rest =>
    close submitter now
      (books.put (.receipt d) (r.note o.sourceChain o.sourceNonce o.succeeded submitter now)) rest

/-- The cursor that was found, if any was, is moved. -/
def Books.move (books : Books) :
    Option (ChainId × Digest × Cursor) → Option Cursor → Books
  | some (source, senderKey, _), some moved => books.put (.cursor source senderKey) moved
  | _, _ => books

namespace Books

variable {books : Books} {submitter : Key} {now : Slot} {q : Place}

/-- Moving a cursor leaves every other record. -/
theorem move_of_ne {found : Option (ChainId × Digest × Cursor)} {moved : Option Cursor}
    (h : ∀ source senderKey, q ≠ .cursor source senderKey) :
    books.move found moved q = books q := by
  unfold move
  split
  · exact put_of_ne _ _ (h _ _)
  · rfl

/-- Closing receipts leaves every other record. -/
theorem close_of_ne
    {closing : List (Digest × Receipt × Inbound.MemberResult)} (h : ∀ d, q ≠ .receipt d) :
    books.close submitter now closing q = books q := by
  induction closing generalizing books with
  | nil => rfl
  | cons first closing ih =>
    obtain ⟨d, r, result⟩ := first
    cases result with
    | skipped _ => exact ih
    | executed o =>
      rw [close, ih]
      exact put_of_ne _ _ (h d)

end Books

/-- An account that was handed over and signed. -/
def Signed (A : List Passed) (id : AccountId) : Prop := ∃ p ∈ A, p.signer = true ∧ p.id = id

/-- The account that was handed over for one field of an instruction, by its place. -/
def HandedAt (A : List Passed) (place : Nat) (id : AccountId) : Prop :=
  ∃ p, A[place]? = some p ∧ p.id = id

/-- A key that signed. -/
def SignedBy (A : List Passed) (key : Key) : Prop := ∃ id, Signed A id ∧ id.key = key

theorem Signed.signedBy {A : List Passed} {id : AccountId} (h : Signed A id) : SignedBy A id.key :=
  ⟨id, h, rfl⟩

/-! ## Accounts that are handed over several times -/

section

variable {accounts : List Passed} {id : AccountId} {key : Key} {place : Nat}

/-- An account that signs signed on one of the occasions when it was handed over. -/
theorem Signed.of_union (h : Signed (Passed.union accounts) id) : Signed accounts id := by
  obtain ⟨p, hp, hsigned, rfl⟩ := h
  obtain ⟨q, -, rfl⟩ := List.mem_map.1 hp
  obtain ⟨q', hq', hany⟩ := List.any_eq_true.1 hsigned
  rw [Bool.and_eq_true, decide_eq_true_eq] at hany
  exact ⟨q', hq', hany.2, hany.1⟩

theorem SignedBy.of_union (h : SignedBy (Passed.union accounts) key) :
    SignedBy accounts key := by
  obtain ⟨id, hsigned, hkey⟩ := h
  exact ⟨id, hsigned.of_union, hkey⟩

theorem HandedAt.of_union (h : HandedAt (Passed.union accounts) place id) :
    HandedAt accounts place id := by
  obtain ⟨p, hp, rfl⟩ := h
  rw [Passed.union, List.getElem?_map, Option.map_eq_some_iff] at hp
  obtain ⟨q, hq, rfl⟩ := hp
  exact ⟨q, hq, rfl⟩

end

/-! ## What an instruction did -/

/-- The messages that an instruction hands in to be executed. -/
def Instruction.messages : Instruction → List InboundMessage
  | ⟨.processMessage, _, m, _⟩ => [m]
  | ⟨.processBatch, messages, _, _⟩ => messages
  | _ => []

/-- The lamports of payments. -/
def paid (payments : List Payment) : Nat := (payments.map fun p => p.amount.toNat).sum

/-- A payment is the value of a message, and went into the inbox of the program that the message
names. -/
def Payment.IsFor (p : Payment) (m : InboundMessage) : Prop :=
  p.amount = m.value ∧
    ∃ program, p.inbox = .inbox program ∧ Address.ofKey program = m.destination

/-- Payments for messages, in their order, and for each at most once. -/
def PaidFor (payments : List Payment) (messages : List InboundMessage) : Prop :=
  List.SublistForall₂ Payment.IsFor payments messages

/-- What is paid for messages is at most their value. -/
theorem PaidFor.paid_le {payments : List Payment} {messages : List InboundMessage}
    (h : PaidFor payments messages) :
    paid payments ≤ (messages.map fun m => m.value.toNat).sum := by
  unfold PaidFor at h
  induction h with
  | nil => exact Nat.zero_le _
  | cons hfirst _ ih =>
    rw [paid, List.map_cons, List.sum_cons, List.map_cons, List.sum_cons, hfirst.1]
    exact Nat.add_le_add_left ih _
  | cons_right _ ih =>
    rw [List.map_cons, List.sum_cons]
    exact Nat.le_trans ih (Nat.le_add_left _ _)

/-- What an instruction did besides writing records. -/
structure Trace where
  /-- Lamports that users paid into the vault. -/
  received : Nat := 0
  /-- Lamports that the vault paid out to users. -/
  returned : Nat := 0
  /-- The user that they were paid to. -/
  payee : Option AccountId := none
  /-- Lamports that destination programs gave to the vault. -/
  given : Nat := 0
  /-- What was paid for deliveries. -/
  payments : List Payment := []
  /-- The digests whose delivery was begun. -/
  attempts : List Digest := []
  events : List Event := []

/-- An instruction paid an amount to the account of a key. -/
def Trace.Returns (t : Trace) (key : Key) (amount : Nat) : Prop :=
  ∃ user : AccountId, user.key = key ∧ t.payee = some user ∧ t.returned = amount

/-- The event of a queued message. -/
def sentEvent (b : Bridge) (c : Chain) (m : OutboundMessage) : Event :=
  .messageSent {
    nonce := m.nonce, hostChain := b.hostChain, identity := b.identity
    destinationChain := m.destinationChain, sender := m.sender
    sourceSender := Address.ofKey m.sender, destination := m.destination, payload := m.payload
    value := m.value, computeBudget := m.computeBudget, fee := m.fee, feePayer := m.feePayer
    confirmations := c.limits.confirmations, createdAt := m.createdAt }

/-- The event of a message that was executed. -/
def outcomeEvent (submitter : Key) (m : InboundMessage) (o : Inbound.Outcome) : Event :=
  .messageProcessed o.digest o.sourceChain o.sourceNonce m.destination submitter o.succeeded

/-- The event of a member of a batch, if it was executed. -/
def memberEvent? (submitter : Key) : InboundMessage × Inbound.MemberResult → Option Event
  | (_, .skipped _) => none
  | (m, .executed o) => some (outcomeEvent submitter m o)

/-- What the vault can pay out as value, of what it can spend. -/
def Liquid (spendable : Amount) (b : Bridge) (r : Roster) (liquidity : Amount) : Prop :=
  ∃ staked owed, r.totalStake = .ok staked ∧ b.reserved staked = .ok owed ∧
    liquidity = Amount.monus spendable owed

theorem liquid_of_liquidity {l : Ledger} {b : Bridge} {r : Roster} {liquidity : Amount}
    (h : l.liquidity b r = .ok liquidity) : Liquid (l.spendable .vault) b r liquidity := by
  unfold Ledger.liquidity at h
  simp only [except_bind_eq_ok, except_pure_eq_ok] at h
  obtain ⟨staked, hstaked, owed, howed, rfl⟩ := h
  exact ⟨staked, owed, hstaked, howed, rfl⟩

section

variable (env : Environment) (A : List Passed) (spendable : Amount) (before : Books)

/-- **What a committed instruction found, did and left.**  `A` are the accounts it was handed,
and `spendable` is what the vault could spend when it started. -/
inductive Effect : Instruction → Books → Trace → Prop
  | createBridge {settings : Bridge.Settings} {authority : AccountId} {b : Bridge}
      (received : Nat) (signed : Signed A authority)
      (absent : before .bridge = none ∧ before .vault = none ∧ before .roster = none)
      (step : Bridge.create authority.key (Address.ofKey bridgeProgramKey) settings = .ok b) :
      Effect ⟨.createBridge, settings⟩
        (((before.put .bridge
          { b with vaultBump := derivedBump, executorBump := derivedBump, bump := derivedBump }).put
          .vault { bump := derivedBump }).put
          .roster { ({} : Roster) with bump := derivedBump })
        { received }
  | configureChain {id : ChainId} {limits : Chain.Limits} {authority : AccountId} {b : Bridge}
      {c c' : Chain} (signed : Signed A authority) (bridge : before .bridge = some b)
      (chain : before.Holds (.chain id) c)
      (step : Governance.configureChain b.council authority.key id limits c = .ok () c') :
      Effect ⟨.configureChain, id, limits⟩
        (before.put (.chain id) { c' with bump := derivedBump })
        { events := [.chainConfigured id limits] }
  | setChainActive {id : ChainId} {active : Bool} {authority : AccountId} {b : Bridge}
      {c c' : Chain} (signed : Signed A authority) (bridge : before .bridge = some b)
      (chain : before (.chain id) = some c)
      (step : Governance.setChainActive b.council authority.key active c = .ok () c') :
      Effect ⟨.setChainActive, id, active⟩ (before.put (.chain id) c')
        { events := [.chainPauseUpdated id active] }
  | updateThreshold {required : UInt8} {authority : AccountId} {b : Bridge} {r r' : Roster}
      (signed : Signed A authority) (bridge : before .bridge = some b)
      (roster : before .roster = some r)
      (step : Membership.updateThreshold b.council authority.key required r = .ok () r') :
      Effect ⟨.updateThreshold, required⟩ (before.put .roster r')
        { events := [.thresholdUpdated required r'.active] }
  | setFeeSchedule {fees : FeeSchedule} {authority : AccountId} {b b' : Bridge}
      (signed : Signed A authority) (bridge : before .bridge = some b)
      (step : Governance.setFeeSchedule authority.key fees b = .ok () b') :
      Effect ⟨.setFeeSchedule, fees⟩ (before.put .bridge b')
        { events := [.feeScheduleUpdated fees] }
  | setAuthority {newAuthority previous : Key} {authority : AccountId} {b b' : Bridge}
      (signed : Signed A authority) (bridge : before .bridge = some b)
      (step : Governance.setAuthority authority.key newAuthority b = .ok previous b') :
      Effect ⟨.setAuthority, newAuthority⟩ (before.put .bridge b')
        { events := [.authorityTransferred previous newAuthority] }
  | openSponsor {owner : AccountId} (signed : Signed A owner)
      (absent : before (.sponsor owner.key) = none) :
      Effect ⟨.openSponsor, ()⟩
        (before.put (.sponsor owner.key)
          { ({} : Sponsor) with owner := owner.key, bump := derivedBump }) {}
  | depositSponsor {amount : Amount} {owner : AccountId} {b b' : Bridge} {s s' : Sponsor}
      {v : Vault} (signed : Signed A owner) (bridge : before .bridge = some b)
      (sponsor : before (.sponsor owner.key) = some s) (vault : before .vault = some v)
      (own : s.owner = owner.key) (step : Sponsor.deposit amount s = .ok () s')
      (books : Bridge.holdSponsorFunds amount b = .ok () b')
      (place : HandedAt A 1 (.sponsor owner.key)) :
      Effect ⟨.depositSponsor, amount⟩
        ((before.put .bridge b').put (.sponsor owner.key) s')
        { received := amount.toNat, events := [.sponsorBalanceChanged s'.owner s'.balance] }
  | withdrawSponsor {amount : Amount} {owner : AccountId} {b b' : Bridge} {s s' : Sponsor}
      {v : Vault} (signed : Signed A owner) (bridge : before .bridge = some b)
      (sponsor : before (.sponsor owner.key) = some s) (vault : before .vault = some v)
      (own : s.owner = owner.key) (step : Sponsor.withdraw amount s = .ok () s')
      (books : Bridge.releaseSponsorFunds amount b = .ok () b')
      (place : HandedAt A 1 (.sponsor owner.key)) :
      Effect ⟨.withdrawSponsor, amount⟩
        ((before.put .bridge b').put (.sponsor owner.key) s')
        { returned := amount.toNat, payee := some owner
          events := [.sponsorBalanceChanged s'.owner s'.balance] }
  | setSponsoredTarget {target : Sponsor.Target} {allowed : Bool} {owner : AccountId}
      {s s' : Sponsor} (signed : Signed A owner)
      (sponsor : before (.sponsor owner.key) = some s) (own : s.owner = owner.key)
      (step : Sponsor.setTarget target allowed s = .ok () s') :
      Effect ⟨.setSponsoredTarget, target, allowed⟩ (before.put (.sponsor owner.key) s') {}
  | sendMessage {q : SendRequest} {sender : AccountId} {b : Bridge} {c : Chain} {v : Vault}
      {m : OutboundMessage} {o : Outbox} {owed : Amount} (signed : Signed A sender)
      (bridge : before .bridge = some b) (chain : before (.chain q.destinationChain) = some c)
      (vault : before .vault = some v) (absent : before (.outbound b.nextNonce) = none)
      (step : Outbox.queue sender.key q env.slot ⟨b, c, none⟩ = .ok m o)
      (owes : m.fee.plus m.value = .ok owed) :
      Effect ⟨.sendMessage, q⟩
        (((before.put .bridge o.bridge).put (.chain q.destinationChain) o.chain).put
          (.outbound b.nextNonce) { m with bump := derivedBump })
        { received := owed.toNat, events := [sentEvent o.bridge o.chain m] }
  | sendSponsored {q : SendRequest} {sender : AccountId} {b : Bridge} {c : Chain} {v : Vault}
      {s s' : Sponsor} {m : OutboundMessage} {o : Outbox} (signed : Signed A sender)
      (bridge : before .bridge = some b) (chain : before (.chain q.destinationChain) = some c)
      (sponsor : before (.sponsor s.owner) = some s) (vault : before .vault = some v)
      (absent : before (.outbound b.nextNonce) = none)
      (step : Outbox.queue sender.key q env.slot ⟨b, c, some s⟩ = .ok m o)
      (charged : o.sponsor = some s') :
      Effect ⟨.sendSponsored, q⟩
        ((((before.put .bridge o.bridge).put (.chain q.destinationChain) o.chain).put
          (.outbound b.nextNonce) { m with bump := derivedBump }).put (.sponsor s.owner) s')
        { received := m.value.toNat, events := [sentEvent o.bridge o.chain m] }
  | estimateFee {id : ChainId} {size : UInt32} {budget : UInt64} {b : Bridge} {c : Chain}
      {fee : Amount} (bridge : before .bridge = some b) (chain : before (.chain id) = some c)
      (step : b.estimateFee c size.toNat budget = .ok fee) :
      Effect ⟨.estimateFee, id, size, budget⟩ before {}
  | markRelayed {nonce : Nonce} {relayer : AccountId} {r : Roster} {m m' : OutboundMessage}
      (signed : Signed A relayer) (roster : before .roster = some r)
      (message : before (.outbound nonce) = some m)
      (step : OutboundMessage.pickUp r relayer.key m = .ok () m') :
      Effect ⟨.markRelayed, nonce⟩ (before.put (.outbound nonce) m')
        { events := [.messageStatusChanged nonce .relayed] }
  | confirmDelivery {nonce : Nonce} {attestations : List Attestation} {b : Bridge} {r : Roster}
      {m : OutboundMessage} {proven : List ProvenSignature} {d : Digest} {s : Settlement}
      (bridge : before .bridge = some b) (roster : before .roster = some r)
      (message : before (.outbound nonce) = some m) (evidence : Evidence.load env.log = .ok proven)
      (step : Settlement.confirm r attestations (Evidence.verifier proven) ⟨b, m⟩ = .ok d s) :
      Effect ⟨.confirmDelivery, nonce, attestations⟩
        ((before.put .bridge s.bridge).put (.outbound nonce) s.message)
        { events := [.messageStatusChanged nonce .confirmed] }
  | reclaim {nonce : Nonce} {sender : AccountId} {b : Bridge} {m : OutboundMessage} {v : Vault}
      {refund : Amount} {s : Settlement} (signed : Signed A sender)
      (bridge : before .bridge = some b) (message : before (.outbound nonce) = some m)
      (vault : before .vault = some v)
      (step : Settlement.reclaim sender.key env.slot ⟨b, m⟩ = .ok refund s) :
      Effect ⟨.reclaim, nonce⟩
        ((before.put .bridge s.bridge).put (.outbound nonce) s.message)
        { returned := refund.toNat, payee := some sender
          events := [.messageStatusChanged nonce .failed] }
  | registerRelayer {publicKey : Key} {stake : Amount} {owner authority : AccountId} {b : Bridge}
      {r r' : Roster} {v : Vault} {index : UInt8} (signed : Signed A owner)
      (authorized : Signed A authority) (bridge : before .bridge = some b)
      (roster : before .roster = some r) (vault : before .vault = some v)
      (step : Membership.register b.council authority.key b.minimumStake owner.key publicKey stake
        env.slot r = .ok index r') :
      Effect ⟨.registerRelayer, publicKey, stake⟩ (before.put .roster r')
        { received := stake.toNat, events := [.relayerRegistered index owner.key publicKey stake] }
  | unregisterRelayer {index : UInt8} {owner : AccountId} {b : Bridge} {r : Roster} {v : Vault}
      {d : Departure} {m : Membership} (signed : Signed A owner)
      (bridge : before .bridge = some b) (roster : before .roster = some r)
      (vault : before .vault = some v)
      (step : Membership.unregister index owner.key ⟨b, r⟩ = .ok d m) :
      Effect ⟨.unregisterRelayer, index⟩ ((before.put .bridge m.bridge).put .roster m.roster)
        { returned := d.payout.toNat, payee := some owner
          events := [.relayerUnregistered d.index d.entry.owner d.payout] }
  | removeRelayer {index : UInt8} {owner authority : AccountId} {b : Bridge} {r : Roster}
      {v : Vault} {d : Departure} {m : Membership} (signed : Signed A authority)
      (bridge : before .bridge = some b) (roster : before .roster = some r)
      (vault : before .vault = some v) (own : d.entry.owner = owner.key)
      (step : Membership.remove authority.key index ⟨b, r⟩ = .ok d m) :
      Effect ⟨.removeRelayer, index⟩ ((before.put .bridge m.bridge).put .roster m.roster)
        { returned := d.payout.toNat, payee := some owner
          events := [.relayerUnregistered d.index d.entry.owner d.payout] }
  | claimCompensation {index : UInt8} {amount : Amount} {owner : AccountId} {b : Bridge}
      {r : Roster} {v : Vault} {m : Membership} (signed : Signed A owner)
      (bridge : before .bridge = some b) (roster : before .roster = some r)
      (vault : before .vault = some v)
      (step : Membership.claim index owner.key amount ⟨b, r⟩ = .ok () m) :
      Effect ⟨.claimCompensation, index, amount⟩
        ((before.put .bridge m.bridge).put .roster m.roster)
        { returned := amount.toNat, payee := some owner
          events := [.compensationClaimed index owner.key amount] }
  | openReceipt {digest : Digest} {payer : AccountId} {r : Receipt} (signed : Signed A payer)
      (receipt : before.Holds (.receipt digest) r) (nonzero : digest ≠ .zero) :
      Effect ⟨.openReceipt, digest⟩
        (before.put (.receipt digest) (r.bind digest derivedBump)) {}
  | openCursor {source : ChainId} {sender : List UInt8} {payer : AccountId} {c : Cursor}
      (signed : Signed A payer) (cursor : before.Holds (.cursor source (Digest.ofSender sender)) c)
      (named : checkSender sender = .ok ()) :
      Effect ⟨.openCursor, source, sender⟩
        (before.put (.cursor source (Digest.ofSender sender))
          (if c.senderKey = .zero then
            { c with
              sourceChain := source, senderKey := Digest.ofSender sender, bump := derivedBump }
          else c)) {}
  | processMessage {digest : Digest} {m : InboundMessage} {attestations : List Attestation}
      {submitter : AccountId} {b : Bridge} {c : Chain} {r : Roster} {receipt : Receipt} {v : Vault}
      {cursor : Option (ChainId × Digest × Cursor)} {proven : List ProvenSignature}
      {liquidity : Amount} {executor : Executor Machine} {world : Machine} {o : Inbound.Outcome}
      {s : Inbound.State Machine} {payments : List Payment} (given : Nat)
      (signed : Signed A submitter) (bridge : before .bridge = some b)
      (chain : before (.chain m.sourceChain) = some c) (roster : before .roster = some r)
      (receiptHeld : before.Holds (.receipt digest) receipt) (vault : before .vault = some v)
      (cursorHeld : ∀ source senderKey k, cursor = some (source, senderKey, k) →
        before (.cursor source senderKey) = some k)
      (named : digest ≠ .zero)
      (own : Digest.ofMessage b.hostChain b.identity m = .ok digest)
      (evidence : Evidence.load env.log = .ok proven) (liquid : Liquid spendable b r liquidity)
      (step : Inbound.Processed
        { bridge := b, verify := Evidence.verifier proven, submitter := submitter.key, liquidity
          now := env.slot } executor m attestations
        { chain := c, roster := r, receipt := receipt.bind digest derivedBump
          cursor := cursor.map fun k => k.2.2, world } o s)
      (payment : PaidFor payments [m]) :
      Effect ⟨.processMessage, digest, m, attestations⟩
        ((((before.put (.chain m.sourceChain) s.chain).put .roster s.roster).put (.receipt digest)
          (s.receipt.note o.sourceChain o.sourceNonce o.succeeded submitter.key env.slot)).move
          cursor s.cursor)
        { given, payments, attempts := [digest], events := [outcomeEvent submitter.key m o] }
  | processBatch {messages : List InboundMessage} {attestations : List Attestation}
      {extras : List UInt8} {submitter : AccountId} {b : Bridge} {c : Chain} {r : Roster}
      {v : Vault} {receipts : List Receipt} {ds : List Digest} {proven : List ProvenSignature}
      {liquidity : Amount} {executors : List (Executor Machine)} {world : Machine}
      {o : Inbound.BatchOutcome} {s : Inbound.BatchState Machine} {payments : List Payment}
      (given : Nat) (signed : Signed A submitter) (bridge : before .bridge = some b)
      (chain : before (.chain c.id) = some c) (roster : before .roster = some r)
      (vault : before .vault = some v)
      (receiptsHeld :
        List.Forall₂ (fun d receipt => before (.receipt d) = some receipt) ds receipts)
      (evidence : Evidence.load env.log = .ok proven) (liquid : Liquid spendable b r liquidity)
      (step : Inbound.Batched
        { bridge := b, verify := Evidence.verifier proven, submitter := submitter.key, liquidity
          now := env.slot } executors messages attestations
        { chain := c, roster := r, receipts, world } ds o s)
      (payment : PaidFor payments
        (((Inbound.members messages ds receipts executors).filter Inbound.Member.pending).map
          Inbound.Member.message)) :
      Effect ⟨.processBatch, messages, attestations, extras⟩
        (((before.close submitter.key env.slot (ds.zip (s.receipts.zip o.results))).put
          (.chain c.id) s.chain).put .roster s.roster)
        { given, payments
          attempts := Inbound.executedDigests messages ds receipts executors
          events := (messages.zip o.results).filterMap (memberEvent? submitter.key) }

end

/-- **An effect on accounts with their united privileges is one on the accounts themselves.** -/
theorem Effect.of_union {env : Environment} {accounts : List Passed} {spendable : Amount}
    {before after : Books} {i : Instruction} {t : Trace}
    (h : Effect env (Passed.union accounts) spendable before i after t) :
    Effect env accounts spendable before i after t := by
  cases h with
  | createBridge received signed absent step =>
    exact .createBridge received signed.of_union absent step
  | configureChain signed bridge chain step =>
    exact .configureChain signed.of_union bridge chain step
  | setChainActive signed bridge chain step =>
    exact .setChainActive signed.of_union bridge chain step
  | updateThreshold signed bridge roster step =>
    exact .updateThreshold signed.of_union bridge roster step
  | setFeeSchedule signed bridge step => exact .setFeeSchedule signed.of_union bridge step
  | setAuthority signed bridge step => exact .setAuthority signed.of_union bridge step
  | openSponsor signed absent => exact .openSponsor signed.of_union absent
  | depositSponsor signed bridge sponsor vault own step books place =>
    exact .depositSponsor signed.of_union bridge sponsor vault own step books place.of_union
  | withdrawSponsor signed bridge sponsor vault own step books place =>
    exact .withdrawSponsor signed.of_union bridge sponsor vault own step books place.of_union
  | setSponsoredTarget signed sponsor own step =>
    exact .setSponsoredTarget signed.of_union sponsor own step
  | sendMessage signed bridge chain vault absent step owes =>
    exact .sendMessage signed.of_union bridge chain vault absent step owes
  | sendSponsored signed bridge chain sponsor vault absent step charged =>
    exact .sendSponsored signed.of_union bridge chain sponsor vault absent step charged
  | estimateFee bridge chain step => exact .estimateFee bridge chain step
  | markRelayed signed roster message step =>
    exact .markRelayed signed.of_union roster message step
  | confirmDelivery bridge roster message evidence step =>
    exact .confirmDelivery bridge roster message evidence step
  | reclaim signed bridge message vault step =>
    exact .reclaim signed.of_union bridge message vault step
  | registerRelayer signed authorized bridge roster vault step =>
    exact .registerRelayer signed.of_union authorized.of_union bridge roster vault step
  | unregisterRelayer signed bridge roster vault step =>
    exact .unregisterRelayer signed.of_union bridge roster vault step
  | removeRelayer signed bridge roster vault own step =>
    exact .removeRelayer signed.of_union bridge roster vault own step
  | claimCompensation signed bridge roster vault step =>
    exact .claimCompensation signed.of_union bridge roster vault step
  | openReceipt signed receipt nonzero => exact .openReceipt signed.of_union receipt nonzero
  | openCursor signed cursor named => exact .openCursor signed.of_union cursor named
  | processMessage given signed bridge chain roster receiptHeld vault cursorHeld named own evidence
      liquid step payment =>
    exact .processMessage given signed.of_union bridge chain roster receiptHeld vault cursorHeld
      named own evidence liquid step payment
  | processBatch given signed bridge chain roster vault receiptsHeld evidence liquid step payment =>
    exact .processBatch given signed.of_union bridge chain roster vault receiptsHeld evidence liquid
      step payment

end QuorumRelay
