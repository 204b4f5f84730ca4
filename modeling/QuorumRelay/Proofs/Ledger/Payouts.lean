import QuorumRelay.Proofs.Ledger.Obligations
import QuorumRelay.Proofs.Ledger.Receipts

/-!
# What deliveries are paid from

Delivering a message pays its value into an inbox, and nobody locked that value
here: it was locked on the chain that the message came from.  What is paid for
deliveries is bounded twice.  It is at most what the vault has above its rent and
all that it owes (`Effect.paid_le_surplus`), since the program computes just this
before the first delivery and checks the sum of the values against it.  And it is
at most the sum of the values of the messages that the instruction marked as
executed (`Effect.paid_le_executedValue`), since a message that was executed
before is passed over.
-/

namespace QuorumRelay

/-- A message is newly executed if its digest is marked after and was not before. -/
def Books.newlyExecuted (b : Bridge) (before after : Books) (m : InboundMessage) : Bool :=
  match Digest.ofMessage b.hostChain b.identity m with
  | .ok d => !before.marked d && after.marked d
  | .error _ => false

/-- The sum of the values of the messages that an instruction newly executed. -/
def Instruction.executedValue (i : Instruction) (b : Bridge) (before after : Books) : Nat :=
  ((i.messages.filter (Books.newlyExecuted b before after)).map fun m => m.value.toNat).sum

/-- Only the two instructions that execute messages begin deliveries and pay for them. -/
def Instruction.Kind.delivers (k : Instruction.Kind) : Bool :=
  k = .processMessage || k = .processBatch

/-- What can be paid as value is what is left above all that is owed. -/
theorem Liquid.toNat_eq {spendable liquidity : Amount} {b : Bridge} {r : Roster}
    (h : Liquid spendable b r liquidity) : liquidity.toNat = spendable.toNat - owing b r := by
  obtain ⟨staked, owed, hstaked, howed, rfl⟩ := h
  rw [Amount.toNat_monus, Bridge.reserved_eq_ok howed, Roster.totalStake_eq_ok.1 hstaked, owing]

variable {env : Environment} {A : List Passed} {spendable : Amount} {before after : Books}
  {i : Instruction} {t : Trace} {b : Bridge} {r : Roster}

/-- **Other instructions deliver nothing.** -/
theorem Effect.of_not_delivers (h : Effect env A spendable before i after t)
    (hkind : i.kind.delivers = false) : t.attempts = [] ∧ t.payments = [] ∧ t.given = 0 := by
  cases h with
  | processMessage | processBatch => cases hkind
  | _ => exact ⟨rfl, rfl, rfl⟩

/-- **Deliveries are paid from what is owed to nobody.** -/
theorem Effect.paid_le_surplus (h : Effect env A spendable before i after t)
    (hb : before .bridge = some b) (hr : before .roster = some r)
    (hsolvent : owing b r ≤ spendable.toNat) :
    owing b r + paid t.payments ≤ spendable.toNat := by
  cases h with
  | processMessage given signed bridge chain roster receiptHeld vault cursorHeld named own evidence
      liquid step payment =>
    rename_i digest m attestations submitter b₁ c r₁ receipt v cursor proven liquidity executor
      world o s payments
    obtain rfl : b₁ = b := by simpa [hb] using bridge.symm
    obtain rfl : r₁ = r := by simpa [hr] using roster.symm
    have hvalue : m.value.toNat ≤ liquidity.toNat := step.liquidity
    have hpaid : paid payments ≤ m.value.toNat := by simpa using payment.paid_le
    rw [liquid.toNat_eq] at hvalue
    show owing b₁ r₁ + paid payments ≤ spendable.toNat
    omega
  | processBatch given signed bridge chain roster vault receiptsHeld evidence liquid step payment =>
    rename_i messages attestations extras submitter b₁ c r₁ v receipts ds proven liquidity executors
      world o s payments
    obtain rfl : b₁ = b := by simpa [hb] using bridge.symm
    obtain rfl : r₁ = r := by simpa [hr] using roster.symm
    have hpaid := payment.paid_le
    rw [List.map_map] at hpaid
    have hvalue : _ ≤ liquidity.toNat := Nat.le_trans hpaid step.value_le
    rw [liquid.toNat_eq] at hvalue
    show owing b₁ r₁ + paid payments ≤ spendable.toNat
    omega
  | _ => exact hsolvent

/-- A message is newly executed if its digest is among those that were begun. -/
theorem Books.newlyExecuted_of_mem {attempts : List Digest} {m : InboundMessage} {d : Digest}
    (hstep : ReceiptStep before after attempts d)
    (hd : Digest.ofMessage b.hostChain b.identity m = .ok d) (hmem : d ∈ attempts) :
    newlyExecuted b before after m = true := by
  obtain ⟨-, hbefore, hafter⟩ := hstep.of_mem hmem
  simp [newlyExecuted, hd, hbefore, hafter]

/-- A message that was executed before is not newly executed. -/
theorem Books.not_newlyExecuted_of_marked {m : InboundMessage} {d : Digest}
    (hd : Digest.ofMessage b.hostChain b.identity m = .ok d) (hmarked : before.marked d = true) :
    newlyExecuted b before after m = false := by
  simp [newlyExecuted, hd, hmarked]

/-- **The members of a batch that are newly executed are those that were not passed over.** -/
theorem Books.newlyExecuted_of_member {ω : Type} {s : Inbound.Submission}
    {executors : List (Executor ω)} {messages : List InboundMessage}
    {attestations : List Attestation} {st st' : Inbound.BatchState ω} {ds : List Digest}
    {o : Inbound.BatchOutcome} {m : Inbound.Member ω}
    (hbatched : Inbound.Batched s executors messages attestations st ds o st')
    (hheld : List.Forall₂ (fun d receipt => before (.receipt d) = some receipt) ds st.receipts)
    (hreceipts : ∀ d, ReceiptStep before after
      (Inbound.executedDigests messages ds st.receipts executors) d)
    (hm : m ∈ Inbound.members messages ds st.receipts executors) :
    newlyExecuted s.bridge before after m.message = m.pending := by
  obtain ⟨hd, receipt, hreceipt, hpending⟩ := hbatched.of_member hm
  have hbefore : before.marked m.digest = receipt.contains m.digest := by
    rw [marked, List.forall₂_zip hheld hreceipt]
  cases hmarked : receipt.contains m.digest with
  | true =>
    rw [hpending, hmarked]
    exact not_newlyExecuted_of_marked hd (hbefore.trans hmarked)
  | false =>
    rw [hmarked, Bool.not_false] at hpending
    rw [hpending]
    refine newlyExecuted_of_mem (hreceipts m.digest) hd ?_
    exact List.mem_map.2 ⟨m, List.mem_filter.2 ⟨hm, hpending⟩, rfl⟩

/-- The messages of a batch that are newly executed. -/
theorem Books.filter_newlyExecuted {ω : Type} {s : Inbound.Submission}
    {executors : List (Executor ω)} {messages : List InboundMessage}
    {attestations : List Attestation} {st st' : Inbound.BatchState ω} {ds : List Digest}
    {o : Inbound.BatchOutcome}
    (hbatched : Inbound.Batched s executors messages attestations st ds o st')
    (hheld : List.Forall₂ (fun d receipt => before (.receipt d) = some receipt) ds st.receipts)
    (hreceipts : ∀ d, ReceiptStep before after
      (Inbound.executedDigests messages ds st.receipts executors) d) :
    messages.filter (newlyExecuted s.bridge before after) =
      ((Inbound.members messages ds st.receipts executors).filter Inbound.Member.pending).map
        Inbound.Member.message := by
  have hds := Inbound.length_digests hbatched.digests
  have hmessages := Inbound.map_message_members hds hbatched.lengths.2 hbatched.lengths.1
  conv_lhs => rw [← hmessages, List.filter_map]
  exact congrArg _ (List.filter_congr fun m hm =>
    newlyExecuted_of_member hbatched hheld hreceipts hm)

/-- **Deliveries are paid for messages that were newly executed.** -/
theorem Effect.paidFor (h : Effect env A spendable before i after t)
    (hb : before .bridge = some b) (hbound : before.Bound) :
    PaidFor t.payments (i.messages.filter (Books.newlyExecuted b before after)) := by
  have hreceipts := h.receiptStep hbound
  cases h with
  | processMessage given signed bridge chain roster receiptHeld vault cursorHeld named own evidence
      liquid step payment =>
    rename_i digest m attestations submitter b₁ c r₁ receipt v cursor proven liquidity executor
      world o s payments
    obtain rfl : b₁ = b := by simpa [hb] using bridge.symm
    have hnew := Books.newlyExecuted_of_mem (hreceipts digest) own List.mem_cons_self
    simpa [Instruction.messages, hnew] using payment
  | processBatch given signed bridge chain roster vault receiptsHeld evidence liquid step payment =>
    rename_i messages attestations extras submitter b₁ c r₁ v receipts ds proven liquidity executors
      world o s payments
    obtain rfl : b₁ = b := by simpa [hb] using bridge.symm
    show PaidFor payments (messages.filter _)
    rw [Books.filter_newlyExecuted step receiptsHeld hreceipts]
    exact payment
  | _ => exact .nil

/-- **Deliveries are paid at most the values of the messages that were newly executed.** -/
theorem Effect.paid_le_executedValue (h : Effect env A spendable before i after t)
    (hb : before .bridge = some b) (hbound : before.Bound) :
    paid t.payments ≤ i.executedValue b before after :=
  (h.paidFor hb hbound).paid_le

end QuorumRelay
