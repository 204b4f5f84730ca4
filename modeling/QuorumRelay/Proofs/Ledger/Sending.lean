import QuorumRelay.Proofs.Ledger.Commit
import QuorumRelay.Proofs.Outbound.Queue

/-!
# Messages that are sent, committed
-/

namespace QuorumRelay

/-- A chain lets no payload pass that could not be written. -/
theorem Outbox.Queued.fits {sender : Key} {q : SendRequest} {now : Slot} {o o' : Outbox}
    {m : OutboundMessage} (h : Queued sender q now o m o') (nonce : Nonce) (bump : UInt8) :
    (Place.outbound nonce).Fits { m with bump } := by
  show m.payload.length < 2 ^ 32
  have hlimits := h.limits
  unfold Chain.checkLimits at hlimits
  simp only [except_bind_eq_ok, require_eq_ok] at hlimits
  obtain ⟨_, hsize, -⟩ := hlimits
  rw [h.message]
  exact Nat.lt_of_le_of_lt hsize o.chain.limits.maxMessageBytes.toNat_lt

/-- **A message that was queued is written**, with the bridge and the chain, to a ledger on which its
account was created and the sender has paid. -/
theorem Outbox.Queued.amends {sender : Key} {q : SendRequest} {now : Slot} {o o' : Outbox}
    {m : OutboundMessage} {l l₁ l₂ : Ledger} {payer payee : AccountId} {nonce : Nonce}
    {size amount : Nat} {b : Bridge} {c : Chain} (h : Queued sender q now o m o')
    (hcreated : l.Created payer (.outbound nonce) size l₁) (hpaid : l₁.Paid payer payee amount l₂)
    (hb : l.books .bridge = some b) (hc : l.books (.chain q.destinationChain) = some c) :
    l.Amends
      (((l.books.put .bridge o'.bridge).put (.chain q.destinationChain) o'.chain).put
        (.outbound nonce) { m with bump := derivedBump })
      (((l₂.write .bridge o'.bridge).write (.chain q.destinationChain) o'.chain).write
        (.outbound nonce) { m with bump := derivedBump }) := by
  have hamends := (Ledger.Amends.refl l).extend hcreated.keeps
  have hamends := hamends.extend hpaid.same.extends
  have hamends := hamends.change .bridge (v := o'.bridge) hb trivial nofun
  have hamends := hamends.change (.chain q.destinationChain) (v := o'.chain) hc trivial nofun
  have howns := hpaid.same.extends.owns hcreated.owns
  exact hamends.write (.outbound nonce) (Ledger.owns_write.2 (Ledger.owns_write.2 howns))
    (h.fits nonce derivedBump) nofun

namespace Exec

variable {env : Environment} {A : List Passed} {m : Machine}

/-- Announcing a message leaves an event and a log line. -/
theorem Ends.announceMessage {α : Type} {Q : α → Machine → Prop} {E : Refusal → Prop}
    {b : Bridge} {c : Chain} {message : OutboundMessage} {k : Unit → Exec α}
    (h : Ends A (k ()) ((m.announcing (sentEvent b c message)).noting
      (.messageSent message.nonce message.destinationChain message.fee message.feePayer)) Q E) :
    Ends A (Exec.announceMessage b c message >>= k) m Q E := by
  unfold Exec.announceMessage
  exact .assoc (.emit (.note h))

theorem sendMessage_ends (hk : m.ledger.Kept) (hA : HostSigned A) (q : SendRequest) :
    Ends A (Exec.sendMessage env q) m (fun _ m' => Commits env A ⟨.sendMessage, q⟩ m m')
      fun _ => True := by
  unfold Exec.sendMessage
  refine .takeRecord fun _ b _ _ hb => ?_
  refine .takeRecord fun _ c _ _ hc => ?_
  refine .takeFresh fun target _ _ => ?_
  refine .takeRecord fun _ v _ _ hv => ?_
  refine .takeSigner fun sender _ hp hsigned => ?_
  refine .takeSystemProgram fun _ => ?_
  refine .init fun htarget l hl => ?_
  refine .heldSeeds fun hbridge => ?_
  refine .heldWritable ?_
  refine .heldSeeds fun hchain => ?_
  refine .heldWritable ?_
  refine .heldSeeds fun hvault => ?_
  refine .heldWritable ?_
  refine .checkWritable ?_
  refine .perform (fun message o hstep => ?_) fun _ _ _ => trivial
  refine .check (fun owed howed => ?_) fun _ _ => trivial
  refine .onLedger (fun _ l' hdeposit => ?_) fun _ _ _ => trivial
  refine .announceMessage ?_
  refine .heldSave .bridge hbridge ?_
  refine .heldSave (.chain q.destinationChain) hchain ?_
  refine .heldSave (.outbound b.nextNonce) htarget (.pure ?_)
  rw [hvault] at hdeposit
  simp only [Machine.handing_ledger, Machine.holding_ledger] at hl hdeposit
  have hpaid := Ledger.deposit_eq_ok hdeposit
  have hb' := Ledger.books_of_load .bridge hb hbridge
  have hc' := Ledger.books_of_load (.chain q.destinationChain) hc hchain
  have hv' := Ledger.books_of_load .vault hv hvault
  have habsent := Ledger.absent_of_created (.outbound b.nextNonce) hl
  have hqueued := Outbox.queued_of_queue hstep
  have hne := hA.ne_vault hp hsigned
  have hamends := hqueued.amends hl hpaid hb' hc'
  have heffect : Effect env A (m.ledger.spendable .vault) m.ledger.books _ _ _ :=
    .sendMessage ⟨sender, hp, hsigned, rfl⟩ hb' hc' hv' habsent hstep howed
  exact .of_deposited hk hpaid hne (hl.others .vault hne (by simp)) hamends heffect nofun (by simp)
    (by simp)

theorem sendSponsored_ends (hk : m.ledger.Kept) (hA : HostSigned A) (q : SendRequest) :
    Ends A (Exec.sendSponsored env q) m (fun _ m' => Commits env A ⟨.sendSponsored, q⟩ m m')
      fun _ => True := by
  unfold Exec.sendSponsored
  refine .takeRecord fun _ b _ _ hb => ?_
  refine .takeRecord fun _ c _ _ hc => ?_
  refine .takeFresh fun target _ _ => ?_
  refine .takeRecord fun _ s _ _ hs => ?_
  refine .takeRecord fun _ v _ _ hv => ?_
  refine .takeSigner fun sender _ hp hsigned => ?_
  refine .takeSystemProgram fun _ => ?_
  refine .init fun htarget l hl => ?_
  refine .heldSeeds fun hbridge => ?_
  refine .heldWritable ?_
  refine .heldSeeds fun hchain => ?_
  refine .heldWritable ?_
  refine .heldSeeds fun hsponsor => ?_
  refine .heldWritable ?_
  refine .heldSeeds fun hvault => ?_
  refine .heldWritable ?_
  refine .checkWritable ?_
  refine .perform (fun message o hstep => ?_) fun _ _ _ => trivial
  refine .onLedger (fun _ l' hdeposit => ?_) fun _ _ _ => trivial
  refine .note (.announceMessage ?_)
  refine .heldSave .bridge hbridge ?_
  refine .heldSave (.chain q.destinationChain) hchain ?_
  refine .heldSave (.outbound b.nextNonce) htarget ?_
  refine .heldSave (.sponsor s.owner) hsponsor (.pure ?_)
  rw [hvault] at hdeposit
  simp only [Machine.handing_ledger, Machine.holding_ledger] at hl hdeposit
  have hpaid := Ledger.deposit_eq_ok hdeposit
  have hb' := Ledger.books_of_load .bridge hb hbridge
  have hc' := Ledger.books_of_load (.chain q.destinationChain) hc hchain
  have hs' := Ledger.books_of_load (.sponsor s.owner) hs hsponsor
  have hv' := Ledger.books_of_load .vault hv hvault
  have habsent := Ledger.absent_of_created (.outbound b.nextNonce) hl
  have hne := hA.ne_vault hp hsigned
  have hqueued := Outbox.queued_of_queue hstep
  obtain ⟨hnone, -⟩ | ⟨_, charged, hsome, hspend, -, hcharged⟩ := hqueued.paid
  · cases hnone
  cases hsome
  have hfits : (Place.sponsor s.owner).Fits charged := by
    have hfits := Ledger.fits_of_entry hs'
    rw [(Sponsor.spend_eq_ok hspend).2]
    exact hfits
  simp only [hcharged, Option.getD_some]
  have hamends := hqueued.amends hl hpaid hb' hc'
  have hamends := hamends.change (.sponsor s.owner) hs' hfits nofun
  have heffect : Effect env A (m.ledger.spendable .vault) m.ledger.books _ _ _ :=
    .sendSponsored ⟨sender, hp, hsigned, rfl⟩ hb' hc' hs' hv' habsent hstep hcharged
  exact .of_deposited hk hpaid hne (hl.others .vault hne (by simp)) hamends heffect nofun (by simp)
    (by simp)

theorem estimateFee_ends (hk : m.ledger.Kept) (id : ChainId) (size : UInt32) (budget : UInt64) :
    Ends A (Exec.estimateFee id size budget) m
      (fun _ m' => Commits env A ⟨.estimateFee, id, size, budget⟩ m m') fun _ => True := by
  unfold Exec.estimateFee
  refine .takeRecord fun _ b _ _ hb => ?_
  refine .takeRecord fun _ c _ _ hc => ?_
  refine .heldSeeds fun hbridge => ?_
  refine .heldSeeds fun hchain => ?_
  refine .last (.check (fun fee hfee => .pure ?_) fun _ _ => trivial)
  have hb' := Ledger.books_of_load .bridge hb hbridge
  have hc' := Ledger.books_of_load (.chain id) hc hchain
  exact .of_unpaid hk (.refl m.ledger) (.estimateFee hb' hc' hfee) nofun rfl (by simp)

end Exec
end QuorumRelay
