import QuorumRelay.Proofs.Ledger.Program
import QuorumRelay.Proofs.Ledger.Writeback

/-!
# Instructions write back what they changed

Each instruction is walked once, and each walk ends in the records that it writes.  There are
three reasons why a record has room.  It stands in an account that was just created for it
(`Ledger.Created.room`); it has the same length as the one that was read
(`Ledger.Room.change`, with nothing to show where a kind has one length); or a list in it has
grown, and a rule of the program keeps that list short, as it does with the slots of a roster
(`Roster.Change.room`) and with the destinations of a sponsor.
-/

namespace QuorumRelay

/-- The account of a message is created with room for the message that is queued. -/
theorem Outbox.Queued.room {sender : Key} {q : SendRequest} {now : Slot} {o o' : Outbox}
    {m : OutboundMessage} (h : Queued sender q now o m o') {l l' : Ledger} {payer : AccountId}
    {nonce : Nonce}
    (hl : l.Created payer (.outbound nonce) (OutboundMessage.sizeFor q.payload.length) l')
    (bump : UInt8) : l'.Room (.outbound nonce) { m with bump } := by
  refine hl.room (p := .outbound nonce) (h.fits nonce bump) ?_
  show OutboundMessage.sizeFor m.payload.length = _
  rw [h.message]

/-- A message needs the same room whatever its status. -/
theorem Ledger.Room.setStatus {l : Ledger} {nonce : Nonce} {m : OutboundMessage}
    (h : l.Room (.outbound nonce) m) (status : MessageStatus) :
    l.Room (.outbound nonce) { m with status } :=
  h.change h.bounded rfl

/-- A sponsor needs the same room as long as its list is the same. -/
theorem Ledger.Room.of_targets {l : Ledger} {owner : Key} {s s' : Sponsor}
    (h : l.Room (.sponsor owner) s) (htargets : s'.targets = s.targets) :
    l.Room (.sponsor owner) s' :=
  h.change (Nat.le_trans (Nat.le_of_eq (congrArg List.length htargets)) h.bounded) rfl

/-- A roster has room for what one change makes of it. -/
theorem Roster.Change.room {l : Ledger} {r r' : Roster} (hc : Roster.Change r r'.slots)
    (h : l.Room .roster r) : l.Room .roster r' :=
  h.change (Nat.le_trans hc.length_le (Nat.max_le.2 ⟨h.bounded, Nat.le_refl _⟩)) rfl

namespace Exec

variable {env : Environment} {l : Ledger}

/-! ## The governor -/

theorem createBridge_stores (settings : Bridge.Settings) :
    Stores l l (Exec.createBridge settings) := by
  unfold Exec.createBridge
  refine .look .takeFresh fun bridge _ => ?_
  refine .look .takeFresh fun vault _ => ?_
  refine .look .takeFresh fun roster _ => ?_
  refine .look .take fun executor _ => ?_
  refine .look .takeSigner fun authority _ => ?_
  refine .look .takeSystemProgram fun _ _ => ?_
  refine .init fun hbridge l₁ hl₁ => ?_
  refine .init fun hvault l₂ hl₂ => ?_
  refine .init fun hroster l₃ hl₃ => ?_
  refine .look .checkSeeds fun _ _ => ?_
  refine .look .checkWritable fun _ _ => ?_
  refine .look .check fun created _ => ?_
  refine .look .note fun _ _ => ?_
  have hkept := hl₂.keeps.trans hl₃.keeps
  refine .heldSave .bridge hbridge ((hl₁.room (p := .bridge) trivial rfl).mono hkept.sameSizes) ?_
  refine .heldSave .vault hvault
    ((hl₂.room (p := .vault) trivial rfl).mono hl₃.keeps.sameSizes) ?_
  exact .last (.heldSave .roster hroster (hl₃.room (p := .roster) (Nat.zero_le _) rfl) .pure)

theorem configureChain_stores (id : ChainId) (limits : Chain.Limits) :
    Stores l l (Exec.configureChain id limits) := by
  unfold Exec.configureChain
  refine .look .takeRecord fun bridge _ => ?_
  refine .look .takeFresh fun chain _ => ?_
  refine .look .takeSigner fun authority _ => ?_
  refine .look .takeSystemProgram fun _ _ => ?_
  refine .initIfNeeded fun hchain c l' _ howns hsize => ?_
  refine .look .heldSeeds fun _ _ => ?_
  refine .look .checkWritable fun _ _ => ?_
  refine .look .perform fun ⟨_, c'⟩ _ => ?_
  refine .look .emit fun _ _ => .look .note fun _ _ => ?_
  exact .last (.heldSave (.chain id) hchain ⟨howns, trivial, hsize⟩ .pure)

theorem setChainActive_stores (hr : l.Roomy) (id : ChainId) (active : Bool) :
    Stores l l (Exec.setChainActive id active) := by
  unfold Exec.setChainActive
  refine .look .takeRecord fun bridge _ => ?_
  refine .look .takeRecord fun chain hc => ?_
  refine .look .takeSigner fun authority _ => ?_
  refine .look .heldSeeds fun _ _ => ?_
  refine .look .heldSeeds fun _ hchain => ?_
  refine .look .heldWritable fun _ _ => ?_
  refine .look .perform fun ⟨_, c'⟩ _ => ?_
  refine .look .emit fun _ _ => .look .note fun _ _ => ?_
  have hroom := hr.room (.chain id) hc hchain
  exact .last (.heldSave (.chain id) hchain (hroom.change trivial rfl) .pure)

theorem updateThreshold_stores (hr : l.Roomy) (required : UInt8) :
    Stores l l (Exec.updateThreshold required) := by
  unfold Exec.updateThreshold
  refine .look .takeRecord fun bridge _ => ?_
  refine .look .takeRecord fun roster hload => ?_
  refine .look .takeSigner fun authority _ => ?_
  refine .look .heldSeeds fun _ _ => ?_
  refine .look .heldSeeds fun _ hroster => ?_
  refine .look .heldWritable fun _ _ => ?_
  refine .perform fun _ r hstep => ?_
  refine .look .emit fun _ _ => .look .note fun _ _ => ?_
  have hroom := hr.room .roster hload hroster
  obtain ⟨-, -, rfl⟩ := Roster.setThreshold_eq_ok (Membership.updateThreshold_eq_ok hstep).2
  exact .last (.heldSave .roster hroster (hroom.change hroom.bounded rfl) .pure)

theorem setFeeSchedule_stores (hr : l.Roomy) (fees : FeeSchedule) :
    Stores l l (Exec.setFeeSchedule fees) := by
  unfold Exec.setFeeSchedule
  refine .look .takeRecord fun bridge hb => ?_
  refine .look .takeSigner fun authority _ => ?_
  refine .look .heldSeeds fun _ hbridge => ?_
  refine .look .heldWritable fun _ _ => ?_
  refine .perform fun _ b _ => ?_
  refine .look .emit fun _ _ => .look .note fun _ _ => ?_
  have hroom := hr.room .bridge hb hbridge
  exact .last (.heldSave .bridge hbridge (hroom.change trivial rfl) .pure)

theorem setAuthority_stores (hr : l.Roomy) (newAuthority : Key) :
    Stores l l (Exec.setAuthority newAuthority) := by
  unfold Exec.setAuthority
  refine .look .takeRecord fun bridge hb => ?_
  refine .look .takeSigner fun authority _ => ?_
  refine .look .heldSeeds fun _ hbridge => ?_
  refine .look .heldWritable fun _ _ => ?_
  refine .perform fun previous b _ => ?_
  refine .look .emit fun _ _ => .look .note fun _ _ => ?_
  have hroom := hr.room .bridge hb hbridge
  exact .last (.heldSave .bridge hbridge (hroom.change trivial rfl) .pure)

/-! ## Sending -/

/-- Announcing a message touches no record. -/
theorem Looks.announceMessage {b : Bridge} {c : Chain} {m : OutboundMessage} :
    Looks l (Exec.announceMessage b c m) fun _ => True := by
  unfold Exec.announceMessage
  exact .bind .emit fun _ _ => .note

theorem sendMessage_stores (hr : l.Roomy) (q : SendRequest) :
    Stores l l (Exec.sendMessage env q) := by
  unfold Exec.sendMessage
  refine .look .takeRecord fun bridge hb => ?_
  refine .look .takeRecord fun chain hc => ?_
  refine .look .takeFresh fun target _ => ?_
  refine .look .takeRecord fun vault _ => ?_
  refine .look .takeSigner fun sender _ => ?_
  refine .look .takeSystemProgram fun _ _ => ?_
  refine .init fun htarget l' hl => ?_
  refine .look .heldSeeds fun _ hbridge => ?_
  refine .look .heldWritable fun _ _ => ?_
  refine .look .heldSeeds fun _ hchain => ?_
  refine .look .heldWritable fun _ _ => ?_
  refine .look .heldSeeds fun _ _ => ?_
  refine .look .heldWritable fun _ _ => ?_
  refine .look .checkWritable fun _ _ => ?_
  refine .perform fun m o hstep => ?_
  refine .look .check fun owed _ => ?_
  refine .deposit fun l'' => ?_
  refine .look .announceMessage fun _ _ => ?_
  have hbridgeRoom := (hr.room .bridge hb hbridge).mono hl.keeps.sameSizes
  have hchainRoom := (hr.room (.chain q.destinationChain) hc hchain).mono hl.keeps.sameSizes
  have hroom := (Outbox.queued_of_queue hstep).room hl derivedBump
  refine .heldSave .bridge hbridge (hbridgeRoom.change trivial rfl) ?_
  refine .heldSave (.chain q.destinationChain) hchain (hchainRoom.change trivial rfl) ?_
  exact .heldSave (.outbound bridge.value.nextNonce) htarget hroom .pure

theorem sendSponsored_stores (hr : l.Roomy) (q : SendRequest) :
    Stores l l (Exec.sendSponsored env q) := by
  unfold Exec.sendSponsored
  refine .look .takeRecord fun bridge hb => ?_
  refine .look .takeRecord fun chain hc => ?_
  refine .look .takeFresh fun target _ => ?_
  refine .look .takeRecord fun sponsor hs => ?_
  refine .look .takeRecord fun vault _ => ?_
  refine .look .takeSigner fun sender _ => ?_
  refine .look .takeSystemProgram fun _ _ => ?_
  refine .init fun htarget l' hl => ?_
  refine .look .heldSeeds fun _ hbridge => ?_
  refine .look .heldWritable fun _ _ => ?_
  refine .look .heldSeeds fun _ hchain => ?_
  refine .look .heldWritable fun _ _ => ?_
  refine .look .heldSeeds fun _ hsponsor => ?_
  refine .look .heldWritable fun _ _ => ?_
  refine .look .heldSeeds fun _ _ => ?_
  refine .look .heldWritable fun _ _ => ?_
  refine .look .checkWritable fun _ _ => ?_
  refine .perform fun m o hstep => ?_
  refine .deposit fun l'' => ?_
  refine .look .note fun _ _ => ?_
  refine .look .announceMessage fun _ _ => ?_
  have hbridgeRoom := (hr.room .bridge hb hbridge).mono hl.keeps.sameSizes
  have hchainRoom := (hr.room (.chain q.destinationChain) hc hchain).mono hl.keeps.sameSizes
  have hsponsorRoom := (hr.room (.sponsor sponsor.value.owner) hs hsponsor).mono hl.keeps.sameSizes
  have hqueued := Outbox.queued_of_queue hstep
  have htargets : (o.sponsor.getD sponsor.value).targets = sponsor.value.targets := by
    rcases hqueued.paid with ⟨hnone, -⟩ | ⟨_, charged, hsome, hspend, -, hcharged⟩
    · cases hnone
    · cases hsome
      rw [hcharged, Option.getD_some, (Sponsor.spend_eq_ok hspend).2]
  refine .heldSave .bridge hbridge (hbridgeRoom.change trivial rfl) ?_
  refine .heldSave (.chain q.destinationChain) hchain (hchainRoom.change trivial rfl) ?_
  refine .heldSave (.outbound bridge.value.nextNonce) htarget (hqueued.room hl derivedBump) ?_
  exact .heldSave (.sponsor sponsor.value.owner) hsponsor (hsponsorRoom.of_targets htargets) .pure

theorem estimateFee_stores (id : ChainId) (size : UInt32) (budget : UInt64) :
    Stores l l (Exec.estimateFee id size budget) := by
  unfold Exec.estimateFee
  refine .look .takeRecord fun bridge _ => ?_
  refine .look .takeRecord fun chain _ => ?_
  refine .look .heldSeeds fun _ _ => ?_
  refine .look .heldSeeds fun _ _ => ?_
  exact .last (.look .check fun _ _ => .pure)

/-! ## Settling -/

/-- Announcing a status touches no record. -/
theorem Looks.announceStatus {nonce : Nonce} {status : MessageStatus} :
    Looks l (Exec.announceStatus nonce status) fun _ => True := by
  unfold Exec.announceStatus
  exact .bind .emit fun _ _ => .note

theorem markRelayed_stores (hr : l.Roomy) (nonce : Nonce) :
    Stores l l (Exec.markRelayed nonce) := by
  unfold Exec.markRelayed
  refine .look .takeRecord fun roster _ => ?_
  refine .look .takeRecord fun message hm => ?_
  refine .look .takeSigner fun relayer _ => ?_
  refine .look .heldSeeds fun _ _ => ?_
  refine .look .heldSeeds fun _ hplace => ?_
  refine .look .heldWritable fun _ _ => ?_
  refine .perform fun _ m hstep => ?_
  refine .look .announceStatus fun _ _ => ?_
  have hroom := (hr.room (.outbound nonce) hm hplace).setStatus .relayed
  rw [← (OutboundMessage.pickUp_eq_ok hstep).2] at hroom
  exact .last (.heldSave (.outbound nonce) hplace hroom .pure)

theorem confirmDelivery_stores (hr : l.Roomy) (nonce : Nonce) (attestations : List Attestation) :
    Stores l l (Exec.confirmDelivery env nonce attestations) := by
  unfold Exec.confirmDelivery
  refine .look .takeRecord fun bridge hb => ?_
  refine .look .takeRecord fun roster _ => ?_
  refine .look .takeRecord fun message hm => ?_
  refine .look .take fun instructions _ => ?_
  refine .look .takeSigner fun submitter _ => ?_
  refine .look .heldSeeds fun _ hbridge => ?_
  refine .look .heldWritable fun _ _ => ?_
  refine .look .heldSeeds fun _ _ => ?_
  refine .look .heldSeeds fun _ hplace => ?_
  refine .look .heldWritable fun _ _ => ?_
  refine .look .checkAddress fun _ _ => ?_
  refine .look .check fun proven _ => ?_
  refine .perform fun digest s hstep => ?_
  refine .look .announceStatus fun _ _ => ?_
  have hroom := (hr.room (.outbound nonce) hm hplace).setStatus .confirmed
  rw [← (Settlement.confirm_eq_ok hstep).2.2.2.1] at hroom
  refine .heldSave .bridge hbridge ((hr.room .bridge hb hbridge).change trivial rfl) ?_
  exact .last (.heldSave (.outbound nonce) hplace hroom .pure)

theorem reclaim_stores (hr : l.Roomy) (nonce : Nonce) : Stores l l (Exec.reclaim env nonce) := by
  unfold Exec.reclaim
  refine .look .takeRecord fun bridge hb => ?_
  refine .look .takeRecord fun message hm => ?_
  refine .look .takeRecord fun vault _ => ?_
  refine .look .takeSigner fun sender _ => ?_
  refine .look .heldSeeds fun _ hbridge => ?_
  refine .look .heldWritable fun _ _ => ?_
  refine .look .heldSeeds fun _ hplace => ?_
  refine .look .heldWritable fun _ _ => ?_
  refine .look .heldSeeds fun _ _ => ?_
  refine .look .heldWritable fun _ _ => ?_
  refine .look .checkWritable fun _ _ => ?_
  refine .perform fun refund s hstep => ?_
  refine .withdraw fun l' => ?_
  refine .look .note fun _ _ => ?_
  refine .look .announceStatus fun _ _ => ?_
  have hroom := (hr.room (.outbound nonce) hm hplace).setStatus .failed
  rw [← (Settlement.reclaim_eq_ok hstep).2.2.2.2.1] at hroom
  refine .heldSave .bridge hbridge ((hr.room .bridge hb hbridge).change trivial rfl) ?_
  exact .last (.heldSave (.outbound nonce) hplace hroom .pure)

/-! ## Relayers -/

theorem registerRelayer_stores (hr : l.Roomy) (publicKey : Key) (stake : Amount) :
    Stores l l (Exec.registerRelayer env publicKey stake) := by
  unfold Exec.registerRelayer
  refine .look .takeRecord fun bridge _ => ?_
  refine .look .takeRecord fun roster hload => ?_
  refine .look .takeRecord fun vault _ => ?_
  refine .look .takeSigner fun owner _ => ?_
  refine .look .takeSigner fun authority _ => ?_
  refine .look .takeSystemProgram fun _ _ => ?_
  refine .look .heldSeeds fun _ _ => ?_
  refine .look .heldSeeds fun _ hroster => ?_
  refine .look .heldWritable fun _ _ => ?_
  refine .look .heldSeeds fun _ _ => ?_
  refine .look .heldWritable fun _ _ => ?_
  refine .look .checkWritable fun _ _ => ?_
  refine .perform fun index r hstep => ?_
  refine .deposit fun l' => ?_
  refine .look .emit fun _ _ => .look .note fun _ _ => ?_
  have hchange := Roster.Change.of_register_ok (Membership.register_eq_ok hstep).2
  exact .last (.heldSave .roster hroster (hchange.room (hr.room .roster hload hroster)) .pure)

/-- A payment to a relayer that leaves touches no record. -/
theorem Stores.payOut {α : Type} {l₀ : Ledger} {vault : Held Vault} {owner : Passed} {d : Departure}
    {k : Unit → Exec α} (h : ∀ l', Stores l₀ l' (k ())) :
    Stores l₀ l (Exec.payOut vault owner d >>= k) := by
  unfold Exec.payOut
  refine .assoc (.withdraw fun l' => .assoc ?_)
  exact .look .emit fun _ _ => .look .note fun _ _ => h l'

theorem unregisterRelayer_stores (hr : l.Roomy) (index : UInt8) :
    Stores l l (Exec.unregisterRelayer index) := by
  unfold Exec.unregisterRelayer
  refine .look .takeRecord fun bridge hb => ?_
  refine .look .takeRecord fun roster hload => ?_
  refine .look .takeRecord fun vault _ => ?_
  refine .look .takeSigner fun owner _ => ?_
  refine .look .heldSeeds fun _ hbridge => ?_
  refine .look .heldWritable fun _ _ => ?_
  refine .look .heldSeeds fun _ hroster => ?_
  refine .look .heldWritable fun _ _ => ?_
  refine .look .heldSeeds fun _ _ => ?_
  refine .look .heldWritable fun _ _ => ?_
  refine .look .checkWritable fun _ _ => ?_
  refine .perform fun departure m hstep => ?_
  refine .payOut fun l' => ?_
  obtain ⟨_, hleave, -⟩ := Membership.unregister_eq_ok hstep
  have hchange := Roster.Change.of_remove (Roster.unregister_eq_ok hleave).2
  refine .heldSave .bridge hbridge ((hr.room .bridge hb hbridge).change trivial rfl) ?_
  exact .last (.heldSave .roster hroster (hchange.room (hr.room .roster hload hroster)) .pure)

theorem removeRelayer_stores (hr : l.Roomy) (index : UInt8) :
    Stores l l (Exec.removeRelayer index) := by
  unfold Exec.removeRelayer
  refine .look .takeRecord fun bridge hb => ?_
  refine .look .takeRecord fun roster hload => ?_
  refine .look .takeRecord fun vault _ => ?_
  refine .look .take fun owner _ => ?_
  refine .look .takeSigner fun authority _ => ?_
  refine .look .heldSeeds fun _ hbridge => ?_
  refine .look .heldWritable fun _ _ => ?_
  refine .look .heldSeeds fun _ hroster => ?_
  refine .look .heldWritable fun _ _ => ?_
  refine .look .heldSeeds fun _ _ => ?_
  refine .look .heldWritable fun _ _ => ?_
  refine .look .checkWritable fun _ _ => ?_
  refine .perform fun departure m hstep => ?_
  refine .look .check fun _ _ => ?_
  refine .payOut fun l' => ?_
  obtain ⟨-, e, hleave, -⟩ := Membership.remove_eq_ok hstep
  have hchange := Roster.Change.of_remove hleave
  refine .heldSave .bridge hbridge ((hr.room .bridge hb hbridge).change trivial rfl) ?_
  exact .last (.heldSave .roster hroster (hchange.room (hr.room .roster hload hroster)) .pure)

theorem claimCompensation_stores (hr : l.Roomy) (index : UInt8) (amount : Amount) :
    Stores l l (Exec.claimCompensation index amount) := by
  unfold Exec.claimCompensation
  refine .look .takeRecord fun bridge hb => ?_
  refine .look .takeRecord fun roster hload => ?_
  refine .look .takeRecord fun vault _ => ?_
  refine .look .takeSigner fun owner _ => ?_
  refine .look .heldSeeds fun _ hbridge => ?_
  refine .look .heldWritable fun _ _ => ?_
  refine .look .heldSeeds fun _ hroster => ?_
  refine .look .heldWritable fun _ _ => ?_
  refine .look .heldSeeds fun _ _ => ?_
  refine .look .heldWritable fun _ _ => ?_
  refine .look .checkWritable fun _ _ => ?_
  refine .perform fun _ m hstep => ?_
  refine .withdraw fun l' => ?_
  refine .look .emit fun _ _ => .look .note fun _ _ => ?_
  have hchange := Roster.Change.of_debitEarnings (Membership.claim_eq_ok hstep).2.1
  refine .heldSave .bridge hbridge ((hr.room .bridge hb hbridge).change trivial rfl) ?_
  exact .last (.heldSave .roster hroster (hchange.room (hr.room .roster hload hroster)) .pure)

/-! ## Sponsors -/

/-- A sponsor's account that was checked is where it belongs. -/
theorem Looks.checkSponsor {s : Held Sponsor} {owner : Passed} :
    Looks l (Exec.checkSponsor s owner) fun _ => s.id = .sponsor owner.id.key := by
  unfold Exec.checkSponsor
  refine .bind .heldSeeds fun _ hid => .bind .heldWritable fun _ _ => ?_
  split
  · exact .pure hid
  · exact .failAt nofun

/-- Announcing a balance touches no record. -/
theorem Looks.announceBalance {s : Sponsor} :
    Looks l (Exec.announceBalance s) fun _ => True := by
  unfold Exec.announceBalance
  exact .bind .emit fun _ _ => .note

theorem openSponsor_stores : Stores l l Exec.openSponsor := by
  unfold Exec.openSponsor
  refine .look .takeFresh fun target _ => ?_
  refine .look .takeSigner fun owner _ => ?_
  refine .look .takeSystemProgram fun _ _ => ?_
  refine .init fun htarget l' hl => ?_
  refine .look .checkWritable fun _ _ => ?_
  refine .look .note fun _ _ => ?_
  have hroom := hl.room (p := .sponsor owner.id.key)
    (v := { ({} : Sponsor) with owner := owner.id.key, bump := derivedBump }) (Nat.zero_le _) rfl
  exact .last (.heldSave (.sponsor owner.id.key) htarget hroom .pure)

theorem depositSponsor_stores (hr : l.Roomy) (amount : Amount) :
    Stores l l (Exec.depositSponsor amount) := by
  unfold Exec.depositSponsor
  refine .look .takeRecord fun bridge hb => ?_
  refine .look .takeRecord fun sponsor hs => ?_
  refine .look .takeRecord fun vault _ => ?_
  refine .look .takeSigner fun owner _ => ?_
  refine .look .takeSystemProgram fun _ _ => ?_
  refine .look .heldSeeds fun _ hbridge => ?_
  refine .look .heldWritable fun _ _ => ?_
  refine .look .checkSponsor fun _ hsponsor => ?_
  refine .look .heldSeeds fun _ _ => ?_
  refine .look .heldWritable fun _ _ => ?_
  refine .look .checkWritable fun _ _ => ?_
  refine .perform fun _ s hstep => ?_
  refine .perform fun _ b _ => ?_
  refine .deposit fun l' => ?_
  refine .look .announceBalance fun _ _ => ?_
  have htargets : s.targets = sponsor.value.targets := by rw [(Sponsor.deposit_eq_ok hstep).2.2]
  have hroom := (hr.room (.sponsor owner.id.key) hs hsponsor).of_targets htargets
  refine .heldSave .bridge hbridge ((hr.room .bridge hb hbridge).change trivial rfl) ?_
  exact .last (.heldSave (.sponsor owner.id.key) hsponsor hroom .pure)

theorem withdrawSponsor_stores (hr : l.Roomy) (amount : Amount) :
    Stores l l (Exec.withdrawSponsor amount) := by
  unfold Exec.withdrawSponsor
  refine .look .takeRecord fun bridge hb => ?_
  refine .look .takeRecord fun sponsor hs => ?_
  refine .look .takeRecord fun vault _ => ?_
  refine .look .takeSigner fun owner _ => ?_
  refine .look .takeSystemProgram fun _ _ => ?_
  refine .look .heldSeeds fun _ hbridge => ?_
  refine .look .heldWritable fun _ _ => ?_
  refine .look .checkSponsor fun _ hsponsor => ?_
  refine .look .heldSeeds fun _ _ => ?_
  refine .look .heldWritable fun _ _ => ?_
  refine .look .checkWritable fun _ _ => ?_
  refine .perform fun _ s hstep => ?_
  refine .perform fun _ b _ => ?_
  refine .withdraw fun l' => ?_
  refine .look .announceBalance fun _ _ => ?_
  have htargets : s.targets = sponsor.value.targets := by rw [(Sponsor.withdraw_eq_ok hstep).2.2]
  have hroom := (hr.room (.sponsor owner.id.key) hs hsponsor).of_targets htargets
  refine .heldSave .bridge hbridge ((hr.room .bridge hb hbridge).change trivial rfl) ?_
  exact .last (.heldSave (.sponsor owner.id.key) hsponsor hroom .pure)

theorem setSponsoredTarget_stores (hr : l.Roomy) (target : Sponsor.Target) (allowed : Bool) :
    Stores l l (Exec.setSponsoredTarget target allowed) := by
  unfold Exec.setSponsoredTarget
  refine .look .takeRecord fun sponsor hs => ?_
  refine .look .takeSigner fun owner _ => ?_
  refine .look .checkSponsor fun _ hsponsor => ?_
  refine .perform fun _ s hstep => ?_
  refine .look .note fun _ _ => ?_
  have hroom := hr.room (.sponsor owner.id.key) hs hsponsor
  have hbounded : (Place.sponsor owner.id.key).Bounded s :=
    Nat.le_trans (Sponsor.length_le_of_setTarget hstep) (Nat.max_le.2 ⟨hroom.bounded, Nat.le_refl _⟩)
  exact .last (.heldSave (.sponsor owner.id.key) hsponsor (hroom.change hbounded rfl) .pure)

end Exec
end QuorumRelay
