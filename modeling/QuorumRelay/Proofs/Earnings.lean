import QuorumRelay.Proofs.Governance
import QuorumRelay.Proofs.Inbound.Singly
import QuorumRelay.Proofs.Outbound.Locked
import QuorumRelay.Proofs.Seats

/-!
# What becomes of every reward

A delivery reports the reward that it brought its submitter.  The reward is added
to the earnings in a slot, from which the relayer claims as much as it likes and
the pool allows; and when the relayer leaves, what the pool does not cover of its
earnings is lost.  So each unit of each reward ends in one of three places: it was
paid out, it is still in a slot, or it was lost with a departure.

`Registry.earnings_conserved` is this equation for all runs.  No record holds the
sum of the rewards, nor what was lost: both are read off what the steps report
(`Registry.PayNotice`), which is what somebody sees who follows the bridge.

## What a batch reports

A batch credits a product once, and reports for each member a quotient.  That the
quotients add up to the product is a fact about this division, which leaves no
rest (`Inbound.credited_of_processBatch`).

## Slots

A slot is emptied with all that is in it, and filled with a new entry.  Which slot
a submitter is credited in does not matter to the sum; that it is one that has a
relayer in it does, and the credit looks.

## Runs with rollback

The steps of a run are those that were committed.  One that failed was undone by
the host, and is no step here.
-/

namespace QuorumRelay

/-! ## Earnings in slots -/

namespace Roster

variable {r r' : Roster} {i : UInt8} {e : Relayer} {amount : Amount} {n : Nat}

/-- The rewards that relayers earned and have not claimed. -/
def outstanding (r : Roster) : Nat := (r.relayers.map fun e => e.earned.toNat).sum

theorem outstanding_of_pays (h : Pays i n r r') : r'.outstanding = r.outstanding + n := by
  obtain ⟨e, earned, hseat, hearned, rfl⟩ := h
  have hsum := sum_relayers_setSlot (fun e => e.earned.toNat) hseat (some { e with earned })
  simp only [Option.elim_some, hearned] at hsum
  unfold outstanding
  omega

theorem outstanding_of_gains (h : Gains (some i) n r r') : r'.outstanding = r.outstanding + n := by
  by_cases hzero : n = 0
  · subst hzero
    rw [gains_zero.1 h, Nat.add_zero]
  · exact outstanding_of_pays ((gains_some hzero).1 h)

/-- What is claimed was outstanding. -/
theorem outstanding_of_debitEarnings {caller : Key} {u : Unit}
    (h : debitEarnings i caller amount r = .ok u r') :
    r'.outstanding + amount.toNat = r.outstanding := by
  obtain ⟨e, hseat, -, -, hle, rfl⟩ := debitEarnings_eq_ok h
  have hsum := sum_relayers_setSlot (fun e => e.earned.toNat) hseat
    (some { e with earned := e.earned - amount })
  simp only [Option.elim_some, UInt64.toNat_sub_of_le _ _ hle] at hsum
  have hle' : amount.toNat ≤ e.earned.toNat := hle
  unfold outstanding
  omega

/-- A relayer that joins has earned nothing. -/
theorem outstanding_of_register {owner publicKey : Key} {stake minimumStake : Amount} {now : Slot}
    (h : register owner publicKey stake minimumStake now r = .ok i r') :
    r'.outstanding = r.outstanding := by
  obtain ⟨-, -, n, seated, hplace, -, -, rfl⟩ := register_eq_ok h
  exact sum_relayers_place (fun e => e.earned.toNat) hplace

/-- A relayer that leaves takes its earnings out of the sum. -/
theorem outstanding_of_remove (h : remove i r = .ok e r') :
    r'.outstanding + e.earned.toNat = r.outstanding := by
  obtain ⟨hseat, -, -, rfl⟩ := remove_eq_ok h
  exact sum_relayers_setSlot (fun e => e.earned.toNat) hseat none

/-- Who sits in no slot is not found in one. -/
theorem indexOfOwner_eq_none {owner : Key} :
    r.indexOfOwner owner = none ↔ ∀ e ∈ r.relayers, e.owner ≠ owner := by
  unfold indexOfOwner relayers
  rw [Option.map_eq_none_iff, List.findIdx?_eq_none_iff]
  simp only [List.mem_filterMap, id, exists_eq_right]
  constructor
  · intro h e he howner
    simpa [howner] using h (some e) he
  · intro h slot hslot
    cases slot with
    | none => rfl
    | some e => simpa using h e hslot

/-- A call that gives a result keeps a roster well-formed, -/
theorem WellFormed.of_run {c : Call} (h : r.WellFormed) (hrun : c.run r = .ok () r') :
    r'.WellFormed := by
  have hkept := h.does_wellFormed (h.does c)
  rwa [Action.after_of_ok hrun] at hkept

/-- and so does a gain. -/
theorem WellFormed.of_gains {slot : Option UInt8} (h : r.WellFormed) (hgains : Gains slot n r r') :
    r'.WellFormed := by
  cases slot with
  | none =>
    obtain rfl : r' = r := hgains
    exact h
  | some i =>
    by_cases hzero : n = 0
    · subst hzero
      rw [gains_zero.1 hgains]
      exact h
    · obtain ⟨e, earned, hseat, -, rfl⟩ := (gains_some hzero).1 hgains
      exact h.does_wellFormed (.paid (c := .credit i 0) hseat)

/-- A roster as it is opened, with nobody in it. -/
theorem wellFormed_opened (bump : UInt8) : WellFormed { bump } :=
  ⟨wellFormed_empty.active, wellFormed_empty.room, wellFormed_empty.keys, wellFormed_empty.enough,
    wellFormed_empty.asked⟩

end Roster

/-! ## Credits -/

namespace Inbound

variable {ω : Type} {s : Submission} {r r' : Roster} {n : Nat} {reward : Amount}

/-- **A credit is outstanding from then on**, each delivery with the reward that it brings. -/
theorem Credited.outstanding (h : Credited s n r r') :
    r'.outstanding = r.outstanding + (s.rewardOn r).toNat * n := by
  unfold Credited at h
  unfold Submission.rewardOn
  cases howner : r.indexOfOwner s.submitter with
  | none =>
    rw [howner, Roster.gains_none] at h
    simp [h]
  | some i =>
    rw [howner] at h
    exact Roster.outstanding_of_gains h

/-- Who owns no slot gets no reward, -/
theorem rewardOn_of_stranger (h : ∀ e ∈ r.relayers, e.owner ≠ s.submitter) :
    s.rewardOn r = 0 := by
  unfold Submission.rewardOn
  rw [Roster.indexOfOwner_eq_none.2 h]
  rfl

/-- and is not credited. -/
theorem Credited.eq_of_stranger (hcredited : Credited s n r r')
    (h : ∀ e ∈ r.relayers, e.owner ≠ s.submitter) : r' = r := by
  unfold Credited at hcredited
  rw [Roster.indexOfOwner_eq_none.2 h] at hcredited
  exact hcredited

/-- The outcome of a member, if it was executed. -/
def MemberResult.outcome? : MemberResult → Option Outcome
  | .skipped _ => none
  | .executed o => some o

/-- The outcomes of the members that a batch executed. -/
def BatchOutcome.outcomes (o : BatchOutcome) : List Outcome :=
  o.results.filterMap MemberResult.outcome?

section Members

variable {ms : List (Member ω)} {results : List MemberResult} {st st' : BatchState ω}

theorem roster_of_mapM (h : ms.mapM (runMember reward) st = .ok results st') :
    st'.roster = st.roster := by
  induction ms generalizing st results with
  | nil =>
    obtain ⟨-, rfl⟩ := mapM_nil_eq_ok.1 h
    rfl
  | cons m ms ih =>
    obtain ⟨r, st₁, rest, hfirst, hrest, -⟩ := mapM_cons_eq_ok.1 h
    exact (ih hrest).trans (runMember_keeps hfirst).1

/-- Each member that is executed reports the same reward. -/
theorem rewards_of_mapM (h : ms.mapM (runMember reward) st = .ok results st') :
    ((results.filterMap MemberResult.outcome?).map Outcome.reward) =
      List.replicate (ms.filter Member.pending).length reward := by
  induction ms generalizing st results with
  | nil =>
    obtain ⟨rfl, -⟩ := mapM_nil_eq_ok.1 h
    rfl
  | cons m ms ih =>
    obtain ⟨r, st₁, rest, hfirst, hrest, rfl⟩ := mapM_cons_eq_ok.1 h
    cases hpending : m.pending with
    | false =>
      obtain ⟨-, rfl⟩ := (runMember_eq_ok_of_not_pending hpending).1 hfirst
      rw [List.filter_cons_of_neg (by simp [hpending]), List.filterMap_cons_none rfl]
      exact ih hrest
    | true =>
      obtain ⟨_, _, _, -, -, -, rfl⟩ := (runMember_eq_ok_of_pending hpending).1 hfirst
      rw [List.filter_cons_of_pos hpending, List.length_cons, List.replicate_succ, ← ih hrest]
      rfl

end Members

variable {executors : List (Executor ω)} {messages : List InboundMessage}
  {attestations : List Attestation} {st st' : BatchState ω} {o : BatchOutcome}

/-- **A batch credits its submitter with what its members report**, each of them the reward of one
delivery. -/
theorem credited_of_processBatch
    (h : processBatch s executors messages attestations st = .ok o st') :
    ∃ count, Credited s count st.roster st'.roster ∧
      o.outcomes.map Outcome.reward = List.replicate count (s.rewardOn st.roster) := by
  obtain ⟨ds, hbatch⟩ := batched_of_processBatch h
  obtain ⟨window, reward, st₁, -, hcredit, hrun⟩ := hbatch.run
  have hcount : ((members messages ds st.receipts executors).filter Member.pending).length <
      UInt64.size :=
    Nat.lt_of_le_of_lt (length_pending_le hbatch.digests hbatch.lengths hbatch.size.2) (by decide)
  obtain ⟨-, ⟨roster, hcredited, rfl⟩, rfl⟩ := (creditEach_eq_ok_iff hcount).1 hcredit
  refine ⟨_, ?_, rewards_of_mapM (mapM_runMember_reward.1 hrun)⟩
  rw [roster_of_mapM hrun]
  exact hcredited

end Inbound

namespace Registry

/-! ## Parts that are put back -/

section Parts

variable {ω : Type}

theorem put_inbound (chainName receiptName : String) (cursorName : Option String) (world : ω)
    (s : Inbound.State ω) (r : Registry) : ∃ chains receipts cursors,
      (Part.inbound chainName receiptName cursorName world).put s r =
        { r with roster := s.roster, chains, receipts, cursors } := by
  cases cursorName with
  | none => exact ⟨_, _, _, rfl⟩
  | some name => cases h : s.cursor <;> exact ⟨_, _, _, by simp [Part.inbound, Part.optional, h]; rfl⟩

theorem put_receipts (names : List String) (xs : List Receipt) (r : Registry) :
    ∃ receipts, (Part.all (names.map Part.receipt)).put xs r = { r with receipts } := by
  induction names generalizing xs r with
  | nil => exact ⟨_, rfl⟩
  | cons name names ih =>
    cases xs with
    | nil => exact ⟨_, rfl⟩
    | cons x xs => exact ih xs _

theorem put_batch (chainName : String) (receiptNames : List String) (world : ω)
    (s : Inbound.BatchState ω) (r : Registry) : ∃ chains receipts,
      (Part.batch chainName receiptNames world).put s r =
        { r with roster := s.roster, chains, receipts } := by
  obtain ⟨receipts, h⟩ := put_receipts receiptNames s.receipts
    ((Part.chain chainName).put s.chain { r with roster := s.roster })
  exact ⟨_, receipts, h⟩

end Parts

/-! ## What is reported -/

/-- What a step reports that has to do with earnings. -/
inductive PayNotice where
  /-- A message was executed; the outcome tells the reward. -/
  | executed (o : Inbound.Outcome)
  /-- A relayer left, when the pool held so much. -/
  | departed (d : Departure) (pool : Amount)

namespace PayNotice

/-- The reward that is reported. -/
def reward : PayNotice → Nat
  | executed o => o.reward.toNat
  | departed _ _ => 0

/-- What a relayer that leaves has earned and the pool does not cover. -/
def forfeit : PayNotice → Nat
  | executed _ => 0
  | departed d pool => d.entry.earned.toNat - min d.entry.earned.toNat pool.toNat

end PayNotice

/-- All rewards that are reported. -/
def rewarded (notices : List PayNotice) : Nat := (notices.map PayNotice.reward).sum

/-- All that was lost with departures. -/
def forfeited (notices : List PayNotice) : Nat := (notices.map PayNotice.forfeit).sum

variable {notices more : List PayNotice}

theorem rewarded_append : rewarded (notices ++ more) = rewarded notices + rewarded more := by
  rw [rewarded, List.map_append, List.sum_append]
  rfl

theorem forfeited_append : forfeited (notices ++ more) = forfeited notices + forfeited more := by
  rw [forfeited, List.map_append, List.sum_append]
  rfl

theorem rewarded_executed (os : List Inbound.Outcome) :
    rewarded (os.map .executed) = ((os.map Inbound.Outcome.reward).map UInt64.toNat).sum := by
  rw [rewarded, List.map_map, List.map_map]
  rfl

theorem forfeited_executed (os : List Inbound.Outcome) : forfeited (os.map .executed) = 0 := by
  rw [forfeited, List.map_map]
  show (os.map fun _ => 0).sum = 0
  rw [List.map_const', List.sum_replicate_nat, Nat.mul_zero]

/-! ## Steps that were committed -/

/-- Messages are executed on a submission, one by itself or several in a batch. -/
inductive Execution (r : Registry) (s : Inbound.Submission) : List PayNotice → Registry → Prop
  | single {ω : Type} {o : Inbound.Outcome} {r' : Registry} (chainName receiptName : String)
      (cursorName : Option String) (world : ω) (executor : Executor ω) (m : InboundMessage)
      (attestations : List Attestation)
      (ok : (Part.inbound chainName receiptName cursorName world).run
        (Inbound.process s executor m attestations) r = .ok o r') :
      Execution r s [.executed o] r'
  | batch {ω : Type} {o : Inbound.BatchOutcome} {r' : Registry} (chainName : String)
      (receiptNames : List String) (world : ω) (executors : List (Executor ω))
      (messages : List InboundMessage) (attestations : List Attestation)
      (ok : (Part.batch chainName receiptNames world).run
        (Inbound.processBatch s executors messages attestations) r = .ok o r') :
      Execution r s (o.outcomes.map .executed) r'

/-- A step that was committed, asked for by anyone, with what it reports about earnings. -/
inductive CommittedStep (r : Registry) : List PayNotice → Registry → Prop
  | queue {place : Nat} {r' : Registry} (chainName : String) (sponsorName : Option String)
      (sender : Key) (q : SendRequest) (now : Slot)
      (ok : queue chainName sponsorName sender q now r = .ok place r') : CommittedStep r [] r'
  | setFeeSchedule {r' : Registry} (actor : Key) (fees : FeeSchedule)
      (ok : Part.bridge.run (Governance.setFeeSchedule actor fees) r = .ok () r') :
      CommittedStep r [] r'
  | execute {notices : List PayNotice} {r' : Registry} (s : Inbound.Submission)
      (own : s.bridge = r.bridge) (ok : Execution r s notices r') : CommittedStep r notices r'
  | claim {r' : Registry} (index : UInt8) (caller : Key) (amount : Amount)
      (ok : Part.membership.run (Membership.claim index caller amount) r = .ok () r') :
      CommittedStep r [] r'
  | register {index : UInt8} {r' : Registry} (council : Council) (actor : Key)
      (minimumStake : Amount) (owner publicKey : Key) (stake : Amount) (now : Slot)
      (ok : Part.roster.run
        (Membership.register council actor minimumStake owner publicKey stake now) r =
          .ok index r') : CommittedStep r [] r'
  | unregister {d : Departure} {r' : Registry} (index : UInt8) (caller : Key)
      (ok : Part.membership.run (Membership.unregister index caller) r = .ok d r') :
      CommittedStep r [.departed d r.bridge.pool] r'
  | remove {d : Departure} {r' : Registry} (actor : Key) (index : UInt8)
      (ok : Part.membership.run (Membership.remove actor index) r = .ok d r') :
      CommittedStep r [.departed d r.bridge.pool] r'
  /-- Records that are neither the bridge's nor the roster may change in any way. -/
  | elsewhere (chains : List (String × Chain)) (sponsors : List (String × Sponsor))
      (receipts : List (String × Receipt)) (cursors : List (String × Cursor))
      (outbound : List OutboundMessage) :
      CommittedStep r [] { r with chains, sponsors, receipts, cursors, outbound }

/-- Any number of steps that were committed, with all that they report. -/
inductive CommittedRun (start : Registry) : List PayNotice → Registry → Prop
  | refl : CommittedRun start [] start
  | tail {notices more : List PayNotice} {r r' : Registry} (run : CommittedRun start notices r)
      (step : CommittedStep r more r') : CommittedRun start (notices ++ more) r'

variable {r r' : Registry} {s : Inbound.Submission}

/-- **Executing messages is a credit**, for as many deliveries as it reports. -/
theorem Execution.credited (h : Execution r s notices r') :
    r'.bridge = r.bridge ∧ ∃ os : List Inbound.Outcome, notices = os.map .executed ∧
      Inbound.Credited s os.length r.roster r'.roster ∧
      os.map Inbound.Outcome.reward = List.replicate os.length (s.rewardOn r.roster) := by
  cases h with
  | @single ω o r' chainName receiptName cursorName world executor m attestations ok =>
    obtain ⟨st, hrun, rfl⟩ := Action.on_eq_ok.1 ok
    obtain ⟨chains, receipts, cursors, hput⟩ :=
      put_inbound chainName receiptName cursorName world st r
    obtain ⟨-, hreward, hcredited⟩ :=
      Inbound.creditSubmitter_eq_ok_iff.1 (Inbound.processed_of_process hrun).credited
    rw [Nat.mul_one, UInt64.toNat_inj] at hreward
    rw [hput]
    exact ⟨rfl, [o], rfl, hcredited, congrArg (fun reward => [reward]) hreward⟩
  | @batch ω o r' chainName receiptNames world executors messages attestations ok =>
    obtain ⟨st, hrun, rfl⟩ := Action.on_eq_ok.1 ok
    obtain ⟨chains, receipts, hput⟩ := put_batch chainName receiptNames world st r
    obtain ⟨count, hcredited, hrewards⟩ := Inbound.credited_of_processBatch hrun
    have hlength : count = o.outcomes.length := by
      simpa using (congrArg List.length hrewards).symm
    subst hlength
    rw [hput]
    exact ⟨rfl, o.outcomes, rfl, hcredited, hrewards⟩

/-- **What executing messages reports is outstanding from then on.** -/
theorem Execution.outstanding (h : Execution r s notices r') :
    r'.roster.outstanding = r.roster.outstanding + rewarded notices := by
  obtain ⟨-, os, rfl, hcredited, hrewards⟩ := h.credited
  rw [hcredited.outstanding, rewarded_executed, hrewards, List.map_replicate,
    List.sum_replicate_nat, Nat.mul_comm]

/-- **Whoever owns no slot is credited with nothing.** -/
theorem Execution.of_stranger (h : Execution r s notices r')
    (hstranger : ∀ e ∈ r.roster.relayers, e.owner ≠ s.submitter) :
    rewarded notices = 0 ∧ r'.roster = r.roster := by
  obtain ⟨-, os, rfl, hcredited, hrewards⟩ := h.credited
  refine ⟨?_, hcredited.eq_of_stranger hstranger⟩
  rw [rewarded_executed, hrewards, Inbound.rewardOn_of_stranger hstranger, List.map_replicate,
    List.sum_replicate_nat, UInt64.toNat_zero, Nat.mul_zero]

/-- What a departure takes out of the slots is paid out or lost. -/
theorem conserves_departure {d : Departure} {e : Relayer} {i : UInt8}
    (hremove : Roster.remove i r.roster = .ok e r'.roster)
    (hsettle : Membership.settle i e r.bridge = .ok d r'.bridge) :
    r'.bridge.compensationClaimed.toNat + r'.roster.outstanding +
        forfeited [.departed d r.bridge.pool] =
      r.bridge.compensationClaimed.toNat + r.roster.outstanding := by
  obtain ⟨-, hentry, hpay, -⟩ := Membership.settle_eq_ok hsettle
  have hclaimed := Bridge.claimed_of_payCompensation hpay
  have houtstanding := Roster.outstanding_of_remove hremove
  rw [Amount.toNat_min] at hclaimed
  rw [forfeited, List.map_singleton, List.sum_singleton, PayNotice.forfeit, hentry]
  omega

/-- **Each step conserves earnings**: what it reports as a reward is added to what was paid out,
is outstanding or lost, and nothing else is. -/
theorem CommittedStep.conserves (h : CommittedStep r notices r') :
    r'.bridge.compensationClaimed.toNat + r'.roster.outstanding + forfeited notices =
      r.bridge.compensationClaimed.toNat + r.roster.outstanding + rewarded notices := by
  cases h with
  | queue chainName sponsorName sender q now ok =>
    obtain ⟨o, m, hqueue, hbridge, hroster, -⟩ := queue_eq_ok ok
    obtain ⟨-, -, -, -, -, -, hkept⟩ :=
      Bridge.recordSend_eq_ok (Outbox.queued_of_queue hqueue).counted
    have hclaimed : o.bridge.compensationClaimed = r.bridge.compensationClaimed := by
      rw [hkept]
      rfl
    rw [hbridge, hroster, hclaimed]
    rfl
  | setFeeSchedule actor fees ok =>
    obtain ⟨b, hset, rfl⟩ := Action.on_eq_ok.1 ok
    obtain ⟨-, rfl⟩ := Governance.setFeeSchedule_eq_ok hset
    rfl
  | execute s own ok =>
    obtain ⟨hbridge, os, rfl, -⟩ := ok.credited
    rw [hbridge, ok.outstanding, forfeited_executed]
    omega
  | claim index caller amount ok =>
    obtain ⟨m, hclaim, rfl⟩ := Action.on_eq_ok.1 ok
    obtain ⟨-, hdebit, hpay⟩ := Membership.claim_eq_ok hclaim
    have hclaimed : m.bridge.compensationClaimed.toNat =
        r.bridge.compensationClaimed.toNat + amount.toNat :=
      Bridge.claimed_of_payCompensation hpay
    have houtstanding : m.roster.outstanding + amount.toNat = r.roster.outstanding :=
      Roster.outstanding_of_debitEarnings hdebit
    have hsum : m.bridge.compensationClaimed.toNat + m.roster.outstanding =
        r.bridge.compensationClaimed.toNat + r.roster.outstanding := by omega
    exact hsum
  | register council actor minimumStake owner publicKey stake now ok =>
    obtain ⟨roster, hregister, rfl⟩ := Action.on_eq_ok.1 ok
    have houtstanding := Roster.outstanding_of_register (Membership.register_eq_ok hregister).2
    exact congrArg (fun n => r.bridge.compensationClaimed.toNat + n + 0) houtstanding
  | unregister index caller ok =>
    obtain ⟨m, hleave, rfl⟩ := Action.on_eq_ok.1 ok
    obtain ⟨e, hremove, hsettle⟩ := Membership.unregister_eq_ok hleave
    exact conserves_departure (Roster.unregister_eq_ok hremove).2 hsettle
  | remove actor index ok =>
    obtain ⟨m, hleave, rfl⟩ := Action.on_eq_ok.1 ok
    obtain ⟨-, e, hremove, hsettle⟩ := Membership.remove_eq_ok hleave
    exact conserves_departure hremove hsettle
  | elsewhere chains sponsors receipts cursors outbound => rfl

/-- **Each step keeps the roster well-formed.** -/
theorem CommittedStep.wellFormed (h : CommittedStep r notices r') (hr : r.roster.WellFormed) :
    r'.roster.WellFormed := by
  cases h with
  | queue chainName sponsorName sender q now ok =>
    obtain ⟨-, -, -, -, hroster, -⟩ := queue_eq_ok ok
    rw [hroster]
    exact hr
  | setFeeSchedule actor fees ok =>
    obtain ⟨b, -, rfl⟩ := Action.on_eq_ok.1 ok
    exact hr
  | execute s own ok =>
    obtain ⟨-, os, -, hcredited, -⟩ := ok.credited
    exact hr.of_gains hcredited
  | claim index caller amount ok =>
    obtain ⟨m, hclaim, rfl⟩ := Action.on_eq_ok.1 ok
    obtain ⟨-, hdebit, -⟩ := Membership.claim_eq_ok hclaim
    exact hr.of_run (c := .debitEarnings index caller amount) hdebit
  | register council actor minimumStake owner publicKey stake now ok =>
    obtain ⟨roster, hregister, rfl⟩ := Action.on_eq_ok.1 ok
    exact hr.of_run (c := .register owner publicKey stake minimumStake now)
      (discard_eq_ok.2 ⟨_, (Membership.register_eq_ok hregister).2⟩)
  | unregister index caller ok =>
    obtain ⟨m, hleave, rfl⟩ := Action.on_eq_ok.1 ok
    obtain ⟨e, hremove, -⟩ := Membership.unregister_eq_ok hleave
    exact hr.of_run (c := .unregister index caller) (discard_eq_ok.2 ⟨e, hremove⟩)
  | remove actor index ok =>
    obtain ⟨m, hleave, rfl⟩ := Action.on_eq_ok.1 ok
    obtain ⟨-, e, hremove, -⟩ := Membership.remove_eq_ok hleave
    exact hr.of_run (c := .remove index) (discard_eq_ok.2 ⟨e, hremove⟩)
  | elsewhere chains sponsors receipts cursors outbound => exact hr

/-! ## Runs -/

/-- **Each run conserves earnings.** -/
theorem CommittedRun.conserves {start : Registry} (h : CommittedRun start notices r) :
    r.bridge.compensationClaimed.toNat + r.roster.outstanding + forfeited notices =
      start.bridge.compensationClaimed.toNat + start.roster.outstanding + rewarded notices := by
  induction h with
  | refl => rfl
  | tail run step ih =>
    have hstep := step.conserves
    rw [rewarded_append, forfeited_append]
    omega

theorem CommittedRun.wellFormed {start : Registry} (h : CommittedRun start notices r)
    (hstart : start.roster.WellFormed) : r.roster.WellFormed := by
  induction h with
  | refl => exact hstart
  | tail run step ih => exact step.wellFormed ih

/-- **Earnings are conserved over any run.**  From a new bridge and an empty roster on, the rewards
that were reported are what was paid out as compensation, what is outstanding in the slots, and
what relayers lost by leaving when the pool did not cover it.  So no more is paid out than was
rewarded.  Whatever is executed next is credited just as it reports, a batch like a message, and
nothing is credited to a submitter that owns no slot.  And whoever registers next sits down in a
free slot and has earned nothing. -/
theorem earnings_conserved {authority : Key} {identity : Address} {settings : Bridge.Settings}
    {start r : Registry} {bump : UInt8} {notices : List PayNotice}
    (hcreate : Bridge.create authority identity settings = .ok start.bridge)
    (hempty : start.roster = { bump }) (hrun : CommittedRun start notices r) :
    rewarded notices =
      r.bridge.compensationClaimed.toNat + r.roster.outstanding + forfeited notices ∧
    r.bridge.compensationClaimed.toNat ≤ rewarded notices ∧
    (∀ s more r', Execution r s more r' →
      r'.roster.outstanding = r.roster.outstanding + rewarded more ∧
      ((∀ e ∈ r.roster.relayers, e.owner ≠ s.submitter) →
        rewarded more = 0 ∧ r'.roster = r.roster)) ∧
    ∀ council actor minimumStake owner publicKey stake now index r',
      Part.roster.run (Membership.register council actor minimumStake owner publicKey stake now)
        r = .ok index r' →
      r.roster.Free index.toNat ∧
        r'.roster.Seated index.toNat
          { owner, publicKey, stake, registeredAt := now, earned := 0 } := by
  have hclaimed : start.bridge.compensationClaimed = 0 := (Bridge.create_eq_ok hcreate).2.2.2.2
  have hnone : start.roster.outstanding = 0 := by
    rw [hempty]
    rfl
  have hconserved := hrun.conserves
  rw [hclaimed, hnone] at hconserved
  have hwell : r.roster.WellFormed :=
    hrun.wellFormed (by rw [hempty]; exact Roster.wellFormed_opened bump)
  refine ⟨?_, ?_, fun s more r' h => ⟨h.outstanding, h.of_stranger⟩, ?_⟩
  · simpa using hconserved.symm
  · simp only [UInt64.toNat_zero] at hconserved
    omega
  · intro council actor minimumStake owner publicKey stake now index r' h
    obtain ⟨roster, hregister, rfl⟩ := Action.on_eq_ok.1 h
    obtain ⟨hleast, hseat⟩ := hwell.register_isLeast (Membership.register_eq_ok hregister).2
    exact ⟨hleast.1, hseat⟩

/-- A registry with a new bridge that pays three lamports for a delivery, and one chain to which
messages cost two. -/
def withReward : Registry where
  bridge := {
    hostChain := 1, epochLength := 1, reclaimAfter := 1, fees := { base := 2, relayReward := 3 } }
  chains := [("chain", { id := 2, active := true, limits := {
    confirmations := 1, maxMessageBytes := 1, maxComputeBudget := 1, feeMultiplier := 10000
    rateLimit := 1 } })]

/-- The first relayer of that bridge. -/
def firstRelayer : Key := .replicate 32 1

/-- The first of two relayers is rewarded with three lamports, claims one of the two that are in
the pool, and leaves: one more is paid out then, and the last one is lost. -/
theorem earnings_conserved_after_departure : ∃ notices r, CommittedRun withReward notices r ∧
    rewarded notices = r.bridge.compensationClaimed.toNat + r.roster.outstanding +
      forfeited notices ∧
    rewarded notices = 3 ∧ r.bridge.compensationClaimed = 2 ∧ r.roster.outstanding = 0 ∧
      forfeited notices = 1 := by
  obtain ⟨_, r₁, _, r₂, o, r₃, _, r₄, _, r₅, d, r₆, hfirst, hsecond, hexecuted, hsent, hclaimed,
      hleft, hreward, hpaid, houtstanding⟩ :
      ∃ i₁ r₁ i₂ r₂ o r₃ n r₄ u r₅ d r₆,
        Part.roster.run (Membership.register (fun _ => true) .zero 0 firstRelayer firstRelayer 1 0)
          withReward = .ok i₁ r₁ ∧
        Part.roster.run (Membership.register (fun _ => true) .zero 0 .zero .zero 1 0) r₁ =
          .ok i₂ r₂ ∧
        (Part.inbound "chain" "receipt" none ()).run (Inbound.process
          { bridge := r₂.bridge, verify := fun _ _ _ => true, submitter := firstRelayer
            liquidity := 0, now := 0 }
          ⟨fun _ => .ok (), fun _ _ => pure ()⟩ { sourceChain := 2, sender := [1] } [{}]) r₂ =
            .ok o r₃ ∧
        queue "chain" none firstRelayer { destinationChain := 2, maxFee := 2 } 0 r₃ = .ok n r₄ ∧
        Part.membership.run (Membership.claim 0 firstRelayer 1) r₄ = .ok u r₅ ∧
        Part.membership.run (Membership.unregister 0 firstRelayer) r₅ = .ok d r₆ ∧
        o.reward = 3 ∧ r₆.bridge.compensationClaimed = 2 ∧ r₆.roster.outstanding = 0 :=
    ⟨_, _, _, _, _, _, _, _, _, _, _, _, rfl, rfl, rfl, rfl, rfl, rfl, rfl, rfl, rfl⟩
  have hrun : CommittedRun withReward [.executed o, .departed d r₅.bridge.pool] r₆ :=
    (((((CommittedRun.refl.tail (.register _ _ _ _ _ _ _ hfirst)).tail
      (.register _ _ _ _ _ _ _ hsecond)).tail
      (.execute _ rfl (.single _ _ _ _ _ _ _ hexecuted))).tail (.queue _ _ _ _ _ hsent)).tail
      (.claim _ _ _ hclaimed)).tail (.unregister _ _ hleft)
  have hcreate : Bridge.create .zero .zero {
      hostChain := 1, epochLength := 1, reclaimAfter := 1
      fees := { base := 2, relayReward := 3 } } = .ok withReward.bridge := rfl
  have hopened : withReward.roster = { bump := 0 } := rfl
  have hconserved := (earnings_conserved hcreate hopened hrun).1
  have hrewarded : rewarded [.executed o, .departed d r₅.bridge.pool] = 3 := by
    simp [rewarded, PayNotice.reward, hreward]
  refine ⟨_, r₆, hrun, hconserved, hrewarded, hpaid, houtstanding, ?_⟩
  have hclaims : r₆.bridge.compensationClaimed.toNat = 2 := congrArg UInt64.toNat hpaid
  omega

end Registry
end QuorumRelay
