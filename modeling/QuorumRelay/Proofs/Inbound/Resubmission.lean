import QuorumRelay.Proofs.Earnings

/-!
# A batch handed in again

A batch can be handed in when some of its messages have been executed before.
Which ones is told by the receipts, one for each message, and nothing else: the
members whose receipt does not have their digest are executed, in the order of the
list and once each, and it is their number that the window and the submitter's
credit grow by (`Inbound.Completed`).

A delivery that fails has used its message up all the same.  So afterwards every
receipt has the digest of its message, whatever became of it, and the batch that
just went through is one without anything to do: handed in again it is accepted and
reports that everything was there (`Inbound.batch_completes`).

## Who may hand it in again

Anybody, at any slot and with any liquidity.  What depends on these is asked on
behalf of members still to be executed, and there are none; what is asked of the
batch itself depends on the messages, the quorum and those parts of the chain and
the roster that no batch changes.
-/

namespace QuorumRelay

namespace Receipt

variable {d : Digest} {r : Receipt}

@[simp] theorem contains_marked : (r.marked d).contains d = true :=
  contains_eq_true.2 ⟨rfl, rfl⟩

/-- Marking a digest again changes nothing. -/
theorem marked_of_contains (h : r.contains d = true) : r.marked d = r := by
  obtain ⟨hprocessed, hdigest⟩ := contains_eq_true.1 h
  rw [marked, ← hprocessed, ← hdigest]

end Receipt

namespace Inbound

variable {ω : Type} {s : Submission} {executors : List (Executor ω)} {reward : Amount}
  {messages : List InboundMessage} {ds : List Digest} {receipts : List Receipt}
  {attestations : List Attestation} {st st' : BatchState ω} {ms : List (Member ω)}
  {results : List MemberResult} {o : BatchOutcome}

/-! ## What the loop delivers -/

/-- **The result of a member**: that it was passed over, or how it was executed and for what
reward. -/
def Reports (reward : Amount) (m : Member ω) : MemberResult → Prop
  | .skipped digest => m.pending = false ∧ digest = m.digest
  | .executed outcome => m.pending = true ∧ ∃ failure, outcome = {
      digest := m.digest, sourceChain := m.message.sourceChain
      sourceNonce := m.message.sourceNonce, failure, reward }

/-- The deliveries of members, one after the other, with what each failed at. -/
def deliverAll (ms : List (Member ω)) : Action ω (List (Option Fault)) :=
  ms.mapM fun m => deliver m.executor m.digest m.message

/-- **The loop delivers what is pending, and reports the failures where they happened.** -/
theorem reports_of_mapM (h : ms.mapM (runMember reward) st = .ok results st') :
    List.Forall₂ (Reports reward) ms results ∧
      deliverAll (ms.filter Member.pending) st.world =
        .ok ((results.filterMap MemberResult.outcome?).map Outcome.failure) st'.world := by
  induction ms generalizing st results with
  | nil =>
    obtain ⟨rfl, rfl⟩ := mapM_nil_eq_ok.1 h
    exact ⟨.nil, rfl⟩
  | cons m ms ih =>
    obtain ⟨r, st₁, rest, hfirst, hrest, rfl⟩ := mapM_cons_eq_ok.1 h
    obtain ⟨hreports, hdelivered⟩ := ih hrest
    cases hpending : m.pending with
    | false =>
      obtain ⟨rfl, rfl⟩ := (runMember_eq_ok_of_not_pending hpending).1 hfirst
      rw [List.filter_cons_of_neg (by simp [hpending]), List.filterMap_cons_none rfl]
      exact ⟨.cons ⟨hpending, rfl⟩ hreports, hdelivered⟩
    | true =>
      obtain ⟨receipt, failure, world, -, hdeliver, rfl, rfl⟩ :=
        (runMember_eq_ok_of_pending hpending).1 hfirst
      rw [List.filter_cons_of_pos hpending]
      refine ⟨.cons ⟨hpending, failure, rfl⟩ hreports, ?_⟩
      exact mapM_cons_eq_ok.2 ⟨failure, world, _, hdeliver, hdelivered, rfl⟩

/-- Members that were all executed before are passed over. -/
theorem mapM_runMember_of_done (h : ∀ m ∈ ms, m.pending = false) :
    ms.mapM (runMember reward) st = .ok ((ms.map Member.digest).map .skipped) st := by
  induction ms with
  | nil => rfl
  | cons m ms ih =>
    obtain ⟨hm, hms⟩ := List.forall_mem_cons.1 h
    exact mapM_cons_eq_ok.2 ⟨.skipped m.digest, st, _,
      (runMember_eq_ok_of_not_pending hm).2 ⟨rfl, rfl⟩, ih hms, rfl⟩

/-! ## What is left of the receipts -/

/-- **Every member's receipt is marked in the end.**  Of one that was executed before it stays as
it was, which is the same. -/
theorem Batched.receipts_eq (h : Batched s executors messages attestations st ds o st') :
    st'.receipts = List.zipWith Receipt.marked ds st.receipts := by
  obtain ⟨-, _, _, hran⟩ := h.ran
  have hds : ds.length = messages.length := length_digests h.digests
  have hlen : st'.receipts.length = messages.length := hran.receipts_length.trans h.lengths.2
  refine List.ext_getElem ?_ fun k hk _ => ?_
  · rw [List.length_zipWith, hds, h.lengths.2, Nat.min_self, hlen]
  · have hplace : k < (members messages ds st.receipts executors).length := by
      rw [h.length_members, ← hlen]
      exact hk
    have hm := List.getElem?_eq_getElem hplace
    obtain ⟨hindex, -, hdigest, -, receipt, hreceipt, hpending⟩ := getElem?_members.1 hm
    have hafter : st'.receipts.getD k {} = st'.receipts[k] := by
      rw [List.getD_eq_getElem?_getD, List.getElem?_eq_getElem hk, Option.getD_some]
    have hbefore : st.receipts.getD k {} = receipt := by
      rw [List.getD_eq_getElem?_getD, hreceipt, Option.getD_some]
    obtain ⟨_, hdigest⟩ := List.getElem?_eq_some_iff.1 hdigest
    obtain ⟨_, hreceipt⟩ := List.getElem?_eq_some_iff.1 hreceipt
    rw [List.getElem_zipWith, hdigest, hreceipt, ← hafter]
    cases hcontains : receipt.contains (members messages ds st.receipts executors)[k].digest with
    | true =>
      rw [Receipt.marked_of_contains hcontains, ← hbefore]
      refine hran.others k fun m' hm' hpending' hindex' => ?_
      obtain ⟨k', hk'⟩ := List.mem_iff_getElem?.1 hm'
      obtain rfl : k = k' := hindex'.symm.trans (getElem?_members.1 hk').1
      obtain rfl := Option.some.inj (hm.symm.trans hk')
      rw [hpending, hcontains] at hpending'
      cases hpending'
    | false =>
      rw [hcontains] at hpending
      have hmarked := hran.marked _ (List.mem_of_getElem? hm) hpending
      rw [hindex] at hmarked
      rw [(Receipt.insert_eq_ok.1 hmarked).2.2]
      exact congrArg (Receipt.marked _) hbefore

/-- A receipt marked with the digest of its message contains it. -/
theorem forall₂_contains_marked (h : receipts.length = ds.length) :
    List.Forall₂ (fun d (r : Receipt) => r.contains d = true) ds
      (List.zipWith Receipt.marked ds receipts) := by
  induction ds generalizing receipts with
  | nil => exact .nil
  | cons d ds ih =>
    cases receipts with
    | nil => cases h
    | cons r receipts => exact .cons Receipt.contains_marked (ih (Nat.succ.inj h))

/-! ## Once more -/

/-- Nothing is to be done for a batch whose receipts all have their digests. -/
theorem not_pending_of_contains
    (h : List.Forall₂ (fun d (r : Receipt) => r.contains d = true) ds receipts) :
    ∀ m ∈ members messages ds receipts executors, m.pending = false := by
  intro m hm
  obtain ⟨k, hk⟩ := List.mem_iff_getElem?.1 hm
  obtain ⟨-, -, hdigest, -, receipt, hreceipt, hpending⟩ := getElem?_members.1 hk
  obtain ⟨receipt', hreceipt', hcontains⟩ := forall₂_getElem? h hdigest
  obtain rfl := Option.some.inj (hreceipt.symm.trans hreceipt')
  rw [hpending, hcontains]
  rfl

/-- **A batch without anything to do** is accepted if it is in order and has its quorum: at every
slot, from every submitter, and whatever can be paid out. -/
theorem processBatch_of_done (hsize : messages ≠ [] ∧ messages.length ≤ maxBatchSize)
    (hlengths : executors.length = messages.length ∧ st.receipts.length = messages.length)
    (hchains : ∀ m ∈ messages, m.sourceChain = st.chain.id) (hactive : st.chain.active = true)
    (hunordered : st.chain.limits.strictOrdering = false)
    (hds : digests s.bridge messages = .ok ds) (hdistinct : ds.Nodup)
    (hquorum : ∃ t, Quorum.check st.roster (Digest.ofBatch ds) attestations s.verify = .ok t)
    (hdone : List.Forall₂ (fun d (r : Receipt) => r.contains d = true) ds st.receipts) :
    processBatch s executors messages attestations st =
      .ok ⟨Digest.ofBatch ds, ds.map .skipped⟩ st := by
  have hskip : ∀ m ∈ members messages ds st.receipts executors, m.pending = false :=
    not_pending_of_contains hdone
  have hnone : (members messages ds st.receipts executors).filter Member.pending = [] := by
    rw [List.filter_eq_nil_iff]
    exact fun m hm => by simp [hskip m hm]
  have hlen : ds.length = messages.length := length_digests hds
  refine processBatch_eq_ok.2 ⟨_, st.chain.inbound, 0, st, vetBatch_eq_ok.2 ⟨hsize, hlengths,
    hchains, hactive, hunordered, ds, hds, hdistinct, rfl, rfl, ⟨0, ?_, ?_⟩, ?_, hquorum, ?_⟩, ?_,
    ?_⟩
  · rw [hnone]
    rfl
  · exact UInt64.le_iff_toNat_le.2 (Nat.zero_le _)
  · rw [hnone]
    rfl
  · rw [hnone]
    exact fun m hm => absurd hm List.not_mem_nil
  · rw [hnone]
    rfl
  · rw [mapM_runMember_of_done hskip, map_digest_members hlen hlengths.2 hlengths.1]

/-- **What a batch that was accepted has done.**  The members `ms` stand in the order of the
messages. -/
structure Completed (s : Submission) (ms : List (Member ω)) (ds : List Digest)
    (st : BatchState ω) (o : BatchOutcome) (st' : BatchState ω) : Prop where
  digest : o.digest = Digest.ofBatch ds
  /-- Each member has its result, in order, and the reward of one delivery if it was executed. -/
  reports : List.Forall₂ (Reports (s.rewardOn st.roster)) ms o.results
  /-- The pending members were delivered, in order and once each, and nothing else was; where a
  delivery failed, its result says so. -/
  delivered : deliverAll (ms.filter Member.pending) st.world =
    .ok (o.outcomes.map Outcome.failure) st'.world
  /-- The window admitted as many messages as were pending. -/
  window : if ms.filter Member.pending = [] then st'.chain.inbound = st.chain.inbound else
    st'.chain.inbound.start = (st.chain.inbound.current s.now s.bridge.epochLength).start ∧
    st'.chain.inbound.count.toNat =
      (st.chain.inbound.current s.now s.bridge.epochLength).count.toNat +
        (ms.filter Member.pending).length
  chain : ∃ nonce, st'.chain =
    { st.chain with inbound := st'.chain.inbound, highestInbound := nonce }
  /-- The submitter was credited for as many deliveries as were pending. -/
  credited : Credited s (ms.filter Member.pending).length st.roster st'.roster
  /-- Every receipt is marked with the digest of its message. -/
  receipts : st'.receipts = List.zipWith Receipt.marked ds st.receipts
  contained : List.Forall₂ (fun d (r : Receipt) => r.contains d = true) ds st'.receipts

/-- Messages are admitted together if the limit has room for them in the window in force, and none
always. -/
theorem acceptAll_eq_ok {chain : Chain} {window : RateWindow} {n : Nat} (hn : n < UInt32.size) :
    acceptAll s chain n = .ok window ↔ if n = 0 then window = chain.inbound else
      window.start = (chain.inbound.current s.now s.bridge.epochLength).start ∧
      window.count.toNat = (chain.inbound.current s.now s.bridge.epochLength).count.toNat + n ∧
      window.count.toNat ≤ chain.limits.rateLimit.toNat := by
  rw [acceptAll]
  by_cases hzero : n = 0
  · rw [if_pos hzero, if_pos hzero, Except.ok.injEq, eq_comm]
  · rw [if_neg hzero, if_neg hzero, Chain.acceptInbound, RateWindow.accept_eq_ok,
      UInt32.toNat_ofNat_of_lt' hn]

theorem Batched.completed (h : Batched s executors messages attestations st ds o st') :
    Completed s (members messages ds st.receipts executors) ds st o st' := by
  have hds : ds.length = messages.length := length_digests h.digests
  have hreceipts := h.receipts_eq
  obtain ⟨window, reward, st₁, hwindow, hcredit, hrun⟩ := h.run
  have hcount := length_pending_le h.digests h.lengths h.size.2
  obtain ⟨-, ⟨roster, hcredited, rfl⟩, rfl⟩ :=
    (creditEach_eq_ok_iff (Nat.lt_of_le_of_lt hcount (by decide))).1 hcredit
  obtain ⟨nonce, hchain⟩ := chain_of_mapM hrun
  obtain ⟨hreports, hdelivered⟩ := reports_of_mapM (mapM_runMember_reward.1 hrun)
  have hinbound : st'.chain.inbound = window := by rw [hchain]
  have hadmitted := (acceptAll_eq_ok (Nat.lt_of_le_of_lt hcount (by decide))).1 hwindow
  refine ⟨h.digest, hreports, hdelivered, ?_, ⟨nonce, hinbound ▸ hchain⟩, ?_, hreceipts, ?_⟩
  · rw [hinbound]
    by_cases hnone : (members messages ds st.receipts executors).filter Member.pending = []
    · rw [if_pos (List.length_eq_zero_iff.2 hnone)] at hadmitted
      rwa [if_pos hnone]
    · rw [if_neg (mt List.length_eq_zero_iff.1 hnone)] at hadmitted
      rw [if_neg hnone]
      exact ⟨hadmitted.1, hadmitted.2.1⟩
  · rw [roster_of_mapM hrun]
    exact hcredited
  · rw [hreceipts]
    exact forall₂_contains_marked (h.lengths.2.trans hds.symm)

/-- **A batch completes what was left of it, and then there is nothing left.**  In a batch that is
accepted, whichever of its messages were executed before, exactly the others are executed, and
everything that is counted is counted by their number.  What it leaves accepts the same batch
again, at any slot, from any submitter and whatever can be paid out: as a batch of which
everything was executed before.  Nothing is executed then, whatever the executors would do, and
nothing changes. -/
theorem batch_completes (h : processBatch s executors messages attestations st = .ok o st') :
    ∃ ds, digests s.bridge messages = .ok ds ∧
      (members messages ds st.receipts executors).map Member.message = messages ∧
      Completed s (members messages ds st.receipts executors) ds st o st' ∧
      ∀ (again : List (Executor ω)) (now : Slot) (submitter : Key) (liquidity : Amount),
        again.length = messages.length →
        processBatch { s with now, submitter, liquidity } again messages attestations st' =
          .ok ⟨o.digest, ds.map .skipped⟩ st' := by
  obtain ⟨ds, hbatch⟩ := batched_of_processBatch h
  have hds : ds.length = messages.length := length_digests hbatch.digests
  have hcompleted := hbatch.completed
  obtain ⟨nonce, hchain⟩ := hcompleted.chain
  have hlength : st'.receipts.length = messages.length := by
    rw [hcompleted.receipts, List.length_zipWith, hds, hbatch.lengths.2, Nat.min_self]
  refine ⟨ds, hbatch.digests, map_message_members hds hbatch.lengths.2 hbatch.lengths.1,
    hcompleted, fun again now submitter liquidity hagain => ?_⟩
  rw [hcompleted.digest]
  refine processBatch_of_done hbatch.size ⟨hagain, hlength⟩ ?_ ?_ ?_ hbatch.digests
    hbatch.distinct ?_ hcompleted.contained
  · rw [hchain]
    exact hbatch.chains
  · rw [hchain]
    exact hbatch.active
  · rw [hchain]
    exact hbatch.unordered
  · obtain ⟨hfaces, hrequired⟩ := hcompleted.credited.faces
    rw [Quorum.check_congr hfaces hrequired, ← hcompleted.digest]
    exact hbatch.quorum

/-- A batch of three messages is handed in, of which the second was executed before.  Of the two
others one is delivered to a destination that does something and then fails; both are counted and
paid for, and both are used up.  The batch is accepted again from somebody else, at another slot and
with nothing to pay out. -/
theorem batch_completes_of_begun : ∃ o st',
    processBatch resumption [keeper, keeper, keeper] threeMessages [{}] begunBefore = .ok o st' ∧
      o.results = threeResults ∧
      Completed resumption
        (members threeMessages threeDigests begunBefore.receipts [keeper, keeper, keeper])
        threeDigests begunBefore o st' ∧
      st'.world = [5, 7, 3] ∧ st'.chain.inbound.count = 3 ∧
      st'.roster.slots = [some { earned := 12 }] ∧
      List.Forall₂ (fun d (r : Receipt) => r.contains d = true) threeDigests st'.receipts ∧
      processBatch { resumption with now := 70, submitter := .replicate 32 9, liquidity := 0 }
        [keeper, keeper, keeper] threeMessages [{}] st' =
          .ok ⟨o.digest, threeDigests.map .skipped⟩ st' := by
  obtain ⟨o, st', hrun, hresults, hworld, hroster, hwindow, -⟩ := processBatch_begunBefore
  obtain ⟨ds, hds, -, hcompleted, hagain⟩ := batch_completes hrun
  obtain rfl : threeDigests = ds := Except.ok.inj (digests_threeMessages.symm.trans hds)
  exact ⟨o, st', hrun, hresults, hcompleted, hworld, congrArg RateWindow.count hwindow, hroster,
    hcompleted.contained, hagain [keeper, keeper, keeper] 70 (.replicate 32 9) 0 rfl⟩

end Inbound
end QuorumRelay
