import QuorumRelay.Proofs.Credits
import QuorumRelay.Proofs.Inbound.Rejected
import QuorumRelay.Proofs.Rates

/-!
# A batch is its members one by one

A batch goes another way than its messages would by themselves.  It admits all of
them at once, credits the submitter once and divides, and checks every
destination before it delivers to any.  What comes of it is the same
(`processBatch_eq_runEach`), as long as the batch is in order
(`Inbound.InOrder`) and everything in it still to be executed has a quorum of its
own.  Messages by themselves need not fit together, of course: the values could
be there for each and not for all.

## The two ways compared

A delivery looks at its receipt and at the world, and at neither the roster nor
the window.  So it can be moved past the entries made for other members
(`runMember_book`), and a member by itself is an entry in the books followed by
what a batch does with it (`runAlone_eq_ok_of_pending`).  By induction on the
members, all the entries of single submissions come first (`runEach_eq_ok`).
What is left to compare are the entries: windows (`acceptAll_succ`) and credits
(`Credited.add`).

What a member needs is not disturbed by the members before it
(`Ready.keep`): they write to other receipts, and leave of the chain and the
roster what its checks look at.

Nothing is asked of the receipts.  One that is marked for another digest makes
both ways fail.
-/

namespace QuorumRelay

namespace Inbound

variable {ω : Type} {s : Submission} {reward : Amount}

/-! ## Submitting a member by itself -/

/-- What a message is submitted with when it is submitted by itself. -/
structure Voucher where
  attestations : List Attestation
  verify : Verifier
  cursor : Option Cursor

/-- Run a step for single messages on the records of a batch, with the receipt of one member. -/
def BatchState.onMember {α : Type} (index : Nat) (cursor : Option Cursor)
    (step : Action (State ω) α) : Action (BatchState ω) α :=
  step.on (fun st => ⟨st.chain, st.roster, st.receipts.getD index {}, cursor, st.world⟩)
    fun t st => ⟨t.chain, t.roster, st.receipts.set index t.receipt, t.world⟩

/-- Submit a member by itself, if it still has to be executed. -/
def runAlone (s : Submission) (vouchers : Digest → Voucher) (m : Member ω) :
    Action (BatchState ω) MemberResult := do
  if m.pending then
    let voucher := vouchers m.digest
    let outcome ← BatchState.onMember m.index voucher.cursor
      (process { s with verify := voucher.verify } m.executor m.message voucher.attestations)
    return .executed outcome
  else
    return .skipped m.digest

/-! ## The books -/

/-- The records with other entries in the books: another roster, another window. -/
def BatchState.book (window : RateWindow) (roster : Roster) (st : BatchState ω) : BatchState ω :=
  { st with roster, chain := { st.chain with inbound := window } }

variable {st st' : BatchState ω} {m : Member ω} {r : MemberResult} {window window' : RateWindow}
  {roster roster' : Roster} {vouchers : Digest → Voucher}

/-- Running through a member does not look at the books. -/
theorem runMember_book {t : BatchState ω} :
    runMember reward m (st.book window roster) = .ok r t ↔
      ∃ t', runMember reward m st = .ok r t' ∧ t = t'.book window roster := by
  cases hpending : m.pending with
  | false =>
    simp only [runMember_eq_ok_of_not_pending hpending]
    constructor
    · rintro ⟨rfl, rfl⟩
      exact ⟨st, ⟨rfl, rfl⟩, rfl⟩
    · rintro ⟨_, ⟨rfl, rfl⟩, rfl⟩
      exact ⟨rfl, rfl⟩
  | true =>
    have hchain := Chain.recordInboundNonce_inbound m.message.sourceNonce st.chain window
    simp only [runMember_eq_ok_of_pending hpending]
    constructor
    · rintro ⟨receipt, failure, world, hinsert, hdeliver, rfl, rfl⟩
      refine ⟨_, ⟨receipt, failure, world, hinsert, hdeliver, rfl, rfl⟩, ?_⟩
      exact congrArg (fun chain => (⟨chain, _, _, _⟩ : BatchState ω)) hchain
    · rintro ⟨_, ⟨receipt, failure, world, hinsert, hdeliver, rfl, rfl⟩, rfl⟩
      refine ⟨receipt, failure, world, hinsert, hdeliver, ?_, rfl⟩
      exact congrArg (fun chain => (⟨chain, _, _, _⟩ : BatchState ω)) hchain.symm

/-! ## One member -/

/-- A member that is still to be executed has what it takes, as far as other members have a say
in it. -/
structure Ready (s : Submission) (vouchers : Digest → Voucher) (m : Member ω)
    (st : BatchState ω) : Prop where
  own : Digest.ofMessage s.bridge.hostChain s.bridge.identity m.message = .ok m.digest
  chain : st.chain.id = m.message.sourceChain
  active : st.chain.active = true
  unordered : st.chain.limits.strictOrdering = false
  fresh : (st.receipts.getD m.index {}).contains m.digest = false
  quorum : ∃ t, Quorum.check st.roster m.digest (vouchers m.digest).attestations
    (vouchers m.digest).verify = .ok t

/-- What is asked of a member and has nothing to do with the others. -/
def Fits (s : Submission) (chain : Chain) (m : Member ω) : Prop :=
  chain.checkLimits m.message.payload.length m.message.computeBudget = .ok () ∧
    m.message.value ≤ s.liquidity ∧ m.executor.prepare m.message = .ok ()

/-- **A member by itself** is a message to be admitted and a delivery to be paid, and then the
same as in a batch. -/
theorem runAlone_eq_ok_of_pending (hpending : m.pending = true) (h : Ready s vouchers m st) :
    runAlone s vouchers m st = .ok r st' ↔
      Fits s st.chain m ∧ ∃ window roster,
        st.chain.acceptInbound s.now s.bridge.epochLength 1 = .ok window ∧
        Credited s 1 st.roster roster ∧
        runMember (s.rewardOn st.roster) m (st.book window roster) = .ok r st' := by
  unfold runAlone BatchState.onMember
  simp only [hpending, if_true, bind_eq_ok (x := Action.on _ _ _), Action.on_eq_ok, process_eq_ok,
    vet_eq_ok, commit_eq_ok, pure_eq_ok, runMember_eq_ok_of_pending hpending]
  constructor
  · rintro ⟨_, _, ⟨_, ⟨digest, window, reward, roster, ⟨hdigest, -, -, -, hlimits, -, hwindow, -,
      hliquidity, hprepared⟩, hcredit, receipt, failure, world, hinsert, hdeliver, rfl, rfl⟩, rfl⟩,
      rfl, rfl⟩
    obtain rfl : m.digest = digest := Except.ok.inj (h.own.symm.trans hdigest)
    have hpaid : creditSubmitter s 1 st.roster = .ok reward roster := hcredit
    obtain ⟨-, hreward, hcredited⟩ := creditSubmitter_eq_ok_iff.1 hpaid
    obtain rfl : reward = s.rewardOn st.roster := UInt64.toNat_inj.1 (by rw [hreward, Nat.mul_one])
    exact ⟨⟨hlimits, hliquidity, hprepared⟩, window, roster, hwindow, hcredited, receipt, failure,
      world, hinsert, hdeliver, rfl, rfl⟩
  · rintro ⟨⟨hlimits, hliquidity, hprepared⟩, window, roster, hwindow, hcredited, receipt, failure,
      world, hinsert, hdeliver, rfl, rfl⟩
    have hpaid : creditSubmitter s 1 st.roster = .ok (s.rewardOn st.roster) roster :=
      creditSubmitter_eq_ok_iff.2 ⟨by rw [Nat.mul_one]; exact UInt64.toNat_lt _,
        (Nat.mul_one _).symm, hcredited⟩
    have horder : checkOrder st.chain (vouchers m.digest).cursor m.message = .ok () := by
      unfold checkOrder
      rw [h.unordered]
      rfl
    exact ⟨_, _, ⟨_, ⟨m.digest, window, _, roster, ⟨h.own, h.fresh, h.chain, h.active, hlimits,
      horder, hwindow, h.quorum, hliquidity, hprepared⟩, hpaid, receipt, failure, world, hinsert,
      hdeliver, rfl, rfl⟩, rfl⟩, rfl, rfl⟩

theorem runAlone_eq_ok_of_not_pending (hpending : m.pending = false) :
    runAlone s vouchers m st = .ok r st' ↔ st' = st ∧ r = .skipped m.digest := by
  unfold runAlone
  simp only [hpending, Bool.false_eq_true, if_false, pure_eq_ok]
  rw [and_comm, eq_comm, eq_comm (a := MemberResult.skipped _)]

/-- A member stays ready, whatever is delivered before it: another window, another highest nonce,
another receipt and other earnings do not matter to it. -/
theorem Ready.keep (h : Ready s vouchers m st) (hfaces : st'.roster.faces = st.roster.faces)
    (hrequired : st'.roster.required = st.roster.required)
    (hchain : ∃ window nonce, st'.chain =
      { st.chain with inbound := window, highestInbound := nonce })
    (hreceipt : st'.receipts.getD m.index {} = st.receipts.getD m.index {}) :
    Ready s vouchers m st' := by
  obtain ⟨window, nonce, hchain⟩ := hchain
  refine ⟨h.own, ?_, ?_, ?_, hreceipt ▸ h.fresh, ?_⟩
  · rw [hchain]
    exact h.chain
  · rw [hchain]
    exact h.active
  · rw [hchain]
    exact h.unordered
  · rw [Quorum.check_congr hfaces hrequired]
    exact h.quorum

/-! ## All of them -/

/-- Submit members by themselves, in order, as far as they still have to be executed. -/
def runEach (s : Submission) (vouchers : Digest → Voucher) (ms : List (Member ω)) :
    Action (BatchState ω) (List MemberResult) :=
  ms.mapM (runAlone s vouchers)

variable {ms : List (Member ω)} {results : List MemberResult}

/-- Admitting one message and then others is admitting them all. -/
theorem acceptAll_succ {chain : Chain} {n : Nat} (hepoch : 0 < s.bridge.epochLength)
    (hnow : s.now.toNat + 1 < UInt64.size) (hn : n + 1 < UInt32.size) :
    acceptAll s chain (n + 1) = .ok window ↔ ∃ first,
      chain.acceptInbound s.now s.bridge.epochLength 1 = .ok first ∧
        acceptAll s { chain with inbound := first } n = .ok window := by
  unfold acceptAll
  rw [if_neg (Nat.succ_ne_zero n)]
  have hcount : (UInt32.ofNat n).toNat = n := UInt32.toNat_ofNat_of_lt' (by omega)
  have hsum : UInt32.ofNat (n + 1) = 1 + UInt32.ofNat n := by
    rw [Nat.add_comm, UInt32.ofNat_add]
    rfl
  by_cases hzero : n = 0
  · subst hzero
    simp only [if_true, Except.ok.injEq, exists_eq_right]
    rfl
  · simp only [hzero, if_false, Chain.acceptInbound, hsum]
    refine RateWindow.accept_add hepoch hnow ?_
    rw [hcount]
    show 1 + n < _
    omega

/-- What a member that has gone through leaves to those behind it. -/
theorem runMember_book_keeps (hcredited : Credited s 1 st.roster roster)
    (h : runMember reward m (st.book window roster) = .ok r st') :
    st'.roster = roster ∧ s.rewardOn st'.roster = s.rewardOn st.roster ∧
      (∃ nonce, st'.chain = { st.chain with inbound := window, highestInbound := nonce }) ∧
      ∀ m' : Member ω, m'.index ≠ m.index → Ready s vouchers m' st → Ready s vouchers m' st' := by
  obtain ⟨hroster, ⟨nonce, hchain⟩, hreceipts⟩ := runMember_keeps h
  have hroster : st'.roster = roster := hroster
  refine ⟨hroster, ?_, ⟨nonce, hchain⟩, fun m' hm' hready => ?_⟩
  · rw [hroster, hcredited.rewardOn]
  · refine hready.keep ?_ ?_ ⟨window, nonce, hchain⟩ (hreceipts _ hm')
    · rw [hroster, hcredited.faces.1]
    · rw [hroster, hcredited.faces.2]

/-- **Members one by one** are all the messages to be admitted, all the deliveries to be paid,
and then the same as in a batch. -/
theorem runEach_eq_ok (hepoch : 0 < s.bridge.epochLength) (hnow : s.now.toNat + 1 < UInt64.size)
    (hplaces : (ms.map Member.index).Nodup)
    (hready : ∀ m ∈ ms, m.pending = true → Ready s vouchers m st)
    (hcount : (ms.filter Member.pending).length < UInt32.size) :
    runEach s vouchers ms st = .ok results st' ↔
      (∀ m ∈ ms.filter Member.pending, Fits s st.chain m) ∧ ∃ window roster,
        acceptAll s st.chain (ms.filter Member.pending).length = .ok window ∧
        Credited s (ms.filter Member.pending).length st.roster roster ∧
        ms.mapM (runMember (s.rewardOn st.roster)) (st.book window roster) =
          .ok results st' := by
  unfold runEach
  induction ms generalizing st results with
  | nil =>
    simp only [List.filter_nil, List.not_mem_nil, List.length_nil, credited_zero, mapM_nil_eq_ok]
    constructor
    · rintro ⟨rfl, rfl⟩
      exact ⟨fun _ hm => hm.elim, _, _, rfl, rfl, rfl, rfl⟩
    · rintro ⟨-, window, roster, hwindow, rfl, rfl, rfl⟩
      cases hwindow
      exact ⟨rfl, rfl⟩
  | cons m ms ih =>
    rw [List.map_cons, List.nodup_cons] at hplaces
    obtain ⟨hplace, hplaces⟩ := hplaces
    rw [List.forall_mem_cons] at hready
    obtain ⟨hm, hready⟩ := hready
    have hne : ∀ m' ∈ ms, m'.index ≠ m.index := fun m' hm' heq =>
      hplace (heq ▸ List.mem_map_of_mem hm')
    cases hpending : m.pending with
    | false =>
      rw [List.filter_cons_of_neg (by simp [hpending])] at hcount ⊢
      simp only [mapM_cons_eq_ok, runAlone_eq_ok_of_not_pending hpending,
        runMember_eq_ok_of_not_pending hpending]
      constructor
      · rintro ⟨_, _, rest, ⟨rfl, rfl⟩, hrest, rfl⟩
        obtain ⟨hfits, window, roster, hwindow, hcredited, hall⟩ :=
          (ih hplaces hready hcount).1 hrest
        exact ⟨hfits, window, roster, hwindow, hcredited, _, _, rest, ⟨rfl, rfl⟩, hall, rfl⟩
      · rintro ⟨hfits, window, roster, hwindow, hcredited, _, _, rest, ⟨rfl, rfl⟩, hall, rfl⟩
        exact ⟨_, _, rest, ⟨rfl, rfl⟩, (ih hplaces hready hcount).2
          ⟨hfits, window, roster, hwindow, hcredited, hall⟩, rfl⟩
    | true =>
      rw [List.filter_cons_of_pos hpending, List.length_cons] at hcount ⊢
      rw [List.forall_mem_cons]
      simp only [mapM_cons_eq_ok, runAlone_eq_ok_of_pending hpending (hm hpending)]
      constructor
      · rintro ⟨r, st₁, rest, ⟨hfits, first, roster₁, hfirst, hcredited, hrun⟩, hrest, rfl⟩
        obtain ⟨rfl, hreward, ⟨nonce, hchain⟩, hkeep⟩ := runMember_book_keeps hcredited hrun
        obtain ⟨hothers, window, roster, hwindow, hcreditedAll, hall⟩ :=
          (ih hplaces (fun m' hm' hp => hkeep m' (hne m' hm') (hready m' hm' hp))
            (Nat.lt_of_succ_lt hcount)).1 hrest
        rw [hchain] at hothers hwindow
        rw [hreward] at hall
        have hframe : runMember (s.rewardOn st.roster) m
            ((st.book first st₁.roster).book window roster) = .ok r (st₁.book window roster) :=
          runMember_book.2 ⟨st₁, hrun, rfl⟩
        refine ⟨⟨hfits, hothers⟩, window, roster, ?_, ?_, r, _, rest, hframe, hall, rfl⟩
        · exact (acceptAll_succ hepoch hnow hcount).2 ⟨first, hfirst, hwindow⟩
        · rw [Nat.add_comm]
          exact Credited.add.2 ⟨_, hcredited, hcreditedAll⟩
      · rintro ⟨⟨hfits, hothers⟩, window, roster, hwindow, hcreditedAll, r, _, rest, hrun, hall,
          rfl⟩
        obtain ⟨first, hfirst, hwindow⟩ := (acceptAll_succ hepoch hnow hcount).1 hwindow
        rw [Nat.add_comm] at hcreditedAll
        obtain ⟨roster₁, hcredited, hcreditedRest⟩ := Credited.add.1 hcreditedAll
        have hframe : runMember (s.rewardOn st.roster) m
            ((st.book first roster₁).book window roster) = _ := hrun
        obtain ⟨st₁, halone, rfl⟩ := runMember_book.1 hframe
        obtain ⟨rfl, hreward, ⟨nonce, hchain⟩, hkeep⟩ := runMember_book_keeps hcredited halone
        have hrest := (ih hplaces (fun m' hm' hp => hkeep m' (hne m' hm') (hready m' hm' hp))
          (Nat.lt_of_succ_lt hcount)).2 ⟨hchain ▸ hothers, window, roster, hchain ▸ hwindow,
            hcreditedRest, hreward ▸ hall⟩
        exact ⟨r, st₁, rest, ⟨hfits, first, _, hfirst, hcredited, halone⟩, hrest, rfl⟩

/-! ## The batch -/

/-- Each delivery of a batch is paid what a delivery by itself is paid. -/
theorem creditEach_eq_ok_iff {count : Nat} {st₁ : BatchState ω} (hcount : count < UInt64.size) :
    creditEach s count st = .ok reward st₁ ↔
      s.bridge.fees.relayReward.toNat * count < UInt64.size ∧
        (∃ roster, Credited s count st.roster roster ∧ st₁ = { st with roster }) ∧
        reward = if count = 0 then 0 else s.rewardOn st.roster := by
  unfold creditEach BatchState.onRoster
  by_cases hzero : count = 0
  · subst hzero
    simp only [if_true, pure_eq_ok, Nat.mul_zero, credited_zero, exists_eq_left]
    constructor
    · rintro ⟨rfl, rfl⟩
      exact ⟨by decide, rfl, rfl⟩
    · rintro ⟨-, rfl, rfl⟩
      exact ⟨rfl, rfl⟩
  · have hdiv : ∀ {total : Amount}, total.toNat = (s.rewardOn st.roster).toNat * count →
        total / UInt64.ofNat count = s.rewardOn st.roster := by
      intro total htotal
      refine UInt64.toNat_inj.1 ?_
      rw [UInt64.toNat_div, htotal, UInt64.toNat_ofNat_of_lt' hcount]
      exact Nat.mul_div_cancel _ (Nat.pos_of_ne_zero hzero)
    simp only [hzero, if_false, bind_eq_ok (x := Action.on _ _ _), Action.on_eq_ok, pure_eq_ok,
      creditSubmitter_eq_ok_iff]
    constructor
    · rintro ⟨total, _, ⟨roster, ⟨hfits, htotal, hcredited⟩, rfl⟩, rfl, rfl⟩
      exact ⟨hfits, ⟨roster, hcredited, rfl⟩, hdiv htotal⟩
    · rintro ⟨hfits, ⟨roster, hcredited, rfl⟩, rfl⟩
      have htotal := UInt64.toNat_ofNat_of_lt'
        (Nat.lt_of_le_of_lt (Nat.mul_le_mul_right count (rewardOn_le s st.roster)) hfits)
      exact ⟨_, _, ⟨roster, ⟨hfits, htotal, hcredited⟩, rfl⟩, hdiv htotal, rfl⟩

/-- Where nobody is executed the reward does not matter. -/
theorem mapM_runMember_congr (h : ms.filter Member.pending = []) (reward' : Amount) :
    ms.mapM (runMember reward) st = .ok results st' ↔
      ms.mapM (runMember reward') st = .ok results st' := by
  induction ms generalizing st results with
  | nil => exact Iff.rfl
  | cons m ms ih =>
    cases hpending : m.pending with
    | true =>
      rw [List.filter_cons_of_pos hpending] at h
      cases h
    | false =>
      rw [List.filter_cons_of_neg (by simp [hpending])] at h
      simp only [mapM_cons_eq_ok, runMember_eq_ok_of_not_pending hpending, ih h]

theorem mapM_runMember_reward :
    ms.mapM (runMember (if (ms.filter Member.pending).length = 0 then 0 else reward)) st =
        .ok results st' ↔ ms.mapM (runMember reward) st = .ok results st' := by
  split
  · exact mapM_runMember_congr (List.length_eq_zero_iff.1 ‹_›) reward
  · exact Iff.rfl

variable {executors : List (Executor ω)} {messages : List InboundMessage} {ds : List Digest}
  {attestations : List Attestation}

/-- **A batch in order**: of an active chain without strict ordering, with one to eight messages
of that chain, all of the right shape and different, and at a slot that is not the last one.
What is still to be executed has quorums of its own. -/
structure InOrder (s : Submission) (vouchers : Digest → Voucher) (executors : List (Executor ω))
    (messages : List InboundMessage) (ds : List Digest) (st : BatchState ω) : Prop where
  active : st.chain.active = true
  unordered : st.chain.limits.strictOrdering = false
  epoch : 0 < s.bridge.epochLength
  now : s.now.toNat + 1 < UInt64.size
  size : messages ≠ [] ∧ messages.length ≤ maxBatchSize
  lengths : executors.length = messages.length ∧ st.receipts.length = messages.length
  chains : ∀ m ∈ messages, m.sourceChain = st.chain.id
  digests : digests s.bridge messages = .ok ds
  distinct : ds.Nodup
  quorums : ∀ m ∈ members messages ds st.receipts executors, m.pending = true →
    ∃ t, Quorum.check st.roster m.digest (vouchers m.digest).attestations
      (vouchers m.digest).verify = .ok t

namespace InOrder

variable {vouchers : Digest → Voucher}

theorem ready (h : InOrder s vouchers executors messages ds st)
    (hm : m ∈ members messages ds st.receipts executors) (hpending : m.pending = true) :
    Ready s vouchers m st := by
  obtain ⟨hof, hreceipt, -, hfresh⟩ := own_of_mem_members h.digests hm
  have hmessage : m.message ∈ messages := (List.of_mem_zip hreceipt).1
  rw [hpending] at hfresh
  exact ⟨hof, (h.chains _ hmessage).symm, h.active, h.unordered, by simpa using hfresh.symm,
    h.quorums m hm hpending⟩

theorem count_le (h : InOrder s vouchers executors messages ds st) :
    ((members messages ds st.receipts executors).filter Member.pending).length ≤ 8 := by
  exact length_pending_le h.digests h.lengths h.size.2

end InOrder

/-- **A batch is its members one by one.**  For a batch in order: it gives a result exactly if
its members, submitted by themselves in the order of the list, all give theirs, the digest of the
batch has a quorum, and the values and the rewards fit in all.  The results are the same then,
and so is what is left. -/
theorem processBatch_eq_runEach (h : InOrder s vouchers executors messages ds st)
    (o : BatchOutcome) (st' : BatchState ω) :
    processBatch s executors messages attestations st = .ok o st' ↔
      runEach s vouchers (members messages ds st.receipts executors) st = .ok o.results st' ∧
        o.digest = Digest.ofBatch ds ∧
        (∃ t, Quorum.check st.roster (Digest.ofBatch ds) attestations s.verify = .ok t) ∧
        (((members messages ds st.receipts executors).filter Member.pending).map
          fun m => m.message.value.toNat).sum ≤ s.liquidity.toNat ∧
        s.bridge.fees.relayReward.toNat *
          ((members messages ds st.receipts executors).filter Member.pending).length <
            UInt64.size := by
  have hcount := h.count_le
  have hlt : ((members messages ds st.receipts executors).filter Member.pending).length <
      UInt64.size := Nat.lt_of_le_of_lt hcount (by decide)
  rw [runEach_eq_ok h.epoch h.now (nodup_index_members _ _ _ _) (fun m hm hp => h.ready hm hp)
    (Nat.lt_of_le_of_lt hcount (by decide)), processBatch_eq_ok]
  constructor
  · rintro ⟨ms, window, reward, st₁, hvet, hcredit, hrun⟩
    obtain ⟨-, -, -, -, -, ds', hds', -, rfl, hdigest, ⟨total, htotal, hliquidity⟩, hwindow,
      hquorum, hprepared⟩ := vetBatch_eq_ok.1 hvet
    obtain rfl : ds = ds' := Except.ok.inj (h.digests.symm.trans hds')
    obtain ⟨hfits, ⟨roster, hcredited, rfl⟩, rfl⟩ := (creditEach_eq_ok_iff hlt).1 hcredit
    obtain ⟨hlimits, hsum⟩ := totalValue_eq_ok.1 htotal
    have hliquid : total.toNat ≤ s.liquidity.toNat := hliquidity
    have hvalue : ∀ m ∈ (members messages ds st.receipts executors).filter Member.pending,
        m.message.value ≤ s.liquidity := by
      intro m hm
      have hle := le_sum_map (fun m : Member ω => m.message.value.toNat) hm
      exact UInt64.le_iff_toNat_le.2 (by omega)
    exact ⟨⟨fun m hm => ⟨hlimits m hm, hvalue m hm, hprepared m hm⟩, window, roster, hwindow,
      hcredited, mapM_runMember_reward.1 hrun⟩, hdigest, hdigest ▸ hquorum, hsum ▸ hliquid, hfits⟩
  · rintro ⟨⟨hfit, window, roster, hwindow, hcredited, hrun⟩, hdigest, hquorum, hsum, hfits⟩
    obtain ⟨total, htotal⟩ : ∃ total : Amount, total.toNat =
        (((members messages ds st.receipts executors).filter Member.pending).map
          fun m => m.message.value.toNat).sum :=
      ⟨_, UInt64.toNat_ofNat_of_lt' (Nat.lt_of_le_of_lt hsum s.liquidity.toNat_lt)⟩
    have hliquidity : total ≤ s.liquidity := UInt64.le_iff_toNat_le.2 (htotal ▸ hsum)
    refine ⟨_, window, _, { st with roster }, vetBatch_eq_ok.2 ⟨h.size, h.lengths, h.chains,
      h.active, h.unordered, ds, h.digests, h.distinct, rfl, hdigest, ⟨total, ?_, hliquidity⟩,
      hwindow, hdigest ▸ hquorum, fun m hm => (hfit m hm).2.2⟩,
      (creditEach_eq_ok_iff hlt).2 ⟨hfits, ⟨roster, hcredited, rfl⟩, rfl⟩,
      mapM_runMember_reward.2 hrun⟩
    exact totalValue_eq_ok.2 ⟨fun m hm => (hfit m hm).1, htotal⟩

/-- A relayer hands in a batch of three messages, of which the second was executed before, and could
have handed in the two others by themselves: to the same effect on the window, on what the relayer
has earned, and on a destination that writes down what it gets. -/
theorem processBatch_eq_runEach_of_begun :
    let voucher (d : Digest) : Voucher := ⟨[{}], fun _ digest _ => digest = d, none⟩
    InOrder resumption voucher [keeper, keeper, keeper] threeMessages threeDigests begunBefore ∧
      ∃ o st', processBatch resumption [keeper, keeper, keeper] threeMessages [{}] begunBefore =
          .ok o st' ∧
        runEach resumption voucher
          (members threeMessages threeDigests begunBefore.receipts [keeper, keeper, keeper])
          begunBefore = .ok o.results st' ∧
        o.results = threeResults ∧ st'.world = [5, 7, 3] ∧
        st'.chain.inbound = { start := 6, count := 3 } ∧
        st'.roster.slots = [some { earned := 12 }] := by
  intro voucher
  have hquorum : ∀ d, Quorum.check begunBefore.roster d (voucher d).attestations
      (voucher d).verify = .ok { valid := 1, required := 1 } := by
    intro d
    have hverified : (voucher d).verify .zero d .zero = true := decide_eq_true rfl
    unfold Quorum.check Quorum.tally Quorum.countAll Quorum.count
    simp only [show begunBefore.roster.relayer? 0 = some { earned := 4 } from rfl, hverified]
    rfl
  have hinOrder : InOrder resumption voucher [keeper, keeper, keeper] threeMessages threeDigests
      begunBefore := {
    active := rfl, unordered := rfl, epoch := by decide, now := by decide
    size := ⟨List.cons_ne_nil _ _, by decide⟩, lengths := ⟨rfl, rfl⟩
    chains := by decide, digests := digests_threeMessages, distinct := by decide +kernel
    quorums := fun m _ _ => ⟨_, hquorum m.digest⟩ }
  obtain ⟨o, st', hrun, hresults, hworld, hroster, hwindow, -⟩ := processBatch_begunBefore
  exact ⟨hinOrder, o, st', hrun, ((processBatch_eq_runEach hinOrder o st').1 hrun).1, hresults,
    hworld, hwindow, hroster⟩

end Inbound
end QuorumRelay
