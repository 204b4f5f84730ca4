import Mathlib.Data.List.Nodup
import QuorumRelay.Inbound.Batch
import QuorumRelay.Proofs.Inbound.Process
import QuorumRelay.Proofs.Keccak

/-!
# What executing a batch takes and leaves

A batch is opened like a single message: once each, into its checks
(`Inbound.vetBatch`) and what comes after the credit (`Inbound.commitBatch`), and
from them the list of what was checked and what was written (`Inbound.Batched`).
Its last part is a loop over the members, and the loop is opened by an induction
of its own (`ran_of_mapM`).

## Why the members do not get in each other's way

Each member has a receipt of its own, named by its place in the batch, and the
places are the first natural numbers (`map_index_members`).  So what one member
writes into its receipt is what another finds in its own only if they are the
same member, and every member still to be executed finds its receipt as it was
handed in.
-/

namespace QuorumRelay

namespace Chain

theorem exists_recordInboundNonce (nonce : Nonce) (c : Chain) :
    ∃ highest, recordInboundNonce nonce c = { c with highestInbound := highest } := by
  unfold recordInboundNonce
  split
  · exact ⟨_, rfl⟩
  · exact ⟨_, rfl⟩

theorem recordInboundNonce_inbound (nonce : Nonce) (c : Chain) (window : RateWindow) :
    recordInboundNonce nonce { c with inbound := window } =
      { recordInboundNonce nonce c with inbound := window } := by
  unfold recordInboundNonce
  split <;> rfl

end Chain

namespace Inbound

variable {ω : Type} {s : Submission} {executors : List (Executor ω)} {reward : Amount}
  {messages : List InboundMessage} {ds : List Digest} {receipts : List Receipt}
  {attestations : List Attestation} {st st' : BatchState ω} {f : Fault}

/-! ## The members -/

/-- The member at a place has everything that stands at that place. -/
theorem getElem?_members {k : Nat} {m : Member ω} :
    (members messages ds receipts executors)[k]? = some m ↔
      m.index = k ∧ messages[k]? = some m.message ∧ ds[k]? = some m.digest ∧
        executors[k]? = some m.executor ∧
        ∃ receipt, receipts[k]? = some receipt ∧ m.pending = !receipt.contains m.digest := by
  obtain ⟨index, message, digest, executor, pending⟩ := m
  unfold members
  rw [List.getElem?_map, List.getElem?_zipIdx, Nat.zero_add, Option.map_map,
    Option.map_eq_some_iff]
  simp only [List.getElem?_zip_eq_some, Function.comp_apply, Member.mk.injEq, Prod.exists]
  constructor
  · rintro ⟨_, _, receipt, _, ⟨hm, hd, hr, he⟩, rfl, rfl, rfl, rfl, rfl⟩
    exact ⟨rfl, hm, hd, he, receipt, hr, rfl⟩
  · rintro ⟨rfl, hm, hd, he, receipt, hr, rfl⟩
    exact ⟨message, digest, receipt, executor, ⟨hm, hd, hr, he⟩, rfl, rfl, rfl, rfl, rfl⟩

theorem executor_mem {m : Member ω} (h : m ∈ members messages ds receipts executors) :
    m.executor ∈ executors := by
  obtain ⟨k, hk⟩ := List.mem_iff_getElem?.1 h
  exact List.mem_of_getElem? (getElem?_members.1 hk).2.2.2.1

/-- **Members are numbered by their places.** -/
theorem map_index_members :
    (members messages ds receipts executors).map Member.index =
      List.range (members messages ds receipts executors).length := by
  refine List.ext_getElem (by simp) fun k hk _ => ?_
  rw [List.length_map] at hk
  rw [List.getElem_map, List.getElem_range]
  exact (getElem?_members.1 (List.getElem?_eq_getElem hk)).1

theorem length_members (hd : ds.length = messages.length)
    (hr : receipts.length = messages.length) (he : executors.length = messages.length) :
    (members messages ds receipts executors).length = messages.length := by
  unfold members
  simp [hd, hr, he]

theorem length_digests {b : Bridge} (h : digests b messages = .ok ds) :
    ds.length = messages.length :=
  (except_mapM_eq_ok.1 h).length_eq.symm

/-- No more members have to be executed than a batch can have. -/
theorem length_pending_le {b : Bridge} (hds : digests b messages = .ok ds)
    (hlengths : executors.length = messages.length ∧ receipts.length = messages.length)
    (hsize : messages.length ≤ maxBatchSize) :
    ((members messages ds receipts executors).filter Member.pending).length ≤ maxBatchSize := by
  have hle := List.length_filter_le Member.pending (members messages ds receipts executors)
  rw [length_members (length_digests hds) hlengths.2 hlengths.1] at hle
  exact Nat.le_trans hle hsize

/-- **A member stands under its message's own digest**, next to the receipt at its place, and is
passed over if that receipt says that it was executed. -/
theorem own_of_mem_members {b : Bridge} {m : Member ω} (hds : digests b messages = .ok ds)
    (hm : m ∈ members messages ds receipts executors) :
    Digest.ofMessage b.hostChain b.identity m.message = .ok m.digest ∧
      (m.message, receipts.getD m.index {}) ∈ messages.zip receipts ∧
      (m.digest, receipts.getD m.index {}) ∈ ds.zip receipts ∧
      m.pending = !(receipts.getD m.index {}).contains m.digest := by
  obtain ⟨k, hk⟩ := List.mem_iff_getElem?.1 hm
  obtain ⟨rfl, hmessage, hdigest, -, receipt, hreceipt, hpending⟩ := getElem?_members.1 hk
  obtain ⟨d, hd, hof⟩ := forall₂_getElem? (except_mapM_eq_ok.1 hds) hmessage
  obtain rfl : d = m.digest := by simpa using hd.symm.trans hdigest
  have hown : receipts.getD m.index {} = receipt := by
    rw [List.getD_eq_getElem?_getD, hreceipt, Option.getD_some]
  rw [hown]
  exact ⟨hof, List.mem_of_getElem? (List.getElem?_zip_eq_some.2 ⟨hmessage, hreceipt⟩),
    List.mem_of_getElem? (List.getElem?_zip_eq_some.2 ⟨hdigest, hreceipt⟩), hpending⟩

/-! ## The loop -/

/-- A member that is still to be executed is marked and delivered. -/
theorem runMember_eq_ok_of_pending {m : Member ω} {r : MemberResult} (hm : m.pending = true) :
    runMember reward m st = .ok r st' ↔
      ∃ receipt failure world,
        Receipt.insert m.digest (st.receipts.getD m.index {}) = .ok () receipt ∧
        deliver m.executor m.digest m.message st.world = .ok failure world ∧
        st' = {
          chain := Chain.recordInboundNonce m.message.sourceNonce st.chain
          roster := st.roster, receipts := st.receipts.set m.index receipt, world } ∧
        r = .executed {
          digest := m.digest, sourceChain := m.message.sourceChain
          sourceNonce := m.message.sourceNonce, failure, reward } := by
  unfold runMember BatchState.onReceipt BatchState.onWorld
  simp only [hm, if_true, bind_eq_ok (x := Action.on _ _ _), Action.on_eq_ok, modify_bind,
    pure_eq_ok]
  constructor
  · rintro ⟨_, _, ⟨receipt, hinsert, rfl⟩, failure, _, ⟨world, hdeliver, rfl⟩, rfl, rfl⟩
    exact ⟨receipt, failure, world, hinsert, hdeliver, rfl, rfl⟩
  · rintro ⟨receipt, failure, world, hinsert, hdeliver, rfl, rfl⟩
    exact ⟨_, _, ⟨receipt, hinsert, rfl⟩, failure, _, ⟨world, hdeliver, rfl⟩, rfl, rfl⟩

/-- A member that was executed before is passed over. -/
theorem runMember_eq_ok_of_not_pending {m : Member ω} {r : MemberResult}
    (hm : m.pending = false) :
    runMember reward m st = .ok r st' ↔ st' = st ∧ r = .skipped m.digest := by
  unfold runMember
  simp only [hm, Bool.false_eq_true, if_false, pure_eq_ok]
  rw [and_comm, eq_comm, eq_comm (a := MemberResult.skipped _)]

/-- What a member run through a batch leaves, apart from its own receipt and the world: the
highest nonce can change, and nothing else. -/
theorem runMember_keeps {m : Member ω} {r : MemberResult}
    (h : runMember reward m st = .ok r st') :
    st'.roster = st.roster ∧
      (∃ nonce, st'.chain = { st.chain with highestInbound := nonce }) ∧
      ∀ k, k ≠ m.index → st'.receipts.getD k {} = st.receipts.getD k {} := by
  cases hpending : m.pending with
  | false =>
    obtain ⟨rfl, -⟩ := (runMember_eq_ok_of_not_pending hpending).1 h
    exact ⟨rfl, ⟨_, rfl⟩, fun _ _ => rfl⟩
  | true =>
    obtain ⟨receipt, failure, world, -, -, rfl, -⟩ := (runMember_eq_ok_of_pending hpending).1 h
    refine ⟨rfl, Chain.exists_recordInboundNonce _ _, fun k hk => ?_⟩
    rw [List.getD_eq_getElem?_getD, List.getD_eq_getElem?_getD, List.getElem?_set_ne (Ne.symm hk)]

/-- The deliveries of members, one after the other. -/
inductive Delivered : List (Member ω) → ω → ω → Prop
  | nil (w : ω) : Delivered [] w w
  | cons {m : Member ω} {ms : List (Member ω)} {w w₁ w' : ω} {failure : Option Fault}
      (first : deliver m.executor m.digest m.message w = .ok failure w₁)
      (rest : Delivered ms w₁ w') : Delivered (m :: ms) w w'

/-- The result of a member tells whether it was executed, and under which digest. -/
def Answers (m : Member ω) : MemberResult → Prop
  | .skipped digest => m.pending = false ∧ digest = m.digest
  | .executed o => m.pending = true ∧ o.digest = m.digest

/-- **What running through members leaves.** -/
structure Ran (ms : List (Member ω)) (st : BatchState ω) (results : List MemberResult)
    (st' : BatchState ω) : Prop where
  roster : st'.roster = st.roster
  receipts_length : st'.receipts.length = st.receipts.length
  /-- Receipts of other members stay as they were. -/
  others : ∀ k, (∀ m ∈ ms, m.pending = true → m.index ≠ k) →
    st'.receipts.getD k {} = st.receipts.getD k {}
  marked : ∀ m ∈ ms, m.pending = true →
    Receipt.insert m.digest (st.receipts.getD m.index {}) = .ok () (st'.receipts.getD m.index {})
  answers : List.Forall₂ Answers ms results
  delivered : Delivered (ms.filter Member.pending) st.world st'.world

theorem ran_of_mapM {ms : List (Member ω)} {results : List MemberResult}
    (hplaces : (ms.map Member.index).Nodup) (hlt : ∀ m ∈ ms, m.index < st.receipts.length)
    (h : ms.mapM (runMember reward) st = .ok results st') : Ran ms st results st' := by
  induction ms generalizing st results with
  | nil =>
    obtain ⟨rfl, rfl⟩ := mapM_nil_eq_ok.1 h
    exact ⟨rfl, rfl, fun _ _ => rfl, by simp, .nil, .nil _⟩
  | cons m ms ih =>
    obtain ⟨r, st₁, rest, hfirst, hrest, rfl⟩ := mapM_cons_eq_ok.1 h
    rw [List.map_cons, List.nodup_cons] at hplaces
    obtain ⟨hplace, hplaces⟩ := hplaces
    rw [List.forall_mem_cons] at hlt
    obtain ⟨hm, hlt⟩ := hlt
    have hne : ∀ m' ∈ ms, m'.index ≠ m.index := fun m' hm' heq =>
      hplace (heq ▸ List.mem_map_of_mem hm')
    cases hpending : m.pending with
    | false =>
      obtain ⟨rfl, rfl⟩ := (runMember_eq_ok_of_not_pending hpending).1 hfirst
      have hran := ih hplaces hlt hrest
      refine ⟨hran.roster, hran.receipts_length, ?_, ?_, .cons ⟨hpending, rfl⟩ hran.answers, ?_⟩
      · exact fun k hk => hran.others k fun m' hm' => hk m' (List.mem_cons_of_mem _ hm')
      · intro m' hm' hp
        rcases List.mem_cons.1 hm' with rfl | hm'
        · exact absurd hp (by simp [hpending])
        · exact hran.marked m' hm' hp
      · rw [List.filter_cons_of_neg (by simp [hpending])]
        exact hran.delivered
    | true =>
      obtain ⟨receipt, failure, world, hinsert, hdeliver, hst₁, rfl⟩ :=
        (runMember_eq_ok_of_pending hpending).1 hfirst
      have hreceipts : st₁.receipts = st.receipts.set m.index receipt := by rw [hst₁]
      have hlen : st₁.receipts.length = st.receipts.length := by
        rw [hreceipts, List.length_set]
      obtain ⟨hroster, -, hother⟩ := runMember_keeps hfirst
      have hown : st₁.receipts.getD m.index {} = receipt := by
        rw [hreceipts, List.getD_eq_getElem?_getD, List.getElem?_set_self hm, Option.getD_some]
      have hran := ih hplaces (fun m' hm' => hlen ▸ hlt m' hm') hrest
      refine ⟨hran.roster.trans hroster, hran.receipts_length.trans hlen, ?_, ?_,
        .cons ⟨hpending, rfl⟩ hran.answers, ?_⟩
      · intro k hk
        rw [hran.others k fun m' hm' => hk m' (List.mem_cons_of_mem _ hm')]
        exact hother k (hk m List.mem_cons_self hpending).symm
      · intro m' hm' hp
        rcases List.mem_cons.1 hm' with rfl | hm'
        · rw [hran.others m'.index fun m'' hm'' _ => hne m'' hm'', hown]
          exact hinsert
        · have hmarked := hran.marked m' hm' hp
          rwa [hother m'.index (hne m' hm')] at hmarked
      · rw [List.filter_cons_of_pos hpending]
        refine .cons hdeliver ?_
        have hdelivered := hran.delivered
        rwa [hst₁] at hdelivered

/-- **What running one member does to the world**, and the result that it gives: the member is
passed over, or its own message is delivered. -/
inductive Serves (reward : Amount) (m : Member ω) (w : ω) : MemberResult → ω → Prop
  | skipped (done : m.pending = false) : Serves reward m w (.skipped m.digest) w
  | executed {failure : Option Fault} {w' : ω} (pending : m.pending = true)
      (delivered : deliver m.executor m.digest m.message w = .ok failure w') :
      Serves reward m w (.executed {
        digest := m.digest, sourceChain := m.message.sourceChain
        sourceNonce := m.message.sourceNonce, failure, reward }) w'

theorem serves_of_runMember {m : Member ω} {r : MemberResult}
    (h : runMember reward m st = .ok r st') : Serves reward m st.world r st'.world := by
  cases hpending : m.pending with
  | false =>
    obtain ⟨rfl, rfl⟩ := (runMember_eq_ok_of_not_pending hpending).1 h
    exact .skipped hpending
  | true =>
    obtain ⟨receipt, failure, world, -, hdeliver, rfl, rfl⟩ :=
      (runMember_eq_ok_of_pending hpending).1 h
    exact .executed hpending hdeliver

/-- **Members are served one after the other**: each finds the world that the one before it left,
and its result stands at its own place. -/
theorem worlds_of_mapM {ms : List (Member ω)} {results : List MemberResult}
    (h : ms.mapM (runMember reward) st = .ok results st') :
    ∃ world : Nat → ω, world 0 = st.world ∧ world ms.length = st'.world ∧
      ∀ k m, ms[k]? = some m →
        ∃ r, results[k]? = some r ∧ Serves reward m (world k) r (world (k + 1)) := by
  induction ms generalizing st results with
  | nil =>
    obtain ⟨-, rfl⟩ := mapM_nil_eq_ok.1 h
    exact ⟨fun _ => st'.world, rfl, rfl, by simp⟩
  | cons m ms ih =>
    obtain ⟨r, st₁, rest, hfirst, hrest, rfl⟩ := mapM_cons_eq_ok.1 h
    obtain ⟨world, hzero, hlast, hserves⟩ := ih hrest
    refine ⟨fun k => k.casesOn st.world world, rfl, hlast, fun k m' hm' => ?_⟩
    cases k with
    | zero =>
      obtain rfl : m = m' := by simpa using hm'
      refine ⟨r, rfl, ?_⟩
      show Serves reward m st.world r (world 0)
      rw [hzero]
      exact serves_of_runMember hfirst
    | succ k => exact hserves k m' (by simpa using hm')

/-- Running through members changes the highest nonce of the chain alone. -/
theorem chain_of_mapM {ms : List (Member ω)} {results : List MemberResult}
    (h : ms.mapM (runMember reward) st = .ok results st') :
    ∃ nonce, st'.chain = { st.chain with highestInbound := nonce } := by
  induction ms generalizing st results with
  | nil =>
    obtain ⟨-, rfl⟩ := mapM_nil_eq_ok.1 h
    exact ⟨_, rfl⟩
  | cons m ms ih =>
    obtain ⟨r, st₁, rest, hfirst, hrest, -⟩ := mapM_cons_eq_ok.1 h
    obtain ⟨-, ⟨nonce₁, hchain₁⟩, -⟩ := runMember_keeps hfirst
    obtain ⟨nonce, hchain⟩ := ih hrest
    rw [hchain₁] at hchain
    exact ⟨nonce, hchain⟩

/-- The results tell how many members were executed. -/
theorem countP_isExecuted {ms : List (Member ω)} {results : List MemberResult}
    (h : List.Forall₂ Answers ms results) :
    results.countP MemberResult.isExecuted = (ms.filter Member.pending).length := by
  rw [← List.countP_eq_length_filter]
  induction h with
  | nil => rfl
  | @cons m r ms results hanswer _ ih =>
    have hsame : r.isExecuted = m.pending := by
      cases r with
      | skipped => exact hanswer.1.symm
      | executed => exact hanswer.1.symm
    rw [List.countP_cons, List.countP_cons, ih, hsame]

/-! ## The whole -/

variable {ms : List (Member ω)} {window : RateWindow} {digest : Digest}

/-- All the checks on a batch.  They find its members, the window that is to be, and the digest
of the whole. -/
def vetBatch (s : Submission) (executors : List (Executor ω)) (messages : List InboundMessage)
    (attestations : List Attestation) (st : BatchState ω) :
    Except Fault (List (Member ω) × RateWindow × Digest) := do
  require (messages ≠ [] ∧ messages.length ≤ maxBatchSize) .invalidBatchSize
  require (executors.length = messages.length ∧ st.receipts.length = messages.length)
    .missingBatchAccounts
  require (∀ m ∈ messages, m.sourceChain = st.chain.id) .mixedBatch
  st.chain.checkActive
  require (st.chain.limits.strictOrdering = false) .strictOrderingRequiresSingle
  let ds ← digests s.bridge messages
  checkDistinct ds
  let ms := members messages ds st.receipts executors
  let pending := ms.filter Member.pending
  let total ← totalValue st.chain pending
  let window ← acceptAll s st.chain pending.length
  let _ ← Quorum.check st.roster (Digest.ofBatch ds) attestations s.verify
  require (total ≤ s.liquidity) .insufficientLiquidity
  pending.forM fun m => m.executor.prepare m.message
  return (ms, window, Digest.ofBatch ds)

/-- What is left to do for a batch once the submitter has been credited. -/
def commitBatch (ms : List (Member ω)) (window : RateWindow) (digest : Digest) (reward : Amount) :
    Action (BatchState ω) BatchOutcome := do
  modify fun st => { st with chain := { st.chain with inbound := window } }
  let results ← ms.mapM (runMember reward)
  return ⟨digest, results⟩

theorem processBatch_eq (executors : List (Executor ω)) (messages : List InboundMessage)
    (attestations : List Attestation) (st : BatchState ω) :
    processBatch s executors messages attestations st =
      ((liftM (vetBatch s executors messages attestations st) : Action (BatchState ω) _) >>=
        fun p => do
          let reward ← creditEach s (p.1.filter Member.pending).length
          commitBatch p.1 p.2.1 p.2.2 reward) st := by
  unfold processBatch vetBatch commitBatch
  simp only [lift_bind_bind, lift_require, lift_pure_bind, lift_forM]
  rfl

/-- What a batch has to be like to pass. -/
theorem vetBatch_eq_ok : vetBatch s executors messages attestations st = .ok (ms, window, digest) ↔
    (messages ≠ [] ∧ messages.length ≤ maxBatchSize) ∧
      (executors.length = messages.length ∧ st.receipts.length = messages.length) ∧
      (∀ m ∈ messages, m.sourceChain = st.chain.id) ∧ st.chain.active = true ∧
      st.chain.limits.strictOrdering = false ∧
      ∃ ds, digests s.bridge messages = .ok ds ∧ ds.Nodup ∧
        ms = members messages ds st.receipts executors ∧ digest = Digest.ofBatch ds ∧
        (∃ total, totalValue st.chain (ms.filter Member.pending) = .ok total ∧
          total ≤ s.liquidity) ∧
        acceptAll s st.chain (ms.filter Member.pending).length = .ok window ∧
        (∃ t, Quorum.check st.roster digest attestations s.verify = .ok t) ∧
        ∀ m ∈ ms.filter Member.pending, m.executor.prepare m.message = .ok () := by
  unfold vetBatch Chain.checkActive checkDistinct
  simp only [except_bind_eq_ok, require_eq_ok, except_forM_eq_ok, except_pure_eq_ok, Prod.mk.injEq]
  constructor
  · rintro ⟨_, hsize, _, hlengths, _, hchains, _, hactive, _, hunordered, ds, hds, _, hdistinct,
      total, htotal, w, hwindow, t, hquorum, _, hliquidity, _, hprepared, rfl, rfl, rfl⟩
    exact ⟨hsize, hlengths, hchains, hactive, hunordered, ds, hds, hdistinct, rfl, rfl,
      ⟨total, htotal, hliquidity⟩, hwindow, ⟨t, hquorum⟩, hprepared⟩
  · rintro ⟨hsize, hlengths, hchains, hactive, hunordered, ds, hds, hdistinct, rfl, rfl,
      ⟨total, htotal, hliquidity⟩, hwindow, ⟨t, hquorum⟩, hprepared⟩
    exact ⟨(), hsize, (), hlengths, (), hchains, (), hactive, (), hunordered, ds, hds, (),
      hdistinct, total, htotal, _, hwindow, t, hquorum, (), hliquidity, (), hprepared, rfl, rfl,
      rfl⟩

theorem processBatch_eq_ok {o : BatchOutcome} :
    processBatch s executors messages attestations st = .ok o st' ↔
      ∃ ms window reward st₁, vetBatch s executors messages attestations st =
          .ok (ms, window, o.digest) ∧
        creditEach s (ms.filter Member.pending).length st = .ok reward st₁ ∧
        ms.mapM (runMember reward) { st₁ with chain := { st₁.chain with inbound := window } } =
          .ok o.results st' := by
  rw [processBatch_eq, lift_bind_eq_ok]
  unfold commitBatch
  simp only [bind_eq_ok (x := creditEach _ _), modify_bind, bind_eq_ok (x := List.mapM _ _),
    pure_eq_ok, Prod.exists]
  constructor
  · rintro ⟨ms, window, digest, hvet, reward, st₁, hcredit, results, _, hrun, rfl, rfl⟩
    exact ⟨ms, window, reward, st₁, hvet, hcredit, hrun⟩
  · rintro ⟨ms, window, reward, st₁, hvet, hcredit, hrun⟩
    exact ⟨ms, window, o.digest, hvet, reward, st₁, hcredit, o.results, st', hrun, rfl, rfl⟩

/-- **Everything that executing a batch checked and wrote.** -/
structure Batched (s : Submission) (executors : List (Executor ω))
    (messages : List InboundMessage) (attestations : List Attestation) (st : BatchState ω)
    (ds : List Digest) (o : BatchOutcome) (st' : BatchState ω) : Prop where
  size : messages ≠ [] ∧ messages.length ≤ maxBatchSize
  lengths : executors.length = messages.length ∧ st.receipts.length = messages.length
  chains : ∀ m ∈ messages, m.sourceChain = st.chain.id
  active : st.chain.active = true
  unordered : st.chain.limits.strictOrdering = false
  digests : digests s.bridge messages = .ok ds
  distinct : ds.Nodup
  digest : o.digest = Digest.ofBatch ds
  total : ∃ total, totalValue st.chain
    ((members messages ds st.receipts executors).filter Member.pending) = .ok total ∧
    total ≤ s.liquidity
  quorum : ∃ t, Quorum.check st.roster o.digest attestations s.verify = .ok t
  prepared : ∀ m ∈ (members messages ds st.receipts executors).filter Member.pending,
    m.executor.prepare m.message = .ok ()
  run : ∃ window reward st₁, acceptAll s st.chain
      ((members messages ds st.receipts executors).filter Member.pending).length = .ok window ∧
    creditEach s ((members messages ds st.receipts executors).filter Member.pending).length st =
      .ok reward st₁ ∧
    (members messages ds st.receipts executors).mapM (runMember reward)
      { st₁ with chain := { st₁.chain with inbound := window } } = .ok o.results st'

theorem batched_of_processBatch {o : BatchOutcome}
    (h : processBatch s executors messages attestations st = .ok o st') :
    ∃ ds, Batched s executors messages attestations st ds o st' := by
  obtain ⟨ms, window, reward, st₁, hvet, hcredit, hrun⟩ := processBatch_eq_ok.1 h
  obtain ⟨hsize, hlengths, hchains, hactive, hunordered, ds, hds, hdistinct, rfl, hdigest, htotal,
    hwindow, hquorum, hprepared⟩ := vetBatch_eq_ok.1 hvet
  exact ⟨ds, {
    size := hsize, lengths := hlengths, chains := hchains, active := hactive
    unordered := hunordered, digests := hds, distinct := hdistinct, digest := hdigest
    total := htotal, quorum := hquorum, prepared := hprepared
    run := ⟨window, reward, st₁, hwindow, hcredit, hrun⟩ }⟩

/-- Crediting the submitter changes the roster alone, by one credit or not at all. -/
theorem creditEach_eq_ok {count : Nat} (h : creditEach s count st = .ok reward st') :
    st' = { st with roster := st'.roster } ∧
      (st'.roster = st.roster ∨
        ∃ total, creditSubmitter s count st.roster = .ok total st'.roster) := by
  unfold creditEach BatchState.onRoster at h
  by_cases hzero : count = 0
  · simp only [hzero, if_true, pure_eq_ok] at h
    obtain ⟨-, rfl⟩ := h
    exact ⟨rfl, Or.inl rfl⟩
  · simp only [hzero, if_false, bind_eq_ok (x := Action.on _ _ _), Action.on_eq_ok,
      pure_eq_ok] at h
    obtain ⟨_, _, ⟨r, hcredit, rfl⟩, rfl, rfl⟩ := h
    exact ⟨rfl, Or.inr ⟨_, hcredit⟩⟩

/-- The members that a batch runs through are all its members, one for each message. -/
theorem Batched.length_members {o : BatchOutcome}
    (h : Batched s executors messages attestations st ds o st') :
    (members messages ds st.receipts executors).length = messages.length := by
  exact Inbound.length_members (length_digests h.digests) h.lengths.2 h.lengths.1

/-- **What a batch leaves of the receipts, the roster and the world.** -/
theorem Batched.ran {o : BatchOutcome}
    (h : Batched s executors messages attestations st ds o st') :
    (st'.roster = st.roster ∨
      ∃ count total, creditSubmitter s count st.roster = .ok total st'.roster) ∧
      ∃ roster chain, Ran (members messages ds st.receipts executors)
        { st with roster, chain } o.results st' := by
  obtain ⟨window, reward, st₁, -, hcredit, hrun⟩ := h.run
  obtain ⟨hst₁, hroster⟩ := creditEach_eq_ok hcredit
  rw [hst₁] at hrun
  have hran := ran_of_mapM ?_ ?_ hrun
  · refine ⟨?_, _, _, hran⟩
    rw [hran.roster]
    exact hroster.imp_right fun hcredit => ⟨_, hcredit⟩
  · rw [map_index_members]
    exact List.nodup_range
  · intro m hm
    show m.index < st.receipts.length
    rw [h.lengths.2, ← h.length_members]
    obtain ⟨k, hk⟩ := List.mem_iff_getElem?.1 hm
    rw [(getElem?_members.1 hk).1]
    exact (List.getElem?_eq_some_iff.1 hk).1

/-- **A batch serves its members one after the other**, from the world that it found to the one
that it leaves. -/
theorem Batched.worlds {o : BatchOutcome}
    (h : Batched s executors messages attestations st ds o st') :
    ∃ reward, ∃ world : Nat → ω, world 0 = st.world ∧ world messages.length = st'.world ∧
      ∀ k m, (members messages ds st.receipts executors)[k]? = some m →
        ∃ r, o.results[k]? = some r ∧ Serves reward m (world k) r (world (k + 1)) := by
  obtain ⟨window, reward, st₁, -, hcredit, hrun⟩ := h.run
  obtain ⟨world, hzero, hlast, hserves⟩ := worlds_of_mapM hrun
  rw [(creditEach_eq_ok hcredit).1] at hzero
  rw [h.length_members] at hlast
  exact ⟨reward, world, hzero, hlast, hserves⟩

/-- **What becomes of the member at a place**, told by what stands at this place alone: its message,
its digest, its executor and its receipt. -/
inductive Handled (message : InboundMessage) (d : Digest) (executor : Executor ω)
    (receipt : Receipt) (w : ω) : Receipt → MemberResult → ω → Prop
  | skipped (done : receipt.contains d = true) :
      Handled message d executor receipt w receipt (.skipped d) w
  | executed {receipt' : Receipt} {failure : Option Fault} {reward : Amount} {w' : ω}
      (fresh : receipt.contains d = false) (prepared : executor.prepare message = .ok ())
      (inserted : Receipt.insert d receipt = .ok () receipt')
      (delivered : deliver executor d message w = .ok failure w') :
      Handled message d executor receipt w receipt' (.executed {
        digest := d, sourceChain := message.sourceChain, sourceNonce := message.sourceNonce
        failure, reward }) w'

/-- **In a batch, what belongs to one place stays together.** -/
theorem Batched.handled {o : BatchOutcome}
    (h : Batched s executors messages attestations st ds o st') :
    ∃ world : Nat → ω, world 0 = st.world ∧ world messages.length = st'.world ∧
      ∀ k message d executor receipt, messages[k]? = some message → ds[k]? = some d →
        executors[k]? = some executor → st.receipts[k]? = some receipt →
        ∃ receipt' r, st'.receipts[k]? = some receipt' ∧ o.results[k]? = some r ∧
          Handled message d executor receipt (world k) receipt' r (world (k + 1)) := by
  obtain ⟨reward, world, hzero, hlast, hserves⟩ := h.worlds
  obtain ⟨-, _, _, hran⟩ := h.ran
  refine ⟨world, hzero, hlast, fun k message d executor receipt hmessage hd hexecutor hreceipt => ?_⟩
  have hk : (members messages ds st.receipts executors)[k]? =
      some ⟨k, message, d, executor, !receipt.contains d⟩ :=
    getElem?_members.2 ⟨rfl, hmessage, hd, hexecutor, receipt, hreceipt, rfl⟩
  have hmem := List.mem_of_getElem? hk
  obtain ⟨r, hr, hserved⟩ := hserves k _ hk
  have hlt : k < st'.receipts.length := by
    rw [hran.receipts_length]
    exact (List.getElem?_eq_some_iff.1 hreceipt).1
  have hafter : st'.receipts[k]? = some (st'.receipts.getD k {}) := by
    rw [List.getD_eq_getElem?_getD, List.getElem?_eq_getElem hlt, Option.getD_some]
  have hbefore : st.receipts.getD k {} = receipt := by
    rw [List.getD_eq_getElem?_getD, hreceipt, Option.getD_some]
  refine ⟨_, r, hafter, hr, ?_⟩
  generalize hw : world (k + 1) = w' at hserved
  cases hserved with
  | skipped done =>
    have hown : st'.receipts.getD k {} = receipt := by
      rw [← hbefore]
      refine hran.others k fun m hm hpending hplace => ?_
      obtain ⟨j, hj⟩ := List.mem_iff_getElem?.1 hm
      obtain rfl : j = k := (getElem?_members.1 hj).1.symm.trans hplace
      rw [Option.some.inj (hj.symm.trans hk)] at hpending
      exact absurd (done.symm.trans hpending) Bool.false_ne_true
    rw [hown]
    exact .skipped (by simpa using done)
  | executed pending delivered =>
    have hmarked := hran.marked _ hmem pending
    rw [show (BatchState.receipts _).getD k {} = receipt from hbefore] at hmarked
    exact .executed (by simpa using pending)
      (h.prepared _ (List.mem_filter.2 ⟨hmem, pending⟩)) hmarked delivered

/-- **A batch asks the window for as many messages as it executes**, and changes nothing of the
chain but the window and the highest nonce. -/
theorem Batched.admitted {o : BatchOutcome}
    (h : Batched s executors messages attestations st ds o st') :
    o.executedCount ≤ maxBatchSize ∧ ∃ window nonce,
      acceptAll s st.chain o.executedCount = .ok window ∧
        st'.chain = { st.chain with inbound := window, highestInbound := nonce } := by
  obtain ⟨-, _, _, hran⟩ := h.ran
  have hcount : o.executedCount = ((members messages ds st.receipts executors).filter
    Member.pending).length := countP_isExecuted hran.answers
  obtain ⟨window, reward, st₁, hwindow, hcredit, hrun⟩ := h.run
  obtain ⟨nonce, hchain⟩ := chain_of_mapM hrun
  rw [(creditEach_eq_ok hcredit).1] at hchain
  rw [hcount]
  exact ⟨length_pending_le h.digests h.lengths h.size.2, window, nonce, hwindow, hchain⟩

/-- A batch changes at most the earnings in one slot. -/
theorem Batched.change {o : BatchOutcome}
    (h : Batched s executors messages attestations st ds o st') :
    Roster.Change st.roster st'.roster.slots := by
  rcases h.ran.1 with hsame | ⟨_, _, hcredit⟩
  · rw [hsame]
    exact .keep
  · exact creditSubmitter_change hcredit

/-- The limits are kept by each member, and the values are added up exactly. -/
theorem totalValue_eq_ok {chain : Chain} {ms : List (Member ω)} {total : Amount} :
    totalValue chain ms = .ok total ↔
      (∀ m ∈ ms, chain.checkLimits m.message.payload.length m.message.computeBudget = .ok ()) ∧
        total.toNat = (ms.map fun m => m.message.value.toNat).sum := by
  unfold totalValue
  -- the sum so far is carried along, so the statement is about every sum to start with
  suffices hfold : ∀ start : Amount, ms.foldlM (fun total m => do
      chain.checkLimits m.message.payload.length m.message.computeBudget
      total.plus m.message.value) start = .ok total ↔
        (∀ m ∈ ms, chain.checkLimits m.message.payload.length m.message.computeBudget = .ok ()) ∧
          total.toNat = start.toNat + (ms.map fun m => m.message.value.toNat).sum by
    simpa using hfold 0
  induction ms with
  | nil =>
    intro start
    rw [List.foldlM_nil, except_pure_eq_ok, eq_comm, ← UInt64.toNat_inj]
    simp
  | cons m ms ih =>
    intro start
    simp only [List.foldlM_cons, except_bind_eq_ok, Amount.plus_eq_ok, ih, List.forall_mem_cons,
      List.map_cons, List.sum_cons]
    constructor
    · rintro ⟨next, ⟨_, hm, hnext⟩, hms, htotal⟩
      exact ⟨⟨hm, hms⟩, by omega⟩
    · rintro ⟨⟨hm, hms⟩, htotal⟩
      have hlt : start.toNat + m.message.value.toNat < UInt64.size :=
        Nat.lt_of_le_of_lt (by omega) total.toNat_lt
      refine ⟨_, ⟨(), hm, UInt64.toNat_ofNat_of_lt' hlt⟩, hms, ?_⟩
      rw [UInt64.toNat_ofNat_of_lt' hlt]
      omega

/-- **A batch asks for no more value than is there.** -/
theorem Batched.value_le {o : BatchOutcome}
    (h : Batched s executors messages attestations st ds o st') :
    (((members messages ds st.receipts executors).filter Member.pending).map
      fun m => m.message.value.toNat).sum ≤ s.liquidity.toNat := by
  obtain ⟨total, htotal, hle⟩ := h.total
  rw [← (totalValue_eq_ok.1 htotal).2]
  exact hle

/-- The digests of the members that a batch executes. -/
def executedDigests (messages : List InboundMessage) (ds : List Digest) (receipts : List Receipt)
    (executors : List (Executor ω)) : List Digest :=
  ((members messages ds receipts executors).filter Member.pending).map Member.digest

theorem map_digest_members (hm : ds.length = messages.length)
    (hr : receipts.length = messages.length) (he : executors.length = messages.length) :
    (members messages ds receipts executors).map Member.digest = ds := by
  refine List.ext_getElem ?_ fun k hk _ => ?_
  · rw [List.length_map, length_members hm hr he, hm]
  · rw [List.length_map] at hk
    rw [List.getElem_map]
    obtain ⟨-, -, hd, -⟩ := getElem?_members.1 (List.getElem?_eq_getElem hk)
    exact (List.getElem?_eq_some_iff.1 hd).2.symm

theorem map_message_members (hm : ds.length = messages.length)
    (hr : receipts.length = messages.length) (he : executors.length = messages.length) :
    (members messages ds receipts executors).map Member.message = messages := by
  refine List.ext_getElem ?_ fun k hk _ => ?_
  · rw [List.length_map, length_members hm hr he]
  · rw [List.length_map] at hk
    rw [List.getElem_map]
    obtain ⟨-, hmessage, -⟩ := getElem?_members.1 (List.getElem?_eq_getElem hk)
    exact (List.getElem?_eq_some_iff.1 hmessage).2.symm

theorem Batched.of_member {o : BatchOutcome} {m : Member ω}
    (h : Batched s executors messages attestations st ds o st')
    (hm : m ∈ members messages ds st.receipts executors) :
    Digest.ofMessage s.bridge.hostChain s.bridge.identity m.message = .ok m.digest ∧
      ∃ receipt, (m.digest, receipt) ∈ ds.zip st.receipts ∧
        m.pending = !receipt.contains m.digest := by
  obtain ⟨hof, -, hreceipt, hpending⟩ := own_of_mem_members h.digests hm
  exact ⟨hof, _, hreceipt, hpending⟩

/-- **No digest is executed twice in one batch.** -/
theorem Batched.nodup_executedDigests {o : BatchOutcome}
    (h : Batched s executors messages attestations st ds o st') :
    (executedDigests messages ds st.receipts executors).Nodup := by
  have hlen := length_digests h.digests
  have hsub := (List.filter_sublist (p := Member.pending)
    (l := members messages ds st.receipts executors)).map Member.digest
  rw [map_digest_members hlen h.lengths.2 h.lengths.1] at hsub
  exact h.distinct.sublist hsub

/-- There are a receipt and a result for every digest. -/
theorem Batched.length_le_closing {o : BatchOutcome}
    (h : Batched s executors messages attestations st ds o st') :
    ds.length ≤ (st'.receipts.zip o.results).length := by
  obtain ⟨-, _, _, hran⟩ := h.ran
  have hds := length_digests h.digests
  have hresults := hran.answers.length_eq
  rw [h.length_members] at hresults
  have hlen : (st'.receipts.zip o.results).length = messages.length := by
    rw [List.length_zip, hran.receipts_length, h.lengths.2, ← hresults, Nat.min_self]
  exact Nat.le_of_eq (hds.trans hlen.symm)

/-- Receipts are closed under different digests. -/
theorem Batched.nodup_closing {o : BatchOutcome}
    (h : Batched s executors messages attestations st ds o st') :
    ((ds.zip (st'.receipts.zip o.results)).map Prod.fst).Nodup := by
  rw [List.map_fst_zip h.length_le_closing]
  exact h.distinct

/-- A digest that is executed is marked in its own receipt. -/
theorem Batched.marked {o : BatchOutcome} {d : Digest}
    (h : Batched s executors messages attestations st ds o st')
    (hd : d ∈ executedDigests messages ds st.receipts executors) :
    ∃ receipt receipt' outcome, (d, receipt) ∈ ds.zip st.receipts ∧
      (d, receipt', .executed outcome) ∈ ds.zip (st'.receipts.zip o.results) ∧
      Receipt.insert d receipt = .ok () receipt' := by
  obtain ⟨-, _, _, hran⟩ := h.ran
  obtain ⟨m, hm, rfl⟩ := List.mem_map.1 hd
  obtain ⟨hm, hpending⟩ := List.mem_filter.1 hm
  have hmarked := hran.marked m hm hpending
  obtain ⟨k, hk⟩ := List.mem_iff_getElem?.1 hm
  obtain ⟨hindex, -, hdigest, -, receipt, hreceipt, -⟩ := getElem?_members.1 hk
  obtain ⟨r, hr, hanswer⟩ := forall₂_getElem? hran.answers hk
  cases r with
  | skipped _ => exact absurd hpending (by simp [hanswer.1])
  | executed outcome =>
    have hlt : k < st'.receipts.length := by
      rw [hran.receipts_length]
      exact (List.getElem?_eq_some_iff.1 hreceipt).1
    have hbefore : st.receipts.getD m.index {} = receipt := by
      rw [hindex, List.getD_eq_getElem?_getD, hreceipt, Option.getD_some]
    have hafter : st'.receipts.getD m.index {} = st'.receipts[k] := by
      rw [hindex, List.getD_eq_getElem?_getD, List.getElem?_eq_getElem hlt, Option.getD_some]
    rw [hbefore, hafter] at hmarked
    refine ⟨receipt, st'.receipts[k], outcome, ?_, ?_, hmarked⟩
    · exact List.mem_of_getElem? (List.getElem?_zip_eq_some.2 ⟨hdigest, hreceipt⟩)
    · refine List.mem_of_getElem? (List.getElem?_zip_eq_some.2 ⟨hdigest, ?_⟩)
      exact List.getElem?_zip_eq_some.2 ⟨List.getElem?_eq_getElem hlt, hr⟩

/-- Only a digest that is executed has a result that says so. -/
theorem Batched.mem_executedDigests {o : BatchOutcome} {d : Digest} {receipt : Receipt}
    {outcome : Outcome} (h : Batched s executors messages attestations st ds o st')
    (hd : (d, receipt, .executed outcome) ∈ ds.zip (st'.receipts.zip o.results)) :
    d ∈ executedDigests messages ds st.receipts executors := by
  obtain ⟨-, _, _, hran⟩ := h.ran
  obtain ⟨k, hk⟩ := List.mem_iff_getElem?.1 hd
  obtain ⟨hdigest, hk⟩ := List.getElem?_zip_eq_some.1 hk
  obtain ⟨-, hr⟩ := List.getElem?_zip_eq_some.1 hk
  obtain ⟨m, hm, hanswer⟩ := forall₂_getElem? hran.answers.flip hr
  have hm' := (getElem?_members.1 hm).2.2.1
  refine List.mem_map.2 ⟨m, List.mem_filter.2 ⟨List.mem_of_getElem? hm, hanswer.1⟩, ?_⟩
  simpa using hm'.symm.trans hdigest

/-- **A batch without a quorum leaves everything as it was.** -/
theorem eq_of_processBatch_eq_error
    (h : processBatch s executors messages attestations st = .error f st') :
    st' = st ∨ ∃ ds t, digests s.bridge messages = .ok ds ∧
      Quorum.check st.roster (Digest.ofBatch ds) attestations s.verify = .ok t := by
  rw [processBatch_eq, lift_bind_eq_error] at h
  rcases h with ⟨-, rfl⟩ | ⟨⟨ms, window, digest⟩, hvet, -⟩
  · exact .inl rfl
  · obtain ⟨-, -, -, -, -, ds, hds, -, -, rfl, -, -, ⟨t, hquorum⟩, -⟩ := vetBatch_eq_ok.1 hvet
    exact .inr ⟨ds, t, hds, hquorum⟩

/-! ## A batch of which one member was executed before -/

/-- Three messages of a chain, of different values. -/
def threeMessages : List InboundMessage :=
  [{ sourceNonce := 7, sender := [1], value := 2 }, { sourceNonce := 5, sender := [1], value := 9 },
   { sourceNonce := 3, sender := [2], value := 3 }]

/-- Their digests. -/
def threeDigests : List Digest :=
  [.ofNat 32 0x8a671498064202a8d336e495e1000394808768d20bd79676259988f9583b2f2f,
   .ofNat 32 0xaf8aa98ab28ccdb9aa2555a087ae7629d7461e6eca676970acd228b93459f298,
   .ofNat 32 0xf143d002b58d6e8d24c2b737c7eb1804aebbdb07092215192d34b8effb6d8883]

/-- A relayer hands them in for a reward, with what two of them are worth to pay out. -/
def resumption : Submission where
  bridge := { epochLength := 10, fees := { relayReward := 4 } }
  verify _ _ _ := true
  submitter := .zero
  liquidity := 5
  now := 8

/-- A destination that writes down the nonces of what it gets, and fails at one of them. -/
def keeper : Executor (List Nonce) where
  prepare _ := .ok ()
  execute _ m := do
    modify fun w => w ++ [m.sourceNonce]
    if m.sourceNonce = 7 then throw (.host .invalidArgument)

/-- The second message was executed earlier in the window, which has room for two more. -/
def begunBefore : BatchState (List Nonce) where
  chain := { active := true, limits := { rateLimit := 3 }, inbound := { start := 6, count := 1 }
             highestInbound := 5 }
  roster := { required := 1, active := 1, slots := [some { earned := 4 }] }
  receipts := [{}, { digest := threeDigests.getD 1 .zero, processed := true }, {}]
  world := [5]

theorem digests_threeMessages : digests resumption.bridge threeMessages = .ok threeDigests := by
  delta digests threeMessages Digest.ofMessage Digest.messagePreimage
  rw [Keccak.keccak256_eq]
  decide +kernel

/-- What comes of them: the second is passed over, and of the two others, which are executed in their
order, the first fails. -/
def threeResults : List MemberResult :=
  [.executed { digest := threeDigests.getD 0 .zero, sourceChain := 0, sourceNonce := 7
               failure := some (.host .invalidArgument), reward := 4 },
   .skipped (threeDigests.getD 1 .zero),
   .executed { digest := threeDigests.getD 2 .zero, sourceChain := 0, sourceNonce := 3
               failure := none, reward := 4 }]

theorem processBatch_begunBefore : ∃ o st',
    processBatch resumption [keeper, keeper, keeper] threeMessages [{}] begunBefore = .ok o st' ∧
      o.results = threeResults ∧ st'.world = [5, 7, 3] ∧
      st'.roster.slots = [some { earned := 12 }] ∧
      st'.chain.inbound = { start := 6, count := 3 } ∧ st'.chain.highestInbound = 7 := by
  unfold processBatch
  rw [digests_threeMessages]
  exact ⟨_, _, rfl, rfl, rfl, rfl, rfl, rfl⟩

end Inbound
end QuorumRelay
