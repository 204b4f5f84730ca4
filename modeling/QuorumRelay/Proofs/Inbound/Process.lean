import QuorumRelay.Inbound.Process
import QuorumRelay.Proofs.Roster

/-!
# What executing a message takes and leaves

Executing a message checks, credits the submitter, and then marks, counts and
delivers.  The checks are pure: they are gathered in `Inbound.vet`, which has no
record to write to, and what comes after the credit in `Inbound.commit`
(`process_eq`).  Each of the two is opened once, and from them the list of
everything that was checked and everything that was written
(`Inbound.Processed`).  All later statements about inbound messages start from
these.

## Where it can still fail

The quorum is among the checks.  So a submission that its quorum does not carry
leaves every record as it was, and the world outside too
(`eq_of_process_eq_error`).  What can fail after the quorum was found is another
matter, and nothing is said about it here.
-/

namespace QuorumRelay

namespace Receipt

variable {r r' : Receipt} {d : Digest} {u : Unit} {f : Fault}

@[simp] theorem contains_eq_true : r.contains d = true ↔ r.processed = true ∧ r.digest = d := by
  unfold contains
  rw [Bool.and_eq_true, decide_eq_true_eq]

/-- A digest is marked in a receipt that is its own or nobody's yet, and marks none. -/
theorem insert_eq_ok : insert d r = .ok u r' ↔
    r.processed = false ∧ (r.digest = .zero ∨ r.digest = d) ∧
      r' = { r with digest := d, processed := true } := by
  unfold insert marked
  rw [get_bind, require_bind_eq_ok, require_bind_eq_ok, set_eq_ok, eq_comm (a := r')]

@[simp] theorem processed_bind (r : Receipt) (d : Digest) (bump : UInt8) :
    (r.bind d bump).processed = r.processed := by
  unfold bind
  split <;> rfl

/-- Binding a receipt to its own digest again changes nothing. -/
theorem bind_of_digest_ne_zero {bump : UInt8} (h : r.digest ≠ .zero) : r.bind d bump = r := by
  unfold bind
  rw [if_neg h]

end Receipt

/-- A digest that is taken with a message is not zero, and is the message's own. -/
theorem Digest.verify_eq_ok {supplied own : Digest} {hostChain : ChainId} {identity : Address}
    {m : InboundMessage} (h : verify supplied hostChain identity m = .ok own) :
    supplied ≠ .zero ∧ ofMessage hostChain identity m = .ok supplied := by
  unfold verify check at h
  simp only [except_bind_eq_ok, require_eq_ok, except_pure_eq_ok] at h
  obtain ⟨_, hnonzero, _, hown, _, rfl, -⟩ := h
  exact ⟨hnonzero, hown⟩

namespace Inbound

variable {ω : Type} {s : Submission} {executor : Executor ω} {m : InboundMessage}
  {attestations : List Attestation} {st st' : State ω} {o : Outcome} {f : Fault}

/-- A credit changes the earnings in one slot, or nothing. -/
theorem creditSubmitter_eq_ok {n : Nat} {reward : Amount} {r r' : Roster}
    (h : creditSubmitter s n r = .ok reward r') :
    (r' = r ∧ reward = 0) ∨ ∃ index, r.indexOfOwner s.submitter = some index ∧
      s.bridge.fees.relayReward.times n = .ok reward ∧
        Roster.credit index reward r = .ok () r' := by
  unfold creditSubmitter at h
  obtain ⟨amount, htimes, h⟩ := lift_bind_eq_ok.1 h
  by_cases hzero : amount = 0
  · simp only [hzero, if_true, pure_eq_ok] at h
    exact Or.inl ⟨h.2.symm, h.1.symm⟩
  · simp only [hzero, if_false, get_bind] at h
    cases howner : r.indexOfOwner s.submitter with
    | none =>
      simp only [howner, pure_eq_ok] at h
      exact Or.inl ⟨h.2.symm, h.1.symm⟩
    | some index =>
      simp only [howner, bind_eq_ok, pure_eq_ok] at h
      obtain ⟨_, _, hcredit, rfl, rfl⟩ := h
      exact Or.inr ⟨index, rfl, htimes, hcredit⟩

theorem creditSubmitter_change {n : Nat} {reward : Amount} {r r' : Roster}
    (h : creditSubmitter s n r = .ok reward r') : Roster.Change r r'.slots := by
  rcases creditSubmitter_eq_ok h with ⟨rfl, -⟩ | ⟨index, -, -, hcredit⟩
  · exact .keep
  · exact .of_credit hcredit

/-- A delivery always gives a result, be it a failure. -/
theorem deliver_eq_ok {digest : Digest} {w w' : ω} {failure : Option Fault} :
    deliver executor digest m w = .ok failure w' ↔
      (executor.execute digest m w = .ok () w' ∧ failure = none) ∨
        ∃ e, executor.execute digest m w = .error e w' ∧ failure = some e := by
  unfold deliver
  cases executor.execute digest m w with
  | ok _ w₁ =>
    simp only [EStateM.Result.ok.injEq, true_and, reduceCtorEq, false_and, exists_false,
      or_false]
    rw [and_comm, eq_comm (a := none)]
  | error e w₁ =>
    simp only [EStateM.Result.ok.injEq, reduceCtorEq, false_and, false_or,
      EStateM.Result.error.injEq]
    constructor
    · rintro ⟨rfl, rfl⟩
      exact ⟨e, ⟨rfl, rfl⟩, rfl⟩
    · rintro ⟨_, ⟨rfl, rfl⟩, rfl⟩
      exact ⟨rfl, rfl⟩

/-- What a delivery leaves of the world stays, whether it failed or not. -/
theorem after_of_deliver {digest : Digest} {w w' : ω} {failure : Option Fault}
    (h : deliver executor digest m w = .ok failure w') :
    (executor.execute digest m).after w = w' := by
  rcases deliver_eq_ok.1 h with ⟨h, -⟩ | ⟨e, h, -⟩
  · exact Action.after_of_ok h
  · exact Action.after_of_error h

/-! ## Checks, a credit, and the rest -/

variable {digest : Digest} {window : RateWindow} {reward : Amount}

/-- All the checks on a message.  They find its digest, and the window that is to be. -/
def vet (s : Submission) (executor : Executor ω) (m : InboundMessage)
    (attestations : List Attestation) (st : State ω) : Except Fault (Digest × RateWindow) := do
  let digest ← Digest.ofMessage s.bridge.hostChain s.bridge.identity m
  require (st.receipt.contains digest = false) .alreadyProcessed
  require (st.chain.id = m.sourceChain) .chainMismatch
  st.chain.checkActive
  st.chain.checkLimits m.payload.length m.computeBudget
  checkOrder st.chain st.cursor m
  let window ← st.chain.acceptInbound s.now s.bridge.epochLength 1
  let _ ← Quorum.check st.roster digest attestations s.verify
  require (m.value ≤ s.liquidity) .insufficientLiquidity
  executor.prepare m
  return (digest, window)

/-- What is left to do for a message once the submitter has been credited. -/
def commit (executor : Executor ω) (m : InboundMessage) (digest : Digest) (window : RateWindow)
    (reward : Amount) : Action (State ω) Outcome := do
  State.onReceipt (Receipt.insert digest)
  modify fun st => { st with
    chain := Chain.recordInboundNonce m.sourceNonce { st.chain with inbound := window }
    cursor := if st.chain.limits.strictOrdering then
        st.cursor.map (Cursor.advance m.sourceNonce)
      else st.cursor }
  let failure ← State.onWorld (deliver executor digest m)
  return { digest, sourceChain := m.sourceChain, sourceNonce := m.sourceNonce, failure, reward }

/-- **A submission checks, credits, and does the rest.** -/
theorem process_eq (executor : Executor ω) (m : InboundMessage) (attestations : List Attestation)
    (st : State ω) : process s executor m attestations st =
      ((liftM (vet s executor m attestations st) : Action (State ω) _) >>= fun p => do
        let reward ← State.onRoster (creditSubmitter s 1)
        commit executor m p.1 p.2 reward) st := by
  unfold process vet commit
  simp only [lift_bind_bind, lift_require, lift_pure_bind]
  rfl

/-- What a message has to be like to pass. -/
theorem vet_eq_ok : vet s executor m attestations st = .ok (digest, window) ↔
    Digest.ofMessage s.bridge.hostChain s.bridge.identity m = .ok digest ∧
      st.receipt.contains digest = false ∧ st.chain.id = m.sourceChain ∧
      st.chain.active = true ∧
      st.chain.checkLimits m.payload.length m.computeBudget = .ok () ∧
      checkOrder st.chain st.cursor m = .ok () ∧
      st.chain.acceptInbound s.now s.bridge.epochLength 1 = .ok window ∧
      (∃ t, Quorum.check st.roster digest attestations s.verify = .ok t) ∧
      m.value ≤ s.liquidity ∧ executor.prepare m = .ok () := by
  unfold vet Chain.checkActive
  simp only [except_bind_eq_ok, require_eq_ok, except_pure_eq_ok, Prod.mk.injEq]
  constructor
  · rintro ⟨d, hd, _, hfresh, _, hchain, _, hactive, _, hlimits, _, horder, w, hw, t, hquorum, _,
      hliquidity, _, hprepared, rfl, rfl⟩
    exact ⟨hd, hfresh, hchain, hactive, hlimits, horder, hw, ⟨t, hquorum⟩, hliquidity, hprepared⟩
  · rintro ⟨hd, hfresh, hchain, hactive, hlimits, horder, hw, ⟨t, hquorum⟩, hliquidity,
      hprepared⟩
    exact ⟨_, hd, (), hfresh, (), hchain, (), hactive, (), hlimits, (), horder, _, hw, t, hquorum,
      (), hliquidity, (), hprepared, rfl, rfl⟩

theorem commit_eq_ok {o : Outcome} :
    commit executor m digest window reward st = .ok o st' ↔
      ∃ receipt failure world, Receipt.insert digest st.receipt = .ok () receipt ∧
        deliver executor digest m st.world = .ok failure world ∧
        o = { digest, sourceChain := m.sourceChain, sourceNonce := m.sourceNonce, failure
              reward } ∧
        st' = {
          chain := Chain.recordInboundNonce m.sourceNonce { st.chain with inbound := window }
          roster := st.roster, receipt, world
          cursor := if st.chain.limits.strictOrdering then
            st.cursor.map (Cursor.advance m.sourceNonce) else st.cursor } := by
  unfold commit State.onReceipt State.onWorld
  simp only [bind_eq_ok (x := Action.on _ _ _), Action.on_eq_ok, modify_bind, pure_eq_ok]
  constructor
  · rintro ⟨_, _, ⟨receipt, hinsert, rfl⟩, failure, _, ⟨world, hdeliver, rfl⟩, rfl, rfl⟩
    exact ⟨receipt, failure, world, hinsert, hdeliver, rfl, rfl⟩
  · rintro ⟨receipt, failure, world, hinsert, hdeliver, rfl, rfl⟩
    exact ⟨_, _, ⟨receipt, hinsert, rfl⟩, failure, _, ⟨world, hdeliver, rfl⟩, rfl, rfl⟩

theorem process_eq_ok {o : Outcome} : process s executor m attestations st = .ok o st' ↔
    ∃ digest window reward roster, vet s executor m attestations st = .ok (digest, window) ∧
      creditSubmitter s 1 st.roster = .ok reward roster ∧
      commit executor m digest window reward { st with roster } = .ok o st' := by
  rw [process_eq, lift_bind_eq_ok]
  unfold State.onRoster
  simp only [bind_eq_ok (x := Action.on _ _ _), Action.on_eq_ok, Prod.exists]
  constructor
  · rintro ⟨digest, window, hvet, reward, _, ⟨roster, hcredit, rfl⟩, hcommit⟩
    exact ⟨digest, window, reward, roster, hvet, hcredit, hcommit⟩
  · rintro ⟨digest, window, reward, roster, hvet, hcredit, hcommit⟩
    exact ⟨digest, window, hvet, reward, _, ⟨roster, hcredit, rfl⟩, hcommit⟩

/-- **Everything that executing a message checked and wrote.** -/
structure Processed (s : Submission) (executor : Executor ω) (m : InboundMessage)
    (attestations : List Attestation) (st : State ω) (o : Outcome) (st' : State ω) : Prop where
  digest : Digest.ofMessage s.bridge.hostChain s.bridge.identity m = .ok o.digest
  fresh : st.receipt.contains o.digest = false
  chain : st.chain.id = m.sourceChain
  active : st.chain.active = true
  limits : st.chain.checkLimits m.payload.length m.computeBudget = .ok ()
  order : checkOrder st.chain st.cursor m = .ok ()
  quorum : ∃ t, Quorum.check st.roster o.digest attestations s.verify = .ok t
  liquidity : m.value ≤ s.liquidity
  prepared : executor.prepare m = .ok ()
  credited : creditSubmitter s 1 st.roster = .ok o.reward st'.roster
  marked : Receipt.insert o.digest st.receipt = .ok () st'.receipt
  window : ∃ window, st.chain.acceptInbound s.now s.bridge.epochLength 1 = .ok window ∧
    st'.chain = Chain.recordInboundNonce m.sourceNonce { st.chain with inbound := window }
  cursor : st'.cursor = if st.chain.limits.strictOrdering then
    st.cursor.map (Cursor.advance m.sourceNonce) else st.cursor
  delivered : deliver executor o.digest m st.world = .ok o.failure st'.world
  source : o.sourceChain = m.sourceChain ∧ o.sourceNonce = m.sourceNonce

theorem processed_of_process (h : process s executor m attestations st = .ok o st') :
    Processed s executor m attestations st o st' := by
  obtain ⟨digest, window, reward, roster, hvet, hcredit, hcommit⟩ := process_eq_ok.1 h
  obtain ⟨hdigest, hfresh, hchain, hactive, hlimits, horder, hwindow, hquorum, hliquidity,
    hprepared⟩ := vet_eq_ok.1 hvet
  obtain ⟨receipt, failure, world, hinsert, hdeliver, rfl, rfl⟩ := commit_eq_ok.1 hcommit
  exact {
    digest := hdigest, fresh := hfresh, chain := hchain, active := hactive
    limits := hlimits, order := horder, quorum := hquorum, liquidity := hliquidity
    prepared := hprepared, credited := hcredit, marked := hinsert
    window := ⟨window, hwindow, rfl⟩, cursor := rfl, delivered := hdeliver
    source := ⟨rfl, rfl⟩ }

/-- **A submission without a quorum leaves everything as it was.** -/
theorem eq_of_process_eq_error (h : process s executor m attestations st = .error f st') :
    st' = st ∨ ∃ digest t, Digest.ofMessage s.bridge.hostChain s.bridge.identity m = .ok digest ∧
      Quorum.check st.roster digest attestations s.verify = .ok t := by
  rw [process_eq, lift_bind_eq_error] at h
  rcases h with ⟨-, rfl⟩ | ⟨⟨digest, window⟩, hvet, -⟩
  · exact .inl rfl
  · obtain ⟨hdigest, -, -, -, -, -, -, ⟨t, hquorum⟩, -⟩ := vet_eq_ok.1 hvet
    exact .inr ⟨digest, t, hdigest, hquorum⟩

end Inbound
end QuorumRelay
