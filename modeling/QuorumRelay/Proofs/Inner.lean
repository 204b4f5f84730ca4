import QuorumRelay.Governance
import QuorumRelay.Membership
import QuorumRelay.Outbound.Queue
import QuorumRelay.Proofs.Inbound.Batch

/-!
# Faults that are not about accounts

A check on values and a step on records know nothing of the accounts the records came from,
so where they fail, the fault is an inner one: a refusal, a quorum that falls short, a fault
of the host, or the end of a counter.  Faults about accounts are left to the instructions,
which alone take accounts and write records back.

`InnerCheck` and `InnerStep` are classes, and an instance is found along the rows of a step.
So for most functions there is nothing to say but that they are made of checks and steps of
this kind; what is opened by hand are those that look at a list or at an alternative first.
-/

namespace QuorumRelay

/-- The fault is not about the accounts or the data of an instruction. -/
class InnerFault (f : Fault) : Prop where
  ne_access : ∀ a, f ≠ .access a

/-- A check fails with inner faults only. -/
class InnerCheck {α : Type} (x : Except Fault α) : Prop where
  inner : ∀ f, x = .error f → InnerFault f

/-- A step fails with inner faults only. -/
class InnerStep {σ α : Type} (step : Action σ α) : Prop where
  inner : ∀ s f s', step s = .error f s' → InnerFault f

instance (r : Refusal) : InnerFault (.refused r) := ⟨nofun⟩

instance (t : Tally) : InnerFault (.quorumNotMet t) := ⟨nofun⟩

instance (h : HostFault) : InnerFault (.host h) := ⟨nofun⟩

instance : InnerFault .aborted := ⟨nofun⟩

/-! ## Checks -/

section Checks

variable {α β : Type}

instance InnerCheck.pure (a : α) : InnerCheck (pure a : Except Fault α) := ⟨fun _ => nofun⟩

instance InnerCheck.ok (a : α) : InnerCheck (.ok a : Except Fault α) := ⟨fun _ => nofun⟩

instance InnerCheck.error (f : Fault) [InnerFault f] : InnerCheck (.error f : Except Fault α) :=
  ⟨fun f' h => by cases h; infer_instance⟩

instance InnerCheck.throw (f : Fault) [InnerFault f] :
    InnerCheck (throw f : Except Fault α) :=
  ⟨fun f' h => by cases h; infer_instance⟩

/-- Checks one after the other. -/
theorem InnerCheck.row {x : Except Fault α} {k : α → Except Fault β} [hx : InnerCheck x]
    (hk : ∀ a, InnerCheck (k a)) : InnerCheck (x >>= k) where
  inner f h := by
    cases hxa : x with
    | error e =>
      rw [hxa] at h
      exact hx.inner f (hxa.trans (congrArg Except.error (Except.error.inj h)))
    | ok a =>
      rw [hxa] at h
      exact (hk a).inner f h

instance InnerCheck.bind (x : Except Fault α) (k : α → Except Fault β) [InnerCheck x]
    [hk : ∀ a, InnerCheck (k a)] : InnerCheck (x >>= k) := .row hk

instance InnerCheck.require (p : Prop) [Decidable p] (reason : Refusal) :
    InnerCheck (require p reason : Except Fault Unit) where
  inner f h := by
    obtain ⟨-, rfl⟩ := require_eq_error.1 h
    infer_instance

instance InnerCheck.ite (p : Prop) [Decidable p] (x y : Except Fault α) [InnerCheck x]
    [InnerCheck y] : InnerCheck (if p then x else y) := by
  split <;> infer_instance

instance InnerCheck.mapM (x : α → Except Fault β) [hx : ∀ a, InnerCheck (x a)] (as : List α) :
    InnerCheck (as.mapM x) := by
  induction as with
  | nil =>
    rw [List.mapM_nil]
    infer_instance
  | cons a as ih =>
    rw [List.mapM_cons]
    infer_instance

instance InnerCheck.foldlM (x : β → α → Except Fault β) [hx : ∀ b a, InnerCheck (x b a)] (b : β)
    (as : List α) : InnerCheck (as.foldlM x b) := by
  induction as generalizing b with
  | nil => exact InnerCheck.pure b
  | cons a as ih => exact InnerCheck.bind (x b a) fun b => as.foldlM x b

end Checks

/-! ## Steps -/

section Steps

variable {σ τ α β : Type}

instance InnerStep.pure (a : α) : InnerStep (pure a : Action σ α) := ⟨fun _ _ _ => nofun⟩

instance InnerStep.get : InnerStep (get : Action σ σ) := ⟨fun _ _ _ => nofun⟩

instance InnerStep.set (s : σ) : InnerStep (set s : Action σ PUnit) := ⟨fun _ _ _ => nofun⟩

instance InnerStep.modify (g : σ → σ) : InnerStep (modify g : Action σ PUnit) :=
  ⟨fun _ _ _ => nofun⟩

instance InnerStep.throw (f : Fault) [InnerFault f] : InnerStep (throw f : Action σ α) where
  inner _ _ _ h := by
    obtain ⟨rfl, -⟩ := throw_eq_error.1 h
    infer_instance

/-- Steps one after the other. -/
theorem InnerStep.row {x : Action σ α} {k : α → Action σ β} [hx : InnerStep x]
    (hk : ∀ a, InnerStep (k a)) : InnerStep (x >>= k) where
  inner s f s' h := by
    rcases bind_eq_error.1 h with h | ⟨a, t, -, h⟩
    · exact hx.inner s f s' h
    · exact (hk a).inner t f s' h

instance InnerStep.bind (x : Action σ α) (k : α → Action σ β) [InnerStep x]
    [hk : ∀ a, InnerStep (k a)] : InnerStep (x >>= k) := .row hk

instance InnerStep.lift (x : Except Fault α) [hx : InnerCheck x] :
    InnerStep (liftM x : Action σ α) where
  inner _ f _ h := hx.inner f (lift_eq_error.1 h).1

instance InnerStep.require (p : Prop) [Decidable p] (reason : Refusal) :
    InnerStep (require p reason : Action σ Unit) where
  inner _ _ _ h := by
    obtain ⟨-, rfl, -⟩ := require_apply_eq_error.1 h
    infer_instance

instance InnerStep.ite (p : Prop) [Decidable p] (x y : Action σ α) [InnerStep x] [InnerStep y] :
    InnerStep (if p then x else y) := by
  split <;> infer_instance

instance InnerStep.on (part : σ → τ) (putBack : τ → σ → σ) (step : Action τ α)
    [hstep : InnerStep step] : InnerStep (step.on part putBack) where
  inner _ f _ h := by
    obtain ⟨t, h, -⟩ := Action.on_eq_error.1 h
    exact hstep.inner _ f t h

instance InnerStep.mapM (x : α → Action σ β) [hx : ∀ a, InnerStep (x a)] (as : List α) :
    InnerStep (as.mapM x) := by
  induction as with
  | nil =>
    rw [List.mapM_nil]
    infer_instance
  | cons a as ih =>
    rw [List.mapM_cons]
    infer_instance

theorem InnerStep.forM {x : α → Action σ PUnit} {as : List α} (h : ∀ a ∈ as, InnerStep (x a)) :
    InnerStep (as.forM x) := by
  induction as with
  | nil => exact InnerStep.pure _
  | cons a as ih =>
    rw [List.forall_mem_cons] at h
    obtain ⟨hfirst, hrest⟩ := h
    exact .row fun _ => ih hrest

end Steps

/-! ## Amounts, fees and windows -/

instance (n : Nat) : InnerCheck (Amount.fit n) := by
  unfold Amount.fit
  infer_instance

instance (a b : Amount) : InnerCheck (a.plus b) := by
  unfold Amount.plus
  infer_instance

instance (a b : Amount) : InnerCheck (a.minus b) := by
  unfold Amount.minus
  infer_instance

instance (a : Amount) (n : Nat) : InnerCheck (a.times n) := by
  unfold Amount.times
  infer_instance

instance (fees : FeeSchedule) (multiplier : UInt32) (size : Nat) (budget : UInt64) :
    InnerCheck (fees.estimate multiplier size budget) := by
  unfold FeeSchedule.estimate FeeSchedule.scale
  infer_instance

instance (w : RateWindow) (now epochLength : Slot) (limit count : UInt32) :
    InnerCheck (w.accept now epochLength limit count) := by
  unfold RateWindow.accept
  infer_instance

/-! ## The bridge and the chains -/

namespace Bridge

instance (authority : Key) (identity : Address) (s : Settings) :
    InnerCheck (create authority identity s) := by
  unfold create Settings.check
  infer_instance

instance (fee value : Amount) (sponsored : Bool) : InnerStep (recordSend fee value sponsored) := by
  unfold recordSend
  infer_instance

instance (amount : Amount) : InnerStep (payCompensation amount) := by
  unfold payCompensation
  infer_instance

instance (value : Amount) : InnerStep (releaseValue value) := by
  unfold releaseValue
  infer_instance

instance (amount : Amount) : InnerStep (holdSponsorFunds amount) := by
  unfold holdSponsorFunds
  infer_instance

instance (amount : Amount) : InnerStep (releaseSponsorFunds amount) := by
  unfold releaseSponsorFunds
  infer_instance

instance (b : Bridge) (totalStake : Amount) : InnerCheck (b.reserved totalStake) := by
  unfold reserved
  infer_instance

instance (b : Bridge) (c : Chain) (size : Nat) (budget : UInt64) :
    InnerCheck (b.estimateFee c size budget) := by
  unfold estimateFee
  infer_instance

end Bridge

namespace Chain

instance (l : Limits) : InnerCheck l.check := by
  unfold Limits.check
  infer_instance

instance (c : Chain) : InnerCheck c.checkActive := by
  unfold checkActive
  infer_instance

instance (c : Chain) (size : Nat) (budget : UInt64) : InnerCheck (c.checkLimits size budget) := by
  unfold checkLimits
  infer_instance

end Chain

/-! ## Governors, relayers and sponsors -/

instance (c : Council) (actor : Key) : InnerCheck (c.check actor) := by
  unfold Council.check
  infer_instance

namespace Governance

instance (council : Council) (actor : Key) (id : ChainId) (limits : Chain.Limits) :
    InnerStep (configureChain council actor id limits) := by
  unfold configureChain Chain.configure
  infer_instance

instance (council : Council) (actor : Key) (active : Bool) :
    InnerStep (setChainActive council actor active) := by
  unfold setChainActive
  infer_instance

instance (actor : Key) (fees : FeeSchedule) : InnerStep (setFeeSchedule actor fees) := by
  unfold setFeeSchedule
  infer_instance

instance (actor newAuthority : Key) : InnerStep (setAuthority actor newAuthority) := by
  unfold setAuthority
  infer_instance

end Governance

namespace Roster

instance (r : Roster) (index : UInt8) : InnerCheck (r.relayer index) := by
  unfold relayer
  split <;> infer_instance

instance (r : Roster) : InnerCheck r.totalStake := by
  unfold totalStake
  infer_instance

instance (r : Roster) (index : UInt8) (caller : Key) : InnerCheck (r.checkOwner index caller) := by
  unfold checkOwner
  infer_instance

instance (e : Relayer) : InnerStep (place e) := by
  unfold place
  refine .row fun r => ?_
  split <;> infer_instance

instance (owner publicKey : Key) (stake minimumStake : Amount) (now : Slot) :
    InnerStep (register owner publicKey stake minimumStake now) := by
  unfold register
  infer_instance

instance (index : UInt8) : InnerStep (remove index) := by
  unfold remove
  infer_instance

instance (index : UInt8) (amount : Amount) : InnerStep (credit index amount) := by
  unfold credit
  infer_instance

end Roster

namespace Membership

instance (council : Council) (actor : Key) (minimumStake : Amount) (owner publicKey : Key)
    (stake : Amount) (now : Slot) :
    InnerStep (register council actor minimumStake owner publicKey stake now) := by
  unfold register
  infer_instance

instance (council : Council) (actor : Key) (required : UInt8) :
    InnerStep (updateThreshold council actor required) := by
  unfold updateThreshold Roster.setThreshold
  infer_instance

instance (index : UInt8) (entry : Relayer) : InnerStep (settle index entry) := by
  unfold settle
  infer_instance

instance (index : UInt8) (caller : Key) : InnerStep (unregister index caller) := by
  unfold unregister onRoster onBridge Roster.unregister
  infer_instance

instance (actor : Key) (index : UInt8) : InnerStep (remove actor index) := by
  unfold remove onRoster onBridge
  infer_instance

instance (index : UInt8) (caller : Key) (amount : Amount) :
    InnerStep (claim index caller amount) := by
  unfold claim onRoster onBridge Roster.debitEarnings
  infer_instance

end Membership

namespace Sponsor

instance (target : Target) (allowed : Bool) : InnerStep (setTarget target allowed) := by
  unfold setTarget
  refine .row fun s => ?_
  split <;> infer_instance

instance (amount : Amount) : InnerStep (deposit amount) := by
  unfold deposit
  infer_instance

instance (amount : Amount) : InnerStep (withdraw amount) := by
  unfold withdraw
  infer_instance

instance (s : Sponsor) (target : Target) (fee : Amount) : InnerCheck (s.checkCanPay target fee) := by
  unfold checkCanPay
  infer_instance

instance (target : Target) (fee : Amount) : InnerStep (spend target fee) := by
  unfold spend
  infer_instance

end Sponsor

/-! ## Digests, evidence and quorums -/

instance (sender : List UInt8) : InnerCheck (checkSender sender) := by
  unfold checkSender
  infer_instance

namespace Digest

instance (hostChain : ChainId) (identity : Address) (m : InboundMessage) :
    InnerCheck (ofMessage hostChain identity m) := by
  unfold ofMessage InboundMessage.check
  infer_instance

instance (digest : Digest) : InnerCheck digest.check := by
  unfold check
  infer_instance

instance (supplied : Digest) (hostChain : ChainId) (identity : Address) (m : InboundMessage) :
    InnerCheck (verify supplied hostChain identity m) := by
  unfold verify
  infer_instance

end Digest

namespace Evidence

instance {α : Type} : InnerCheck (malformed : Except Fault α) := by
  unfold malformed
  infer_instance

instance (data : List UInt8) (offset size : Nat) : InnerCheck (slice data offset size) := by
  unfold slice
  infer_instance

instance (n : Nat) (data : List UInt8) (offset : Nat) : InnerCheck (bytesAt n data offset) := by
  unfold bytesAt
  split <;> infer_instance

instance (data : List UInt8) (index : Nat) : InnerCheck (recordAt data index) := by
  unfold recordAt
  refine .row fun written => ?_
  split <;> infer_instance

instance (data : List UInt8) (index : Nat) : InnerCheck (signatureAt data index) := by
  unfold signatureAt
  infer_instance

instance (data : List UInt8) : InnerCheck (parse data) := by
  unfold parse
  split <;> infer_instance

instance (log : InstructionLog) (index : Nat) : InnerCheck (ofInstruction log index) := by
  unfold ofInstruction
  split <;> infer_instance

instance (log : InstructionLog) : InnerCheck (load log) := by
  unfold load
  infer_instance

end Evidence

namespace Quorum

instance (roster : Roster) (digest : Digest) (verify : Verifier) (t : Tally) (seen : List UInt8)
    (attestations : List Attestation) :
    InnerCheck (countAll roster digest verify t seen attestations) := by
  induction attestations generalizing t seen with
  | nil =>
    unfold countAll
    infer_instance
  | cons a rest ih =>
    unfold countAll
    infer_instance

instance (roster : Roster) (digest : Digest) (attestations : List Attestation)
    (verify : Verifier) : InnerCheck (check roster digest attestations verify) := by
  unfold check tally
  infer_instance

end Quorum

/-! ## Outbound messages -/

namespace Outbox

instance (target : Sponsor.Target) (fee : Amount) : InnerStep (charge target fee) := by
  unfold charge
  refine .row fun o => ?_
  split <;> infer_instance

instance (sender : Key) (q : SendRequest) (now : Slot) : InnerStep (queue sender q now) := by
  unfold queue onBridge Chain.acceptOutbound
  refine .row fun o => ?_
  -- the row is too long to be searched through at once
  split <;> refine .row fun _ => .row fun _ => .row fun _ => .row fun _ => .row fun _ => ?_
  all_goals dsimp only
  all_goals infer_instance

end Outbox

namespace OutboundMessage

instance (roster : Roster) (caller : Key) : InnerStep (pickUp roster caller) := by
  unfold pickUp markRelayed
  infer_instance

end OutboundMessage

namespace Settlement

instance (roster : Roster) (attestations : List Attestation) (verify : Verifier) :
    InnerStep (confirm roster attestations verify) := by
  unfold confirm onMessage onBridge OutboundMessage.confirm
  infer_instance

instance (caller : Key) (now : Slot) : InnerStep (reclaim caller now) := by
  unfold reclaim onMessage onBridge OutboundMessage.reclaim
  infer_instance

end Settlement

/-! ## Inbound messages -/

instance (digest : Digest) : InnerStep (Receipt.insert digest) := by
  unfold Receipt.insert
  infer_instance

namespace Inbound

instance (s : Submission) (deliveries : Nat) : InnerStep (creditSubmitter s deliveries) := by
  unfold creditSubmitter
  refine .row fun reward => ?_
  split
  · infer_instance
  · refine .row fun r => ?_
    split <;> infer_instance

/-- A delivery that fails is a result. -/
instance {ω : Type} (executor : Executor ω) (digest : Digest) (m : InboundMessage) :
    InnerStep (deliver executor digest m) where
  inner w f w' h := by
    unfold deliver at h
    split at h <;> cases h

instance (chain : Chain) (cursor : Option Cursor) (m : InboundMessage) :
    InnerCheck (checkOrder chain cursor m) := by
  unfold checkOrder Cursor.checkMatches
  split
  · split
    · infer_instance
    · refine .row fun _ => ?_
      unfold Cursor.checkNonce
      split <;> infer_instance
  · infer_instance

instance {ω : Type} (s : Submission) (executor : Executor ω) (m : InboundMessage)
    (attestations : List Attestation) [∀ m, InnerCheck (executor.prepare m)] :
    InnerStep (process s executor m attestations) := by
  unfold process State.onRoster State.onReceipt State.onWorld Chain.acceptInbound
  refine .row fun _ => .row fun _ => .row fun _ => .row fun _ => .row fun _ => ?_
  refine .row fun _ => .row fun _ => .row fun _ => .row fun _ => .row fun _ => ?_
  infer_instance

instance {ω : Type} (chain : Chain) (ms : List (Member ω)) : InnerCheck (totalValue chain ms) := by
  unfold totalValue
  infer_instance

instance {ω : Type} (reward : Amount) (m : Member ω) : InnerStep (runMember reward m) := by
  unfold runMember BatchState.onReceipt BatchState.onWorld
  infer_instance

instance {ω : Type} (s : Submission) (count : Nat) :
    InnerStep (creditEach (ω := ω) s count) := by
  unfold creditEach BatchState.onRoster
  infer_instance

theorem innerStep_processBatch {ω : Type} (s : Submission) (executors : List (Executor ω))
    (messages : List InboundMessage) (attestations : List Attestation)
    (h : ∀ e ∈ executors, ∀ m, InnerCheck (e.prepare m)) :
    InnerStep (processBatch s executors messages attestations) := by
  unfold processBatch digests checkDistinct acceptAll Chain.acceptInbound
  refine .row fun st => .row fun _ => .row fun _ => .row fun _ => .row fun _ => .row fun _ => ?_
  refine .row fun ds => .row fun _ => .row fun _ => .row fun _ => .row fun _ => .row fun _ => ?_
  have hprepare : InnerStep (((members messages ds st.receipts executors).filter Member.pending).forM
      fun m => (liftM (m.executor.prepare m.message) : Action (BatchState ω) Unit)) := by
    refine .forM fun m hm => ?_
    have hchecked := h m.executor (executor_mem (List.mem_filter.1 hm).1) m.message
    infer_instance
  exact .row fun _ => inferInstance

end Inbound

end QuorumRelay
