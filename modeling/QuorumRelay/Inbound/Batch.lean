import QuorumRelay.Inbound.Process

/-!
# Executing a batch

Up to eight messages of one chain can be executed on one quorum over the digest
of their digests.  Members that were executed before are skipped, so a batch that
went through in part can be handed in again unchanged; anything else that is
wrong with one member rejects the whole batch.
-/

namespace QuorumRelay

/-- Most members of a batch. -/
def maxBatchSize : Nat := 8

namespace Inbound

/-- What became of a member. -/
inductive MemberResult where
  /-- Executed before. -/
  | skipped (digest : Digest)
  | executed (outcome : Outcome)
  deriving DecidableEq

/-- Whether the member was executed in this batch. -/
def MemberResult.isExecuted : MemberResult → Bool
  | skipped _ => false
  | executed _ => true

/-- How a batch went, member by member. -/
structure BatchOutcome where
  digest : Digest
  results : List MemberResult
  deriving DecidableEq

/-- How many members were executed. -/
def BatchOutcome.executedCount (o : BatchOutcome) : Nat :=
  o.results.countP MemberResult.isExecuted

/-- The records that a batch changes, with one receipt for each member. -/
structure BatchState (ω : Type) where
  chain : Chain
  roster : Roster
  receipts : List Receipt
  world : ω

/-- A member of a batch on its way through. -/
structure Member (ω : Type) where
  /-- The member's place, which is also that of its receipt. -/
  index : Nat
  message : InboundMessage
  digest : Digest
  executor : Executor ω
  /-- Whether it still has to be executed. -/
  pending : Bool

namespace BatchState

variable {ω α : Type}

/-- A step on the roster alone. -/
def onRoster (step : Action Roster α) : Action (BatchState ω) α :=
  step.on BatchState.roster fun roster s => { s with roster }

/-- A step on the world alone. -/
def onWorld (step : Action ω α) : Action (BatchState ω) α :=
  step.on BatchState.world fun world s => { s with world }

/-- A step on the receipt of one member. -/
def onReceipt (index : Nat) (step : Action Receipt α) : Action (BatchState ω) α :=
  step.on (fun s => s.receipts.getD index {})
    fun receipt s => { s with receipts := s.receipts.set index receipt }

end BatchState

/-- The digests of messages, all of the right shape. -/
def digests (b : Bridge) (messages : List InboundMessage) : Except Fault (List Digest) :=
  messages.mapM (Digest.ofMessage b.hostChain b.identity)

/-- No digest may stand twice. -/
def checkDistinct (ds : List Digest) : Except Fault Unit :=
  require ds.Nodup .duplicateBatchMember

/-- The members, each with its own message, digest, receipt and executor. -/
def members {ω : Type} (messages : List InboundMessage) (ds : List Digest)
    (receipts : List Receipt) (executors : List (Executor ω)) : List (Member ω) :=
  (messages.zip (ds.zip (receipts.zip executors))).zipIdx.map
    fun ((message, digest, receipt, executor), index) =>
      { index, message, digest, executor, pending := !receipt.contains digest }

/-- The value that members ask for in all; each also has to keep the chain's limits. -/
def totalValue {ω : Type} (chain : Chain) (ms : List (Member ω)) : Except Fault Amount :=
  ms.foldlM (fun total m => do
    chain.checkLimits m.message.payload.length m.message.computeBudget
    total.plus m.message.value) 0

/-- The inbound window after a number of messages; none leave it as it is. -/
def acceptAll (s : Submission) (chain : Chain) (count : Nat) : Except Fault RateWindow :=
  if count = 0 then .ok chain.inbound
  else chain.acceptInbound s.now s.bridge.epochLength (UInt32.ofNat count)

/-- Execute a member that is still to be executed, and skip another. -/
def runMember {ω : Type} (reward : Amount) (m : Member ω) :
    Action (BatchState ω) MemberResult := do
  if m.pending then
    BatchState.onReceipt m.index (Receipt.insert m.digest)
    modify fun st => { st with chain := Chain.recordInboundNonce m.message.sourceNonce st.chain }
    let failure ← BatchState.onWorld (deliver m.executor m.digest m.message)
    return .executed {
      digest := m.digest
      sourceChain := m.message.sourceChain
      sourceNonce := m.message.sourceNonce
      failure, reward }
  else
    return .skipped m.digest

/-- What each of a number of deliveries earns the submitter; the whole is credited
at once. -/
def creditEach {ω : Type} (s : Submission) (count : Nat) : Action (BatchState ω) Amount := do
  if count = 0 then return 0
  let reward ← BatchState.onRoster (creditSubmitter s count)
  return reward / UInt64.ofNat count

/-- Execute a batch.  The checks come in this order: size, receipts, one chain,
pause, order, shapes, repetition, limits and total value, rate limit, quorum,
liquidity, destinations. -/
def processBatch {ω : Type} (s : Submission) (executors : List (Executor ω))
    (messages : List InboundMessage) (attestations : List Attestation) :
    Action (BatchState ω) BatchOutcome := do
  let st ← get
  require (messages ≠ [] ∧ messages.length ≤ maxBatchSize) .invalidBatchSize
  require (executors.length = messages.length ∧ st.receipts.length = messages.length)
    .missingBatchAccounts
  require (∀ m ∈ messages, m.sourceChain = st.chain.id) .mixedBatch
  st.chain.checkActive
  require (st.chain.limits.strictOrdering = false) .strictOrderingRequiresSingle
  let ds ← digests s.bridge messages
  checkDistinct ds
  let ms := members messages ds st.receipts executors
  let pending := ms.filter Member.pending
  let total ← totalValue st.chain pending
  let window ← acceptAll s st.chain pending.length
  let digest := Digest.ofBatch ds
  let _ ← Quorum.check st.roster digest attestations s.verify
  require (total ≤ s.liquidity) .insufficientLiquidity
  pending.forM fun m => m.executor.prepare m.message
  let reward ← creditEach s pending.length
  modify fun st => { st with chain := { st.chain with inbound := window } }
  let results ← ms.mapM (runMember reward)
  return ⟨digest, results⟩

end Inbound

end QuorumRelay
