import QuorumRelay.Inbound.Batch
import QuorumRelay.Ledger.Receiving

/-!
# Receiving batches

The accounts of a batch's members follow those of the batch: for each member its
receipt, its destination program, the program's inbox, and as many further
accounts as the request says are passed on to the program.  The receipts have to
be open and bound to the members' digests.
-/

namespace QuorumRelay

/-- The accounts of one member. -/
structure MemberAccounts where
  receipt : Passed
  program : Passed
  inbox : Passed
  /-- Accounts that are passed on to the program. -/
  forwarded : List Passed

/-- Accounts that every member has. -/
def memberFixedAccounts : Nat := 3

/-- The accounts of a member that passes on a given number, and those that follow. -/
def MemberAccounts.split? (accounts : List Passed) (extra : Nat) :
    Option (MemberAccounts × List Passed) :=
  match accounts with
  | receipt :: program :: inbox :: rest =>
    if extra ≤ rest.length then
      some (⟨receipt, program, inbox, rest.take extra⟩, rest.drop extra)
    else
      none
  | _ => none

namespace Exec

/-- Take the receipt of a member, which has to be bound to the member's digest. -/
def takeReceipt (p : Passed) (digest : Digest) : Exec Receipt := do
  match Receipt.record.load (← account p.id) with
  | .error f => fail (.access f)
  | .ok r =>
    check (require (r.digest = digest) .digestMismatch)
    return r

/-- Give every member its accounts, leaving none over, and take the receipts. -/
def takeMembers (b : Bridge) :
    List (InboundMessage × UInt8) → List Passed → Exec (List (MemberAccounts × Receipt))
  | [], accounts => do
    check (require (accounts = []) .missingBatchAccounts)
    return []
  | (m, extra) :: more, accounts => do
    match MemberAccounts.split? accounts extra.toNat with
    | none => fail (.refused .missingBatchAccounts)
    | some (mine, rest) =>
      let digest ← check (Digest.ofMessage b.hostChain b.identity m)
      let receipt ← takeReceipt mine.receipt digest
      let others ← takeMembers b more rest
      return (mine, receipt) :: others

/-- The way to a member's destination. -/
def routeOf (l : Ledger) (a : MemberAccounts) : Route where
  program := a.program.id
  executable := (l.account a.program.id).executable
  inbox := a.inbox.id
  forwarded := a.forwarded

/-- The mark of a member that was executed has to be written. -/
def checkMemberMarked (r : Inbound.MemberResult) : Exec Unit :=
  match r with
  | .skipped _ => pure ()
  | .executed o => checkMarked o

/-- Log what became of a member. -/
def noteMember (m : InboundMessage) (r : Inbound.MemberResult) : Exec Unit :=
  match r with
  | .skipped _ => note (.memberSkipped m.sourceNonce)
  | .executed o => noteFailure o

/-- Record what became of a member that was executed. -/
def closeMember (env : Environment) (submitter : Key) (m : InboundMessage)
    (a : MemberAccounts) (receipt : Receipt) (r : Inbound.MemberResult) : Exec Unit := do
  match r with
  | .skipped _ => pure ()
  | .executed o =>
    save Receipt.record a.receipt.id
      (receipt.note o.sourceChain o.sourceNonce o.succeeded submitter env.slot)
      { fault := .access .unwritableRecord }
    announceOutcome o m submitter

/-- Verify and execute a batch. -/
def processBatch (env : Environment) (messages : List InboundMessage)
    (attestations : List Attestation) (extras : List UInt8) : Exec Unit := do
  let bridge ← takeRecord "bridge" Bridge.record
  let chain ← takeRecord "chain" Chain.record
  let roster ← takeRecord "relayers" Roster.record
  let vault ← takeRecord "vault" Vault.record
  let executor ← take "executor"
  let instructions ← take "instructions"
  let submitter ← takeSigner "submitter"
  bridge.checkSeeds .bridge
  chain.checkSeeds (.chain chain.value.id)
  chain.checkWritable
  roster.checkSeeds .roster
  roster.checkWritable
  vault.checkSeeds .vault
  vault.checkWritable
  checkSeeds "executor" executor .executor
  checkAddress "instructions" instructions .instructionLog
  checkWritable "submitter" submitter
  check (require (messages ≠ [] ∧ messages.length ≤ maxBatchSize) .invalidBatchSize)
  check (require (extras.length = messages.length) .missingBatchAccounts)
  let members ← takeMembers bridge.value (messages.zip extras) (← get).remaining
  let proven ← check (Evidence.load env.log)
  let before ← get
  let liquidity ← check (before.ledger.liquidity bridge.value roster.value)
  let submission : Inbound.Submission := {
    bridge := bridge.value
    verify := Evidence.verifier proven
    submitter := submitter.id.key
    liquidity
    now := env.slot }
  let executors := members.map fun (a, receipt) =>
    (routeOf before.ledger a).executor env a.receipt.id receipt
  let (outcome, s) ← within
    (Inbound.processBatch submission executors messages attestations)
    (fun world => {
      chain := chain.value
      roster := roster.value
      receipts := members.map Prod.snd
      world })
    Inbound.BatchState.world
  outcome.results.forM checkMemberMarked
  (messages.zip outcome.results).forM fun (m, r) => noteMember m r
  (messages.zip ((members.map Prod.fst).zip (s.receipts.zip outcome.results))).forM
    fun (m, a, receipt, r) => closeMember env submitter.id.key m a receipt r
  note (.batchProcessed messages.length s.chain.id outcome.executedCount)
  chain.save Chain.record s.chain
  roster.save Roster.record s.roster

end Exec
end QuorumRelay
