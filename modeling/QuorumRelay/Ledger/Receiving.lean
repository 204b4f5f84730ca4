import QuorumRelay.Ledger.Destination

/-!
# Receiving single messages

The receipt of a message may be opened ahead of it or is created with it.  The
cursor of a sender has to be opened before a chain with strict ordering can be
served.
-/

namespace QuorumRelay
namespace Exec

/-- Announce how a message was executed. -/
def announceOutcome (o : Inbound.Outcome) (m : InboundMessage) (submitter : Key) : Exec Unit :=
  emit (.messageProcessed o.digest o.sourceChain o.sourceNonce m.destination submitter
    o.succeeded)

/-- Log why a delivery failed, if it did. -/
def noteFailure (o : Inbound.Outcome) : Exec Unit :=
  match o.failure with
  | none => pure ()
  | some cause => note (.executionFailed o.sourceChain o.sourceNonce cause)

/-- A mark that could not be written fails the instruction, as any record does that is written
back. -/
def checkMarked (o : Inbound.Outcome) : Exec Unit :=
  if o.unmarked then fail (.access .unwritableRecord) else pure ()

/-- Run a step whose state holds the running instruction as its world. -/
def within {σ α : Type} (step : Action σ α) (enter : Machine → σ) (leave : σ → Machine) :
    Exec (α × σ) := do
  let (a, s) ← perform step (enter (← get))
  set (leave s)
  return (a, s)

/-- Verify and execute one message. -/
def processMessage (env : Environment) (digest : Digest) (m : InboundMessage)
    (attestations : List Attestation) : Exec Unit := do
  let bridge ← takeRecord "bridge" Bridge.record
  let chain ← takeRecord "chain" Chain.record
  let roster ← takeRecord "relayers" Roster.record
  let receipt ← takeFresh
  let cursor ← takeOptional "cursor" Cursor.record
  let vault ← takeRecord "vault" Vault.record
  let executor ← take "executor"
  let program ← take "destination_program"
  let inbox ← take "value_inbox"
  let instructions ← take "instructions"
  let submitter ← takeSigner "submitter"
  takeSystemProgram "system_program"
  let receipt ← initIfNeeded "receipt" Receipt.record receipt (.receipt digest) submitter
  bridge.checkSeeds .bridge
  chain.checkSeeds (.chain m.sourceChain)
  chain.checkWritable
  roster.checkSeeds .roster
  roster.checkWritable
  match cursor with
  | none => pure ()
  | some c => c.checkWritable
  vault.checkSeeds .vault
  vault.checkWritable
  checkSeeds "executor" executor .executor
  checkWritable "value_inbox" inbox
  checkAddress "instructions" instructions .instructionLog
  checkWritable "submitter" submitter
  let _ ← check (Digest.verify digest bridge.value.hostChain bridge.value.identity m)
  let opened := receipt.value.bind digest derivedBump
  let proven ← check (Evidence.load env.log)
  let before ← get
  let liquidity ← check (before.ledger.liquidity bridge.value roster.value)
  let route : Route := {
    program := program.id
    executable := (before.ledger.account program.id).executable
    inbox := inbox.id
    forwarded := before.remaining }
  let submission : Inbound.Submission := {
    bridge := bridge.value
    verify := Evidence.verifier proven
    submitter := submitter.id.key
    liquidity
    now := env.slot }
  let (outcome, s) ← within
    (Inbound.process submission (route.executor env receipt.id opened) m attestations)
    (fun world => {
      chain := chain.value
      roster := roster.value
      receipt := opened
      cursor := cursor.map Held.value
      world })
    Inbound.State.world
  checkMarked outcome
  noteFailure outcome
  announceOutcome outcome m submitter.id.key
  note (.messageProcessed outcome.sourceChain outcome.sourceNonce outcome.succeeded
    outcome.reward)
  chain.save Chain.record s.chain
  roster.save Roster.record s.roster
  receipt.save Receipt.record
    (s.receipt.note outcome.sourceChain outcome.sourceNonce outcome.succeeded submitter.id.key
      env.slot)
  match cursor, s.cursor with
  | some held, some c => held.save Cursor.record c
  | _, _ => pure ()

/-- Open the receipt of a digest; opening it again changes nothing. -/
def openReceipt (digest : Digest) : Exec Unit := do
  let receipt ← takeFresh
  let payer ← takeSigner "payer"
  takeSystemProgram "system_program"
  let receipt ← initIfNeeded "receipt" Receipt.record receipt (.receipt digest) payer
  checkWritable "payer" payer
  check (Digest.check digest)
  receipt.save Receipt.record (receipt.value.bind digest derivedBump)

/-- Open the cursor of a sender; opening it again changes nothing. -/
def openCursor (sourceChain : ChainId) (sender : List UInt8) : Exec Unit := do
  let cursor ← takeFresh
  let payer ← takeSigner "payer"
  takeSystemProgram "system_program"
  let senderKey := Digest.ofSender sender
  let cursor ← initIfNeeded "cursor" Cursor.record cursor (.cursor sourceChain senderKey) payer
  checkWritable "payer" payer
  check (checkSender sender)
  if cursor.value.senderKey = .zero then
    note (.cursorOpened sourceChain)
    cursor.save Cursor.record { cursor.value with sourceChain, senderKey, bump := derivedBump }
  else
    cursor.save Cursor.record cursor.value

end Exec
end QuorumRelay
