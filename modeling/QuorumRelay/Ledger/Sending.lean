import QuorumRelay.Ledger.Access
import QuorumRelay.Outbound.Queue

/-!
# Sending messages

A message's fee and value go into the vault before the message is recorded; a
sponsored message brings only its value, since its fee was prepaid.
-/

namespace QuorumRelay
namespace Exec

/-- Announce a queued message. -/
def announceMessage (bridge : Bridge) (chain : Chain) (m : OutboundMessage) : Exec Unit := do
  emit (.messageSent {
    nonce := m.nonce
    hostChain := bridge.hostChain
    identity := bridge.identity
    destinationChain := m.destinationChain
    sender := m.sender
    sourceSender := Address.ofKey m.sender
    destination := m.destination
    payload := m.payload
    value := m.value
    computeBudget := m.computeBudget
    fee := m.fee
    feePayer := m.feePayer
    confirmations := chain.limits.confirmations
    createdAt := m.createdAt })
  note (.messageSent m.nonce m.destinationChain m.fee m.feePayer)

/-- Queue a message whose sender pays fee and value. -/
def sendMessage (env : Environment) (q : SendRequest) : Exec Nonce := do
  let bridge ← takeRecord "bridge" Bridge.record
  let chain ← takeRecord "chain" Chain.record
  let target ← takeFresh
  let vault ← takeRecord "vault" Vault.record
  let sender ← takeSigner "sender"
  takeSystemProgram "system_program"
  let target ← init "outbound" OutboundMessage.record target (.outbound bridge.value.nextNonce)
    sender (OutboundMessage.sizeFor q.payload.length)
  bridge.checkSeeds .bridge
  bridge.checkWritable
  chain.checkSeeds (.chain q.destinationChain)
  chain.checkWritable
  vault.checkSeeds .vault
  vault.checkWritable
  checkWritable "sender" sender
  let (m, o) ← perform (Outbox.queue sender.id.key q env.slot)
    { bridge := bridge.value, chain := chain.value, sponsor := none }
  let owed ← check (m.fee.plus m.value)
  onLedger (Ledger.deposit sender.id vault.id owed)
  announceMessage o.bridge o.chain m
  bridge.save Bridge.record o.bridge
  chain.save Chain.record o.chain
  target.save OutboundMessage.record { m with bump := derivedBump }
  return m.nonce

/-- Queue a message whose fee a sponsor has prepaid; the sender brings the value. -/
def sendSponsored (env : Environment) (q : SendRequest) : Exec Nonce := do
  let bridge ← takeRecord "bridge" Bridge.record
  let chain ← takeRecord "chain" Chain.record
  let target ← takeFresh
  let sponsor ← takeRecord "sponsor_account" Sponsor.record
  let vault ← takeRecord "vault" Vault.record
  let sender ← takeSigner "sender"
  takeSystemProgram "system_program"
  let target ← init "outbound" OutboundMessage.record target (.outbound bridge.value.nextNonce)
    sender (OutboundMessage.sizeFor q.payload.length)
  bridge.checkSeeds .bridge
  bridge.checkWritable
  chain.checkSeeds (.chain q.destinationChain)
  chain.checkWritable
  sponsor.checkSeeds (.sponsor sponsor.value.owner)
  sponsor.checkWritable
  vault.checkSeeds .vault
  vault.checkWritable
  checkWritable "sender" sender
  let (m, o) ← perform (Outbox.queue sender.id.key q env.slot)
    { bridge := bridge.value, chain := chain.value, sponsor := some sponsor.value }
  onLedger (Ledger.deposit sender.id vault.id m.value)
  let charged := o.sponsor.getD sponsor.value
  note (.sponsorPaid charged.owner m.fee charged.balance)
  announceMessage o.bridge o.chain m
  bridge.save Bridge.record o.bridge
  chain.save Chain.record o.chain
  target.save OutboundMessage.record { m with bump := derivedBump }
  sponsor.save Sponsor.record charged
  return m.nonce

/-- Tell the fee of a message. -/
def estimateFee (id : ChainId) (size : UInt32) (budget : UInt64) : Exec Amount := do
  let bridge ← takeRecord "bridge" Bridge.record
  let chain ← takeRecord "chain" Chain.record
  bridge.checkSeeds .bridge
  chain.checkSeeds (.chain id)
  check (bridge.value.estimateFee chain.value size.toNat budget)

end Exec
end QuorumRelay
