import QuorumRelay.Ledger.Access
import QuorumRelay.Outbound.Queue

/-!
# Settling outbound messages
-/

namespace QuorumRelay
namespace Exec

/-- Announce the status a message has come to. -/
def announceStatus (nonce : Nonce) (status : MessageStatus) : Exec Unit := do
  emit (.messageStatusChanged nonce status)
  note (.statusChanged nonce status)

/-- A relayer reports that it picked a message up. -/
def markRelayed (nonce : Nonce) : Exec Unit := do
  let roster ← takeRecord "relayers" Roster.record
  let message ← takeRecord "outbound" OutboundMessage.record
  let relayer ← takeSigner "relayer"
  roster.checkSeeds .roster
  message.checkSeeds (.outbound nonce)
  message.checkWritable
  let ((), m) ← perform (OutboundMessage.pickUp roster.value relayer.id.key) message.value
  announceStatus nonce .relayed
  message.save OutboundMessage.record m

/-- A quorum confirms that a message was delivered. -/
def confirmDelivery (env : Environment) (nonce : Nonce) (attestations : List Attestation) :
    Exec Unit := do
  let bridge ← takeRecord "bridge" Bridge.record
  let roster ← takeRecord "relayers" Roster.record
  let message ← takeRecord "outbound" OutboundMessage.record
  let instructions ← take "instructions"
  let _ ← takeSigner "submitter"
  bridge.checkSeeds .bridge
  bridge.checkWritable
  roster.checkSeeds .roster
  message.checkSeeds (.outbound nonce)
  message.checkWritable
  checkAddress "instructions" instructions .instructionLog
  let proven ← check (Evidence.load env.log)
  let (_, s) ← perform
    (Settlement.confirm roster.value attestations (Evidence.verifier proven))
    { bridge := bridge.value, message := message.value }
  announceStatus nonce .confirmed
  bridge.save Bridge.record s.bridge
  message.save OutboundMessage.record s.message

/-- A sender takes back the value of a message that was not delivered in time. -/
def reclaim (env : Environment) (nonce : Nonce) : Exec Unit := do
  let bridge ← takeRecord "bridge" Bridge.record
  let message ← takeRecord "outbound" OutboundMessage.record
  let vault ← takeRecord "vault" Vault.record
  let sender ← takeSigner "sender"
  bridge.checkSeeds .bridge
  bridge.checkWritable
  message.checkSeeds (.outbound nonce)
  message.checkWritable
  vault.checkSeeds .vault
  vault.checkWritable
  checkWritable "sender" sender
  let (refund, s) ← perform (Settlement.reclaim sender.id.key env.slot)
    { bridge := bridge.value, message := message.value }
  onLedger (Ledger.withdraw vault.id sender.id refund)
  note (.refunded refund nonce)
  announceStatus nonce .failed
  bridge.save Bridge.record s.bridge
  message.save OutboundMessage.record s.message

end Exec
end QuorumRelay
