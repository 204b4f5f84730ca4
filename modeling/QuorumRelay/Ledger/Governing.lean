import QuorumRelay.Digest
import QuorumRelay.Governance
import QuorumRelay.Ledger.Access
import QuorumRelay.Membership

/-!
# Instructions of the governor

Creating the bridge, and everything that changes on the governing key's word
alone.
-/

namespace QuorumRelay
namespace Exec

/-- Create the bridge, its vault and its empty roster. -/
def createBridge (settings : Bridge.Settings) : Exec Unit := do
  let bridge ← takeFresh
  let vault ← takeFresh
  let roster ← takeFresh
  let executor ← take "executor"
  let authority ← takeSigner "authority"
  takeSystemProgram "system_program"
  let bridge ← init "bridge" Bridge.record bridge .bridge authority Bridge.record.size
  let vault ← init "vault" Vault.record vault .vault authority Vault.record.size
  let roster ← init "relayers" Roster.record roster .roster authority Roster.record.size
  checkSeeds "executor" executor .executor
  checkWritable "authority" authority
  let identity := Address.ofKey bridgeProgramKey
  let created ← check (Bridge.create authority.id.key identity settings)
  note (.initialized settings.hostChain identity)
  bridge.save Bridge.record
    { created with vaultBump := derivedBump, executorBump := derivedBump, bump := derivedBump }
  vault.save Vault.record { bump := derivedBump }
  roster.save Roster.record { roster.value with bump := derivedBump }

/-- Create or change a chain. -/
def configureChain (id : ChainId) (limits : Chain.Limits) : Exec Unit := do
  let bridge ← takeRecord "bridge" Bridge.record
  let chain ← takeFresh
  let authority ← takeSigner "authority"
  takeSystemProgram "system_program"
  let chain ← initIfNeeded "chain" Chain.record chain (.chain id) authority
  bridge.checkSeeds .bridge
  checkWritable "authority" authority
  let ((), configured) ← perform
    (Governance.configureChain bridge.value.council authority.id.key id limits) chain.value
  emit (.chainConfigured id limits)
  note (.chainConfigured id configured.limits.maxMessageBytes configured.limits.rateLimit
    configured.limits.strictOrdering)
  chain.save Chain.record { configured with bump := derivedBump }

/-- Pause or resume a chain. -/
def setChainActive (id : ChainId) (active : Bool) : Exec Unit := do
  let bridge ← takeRecord "bridge" Bridge.record
  let chain ← takeRecord "chain" Chain.record
  let authority ← takeSigner "authority"
  bridge.checkSeeds .bridge
  chain.checkSeeds (.chain id)
  chain.checkWritable
  let ((), changed) ← perform
    (Governance.setChainActive bridge.value.council authority.id.key active) chain.value
  emit (.chainPauseUpdated id active)
  note (.chainPauseUpdated id active)
  chain.save Chain.record changed

/-- Choose the number of signatures that a quorum needs. -/
def updateThreshold (required : UInt8) : Exec Unit := do
  let bridge ← takeRecord "bridge" Bridge.record
  let roster ← takeRecord "relayers" Roster.record
  let authority ← takeSigner "authority"
  bridge.checkSeeds .bridge
  roster.checkSeeds .roster
  roster.checkWritable
  let ((), changed) ← perform
    (Membership.updateThreshold bridge.value.council authority.id.key required) roster.value
  emit (.thresholdUpdated required changed.active)
  note (.thresholdSet required changed.active)
  roster.save Roster.record changed

/-- Replace the fee schedule. -/
def setFeeSchedule (fees : FeeSchedule) : Exec Unit := do
  let bridge ← takeRecord "bridge" Bridge.record
  let authority ← takeSigner "authority"
  bridge.checkSeeds .bridge
  bridge.checkWritable
  let ((), changed) ← perform (Governance.setFeeSchedule authority.id.key fees) bridge.value
  emit (.feeScheduleUpdated fees)
  note .feeScheduleUpdated
  bridge.save Bridge.record changed

/-- Hand the governing power to another key. -/
def setAuthority (newAuthority : Key) : Exec Unit := do
  let bridge ← takeRecord "bridge" Bridge.record
  let authority ← takeSigner "authority"
  bridge.checkSeeds .bridge
  bridge.checkWritable
  let (previous, changed) ← perform
    (Governance.setAuthority authority.id.key newAuthority) bridge.value
  emit (.authorityTransferred previous newAuthority)
  note (.authorityTransferred previous newAuthority)
  bridge.save Bridge.record changed

end Exec
end QuorumRelay
