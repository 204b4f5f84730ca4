import QuorumRelay.Ledger.Access
import QuorumRelay.Membership

/-!
# Relayers join, leave and are paid
-/

namespace QuorumRelay
namespace Exec

/-- A relayer joins, with its stake and the governor's signature. -/
def registerRelayer (env : Environment) (publicKey : Key) (stake : Amount) : Exec Unit := do
  let bridge ← takeRecord "bridge" Bridge.record
  let roster ← takeRecord "relayers" Roster.record
  let vault ← takeRecord "vault" Vault.record
  let owner ← takeSigner "owner"
  let authority ← takeSigner "authority"
  takeSystemProgram "system_program"
  bridge.checkSeeds .bridge
  roster.checkSeeds .roster
  roster.checkWritable
  vault.checkSeeds .vault
  vault.checkWritable
  checkWritable "owner" owner
  let (index, r) ← perform
    (Membership.register bridge.value.council authority.id.key bridge.value.minimumStake
      owner.id.key publicKey stake env.slot) roster.value
  onLedger (Ledger.deposit owner.id vault.id stake)
  emit (.relayerRegistered index owner.id.key publicKey stake)
  note (.relayerRegistered owner.id.key index r.active r.required)
  roster.save Roster.record r

/-- Pay a departed relayer out of the vault. -/
def payOut (vault : Held Vault) (owner : Passed) (d : Departure) : Exec Unit := do
  onLedger (Ledger.withdraw vault.id owner.id d.payout)
  emit (.relayerUnregistered d.index d.entry.owner d.payout)
  note (.relayerLeft d.entry.owner d.index d.payout)

/-- A relayer leaves. -/
def unregisterRelayer (index : UInt8) : Exec Unit := do
  let bridge ← takeRecord "bridge" Bridge.record
  let roster ← takeRecord "relayers" Roster.record
  let vault ← takeRecord "vault" Vault.record
  let owner ← takeSigner "owner"
  bridge.checkSeeds .bridge
  bridge.checkWritable
  roster.checkSeeds .roster
  roster.checkWritable
  vault.checkSeeds .vault
  vault.checkWritable
  checkWritable "owner" owner
  let (departure, m) ← perform (Membership.unregister index owner.id.key)
    { bridge := bridge.value, roster := roster.value }
  payOut vault owner departure
  bridge.save Bridge.record m.bridge
  roster.save Roster.record m.roster

/-- The governor removes a relayer; its money goes to its owner all the same. -/
def removeRelayer (index : UInt8) : Exec Unit := do
  let bridge ← takeRecord "bridge" Bridge.record
  let roster ← takeRecord "relayers" Roster.record
  let vault ← takeRecord "vault" Vault.record
  let owner ← take "owner"
  let authority ← takeSigner "authority"
  bridge.checkSeeds .bridge
  bridge.checkWritable
  roster.checkSeeds .roster
  roster.checkWritable
  vault.checkSeeds .vault
  vault.checkWritable
  checkWritable "owner" owner
  let (departure, m) ← perform (Membership.remove authority.id.key index)
    { bridge := bridge.value, roster := roster.value }
  check (require (departure.entry.owner = owner.id.key) .notRelayerOwner)
  payOut vault owner departure
  bridge.save Bridge.record m.bridge
  roster.save Roster.record m.roster

/-- A relayer claims some of what it earned. -/
def claimCompensation (index : UInt8) (amount : Amount) : Exec Unit := do
  let bridge ← takeRecord "bridge" Bridge.record
  let roster ← takeRecord "relayers" Roster.record
  let vault ← takeRecord "vault" Vault.record
  let owner ← takeSigner "owner"
  bridge.checkSeeds .bridge
  bridge.checkWritable
  roster.checkSeeds .roster
  roster.checkWritable
  vault.checkSeeds .vault
  vault.checkWritable
  checkWritable "owner" owner
  let ((), m) ← perform (Membership.claim index owner.id.key amount)
    { bridge := bridge.value, roster := roster.value }
  onLedger (Ledger.withdraw vault.id owner.id amount)
  emit (.compensationClaimed index owner.id.key amount)
  note (.compensationClaimed index amount)
  bridge.save Bridge.record m.bridge
  roster.save Roster.record m.roster

end Exec
end QuorumRelay
