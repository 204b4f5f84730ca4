import QuorumRelay.Bridge
import QuorumRelay.Ledger.Access

/-!
# Sponsors open accounts, fund them and list destinations
-/

namespace QuorumRelay
namespace Exec

/-- Open a sponsor's account. -/
def openSponsor : Exec Unit := do
  let target ← takeFresh
  let owner ← takeSigner "sponsor"
  takeSystemProgram "system_program"
  let target ← init "sponsor_account" Sponsor.record target (.sponsor owner.id.key) owner
    Sponsor.record.size
  checkWritable "sponsor" owner
  note (.sponsorOpened owner.id.key)
  target.save Sponsor.record { target.value with owner := owner.id.key, bump := derivedBump }

/-- A sponsor's account has to be its own. -/
def checkSponsor (s : Held Sponsor) (owner : Passed) : Exec Unit := do
  s.checkSeeds (.sponsor owner.id.key)
  s.checkWritable
  unless s.value.owner = owner.id.key do failAt s.field .wrongRelation

/-- Announce a sponsor's balance. -/
def announceBalance (s : Sponsor) : Exec Unit := do
  emit (.sponsorBalanceChanged s.owner s.balance)
  note (.sponsorBalance s.owner s.balance)

/-- Prepay fees. -/
def depositSponsor (amount : Amount) : Exec Unit := do
  let bridge ← takeRecord "bridge" Bridge.record
  let sponsor ← takeRecord "sponsor_account" Sponsor.record
  let vault ← takeRecord "vault" Vault.record
  let owner ← takeSigner "sponsor"
  takeSystemProgram "system_program"
  bridge.checkSeeds .bridge
  bridge.checkWritable
  checkSponsor sponsor owner
  vault.checkSeeds .vault
  vault.checkWritable
  checkWritable "sponsor" owner
  let ((), s) ← perform (Sponsor.deposit amount) sponsor.value
  let ((), b) ← perform (Bridge.holdSponsorFunds amount) bridge.value
  onLedger (Ledger.deposit owner.id vault.id amount)
  announceBalance s
  bridge.save Bridge.record b
  sponsor.save Sponsor.record s

/-- Take back what was not spent. -/
def withdrawSponsor (amount : Amount) : Exec Unit := do
  let bridge ← takeRecord "bridge" Bridge.record
  let sponsor ← takeRecord "sponsor_account" Sponsor.record
  let vault ← takeRecord "vault" Vault.record
  let owner ← takeSigner "sponsor"
  takeSystemProgram "system_program"
  bridge.checkSeeds .bridge
  bridge.checkWritable
  checkSponsor sponsor owner
  vault.checkSeeds .vault
  vault.checkWritable
  checkWritable "sponsor" owner
  let ((), s) ← perform (Sponsor.withdraw amount) sponsor.value
  let ((), b) ← perform (Bridge.releaseSponsorFunds amount) bridge.value
  onLedger (Ledger.withdraw vault.id owner.id amount)
  announceBalance s
  bridge.save Bridge.record b
  sponsor.save Sponsor.record s

/-- List a destination or strike it off. -/
def setSponsoredTarget (target : Sponsor.Target) (allowed : Bool) : Exec Unit := do
  let sponsor ← takeRecord "sponsor_account" Sponsor.record
  let owner ← takeSigner "sponsor"
  checkSponsor sponsor owner
  let ((), s) ← perform (Sponsor.setTarget target allowed) sponsor.value
  note (.sponsorTarget s.owner allowed target.chain s.targets.length)
  sponsor.save Sponsor.record s

end Exec
end QuorumRelay
