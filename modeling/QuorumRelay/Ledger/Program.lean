import QuorumRelay.Ledger.Batching
import QuorumRelay.Ledger.Governing
import QuorumRelay.Ledger.Instruction
import QuorumRelay.Ledger.Relaying
import QuorumRelay.Ledger.Sending
import QuorumRelay.Ledger.Settling
import QuorumRelay.Ledger.Sponsoring

/-!
# The program on the ledger

An instruction runs to its end or not at all: when it fails, the ledger is as it
was, and only its log lines remain.
-/

namespace QuorumRelay

/-- Run an instruction; some give a value back. -/
def Instruction.exec (env : Environment) : Instruction → Exec (Option (List UInt8))
  | ⟨.createBridge, settings⟩ => do Exec.createBridge settings; return none
  | ⟨.configureChain, id, limits⟩ => do Exec.configureChain id limits; return none
  | ⟨.setChainActive, id, active⟩ => do Exec.setChainActive id active; return none
  | ⟨.sendMessage, q⟩ => return some (Codec.u64.write (← Exec.sendMessage env q))
  | ⟨.sendSponsored, q⟩ => return some (Codec.u64.write (← Exec.sendSponsored env q))
  | ⟨.estimateFee, id, size, budget⟩ =>
    return some (Codec.u64.write (← Exec.estimateFee id size budget))
  | ⟨.markRelayed, nonce⟩ => do Exec.markRelayed nonce; return none
  | ⟨.confirmDelivery, nonce, attestations⟩ => do
    Exec.confirmDelivery env nonce attestations; return none
  | ⟨.reclaim, nonce⟩ => do Exec.reclaim env nonce; return none
  | ⟨.processMessage, digest, m, attestations⟩ => do
    Exec.processMessage env digest m attestations; return none
  | ⟨.processBatch, messages, attestations, extras⟩ => do
    Exec.processBatch env messages attestations extras; return none
  | ⟨.openReceipt, digest⟩ => do Exec.openReceipt digest; return none
  | ⟨.openCursor, sourceChain, sender⟩ => do Exec.openCursor sourceChain sender; return none
  | ⟨.registerRelayer, publicKey, stake⟩ => do
    Exec.registerRelayer env publicKey stake; return none
  | ⟨.unregisterRelayer, index⟩ => do Exec.unregisterRelayer index; return none
  | ⟨.removeRelayer, index⟩ => do Exec.removeRelayer index; return none
  | ⟨.updateThreshold, required⟩ => do Exec.updateThreshold required; return none
  | ⟨.claimCompensation, index, amount⟩ => do Exec.claimCompensation index amount; return none
  | ⟨.setFeeSchedule, fees⟩ => do Exec.setFeeSchedule fees; return none
  | ⟨.setAuthority, newAuthority⟩ => do Exec.setAuthority newAuthority; return none
  | ⟨.openSponsor, ()⟩ => do Exec.openSponsor; return none
  | ⟨.depositSponsor, amount⟩ => do Exec.depositSponsor amount; return none
  | ⟨.withdrawSponsor, amount⟩ => do Exec.withdrawSponsor amount; return none
  | ⟨.setSponsoredTarget, target, allowed⟩ => do
    Exec.setSponsoredTarget target allowed; return none

/-- What an instruction leaves behind. -/
structure Report where
  /-- The value given back, or why the instruction failed. -/
  result : Except Failure (Option (List UInt8))
  ledger : Ledger
  events : List Event := []
  calls : List Call := []
  notices : List Notice := []
  /-- The digests whose delivery was begun. -/
  attempts : List Digest := []
  /-- What was paid for deliveries. -/
  payments : List Payment := []

namespace Ledger

/-- Run the instruction that data stands for on the accounts it is handed. -/
def run (l : Ledger) (env : Environment) (data : List UInt8) (accounts : List Passed) : Report :=
  match Instruction.decode data with
  | .error f =>
    { result := .error { fault := .access f }, ledger := l }
  | .ok i =>
    match i.exec env { ledger := l, remaining := Passed.union accounts } with
    | .ok value m =>
      { result := .ok value, ledger := m.ledger, events := m.events, calls := m.calls,
        notices := m.notices, attempts := m.attempts, payments := m.payments }
    | .error f m => { result := .error f, ledger := l, notices := m.notices }

end Ledger

end QuorumRelay
