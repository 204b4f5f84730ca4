import QuorumRelay.Proofs.Ledger.Batching
import QuorumRelay.Proofs.Ledger.Governing
import QuorumRelay.Proofs.Ledger.Relaying
import QuorumRelay.Proofs.Ledger.Sending
import QuorumRelay.Proofs.Ledger.Settling
import QuorumRelay.Proofs.Ledger.Sound
import QuorumRelay.Proofs.Ledger.Sponsoring

/-!
# All instructions, committed

The walks through the twenty-four instructions meet here.  `Instruction.exec_ends`
says of any of them that it ends in an effect, or fails; and the two theorems on
`Ledger.run` say what that leaves of the ledger, which a failure leaves as it was.
-/

namespace QuorumRelay

/-- The instructions that pay users what they are owed. -/
def Instruction.Kind.returns : Instruction.Kind → Bool
  | withdrawSponsor | reclaim | unregisterRelayer | removeRelayer | claimCompensation => true
  | _ => false

namespace Exec

variable {β : Type} {env : Environment} {A : List Passed} {i : Instruction} {m : Machine}
  {x : Exec β} {value : β → Option (List UInt8)}

/-- How an instruction ends: committed, or for one that pays users, short only of liquidity that
was not there. -/
def Settles (env : Environment) (A : List Passed) (i : Instruction) (m : Machine)
    (x : Exec (Option (List UInt8))) : Prop :=
  Ends A x m (fun _ m' => Commits env A i m m')
    fun r => i.kind.returns = true → Illiquid env A i m r

theorem Settles.of_ends (h : Ends A x m (fun _ m' => Commits env A i m m') fun _ => True)
    (hkind : i.kind.returns = false) :
    Settles env A i m (x >>= fun a => pure (value a)) :=
  .bind (h.mono (fun _ _ hcommits => .pure hcommits) fun _ _ hreturns => by
    rw [hkind] at hreturns
    cases hreturns)

theorem Settles.of_returns
    (h : Ends A x m (fun _ m' => Commits env A i m m') (Illiquid env A i m)) :
    Settles env A i m (x >>= fun a => pure (value a)) :=
  .bind (h.mono (fun _ _ hcommits => .pure hcommits) fun _ hilliquid _ => hilliquid)

end Exec

open Exec in
/-- **Every instruction ends in its effect, or fails.** -/
theorem Instruction.exec_ends {env : Environment} {A : List Passed} {m : Machine}
    (hs : m.ledger.Sound) (hA : HostSigned A) (hstart : m.remaining = A)
    (hd : env.destinations.Lawful) (i : Instruction) : Settles env A i m (i.exec env) := by
  obtain ⟨kind, args⟩ := i
  have hk := hs.kept
  cases kind with
  | createBridge => exact .of_ends (createBridge_ends hk hA args) rfl
  | configureChain => exact .of_ends (configureChain_ends hk hA args.1 args.2) rfl
  | setChainActive => exact .of_ends (setChainActive_ends hk args.1 args.2) rfl
  | sendMessage => exact .of_ends (sendMessage_ends hk hA args) rfl
  | sendSponsored => exact .of_ends (sendSponsored_ends hk hA args) rfl
  | estimateFee => exact .of_ends (estimateFee_ends hk args.1 args.2.1 args.2.2) rfl
  | markRelayed => exact .of_ends (markRelayed_ends hk args) rfl
  | confirmDelivery => exact .of_ends (confirmDelivery_ends hk args.1 args.2) rfl
  | reclaim => exact .of_returns (reclaim_ends hk hA args)
  | processMessage => exact .of_ends (processMessage_ends hk hA hd args.1 args.2.1 args.2.2) rfl
  | processBatch =>
    exact .of_ends ((processBatch_ends hk hs.bound hd args.1 args.2.1 args.2.2).mono
      (fun _ _ h => h.1) fun _ _ => trivial) rfl
  | openReceipt => exact .of_ends (openReceipt_ends hk hA args) rfl
  | openCursor => exact .of_ends (openCursor_ends hk hA args.1 args.2) rfl
  | registerRelayer => exact .of_ends (registerRelayer_ends hk hA args.1 args.2) rfl
  | unregisterRelayer => exact .of_returns (unregisterRelayer_ends hk hA args)
  | removeRelayer => exact .of_returns (removeRelayer_ends hk hs.unseated args)
  | updateThreshold => exact .of_ends (updateThreshold_ends hk args) rfl
  | claimCompensation => exact .of_returns (claimCompensation_ends hk hA args.1 args.2)
  | setFeeSchedule => exact .of_ends (setFeeSchedule_ends hk args) rfl
  | setAuthority => exact .of_ends (setAuthority_ends hk args) rfl
  | openSponsor => exact .of_ends (openSponsor_ends hk hA) rfl
  | depositSponsor => exact .of_ends (depositSponsor_ends hk hA hstart args) rfl
  | withdrawSponsor => exact .of_returns (withdrawSponsor_ends hk hA hstart args)
  | setSponsoredTarget => exact .of_ends (setSponsoredTarget_ends hk args.1 args.2) rfl

/-- Accounts that are handed over several times have the signatures that they had. -/
theorem HostSigned.union {accounts : List Passed} (h : HostSigned accounts) :
    HostSigned (Passed.union accounts) := by
  intro p hp hsigned
  obtain ⟨q, hq, hsigned', hid⟩ := Signed.of_union ⟨p, hp, hsigned, rfl⟩
  exact hid ▸ h q hq hsigned'

namespace Ledger

variable {l : Ledger} {env : Environment} {data : List UInt8} {accounts : List Passed}

/-- The machine that an instruction starts on. -/
def start (l : Ledger) (accounts : List Passed) : Machine :=
  { ledger := l, remaining := Passed.union accounts }

/-- What is reported of an instruction; one that fails is undone. -/
def report (l : Ledger) : EStateM.Result Failure Machine (Option (List UInt8)) → Report
  | .ok value m => {
    result := .ok value, ledger := m.ledger, events := m.events, calls := m.calls
    notices := m.notices, attempts := m.attempts, payments := m.payments }
  | .error f m => { result := .error f, ledger := l, notices := m.notices }

/-- The report of a run, once the data has been read. -/
theorem run_of_decode {i : Instruction} (h : Instruction.decode data = .ok i) :
    l.run env data accounts = l.report (i.exec env (l.start accounts)) := by
  unfold run start
  rw [h]
  cases hexec : i.exec env { ledger := l, remaining := Passed.union accounts } with
  | ok value m => simp only [hexec, report]
  | error f m => simp only [hexec, report]

/-- **A run fails and leaves the ledger as it was, or it carries out an instruction.** -/
theorem run_cases (l : Ledger) (env : Environment) (data : List UInt8)
    (accounts : List Passed) :
    (∃ f notices, l.run env data accounts = { result := .error f, ledger := l, notices } ∧
      ∀ i, Instruction.decode data = .ok i →
        ∃ m, i.exec env (l.start accounts) = .error f m) ∨
    ∃ i value m, Instruction.decode data = .ok i ∧
      i.exec env (l.start accounts) = .ok value m ∧
      l.run env data accounts = {
        result := .ok value, ledger := m.ledger, events := m.events, calls := m.calls
        notices := m.notices, attempts := m.attempts, payments := m.payments } := by
  unfold run start
  cases hdecode : Instruction.decode data with
  | error f => exact Or.inl ⟨_, _, rfl, nofun⟩
  | ok i =>
    cases hexec : i.exec env { ledger := l, remaining := Passed.union accounts } with
    | ok value m => exact Or.inr ⟨i, value, m, rfl, hexec, by simp only [hexec]⟩
    | error f m =>
      refine Or.inl ⟨f, m.notices, by simp only [hexec], fun i' hi' => ?_⟩
      cases hi'
      exact ⟨m, hexec⟩

/-- **A run that commits has an effect.** -/
theorem commits_of_exec {i : Instruction} {value : Option (List UInt8)} {m : Machine}
    (hs : l.Sound) (hA : HostSigned accounts) (hd : env.destinations.Lawful)
    (h : i.exec env (l.start accounts) = .ok value m) :
    Commits env (Passed.union accounts) i (l.start accounts) m :=
  (Instruction.exec_ends (m := l.start accounts) hs hA.union rfl hd i).of_ok (fun _ hp => hp) h

end Ledger
end QuorumRelay
