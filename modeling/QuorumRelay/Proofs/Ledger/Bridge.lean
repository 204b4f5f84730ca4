import QuorumRelay.Proofs.Governance
import QuorumRelay.Proofs.Ledger.Effect
import QuorumRelay.Proofs.Outbound.Queue

/-!
# What becomes of the bridge's record

One record holds who governs the bridge, what was chosen when it was created, and
its books.  An instruction changes it in one of two ways: the governing key
replaces itself or the fees, or something is counted (`BridgeStep`).

Five instructions close something that was open, a message or a relayer's
account, and count it in three entries alone.  `Bridge.Settled` says so for all
five of them, and the other entries are read off it.
-/

namespace QuorumRelay

/-- Two records of a bridge differ in what was paid from the pool and set free, at most. -/
def Bridge.Settled (b b' : Bridge) : Prop :=
  b' = { b with
    pool := b'.pool, compensationClaimed := b'.compensationClaimed, lockedValue := b'.lockedValue }

/-- Two records of a bridge agree in what was chosen when it was created. -/
structure Bridge.SameCharter (b b' : Bridge) : Prop where
  hostChain : b'.hostChain = b.hostChain
  identity : b'.identity = b.identity
  epochLength : b'.epochLength = b.epochLength
  minimumStake : b'.minimumStake = b.minimumStake
  reclaimAfter : b'.reclaimAfter = b.reclaimAfter

/-- They agree in who governs and in what is charged. -/
def Bridge.SameRule (b b' : Bridge) : Prop := b'.authority = b.authority ∧ b'.fees = b.fees

/-- **What an instruction makes of the bridge's record.** -/
inductive BridgeStep (A : List Passed) (b b' : Bridge) : Prop
  | governed (authorized : SignedBy A b.authority)
      (result : b' = { b with authority := b'.authority, fees := b'.fees })
  | counted (result : b' = { b with
      nextNonce := b'.nextNonce, pool := b'.pool, feesCollected := b'.feesCollected
      compensationClaimed := b'.compensationClaimed, lockedValue := b'.lockedValue
      sponsorFunds := b'.sponsorFunds })

/-! ## Steps that settle -/

namespace Bridge.Settled

variable {b b' : Bridge} {r : Roster} {caller actor : Key} {index : UInt8} {amount : Amount}

theorem nextNonce (h : b.Settled b') : b'.nextNonce = b.nextNonce := by
  rw [show b' = _ from h]

theorem sponsorFunds (h : b.Settled b') : b'.sponsorFunds = b.sponsorFunds := by
  rw [show b' = _ from h]

theorem of_releaseValue {value : Amount} {u : Unit} (h : releaseValue value b = .ok u b') :
    b.Settled b' := by
  rw [Settled, (releaseValue_eq_ok h).2]

theorem of_payCompensation {u : Unit} (h : payCompensation amount b = .ok u b') :
    b.Settled b' := by
  rw [Settled, (payCompensation_eq_ok h).2]

theorem of_confirm {roster : Roster} {attestations : List Attestation} {verify : Verifier}
    {d : Digest} {m : OutboundMessage} {s : Settlement}
    (h : Settlement.confirm roster attestations verify ⟨b, m⟩ = .ok d s) : b.Settled s.bridge :=
  of_releaseValue (Settlement.confirm_eq_ok h).2.2.2.2

theorem of_reclaim {now : Slot} {refund : Amount} {m : OutboundMessage} {s : Settlement}
    (h : Settlement.reclaim caller now ⟨b, m⟩ = .ok refund s) : b.Settled s.bridge :=
  of_releaseValue (Settlement.reclaim_eq_ok h).2.2.2.2.2

theorem of_unregister {d : Departure} {m : Membership}
    (h : Membership.unregister index caller ⟨b, r⟩ = .ok d m) : b.Settled m.bridge := by
  obtain ⟨e, -, hsettle⟩ := Membership.unregister_eq_ok h
  exact of_payCompensation (Membership.settle_eq_ok hsettle).2.2.1

theorem of_remove {d : Departure} {m : Membership}
    (h : Membership.remove actor index ⟨b, r⟩ = .ok d m) : b.Settled m.bridge := by
  obtain ⟨-, e, -, hsettle⟩ := Membership.remove_eq_ok h
  exact of_payCompensation (Membership.settle_eq_ok hsettle).2.2.1

theorem of_claim {u : Unit} {m : Membership}
    (h : Membership.claim index caller amount ⟨b, r⟩ = .ok u m) : b.Settled m.bridge :=
  of_payCompensation (Membership.claim_eq_ok h).2.2

end Bridge.Settled

/-! ## What a step keeps -/

section

variable {A : List Passed} {b b' : Bridge}

/-- Who the council of a bridge let act has signed as its governing key. -/
theorem Governance.signedBy_of_council {authority : AccountId} (hsigned : Signed A authority)
    (hcouncil : b.council authority.key = true) : SignedBy A b.authority := by
  have hkey : b.authority = authority.key := by simpa [Bridge.council] using hcouncil
  exact hkey ▸ hsigned.signedBy

theorem BridgeStep.of_settled (h : b.Settled b') : BridgeStep A b b' := by
  refine .counted ?_
  rw [show b' = _ from h]

/-- A message that is queued is counted. -/
theorem BridgeStep.of_queued {sender : Key} {q : SendRequest} {now : Slot} {o o' : Outbox}
    {m : OutboundMessage} (h : Outbox.Queued sender q now o m o') :
    BridgeStep A o.bridge o'.bridge := by
  obtain ⟨-, -, -, -, -, -, hresult⟩ := Bridge.recordSend_eq_ok h.counted
  refine .counted ?_
  rw [hresult]

/-- **What was chosen when the bridge was created stays.** -/
theorem BridgeStep.sameCharter (h : BridgeStep A b b') : b.SameCharter b' := by
  cases h with
  | governed _ result | counted result =>
    rw [result]
    exact ⟨rfl, rfl, rfl, rfl, rfl⟩

theorem BridgeStep.sameRule (h : BridgeStep A b b') (hunsigned : ¬ SignedBy A b.authority) :
    b.SameRule b' := by
  cases h with
  | governed authorized => exact absurd authorized hunsigned
  | counted result =>
    rw [result]
    exact ⟨rfl, rfl⟩

end

/-! ## All instructions -/

variable {env : Environment} {A : List Passed} {spendable : Amount} {before after : Books}
  {i : Instruction} {t : Trace} {b : Bridge}

/-- **Every instruction makes one step of the bridge's record.** -/
theorem Effect.bridgeStep (h : Effect env A spendable before i after t)
    (hb : before .bridge = some b) : ∃ b', after .bridge = some b' ∧ BridgeStep A b b' := by
  cases h with
  | createBridge received signed absent step =>
    rw [absent.1] at hb
    cases hb
  | setFeeSchedule signed bridge step =>
    rename_i fees authority b₁ b'
    obtain rfl : b₁ = b := by simpa [hb] using bridge.symm
    obtain ⟨hcouncil, rfl⟩ := Governance.setFeeSchedule_eq_ok step
    exact ⟨_, Books.put_self .., .governed (Governance.signedBy_of_council signed hcouncil) rfl⟩
  | setAuthority signed bridge step =>
    rename_i newAuthority previous authority b₁ b'
    obtain rfl : b₁ = b := by simpa [hb] using bridge.symm
    obtain ⟨hcouncil, -, rfl⟩ := Governance.setAuthority_eq_ok step
    exact ⟨_, Books.put_self .., .governed (Governance.signedBy_of_council signed hcouncil) rfl⟩
  | depositSponsor signed bridge sponsor vault own step books place =>
    rename_i amount owner b₁ b' s s' v
    obtain rfl : b₁ = b := by simpa [hb] using bridge.symm
    refine ⟨b', by simp [Books.put_of_ne], .counted ?_⟩
    rw [(Bridge.holdSponsorFunds_eq_ok books).2]
  | withdrawSponsor signed bridge sponsor vault own step books place =>
    rename_i amount owner b₁ b' s s' v
    obtain rfl : b₁ = b := by simpa [hb] using bridge.symm
    refine ⟨b', by simp [Books.put_of_ne], .counted ?_⟩
    rw [(Bridge.releaseSponsorFunds_eq_ok books).2]
  | sendMessage signed bridge chain vault absent step owes =>
    rename_i q sender b₁ c v m o owed
    obtain rfl : b₁ = b := by simpa [hb] using bridge.symm
    exact ⟨o.bridge, by simp [Books.put_of_ne], .of_queued (Outbox.queued_of_queue step)⟩
  | sendSponsored signed bridge chain sponsor vault absent step charged =>
    rename_i q sender b₁ c v s s' m o
    obtain rfl : b₁ = b := by simpa [hb] using bridge.symm
    exact ⟨o.bridge, by simp [Books.put_of_ne], .of_queued (Outbox.queued_of_queue step)⟩
  | confirmDelivery bridge roster message evidence step =>
    rename_i nonce attestations b₁ r m proven d s
    obtain rfl : b₁ = b := by simpa [hb] using bridge.symm
    exact ⟨s.bridge, by simp [Books.put_of_ne], .of_settled (.of_confirm step)⟩
  | reclaim signed bridge message vault step =>
    rename_i nonce sender b₁ m v refund s
    obtain rfl : b₁ = b := by simpa [hb] using bridge.symm
    exact ⟨s.bridge, by simp [Books.put_of_ne], .of_settled (.of_reclaim step)⟩
  | unregisterRelayer signed bridge roster vault step =>
    rename_i index owner b₁ r v d m
    obtain rfl : b₁ = b := by simpa [hb] using bridge.symm
    exact ⟨m.bridge, by simp [Books.put_of_ne], .of_settled (.of_unregister step)⟩
  | removeRelayer signed bridge roster vault own step =>
    rename_i index owner authority b₁ r v d m
    obtain rfl : b₁ = b := by simpa [hb] using bridge.symm
    exact ⟨m.bridge, by simp [Books.put_of_ne], .of_settled (.of_remove step)⟩
  | claimCompensation signed bridge roster vault step =>
    rename_i index amount owner b₁ r v m
    obtain rfl : b₁ = b := by simpa [hb] using bridge.symm
    exact ⟨m.bridge, by simp [Books.put_of_ne], .of_settled (.of_claim step)⟩
  | processMessage given signed bridge =>
    refine ⟨b, ?_, .counted rfl⟩
    rw [Books.move_of_ne (q := .bridge) nofun]
    simpa [Books.put_of_ne] using hb
  | processBatch given =>
    exact ⟨b, by simpa [Books.put_of_ne, Books.close_of_ne] using hb, .counted rfl⟩
  | _ => exact ⟨b, by simpa [Books.put_of_ne] using hb, .counted rfl⟩

/-- **A new governing key is in force at once.** -/
theorem Effect.authority_of_setAuthority {new : Key}
    (h : Effect env A spendable before ⟨.setAuthority, new⟩ after t) :
    ∃ b', after .bridge = some b' ∧ b'.authority = new := by
  cases h with
  | setAuthority signed bridge step =>
    obtain ⟨-, -, rfl⟩ := Governance.setAuthority_eq_ok step
    exact ⟨_, Books.put_self .., rfl⟩

end QuorumRelay
