import QuorumRelay.Proofs.Governance
import QuorumRelay.Proofs.Outbound.Queue

/-!
# Where the fees are

Three entries of the bridge record are about fees: what was collected, what was
paid out as compensation, and what the pool still holds.  A send adds its fee to
the first and the last; a payment moves an amount from the last to the second.
So the pool and what was paid out make up what was collected (`Balanced`).

## What depends on it

A payment takes its amount out of the pool before it knows that the running total
of payments fits into 64 bits.  If it did not fit, the pool would be short of an
amount that nobody got.  A claim has debited the relayer's earnings by then, and
these would be gone too.

Balanced books exclude it.  The total after the payment is at most what was
collected, and that does fit, since it is an entry of the same record
(`Balanced.payCompensation_eq_ok`).  So a payment fails only where the pool does
not cover it, which is looked at before anything is written.

## Runs without rollback

Twelve calls read or write a bridge record; they are made here in any order, with
anything (`Bridge.Call`).  The other records they work on are given with each call
and may be any, so nothing is assumed of how these go on from call to call.  A
call that fails is not undone.
-/

namespace QuorumRelay

/-- What was collected is in the pool or was paid out. -/
def Bridge.Balanced (b : Bridge) : Prop :=
  b.pool.toNat + b.compensationClaimed.toNat = b.feesCollected.toNat

/-- No fee comes in between two bridge records, and what leaves the pool counts as paid. -/
structure Bridge.KeepsFees (b b' : Bridge) : Prop where
  collected : b'.feesCollected = b.feesCollected
  total : b'.pool.toNat + b'.compensationClaimed.toNat =
    b.pool.toNat + b.compensationClaimed.toNat

namespace Bridge

variable {b b' : Bridge} {f : Fault} {u : Unit} {amount : Amount}

/-! ## Payments -/

theorem balanced_of_create {authority : Key} {identity : Address} {s : Settings}
    (h : create authority identity s = .ok b) : b.Balanced := by
  obtain ⟨hpool, -, -, hcollected, hclaimed⟩ := create_eq_ok h
  rw [Balanced, hpool, hcollected, hclaimed]
  rfl

theorem KeepsFees.refl (b : Bridge) : b.KeepsFees b := ⟨rfl, rfl⟩

theorem KeepsFees.after {α : Type} {step : Action Bridge α}
    (hok : ∀ a b', step b = .ok a b' → b.KeepsFees b')
    (herr : ∀ f b', step b = .error f b' → b' = b) : b.KeepsFees (step.after b) :=
  Action.after_induct hok fun f b' h => herr f b' h ▸ .refl b

theorem Balanced.keep (hb : b.Balanced) (h : b.KeepsFees b') : b'.Balanced := by
  rw [Balanced, h.total, h.collected]
  exact hb

theorem keepsFees_of_payCompensation (h : payCompensation amount b = .ok u b') :
    b.KeepsFees b' := by
  obtain ⟨hpool, hb'⟩ := payCompensation_eq_ok h
  have hclaimed := claimed_of_payCompensation h
  refine ⟨by rw [hb'], ?_⟩
  omega

/-- Payments within the pool fit into the running total. -/
theorem Balanced.claimed_add_lt (hb : b.Balanced) (hle : amount ≤ b.pool) :
    b.compensationClaimed.toNat + amount.toNat < UInt64.size := by
  have hle : amount.toNat ≤ b.pool.toNat := UInt64.le_iff_toNat_le.1 hle
  have hfits := b.feesCollected.toNat_lt_size
  unfold Balanced at hb
  omega

/-- **A payment that the pool does not cover is refused, and no other fails.** -/
theorem Balanced.payCompensation_eq_error (hb : b.Balanced)
    (h : payCompensation amount b = .error f b') :
    b.pool < amount ∧ f = .refused .insufficientPoolBalance ∧ b' = b := by
  rcases payCompensation_fails h with hrefused | ⟨hle, hfull⟩
  · exact hrefused
  · exact absurd (hb.claimed_add_lt hle) (Nat.not_lt.2 hfull)

/-- **A payment that the pool covers is made.** -/
theorem Balanced.payCompensation_eq_ok (hb : b.Balanced) (hle : amount ≤ b.pool) :
    ∃ b', payCompensation amount b = .ok () b' := by
  cases h : payCompensation amount b with
  | ok u b' => exact ⟨b', rfl⟩
  | error f b' =>
    exact absurd hle (UInt64.not_le.2 (hb.payCompensation_eq_error h).1)

theorem Balanced.keepsFees_after_payCompensation (hb : b.Balanced) (amount : Amount) :
    b.KeepsFees ((payCompensation amount).after b) :=
  .after (fun _ _ h => keepsFees_of_payCompensation h) fun _ _ h =>
    (hb.payCompensation_eq_error h).2.2

/-! ## Leaving and claiming -/

/-- What a departure leaves of the bridge record is what the payment leaves. -/
theorem after_settle (i : UInt8) (e : Relayer) (b : Bridge) :
    (Membership.settle i e).after b = (payCompensation (min e.earned b.pool)).after b := by
  show (do
    payCompensation (min e.earned b.pool)
    let payout ← e.stake.plus (min e.earned b.pool)
    return ⟨i, e, payout⟩ : Action Bridge Departure).after b = _
  cases h : payCompensation (min e.earned b.pool) b with
  | ok _ b' =>
    rw [Action.after_bind_of_ok h, Action.after_of_ok h]
    cases e.stake.plus (min e.earned b.pool) <;> rfl
  | error f b' => rw [Action.after_bind_of_error h, Action.after_of_error h]

/-- Whoever leaves, on whatever word, is paid out of the pool. -/
theorem Balanced.keepsFees_after_leave (hb : b.Balanced) (r : Roster)
    (leave : Action Roster Relayer) (i : UInt8) :
    b.KeepsFees ((Membership.onRoster leave >>= fun e =>
      Membership.onBridge (Membership.settle i e)).after ⟨b, r⟩).bridge := by
  cases h : leave r with
  | ok e r' =>
    have hleave : Membership.onRoster leave ⟨b, r⟩ = .ok e ⟨b, r'⟩ :=
      Action.on_eq_ok.2 ⟨r', h, rfl⟩
    rw [Action.after_bind_of_ok hleave, Membership.onBridge, Action.after_on, after_settle]
    exact hb.keepsFees_after_payCompensation _
  | error f r' =>
    have hleave : Membership.onRoster leave ⟨b, r⟩ = .error f ⟨b, r'⟩ :=
      Action.on_eq_error.2 ⟨r', h, rfl⟩
    rw [Action.after_bind_of_error hleave]
    exact .refl b

theorem Balanced.keepsFees_after_remove (hb : b.Balanced) (r : Roster) (actor : Key)
    (i : UInt8) : b.KeepsFees ((Membership.remove actor i).after ⟨b, r⟩).bridge := by
  show b.KeepsFees ((do
    (b.council.check actor : Action Membership Unit)
    let e ← Membership.onRoster (Roster.remove i)
    Membership.onBridge (Membership.settle i e) : Action Membership Departure).after
      ⟨b, r⟩).bridge
  cases hcheck : b.council.check actor with
  | ok u => exact hb.keepsFees_after_leave r (Roster.remove i) i
  | error f => exact .refl b

theorem Balanced.keepsFees_after_unregister (hb : b.Balanced) (r : Roster) (i : UInt8)
    (caller : Key) : b.KeepsFees ((Membership.unregister i caller).after ⟨b, r⟩).bridge :=
  hb.keepsFees_after_leave r (Roster.unregister i caller) i

/-- **A claim that fails leaves the bridge record and the roster as they were.** -/
theorem Balanced.claim_eq_error {r : Roster} {i : UInt8} {caller : Key} {m' : Membership}
    (hb : b.Balanced) (h : Membership.claim i caller amount ⟨b, r⟩ = .error f m') :
    m' = ⟨b, r⟩ := by
  unfold Membership.claim Membership.onRoster Membership.onBridge at h
  simp only [get_bind, require_bind_eq_error, bind_eq_error (x := Action.on _ _ _),
    Action.on_eq_ok, Action.on_eq_error] at h
  rcases h with ⟨-, -, rfl⟩ | ⟨hle, ⟨r', hdebit, rfl⟩ | ⟨_, _, ⟨r', -, rfl⟩, b', hpay, -⟩⟩
  · rfl
  · obtain rfl := Roster.debitEarnings_eq_error hdebit
    rfl
  · -- the pool was seen to cover the amount before the earnings were debited
    exact absurd hle (UInt64.not_le.2 (hb.payCompensation_eq_error hpay).1)

theorem Balanced.keepsFees_after_claim (hb : b.Balanced) (r : Roster) (i : UInt8)
    (caller : Key) (amount : Amount) :
    b.KeepsFees ((Membership.claim i caller amount).after ⟨b, r⟩).bridge := by
  refine Action.after_induct (P := fun m : Membership => b.KeepsFees m.bridge)
    (fun _ m' h => ?_) fun f m' h => ?_
  · exact keepsFees_of_payCompensation (Membership.claim_eq_ok h).2.2
  · rw [hb.claim_eq_error h]
    exact .refl b

/-! ## Steps that are not about fees -/

theorem keepsFees_after_confirm (b : Bridge) (message : OutboundMessage) (roster : Roster)
    (attestations : List Attestation) (verify : Verifier) :
    b.KeepsFees ((Settlement.confirm roster attestations verify).after ⟨b, message⟩).bridge := by
  refine Action.after_induct (P := fun s : Settlement => b.KeepsFees s.bridge)
    (fun _ s' h => ?_) fun f s' h => ?_
  · rw [(releaseValue_eq_ok (Settlement.confirm_eq_ok h).2.2.2.2).2]
    exact ⟨rfl, rfl⟩
  · rw [Settlement.bridge_of_confirm_eq_error h]
    exact .refl b

theorem keepsFees_after_reclaim (b : Bridge) (message : OutboundMessage) (caller : Key)
    (now : Slot) : b.KeepsFees ((Settlement.reclaim caller now).after ⟨b, message⟩).bridge := by
  refine Action.after_induct (P := fun s : Settlement => b.KeepsFees s.bridge)
    (fun _ s' h => ?_) fun f s' h => ?_
  · rw [(releaseValue_eq_ok (Settlement.reclaim_eq_ok h).2.2.2.2.2).2]
    exact ⟨rfl, rfl⟩
  · rw [Settlement.bridge_of_reclaim_eq_error h]
    exact .refl b

/-! ## Calls -/

/-- What can be done next to a bridge record.  The other records come with the call. -/
inductive Call where
  | queue (chain : Chain) (sponsor : Option Sponsor) (sender : Key) (q : SendRequest)
      (now : Slot)
  | recordSend (fee value : Amount) (sponsored : Bool)
  | payCompensation (amount : Amount)
  | claim (roster : Roster) (index : UInt8) (caller : Key) (amount : Amount)
  | unregister (roster : Roster) (index : UInt8) (caller : Key)
  | remove (roster : Roster) (actor : Key) (index : UInt8)
  | confirm (message : OutboundMessage) (roster : Roster) (attestations : List Attestation)
      (verify : Verifier)
  | reclaim (message : OutboundMessage) (caller : Key) (now : Slot)
  | holdSponsorFunds (amount : Amount)
  | releaseSponsorFunds (amount : Amount)
  | setFeeSchedule (actor : Key) (fees : FeeSchedule)
  | setAuthority (actor newAuthority : Key)

/-- A step that is not a send. -/
def noSend {α : Type} (step : Action Bridge α) : Action Bridge (Option Amount) := do
  let _ ← step
  return none

/-- Make a call.  A send tells the fee that it took. -/
def Call.run : Call → Action Bridge (Option Amount)
  | queue chain sponsor sender q now => do
    let m ← (Outbox.queue sender q now).on (fun b => ⟨b, chain, sponsor⟩) fun o _ => o.bridge
    return some m.fee
  | recordSend fee value sponsored => do
    let _ ← Bridge.recordSend fee value sponsored
    return some fee
  | payCompensation amount => noSend (Bridge.payCompensation amount)
  | claim roster index caller amount =>
    noSend ((Membership.claim index caller amount).on (fun b => ⟨b, roster⟩) fun m _ => m.bridge)
  | unregister roster index caller =>
    noSend ((Membership.unregister index caller).on (fun b => ⟨b, roster⟩) fun m _ => m.bridge)
  | remove roster actor index =>
    noSend ((Membership.remove actor index).on (fun b => ⟨b, roster⟩) fun m _ => m.bridge)
  | confirm message roster attestations verify =>
    noSend ((Settlement.confirm roster attestations verify).on (fun b => ⟨b, message⟩)
      fun s _ => s.bridge)
  | reclaim message caller now =>
    noSend ((Settlement.reclaim caller now).on (fun b => ⟨b, message⟩) fun s _ => s.bridge)
  | holdSponsorFunds amount => noSend (Bridge.holdSponsorFunds amount)
  | releaseSponsorFunds amount => noSend (Bridge.releaseSponsorFunds amount)
  | setFeeSchedule actor fees => noSend (Governance.setFeeSchedule actor fees)
  | setAuthority actor newAuthority => noSend (Governance.setAuthority actor newAuthority)

/-- The fee that a call took, if it is a send and gave a result. -/
def Call.taken (c : Call) (b : Bridge) : List Amount :=
  match c.run.result b with
  | .ok (some fee) => [fee]
  | _ => []

/-- The bridge record after calls, of which some may have failed. -/
def afterCalls (b : Bridge) (calls : List Call) : Bridge :=
  calls.foldl (fun b c => c.run.after b) b

/-- The fees that calls took, one for each send that gave a result. -/
def takenFees (b : Bridge) : List Call → List Amount
  | [] => []
  | c :: calls => c.taken b ++ takenFees (c.run.after b) calls

/-- The sum of amounts, which may be more than 64 bits hold. -/
def total (amounts : List Amount) : Nat := (amounts.map UInt64.toNat).sum

/-- **What a call does to the fees**: the books stay balanced, and what it took is collected. -/
structure Collects (b : Bridge) (taken : List Amount) (b' : Bridge) : Prop where
  balanced : b'.Balanced
  collected : b'.feesCollected.toNat = b.feesCollected.toNat + total taken

theorem collects_of_recordSend {fee value : Amount} {sponsored : Bool} {nonce : Nonce}
    (hb : b.Balanced) (h : recordSend fee value sponsored b = .ok nonce b') :
    b.Collects [fee] b' := by
  obtain ⟨-, -, hpool, -, -, hcollected, hb'⟩ := recordSend_eq_ok h
  have hclaimed : b'.compensationClaimed = b.compensationClaimed := by rw [hb']
  refine ⟨?_, by simpa [total] using hcollected⟩
  unfold Balanced at *
  rw [hclaimed]
  omega

/-- A call that is no send takes nothing. -/
theorem Balanced.collects_noSend {α : Type} {c : Call} {step : Action Bridge α} (hb : b.Balanced)
    (hrun : c.run = noSend step) (hkeeps : b.KeepsFees (step.after b)) :
    b.Collects (c.taken b) (c.run.after b) := by
  have htaken : c.taken b = [] := by
    unfold Call.taken
    rw [hrun, noSend, Action.result_bind_pure]
    cases step.result b <;> rfl
  rw [htaken, hrun, noSend, Action.after_bind_pure]
  exact ⟨hb.keep hkeeps, by rw [hkeeps.collected]; rfl⟩

/-- The same of a call on more than the bridge record. -/
theorem Balanced.collects_part {τ α : Type} {c : Call} {part : Bridge → τ}
    {putBack : τ → Bridge → Bridge} {step : Action τ α} (hb : b.Balanced)
    (hrun : c.run = noSend (step.on part putBack))
    (hkeeps : b.KeepsFees (putBack (step.after (part b)) b)) :
    b.Collects (c.taken b) (c.run.after b) := by
  refine hb.collects_noSend hrun ?_
  rw [Action.after_on]
  exact hkeeps

/-- A call that is a send takes its fee if it gives a result, and changes nothing otherwise. -/
theorem Balanced.collects_send {α : Type} {c : Call} {step : Action Bridge α} (fee : α → Amount)
    (hb : b.Balanced) (hrun : c.run = do let a ← step; return some (fee a))
    (hok : ∀ a b', step b = .ok a b' → b.Collects [fee a] b')
    (herr : ∀ f b', step b = .error f b' → b' = b) :
    b.Collects (c.taken b) (c.run.after b) := by
  unfold Call.taken
  rw [hrun, Action.result_bind_pure, Action.after_bind_pure]
  cases h : step b with
  | ok a b' =>
    rw [Action.result_of_ok h, Action.after_of_ok h]
    exact hok a b' h
  | error f b' =>
    rw [Action.result_of_error h, Action.after_of_error h, herr f b' h]
    exact ⟨hb, rfl⟩

/-- **Every call keeps the books balanced.** -/
theorem Balanced.collects (hb : b.Balanced) (c : Call) :
    b.Collects (c.taken b) (c.run.after b) := by
  cases c with
  | queue chain sponsor sender q now =>
    refine hb.collects_send OutboundMessage.fee rfl (fun m b' h => ?_) fun f b' h => ?_
    · obtain ⟨o, hqueue, rfl⟩ := Action.on_eq_ok.1 h
      exact collects_of_recordSend hb (Outbox.queued_of_queue hqueue).counted
    · obtain ⟨o, hqueue, rfl⟩ := Action.on_eq_error.1 h
      rw [Outbox.queue_eq_error hqueue]
  | recordSend fee value sponsored =>
    exact hb.collects_send (fun _ => fee) rfl
      (fun _ _ h => collects_of_recordSend hb h) fun _ _ h => recordSend_eq_error h
  | payCompensation amount => exact hb.collects_noSend rfl (hb.keepsFees_after_payCompensation _)
  | claim roster index caller amount =>
    exact hb.collects_part rfl (hb.keepsFees_after_claim roster index caller amount)
  | unregister roster index caller =>
    exact hb.collects_part rfl (hb.keepsFees_after_unregister roster index caller)
  | remove roster actor index =>
    exact hb.collects_part rfl (hb.keepsFees_after_remove roster actor index)
  | confirm message roster attestations verify =>
    exact hb.collects_part rfl (keepsFees_after_confirm b message roster attestations verify)
  | reclaim message caller now =>
    exact hb.collects_part rfl (keepsFees_after_reclaim b message caller now)
  | holdSponsorFunds amount =>
    refine hb.collects_noSend rfl (.after (fun _ b' h => ?_) fun _ _ h => ?_)
    · rw [(holdSponsorFunds_eq_ok h).2]
      exact ⟨rfl, rfl⟩
    · exact holdSponsorFunds_eq_error h
  | releaseSponsorFunds amount =>
    refine hb.collects_noSend rfl (.after (fun _ b' h => ?_) fun _ _ h => ?_)
    · rw [(releaseSponsorFunds_eq_ok h).2]
      exact ⟨rfl, rfl⟩
    · exact releaseSponsorFunds_eq_error h
  | setFeeSchedule actor fees =>
    refine hb.collects_noSend rfl (.after (fun _ b' h => ?_) fun _ _ h => ?_)
    · rw [(Governance.setFeeSchedule_eq_ok h).2]
      exact ⟨rfl, rfl⟩
    · exact Governance.setFeeSchedule_eq_error h
  | setAuthority actor newAuthority =>
    refine hb.collects_noSend rfl (.after (fun _ b' h => ?_) fun _ _ h => ?_)
    · rw [(Governance.setAuthority_eq_ok h).2.2]
      exact ⟨rfl, rfl⟩
    · exact Governance.setAuthority_eq_error h

/-! ## Runs -/

/-- Every run keeps the books balanced: by induction on the calls. -/
theorem Balanced.afterCalls (hb : b.Balanced) (calls : List Call) :
    b.Collects (b.takenFees calls) (b.afterCalls calls) := by
  induction calls generalizing b with
  | nil => exact ⟨hb, rfl⟩
  | cons c calls ih =>
    have hcall := hb.collects c
    have hrest := ih hcall.balanced
    refine ⟨hrest.balanced, ?_⟩
    show ((c.run.after b).afterCalls calls).feesCollected.toNat =
      b.feesCollected.toNat + total (c.taken b ++ (c.run.after b).takenFees calls)
    rw [hrest.collected, hcall.collected, total, total, total, List.map_append, List.sum_append,
      Nat.add_assoc]

/-- **Fees are conserved.**  After any calls on a new bridge, of which any may have failed: what
was collected is in the pool or was paid out, and is the sum of the fees of the sends that gave a
result.  So the running total of payments always fits: a payment is made where the pool covers
it, and refused with nothing changed where it does not; and a claim that fails leaves the bridge
record and the roster, whatever that is, as they were. -/
theorem fees_conserved {authority : Key} {identity : Address} {settings : Settings}
    {start : Bridge} (hcreate : create authority identity settings = .ok start)
    (calls : List Call) :
    let b := start.afterCalls calls
    b.pool.toNat + b.compensationClaimed.toNat = b.feesCollected.toNat ∧
      b.feesCollected.toNat = total (start.takenFees calls) ∧
      (∀ amount, amount ≤ b.pool → ∃ b', payCompensation amount b = .ok () b') ∧
      (∀ amount f b', payCompensation amount b = .error f b' →
        b.pool < amount ∧ f = .refused .insufficientPoolBalance ∧ b' = b) ∧
      ∀ roster index caller amount f m',
        Membership.claim index caller amount ⟨b, roster⟩ = .error f m' → m' = ⟨b, roster⟩ := by
  intro b
  have hrun := (balanced_of_create hcreate).afterCalls calls
  have hstart : start.feesCollected = 0 := (create_eq_ok hcreate).2.2.2.1
  refine ⟨hrun.balanced, ?_, ?_, ?_, ?_⟩
  · have hcollected := hrun.collected
    rwa [hstart, UInt64.toNat_zero, Nat.zero_add] at hcollected
  · exact fun amount hle => hrun.balanced.payCompensation_eq_ok hle
  · exact fun amount f b' h => hrun.balanced.payCompensation_eq_error h
  · exact fun roster index caller amount f m' h => hrun.balanced.claim_eq_error h

/-- A fee of five is taken and a payment of three made; then a send whose sponsor has no funds
fails, and so does a payment that the pool does not cover. -/
theorem fees_conserved_after_payments :
    let settings : Settings := { hostChain := 1, epochLength := 1, reclaimAfter := 1 }
    let calls : List Call :=
      [.recordSend 5 0 false, .payCompensation 3, .recordSend 1 0 true, .payCompensation 3]
    ∃ start, create .zero .zero settings = .ok start ∧ start.takenFees calls = [5] ∧
      (start.afterCalls calls).pool = 2 ∧
      (start.afterCalls calls).pool.toNat + (start.afterCalls calls).compensationClaimed.toNat =
        (start.afterCalls calls).feesCollected.toNat := by
  intro settings calls
  have hcreate : create .zero .zero settings =
      .ok { hostChain := 1, epochLength := 1, reclaimAfter := 1 } := rfl
  exact ⟨_, hcreate, rfl, rfl, (fees_conserved hcreate calls).1⟩

end Bridge
end QuorumRelay
