import QuorumRelay.Proofs.Fees
import QuorumRelay.Proofs.Outbound.Locked
import QuorumRelay.Proofs.Seats
import QuorumRelay.Proofs.Stakes

/-!
# Operations that happen entirely or not at all

Thirteen operations send and settle messages, run the roster and govern.  Several
of them write before they have made their last check: a relayer's slot is emptied
before it is paid, its earnings are debited before the pool is, a message is
closed before its value is unlocked, and the books count a message before its
sponsor is charged.  This file proves that none of them stops in between.

## What keeps each late check from failing

Queueing asks the sponsor before it writes anything, so its late check repeats an
early one; this holds in any state (`Outbox.queue_eq_error`).  The others rest on
what the state is like.  Where the fees are balanced, a payment within the pool
is made.  Where the locked value is that of the open messages, the value of an
open one can be unlocked.  Where the vault's obligations fit into 64 bits, so
does what a relayer takes with it, which is a part of them.  Where the roster
counts its occupied slots, the count of a roster with room does not overflow.
These four make up `Records.Consistent`.

## Aborting

One way to stop half-way remains, and it is no result that an operation returns.
Registering seats a relayer and counts it then, in eight bits; with 255 occupied
slots and a free one the program aborts.  A roster that this program has built
has at most `maxRelayers` slots.
-/

namespace QuorumRelay

/-- A step on a part that fails with the part as it was leaves the record as it was. -/
theorem Action.eq_of_on_eq_error {σ τ α : Type} {part : σ → τ} {putBack : τ → σ → σ}
    {step : Action τ α} {s s' : σ} {f : Fault} (hput : putBack (part s) s = s)
    (hstep : ∀ t, step (part s) = .error f t → t = part s)
    (h : discard (step.on part putBack) s = .error f s') : s' = s := by
  obtain ⟨t, ht, rfl⟩ := on_eq_error.1 (discard_eq_error.1 h)
  rw [hstep t ht, hput]

/-! ## Joining and leaving -/

/-- Registering fails with the roster as it was, or aborts because the count is at its end. -/
theorem Roster.register_eq_error_or_aborted {r r' : Roster} {owner publicKey : Key}
    {stake minimumStake : Amount} {now : Slot} {f : Fault}
    (h : register owner publicKey stake minimumStake now r = .error f r') :
    r' = r ∨ f = .aborted ∧ r.active = 255 := by
  by_cases hactive : r.active = 255
  · unfold register at h
    rw [get_bind] at h
    refine eq_or_of_require_bind_eq_error h fun h => ?_
    refine eq_or_of_require_bind_eq_error h fun h => ?_
    rcases bind_eq_error.1 h with hplace | ⟨n, seated, hplace, h⟩
    · exact .inl (place_eq_error hplace)
    · rw [get_bind, active_of_place hplace, if_pos hactive, throw_bind] at h
      cases h
      exact .inr ⟨rfl, hactive⟩
  · exact .inl (register_refuses hactive f r' h).1

namespace Membership

variable {r r' : Roster} {b b' : Bridge} {m m' : Membership} {f : Fault} {actor caller : Key}
  {i : UInt8} {e : Relayer}

theorem register_eq_error_or_aborted {council : Council} {minimumStake stake : Amount}
    {owner publicKey : Key} {now : Slot}
    (h : register council actor minimumStake owner publicKey stake now r = .error f r') :
    r' = r ∨ f = .aborted ∧ r.active = 255 := by
  unfold register at h
  exact eq_or_of_lift_bind_eq_error h fun _ _ h => Roster.register_eq_error_or_aborted h

theorem updateThreshold_eq_error {council : Council} {required : UInt8}
    (h : updateThreshold council actor required r = .error f r') : r' = r := by
  unfold updateThreshold at h
  rcases lift_bind_eq_error.1 h with ⟨-, rfl⟩ | ⟨_, -, h⟩
  · rfl
  · exact Roster.setThreshold_eq_error h

/-- **A relayer that leaves is paid**, if the fees are balanced and its stake fits with the pool. -/
theorem settle_ne_error (hb : b.Balanced) (hfits : b.pool.toNat + e.stake.toNat < UInt64.size) :
    ¬ settle i e b = .error f b' := by
  have hle : min e.earned b.pool ≤ b.pool := Amount.min_le_right _ _
  have hfits' : e.stake.toNat + b.pool.toNat < UInt64.size := by omega
  obtain ⟨payout, hpayout⟩ : ∃ payout, e.stake.plus (min e.earned b.pool) = .ok payout :=
    Amount.exists_plus_min hfits'
  intro h
  unfold settle at h
  rw [get_bind] at h
  rcases bind_eq_error.1 h with hpay | ⟨_, b₁, -, h⟩
  · exact absurd hle (UInt64.not_le.2 (hb.payCompensation_eq_error hpay).1)
  · simp only [hpayout, lift_bind_eq_error, reduceCtorEq, false_and, pure_ne_error, and_false,
      exists_false, or_self] at h

/-- Whoever leaves, on whatever word, does so entirely or not at all. -/
theorem eq_of_leave_eq_error {leave : Action Roster Relayer} (hb : b.Balanced)
    (hleave : ∀ r', leave r = .error f r' → r' = r)
    (hfits : ∀ e r', leave r = .ok e r' → b.pool.toNat + e.stake.toNat < UInt64.size)
    (h : (onRoster leave >>= fun e => onBridge (settle i e)) ⟨b, r⟩ = .error f m') :
    m' = ⟨b, r⟩ := by
  unfold onRoster onBridge at h
  simp only [bind_eq_error, Action.on_eq_ok, Action.on_eq_error] at h
  rcases h with ⟨r', hfailed, rfl⟩ | ⟨e, _, ⟨r', hleft, rfl⟩, b', hsettle, -⟩
  · rw [hleave r' hfailed]
  · exact absurd hsettle (settle_ne_error hb (hfits e r' hleft))

end Membership

/-- The records that the operations work on, with the sponsor that pays if a send is sponsored
and the message that is settled. -/
structure Records where
  bridge : Bridge
  chain : Chain
  roster : Roster
  sponsor : Sponsor
  message : OutboundMessage

namespace Records

/-- The operations, with what they are asked. -/
inductive Call where
  | queue (sponsored : Bool) (sender : Key) (q : SendRequest) (now : Slot)
  | pickUp (caller : Key)
  | confirm (attestations : List Attestation) (verify : Verifier)
  | reclaim (caller : Key) (now : Slot)
  | register (council : Council) (actor owner publicKey : Key) (stake : Amount) (now : Slot)
  | unregister (index : UInt8) (caller : Key)
  | remove (actor : Key) (index : UInt8)
  | updateThreshold (council : Council) (actor : Key) (required : UInt8)
  | claim (index : UInt8) (caller : Key) (amount : Amount)
  | configureChain (council : Council) (actor : Key) (id : ChainId) (limits : Chain.Limits)
  | setChainActive (council : Council) (actor : Key) (active : Bool)
  | setFeeSchedule (actor : Key) (fees : FeeSchedule)
  | setAuthority (actor newAuthority : Key)

/-! ## Operations on parts of the records -/

def onBridge {α : Type} (step : Action Bridge α) : Action Records Unit :=
  discard (step.on Records.bridge fun bridge s => { s with bridge })

def onChain {α : Type} (step : Action Chain α) : Action Records Unit :=
  discard (step.on Records.chain fun chain s => { s with chain })

def onRoster {α : Type} (step : Action Roster α) : Action Records Unit :=
  discard (step.on Records.roster fun roster s => { s with roster })

def onMessage {α : Type} (step : Action OutboundMessage α) : Action Records Unit :=
  discard (step.on Records.message fun message s => { s with message })

def onMembership {α : Type} (step : Action Membership α) : Action Records Unit :=
  discard (step.on (fun s => ⟨s.bridge, s.roster⟩) fun m s =>
    { s with bridge := m.bridge, roster := m.roster })

def onSettlement {α : Type} (step : Action Settlement α) : Action Records Unit :=
  discard (step.on (fun s => ⟨s.bridge, s.message⟩) fun t s =>
    { s with bridge := t.bridge, message := t.message })

/-- What queueing works on: the sponsor is a part of it if it is to pay. -/
def outbox (sponsored : Bool) (s : Records) : Outbox where
  bridge := s.bridge
  chain := s.chain
  sponsor := if sponsored then some s.sponsor else none

def onOutbox {α : Type} (sponsored : Bool) (step : Action Outbox α) : Action Records Unit :=
  discard (step.on (outbox sponsored) fun o s =>
    { s with bridge := o.bridge, chain := o.chain, sponsor := o.sponsor.getD s.sponsor })

/-- Make a call, without looking at its result. -/
def Call.run (c : Call) (s : Records) : EStateM.Result Fault Records Unit :=
  match c with
  | queue sponsored sender q now => onOutbox sponsored (Outbox.queue sender q now) s
  | pickUp caller => onMessage (OutboundMessage.pickUp s.roster caller) s
  | confirm attestations verify =>
    onSettlement (Settlement.confirm s.roster attestations verify) s
  | reclaim caller now => onSettlement (Settlement.reclaim caller now) s
  | register council actor owner publicKey stake now =>
    onRoster (Membership.register council actor s.bridge.minimumStake owner publicKey stake now) s
  | unregister index caller => onMembership (Membership.unregister index caller) s
  | remove actor index => onMembership (Membership.remove actor index) s
  | updateThreshold council actor required =>
    onRoster (Membership.updateThreshold council actor required) s
  | claim index caller amount => onMembership (Membership.claim index caller amount) s
  | configureChain council actor id limits =>
    onChain (Governance.configureChain council actor id limits) s
  | setChainActive council actor active =>
    onChain (Governance.setChainActive council actor active) s
  | setFeeSchedule actor fees => onBridge (Governance.setFeeSchedule actor fees) s
  | setAuthority actor newAuthority => onBridge (Governance.setAuthority actor newAuthority) s

theorem putBack_outbox (sponsored : Bool) (s : Records) :
    { s with
      bridge := (s.outbox sponsored).bridge, chain := (s.outbox sponsored).chain
      sponsor := (s.outbox sponsored).sponsor.getD s.sponsor } = s := by
  cases sponsored <;> rfl

/-! ## Consistent records -/

/-- **The records agree with each other** and with the messages that were queued. -/
structure Consistent (queued : List OutboundMessage) (s : Records) : Prop where
  fees : s.bridge.pool.toNat + s.bridge.compensationClaimed.toNat = s.bridge.feesCollected.toNat
  locked : s.bridge.lockedValue.toNat = openValue queued
  /-- The message that is settled is one of these, or it is closed. -/
  message : s.message.status.isOpen = true → s.message ∈ queued
  fits : s.bridge.pool.toNat + s.bridge.lockedValue.toNat + s.bridge.sponsorFunds.toNat +
    s.roster.staked < UInt64.size
  active : s.roster.active.toNat = s.roster.relayers.length

variable {queued : List OutboundMessage} {s s' : Records} {f : Fault}

/-- A relayer that leaves takes a part of what the vault owes. -/
theorem Consistent.stake_fits (hs : s.Consistent queued) {i : UInt8} {e : Relayer} {r' : Roster}
    (h : Roster.remove i s.roster = .ok e r') :
    s.bridge.pool.toNat + e.stake.toNat < UInt64.size := by
  have hstake := (Roster.remove_eq_ok h).1.stake_le
  have hfits := hs.fits
  omega

theorem Consistent.unregister_eq_error (hs : s.Consistent queued) {i : UInt8} {caller : Key}
    {m' : Membership}
    (h : Membership.unregister i caller ⟨s.bridge, s.roster⟩ = .error f m') :
    m' = ⟨s.bridge, s.roster⟩ :=
  Membership.eq_of_leave_eq_error hs.fees (fun _ h => Roster.unregister_eq_error h)
    (fun _ _ h => hs.stake_fits (Roster.unregister_eq_ok h).2) h

theorem Consistent.remove_eq_error (hs : s.Consistent queued) {actor : Key} {i : UInt8}
    {m' : Membership} (h : Membership.remove actor i ⟨s.bridge, s.roster⟩ = .error f m') :
    m' = ⟨s.bridge, s.roster⟩ := by
  unfold Membership.remove at h
  rw [get_bind] at h
  rcases lift_bind_eq_error.1 h with ⟨-, rfl⟩ | ⟨_, -, h⟩
  · rfl
  · exact Membership.eq_of_leave_eq_error hs.fees (fun _ h => Roster.remove_eq_error h)
      (fun _ _ h => hs.stake_fits h) h

/-- The value of an open message is in the books. -/
theorem Consistent.value_le (hs : s.Consistent queued) (hopen : s.message.status.isOpen = true) :
    s.message.value ≤ s.bridge.lockedValue := by
  rw [UInt64.le_iff_toNat_le, hs.locked, ← OutboundMessage.locked_of_open hopen]
  exact le_sum_map OutboundMessage.locked (hs.message hopen)

theorem Consistent.confirm_eq_error (hs : s.Consistent queued) {attestations : List Attestation}
    {verify : Verifier} {t : Settlement}
    (h : Settlement.confirm s.roster attestations verify ⟨s.bridge, s.message⟩ = .error f t) :
    t = ⟨s.bridge, s.message⟩ := by
  rcases Settlement.confirm_eq_error h with heq | ⟨-, hopen, hlt⟩
  · exact heq
  · exact absurd (hs.value_le hopen) (UInt64.not_le.2 hlt)

theorem Consistent.reclaim_eq_error (hs : s.Consistent queued) {caller : Key} {now : Slot}
    {t : Settlement}
    (h : Settlement.reclaim caller now ⟨s.bridge, s.message⟩ = .error f t) :
    t = ⟨s.bridge, s.message⟩ := by
  rcases Settlement.reclaim_eq_error h with heq | ⟨hopen, hlt⟩
  · exact heq
  · exact absurd (hs.value_le hopen) (UInt64.not_le.2 hlt)

/-- **A send that fails changes nothing**, whatever the records are like. -/
theorem eq_of_queue_eq_error {sponsored : Bool} {sender : Key} {q : SendRequest} {now : Slot}
    (h : (Call.queue sponsored sender q now).run s = .error f s') : s' = s :=
  Action.eq_of_on_eq_error (putBack_outbox sponsored s) (fun _ h => Outbox.queue_eq_error h) h

/-- **A call that fails on consistent records changes nothing**, unless it aborts. -/
theorem Consistent.eq_or_aborted (hs : s.Consistent queued) {c : Call}
    (h : c.run s = .error f s') :
    s' = s ∨ f = .aborted ∧ s.roster.relayers.length = 255 := by
  cases c with
  | queue => exact .inl (eq_of_queue_eq_error h)
  | pickUp =>
    exact .inl (Action.eq_of_on_eq_error rfl (fun _ h => OutboundMessage.pickUp_eq_error h) h)
  | confirm => exact .inl (Action.eq_of_on_eq_error rfl (fun _ h => hs.confirm_eq_error h) h)
  | reclaim => exact .inl (Action.eq_of_on_eq_error rfl (fun _ h => hs.reclaim_eq_error h) h)
  | register =>
    obtain ⟨r', hregister, rfl⟩ := Action.on_eq_error.1 (discard_eq_error.1 h)
    rcases Membership.register_eq_error_or_aborted hregister with rfl | ⟨hf, hfull⟩
    · exact .inl rfl
    · exact .inr ⟨hf, by rw [← hs.active, hfull]; rfl⟩
  | unregister =>
    exact .inl (Action.eq_of_on_eq_error rfl (fun _ h => hs.unregister_eq_error h) h)
  | remove => exact .inl (Action.eq_of_on_eq_error rfl (fun _ h => hs.remove_eq_error h) h)
  | updateThreshold =>
    exact .inl (Action.eq_of_on_eq_error rfl
      (fun _ h => Membership.updateThreshold_eq_error h) h)
  | claim =>
    exact .inl (Action.eq_of_on_eq_error rfl
      (fun _ h => Bridge.Balanced.claim_eq_error hs.fees h) h)
  | configureChain =>
    exact .inl (Action.eq_of_on_eq_error rfl
      (fun _ h => Governance.configureChain_eq_error h) h)
  | setChainActive =>
    exact .inl (Action.eq_of_on_eq_error rfl
      (fun _ h => Governance.setChainActive_eq_error h) h)
  | setFeeSchedule =>
    exact .inl (Action.eq_of_on_eq_error rfl
      (fun _ h => Governance.setFeeSchedule_eq_error h) h)
  | setAuthority =>
    exact .inl (Action.eq_of_on_eq_error rfl (fun _ h => Governance.setAuthority_eq_error h) h)

/-- **Each operation happens entirely or not at all.**  A send that fails leaves the bridge, the
chain, the roster, the sponsor and the message as they were in any state.  Any other operation
that fails does so where the records are consistent; short of that is only an abort of the
program, which takes a roster with 255 occupied slots. -/
theorem all_or_nothing (s : Records) :
    (∀ sponsored sender q now f s',
      (Call.queue sponsored sender q now).run s = .error f s' → s' = s) ∧
    ∀ queued, s.Consistent queued → ∀ (c : Call) f s', c.run s = .error f s' →
      s' = s ∨ f = .aborted ∧ s.roster.relayers.length = 255 :=
  ⟨fun _ _ _ _ _ _ h => eq_of_queue_eq_error h, fun _ hs _ _ _ h => hs.eq_or_aborted h⟩

/-- One relayer with a stake, one open message and some fees. -/
def oneRelayer : Records where
  bridge := { pool := 3, compensationClaimed := 2, feesCollected := 5, lockedValue := 7 }
  chain := {}
  roster := { required := 1, active := 1, slots := [some { stake := 9, earned := 4 }] }
  sponsor := {}
  message := { value := 7, fee := 5 }

theorem consistent_oneRelayer : oneRelayer.Consistent [oneRelayer.message] where
  fees := rfl
  locked := rfl
  message := fun _ => List.mem_singleton.2 rfl
  fits := by decide
  active := rfl

/-- The relayer may not leave, since a quorum needs it, and nothing has changed. -/
theorem all_or_nothing_of_last_relayer :
    oneRelayer.Consistent [oneRelayer.message] ∧
      ∃ s', (Call.unregister 0 .zero).run oneRelayer = .error (.refused .thresholdTooHigh) s' ∧
        s' = oneRelayer := by
  obtain ⟨s', hrun⟩ : ∃ s', (Call.unregister 0 .zero).run oneRelayer =
      .error (.refused .thresholdTooHigh) s' := ⟨_, rfl⟩
  refine ⟨consistent_oneRelayer, s', hrun, ?_⟩
  rcases (all_or_nothing oneRelayer).2 _ consistent_oneRelayer _ _ _ hrun with heq | ⟨hf, -⟩
  · exact heq
  · cases hf

end Records
end QuorumRelay
