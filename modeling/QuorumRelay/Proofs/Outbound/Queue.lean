import QuorumRelay.Outbound.Queue
import QuorumRelay.Proofs.Bridge
import QuorumRelay.Proofs.Roster

/-!
# What queueing and settling take and leave

Queueing a message writes to three records, settling one to two.  Each step is
opened here once, with what it leaves where it fails.

## Steps that look as if they could stop half-way

Three of the steps write before their last check.  Queueing counts the message
before it charges the sponsor; confirming and reclaiming set the status before
they take the value out of the books.

The first cannot stop there at all: the sponsor was asked whether it can pay, and
nothing has touched it since (`queue_eq_error`).  The other two would stop
half-way if the books held less than the message's value, and that alone is what
the lemmas here leave open (`confirm_eq_error`, `reclaim_eq_error`); that it never
happens is a statement about all messages at once.
-/

namespace QuorumRelay

variable {f : Fault} {u : Unit} {caller : Key}

namespace OutboundMessage

variable {m m' : OutboundMessage}

theorem confirm_eq_ok (h : confirm m = .ok u m') :
    m.status.isOpen = true ∧ m' = { m with status := .confirmed } := by
  unfold confirm at h
  simp only [get_bind, require_bind_eq_ok, set_eq_ok] at h
  exact ⟨h.1, h.2.symm⟩

theorem confirm_eq_error (h : confirm m = .error f m') : m' = m := by
  unfold confirm at h
  simp only [get_bind, require_bind_eq_error, set_ne_error, and_false, or_false] at h
  exact h.2.2.symm

theorem reclaim_eq_ok {now reclaimAfter : Slot} {value : Amount}
    (h : reclaim caller now reclaimAfter m = .ok value m') :
    m.sender = caller ∧ m.status.isOpen = true ∧ m.createdAt.later reclaimAfter ≤ now ∧
      value = m.value ∧ m' = { m with status := .failed } := by
  unfold reclaim at h
  simp only [get_bind, require_bind_eq_ok, set_bind, pure_eq_ok] at h
  obtain ⟨hsender, hopen, hlate, rfl, rfl⟩ := h
  exact ⟨hsender, hopen, hlate, rfl, rfl⟩

theorem reclaim_eq_error {now reclaimAfter : Slot}
    (h : reclaim caller now reclaimAfter m = .error f m') : m' = m := by
  unfold reclaim at h
  simp only [get_bind, require_bind_eq_error, set_bind, pure_ne_error, and_false, or_false] at h
  rcases h with ⟨-, -, rfl⟩ | ⟨-, ⟨-, -, rfl⟩ | ⟨-, -, -, rfl⟩⟩ <;> rfl

/-- Picking up moves a queued message on and changes nothing else. -/
theorem pickUp_eq_ok {roster : Roster} (h : pickUp roster caller m = .ok u m') :
    m.status = .queued ∧ m' = { m with status := .relayed } := by
  unfold pickUp markRelayed at h
  simp only [get_bind, require_bind_eq_ok, set_eq_ok] at h
  exact ⟨h.2.1, h.2.2.symm⟩

theorem pickUp_eq_error {roster : Roster} (h : pickUp roster caller m = .error f m') :
    m' = m := by
  unfold pickUp markRelayed at h
  simp only [get_bind, require_bind_eq_error, set_ne_error, and_false, or_false] at h
  rcases h with ⟨-, -, rfl⟩ | ⟨-, -, -, rfl⟩ <;> rfl

end OutboundMessage

namespace Settlement

variable {s s' : Settlement} {roster : Roster} {attestations : List Attestation}
  {verify : Verifier} {now : Slot}

/-- Confirming takes a quorum over the confirmation digest and an open message. -/
theorem confirm_eq_ok {digest : Digest}
    (h : confirm roster attestations verify s = .ok digest s') :
    digest = s.confirmationDigest ∧
      (∃ t, Quorum.check roster s.confirmationDigest attestations verify = .ok t) ∧
      s.message.status.isOpen = true ∧ s'.message = { s.message with status := .confirmed } ∧
      Bridge.releaseValue s.message.value s.bridge = .ok () s'.bridge := by
  unfold confirm onMessage onBridge at h
  simp only [get_bind, lift_bind_eq_ok, bind_eq_ok (x := Action.on _ _ _), Action.on_eq_ok,
    pure_eq_ok] at h
  obtain ⟨t, hquorum, _, _, ⟨m, hconfirm, rfl⟩, _, _, ⟨b, hrelease, rfl⟩, rfl, rfl⟩ := h
  obtain ⟨hopen, rfl⟩ := OutboundMessage.confirm_eq_ok hconfirm
  exact ⟨rfl, ⟨t, hquorum⟩, hopen, rfl, hrelease⟩

/-- Confirming fails with everything as it was, unless the quorum was there and the books hold
less than the value of an open message. -/
theorem confirm_eq_error (h : confirm roster attestations verify s = .error f s') :
    s' = s ∨ (∃ t, Quorum.check roster s.confirmationDigest attestations verify = .ok t) ∧
      s.message.status.isOpen = true ∧ s.bridge.lockedValue < s.message.value := by
  unfold confirm onMessage onBridge at h
  rw [get_bind] at h
  refine eq_or_of_lift_bind_eq_error h fun t hquorum h => ?_
  simp only [bind_eq_error (x := Action.on _ _ _), Action.on_eq_error, Action.on_eq_ok,
    pure_ne_error, and_false, exists_false, or_false] at h
  rcases h with ⟨m, hconfirm, rfl⟩ | ⟨_, _, ⟨m, hconfirm, rfl⟩, b, hrelease, rfl⟩
  · obtain rfl := OutboundMessage.confirm_eq_error hconfirm
    exact Or.inl rfl
  · exact Or.inr ⟨⟨t, hquorum⟩, (OutboundMessage.confirm_eq_ok hconfirm).1,
      (Bridge.releaseValue_eq_error hrelease).1⟩

/-- What a confirmation that fails has written, it has not written to the books. -/
theorem bridge_of_confirm_eq_error (h : confirm roster attestations verify s = .error f s') :
    s'.bridge = s.bridge := by
  unfold confirm onMessage onBridge at h
  simp only [get_bind, lift_bind_eq_error, bind_eq_error (x := Action.on _ _ _),
    Action.on_eq_error, Action.on_eq_ok, pure_ne_error, and_false, exists_false, or_false] at h
  rcases h with ⟨-, rfl⟩ | ⟨_, -, ⟨m, -, rfl⟩ | ⟨_, _, ⟨m, -, rfl⟩, b, hrelease, rfl⟩⟩
  · rfl
  · rfl
  · exact (Bridge.releaseValue_eq_error hrelease).2

/-- Reclaiming takes an open message of the caller whose time is over. -/
theorem reclaim_eq_ok {refund : Amount} (h : reclaim caller now s = .ok refund s') :
    s.message.sender = caller ∧ s.message.status.isOpen = true ∧
      s.message.createdAt.later s.bridge.reclaimAfter ≤ now ∧ refund = s.message.value ∧
      s'.message = { s.message with status := .failed } ∧
      Bridge.releaseValue s.message.value s.bridge = .ok () s'.bridge := by
  unfold reclaim onMessage onBridge at h
  simp only [get_bind, bind_eq_ok (x := Action.on _ _ _), Action.on_eq_ok, pure_eq_ok] at h
  obtain ⟨value, _, ⟨m, hreclaim, rfl⟩, _, _, ⟨b, hrelease, rfl⟩, rfl, rfl⟩ := h
  obtain ⟨hsender, hopen, hlate, rfl, rfl⟩ := OutboundMessage.reclaim_eq_ok hreclaim
  exact ⟨hsender, hopen, hlate, rfl, rfl, hrelease⟩

/-- Reclaiming fails with everything as it was, unless the books hold less than the value of an
open message. -/
theorem reclaim_eq_error (h : reclaim caller now s = .error f s') :
    s' = s ∨ s.message.status.isOpen = true ∧ s.bridge.lockedValue < s.message.value := by
  unfold reclaim onMessage onBridge at h
  simp only [get_bind, bind_eq_error (x := Action.on _ _ _), Action.on_eq_error, Action.on_eq_ok,
    pure_ne_error, and_false, exists_false, or_false] at h
  rcases h with ⟨m, hreclaim, rfl⟩ | ⟨value, _, ⟨m, hreclaim, rfl⟩, b, hrelease, rfl⟩
  · obtain rfl := OutboundMessage.reclaim_eq_error hreclaim
    exact Or.inl rfl
  · obtain ⟨-, hopen, -, rfl, -⟩ := OutboundMessage.reclaim_eq_ok hreclaim
    exact Or.inr ⟨hopen, (Bridge.releaseValue_eq_error hrelease).1⟩

/-- What a reclaim that fails has written, it has not written to the books. -/
theorem bridge_of_reclaim_eq_error (h : reclaim caller now s = .error f s') :
    s'.bridge = s.bridge := by
  unfold reclaim onMessage onBridge at h
  simp only [get_bind, bind_eq_error (x := Action.on _ _ _), Action.on_eq_error, Action.on_eq_ok,
    pure_ne_error, and_false, exists_false, or_false] at h
  rcases h with ⟨m, -, rfl⟩ | ⟨_, _, ⟨m, -, rfl⟩, b, hrelease, rfl⟩
  · rfl
  · exact (Bridge.releaseValue_eq_error hrelease).2

end Settlement

namespace Sponsor

variable {s s' : Sponsor} {target : Target} {fee amount : Amount}

@[simp] theorem checkCanPay_eq_ok :
    s.checkCanPay target fee = .ok u ↔ target ∈ s.targets ∧ fee ≤ s.balance := by
  unfold checkCanPay
  simp only [except_bind_eq_ok, require_eq_ok, exists_const]

/-- A fee comes out of the sponsor's balance. -/
theorem spend_eq_ok (h : spend target fee s = .ok u s') :
    (target ∈ s.targets ∧ fee ≤ s.balance) ∧ s' = { s with balance := s.balance - fee } := by
  unfold spend at h
  simp only [get_bind, lift_bind_eq_ok, checkCanPay_eq_ok, set_eq_ok, exists_const] at h
  exact ⟨h.1, h.2.symm⟩

/-- A sponsor that can pay pays. -/
theorem spend_ne_error (hpay : s.checkCanPay target fee = .ok ()) :
    ¬ spend target fee s = .error f s' := by
  unfold spend
  simp only [get_bind, lift_bind_eq_error, hpay, set_ne_error, and_false, exists_false, or_false,
    reduceCtorEq, false_and, not_false_eq_true]

theorem deposit_eq_ok (h : deposit amount s = .ok u s') :
    0 < amount ∧ s'.balance.toNat = s.balance.toNat + amount.toNat ∧
      s' = { s with balance := s'.balance } := by
  unfold deposit at h
  simp only [get_bind, require_bind_eq_ok, lift_bind_eq_ok, set_eq_ok, Amount.plus_eq_ok] at h
  obtain ⟨hpos, balance, hbalance, rfl⟩ := h
  exact ⟨hpos, hbalance, rfl⟩

theorem withdraw_eq_ok (h : withdraw amount s = .ok u s') :
    0 < amount ∧ amount ≤ s.balance ∧ s' = { s with balance := s.balance - amount } := by
  unfold withdraw at h
  simp only [get_bind, require_bind_eq_ok, set_eq_ok] at h
  exact ⟨h.1, h.2.1, h.2.2.symm⟩

end Sponsor

namespace Outbox

variable {o o' : Outbox} {sender : Key} {q : SendRequest} {now : Slot} {m : OutboundMessage}
  {target : Sponsor.Target} {fee : Amount}

/-- Charging a sponsor takes the fee from its balance; without one nothing is charged. -/
theorem charge_eq_ok {payer : FeePayer} (h : charge target fee o = .ok payer o') :
    (o.sponsor = none ∧ payer = .sender ∧ o' = o) ∨
      ∃ sponsor charged, o.sponsor = some sponsor ∧
        Sponsor.spend target fee sponsor = .ok () charged ∧ payer = .sponsor sponsor.owner ∧
        o' = { o with sponsor := some charged } := by
  unfold charge at h
  rw [get_bind] at h
  cases hsponsor : o.sponsor with
  | none =>
    simp only [hsponsor, pure_eq_ok] at h
    exact Or.inl ⟨rfl, h.1.symm, h.2.symm⟩
  | some sponsor =>
    simp only [hsponsor, bind_eq_ok, Action.on_eq_ok, pure_eq_ok] at h
    obtain ⟨_, _, ⟨charged, hspend, rfl⟩, rfl, rfl⟩ := h
    exact Or.inr ⟨sponsor, charged, rfl, hspend, rfl, rfl⟩

theorem charge_ne_error (hpay : ∀ sponsor, o.sponsor = some sponsor →
    sponsor.checkCanPay target fee = .ok ()) : ¬ charge target fee o = .error f o' := by
  unfold charge
  rw [get_bind]
  cases hsponsor : o.sponsor with
  | none => simp only [pure_ne_error, not_false_eq_true]
  | some sponsor =>
    simp only [bind_eq_error, Action.on_eq_error, pure_ne_error, and_false, exists_false, or_false]
    rintro ⟨charged, hspend, -⟩
    exact Sponsor.spend_ne_error (hpay sponsor hsponsor) hspend

/-- A message that is queued, and what that left in the records. -/
structure Queued (sender : Key) (q : SendRequest) (now : Slot) (o : Outbox) (m : OutboundMessage)
    (o' : Outbox) : Prop where
  chain : o.chain.id = q.destinationChain
  active : o.chain.active = true
  limits : o.chain.checkLimits q.payload.length q.computeBudget = .ok ()
  fee : o.bridge.estimateFee o.chain q.payload.length q.computeBudget = .ok m.fee
  fee_le : m.fee ≤ q.maxFee
  counted : Bridge.recordSend m.fee q.value o.sponsor.isSome o.bridge = .ok m.nonce o'.bridge
  window : ∃ window, o.chain.acceptOutbound now o.bridge.epochLength = .ok window ∧
    o'.chain = { o.chain with outbound := window }
  paid : (o.sponsor = none ∧ m.feePayer = .sender ∧ o'.sponsor = none) ∨
    ∃ sponsor charged, o.sponsor = some sponsor ∧
      Sponsor.spend q.target m.fee sponsor = .ok () charged ∧
      m.feePayer = .sponsor sponsor.owner ∧ o'.sponsor = some charged
  message : m = {
    nonce := m.nonce, sender, fee := m.fee, feePayer := m.feePayer
    destinationChain := q.destinationChain, destination := q.destination, payload := q.payload
    value := q.value, computeBudget := q.computeBudget, createdAt := now }

theorem Queued.value_eq {m : OutboundMessage} (h : Queued sender q now o m o') :
    m.value = q.value := by
  rw [h.message]

/-- Without a sponsor the sender pays. -/
theorem Queued.unsponsored {m : OutboundMessage} (h : Queued sender q now o m o')
    (hs : o.sponsor = none) : m.feePayer = .sender := by
  rcases h.paid with ⟨-, hpayer, -⟩ | ⟨s, charged, hsome, -⟩
  · exact hpayer
  · cases hs.symm.trans hsome

/-- **A sponsor pays the fee of a message** to a destination on its list, out of its balance. -/
theorem Queued.charged {m : OutboundMessage} {s s' : Sponsor} (h : Queued sender q now o m o')
    (hs : o.sponsor = some s) (hs' : o'.sponsor = some s') :
    q.target ∈ s.targets ∧ m.feePayer = .sponsor s.owner ∧ s'.owner = s.owner ∧
      s'.balance.toNat + m.fee.toNat = s.balance.toNat := by
  rcases h.paid with ⟨hnone, -⟩ | ⟨s₁, s₁', hsome, hspend, hpayer, hsome'⟩
  · cases hnone.symm.trans hs
  · obtain rfl := Option.some.inj (hsome.symm.trans hs)
    obtain rfl := Option.some.inj (hsome'.symm.trans hs')
    obtain ⟨⟨htarget, hle⟩, rfl⟩ := Sponsor.spend_eq_ok hspend
    exact ⟨htarget, hpayer, rfl, Amount.toNat_sub_add hle⟩

/-- The last check: a sponsor has to be able to pay. -/
def checkPays (o : Outbox) (target : Sponsor.Target) (fee : Amount) : Except Fault Unit :=
  match o.sponsor with
  | none => pure ()
  | some sponsor => sponsor.checkCanPay target fee

/-- What follows the checks: the books, the window and the sponsor's balance are written. -/
def write (sender : Key) (q : SendRequest) (now : Slot) (window : RateWindow) (fee : Amount)
    (sponsored : Bool) : Action Outbox OutboundMessage := do
  let nonce ← onBridge (Bridge.recordSend fee q.value sponsored)
  modify fun o => { o with chain := { o.chain with outbound := window } }
  let feePayer ← charge q.target fee
  return {
    nonce, sender, fee, feePayer
    destinationChain := q.destinationChain
    destination := q.destination
    payload := q.payload
    value := q.value
    computeBudget := q.computeBudget
    createdAt := now }

/-- Queueing is checking and then writing. -/
theorem queue_apply (sender : Key) (q : SendRequest) (now : Slot) (o : Outbox) :
    queue sender q now o = (do
      require (o.chain.id = q.destinationChain) .chainMismatch
      o.chain.checkActive
      o.chain.checkLimits q.payload.length q.computeBudget
      let window ← o.chain.acceptOutbound now o.bridge.epochLength
      let fee ← o.bridge.estimateFee o.chain q.payload.length q.computeBudget
      require (fee ≤ q.maxFee) .insufficientFee
      o.checkPays q.target fee
      write sender q now window fee o.sponsor.isSome : Action Outbox OutboundMessage) o := by
  unfold queue
  rw [get_bind]
  cases hsponsor : o.sponsor with
  | none =>
    unfold checkPays
    simp only [hsponsor]
    rfl
  | some sponsor =>
    unfold checkPays
    simp only [hsponsor]
    rfl

theorem queued_of_queue (h : queue sender q now o = .ok m o') : Queued sender q now o m o' := by
  rw [queue_apply] at h
  simp only [require_bind_eq_ok, lift_bind_eq_ok] at h
  obtain ⟨hchain, _, hactive, _, hlimits, window, hwindow, fee, hfee, hle, -, -, h⟩ := h
  unfold write onBridge at h
  simp only [bind_eq_ok (x := Action.on _ _ _), Action.on_eq_ok, modify_bind,
    bind_eq_ok (x := charge _ _), pure_eq_ok] at h
  obtain ⟨nonce, _, ⟨b, hsend, rfl⟩, payer, _, hcharge, rfl, rfl⟩ := h
  rcases charge_eq_ok hcharge with ⟨hnone, rfl, rfl⟩ | ⟨sponsor, charged, hs, hspend, rfl, rfl⟩
  · exact {
      chain := hchain, active := require_eq_ok.1 hactive, limits := hlimits, fee := hfee
      fee_le := hle, counted := hsend, window := ⟨window, hwindow, rfl⟩
      paid := Or.inl ⟨hnone, rfl, hnone⟩, message := rfl }
  · exact {
      chain := hchain, active := require_eq_ok.1 hactive, limits := hlimits, fee := hfee
      fee_le := hle, counted := hsend, window := ⟨window, hwindow, rfl⟩
      paid := Or.inr ⟨sponsor, charged, hs, hspend, rfl, rfl⟩, message := rfl }

/-- **A message that is not queued leaves everything as it was.** -/
theorem queue_eq_error (h : queue sender q now o = .error f o') : o' = o := by
  rw [queue_apply] at h
  have hnever : o' = o ∨ False := by
    refine eq_or_of_require_bind_eq_error h fun h => ?_
    refine eq_or_of_lift_bind_eq_error h fun _ _ h => ?_
    refine eq_or_of_lift_bind_eq_error h fun _ _ h => ?_
    refine eq_or_of_lift_bind_eq_error h fun window _ h => ?_
    refine eq_or_of_lift_bind_eq_error h fun fee _ h => ?_
    refine eq_or_of_require_bind_eq_error h fun h => ?_
    refine eq_or_of_lift_bind_eq_error h fun _ hpays h => ?_
    unfold write onBridge at h
    simp only [bind_eq_error (x := Action.on _ _ _), Action.on_eq_error, Action.on_eq_ok,
      modify_bind, bind_eq_error (x := charge _ _), pure_ne_error, and_false,
      exists_false, or_false] at h
    rcases h with ⟨b, hsend, rfl⟩ | ⟨nonce, _, ⟨b, hsend, rfl⟩, hcharge⟩
    · obtain rfl := Bridge.recordSend_eq_error hsend
      exact Or.inl rfl
    · -- the sponsor is the one that was asked, so the charge goes through
      refine absurd hcharge (charge_ne_error fun sponsor hsponsor => ?_)
      have hsponsor : o.sponsor = some sponsor := hsponsor
      rwa [checkPays, hsponsor] at hpays
  exact hnever.resolve_right id

end Outbox

end QuorumRelay
