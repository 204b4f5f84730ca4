import QuorumRelay.Proofs.Estimate
import QuorumRelay.Proofs.Outbound.Queue

/-!
# What a message is queued for

`Outbox.acceptance` is the list of everything that is asked of a request, in the
order in which it is looked at.  `Outbox.queue_exactly` says that queueing goes by
this list and by nothing else: the message is queued exactly if all conditions
hold, with this record of it and these books, and fails otherwise for the first
condition that does not hold, with everything as it was.

A message whose sender pays and one that a sponsor pays go by one list, which has
three conditions more for the sponsor: its list of destinations, its balance, and
the funds that the bridge counts for all sponsors.

## A sponsor is asked twice

The sponsor is asked whether it can pay before the books are written, and once
more when it is charged.  The second question is not on the list: nothing that is
written in between touches the sponsor, so it cannot be answered in another way.
-/

namespace QuorumRelay

open Condition

/-! ## Sponsors -/

namespace Sponsor

variable {s : Sponsor} {target : Target} {fee : Amount}

/-- What is asked of a sponsor that is to pay a fee. -/
def conditions (s : Sponsor) (target : Target) (fee : Amount) : List Condition :=
  [requires (target ∈ s.targets) .targetNotSponsored,
   requires (fee ≤ s.balance) .insufficientSponsorBalance]

theorem checkCanPay_follows : Follows (s.checkCanPay target fee) (s.conditions target fee) :=
  .bind (C := [_]) .require fun _ _ => .require

end Sponsor

/-! ## The books -/

namespace Bridge

variable {b b' : Bridge} {fee value : Amount} {sponsored : Bool} {nonce : Nonce}

/-- What is asked of the books: the next nonce and the sums fit, and the sponsors' funds hold a
fee that a sponsor pays. -/
def conditions (b : Bridge) (fee value : Amount) (sponsored : Bool) : List Condition :=
  [requires (b.nextNonce.toNat + (1 : Nonce).toNat < UInt64.size) .arithmeticOverflow,
   requires (b.pool.toNat + fee.toNat < UInt64.size) .arithmeticOverflow,
   requires (b.feesCollected.toNat + fee.toNat < UInt64.size) .arithmeticOverflow,
   requires (b.lockedValue.toNat + value.toNat < UInt64.size) .arithmeticOverflow,
   requires (sponsored = true → fee ≤ b.sponsorFunds) .arithmeticOverflow]

/-- The books with one more message. -/
def sent (b : Bridge) (fee value : Amount) (sponsored : Bool) : Bridge :=
  { b with
    nextNonce := b.nextNonce + 1
    pool := b.pool + fee
    feesCollected := b.feesCollected + fee
    lockedValue := b.lockedValue + value
    sponsorFunds := if sponsored then b.sponsorFunds - fee else b.sponsorFunds }

theorem recordSend_follows :
    Follows ((recordSend fee value sponsored).result b) (b.conditions fee value sponsored) := by
  unfold recordSend Action.result
  rw [get_bind]
  refine .lift (C := [_]) Amount.plus_follows fun _ _ => ?_
  refine .lift (C := [_]) Amount.plus_follows fun _ _ => ?_
  refine .lift (C := [_]) Amount.plus_follows fun _ _ => ?_
  refine .lift (C := [_]) Amount.plus_follows fun _ _ => ?_
  rw [← List.append_nil [_]]
  -- only a fee that a sponsor pays comes out of the sponsors' funds
  cases sponsored with
  | true =>
    refine .lift (.single ?_ fun f h => ?_) fun funds _ => .unconditional rfl
    · simp [Amount.minus_eq_ok]
    · exact (Amount.minus_eq_error.1 h).2
  | false => exact .step (.single_step (by simp) (by simp)) fun funds _ _ => .unconditional rfl

/-- **What a message leaves in the books.** -/
theorem eq_sent_of_recordSend (h : recordSend fee value sponsored b = .ok nonce b') :
    nonce = b.nextNonce ∧ b' = b.sent fee value sponsored := by
  unfold recordSend at h
  simp only [get_bind, lift_bind_eq_ok, Amount.plus_eq_ok] at h
  obtain ⟨nextNonce, hnonce, pool, hpool, fees, hfees, locked, hlocked, h⟩ := h
  obtain ⟨-, rfl⟩ := Amount.eq_add_of_toNat hnonce
  obtain ⟨-, rfl⟩ := Amount.eq_add_of_toNat hpool
  obtain ⟨-, rfl⟩ := Amount.eq_add_of_toNat hfees
  obtain ⟨-, rfl⟩ := Amount.eq_add_of_toNat hlocked
  cases sponsored with
  | true =>
    simp only [if_true, lift_bind_eq_ok, set_bind, pure_eq_ok, Amount.minus_eq_ok] at h
    obtain ⟨_, ⟨-, rfl⟩, rfl, rfl⟩ := h
    exact ⟨rfl, rfl⟩
  | false =>
    simp only [Bool.false_eq_true, if_false, pure_bind, set_bind, pure_eq_ok] at h
    obtain ⟨rfl, rfl⟩ := h
    exact ⟨rfl, rfl⟩

end Bridge

/-! ## Queueing -/

namespace Outbox

variable {sender : Key} {q : SendRequest} {now : Slot} {o o' : Outbox} {m : OutboundMessage}
  {f : Fault}

/-- The fee that a request is charged. -/
def feeOf (o : Outbox) (q : SendRequest) : Amount :=
  .ofNat (o.bridge.fees.scaled o.chain.limits.feeMultiplier q.payload.length q.computeBudget)

/-- **What a request has to be like**, in the order in which it is looked at. -/
def acceptance (q : SendRequest) (now : Slot) (o : Outbox) : List Condition :=
  requires (o.chain.id = q.destinationChain) .chainMismatch ::
  o.chain.conditions q.payload.length q.computeBudget ++
  o.chain.outbound.conditions now o.bridge.epochLength o.chain.limits.rateLimit 1 ++
  [requires (o.bridge.fees.Fits o.chain.limits.feeMultiplier q.payload.length q.computeBudget)
    .arithmeticOverflow,
   requires (o.feeOf q ≤ q.maxFee) .insufficientFee] ++
  o.sponsor.elim [] (fun s => s.conditions q.target (o.feeOf q)) ++
  o.bridge.conditions (o.feeOf q) q.value o.sponsor.isSome

/-- The record of a queued message. -/
def message (sender : Key) (q : SendRequest) (now : Slot) (o : Outbox) : OutboundMessage where
  nonce := o.bridge.nextNonce
  destinationChain := q.destinationChain
  sender := sender
  destination := q.destination
  payload := q.payload
  value := q.value
  computeBudget := q.computeBudget
  fee := o.feeOf q
  feePayer := o.sponsor.elim .sender fun s => .sponsor s.owner
  createdAt := now
  status := .queued

/-- **The records that a queued message leaves**: the books have one message more, so has the
window, and a sponsor has paid the fee. -/
def posted (q : SendRequest) (now : Slot) (o : Outbox) : Outbox where
  bridge := o.bridge.sent (o.feeOf q) q.value o.sponsor.isSome
  chain := { o.chain with outbound := o.chain.outbound.grown now o.bridge.epochLength 1 }
  sponsor := o.sponsor.map fun s => { s with balance := s.balance - o.feeOf q }

/-- An estimate is the fee that is charged. -/
theorem eq_feeOf {fee : Amount}
    (h : o.bridge.estimateFee o.chain q.payload.length q.computeBudget = .ok fee) :
    fee = o.feeOf q := by
  rw [feeOf, ← (FeeSchedule.estimate_eq_ok.1 h).2, UInt64.ofNat_toNat]

theorem checkPays_follows {target : Sponsor.Target} {fee : Amount} : Follows
    (o.checkPays target fee) (o.sponsor.elim [] fun s => s.conditions target fee) := by
  unfold checkPays
  cases o.sponsor with
  | none => exact .pure ()
  | some s => exact Sponsor.checkCanPay_follows

/-- Charging asks for nothing, once the sponsor has been asked. -/
theorem charge_follows {target : Sponsor.Target} {fee : Amount}
    (hpay : ∀ s, o.sponsor = some s → s.checkCanPay target fee = .ok ()) :
    Follows ((charge target fee).result o) [] := by
  cases h : charge target fee o with
  | ok payer o' => exact .unconditional h
  | error f o' => exact absurd h (charge_ne_error hpay)

/-- Writing goes by what is asked of the books, once the sponsor has been asked. -/
theorem write_follows {window : RateWindow} {fee : Amount} {u : Unit}
    (hpays : o.checkPays q.target fee = .ok u) :
    Follows ((write sender q now window fee o.sponsor.isSome).result o)
      (o.bridge.conditions fee q.value o.sponsor.isSome) := by
  unfold write
  rw [← List.append_nil (Bridge.conditions _ _ _ _)]
  refine .step (.on Bridge.recordSend_follows) fun nonce o₁ hsend => ?_
  obtain ⟨b, -, rfl⟩ := Action.on_eq_ok.1 hsend
  refine .step (C := []) (.unconditional rfl) fun _ o₂ hset => ?_
  obtain ⟨-, rfl⟩ := modify_eq_ok.1 hset
  refine .step (C := []) (charge_follows fun s hs => ?_) fun payer _ _ => .unconditional rfl
  -- the sponsor is the one that was asked
  have hs : o.sponsor = some s := hs
  rwa [checkPays, hs] at hpays

/-- Queueing a message goes by its whole list. -/
theorem queue_follows : Follows ((queue sender q now).result o) (acceptance q now o) := by
  unfold Action.result
  rw [queue_apply]
  refine .demand fun _ => ?_
  refine .lift (C := [_]) Chain.checkActive_follows fun _ _ => ?_
  refine .lift (C := [_, _]) Chain.checkLimits_follows fun _ _ => ?_
  refine .lift (C := [_, _]) RateWindow.accept_follows fun window _ => ?_
  refine .lift (C := [_]) FeeSchedule.estimate_follows fun fee hfee => ?_
  obtain rfl := eq_feeOf hfee
  refine .demand fun _ => ?_
  exact .lift checkPays_follows fun _ hpays => write_follows hpays

/-- A queued message and what it leaves are what they have to be. -/
theorem Queued.eq_posted (h : Queued sender q now o m o') :
    m = o.message sender q now ∧ o' = o.posted q now := by
  obtain ⟨window, hwindow, hchain⟩ := h.window
  obtain ⟨hnonce, hbridge⟩ := Bridge.eq_sent_of_recordSend h.counted
  have hfee : m.fee = o.feeOf q := eq_feeOf h.fee
  rw [RateWindow.eq_grown_of_accept hwindow] at hchain
  obtain ⟨hpayer, hsponsor⟩ : m.feePayer = (o.message sender q now).feePayer ∧
      o'.sponsor = (o.posted q now).sponsor := by
    rcases h.paid with ⟨hnone, hpayer, hsponsor⟩ | ⟨s, charged, hs, hspend, hpayer, hsponsor⟩
    · exact ⟨by rw [hpayer, Outbox.message, hnone]; rfl, by rw [hsponsor, posted, hnone]; rfl⟩
    · obtain ⟨-, rfl⟩ := Sponsor.spend_eq_ok hspend
      exact ⟨by rw [hpayer, Outbox.message, hs]; rfl, by rw [hsponsor, posted, hs, hfee]; rfl⟩
  constructor
  · rw [h.message, hnonce, hfee, hpayer]
    rfl
  · rw [hfee] at hbridge
    obtain ⟨bridge, chain, sponsor⟩ := o'
    obtain rfl : bridge = _ := hbridge
    obtain rfl : chain = _ := hchain
    obtain rfl : sponsor = _ := hsponsor
    rfl

/-- **A message is queued exactly if all its conditions hold**, is then this message and leaves
these records; otherwise it fails for the first condition that does not hold, with everything as
it was. -/
theorem queue_exactly (sender : Key) (q : SendRequest) (now : Slot) (o : Outbox) :
    (∀ m o', queue sender q now o = .ok m o' ↔
      AllHold (acceptance q now o) ∧ m = o.message sender q now ∧ o' = o.posted q now) ∧
    ∀ f o', queue sender q now o = .error f o' ↔
      FirstFails (acceptance q now o) f ∧ o' = o := by
  have hok : ∀ m o', queue sender q now o = .ok m o' →
      m = o.message sender q now ∧ o' = o.posted q now :=
    fun m o' h => (queued_of_queue h).eq_posted
  have herror : ∀ f o', queue sender q now o = .error f o' → o' = o := fun f o' h =>
    queue_eq_error h
  exact queue_follows.exactly hok herror

end Outbox
end QuorumRelay
