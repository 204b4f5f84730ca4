import Mathlib.Data.List.Nodup
import QuorumRelay.Proofs.Membership
import QuorumRelay.Proofs.Outbound.Queue
import QuorumRelay.Registry

/-!
# The books know the open messages

The bridge keeps one number for the value of all open messages.  Queueing adds to
it, confirming and reclaiming take from it, and nothing compares it with the
messages again.  This file proves that it is right after any run: the number is
the sum of the values of the messages that are open (`Booked`).

## What depends on it

Confirming and reclaiming set a message's status before they take its value out
of the books.  Had the books less than that, the message would be closed and its
value still counted.  The invariant excludes it, since the value of an open
message is a part of the sum; so where the two fail, they leave everything as it
was.

A message that was closed is never open again, and only an open message can be
closed.  So its value leaves the books once, by a confirmation or by a reclaim.

## Runs without rollback

The steps of a run are asked for by anyone, in any order, on any of the messages
queued so far, and a step that fails leaves behind what it wrote.  Next to them
anything may happen to the records that are neither the bridge's nor a message's
(`Step.elsewhere`).
-/

namespace QuorumRelay

/-- The lamports that a message keeps locked. -/
def OutboundMessage.locked (m : OutboundMessage) : Nat :=
  if m.status.isOpen then m.value.toNat else 0

/-- The value of the open messages. -/
def openValue (messages : List OutboundMessage) : Nat :=
  (messages.map OutboundMessage.locked).sum

theorem openValue_set {messages : List OutboundMessage} {n : Nat} {m : OutboundMessage}
    (h : messages[n]? = some m) (m' : OutboundMessage) :
    openValue (messages.set n m') + m.locked = openValue messages + m'.locked :=
  sum_map_set _ h

namespace OutboundMessage

variable {m : OutboundMessage}

theorem locked_of_open (h : m.status.isOpen = true) : m.locked = m.value.toNat := by
  rw [locked, if_pos h]

theorem locked_of_closed (h : m.status.isOpen = false) : m.locked = 0 := by
  rw [locked, h]
  rfl

end OutboundMessage

/-- Changing the fees leaves the locked value alone. -/
theorem Governance.lockedValue_after_setFeeSchedule (actor : Key) (fees : FeeSchedule)
    (b : Bridge) : ((setFeeSchedule actor fees).after b).lockedValue = b.lockedValue := by
  refine Action.after_induct (P := fun b' : Bridge => b'.lockedValue = _) (fun _ b' h => ?_)
    fun f b' h => ?_
  · unfold setFeeSchedule at h
    simp only [get_bind, lift_bind_eq_ok, modify_eq_ok] at h
    obtain ⟨-, -, -, -, rfl⟩ := h
    rfl
  · unfold setFeeSchedule at h
    simp only [get_bind, lift_bind_eq_error, modify_ne_error, and_false, exists_false,
      or_false] at h
    rcases h with ⟨-, rfl⟩ | ⟨-, -, -, rfl⟩ <;> rfl

namespace Registry

variable {r r' : Registry} {f : Fault} {place : Nat}

/-! ## Runs -/

/-- The places of messages that a step on one of them closed: this one, if it gave a result. -/
def closedBy {α : Type} (place : Nat) (result : Except Fault α) : List Nat :=
  match result with
  | .ok _ => [place]
  | .error _ => []

/-- One step, asked for by anyone, with the places of the messages whose value it released. -/
inductive Step (r : Registry) : List Nat → Registry → Prop
  | queue (chainName : String) (sponsorName : Option String) (sender : Key) (q : SendRequest)
      (now : Slot) : Step r [] ((queue chainName sponsorName sender q now).after r)
  | pickUp (place : Nat) (queued : place < r.outbound.length) (roster : Roster) (caller : Key) :
      Step r [] (((Part.message place).run (OutboundMessage.pickUp roster caller)).after r)
  | confirm (place : Nat) (queued : place < r.outbound.length) (roster : Roster)
      (attestations : List Attestation) (verify : Verifier) :
      Step r
        (closedBy place
          (((Part.settlement place).run (Settlement.confirm roster attestations verify)).result r))
        (((Part.settlement place).run (Settlement.confirm roster attestations verify)).after r)
  | reclaim (place : Nat) (queued : place < r.outbound.length) (caller : Key) (now : Slot) :
      Step r
        (closedBy place (((Part.settlement place).run (Settlement.reclaim caller now)).result r))
        (((Part.settlement place).run (Settlement.reclaim caller now)).after r)
  | holdSponsorFunds (amount : Amount) :
      Step r [] ((Part.bridge.run (Bridge.holdSponsorFunds amount)).after r)
  | releaseSponsorFunds (amount : Amount) :
      Step r [] ((Part.bridge.run (Bridge.releaseSponsorFunds amount)).after r)
  | claim (index : UInt8) (caller : Key) (amount : Amount) :
      Step r [] ((Part.membership.run (Membership.claim index caller amount)).after r)
  | unregister (index : UInt8) (caller : Key) :
      Step r [] ((Part.membership.run (Membership.unregister index caller)).after r)
  | remove (actor : Key) (index : UInt8) :
      Step r [] ((Part.membership.run (Membership.remove actor index)).after r)
  | setFeeSchedule (actor : Key) (fees : FeeSchedule) :
      Step r [] ((Part.bridge.run (Governance.setFeeSchedule actor fees)).after r)
  /-- Records that are neither the bridge's nor a message's may change in any way. -/
  | elsewhere (roster : Roster) (chains : List (String × Chain))
      (sponsors : List (String × Sponsor)) (receipts : List (String × Receipt))
      (cursors : List (String × Cursor)) :
      Step r [] { r with roster, chains, sponsors, receipts, cursors }

/-- Any number of steps, with the places of the messages whose value they released. -/
inductive Run (start : Registry) : List Nat → Registry → Prop
  | refl : Run start [] start
  | tail {released more : List Nat} {r r' : Registry} (run : Run start released r)
      (step : Step r more r') : Run start (released ++ more) r'

/-! ## Parts that are put back -/

/-- What is put back after queueing is the bridge, a chain and a sponsor. -/
theorem put_outbox (chainName : String) (sponsorName : Option String) (o : Outbox)
    (r : Registry) : ∃ chains sponsors, (Part.outbox chainName sponsorName).put o r =
      { r with bridge := o.bridge, chains, sponsors } := by
  cases sponsorName with
  | none => exact ⟨_, _, rfl⟩
  | some name => cases h : o.sponsor <;> exact ⟨_, _, by simp [Part.outbox, Part.optional, h]; rfl⟩

/-- **Queueing adds its message to the log**, and writes the bridge that counted it. -/
theorem queue_eq_ok {chainName : String} {sponsorName : Option String} {sender : Key}
    {q : SendRequest} {now : Slot}
    (h : queue chainName sponsorName sender q now r = .ok place r') :
    ∃ o m, Outbox.queue sender q now ((Part.outbox chainName sponsorName).get r) = .ok m o ∧
      r'.bridge = o.bridge ∧ r'.roster = r.roster ∧ r'.outbound = r.outbound ++ [m] := by
  unfold queue Part.run at h
  simp only [bind_eq_ok (x := Action.on _ _ _), Action.on_eq_ok, get_bind, set_bind,
    pure_eq_ok] at h
  obtain ⟨m, _, ⟨o, hqueue, rfl⟩, -, rfl⟩ := h
  obtain ⟨chains, sponsors, hput⟩ := put_outbox chainName sponsorName o r
  rw [hput]
  exact ⟨o, m, hqueue, rfl, rfl, rfl⟩

/-! ## The invariant -/

/-- **The books are right**: the locked value is that of the open messages, and what was released
was released once and is closed. -/
structure Booked (released : List Nat) (r : Registry) : Prop where
  locked : r.bridge.lockedValue.toNat = openValue r.outbound
  nodup : released.Nodup
  closed : ∀ place ∈ released, ∃ m, r.outbound[place]? = some m ∧ m.status.isOpen = false

/-- What the invariant is about: the locked value and the messages. -/
theorem Booked.congr {released : List Nat} (h : Booked released r)
    (hlocked : r'.bridge.lockedValue = r.bridge.lockedValue)
    (houtbound : r'.outbound = r.outbound) : Booked released r' where
  locked := by rw [hlocked, houtbound, h.locked]
  nodup := h.nodup
  closed := by
    rw [houtbound]
    exact h.closed

/-- The message at a place, as a settlement sees it. -/
theorem getD_outbound (h : place < r.outbound.length) :
    r.outbound[place]? = some (r.outbound.getD place {}) := by
  rw [List.getD_eq_getElem?_getD, List.getElem?_eq_getElem h, Option.getD_some]

/-- The books hold at least the value of any open message. -/
theorem Booked.value_le {released : List Nat} (h : Booked released r) {m : OutboundMessage}
    (hm : m ∈ r.outbound) (hopen : m.status.isOpen = true) : m.value ≤ r.bridge.lockedValue := by
  rw [UInt64.le_iff_toNat_le, h.locked, ← OutboundMessage.locked_of_open hopen]
  exact le_sum_map OutboundMessage.locked hm

/-- A part that is put back as it was got leaves the registry as it was. -/
theorem put_get_settlement (h : place < r.outbound.length) :
    (Part.settlement place).put ((Part.settlement place).get r) r = r := by
  show { r with outbound := r.outbound.set place (r.outbound.getD place {}) } = r
  have hset : r.outbound.set place (r.outbound.getD place {}) = r.outbound := by
    rw [List.getD_eq_getElem?_getD, List.getElem?_eq_getElem h, Option.getD_some,
      List.set_getElem_self]
  rw [hset]

/-- **Confirming fails with everything as it was.** -/
theorem Booked.confirm_eq_error {released : List Nat} (hb : Booked released r)
    (hplace : place < r.outbound.length) {roster : Roster} {attestations : List Attestation}
    {verify : Verifier}
    (h : (Part.settlement place).run (Settlement.confirm roster attestations verify) r =
      .error f r') : r' = r := by
  obtain ⟨s, hs, rfl⟩ := Action.on_eq_error.1 h
  rcases Settlement.confirm_eq_error hs with rfl | ⟨-, hopen, hlt⟩
  · exact put_get_settlement hplace
  · exact absurd (hb.value_le (List.mem_of_getElem? (getD_outbound hplace)) hopen)
      (UInt64.not_le.2 hlt)

/-- **Reclaiming fails with everything as it was.** -/
theorem Booked.reclaim_eq_error {released : List Nat} (hb : Booked released r)
    (hplace : place < r.outbound.length) {caller : Key} {now : Slot}
    (h : (Part.settlement place).run (Settlement.reclaim caller now) r = .error f r') :
    r' = r := by
  obtain ⟨s, hs, rfl⟩ := Action.on_eq_error.1 h
  rcases Settlement.reclaim_eq_error hs with rfl | ⟨hopen, hlt⟩
  · exact put_get_settlement hplace
  · exact absurd (hb.value_le (List.mem_of_getElem? (getD_outbound hplace)) hopen)
      (UInt64.not_le.2 hlt)

/-- Closing an open message, with its value taken out of the books, keeps them right. -/
theorem Booked.close {released : List Nat} (hb : Booked released r)
    (hplace : place < r.outbound.length) {s : Settlement}
    (hopen : (r.outbound.getD place {}).status.isOpen = true)
    (hclosed : s.message.status.isOpen = false)
    (hrelease : Bridge.releaseValue (r.outbound.getD place {}).value r.bridge = .ok () s.bridge) :
    Booked (released ++ [place]) ((Part.settlement place).put s r) := by
  have hm := getD_outbound hplace
  have hset : ∀ k, (r.outbound.set place s.message)[k]? =
      if place = k then some s.message else r.outbound[k]? := by
    intro k
    rw [List.getElem?_set]
    split
    · rename_i heq
      simp
    · rfl
  refine ⟨?_, ?_, ?_⟩
  · have hsum := openValue_set hm s.message
    rw [OutboundMessage.locked_of_open hopen, OutboundMessage.locked_of_closed hclosed] at hsum
    have hbooks := (Bridge.releaseValue_eq_ok hrelease).1
    have hlocked := hb.locked
    show s.bridge.lockedValue.toNat = openValue (r.outbound.set place s.message)
    omega
  · refine List.nodup_append.2 ⟨hb.nodup, List.nodup_singleton place, ?_⟩
    rintro k hk _ hk' rfl
    obtain rfl := List.mem_singleton.1 hk'
    obtain ⟨m, hm', hmclosed⟩ := hb.closed k hk
    rw [hm] at hm'
    cases hm'
    exact absurd hopen (by rw [hmclosed]; decide)
  · intro k hk
    show ∃ m, (r.outbound.set place s.message)[k]? = some m ∧ m.status.isOpen = false
    rw [hset]
    by_cases heq : place = k
    · exact ⟨s.message, if_pos heq, hclosed⟩
    · rw [if_neg heq]
      rcases List.mem_append.1 hk with hk | hk
      · exact hb.closed k hk
      · exact absurd (List.mem_singleton.1 hk).symm heq

/-- Picking a message up keeps it open, if it was. -/
theorem Booked.pickUp {released : List Nat} (hb : Booked released r)
    (hplace : place < r.outbound.length) (roster : Roster) (caller : Key) :
    Booked released
      (((Part.message place).run (OutboundMessage.pickUp roster caller)).after r) := by
  have hm := getD_outbound hplace
  refine Action.after_induct (P := fun r' => Booked released r') (fun _ r' h => ?_)
    fun f r' h => ?_
  · obtain ⟨m', hpick, rfl⟩ := Action.on_eq_ok.1 h
    obtain ⟨hqueued, rfl⟩ := OutboundMessage.pickUp_eq_ok hpick
    have hopen : (r.outbound.getD place {}).status.isOpen = true := by
      show ((Part.message place).get r).status.isOpen = true
      rw [hqueued]
      rfl
    refine ⟨?_, hb.nodup, ?_⟩
    · have hsum := openValue_set hm { (Part.message place).get r with status := .relayed }
      rw [OutboundMessage.locked_of_open hopen, OutboundMessage.locked_of_open rfl] at hsum
      have hlocked := hb.locked
      show r.bridge.lockedValue.toNat = openValue (r.outbound.set place _)
      exact hlocked.trans (Nat.add_right_cancel hsum).symm
    · intro k hk
      obtain ⟨m, hmk, hclosed⟩ := hb.closed k hk
      refine ⟨m, ?_, hclosed⟩
      show (r.outbound.set place _)[k]? = some m
      rw [List.getElem?_set_ne, hmk]
      rintro rfl
      rw [hm] at hmk
      cases hmk
      exact absurd hopen (by rw [hclosed]; decide)
  · obtain ⟨m', hpick, rfl⟩ := Action.on_eq_error.1 h
    obtain rfl := OutboundMessage.pickUp_eq_error hpick
    refine hb.congr rfl ?_
    show r.outbound.set place (r.outbound.getD place {}) = r.outbound
    rw [List.getD_eq_getElem?_getD, List.getElem?_eq_getElem hplace, Option.getD_some,
      List.set_getElem_self]

/-- A message that is queued is counted, and one that is not changes nothing. -/
theorem Booked.queue {released : List Nat} (hb : Booked released r) (chainName : String)
    (sponsorName : Option String) (sender : Key) (q : SendRequest) (now : Slot) :
    Booked released ((Registry.queue chainName sponsorName sender q now).after r) := by
  refine Action.after_induct (P := fun r' => Booked released r') (fun n r' h => ?_)
    fun f r' h => ?_
  · obtain ⟨o, m, hqueue, hbridge, -, houtbound⟩ := queue_eq_ok h
    have hq := Outbox.queued_of_queue hqueue
    have hvalue : m.value = q.value := congrArg OutboundMessage.value hq.message
    have hopen : m.status.isOpen = true := congrArg (fun m => m.status.isOpen) hq.message
    refine ⟨?_, hb.nodup, ?_⟩
    · have hcount := (Bridge.recordSend_eq_ok hq.counted).2.2.2.1
      rw [hbridge, houtbound, hcount, openValue, List.map_append, List.sum_append,
        List.map_singleton, List.sum_singleton, OutboundMessage.locked_of_open hopen, hvalue]
      exact congrArg (· + q.value.toNat) hb.locked
    · intro k hk
      obtain ⟨m', hm', hclosed⟩ := hb.closed k hk
      refine ⟨m', ?_, hclosed⟩
      rw [houtbound, List.getElem?_append_left (List.getElem?_eq_some_iff.1 hm').1, hm']
  · unfold Registry.queue Part.run at h
    simp only [bind_eq_error (x := Action.on _ _ _), Action.on_eq_error, get_bind, set_bind,
      pure_ne_error, and_false, exists_false, or_false] at h
    obtain ⟨o, hqueue, rfl⟩ := h
    obtain rfl := Outbox.queue_eq_error hqueue
    obtain ⟨chains, sponsors, hput⟩ := put_outbox chainName sponsorName
      ((Part.outbox chainName sponsorName).get r) r
    rw [hput]
    exact hb.congr rfl rfl

/-- A step on the bridge record that leaves the locked value alone keeps the books right. -/
theorem Booked.onBridge {released : List Nat} (hb : Booked released r) {α : Type}
    {step : Action Bridge α}
    (hstep : (step.after r.bridge).lockedValue = r.bridge.lockedValue) :
    Booked released ((Part.bridge.run step).after r) := by
  rw [Part.run, Action.after_on]
  exact hb.congr hstep rfl

/-- So does one of membership, which pays out of the pool. -/
theorem Booked.onMembership {released : List Nat} (hb : Booked released r) {α : Type}
    {step : Action Membership α}
    (hstep : Membership.Touched ⟨r.bridge, r.roster⟩ (step.after ⟨r.bridge, r.roster⟩)) :
    Booked released ((Part.membership.run step).after r) := by
  rw [Part.run, Action.after_on]
  exact hb.congr hstep.books.lockedValue rfl

/-- **Every step keeps the books right**, whether it gives a result or fails. -/
theorem Booked.step {released more : List Nat} (hb : Booked released r) (h : Step r more r') :
    Booked (released ++ more) r' := by
  cases h with
  | queue chainName sponsorName sender q now =>
    rw [List.append_nil]
    exact hb.queue chainName sponsorName sender q now
  | pickUp place hplace roster caller =>
    rw [List.append_nil]
    exact hb.pickUp hplace roster caller
  | confirm place hplace roster attestations verify =>
    cases h : (Part.settlement place).run (Settlement.confirm roster attestations verify) r with
    | ok d r' =>
      rw [Action.after_of_ok h, Action.result_of_ok h]
      obtain ⟨s, hs, rfl⟩ := Action.on_eq_ok.1 h
      obtain ⟨-, -, hopen, hmessage, hrelease⟩ := Settlement.confirm_eq_ok hs
      exact hb.close hplace hopen (by rw [hmessage]; rfl) hrelease
    | error f r' =>
      rw [Action.after_of_error h, Action.result_of_error h, hb.confirm_eq_error hplace h]
      exact (List.append_nil released).symm ▸ hb
  | reclaim place hplace caller now =>
    cases h : (Part.settlement place).run (Settlement.reclaim caller now) r with
    | ok d r' =>
      rw [Action.after_of_ok h, Action.result_of_ok h]
      obtain ⟨s, hs, rfl⟩ := Action.on_eq_ok.1 h
      obtain ⟨-, hopen, -, -, hmessage, hrelease⟩ := Settlement.reclaim_eq_ok hs
      exact hb.close hplace hopen (by rw [hmessage]; rfl) hrelease
    | error f r' =>
      rw [Action.after_of_error h, Action.result_of_error h, hb.reclaim_eq_error hplace h]
      exact (List.append_nil released).symm ▸ hb
  | holdSponsorFunds amount =>
    rw [List.append_nil]
    exact hb.onBridge (Bridge.lockedValue_after_holdSponsorFunds amount r.bridge)
  | releaseSponsorFunds amount =>
    rw [List.append_nil]
    exact hb.onBridge (Bridge.lockedValue_after_releaseSponsorFunds amount r.bridge)
  | claim i caller amount =>
    rw [List.append_nil]
    exact hb.onMembership (Membership.claim_touched _ i caller amount)
  | unregister i caller =>
    rw [List.append_nil]
    exact hb.onMembership (Membership.unregister_touched _ i caller)
  | remove actor i =>
    rw [List.append_nil]
    exact hb.onMembership (Membership.remove_touched _ actor i)
  | setFeeSchedule actor fees =>
    rw [List.append_nil]
    exact hb.onBridge (Governance.lockedValue_after_setFeeSchedule actor fees r.bridge)
  | elsewhere roster chains sponsors receipts cursors =>
    rw [List.append_nil]
    exact hb.congr rfl rfl

/-- **After any run the books are right.** -/
theorem booked_of_run {start : Registry} {released : List Nat}
    (hlocked : start.bridge.lockedValue = 0) (hempty : start.outbound = [])
    (hrun : Run start released r) : Booked released r := by
  induction hrun with
  | refl => exact ⟨by rw [hlocked, hempty]; rfl, List.nodup_nil, by simp⟩
  | tail _ hstep ih => exact ih.step hstep

/-- **The locked value is that of the open messages, and each message's value is released
once.**  From a new bridge on, after any run of steps that give a result or fail without being
undone: the locked value is the sum of the values of the open messages; so the value of an open
message can always be released, a confirmation or a reclaim that fails leaves everything as it
was, and no message's value was released twice. -/
theorem locked_value_of_run {authority : Key} {identity : Address} {settings : Bridge.Settings}
    {start : Registry} {released : List Nat}
    (hcreate : Bridge.create authority identity settings = .ok start.bridge)
    (hempty : start.outbound = []) (hrun : Run start released r) :
    r.bridge.lockedValue.toNat = openValue r.outbound ∧
      (∀ m ∈ r.outbound, m.status.isOpen = true →
        ∃ b, Bridge.releaseValue m.value r.bridge = .ok () b) ∧
      (∀ place < r.outbound.length, ∀ roster attestations verify f r',
        (Part.settlement place).run (Settlement.confirm roster attestations verify) r =
          .error f r' → r' = r) ∧
      (∀ place < r.outbound.length, ∀ caller now f r',
        (Part.settlement place).run (Settlement.reclaim caller now) r = .error f r' → r' = r) ∧
      released.Nodup := by
  have hb := booked_of_run (Bridge.create_eq_ok hcreate).2.1 hempty hrun
  refine ⟨hb.locked, ?_, ?_, ?_, hb.nodup⟩
  · intro m hm hopen
    cases h : Bridge.releaseValue m.value r.bridge with
    | ok _ b => exact ⟨b, rfl⟩
    | error f b =>
      exact absurd (hb.value_le hm hopen)
        (UInt64.not_le.2 (Bridge.releaseValue_eq_error h).1)
  · intro place hplace roster attestations verify f r' h
    exact hb.confirm_eq_error hplace h
  · intro place hplace caller now f r' h
    exact hb.reclaim_eq_error hplace h

/-- A registry with a new bridge and one chain that takes messages. -/
def withChain : Registry where
  bridge := { hostChain := 1, epochLength := 1, reclaimAfter := 1 }
  chains := [("chain", { id := 2, active := true, limits := {
    confirmations := 1, maxMessageBytes := 1, maxComputeBudget := 1, feeMultiplier := 1
    rateLimit := 1, strictOrdering := false } })]

/-- The value of a message that was sent and reclaimed was released once and is locked no more. -/
theorem locked_value_of_reclaimed : ∃ r, Run withChain [0] r ∧
    r.bridge.lockedValue.toNat = openValue r.outbound ∧ r.outbound.length = 1 ∧
    ([0] : List Nat).Nodup := by
  have hsent : Step withChain [] _ :=
    .queue "chain" none .zero { destinationChain := 2, value := 5 } 0
  have hreclaimed := Step.reclaim
    (r := (Registry.queue "chain" none .zero { destinationChain := 2, value := 5 } 0).after
      withChain) 0 (by decide) .zero 1
  have hrun : Run withChain [0] _ := (Run.refl.tail hsent).tail hreclaimed
  have hcreate : Bridge.create .zero .zero { hostChain := 1, epochLength := 1, reclaimAfter := 1 } =
      .ok withChain.bridge := rfl
  have hresult := locked_value_of_run hcreate rfl hrun
  exact ⟨_, hrun, hresult.1, rfl, hresult.2.2.2.2⟩

end Registry

end QuorumRelay
