import QuorumRelay.Proofs.Ledger.Bridge
import QuorumRelay.Proofs.Rates

/-!
# What becomes of the log of outbound messages

A message that leaves is recorded at the place of its nonce, and the bridge
counts the nonces.  This file follows the log through one instruction: `LogStep`
lists the three things that can happen to it, and `Effect.logStep` finds one of
them in each of the twenty-four cases of an effect.

## Counter and places

Nothing looks for a free place.  The counter names the next one, and the places
below it are taken because every nonce below it was given to a message.  This is
`Books.Dense`, and it is what excludes that a new message is written over an old
one: the old one would be at the place that the counter names.

## What a message remembers

`Sends` compares a message with the instruction that sent it, and with the bridge
and the chain as they were then.  A step may change a message's status; that the
rest of the record is as it was sent is part of `LogStep` itself.
-/

namespace QuorumRelay

/-- **How the status of a message can change.** -/
inductive MessageStatus.Advances : MessageStatus → MessageStatus → Prop
  | pickedUp : Advances .queued .relayed
  | confirmed {s : MessageStatus} (unended : s.isOpen = true) : Advances s .confirmed
  | failed {s : MessageStatus} (unended : s.isOpen = true) : Advances s .failed

/-- The status of a message that has ended does not change. -/
theorem MessageStatus.Advances.isOpen {s s' : MessageStatus} (h : s.Advances s') :
    s.isOpen = true := by
  cases h with
  | pickedUp => rfl
  | confirmed unended | failed unended => exact unended

/-- The nonce that an event announces as handed out. -/
def Event.sentNonce? : Event → Option Nonce
  | .messageSent e => some e.nonce
  | _ => none

/-- The nonces that events announce as handed out. -/
def sentNonces (events : List Event) : List Nonce := events.filterMap Event.sentNonce?

/-- What an instruction asks to be sent. -/
def Instruction.request? : Instruction → Option SendRequest
  | ⟨.sendMessage, q⟩ => some q
  | ⟨.sendSponsored, q⟩ => some q
  | _ => none

namespace Books

/-- How many messages were sent, by the bridge's counter; none before there is a bridge. -/
def sentCount (books : Books) : Nat :=
  match books .bridge with
  | some b => b.nextNonce.toNat
  | none => 0

theorem sentCount_of_some {books : Books} {b : Bridge} (h : books .bridge = some b) :
    books.sentCount = b.nextNonce.toNat := by
  rw [sentCount, h]

theorem sentCount_congr {before after : Books} (h : after .bridge = before .bridge) :
    after.sentCount = before.sentCount := by
  rw [sentCount, sentCount, h]

theorem sentCount_eq {before after : Books} {b b' : Bridge} (hb : before .bridge = some b)
    (hb' : after .bridge = some b') (h : b'.nextNonce = b.nextNonce) :
    after.sentCount = before.sentCount := by
  rw [sentCount_of_some hb, sentCount_of_some hb', h]

/-- **The log has no gaps**: messages are at the nonces below the counter, each at its own. -/
def Dense (books : Books) : Prop :=
  ∀ n, ((∃ m, books (.outbound n) = some m) ↔ n.toNat < books.sentCount) ∧
    ∀ m, books (.outbound n) = some m → m.nonce = n

end Books

section

variable (env : Environment) (A : List Passed) (before : Books) (i : Instruction)

/-- **A message as an instruction sends it**: what was asked for, with the nonce that was next and
the fee that was estimated. -/
structure Sends (m : OutboundMessage) : Prop where
  asked : ∃ q, i.request? = some q ∧ m.destinationChain = q.destinationChain ∧
    m.destination = q.destination ∧ m.payload = q.payload ∧ m.value = q.value ∧
    m.computeBudget = q.computeBudget
  signed : SignedBy A m.sender
  estimated : ∃ b c, before .bridge = some b ∧ before (.chain m.destinationChain) = some c ∧
    m.nonce = b.nextNonce ∧ b.estimateFee c m.payload.length m.computeBudget = .ok m.fee
  payer : i.kind = .sendMessage ∧ m.feePayer = .sender ∨
    i.kind = .sendSponsored ∧ ∃ s, before (.sponsor s.owner) = some s ∧
      m.feePayer = .sponsor s.owner
  createdAt : m.createdAt = env.slot
  status : m.status = .queued

/-- **An instruction that times out the message of a nonce**: its sender asks for it, late enough.
At the very last slot every message counts as late. -/
structure TimesOut (n : Nonce) (m : OutboundMessage) : Prop where
  asked : i = ⟨.reclaim, n⟩
  signed : SignedBy A m.sender
  late : ∃ b, before .bridge = some b ∧ (env.slot.toNat + 1 < UInt64.size →
    m.createdAt.toNat + b.reclaimAfter.toNat ≤ env.slot.toNat)

end

/-- **What an instruction makes of the log.**  It hands out `nonces`; which messages it may send
and which it may time out are parameters. -/
inductive LogStep (sends : OutboundMessage → Prop) (timesOut : Nonce → OutboundMessage → Prop)
    (before after : Books) (nonces : List Nonce) : Prop
  | kept (idle : nonces = []) (same : ∀ n, after (.outbound n) = before (.outbound n))
      (count : after.sentCount = before.sentCount)
  | appended (m : OutboundMessage) (once : nonces = [m.nonce]) (sent : sends m)
      (next : m.nonce.toNat = before.sentCount) (count : after.sentCount = before.sentCount + 1)
      (stored : after (.outbound m.nonce) = some m)
      (others : ∀ n, n ≠ m.nonce → after (.outbound n) = before (.outbound n))
  | moved (n : Nonce) (m : OutboundMessage) (status : MessageStatus) (idle : nonces = [])
      (held : before (.outbound n) = some m)
      (stored : after (.outbound n) = some { m with status })
      (others : ∀ k, k ≠ n → after (.outbound k) = before (.outbound k))
      (count : after.sentCount = before.sentCount) (advances : m.status.Advances status)
      (timely : status = .failed → timesOut n m)

/-! ## What a step keeps -/

namespace LogStep

variable {sends : OutboundMessage → Prop} {timesOut : Nonce → OutboundMessage → Prop}
  {before after : Books} {nonces : List Nonce} {n : Nonce} {m : OutboundMessage}

theorem mono {sends' : OutboundMessage → Prop} {timesOut' : Nonce → OutboundMessage → Prop}
    (h : LogStep sends timesOut before after nonces) (hsends : ∀ m, sends m → sends' m)
    (htimesOut : ∀ n m, timesOut n m → timesOut' n m) :
    LogStep sends' timesOut' before after nonces := by
  cases h with
  | kept idle same count => exact .kept idle same count
  | appended m once sent next count stored others =>
    exact .appended m once (hsends m sent) next count stored others
  | moved n m status idle held stored others count advances timely =>
    exact .moved n m status idle held stored others count advances
      fun hfailed => htimesOut n m (timely hfailed)

/-- **The log stays without gaps.** -/
theorem dense (h : LogStep sends timesOut before after nonces) (hdense : before.Dense) :
    after.Dense := by
  intro n
  cases h with
  | kept idle same count =>
    rw [same n, count]
    exact hdense n
  | appended m once sent next count stored others =>
    by_cases hn : n = m.nonce
    · subst hn
      rw [stored, count, next]
      exact ⟨⟨fun _ => Nat.lt_succ_self _, fun _ => ⟨m, rfl⟩⟩, fun m' hm' => by cases hm'; rfl⟩
    · rw [others n hn, count]
      refine ⟨(hdense n).1.trans ?_, (hdense n).2⟩
      have hne : n.toNat ≠ before.sentCount := fun h => hn (UInt64.toNat_inj.1 (h.trans next.symm))
      omega
  | moved k m status idle held stored others count advances timely =>
    rw [count]
    by_cases hn : n = k
    · subst hn
      rw [stored]
      refine ⟨(iff_of_true ⟨_, rfl⟩ ⟨m, held⟩).trans (hdense n).1, fun m' hm' => ?_⟩
      cases hm'
      exact (hdense n).2 m held
    · rw [others n hn]
      exact hdense n

/-- **Nonces are handed out in order, and none is left out.** -/
theorem range_eq (h : LogStep sends timesOut before after nonces) :
    List.range before.sentCount ++ nonces.map UInt64.toNat = List.range after.sentCount := by
  cases h with
  | kept idle same count | moved _ _ _ idle _ _ _ count =>
    rw [idle, count, List.map_nil, List.append_nil]
  | appended m once sent next count stored others =>
    rw [once, count, List.range_succ, List.map_singleton, next]

/-- **A message stays, and only its status changes.** -/
theorem exists_status (h : LogStep sends timesOut before after nonces) (hdense : before.Dense)
    (hm : before (.outbound n) = some m) :
    ∃ status, after (.outbound n) = some { m with status } ∧
      (status = m.status ∨ m.status.Advances status ∧ (status = .failed → timesOut n m)) := by
  cases h with
  | kept idle same count => exact ⟨m.status, (same n).trans hm, Or.inl rfl⟩
  | appended m' once sent next count stored others =>
    -- the new message is at the counter, and the old ones are below it
    have hlt := (hdense n).1.1 ⟨m, hm⟩
    have hn : n ≠ m'.nonce := fun h => Nat.ne_of_lt hlt (h ▸ next)
    exact ⟨m.status, (others n hn).trans hm, Or.inl rfl⟩
  | moved k m' status idle held stored others count advances timely =>
    by_cases hn : n = k
    · subst hn
      obtain rfl : m' = m := by simpa [hm] using held.symm
      exact ⟨status, stored, Or.inr ⟨advances, timely⟩⟩
    · exact ⟨m.status, (others n hn).trans hm, Or.inl rfl⟩

/-- **A message was there before up to its status, or it has just been sent.** -/
theorem origin (h : LogStep sends timesOut before after nonces)
    (hm : after (.outbound n) = some m) :
    (∃ status, before (.outbound n) = some { m with status }) ∨ sends m := by
  cases h with
  | kept idle same count => exact Or.inl ⟨m.status, (same n).symm.trans hm⟩
  | appended m' once sent next count stored others =>
    by_cases hn : n = m'.nonce
    · subst hn
      obtain rfl : m' = m := by simpa [hm] using stored.symm
      exact Or.inr sent
    · exact Or.inl ⟨m.status, (others n hn).symm.trans hm⟩
  | moved k m' status idle held stored others count advances timely =>
    by_cases hn : n = k
    · subst hn
      obtain rfl : { m' with status } = m := by simpa [hm] using stored.symm
      exact Or.inl ⟨m'.status, held⟩
    · exact Or.inl ⟨m.status, (others n hn).symm.trans hm⟩

end LogStep

/-! ## All instructions -/

/-- The message that a queued request becomes in the log. -/
theorem Outbox.Queued.sends {env : Environment} {A : List Passed} {before : Books}
    {i : Instruction} {sender : AccountId} {q : SendRequest} {o o' : Outbox} {m : OutboundMessage}
    (h : Outbox.Queued sender.key q env.slot o m o') (bump : UInt8) (hasked : i.request? = some q)
    (hsigned : Signed A sender) (hbridge : before .bridge = some o.bridge)
    (hchain : before (.chain q.destinationChain) = some o.chain)
    (hpayer : i.kind = .sendMessage ∧ m.feePayer = .sender ∨
      i.kind = .sendSponsored ∧ ∃ s, before (.sponsor s.owner) = some s ∧
        m.feePayer = .sponsor s.owner) : Sends env A before i { m with bump } := by
  obtain ⟨hnonce, -⟩ := Bridge.recordSend_eq_ok h.counted
  have hfee := h.fee
  have hmessage := h.message
  refine ⟨⟨q, hasked, ?_⟩, ⟨sender, hsigned, ?_⟩, ⟨o.bridge, o.chain, hbridge, ?_, hnonce, ?_⟩,
    hpayer, ?_, ?_⟩
  all_goals rw [hmessage]
  · exact ⟨rfl, rfl, rfl, rfl, rfl⟩
  · exact hchain
  · exact hfee

/-- **Queueing appends the message to the log**, whatever else is written. -/
theorem Outbox.Queued.logStep {sends : OutboundMessage → Prop}
    {timesOut : Nonce → OutboundMessage → Prop} {before after : Books} {sender : Key}
    {q : SendRequest} {now : Slot} {o o' : Outbox} {m : OutboundMessage} {bump : UInt8}
    (h : Outbox.Queued sender q now o m o') (hsends : sends { m with bump })
    (hbridge : before .bridge = some o.bridge) (hbridge' : after .bridge = some o'.bridge)
    (hstored : after (.outbound o.bridge.nextNonce) = some { m with bump })
    (hothers : ∀ n, n ≠ o.bridge.nextNonce → after (.outbound n) = before (.outbound n)) :
    LogStep sends timesOut before after [m.nonce] := by
  obtain ⟨hnonce, hnext, -⟩ := Bridge.recordSend_eq_ok h.counted
  rw [← hnonce] at hstored hothers
  refine .appended { m with bump } rfl hsends ?_ ?_ hstored hothers
  · rw [Books.sentCount_of_some hbridge, ← hnonce]
  · rw [Books.sentCount_of_some hbridge, Books.sentCount_of_some hbridge']
    exact hnext

/-- Executing messages sends none. -/
theorem sentNonces_members (submitter : Key)
    (members : List (InboundMessage × Inbound.MemberResult)) :
    sentNonces (members.filterMap (memberEvent? submitter)) = [] := by
  refine List.filterMap_eq_nil_iff.2 fun e he => ?_
  obtain ⟨⟨m, result⟩, -, hevent⟩ := List.mem_filterMap.1 he
  cases result with
  | skipped _ => cases hevent
  | executed o =>
    cases hevent
    rfl

variable {env : Environment} {A : List Passed} {spendable : Amount} {before after : Books}
  {i : Instruction} {t : Trace}

/-- **Every instruction leaves the log alone, appends one message, or moves one on.** -/
theorem Effect.logStep (h : Effect env A spendable before i after t) :
    LogStep (Sends env A before i) (TimesOut env A before i) before after
      (sentNonces t.events) := by
  cases h with
  | createBridge received signed absent step =>
    rename_i settings authority b
    refine .kept rfl (fun n => by simp [Books.put_of_ne]) ?_
    rw [Books.sentCount, Books.sentCount, absent.1]
    simp [Books.put_of_ne, Bridge.nextNonce_of_create step]
  | setFeeSchedule signed bridge step =>
    obtain ⟨-, rfl⟩ := Governance.setFeeSchedule_eq_ok step
    exact .kept rfl (fun n => by simp [Books.put_of_ne])
      (Books.sentCount_eq bridge (Books.put_self ..) rfl)
  | setAuthority signed bridge step =>
    obtain ⟨-, -, rfl⟩ := Governance.setAuthority_eq_ok step
    exact .kept rfl (fun n => by simp [Books.put_of_ne])
      (Books.sentCount_eq bridge (Books.put_self ..) rfl)
  | depositSponsor signed bridge sponsor vault own step books place =>
    rename_i amount owner b b' s s' v
    have hnext : b'.nextNonce = b.nextNonce := by rw [(Bridge.holdSponsorFunds_eq_ok books).2]
    exact .kept rfl (fun n => by simp [Books.put_of_ne])
      (Books.sentCount_eq bridge (by simp [Books.put_of_ne]) hnext)
  | withdrawSponsor signed bridge sponsor vault own step books place =>
    rename_i amount owner b b' s s' v
    have hnext : b'.nextNonce = b.nextNonce := by rw [(Bridge.releaseSponsorFunds_eq_ok books).2]
    exact .kept rfl (fun n => by simp [Books.put_of_ne])
      (Books.sentCount_eq bridge (by simp [Books.put_of_ne]) hnext)
  | sendMessage signed bridge chain vault absent step owes =>
    rename_i q sender b c v m o owed
    have hqueued := Outbox.queued_of_queue step
    refine hqueued.logStep (hqueued.sends derivedBump rfl signed bridge chain
      (Or.inl ⟨rfl, hqueued.unsponsored rfl⟩)) bridge (by simp [Books.put_of_ne]) (Books.put_self ..) ?_
    intro n hn
    have hplace : Place.outbound n ≠ .outbound b.nextNonce := fun h => hn (Place.outbound.inj h)
    simp [Books.put_of_ne, hplace]
  | sendSponsored signed bridge chain sponsor vault absent step charged =>
    rename_i q sender b c v s s' m o
    have hqueued := Outbox.queued_of_queue step
    have hpayer := (hqueued.charged rfl charged).2.1
    refine hqueued.logStep (hqueued.sends derivedBump rfl signed bridge chain
      (Or.inr ⟨rfl, s, sponsor, hpayer⟩)) bridge (by simp [Books.put_of_ne])
      (by simp [Books.put_of_ne]) ?_
    intro n hn
    have hplace : Place.outbound n ≠ .outbound b.nextNonce := fun h => hn (Place.outbound.inj h)
    simp [Books.put_of_ne, hplace]
  | markRelayed signed roster message step =>
    rename_i nonce relayer r m m'
    obtain ⟨hqueued, rfl⟩ := OutboundMessage.pickUp_eq_ok step
    refine .moved nonce m .relayed rfl message (Books.put_self ..)
      (fun n hn => Books.put_of_ne _ _ fun h => hn (Place.outbound.inj h))
      (Books.sentCount_congr (by simp [Books.put_of_ne])) ?_ nofun
    rw [hqueued]
    exact .pickedUp
  | confirmDelivery bridge roster message evidence step =>
    rename_i nonce attestations b r m proven d s
    obtain ⟨-, -, hopen, hmessage, -⟩ := Settlement.confirm_eq_ok step
    have hnext := (Bridge.Settled.of_confirm step).nextNonce
    rw [hmessage]
    refine .moved nonce m .confirmed rfl message (Books.put_self ..) (fun n hn => ?_)
      (Books.sentCount_eq bridge (by simp [Books.put_of_ne]) hnext) (.confirmed hopen) nofun
    have hplace : Place.outbound n ≠ .outbound nonce := fun h => hn (Place.outbound.inj h)
    simp [Books.put_of_ne, hplace]
  | reclaim signed bridge message vault step =>
    rename_i nonce sender b m v refund s
    obtain ⟨hsender, hopen, hlate, -, hmessage, -⟩ := Settlement.reclaim_eq_ok step
    have hnext := (Bridge.Settled.of_reclaim step).nextNonce
    rw [hmessage]
    refine .moved nonce m .failed rfl message (Books.put_self ..) (fun n hn => ?_)
      (Books.sentCount_eq bridge (by simp [Books.put_of_ne]) hnext) (.failed hopen)
      fun _ => ⟨rfl, ⟨sender, signed, hsender.symm⟩, b, bridge, fun hslot =>
        (Slot.later_le_iff _ _ hslot).1 hlate⟩
    have hplace : Place.outbound n ≠ .outbound nonce := fun h => hn (Place.outbound.inj h)
    simp [Books.put_of_ne, hplace]
  | unregisterRelayer signed bridge roster vault step =>
    have hnext := (Bridge.Settled.of_unregister step).nextNonce
    exact .kept rfl (fun n => by simp [Books.put_of_ne])
      (Books.sentCount_eq bridge (by simp [Books.put_of_ne]) hnext)
  | removeRelayer signed bridge roster vault own step =>
    have hnext := (Bridge.Settled.of_remove step).nextNonce
    exact .kept rfl (fun n => by simp [Books.put_of_ne])
      (Books.sentCount_eq bridge (by simp [Books.put_of_ne]) hnext)
  | claimCompensation signed bridge roster vault step =>
    have hnext := (Bridge.Settled.of_claim step).nextNonce
    exact .kept rfl (fun n => by simp [Books.put_of_ne])
      (Books.sentCount_eq bridge (by simp [Books.put_of_ne]) hnext)
  | processMessage given signed bridge =>
    refine .kept rfl (fun n => ?_) (Books.sentCount_congr ?_)
    · rw [Books.move_of_ne (q := .outbound n) nofun]
      simp [Books.put_of_ne]
    · rw [Books.move_of_ne (q := .bridge) nofun]
      simp [Books.put_of_ne]
  | processBatch given =>
    exact .kept (sentNonces_members _ _) (fun n => by simp [Books.put_of_ne, Books.close_of_ne])
      (Books.sentCount_congr (by simp [Books.put_of_ne, Books.close_of_ne]))
  | _ =>
    exact .kept rfl (fun n => by simp [Books.put_of_ne])
      (Books.sentCount_congr (by simp [Books.put_of_ne]))

end QuorumRelay
