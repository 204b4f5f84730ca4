import QuorumRelay.Proofs.Inbound.Singly
import QuorumRelay.Proofs.Seats

/-!
# Messages of one slot can be handed in in any order

Messages that arrive in one slot are handed in by different relayers, and nobody
but the leader of the slot decides which comes first.  On a chain without strict
ordering the decision makes no difference: if all of them go through in one
order, they do in every other, each with the same outcome, and the records end
up the same (`submissions_commute`).

## What is shared

Each message has a receipt of its own.  Three things are shared, and of each a
message moves a part that does not depend on what was moved before it.

* The inbound window moves by one message, whichever it is.  The first of them
  may start it anew, and then it is the first in every order.
* The highest nonce is a maximum (`Chain.recordInboundNonce_comm`).
* Credits go to slots.  Two to one slot are a sum, and fit in both orders if they
  fit in one; two to different slots do not meet (`Roster.Gains.comm`).

What is checked is what none of this moves (`Parcel.Admissible`).

## From two to all

Neighbours that trade places leave the records as they were, but not the world,
which has seen two deliveries the other way round.  So the induction over the
orders compares runs that start from the same records in different worlds
(`SameRecords`), and asks of destinations that they answer alike in all worlds
(`Executor.Steady`).
-/

namespace QuorumRelay

namespace Chain

/-- The highest of some nonces does not depend on their order. -/
theorem recordInboundNonce_comm (a b : Nonce) (c : Chain) :
    recordInboundNonce a (recordInboundNonce b c) =
      recordInboundNonce b (recordInboundNonce a c) := by
  unfold recordInboundNonce
  grind

/-- The inbound window does not look at nonces. -/
theorem acceptInbound_recordInboundNonce (nonce : Nonce) (c : Chain) (now epochLength : Slot)
    (count : UInt32) : (recordInboundNonce nonce c).acceptInbound now epochLength count =
      c.acceptInbound now epochLength count := by
  unfold recordInboundNonce
  split <;> rfl

end Chain

namespace Roster

variable {r r' r'' : Roster} {i j : UInt8} {slot slot' : Option UInt8} {a b : Nat}

/-- Payments to two slots do not meet. -/
theorem Pays.comm_of_ne (hij : i ≠ j) (h : Pays i a r r') (h' : Pays j b r' r'') :
    ∃ t, Pays j b r t ∧ Pays i a t r'' := by
  obtain ⟨e, earned, hseat, hearned, rfl⟩ := h
  obtain ⟨e', earned', hseat', hearned', rfl⟩ := h'
  have hne : i.toNat ≠ j.toNat := fun h => hij (UInt8.toNat_inj.1 h)
  rw [seated_setSlot hseat.lt_length, if_neg hne.symm] at hseat'
  refine ⟨_, ⟨e', earned', hseat', hearned', rfl⟩, e, earned,
    hseat'.setSlot_of_ne hne hseat _, hearned, ?_⟩
  unfold setSlot
  rw [List.set_comm _ _ hne]

/-- **Credits can be booked in either order**, also to one slot. -/
theorem Gains.comm (h : Gains slot a r r') (h' : Gains slot' b r' r'') :
    ∃ t, Gains slot' b r t ∧ Gains slot a t r'' := by
  by_cases hslots : slot = slot'
  · subst hslots
    refine Gains.add.1 ?_
    rw [Nat.add_comm]
    exact Gains.add.2 ⟨r', h, h'⟩
  · cases slot with
    | none =>
      obtain rfl : r' = r := h
      exact ⟨r'', h', rfl⟩
    | some i =>
      cases slot' with
      | none =>
        obtain rfl : r'' = r' := h'
        exact ⟨r, rfl, h⟩
      | some j =>
        by_cases ha : a = 0
        · subst ha
          obtain rfl : r' = r := h
          exact ⟨r'', h', rfl⟩
        · by_cases hb : b = 0
          · subst hb
            obtain rfl : r'' = r' := h'
            exact ⟨r, rfl, h⟩
          · rw [gains_some ha] at h
            rw [gains_some hb] at h'
            obtain ⟨t, hfirst, hsecond⟩ := h.comm_of_ne (fun hij => hslots (congrArg some hij)) h'
            exact ⟨t, (gains_some hb).2 hfirst, (gains_some ha).2 hsecond⟩

end Roster

/-- **A destination answers alike in all worlds**: what a delivery comes to depends on the message
and not on what was delivered before. -/
def Executor.Steady {ω : Type} (executor : Executor ω) : Prop :=
  ∀ (d : Digest) (m : InboundMessage) (w w' : ω),
    (executor.execute d m).result w = (executor.execute d m).result w'

namespace Inbound

variable {ω : Type} {b : Bridge} {now : Slot}

theorem deliver_of_steady {executor : Executor ω} (h : executor.Steady) {d : Digest}
    {m : InboundMessage} {w w₁ : ω} {failure : Option Fault}
    (hdeliver : deliver executor d m w = .ok failure w₁) (w' : ω) :
    ∃ w₁', deliver executor d m w' = .ok failure w₁' := by
  have hsame := h d m w w'
  unfold Action.result at hsame
  simp only [deliver_eq_ok] at hdeliver ⊢
  rcases hdeliver with ⟨hrun, rfl⟩ | ⟨e, hrun, rfl⟩
  · rw [hrun] at hsame
    cases hrun' : executor.execute d m w' with
    | ok u w₁' => exact ⟨w₁', Or.inl ⟨rfl, rfl⟩⟩
    | error e' w₁' => simp [hrun'] at hsame
  · rw [hrun] at hsame
    cases hrun' : executor.execute d m w' with
    | ok u w₁' => simp [hrun'] at hsame
    | error e' w₁' =>
      obtain rfl : e = e' := by simpa [hrun'] using hsame
      exact ⟨w₁', Or.inr ⟨e, rfl, rfl⟩⟩

theorem Submission.rewardOn_congr {r r' : Roster} (h : r'.faces = r.faces) (s : Submission) :
    s.rewardOn r' = s.rewardOn r := by
  unfold rewardOn
  rw [Roster.indexOfOwner_congr h]

/-- **Two submitters can be credited in either order.** -/
theorem Credited.comm {s s' : Submission} {n n' : Nat} {r r' r'' : Roster}
    (h : Credited s n r r') (h' : Credited s' n' r' r'') :
    ∃ t, Credited s' n' r t ∧ Credited s n t r'' := by
  have hsecond := h'
  unfold Credited at hsecond
  rw [h.indexOfOwner] at hsecond
  obtain ⟨t, hfirst, hlast⟩ := Roster.Gains.comm h hsecond
  have hcredited : Credited s' n' r t := hfirst
  refine ⟨t, hcredited, ?_⟩
  unfold Credited
  rw [hcredited.indexOfOwner]
  exact hlast

/-- The records are the same, and only the world may be another. -/
structure BatchState.SameRecords (st t : BatchState ω) : Prop where
  chain : t.chain = st.chain
  roster : t.roster = st.roster
  receipts : t.receipts = st.receipts

theorem BatchState.SameRecords.refl (st : BatchState ω) : st.SameRecords st := ⟨rfl, rfl, rfl⟩

theorem BatchState.SameRecords.trans {st t u : BatchState ω} (h : st.SameRecords t)
    (h' : t.SameRecords u) : st.SameRecords u :=
  ⟨h'.chain.trans h.chain, h'.roster.trans h.roster, h'.receipts.trans h.receipts⟩

/-! ## One message -/

/-- A message with all that it is submitted with, and the place of its receipt. -/
structure Parcel (ω : Type) extends Voucher where
  message : InboundMessage
  place : Nat
  submitter : Key
  liquidity : Amount
  executor : Executor ω

namespace Parcel

variable {p q : Parcel ω} {d : Digest} {chain chain' : Chain} {roster roster' : Roster}
  {st st' st₁ st₂ t : BatchState ω} {o o' : Outcome}

/-- What the message is judged by. -/
def submission (b : Bridge) (now : Slot) (p : Parcel ω) : Submission where
  bridge := b
  verify := p.verify
  submitter := p.submitter
  liquidity := p.liquidity
  now := now

/-- Hand the message in. -/
def submit (b : Bridge) (now : Slot) (p : Parcel ω) : Action (BatchState ω) Outcome :=
  BatchState.onMember p.place p.cursor
    (process (p.submission b now) p.executor p.message p.attestations)

/-- What is asked of a message and does not depend on what was handed in before it. -/
structure Admissible (b : Bridge) (p : Parcel ω) (d : Digest) (chain : Chain) (roster : Roster) :
    Prop where
  own : Digest.ofMessage b.hostChain b.identity p.message = .ok d
  source : chain.id = p.message.sourceChain
  active : chain.active = true
  limits : chain.checkLimits p.message.payload.length p.message.computeBudget = .ok ()
  quorum : ∃ t, Quorum.check roster d p.attestations p.verify = .ok t
  liquidity : p.message.value ≤ p.liquidity
  prepared : p.executor.prepare p.message = .ok ()

/-- A window, a highest nonce and earnings do not matter to what is asked. -/
theorem Admissible.keep (h : p.Admissible b d chain roster)
    (hchain : ∃ window nonce, chain' = { chain with inbound := window, highestInbound := nonce })
    (hfaces : roster'.faces = roster.faces) (hrequired : roster'.required = roster.required) :
    p.Admissible b d chain' roster' := by
  obtain ⟨window, nonce, rfl⟩ := hchain
  refine ⟨h.own, h.source, h.active, h.limits, ?_, h.liquidity, h.prepared⟩
  rw [Quorum.check_congr hfaces hrequired]
  exact h.quorum

/-- **What taking a message asks and does**, on a chain without strict ordering. -/
structure Taken (b : Bridge) (now : Slot) (p : Parcel ω) (st : BatchState ω) (o : Outcome)
    (st' : BatchState ω) : Prop where
  admissible : p.Admissible b o.digest st.chain st.roster
  window : ∃ window, st.chain.acceptInbound now b.epochLength 1 = .ok window ∧
    st'.chain = Chain.recordInboundNonce p.message.sourceNonce { st.chain with inbound := window }
  credited : Credited (p.submission b now) 1 st.roster st'.roster
  marked : ∃ receipt, Receipt.insert o.digest (st.receipts.getD p.place {}) = .ok () receipt ∧
    st'.receipts = st.receipts.set p.place receipt
  delivered : deliver p.executor o.digest p.message st.world = .ok o.failure st'.world
  source : o.sourceChain = p.message.sourceChain ∧ o.sourceNonce = p.message.sourceNonce
  reward : o.reward = (p.submission b now).rewardOn st.roster

/-- **Without strict ordering no cursor is looked at**, and a message is taken just so. -/
theorem submit_eq_ok (hunordered : st.chain.limits.strictOrdering = false) :
    p.submit b now st = .ok o st' ↔ p.Taken b now st o st' := by
  unfold submit BatchState.onMember
  simp only [Action.on_eq_ok, process_eq_ok, vet_eq_ok, commit_eq_ok]
  constructor
  · rintro ⟨_, ⟨digest, window, reward, roster, ⟨hown, -, hchain, hactive, hlimits, -, hwindow,
      hquorum, hliquidity, hprepared⟩, hcredit, receipt, failure, world, hinsert, hdeliver, rfl,
      rfl⟩, rfl⟩
    have hpaid : creditSubmitter (p.submission b now) 1 st.roster = .ok reward roster := hcredit
    obtain ⟨-, hreward, hcredited⟩ := creditSubmitter_eq_ok_iff.1 hpaid
    rw [Nat.mul_one, UInt64.toNat_inj] at hreward
    exact ⟨⟨hown, hchain, hactive, hlimits, hquorum, hliquidity, hprepared⟩, ⟨window, hwindow, rfl⟩,
      hcredited, ⟨receipt, hinsert, rfl⟩, hdeliver, ⟨rfl, rfl⟩, hreward⟩
  · intro h
    obtain ⟨window, hwindow, hchain⟩ := h.window
    obtain ⟨receipt, hinsert, hreceipts⟩ := h.marked
    have hpaid : creditSubmitter (p.submission b now) 1 st.roster = .ok o.reward st'.roster :=
      creditSubmitter_eq_ok_iff.2 ⟨by rw [Nat.mul_one]; exact UInt64.toNat_lt _,
        by rw [Nat.mul_one, h.reward], h.credited⟩
    have hfresh : (st.receipts.getD p.place {}).contains o.digest = false := by
      unfold Receipt.contains
      rw [(Receipt.insert_eq_ok.1 hinsert).1, Bool.false_and]
    have horder : checkOrder st.chain p.cursor p.message = .ok () := by
      unfold checkOrder
      rw [hunordered]
      rfl
    have ha := h.admissible
    refine ⟨_, ⟨o.digest, window, o.reward, st'.roster, ⟨ha.own, hfresh, ha.source, ha.active,
      ha.limits, horder, hwindow, ha.quorum, ha.liquidity, ha.prepared⟩, hpaid, receipt, o.failure,
      st'.world, hinsert, h.delivered, ?_, rfl⟩, ?_⟩
    · rw [← h.source.1, ← h.source.2]
    · rw [← hchain, ← hreceipts]

/-- What a message leaves of the chain for those after it. -/
theorem Taken.chain_eq (h : p.Taken b now st o st') :
    ∃ window nonce, st'.chain =
      { st.chain with inbound := window, highestInbound := nonce } := by
  obtain ⟨window, -, hchain⟩ := h.window
  obtain ⟨nonce, hnonce⟩ := Chain.exists_recordInboundNonce p.message.sourceNonce
    { st.chain with inbound := window }
  exact ⟨window, nonce, hchain.trans hnonce⟩

theorem Taken.unordered (h : p.Taken b now st o st')
    (hunordered : st.chain.limits.strictOrdering = false) :
    st'.chain.limits.strictOrdering = false := by
  obtain ⟨window, nonce, hchain⟩ := h.chain_eq
  rw [hchain]
  exact hunordered

/-- **In another world a message is taken with the same outcome.** -/
theorem Taken.congr (h : p.Taken b now st o st₁) (hsteady : p.executor.Steady)
    (hsame : st.SameRecords t) : ∃ t₁, p.Taken b now t o t₁ ∧ st₁.SameRecords t₁ := by
  obtain ⟨world, hdeliver⟩ := deliver_of_steady hsteady h.delivered t.world
  refine ⟨{ st₁ with world }, ⟨?_, ?_, ?_, ?_, hdeliver, h.source, ?_⟩, rfl, rfl, rfl⟩
  · rw [hsame.chain, hsame.roster]
    exact h.admissible
  · rw [hsame.chain]
    exact h.window
  · rw [hsame.roster]
    exact h.credited
  · rw [hsame.receipts]
    exact h.marked
  · rw [hsame.roster]
    exact h.reward

/-! ## Two messages -/

/-- **Two messages that follow each other can trade places.** -/
theorem Taken.swap (h : p.Taken b now st o st₁) (h' : q.Taken b now st₁ o' st₂)
    (hplaces : p.place ≠ q.place) (hp : p.executor.Steady) (hq : q.executor.Steady) :
    ∃ t₁ t₂, q.Taken b now st o' t₁ ∧ p.Taken b now t₁ o t₂ ∧ st₂.SameRecords t₂ := by
  obtain ⟨first, hfirst, hchain⟩ := h.window
  obtain ⟨second, hsecond, hchain'⟩ := h'.window
  obtain ⟨receipt, hinsert, hreceipts⟩ := h.marked
  obtain ⟨receipt', hinsert', hreceipts'⟩ := h'.marked
  obtain ⟨roster, hcredited', hcredited⟩ := h.credited.comm h'.credited
  obtain ⟨world₁, hdeliver'⟩ := deliver_of_steady hq h'.delivered st.world
  obtain ⟨world₂, hdeliver⟩ := deliver_of_steady hp h.delivered world₁
  have hfaces := h.credited.faces
  have hfaces' := hcredited'.faces
  rw [hchain, Chain.recordInboundNonce_inbound] at hchain'
  rw [hchain, Chain.acceptInbound_recordInboundNonce] at hsecond
  rw [hreceipts, List.getD_eq_getElem?_getD, List.getElem?_set_ne hplaces,
    ← List.getD_eq_getElem?_getD] at hinsert'
  refine ⟨{ chain := Chain.recordInboundNonce q.message.sourceNonce
              { st.chain with inbound := first }
            roster, receipts := st.receipts.set q.place receipt', world := world₁ },
    { st₂ with world := world₂ },
    { admissible := ?_, window := ⟨first, hfirst, rfl⟩, credited := hcredited'
      marked := ⟨receipt', hinsert', rfl⟩, delivered := hdeliver', source := h'.source
      reward := ?_ },
    { admissible := ?_, window := ⟨second, ?_, ?_⟩, credited := hcredited
      marked := ⟨receipt, ?_, ?_⟩, delivered := hdeliver, source := h.source, reward := ?_ },
    rfl, rfl, rfl⟩
  · obtain ⟨window, nonce, hleft⟩ := h.chain_eq
    refine h'.admissible.keep ⟨st.chain.inbound, st.chain.highestInbound, ?_⟩ hfaces.1.symm
      hfaces.2.symm
    rw [hleft]
  · rw [h'.reward, Submission.rewardOn_congr hfaces.1]
  · obtain ⟨nonce, hleft⟩ := Chain.exists_recordInboundNonce q.message.sourceNonce
      { st.chain with inbound := first }
    exact h.admissible.keep ⟨first, nonce, hleft⟩ hfaces'.1 hfaces'.2
  · rw [Chain.acceptInbound_recordInboundNonce]
    exact hsecond
  · rw [Chain.recordInboundNonce_inbound, Chain.recordInboundNonce_comm]
    exact hchain'
  · rw [List.getD_eq_getElem?_getD, List.getElem?_set_ne hplaces.symm,
      ← List.getD_eq_getElem?_getD]
    exact hinsert
  · rw [List.set_comm _ _ hplaces.symm, ← hreceipts]
    exact hreceipts'
  · rw [h.reward, Submission.rewardOn_congr hfaces'.1]

end Parcel

/-! ## All of them -/

variable {ps ps' : List (Parcel ω)} {st st' t : BatchState ω} {os : List Outcome}

/-- Hand messages in, one after the other in one slot. -/
def submitAll (b : Bridge) (now : Slot) (ps : List (Parcel ω)) :
    Action (BatchState ω) (List Outcome) :=
  ps.mapM (Parcel.submit b now)

/-- **Another order leads to the same records**, from the same records in any world. -/
theorem submitAll_perm (hperm : ps.Perm ps') (hplaces : (ps.map Parcel.place).Nodup)
    (hsteady : ∀ p ∈ ps, p.executor.Steady)
    (hunordered : st.chain.limits.strictOrdering = false) (hsame : st.SameRecords t)
    (h : submitAll b now ps st = .ok os st') :
    ∃ os' t', submitAll b now ps' t = .ok os' t' ∧ (ps.zip os).Perm (ps'.zip os') ∧
      st'.SameRecords t' := by
  unfold submitAll at h ⊢
  induction hperm using List.Perm.recOnSwap' generalizing st t os st' with
  | nil =>
    obtain ⟨rfl, rfl⟩ := mapM_nil_eq_ok.1 h
    exact ⟨[], t, mapM_nil_eq_ok.2 ⟨rfl, rfl⟩, .refl _, hsame⟩
  | cons p hperm ih =>
    rw [List.map_cons, List.nodup_cons] at hplaces
    rw [List.forall_mem_cons] at hsteady
    obtain ⟨o, st₁, rest, hfirst, hrest, rfl⟩ := mapM_cons_eq_ok.1 h
    have htaken := (Parcel.submit_eq_ok hunordered).1 hfirst
    obtain ⟨t₁, htaken', hsame₁⟩ := htaken.congr hsteady.1 hsame
    obtain ⟨os', t', hrest', houtcomes, hsame'⟩ :=
      ih hplaces.2 hsteady.2 (htaken.unordered hunordered) hsame₁ hrest
    have hfirst' := (Parcel.submit_eq_ok (by rw [hsame.chain]; exact hunordered)).2 htaken'
    exact ⟨o :: os', t', mapM_cons_eq_ok.2 ⟨o, t₁, os', hfirst', hrest', rfl⟩, houtcomes.cons _,
      hsame'⟩
  | swap' q p hperm ih =>
    rw [List.map_cons, List.map_cons, List.nodup_cons, List.nodup_cons] at hplaces
    rw [List.forall_mem_cons, List.forall_mem_cons] at hsteady
    obtain ⟨o, st₁, tail, hfirst, htail, rfl⟩ := mapM_cons_eq_ok.1 h
    obtain ⟨o', st₂, rest, hsecond, hrest, rfl⟩ := mapM_cons_eq_ok.1 htail
    have hp := (Parcel.submit_eq_ok hunordered).1 hfirst
    have hunordered₁ := hp.unordered hunordered
    have hq := (Parcel.submit_eq_ok hunordered₁).1 hsecond
    have hne : p.place ≠ q.place := fun heq => hplaces.1 (heq ▸ List.mem_cons_self)
    obtain ⟨u₁, u₂, hq', hp', hsame₂⟩ := hp.swap hq hne hsteady.1 hsteady.2.1
    -- what was found in one world, for the other
    obtain ⟨t₁, hq', hsame₁⟩ := hq'.congr hsteady.2.1 hsame
    obtain ⟨t₂, hp', hsame₁⟩ := hp'.congr hsteady.1 hsame₁
    obtain ⟨os', t', hrest', houtcomes, hsame'⟩ := ih hplaces.2.2 hsteady.2.2
      (hq.unordered hunordered₁) (hsame₂.trans hsame₁) hrest
    have hunordered' : t.chain.limits.strictOrdering = false := by
      rw [hsame.chain]
      exact hunordered
    have hfirst' := (Parcel.submit_eq_ok hunordered').2 hq'
    have hsecond' := (Parcel.submit_eq_ok (hq'.unordered hunordered')).2 hp'
    exact ⟨o' :: o :: os', t', mapM_cons_eq_ok.2 ⟨o', t₁, _, hfirst', mapM_cons_eq_ok.2
      ⟨o, t₂, os', hsecond', hrest', rfl⟩, rfl⟩, .swap' _ _ houtcomes, hsame'⟩
  | trans hperm hperm' ih ih' =>
    obtain ⟨os₁, t₁, h₁, houtcomes, hsame₁⟩ := ih hplaces hsteady hunordered (.refl st) h
    have hplaces' := (hperm.map Parcel.place).nodup_iff.1 hplaces
    obtain ⟨os', t', h', houtcomes', hsame'⟩ :=
      ih' hplaces' (fun p hp => hsteady p (hperm.mem_iff.2 hp)) hunordered hsame h₁
    exact ⟨os', t', h', houtcomes.trans houtcomes', hsame₁.trans hsame'⟩

/-- **Messages of one slot commute.**  If messages with a receipt each go through in one order, on a
chain without strict ordering and to destinations that answer alike in all worlds, they go through
in every other order.  Each has the same outcome then, and the chain, the roster and the receipts
end up the same.  It does not matter who submits them, with which signatures and how much there is
to pay out for each, nor how the slot lies to the rate window. -/
theorem submissions_commute {b : Bridge} {now : Slot} {ps ps' : List (Parcel ω)}
    (hperm : ps.Perm ps') (hplaces : (ps.map Parcel.place).Nodup)
    (hsteady : ∀ p ∈ ps, p.executor.Steady) {st st' : BatchState ω}
    (hunordered : st.chain.limits.strictOrdering = false) {os : List Outcome}
    (h : submitAll b now ps st = .ok os st') :
    ∃ os' st'', submitAll b now ps' st = .ok os' st'' ∧ (ps.zip os).Perm (ps'.zip os') ∧
      st''.chain = st'.chain ∧ st''.roster = st'.roster ∧ st''.receipts = st'.receipts := by
  obtain ⟨os', st'', hrun, houtcomes, hsame⟩ :=
    submitAll_perm hperm hplaces hsteady hunordered (.refl st) h
  exact ⟨os', st'', hrun, houtcomes, hsame.chain, hsame.roster, hsame.receipts⟩

/-- A relayer hands in two messages as a new window starts, and could have handed them in the other
way round; their destination, which writes down what it gets, would tell. -/
theorem submissions_commute_at_the_edge :
    let b : Bridge := { epochLength := 1, fees := { relayReward := 3 } }
    let executor : Executor (List Nonce) :=
      ⟨fun _ => .ok (), fun _ m w => .ok () (m.sourceNonce :: w)⟩
    let parcel (place : Nat) (nonce : Nonce) : Parcel (List Nonce) := {
      attestations := [{}], verify := fun _ _ _ => true, cursor := none
      message := { sender := [1], sourceNonce := nonce }
      place, submitter := .zero, liquidity := 0, executor }
    let st : BatchState (List Nonce) :=
      ⟨{ active := true, limits := { rateLimit := 2 }, inbound := { start := 0, count := 2 } },
        { required := 1, active := 1, slots := [some {}] }, [{}, {}], []⟩
    ∃ os os' st' st'', submitAll b 5 [parcel 0 7, parcel 1 3] st = .ok os st' ∧
      submitAll b 5 [parcel 1 3, parcel 0 7] st = .ok os' st'' ∧
      st'.world = [3, 7] ∧ st'.chain.inbound = { start := 5, count := 2 } ∧
      st'.chain.highestInbound = 7 ∧ st'.roster.slots = [some { earned := 6 }] ∧
      st''.chain = st'.chain ∧ st''.roster = st'.roster ∧ st''.receipts = st'.receipts := by
  intro b executor parcel st
  obtain ⟨os, st', hrun, hrecords⟩ : ∃ os st',
      submitAll b 5 [parcel 0 7, parcel 1 3] st = .ok os st' ∧
      st'.world = [3, 7] ∧ st'.chain.inbound = { start := 5, count := 2 } ∧
      st'.chain.highestInbound = 7 ∧ st'.roster.slots = [some { earned := 6 }] :=
    ⟨_, _, rfl, rfl, rfl, rfl, rfl⟩
  have hsteady : ∀ p ∈ [parcel 0 7, parcel 1 3], p.executor.Steady := by
    simp only [List.forall_mem_cons]
    exact ⟨fun _ _ _ _ => rfl, fun _ _ _ _ => rfl, nofun⟩
  obtain ⟨os', st'', hrun', -, hsame⟩ := submissions_commute (.swap (parcel 1 3) (parcel 0 7) [])
    (by decide) hsteady rfl hrun
  exact ⟨os, os', st', st'', hrun, hrun', hrecords.1, hrecords.2.1, hrecords.2.2.1,
    hrecords.2.2.2, hsame⟩

end Inbound
end QuorumRelay
