import QuorumRelay.Proofs.Governance
import QuorumRelay.Proofs.Inbound.Rejected
import QuorumRelay.Proofs.Outbound.Queue
import QuorumRelay.Proofs.Windows

/-!
# The traffic that a chain lets through

Five operations work on the record of a chain.  Queueing a message asks its
outbound window for passage, executing messages asks the inbound one, and what
the governor does asks neither (`Chain.Call.granted`, `Chain.Call.not_asked`).
From any point on, the calls of a run make up a log of admissions in each
direction, and the log stays what a window remembers of it
(`Chain.windowed_of_calls`).

## What is counted

A call tells itself how many messages it admitted: one for a message that was
queued or executed, and for a batch the members that it executed, not those that
it skipped.  The window is asked for as many, so the count in the log is the
result of the call and the start beside it is read off the record afterwards.

The other records that a call works on belong to the call.  They may be anything,
and so may what happens to them between two calls; only the length of an epoch
has to stay.
-/

namespace QuorumRelay

/-- The ways that messages go. -/
inductive Direction where
  | outbound
  | inbound
  deriving DecidableEq

namespace Chain

variable {ω : Type}

/-- The window of a direction. -/
def window (c : Chain) : Direction → RateWindow
  | .outbound => c.outbound
  | .inbound => c.inbound

/-- The operations on a chain, with everything else that they work on. -/
inductive Call (ω : Type) where
  | queue (bridge : Bridge) (sponsor : Option Sponsor) (sender : Key) (q : SendRequest)
      (now : Slot)
  | process (s : Inbound.Submission) (executor : Executor ω) (m : InboundMessage)
      (attestations : List Attestation) (roster : Roster) (receipt : Receipt)
      (cursor : Option Cursor) (world : ω)
  | processBatch (s : Inbound.Submission) (executors : List (Executor ω))
      (messages : List InboundMessage) (attestations : List Attestation) (roster : Roster)
      (receipts : List Receipt) (world : ω)
  | setActive (council : Council) (actor : Key) (active : Bool)
  | configure (council : Council) (actor : Key) (id : ChainId) (limits : Limits)

/-- Make a call and tell how many messages it admitted. -/
def Call.run : Call ω → Action Chain Nat
  | queue bridge sponsor sender q now => do
    let _ ← (Outbox.queue sender q now).on (fun chain => ⟨bridge, chain, sponsor⟩)
      fun o _ => o.chain
    return 1
  | process s executor m attestations roster receipt cursor world => do
    let _ ← (Inbound.process s executor m attestations).on
      (fun chain => ⟨chain, roster, receipt, cursor, world⟩) fun st _ => st.chain
    return 1
  | processBatch s executors messages attestations roster receipts world => do
    let o ← (Inbound.processBatch s executors messages attestations).on
      (fun chain => ⟨chain, roster, receipts, world⟩) fun st _ => st.chain
    return o.executedCount
  | setActive council actor active => do
    Governance.setChainActive council actor active
    return 0
  | configure council actor id limits => do
    Governance.configureChain council actor id limits
    return 0

/-- The receipts that a call is handed serve the digests of its messages. -/
def Call.Served : Call ω → Prop
  | process s _ m _ _ receipt _ _ =>
    ∀ d, Digest.ofMessage s.bridge.hostChain s.bridge.identity m = .ok d → receipt.Serves d
  | processBatch s _ messages _ _ receipts _ =>
    ∀ p ∈ messages.zip receipts, ∀ d,
      Digest.ofMessage s.bridge.hostChain s.bridge.identity p.1 = .ok d → p.2.Serves d
  | _ => True

/-- What a call that wants messages to pass asks for. -/
structure Passage where
  direction : Direction
  now : Slot
  epochLength : Slot

/-- The passage that a call asks for, if it does. -/
def Call.passage? : Call ω → Option Passage
  | queue bridge _ _ _ now => some ⟨.outbound, now, bridge.epochLength⟩
  | process s .. => some ⟨.inbound, s.now, s.bridge.epochLength⟩
  | processBatch s .. => some ⟨.inbound, s.now, s.bridge.epochLength⟩
  | setActive .. => none
  | configure .. => none

/-! ## One call -/

variable {c c' : Chain} {call : Call ω} {calls : List (Call ω)} {n : Nat} {f : Fault}
  {p : Passage} {d : Direction}

/-- **A call that fails leaves the chain as it was.** -/
theorem Call.run_eq_error (hserved : call.Served) (h : call.run c = .error f c') : c' = c := by
  cases call with
  | queue =>
    obtain ⟨o, hqueue, rfl⟩ := Action.on_eq_error.1 (Action.bind_pure_eq_error.1 h)
    rw [Outbox.queue_eq_error hqueue]
  | process =>
    obtain ⟨st, hprocess, rfl⟩ := Action.on_eq_error.1 (Action.bind_pure_eq_error.1 h)
    unfold Served at hserved
    rw [((Inbound.process_eq_error_iff hserved).1 hprocess).1]
  | processBatch =>
    obtain ⟨st, hbatch, rfl⟩ := Action.on_eq_error.1 (Action.bind_pure_eq_error.1 h)
    unfold Served at hserved
    rw [((Inbound.processBatch_eq_error_iff hserved).1 hbatch).1]
  | setActive => exact Governance.setChainActive_eq_error (Action.bind_pure_eq_error.1 h)
  | configure => exact Governance.configureChain_eq_error (Action.bind_pure_eq_error.1 h)

/-- What the passage of a number of messages leaves of the windows. -/
structure Passage.Granted (p : Passage) (n : Nat) (c c' : Chain) : Prop where
  own : (n = 0 ∧ c'.window p.direction = c.window p.direction) ∨
    0 < n ∧ ∃ count : UInt32, count.toNat = n ∧
      (c.window p.direction).accept p.now p.epochLength c.limits.rateLimit count =
        .ok (c'.window p.direction)
  other : ∀ d, d ≠ p.direction → c'.window d = c.window d

/-- An outbound window that was put in place is granted. -/
theorem Passage.granted_outbound {now epochLength : Slot} {w : RateWindow}
    (h : c.acceptOutbound now epochLength = .ok w) :
    Passage.Granted ⟨.outbound, now, epochLength⟩ 1 c { c with outbound := w } where
  own := .inr ⟨Nat.one_pos, 1, rfl, h⟩
  other d hd := by
    cases d with
    | outbound => exact absurd rfl hd
    | inbound => rfl

/-- So is an inbound one, whatever becomes of the highest nonce. -/
theorem Passage.granted_inbound {now epochLength : Slot} {w : RateWindow} (nonce : Nonce)
    (h : (n = 0 ∧ w = c.inbound) ∨ 0 < n ∧ ∃ count : UInt32, count.toNat = n ∧
      c.acceptInbound now epochLength count = .ok w) :
    Passage.Granted ⟨.inbound, now, epochLength⟩ n c
      { c with inbound := w, highestInbound := nonce } where
  own := h
  other d hd := by
    cases d with
    | outbound => rfl
    | inbound => exact absurd rfl hd

/-- **A call that asks for passage is granted what it admits**, in its own direction only. -/
theorem Call.granted (hp : p ∈ call.passage?) (h : call.run c = .ok n c') :
    p.Granted n c c' := by
  cases call with
  | queue =>
    cases hp
    obtain ⟨_, hcall, rfl⟩ := Action.bind_pure_eq_ok.1 h
    obtain ⟨o, hqueue, rfl⟩ := Action.on_eq_ok.1 hcall
    obtain ⟨w, haccept, hchain⟩ := (Outbox.queued_of_queue hqueue).window
    rw [hchain]
    exact Passage.granted_outbound haccept
  | process =>
    cases hp
    obtain ⟨_, hcall, rfl⟩ := Action.bind_pure_eq_ok.1 h
    obtain ⟨st, hprocess, rfl⟩ := Action.on_eq_ok.1 hcall
    obtain ⟨w, haccept, hchain⟩ := (Inbound.processed_of_process hprocess).window
    obtain ⟨nonce, hnonce⟩ := exists_recordInboundNonce _ _
    rw [hchain, hnonce]
    exact Passage.granted_inbound nonce (.inr ⟨Nat.one_pos, 1, rfl, haccept⟩)
  | processBatch =>
    cases hp
    obtain ⟨o, hcall, rfl⟩ := Action.bind_pure_eq_ok.1 h
    obtain ⟨st, hbatch, rfl⟩ := Action.on_eq_ok.1 hcall
    obtain ⟨ds, hbatched⟩ := Inbound.batched_of_processBatch hbatch
    obtain ⟨hsize, w, nonce, haccept, hchain⟩ := hbatched.admitted
    rw [hchain]
    refine Passage.granted_inbound nonce ?_
    unfold Inbound.acceptAll at haccept
    by_cases hzero : o.executedCount = 0
    · rw [if_pos hzero] at haccept
      cases haccept
      exact .inl ⟨hzero, rfl⟩
    · rw [if_neg hzero] at haccept
      have hlt : o.executedCount < UInt32.size := Nat.lt_of_le_of_lt hsize (by decide)
      exact .inr ⟨Nat.pos_of_ne_zero hzero, _, UInt32.toNat_ofNat_of_lt' hlt, haccept⟩
  | setActive => cases hp
  | configure => cases hp

/-- A call that does not ask for passage leaves the windows. -/
theorem Call.not_asked (hp : call.passage? = none) (h : call.run c = .ok n c') :
    c'.window d = c.window d := by
  cases call with
  | queue => cases hp
  | process => cases hp
  | processBatch => cases hp
  | setActive =>
    obtain ⟨_, hset, -⟩ := Action.bind_pure_eq_ok.1 h
    obtain ⟨-, rfl⟩ := Governance.setChainActive_eq_ok hset
    cases d <;> rfl
  | configure =>
    obtain ⟨_, hset, -⟩ := Action.bind_pure_eq_ok.1 h
    obtain ⟨-, -, hconfigure⟩ := Governance.configureChain_eq_ok hset
    obtain ⟨-, -, rfl⟩ := configure_eq_ok hconfigure
    cases d <;> rfl

/-- **Only traffic in a direction changes its window.** -/
theorem Call.window_after_of_ne (hserved : call.Served)
    (hother : ∀ p ∈ call.passage?, p.direction ≠ d) :
    (call.run.after c).window d = c.window d := by
  refine Action.after_induct (P := fun c' : Chain => c'.window d = c.window d) ?_ ?_
  · intro n c' h
    cases hp : call.passage? with
    | none => exact not_asked hp h
    | some p => exact (granted hp h).other d (hother p hp).symm
  · intro f c' h
    rw [run_eq_error hserved h]

/-! ## A run of calls -/

/-- What a call admits in a direction: nothing, if it fails or goes the other way. -/
def Call.admission? (call : Call ω) (d : Direction) (c : Chain) : Option Admission :=
  match call.passage?, call.run c with
  | some p, .ok n c' =>
    if p.direction = d then
      some { slot := p.now, start := (c'.window d).start, limit := c.limits.rateLimit, count := n }
    else none
  | _, _ => none

theorem Call.admission?_of_error (h : call.run c = .error f c') : call.admission? d c = none := by
  unfold admission?
  rw [h]
  cases call.passage? <;> rfl

theorem Call.admission?_of_not_asked (hp : call.passage? = none) :
    call.admission? d c = none := by
  unfold admission?
  rw [hp]

theorem Call.admission?_of_ok (hp : call.passage? = some p) (h : call.run c = .ok n c') :
    call.admission? d c = if p.direction = d then some {
      slot := p.now, start := (c'.window d).start, limit := c.limits.rateLimit, count := n }
    else none := by
  unfold admission?
  rw [hp, h]

/-- The log of what the calls of a run admit in a direction. -/
def admissions (d : Direction) : Chain → List (Call ω) → List Admission
  | _, [] => []
  | c, call :: calls => (call.admission? d c).toList ++ admissions d (call.run.after c) calls

/-- The chain after some calls, whatever became of each. -/
def afterCalls (c : Chain) (calls : List (Call ω)) : Chain :=
  calls.foldl (fun c call => call.run.after c) c

/-- **What is assumed of the calls of a run.**  Receipts serve the messages they come with, an epoch
has a fixed length, and the slots of the calls do not go back and stay short of the very last
one. -/
structure Orderly (epochLength : Slot) (calls : List (Call ω)) : Prop where
  served : ∀ call ∈ calls, call.Served
  epoch : ∀ call ∈ calls, ∀ p ∈ call.passage?, p.epochLength = epochLength
  now_lt : ∀ call ∈ calls, ∀ p ∈ call.passage?, p.now.toNat + 1 < UInt64.size
  ordered : calls.Pairwise fun call later =>
    ∀ p ∈ call.passage?, ∀ q ∈ later.passage?, p.now ≤ q.now

variable {L : Slot} {R : Nat} {log : List Admission}

theorem Orderly.tail (h : Orderly L (call :: calls)) : Orderly L calls where
  served a ha := h.served a (List.mem_cons_of_mem _ ha)
  epoch a ha := h.epoch a (List.mem_cons_of_mem _ ha)
  now_lt a ha := h.now_lt a (List.mem_cons_of_mem _ ha)
  ordered := (List.pairwise_cons.1 h.ordered).2

/-- **What a call admits goes on the log**, and the window that it leaves remembers it. -/
theorem Call.windowed (hL : 0 < L) (hserved : call.Served)
    (hpassage : ∀ p ∈ call.passage?, p.epochLength = L ∧ p.now.toNat + 1 < UInt64.size ∧
      (c.window d).start ≤ p.now)
    (hlimit : ∀ a ∈ call.admission? d c, 0 < a.count → a.limit.toNat ≤ R)
    (h : RateWindow.Windowed L.toNat R (c.window d) log) :
    RateWindow.Windowed L.toNat R ((call.run.after c).window d)
      (log ++ (call.admission? d c).toList) := by
  cases hrun : call.run c with
  | error f c' =>
    rw [Action.after_of_error hrun, run_eq_error hserved hrun, admission?_of_error hrun]
    simpa using h
  | ok n c' =>
    rw [Action.after_of_ok hrun]
    cases hpass : call.passage? with
    | none =>
      rw [not_asked hpass hrun, admission?_of_not_asked hpass]
      simpa using h
    | some p =>
      have hgranted := granted hpass hrun
      have hadmission := admission?_of_ok (d := d) hpass hrun
      by_cases hd : p.direction = d
      · subst hd
        rw [if_pos rfl] at hadmission
        rw [hadmission, Option.toList_some]
        obtain ⟨hepoch, hnow, hstart⟩ := hpassage p hpass
        rcases hgranted.own with ⟨hzero, hsame⟩ | ⟨hpos, count, rfl, haccept⟩
        · rw [hsame]
          exact h.skip hzero
        · rw [hepoch] at haccept
          exact h.accept hL hnow hstart haccept (hlimit _ hadmission hpos)
      · rw [hgranted.other d (Ne.symm hd), hadmission, if_neg hd]
        simpa using h

/-- A window that has started by a slot still has after a call that is no later. -/
theorem Call.start_after_le (hserved : call.Served) {slot : Slot}
    (hstart : (c.window d).start ≤ slot)
    (hpassage : ∀ p ∈ call.passage?, (c.window d).start ≤ p.now ∧ p.now ≤ slot) :
    ((call.run.after c).window d).start ≤ slot := by
  by_cases hother : ∀ p ∈ call.passage?, p.direction ≠ d
  · rw [window_after_of_ne hserved hother]
    exact hstart
  · refine Action.after_induct (P := fun c' : Chain => (c'.window d).start ≤ slot) ?_ ?_
    · intro n c' hrun
      simp only [not_forall, not_not] at hother
      obtain ⟨p, hp, rfl⟩ := hother
      rcases (granted hp hrun).own with ⟨-, hsame⟩ | ⟨-, count, -, haccept⟩
      · rw [hsame]
        exact hstart
      · have hle := RateWindow.start_le_of_accept (hpassage p hp).1 haccept
        exact UInt64.le_trans hle (hpassage p hp).2
    · intro f c' hrun
      rw [run_eq_error hserved hrun]
      exact hstart

/-- **The log of a run is what the window remembers of it.** -/
theorem windowed_of_calls (hL : 0 < L) (hcalls : Orderly L calls)
    (hstart : ∀ call ∈ calls, ∀ p ∈ call.passage?, (c.window d).start ≤ p.now)
    (hlimit : ∀ a ∈ admissions d c calls, 0 < a.count → a.limit.toNat ≤ R)
    (h : RateWindow.Windowed L.toNat R (c.window d) log) :
    RateWindow.Windowed L.toNat R ((c.afterCalls calls).window d)
      (log ++ admissions d c calls) := by
  induction calls generalizing c log with
  | nil => simpa [afterCalls, admissions] using h
  | cons call calls ih =>
    have hserved := hcalls.served call List.mem_cons_self
    obtain ⟨hfirst, -⟩ := List.pairwise_cons.1 hcalls.ordered
    unfold admissions at hlimit ⊢
    rw [List.forall_mem_append] at hlimit
    have hstep : RateWindow.Windowed L.toNat R ((call.run.after c).window d)
        (log ++ (call.admission? d c).toList) := by
      refine Call.windowed hL hserved (fun p hp => ?_) (fun a ha => ?_) h
      · exact ⟨hcalls.epoch call List.mem_cons_self p hp,
          hcalls.now_lt call List.mem_cons_self p hp, hstart call List.mem_cons_self p hp⟩
      · exact hlimit.1 a (Option.mem_toList.2 ha)
    rw [← List.append_assoc]
    refine ih hcalls.tail (fun later hlater q hq => ?_) hlimit.2 hstep
    refine Call.start_after_le hserved (hstart later (List.mem_cons_of_mem _ hlater) q hq) ?_
    exact fun p hp => ⟨hstart call List.mem_cons_self p hp, hfirst later hlater p hp q hq⟩

/-- The windows of a chain that was configured for the first time have admitted nothing. -/
theorem window_of_fresh {council : Council} {actor : Key} {id : ChainId} {limits : Limits}
    {u : Unit} (h : Governance.configureChain council actor id limits {} = .ok u c) :
    c.window d = {} := by
  obtain ⟨-, -, hconfigure⟩ := Governance.configureChain_eq_ok h
  obtain ⟨-, -, rfl⟩ := configure_eq_ok hconfigure
  cases d <;> rfl

/-- **A chain passes at most the limit in a window and at most twice the limit in an epoch.**  Let
a chain be configured for the first time, and follow it through any orderly calls, in one of the
two directions.  If nothing is admitted under a limit above `R`, then one window admits at most
`R` messages, and at most `2 * R` are admitted in any interval that is as long as an epoch.  A
call that fails leaves the chain as it was, and a call that is not traffic in this direction
leaves its window. -/
theorem traffic_limited {council : Council} {actor : Key} {id : ChainId} {limits : Limits}
    {u : Unit} {c₀ : Chain} (d : Direction)
    (hfresh : Governance.configureChain council actor id limits {} = .ok u c₀) (hL : 0 < L)
    (hcalls : Orderly L calls)
    (hlimit : ∀ a ∈ admissions d c₀ calls, 0 < a.count → a.limit.toNat ≤ R) :
    (∀ start, admitted (admissions d c₀ calls) (·.start = start) ≤ R) ∧
      (∀ first : Nat, admitted (admissions d c₀ calls)
        (fun a => first ≤ a.slot.toNat ∧ a.slot.toNat < first + L.toNat) ≤ 2 * R) ∧
      ∀ call ∈ calls, ∀ c : Chain, (∀ f c', call.run c = .error f c' → c' = c) ∧
        ((∀ p ∈ call.passage?, p.direction ≠ d) →
          (call.run.after c).window d = c.window d) := by
  have hwindow : c₀.window d = {} := window_of_fresh hfresh
  have hnone : RateWindow.Windowed L.toNat R (c₀.window d) [] := by
    rw [hwindow]
    exact RateWindow.windowed_fresh L.toNat R
  have hstart : ∀ call ∈ calls, ∀ p ∈ call.passage?, (c₀.window d).start ≤ p.now := by
    intro call _ p _
    rw [hwindow]
    exact UInt64.zero_le
  have hwindowed := windowed_of_calls hL hcalls hstart hlimit hnone
  rw [List.nil_append] at hwindowed
  refine ⟨hwindowed.limited, hwindowed.admitted_between_le, fun call hcall c => ⟨?_, ?_⟩⟩
  · exact fun f c' hrun => Call.run_eq_error (hcalls.served call hcall) hrun
  · exact Call.window_after_of_ne (hcalls.served call hcall)

/-- A chain that takes one message in an epoch. -/
def oneByOne : Chain where
  id := 7
  limits := { confirmations := 1, maxMessageBytes := 1, feeMultiplier := 1, rateLimit := 1 }
  active := true

/-- Send an empty message, where an epoch has ten slots. -/
def sendAt (now : Slot) : Call Unit :=
  .queue { epochLength := 10 } none .zero { destinationChain := 7 } now

theorem orderly_sends : Orderly 10 [sendAt 9, sendAt 9, sendAt 10] where
  served := by simp [sendAt, Call.Served]
  epoch := by decide
  now_lt := by decide
  ordered := by decide

/-- The window that starts with the chain is used at its end, and the next one at once: two
messages pass in two slots, where a window passes one. -/
theorem traffic_limited_at_the_edge :
    admitted (admissions .outbound oneByOne [sendAt 9, sendAt 9, sendAt 10])
        (fun a => 9 ≤ a.slot.toNat ∧ a.slot.toNat < 9 + 10) = 2 ∧
      admitted (admissions .outbound oneByOne [sendAt 9, sendAt 9, sendAt 10])
        (fun a => 9 ≤ a.slot.toNat ∧ a.slot.toNat < 9 + 10) ≤ 2 * 1 := by
  have hfresh : Governance.configureChain (fun _ => true) .zero 7 oneByOne.limits {} =
      .ok () oneByOne := rfl
  have hlimited := traffic_limited .outbound hfresh (by decide) orderly_sends (R := 1) (by decide)
  exact ⟨by decide, hlimited.2.1 9⟩

end Chain
end QuorumRelay
