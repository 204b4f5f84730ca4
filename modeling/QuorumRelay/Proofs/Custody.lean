import QuorumRelay.Proofs.Ledger.Outflow
import QuorumRelay.Proofs.Prepaid

/-!
# Nobody's funds leave without their word

The vault keeps lamports for many: sponsors that prepaid fees, relayers with
their stakes and earnings, and senders whose messages are under way.  Which of
them an instruction may pay is checked in one place, what is taken from their
records in a second, and the lamports are moved in a third, to an account that
the caller chose.

`Ledger.custody_of_run` brings the three together, for every ledger that a run
from nothing leads to and for every instruction that succeeds on it.  What is
taken from a record is named by the record's owner and paid to it, and the only
other lamports that leave the vault are the values of messages that the
instruction delivered for the first time.
-/

namespace QuorumRelay

/-- A payment is the value of a message, and went into the inbox of the program that the message
names, which can be called. -/
def Payment.Forwards (l : Ledger) (p : Payment) (m : InboundMessage) : Prop :=
  p.amount = m.value ∧ ∃ program, (l.account program).executable = true ∧
    Address.ofKey program.key = m.destination ∧ p.inbox = .inbox program.key

theorem Payment.IsFor.forwards {l : Ledger} {p : Payment} {m : InboundMessage} (h : p.IsFor m)
    (hreaches : p.Reaches l) : p.Forwards l m := by
  obtain ⟨hamount, key, hinbox, haddress⟩ := h
  obtain ⟨program, hexecutable, hinbox'⟩ := hreaches
  obtain rfl : key = program.key := AccountId.inbox.inj (hinbox.symm.trans hinbox')
  exact ⟨hamount, program, hexecutable, haddress, hinbox⟩

/-- Payments that are for messages, and all reach programs, forward their values. -/
theorem PaidFor.forwards {l : Ledger} {payments : List Payment} {messages : List InboundMessage}
    (h : PaidFor payments messages) (hreaches : ∀ p ∈ payments, p.Reaches l) :
    List.SublistForall₂ (Payment.Forwards l) payments messages := by
  unfold PaidFor at h
  induction h with
  | nil => exact .nil
  | cons hfirst _ ih =>
    rw [List.forall_mem_cons] at hreaches
    exact .cons (hfirst.forwards hreaches.1) (ih hreaches.2)
  | cons_right _ ih => exact .cons_right (ih hreaches)

namespace Ledger

/-- **The vault pays for what an instruction delivers**: the values of messages that it executed
and that were not executed before, each at most once and in their order.  What was paid is in the
inboxes, as long as nobody else moves lamports. -/
structure Delivers (l : Ledger) (env : Environment) (accounts : List Passed) (i : Instruction)
    (report : Report) : Prop where
  kind : i.kind.delivers = true
  forwarded : ∃ b, Bridge.record.load (l.account .bridge) = .ok b ∧
    List.SublistForall₂ (Payment.Forwards l) report.payments
      (i.messages.filter (Books.newlyExecuted b l.books report.ledger.books))
  vault : ∃ given, report.ledger.lamports .vault + paid report.payments =
      l.lamports .vault + given ∧ (env.destinations.Quiet → given = 0)
  inboxes : env.destinations.Still → ∀ program, ¬ Signed accounts (.inbox program) →
    report.ledger.lamports (.inbox program) = l.lamports (.inbox program) +
      paid (report.payments.filter fun p => p.inbox = .inbox program)

variable {l : Ledger} {env : Environment} {data : List UInt8} {accounts : List Passed}
  {i : Instruction} {t : Trace}

/-- **What leaves the vault is paid back to its owner, or paid for deliveries.** -/
theorem CarriesOut.outflow (h : l.CarriesOut env data accounts i t) (hs : l.Sound) :
    (l.run env data accounts).payments = [] ∧
        (l.lamports .vault ≤ (l.run env data accounts).ledger.lamports .vault ∨
          Repays accounts i (l.Returned (l.run env data accounts).ledger) l.books
            (l.run env data accounts).ledger.books) ∨
      l.Delivers env accounts i (l.run env data accounts) := by
  have hvault := h.vault
  by_cases hpayments : t.payments = []
  · refine Or.inl ⟨h.payments.trans hpayments, ?_⟩
    rcases h.effect.outflow fun _ _ => h.pays.returned with hnone | ⟨-, hrepays⟩
    · rw [hpayments, hnone, paid_nil] at hvault
      exact Or.inl (by omega)
    · exact Or.inr hrepays
  · -- only deliveries are paid for
    have hkind : i.kind.delivers = true := by
      by_contra hkind
      exact hpayments (h.effect.of_not_delivers (Bool.eq_false_iff.2 hkind)).2.1
    obtain ⟨hreceived, hreturned, b, hb⟩ := h.effect.of_delivers hkind
    rw [hreceived, hreturned] at hvault
    refine Or.inr ⟨hkind, ⟨b, load_bridge hb, ?_⟩, ⟨t.given, ?_, h.quiet⟩, ?_⟩
    all_goals rw [h.payments]
    · exact (h.effect.paidFor hb hs.bound).forwards h.pays.reaches
    · omega
    · exact h.pays.inboxes hpayments

/-- **Nobody's funds leave without their word, over any run.**  Where an instruction succeeds, a
sponsor's balance falls only by what the sponsor withdraws and is paid, or by the fee of a message
to a destination on its list.  A relayer loses earnings, or its slot, only if it asked for that
itself, or the governing key removed it; and what it is paid is what it claims, or its stake and
what the pool covers of its earnings.  What leaves the vault besides is the value of a message,
paid back to the sender that asked for it, or paid for messages that were delivered for the first
time, into the inboxes of the programs that they name. -/
theorem custody_of_run {l : Ledger} (hfresh : l.Fresh) {past : List Move}
    (hpast : ∀ move ∈ past, move.Allowed) {env : Environment} {data : List UInt8}
    {accounts : List Passed} (hallowed : (Move.run env data accounts).Allowed) {i : Instruction}
    (hdecode : Instruction.decode data = .ok i) {value : Option (List UInt8)}
    (hvalue : ((l.moves past).run env data accounts).result = .ok value) :
    let before := l.moves past
    let report := before.run env data accounts
    let returns := before.Returned report.ledger
    (∀ id s, Sponsor.record.load (before.account id) = .ok s →
      id = .sponsor s.owner ∧ ∃ s', Sponsor.record.load (report.ledger.account id) = .ok s' ∧
        s'.owner = s.owner ∧
        (s.balance ≤ s'.balance ∨ (∃ amount, Withdraws accounts i returns s s' amount) ∨
          ∃ q m, Charges i s s' before.books report.ledger.books q m)) ∧
    (∀ b r, Bridge.record.load (before.account .bridge) = .ok b →
      Roster.record.load (before.account .roster) = .ok r →
      ∃ r', Roster.record.load (report.ledger.account .roster) = .ok r' ∧
        ∀ n e, r.Seated n e →
          (∃ e', r'.Seated n e' ∧ Roster.SameRelayer e e' ∧ e.earned ≤ e'.earned) ∨
          ∃ index : UInt8, index.toNat = n ∧ (Leaves accounts b i returns r index e r' ∨
            ∃ amount, Claims accounts i returns r index amount e r')) ∧
    (report.payments = [] ∧
        (before.lamports .vault ≤ report.ledger.lamports .vault ∨
          Repays accounts i returns before.books report.ledger.books) ∨
      before.Delivers env accounts i report) := by
  have hs := hfresh.sound.moves hpast
  have hnamed := (hfresh.sound.sponsors_moves hpast hfresh.sponsors.1 hfresh.sponsors.2).1
  rcases hs.carriesOut hallowed with ⟨f, notices, hrun⟩ | ⟨i', t, hrun⟩
  · rw [hrun] at hvalue
    cases hvalue
  obtain rfl : i = i' := Except.ok.inj (hdecode.symm.trans hrun.decoded)
  refine ⟨fun id s hload => ?_, fun b r hb hr => ?_, hrun.outflow hs⟩
  · obtain ⟨rfl, hheld⟩ := sponsor_of_load hs.kept hnamed hload
    have hstep := hrun.effect.sponsorStep fun _ _ => hrun.pays.returned
    obtain ⟨s', hs', howner, hspent⟩ := hstep.balance hheld
    exact ⟨rfl, s', load_sponsor hs', howner, hspent⟩
  · obtain ⟨r', hr', hstep⟩ := hrun.effect.rosterStep (fun _ _ => hrun.pays.returned)
      (entry_of_load (p := .bridge) hb) (entry_of_load (p := .roster) hr)
    exact ⟨r', load_of_entry (p := .roster) hr', fun n e he => hstep.seat he⟩

end Ledger

/-- The founder takes back some of what it prepaid. -/
def Move.withdrawing : Move :=
  byFounder ⟨.withdrawSponsor, (3 : Amount)⟩
    [.bridge, .sponsor founder.key, .vault, founder, .systemProgram]

namespace Ledger

/-- What the founder takes back is paid to it. -/
theorem custody_of_withdrawal :
    (funded.moves Move.firstDeposit).Returned
      ((funded.moves Move.firstDeposit).move Move.withdrawing) founder.key 3 := by
  have hwithdraw : Instruction.decode (Instruction.encode ⟨.withdrawSponsor, (3 : Amount)⟩) =
      .ok ⟨.withdrawSponsor, (3 : Amount)⟩ :=
    Instruction.decode_encode _ trivial
  have hbefore := moves_firstDeposit.2
  have hafter : (((funded.moves Move.firstDeposit).move Move.withdrawing).books
      (.sponsor founder.key)).map Sponsor.balance = some 4 := by
    simp only [Move.firstDeposit, Move.founding, Move.sponsoring,
      Move.prepaying, Move.withdrawing, moves_cons, moves_nil]
    repeat rw [move_byFounder_exec]
    any_goals exact trivial
    decide +kernel
  have hallowed := Move.allowed_byFounder ⟨.withdrawSponsor, (3 : Amount)⟩
    [.bridge, .sponsor founder.key, .vault, founder, .systemProgram]
  have hcustody := @custody_of_run _ fresh_funded _ Move.allowed_firstDeposit _ _ _ hallowed _
    hwithdraw
  have hrun := (fresh_funded.sound.moves Move.allowed_firstDeposit).carriesOut hallowed
  -- from here on it does not matter how the deposit was made
  generalize funded.moves Move.firstDeposit = l at hbefore hafter hcustody hrun ⊢
  have hmove := l.move_byFounder ⟨.withdrawSponsor, (3 : Amount)⟩
    [.bridge, .sponsor founder.key, .vault, founder, .systemProgram]
  rw [Move.withdrawing, hmove] at hafter ⊢
  obtain ⟨s, hs, hbalance⟩ := Option.map_eq_some_iff.1 hbefore
  rcases hrun with ⟨f, notices, hrun⟩ | ⟨i, t, hrun⟩
  · -- a run that fails leaves the balance
    rw [hrun, hbefore] at hafter
    exact absurd (Option.some.inj hafter) (by decide)
  · obtain ⟨value, hvalue⟩ := hrun.result
    obtain ⟨hplace, s', hs', -, hspent⟩ := (hcustody hvalue).1 _ s (load_sponsor hs)
    obtain ⟨s₁, hs₁, hbalance'⟩ := Option.map_eq_some_iff.1 hafter
    obtain rfl : s' = s₁ := Except.ok.inj (hs'.symm.trans (load_sponsor hs₁))
    have howner : s.owner = founder.key := (AccountId.sponsor.inj hplace).symm
    rcases hspent with hle | ⟨amount, hwithdraws⟩ | ⟨q, m, hcharges⟩
    · rw [hbalance, hbalance'] at hle
      exact absurd hle (by decide)
    · have hreturned := hwithdraws.returned
      rw [howner] at hreturned
      cases hwithdraws.asked
      exact hreturned
    · cases hcharges.asked

end Ledger
end QuorumRelay
