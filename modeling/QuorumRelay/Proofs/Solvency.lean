import QuorumRelay.Proofs.Ledger.Run

/-!
# The vault pays what it owes

The lamports of the vault are moved by the instructions, and what they are owed
for is counted in the bridge and in the roster.  The two sides are kept in
different accounts and changed by different lines of the program, so that they
agree is a statement about all instructions at once.

`Ledger.solvent_of_run` is that statement for every ledger that a run from
nothing leads to.  It has three parts.  The vault holds its rent and what it
owes, so the sums that the program forms never overflow.  A committed instruction
changes the surplus by what it confirms and by what it pays for deliveries, and
by nothing else.  And an instruction that pays users never finds the vault short.

## What destination programs give

A destination program may send lamports to the vault, as anybody may.  Such a
gift is part of the equation, and it is nothing where destination programs leave
the vault's balance alone (`Destinations.Quiet`).
-/

namespace QuorumRelay
namespace Ledger

/-- What a run of an instruction makes of the vault, if it commits. -/
structure Accounted (l : Ledger) (b : Bridge) (env : Environment) (i : Instruction)
    (report : Report) : Prop where
  /-- The surplus changes by what is confirmed, paid for deliveries, and given. -/
  surplus : ∃ given : Nat,
    report.ledger.surplus + paid report.payments = l.surplus + i.released l.books + given ∧
      (env.destinations.Quiet ∨ i.kind.delivers = false → given = 0)
  /-- Only deliveries are paid from the surplus, at most the values of the messages that were
  newly executed, and no more than there is above the rent. -/
  payments : i.kind.delivers = false → report.payments = []
  executed : paid report.payments ≤ i.executedValue b l.books report.ledger.books
  covered : l.vaultRent + paid report.payments ≤ l.surplus

variable {l : Ledger} {b : Bridge} {env : Environment} {data : List UInt8}
  {accounts : List Passed}

/-- The sums that the program forms of what it owes fit into 64 bits. -/
theorem Sound.exists_reserved {r : Roster} (hs : l.Sound) (hb : l.books .bridge = some b)
    (hr : l.books .roster = some r) :
    ∃ total owed, r.totalStake = .ok total ∧ b.reserved total = .ok owed := by
  have hle := hs.owing_le hb hr
  have hlt := (l.spendable .vault).toNat_lt_size
  unfold owing at hle
  obtain ⟨total, htotal⟩ := Roster.exists_totalStake (r := r) (by omega)
  have hstaked := Roster.totalStake_eq_ok.1 htotal
  have hsum : b.pool.toNat + b.lockedValue.toNat + b.sponsorFunds.toNat + total.toNat <
      UInt64.size := by
    omega
  obtain ⟨owed, howed⟩ := Bridge.exists_reserved hsum
  exact ⟨total, owed, htotal, howed⟩

/-- What a relayer gets when it leaves fits into 64 bits. -/
theorem Sound.exists_payout {r : Roster} {n : Nat} {e : Relayer} (hs : l.Sound)
    (hb : l.books .bridge = some b) (hr : l.books .roster = some r) (he : r.Seated n e) :
    ∃ payout, e.stake.plus (min e.earned b.pool) = .ok payout := by
  have hle := hs.owing_le hb hr
  have hlt := (l.spendable .vault).toNat_lt_size
  have hstake := he.stake_le
  unfold owing at hle
  exact Amount.exists_plus_min (by omega)

/-- **A committed instruction is accounted for.** -/
theorem Sound.accounted {i : Instruction} {m : Machine} {report : Report} (hs : l.Sound)
    (hb : l.books .bridge = some b)
    (h : Commits env (Passed.union accounts) i (l.start accounts) m)
    (hledger : report.ledger = m.ledger) (hpayments : report.payments = m.payments) :
    Accounted l b env i report := by
  obtain ⟨t, heffect, -, hpaid, hsurplus, hquiet⟩ := h.surplus hs hb
  have heffect : Effect env (Passed.union accounts) (l.spendable .vault) l.books i
      m.ledger.books t := heffect
  have hpaid : m.payments = t.payments := hpaid
  have hsurplus : m.ledger.surplus + paid m.payments =
      l.surplus + t.given + i.released l.books := hpaid ▸ hsurplus
  obtain ⟨_, r, -, hr, hle⟩ := hs.solvent b hb
  constructor
  · refine ⟨t.given, ?_, ?_⟩
    · rw [hledger, hpayments]
      omega
    · rintro (h | h)
      · exact hquiet h
      · exact (heffect.of_not_delivers h).2.2
  · intro hkind
    rw [hpayments, hpaid, (heffect.of_not_delivers hkind).2.1]
  · rw [hpayments, hpaid, hledger]
    exact heffect.paid_le_executedValue hb hs.bound
  · have hcovered := heffect.paid_le_surplus hb hr (hs.owing_le hb hr)
    rw [toNat_spendable] at hcovered
    rw [hpayments, hpaid, surplus, owed_eq hb hr]
    omega

/-- **The vault is solvent over any run**, and every instruction is accounted for. -/
theorem solvent_of_run (hfresh : l.Fresh) {past : List Move} (hpast : ∀ m ∈ past, m.Allowed)
    (hb : (l.moves past).books .bridge = some b) :
    ∃ r, (l.moves past).books .roster = some r ∧
      (l.moves past).vaultRent + (b.pool.toNat + b.lockedValue.toNat + b.sponsorFunds.toNat +
        (r.relayers.map fun e => e.stake.toNat).sum) ≤ (l.moves past).lamports .vault ∧
      (∃ total owed, r.totalStake = .ok total ∧ b.reserved total = .ok owed) ∧
      (∀ n e, r.Seated n e → ∃ payout, e.stake.plus (min e.earned b.pool) = .ok payout) ∧
      ∀ (env : Environment) (data : List UInt8) (accounts : List Passed),
        (Move.run env data accounts).Allowed →
        (∀ value, ((l.moves past).run env data accounts).result = .ok value →
          ∃ i, Instruction.decode data = .ok i ∧
            Accounted (l.moves past) b env i ((l.moves past).run env data accounts)) ∧
        ∀ i f, Instruction.decode data = .ok i → i.kind.returns = true →
          ((l.moves past).run env data accounts).result = .error f →
          f.fault ≠ .refused .insufficientLiquidity := by
  have hs := hfresh.sound.moves hpast
  obtain ⟨v, r, -, hr, hle⟩ := hs.solvent b hb
  refine ⟨r, hr, hle, hs.exists_reserved hb hr, fun n e he => hs.exists_payout hb hr he,
    fun env data accounts hallowed => ⟨fun value hvalue => ?_, fun i f hi hreturns hf hfault => ?_⟩⟩
  · rcases (l.moves past).run_cases env data accounts with
      ⟨f, notices, hrun, -⟩ | ⟨i, _, m, hi, hexec, hrun⟩
    · rw [hrun] at hvalue
      cases hvalue
    · refine ⟨i, hi, hs.accounted hb (commits_of_exec hs hallowed.1 hallowed.2 hexec) ?_ ?_⟩
      · rw [hrun]
      · rw [hrun]
  · rcases (l.moves past).run_cases env data accounts with
      ⟨f', notices, hrun, hexec⟩ | ⟨_, _, _, -, -, hrun⟩
    · rw [hrun] at hf
      cases hf
      obtain ⟨m, hexec⟩ := hexec i hi
      have hends := Instruction.exec_ends (m := (l.moves past).start accounts) hs hallowed.1.union
        rfl hallowed.2 i
      exact (hends.of_refused (fun _ hp => hp) hexec hfault hreturns).not_sound hs hb
    · rw [hrun] at hf
      cases hf

end Ledger

/-! ## A bridge in use -/

/-- A schedule of fees is chosen. -/
def Move.pricing : Move :=
  byFounder ⟨.setFeeSchedule, { base := 20000, relayReward := 1 }⟩ [.bridge, founder]

/-- A relayer stakes, a sponsor prepays, and a message is sent for a fee. -/
def Move.trading : List Move :=
  [founding, pricing, connecting 2, registering, sponsoring, prepaying, sending]

theorem Move.allowed_trading : ∀ move ∈ trading, move.Allowed := by
  simp only [trading, List.forall_mem_cons]
  exact ⟨allowed_byFounder _ _, allowed_byFounder _ _, allowed_byFounder _ _,
    allowed_byFounder _ _, allowed_byFounder _ _, allowed_byFounder _ _, allowed_byFounder _ _,
    nofun⟩

/-- A message that brings three lamports. -/
def Move.bringing : InboundMessage := { messageTo 1 (programKey 9) with value := 3 }

/-- Its digest. -/
def Move.bringingDigest : Digest :=
  .ofNat 32 0x19d62d67fff109470602f1883fd30a55137025dff758afe6808207ae6eb4580d

/-- The accounts of a sponsor that takes lamports back. -/
def Move.withdrawAccounts : List Passed :=
  handed [.bridge, .sponsor founder.key, .vault, founder, .systemProgram]

theorem Move.decode_bringing :
    Instruction.decode (Instruction.encode ⟨.processMessage, bringingDigest, bringing, [{}]⟩) =
      .ok ⟨.processMessage, bringingDigest, bringing, [{}]⟩ :=
  Instruction.decode_encode _ ⟨⟨by decide, by decide⟩, by decide⟩

namespace Ledger

/-- A ledger on which the vault's account has lamports before there is a bridge. -/
def endowed : Ledger := hosting.put .vault { lamports := 1000000 }

theorem fresh_endowed : endowed.Fresh := fresh_hosting.put (by decide) _

/-- The vault owes for everything that it can owe for. -/
theorem owed_trading :
    ((endowed.moves Move.trading).books .bridge).map
        (fun b => (b.pool, b.lockedValue, b.sponsorFunds)) = some (2, 5, 7) ∧
      ((endowed.moves Move.trading).books .roster).map
        (fun r => (r.relayers.map fun e => e.stake.toNat, (r.relayer? 0).isSome)) =
          some ([1], true) := by
  simp only [Move.trading, Move.founding, Move.pricing, Move.connecting, Move.registering,
    Move.sponsoring, Move.prepaying, Move.sending, moves_cons, moves_nil]
  repeat rw [move_byFounder_exec]
  any_goals first | exact trivial | exact Nat.two_pow_pos 32
  decide +kernel

/-- The message is executed and paid for, and nobody takes back more than it prepaid. -/
theorem run_trading :
    ((endowed.moves Move.trading).run (Move.signing Move.bringingDigest)
        (Instruction.encode ⟨.processMessage, Move.bringingDigest, Move.bringing, [{}]⟩)
        (Move.relayAccounts Move.bringingDigest (Move.programKey 9) .bridgeProgram)).result =
          .ok none ∧
      ((endowed.moves Move.trading).run (Move.signing Move.bringingDigest)
        (Instruction.encode ⟨.processMessage, Move.bringingDigest, Move.bringing, [{}]⟩)
        (Move.relayAccounts Move.bringingDigest (Move.programKey 9) .bridgeProgram)).payments =
          [⟨.inbox (Move.programKey 9), 3⟩] ∧
      ((endowed.moves Move.trading).run Move.unproven
        (Instruction.encode ⟨.withdrawSponsor, (8 : Amount)⟩) Move.withdrawAccounts).result =
          .error { fault := .refused .insufficientSponsorBalance } := by
  rw [run_of_decode Move.decode_bringing, run_of_decode (Instruction.decode_encode
    ⟨.withdrawSponsor, (8 : Amount)⟩ trivial)]
  simp only [Move.trading, Move.founding, Move.pricing, Move.connecting, Move.registering,
    Move.sponsoring, Move.prepaying, Move.sending, moves_cons, moves_nil]
  repeat rw [move_byFounder_exec]
  any_goals first | exact trivial | exact Nat.two_pow_pos 32
  -- down to the hashes, which are computed by rows
  delta Instruction.exec Exec.createBridge Exec.processMessage Inbound.process Digest.verify
    Digest.ofMessage Digest.messagePreimage Route.executor Route.prepare Move.bringing
    Move.messageTo Address.ofKey
  rw [Keccak.keccak256_eq]
  decide +kernel

/-- A bridge owes for fees, for a message on its way, for a deposit and for a stake, and its vault
holds that and the rent.  The delivery of a message is accounted for, and the surplus drops by the
value of the message; and a sponsor that asks for too much is not refused for lack of lamports. -/
theorem solvent_while_trading :
    ∃ b r, (endowed.moves Move.trading).books .bridge = some b ∧
      (endowed.moves Move.trading).books .roster = some r ∧
      (b.pool = 2 ∧ b.lockedValue = 5 ∧ b.sponsorFunds = 7 ∧
        (r.relayers.map fun e => e.stake.toNat) = [1]) ∧
      (endowed.moves Move.trading).vaultRent + (b.pool.toNat + b.lockedValue.toNat +
        b.sponsorFunds.toNat + (r.relayers.map fun e => e.stake.toNat).sum) ≤
          (endowed.moves Move.trading).lamports .vault ∧
      (∃ total owed, r.totalStake = .ok total ∧ b.reserved total = .ok owed) ∧
      (∃ e payout, r.Seated 0 e ∧ e.stake.plus (min e.earned b.pool) = .ok payout) ∧
      (∃ report, report = (endowed.moves Move.trading).run (Move.signing Move.bringingDigest)
          (Instruction.encode ⟨.processMessage, Move.bringingDigest, Move.bringing, [{}]⟩)
          (Move.relayAccounts Move.bringingDigest (Move.programKey 9) .bridgeProgram) ∧
        Accounted (endowed.moves Move.trading) b (Move.signing Move.bringingDigest)
          ⟨.processMessage, Move.bringingDigest, Move.bringing, [{}]⟩ report ∧
        report.payments = [⟨.inbox (Move.programKey 9), 3⟩] ∧
        report.ledger.surplus + 3 = (endowed.moves Move.trading).surplus) ∧
      ∃ f, ((endowed.moves Move.trading).run Move.unproven
          (Instruction.encode ⟨.withdrawSponsor, (8 : Amount)⟩) Move.withdrawAccounts).result =
            .error f ∧
        f.fault ≠ .refused .insufficientLiquidity := by
  obtain ⟨hbridge, hroster⟩ := owed_trading
  obtain ⟨hdelivered, hpaid, hrefused⟩ := run_trading
  obtain ⟨b, hb, howed⟩ := Option.map_eq_some_iff.1 hbridge
  obtain ⟨r, hr, hsolvent, hreserved, hpayout, hnext⟩ :=
    solvent_of_run fresh_endowed Move.allowed_trading hb
  have hdelivery := (hnext _ _ _ (Move.allowed_relaying Move.bringingDigest Move.bringing
    (Move.programKey 9) .bridgeProgram)).1
  have hwithdrawal := (hnext Move.unproven (Instruction.encode ⟨.withdrawSponsor, (8 : Amount)⟩)
    Move.withdrawAccounts (Move.allowed_byFounder _ _)).2
  -- from here on it does not matter how the bridge got there, nor how the message is written
  generalize endowed.moves Move.trading = l at *
  generalize hreport : l.run (Move.signing Move.bringingDigest) _ _ = report at *
  obtain ⟨hpool, hlocked, hfunds⟩ : b.pool = 2 ∧ b.lockedValue = 5 ∧ b.sponsorFunds = 7 := by
    simpa using howed
  rw [hr, Option.map_some, Option.some.injEq, Prod.mk.injEq] at hroster
  obtain ⟨e, he⟩ := Option.isSome_iff_exists.1 hroster.2
  have hseated : r.Seated 0 e := Roster.relayer?_eq_some.1 he
  obtain ⟨payout, hpayout⟩ := hpayout 0 e hseated
  obtain ⟨i, hi, haccounted⟩ := hdelivery none hdelivered
  obtain rfl : _ = i := Except.ok.inj (Move.decode_bringing.symm.trans hi)
  obtain ⟨given, hsurplus, hgiven⟩ := haccounted.surplus
  rw [hpaid, hgiven (Or.inl (Destinations.quiet_ofFaults fun _ => none))] at hsurplus
  refine ⟨b, r, hb, hr, ⟨hpool, hlocked, hfunds, hroster.1⟩, hsolvent, hreserved,
    ⟨e, payout, hseated, hpayout⟩, ⟨report, rfl, haccounted, hpaid, ?_⟩, _, hrefused, ?_⟩
  · simpa [Instruction.released, paid] using hsurplus
  · exact hwithdrawal _ _ (Instruction.decode_encode _ trivial) rfl hrefused

end Ledger
end QuorumRelay
