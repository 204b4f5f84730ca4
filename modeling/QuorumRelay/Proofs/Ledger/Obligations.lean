import QuorumRelay.Proofs.Ledger.Effect
import QuorumRelay.Proofs.Membership
import QuorumRelay.Proofs.Outbound.Queue
import QuorumRelay.Proofs.Stakes

/-!
# What the vault owes

Four entries of two records say what the vault owes: the relayer pool, the value
of open messages and the funds of sponsors are counted in the bridge, and the
stakes are spread over the slots of the roster.  `owing` is their sum.

Every instruction moves lamports and entries together, and `Effect.balanced` is
the equation that says so.  It has one exception on each side.  Confirming a
message sets its value free without paying it to anybody, since it was paid on
the other chain.  Delivering messages pays lamports that were owed to nobody, and
this is no part of the equation: what is delivered comes out of the surplus.

## Natural numbers

The entries are added up in 64 bits by the program and without bounds here.
Where the vault holds what it owes the two agree, because a balance has 64 bits.
-/

namespace QuorumRelay

/-- **What the vault owes**: the pool, the value of open messages, the funds of sponsors, and the
stakes. -/
def owing (b : Bridge) (r : Roster) : Nat :=
  b.pool.toNat + b.lockedValue.toNat + b.sponsorFunds.toNat + r.staked

/-- The value of the message that an instruction confirms. -/
def Instruction.released (before : Books) : Instruction → Nat
  | ⟨.confirmDelivery, nonce, _⟩ =>
    match before (.outbound nonce) with
    | some m => m.value.toNat
    | none => 0
  | _ => 0

/-! ## The records one by one -/

section

variable {b b' : Bridge} {r r' : Roster}

theorem owing_of_setFeeSchedule {actor : Key} {fees : FeeSchedule} {u : Unit}
    (h : Governance.setFeeSchedule actor fees b = .ok u b') : owing b' r = owing b r := by
  unfold Governance.setFeeSchedule at h
  simp only [get_bind, lift_bind_eq_ok, modify_eq_ok] at h
  obtain ⟨-, -, -, -, rfl⟩ := h
  rfl

theorem owing_of_setAuthority {actor newAuthority previous : Key}
    (h : Governance.setAuthority actor newAuthority b = .ok previous b') :
    owing b' r = owing b r := by
  unfold Governance.setAuthority at h
  simp only [get_bind, lift_bind_eq_ok, set_bind, pure_eq_ok] at h
  obtain ⟨-, -, -, rfl⟩ := h
  rfl

theorem owing_of_payCompensation {amount : Amount} {u : Unit}
    (h : Bridge.payCompensation amount b = .ok u b') :
    owing b' r + amount.toNat = owing b r := by
  obtain ⟨hpool, hb'⟩ := Bridge.payCompensation_eq_ok h
  rw [hb']
  unfold owing
  show b'.pool.toNat + b.lockedValue.toNat + b.sponsorFunds.toNat + r.staked + _ = _
  omega

theorem owing_of_releaseValue {value : Amount} {u : Unit}
    (h : Bridge.releaseValue value b = .ok u b') : owing b' r + value.toNat = owing b r := by
  obtain ⟨hlocked, hb'⟩ := Bridge.releaseValue_eq_ok h
  rw [hb']
  unfold owing
  show b.pool.toNat + b'.lockedValue.toNat + b.sponsorFunds.toNat + r.staked + _ = _
  omega

theorem owing_of_holdSponsorFunds {amount : Amount} {u : Unit}
    (h : Bridge.holdSponsorFunds amount b = .ok u b') :
    owing b' r = owing b r + amount.toNat := by
  obtain ⟨hfunds, hb'⟩ := Bridge.holdSponsorFunds_eq_ok h
  rw [hb']
  unfold owing
  show b.pool.toNat + b.lockedValue.toNat + b'.sponsorFunds.toNat + r.staked = _
  omega

theorem owing_of_releaseSponsorFunds {amount : Amount} {u : Unit}
    (h : Bridge.releaseSponsorFunds amount b = .ok u b') :
    owing b' r + amount.toNat = owing b r := by
  obtain ⟨hfunds, hb'⟩ := Bridge.releaseSponsorFunds_eq_ok h
  rw [hb']
  unfold owing
  show b.pool.toNat + b.lockedValue.toNat + b'.sponsorFunds.toNat + r.staked + _ = _
  omega

/-- A fee goes into the pool, out of the sponsor's funds if a sponsor pays; the value is locked. -/
theorem owing_of_recordSend {fee value : Amount} {sponsored : Bool} {nonce : Nonce}
    (h : Bridge.recordSend fee value sponsored b = .ok nonce b') :
    owing b' r + (if sponsored then fee.toNat else 0) = owing b r + fee.toNat + value.toNat := by
  obtain ⟨-, -, hpool, hlocked, hfunds, -⟩ := Bridge.recordSend_eq_ok h
  unfold owing
  omega

/-- A relayer that leaves gets its stake and what the pool has of its earnings. -/
theorem owing_of_settle {i : UInt8} {e : Relayer} {d : Departure}
    (hleave : Roster.remove i r = .ok e r') (h : Membership.settle i e b = .ok d b') :
    owing b' r' + d.payout.toNat = owing b r := by
  obtain ⟨-, -, hpay, hpayout⟩ := Membership.settle_eq_ok h
  have hpool := owing_of_payCompensation (r := r') hpay
  have hstaked := Roster.staked_of_remove hleave
  unfold owing at *
  omega

end

/-! ## All instructions -/

variable {env : Environment} {A : List Passed} {spendable : Amount} {before after : Books}
  {i : Instruction} {t : Trace} {b : Bridge} {r : Roster}

/-- **What users pay in is owed from then on, and what they are paid is owed no longer.** -/
theorem Effect.balanced (h : Effect env A spendable before i after t)
    (hb : before .bridge = some b) (hr : before .roster = some r) :
    ∃ b' r', after .bridge = some b' ∧ after .roster = some r' ∧
      owing b' r' + t.returned + i.released before = owing b r + t.received := by
  cases h with
  | createBridge received signed absent step =>
    rw [absent.1] at hb
    cases hb
  | updateThreshold signed bridge roster step =>
    rename_i required authority b₁ r₁ r'
    obtain rfl : r₁ = r := by simpa [hr] using roster.symm
    refine ⟨b, r', by simp [Books.put_of_ne, hb], by simp, ?_⟩
    have hstaked := Roster.staked_of_setThreshold (Membership.updateThreshold_eq_ok step).2
    simp [owing, Instruction.released, hstaked]
  | setFeeSchedule signed bridge step =>
    rename_i fees authority b₁ b'
    obtain rfl : b₁ = b := by simpa [hb] using bridge.symm
    refine ⟨b', r, by simp, by simp [Books.put_of_ne, hr], ?_⟩
    exact owing_of_setFeeSchedule step
  | setAuthority signed bridge step =>
    rename_i newAuthority previous authority b₁ b'
    obtain rfl : b₁ = b := by simpa [hb] using bridge.symm
    refine ⟨b', r, by simp, by simp [Books.put_of_ne, hr], ?_⟩
    exact owing_of_setAuthority step
  | depositSponsor signed bridge sponsor vault own step books place =>
    rename_i amount owner b₁ b' s s' v
    obtain rfl : b₁ = b := by simpa [hb] using bridge.symm
    refine ⟨b', r, by simp [Books.put_of_ne], by simp [Books.put_of_ne, hr], ?_⟩
    exact owing_of_holdSponsorFunds books
  | withdrawSponsor signed bridge sponsor vault own step books place =>
    rename_i amount owner b₁ b' s s' v
    obtain rfl : b₁ = b := by simpa [hb] using bridge.symm
    refine ⟨b', r, by simp [Books.put_of_ne], by simp [Books.put_of_ne, hr], ?_⟩
    exact owing_of_releaseSponsorFunds books
  | sendMessage signed bridge chain vault absent step owes =>
    rename_i q sender b₁ c v m o owed
    obtain rfl : b₁ = b := by simpa [hb] using bridge.symm
    refine ⟨o.bridge, r, by simp [Books.put_of_ne], by simp [Books.put_of_ne, hr], ?_⟩
    have hqueued := Outbox.queued_of_queue step
    have howing := owing_of_recordSend (r := r) hqueued.counted
    have howed := Amount.plus_eq_ok.1 owes
    rw [hqueued.value_eq] at howed
    simp only [Option.isSome_none, Bool.false_eq_true, if_false] at howing
    show owing o.bridge r + 0 + 0 = owing b₁ r + owed.toNat
    omega
  | sendSponsored signed bridge chain sponsor vault absent step charged =>
    rename_i q sender b₁ c v s s' m o
    obtain rfl : b₁ = b := by simpa [hb] using bridge.symm
    refine ⟨o.bridge, r, by simp [Books.put_of_ne], by simp [Books.put_of_ne, hr], ?_⟩
    have hqueued := Outbox.queued_of_queue step
    have howing := owing_of_recordSend (r := r) hqueued.counted
    simp only [Option.isSome_some, if_true] at howing
    show owing o.bridge r + 0 + 0 = owing b₁ r + m.value.toNat
    rw [hqueued.value_eq]
    omega
  | confirmDelivery bridge roster message evidence step =>
    rename_i nonce attestations b₁ r₁ m proven d s
    obtain rfl : b₁ = b := by simpa [hb] using bridge.symm
    refine ⟨s.bridge, r, by simp [Books.put_of_ne], by simp [Books.put_of_ne, hr], ?_⟩
    obtain ⟨-, -, -, -, hrelease⟩ := Settlement.confirm_eq_ok step
    have howing := owing_of_releaseValue (r := r) hrelease
    simpa [Instruction.released, message] using howing
  | reclaim signed bridge message vault step =>
    rename_i nonce sender b₁ m v refund s
    obtain rfl : b₁ = b := by simpa [hb] using bridge.symm
    refine ⟨s.bridge, r, by simp [Books.put_of_ne], by simp [Books.put_of_ne, hr], ?_⟩
    obtain ⟨-, -, -, rfl, -, hrelease⟩ := Settlement.reclaim_eq_ok step
    exact owing_of_releaseValue hrelease
  | registerRelayer signed authorized bridge roster vault step =>
    rename_i publicKey stake owner authority b₁ r₁ r' v index
    obtain rfl : r₁ = r := by simpa [hr] using roster.symm
    refine ⟨b, r', by simp [Books.put_of_ne, hb], by simp, ?_⟩
    have hstaked := Roster.staked_of_register (Membership.register_eq_ok step).2
    simp only [owing, Instruction.released, hstaked]
    omega
  | unregisterRelayer signed bridge roster vault step =>
    rename_i index owner b₁ r₁ v d m
    obtain rfl : b₁ = b := by simpa [hb] using bridge.symm
    obtain rfl : r₁ = r := by simpa [hr] using roster.symm
    refine ⟨m.bridge, m.roster, by simp [Books.put_of_ne], by simp, ?_⟩
    obtain ⟨e, hleave, hsettle⟩ := Membership.unregister_eq_ok step
    exact owing_of_settle (Roster.unregister_eq_ok hleave).2 hsettle
  | removeRelayer signed bridge roster vault own step =>
    rename_i index owner authority b₁ r₁ v d m
    obtain rfl : b₁ = b := by simpa [hb] using bridge.symm
    obtain rfl : r₁ = r := by simpa [hr] using roster.symm
    refine ⟨m.bridge, m.roster, by simp [Books.put_of_ne], by simp, ?_⟩
    obtain ⟨-, e, hleave, hsettle⟩ := Membership.remove_eq_ok step
    exact owing_of_settle hleave hsettle
  | claimCompensation signed bridge roster vault step =>
    rename_i index amount owner b₁ r₁ v m
    obtain rfl : b₁ = b := by simpa [hb] using bridge.symm
    obtain rfl : r₁ = r := by simpa [hr] using roster.symm
    refine ⟨m.bridge, m.roster, by simp [Books.put_of_ne], by simp, ?_⟩
    obtain ⟨-, hdebit, hpay⟩ := Membership.claim_eq_ok step
    have hstaked := Roster.staked_of_debitEarnings hdebit
    have howing := owing_of_payCompensation (r := m.roster) hpay
    unfold owing at *
    rw [hstaked] at *
    exact howing
  | processMessage given signed bridge chain roster receiptHeld vault cursorHeld named own evidence
      liquid step payment =>
    rename_i digest m attestations submitter b₁ c r₁ receipt v cursor proven liquidity executor
      world o s payments
    obtain rfl : r₁ = r := by simpa [hr] using roster.symm
    refine ⟨b, s.roster, ?_, ?_, ?_⟩
    · rw [Books.move_of_ne (q := .bridge) nofun]
      simp [Books.put_of_ne, hb]
    · rw [Books.move_of_ne (q := .roster) nofun]
      simp [Books.put_of_ne]
    · have hstaked := Roster.staked_of_creditSubmitter step.credited
      simp [owing, Instruction.released, hstaked]
  | processBatch given signed bridge chain roster vault receiptsHeld evidence liquid step payment =>
    rename_i messages attestations extras submitter b₁ c r₁ v receipts ds proven liquidity executors
      world o s payments
    obtain rfl : r₁ = r := by simpa [hr] using roster.symm
    refine ⟨b, s.roster, ?_, by simp, ?_⟩
    · simp [Books.put_of_ne, Books.close_of_ne, hb]
    · have hstaked : s.roster.staked = r₁.staked := by
        rcases step.ran.1 with hsame | ⟨_, _, hcredit⟩
        · rw [hsame]
        · exact Roster.staked_of_creditSubmitter hcredit
      simp [owing, Instruction.released, hstaked]
  | _ =>
    refine ⟨b, r, by simp [Books.put_of_ne, hb], by simp [Books.put_of_ne, hr], ?_⟩
    rfl

/-- **Users are never paid more than they are owed.** -/
theorem Effect.returned_le (h : Effect env A spendable before i after t)
    (hb : before .bridge = some b) (hr : before .roster = some r) : t.returned ≤ owing b r := by
  have hone : t.received = 0 ∨ t.returned = 0 := by
    cases h with
    | withdrawSponsor | reclaim | unregisterRelayer | removeRelayer | claimCompensation =>
      exact Or.inl rfl
    | _ => exact Or.inr rfl
  obtain ⟨b', r', -, -, hbalance⟩ := h.balanced hb hr
  omega

/-! ## When the records come into being -/

/-- The bridge, its vault and its roster are created together, and owe nothing. -/
theorem Effect.founded {settings : Bridge.Settings}
    (h : Effect env A spendable before ⟨.createBridge, settings⟩ after t) :
    before .bridge = none ∧ ∃ b v r, after .bridge = some b ∧ after .vault = some v ∧
      after .roster = some r ∧ owing b r = 0 := by
  cases h with
  | createBridge received signed absent step =>
    rename_i authority b
    refine ⟨absent.1, { b with
      vaultBump := derivedBump, executorBump := derivedBump, bump := derivedBump },
      { bump := derivedBump }, { ({} : Roster) with bump := derivedBump },
      by simp [Books.put_of_ne], by simp [Books.put_of_ne], by simp, ?_⟩
    obtain ⟨hpool, hlocked, hfunds, -⟩ := Bridge.create_eq_ok step
    simp [owing, hpool, hlocked, hfunds, Roster.staked, Roster.relayers]

/-- Nothing else creates a bridge or writes to its vault's record. -/
theorem Effect.standing (h : Effect env A spendable before i after t)
    (hkind : i.kind ≠ .createBridge) :
    (before .bridge = none → after .bridge = none) ∧ after .vault = before .vault := by
  cases h with
  | createBridge => exact absurd rfl hkind
  | processMessage given signed bridge =>
    rw [Books.move_of_ne (q := .bridge) nofun, Books.move_of_ne (q := .vault) nofun]
    simp [Books.put_of_ne]
  | processBatch => simp [Books.put_of_ne, Books.close_of_ne]
  | _ => simp_all [Books.put_of_ne]

end QuorumRelay
