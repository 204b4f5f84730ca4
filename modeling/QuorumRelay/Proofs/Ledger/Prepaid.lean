import QuorumRelay.Proofs.AllowList
import QuorumRelay.Proofs.Ledger.Bridge

/-!
# What becomes of the sponsors' funds

Sponsors prepay fees.  What is left of a sponsor's payments stands in its own
record, and what is left of them all stands once more in the bridge's.  This file
follows both through one instruction: `SponsorStep` lists what can happen to them,
and `Effect.sponsorStep` finds one of its cases in each of the twenty-four cases
of an effect.

At most one sponsor's balance changes, and the sum changes with it by the same
amount.  Each change says who asked for it: a deposit and a withdrawal name the
sponsor's account and carry its owner's signature, and a charge is the fee of a
message that was recorded with the sponsor as its payer.
-/

namespace QuorumRelay

/-- The sponsors' funds by the bridge's record; none before there is a bridge. -/
def Books.sponsorFunds (books : Books) : Nat :=
  match books .bridge with
  | some b => b.sponsorFunds.toNat
  | none => 0

/-- **Sponsors are at the places of their owners.** -/
def Books.SponsorsNamed (books : Books) : Prop :=
  ∀ k s, books (.sponsor k) = some s → s.owner = k

section

variable (A : List Passed) (i : Instruction) (returns : Key → Nat → Prop) (s s' : Sponsor)

/-- **A sponsor adds to its balance.** -/
structure Deposits (amount : Amount) : Prop where
  asked : i = ⟨.depositSponsor, amount⟩
  signed : SignedBy A s.owner
  named : HandedAt A 1 (.sponsor s.owner)
  balance : s'.balance.toNat = s.balance.toNat + amount.toNat

/-- **A sponsor withdraws some of its balance**, and is paid as much. -/
structure Withdraws (amount : Amount) : Prop where
  asked : i = ⟨.withdrawSponsor, amount⟩
  signed : SignedBy A s.owner
  named : HandedAt A 1 (.sponsor s.owner)
  returned : returns s.owner amount.toNat
  balance : s'.balance.toNat + amount.toNat = s.balance.toNat

/-- **A sponsor is charged the fee of a message** to a destination on its list, at most the one that
the sender agreed to. -/
structure Charges (before after : Books) (q : SendRequest) (m : OutboundMessage) : Prop where
  asked : i = ⟨.sendSponsored, q⟩
  allowed : q.target ∈ s.targets
  sent : before (.outbound m.nonce) = none ∧ after (.outbound m.nonce) = some m
  target : m.destinationChain = q.target.chain ∧ m.destination = q.target.address
  payer : m.feePayer = .sponsor s.owner
  fee_le : m.fee ≤ q.maxFee
  balance : s'.balance.toNat + m.fee.toNat = s.balance.toNat

/-- **Why the record of a sponsor changes.** -/
inductive SponsorChange (before after : Books) : Prop
  | retargeted (target : Sponsor.Target) (allowed : Bool)
      (asked : i = ⟨.setSponsoredTarget, target, allowed⟩) (same : s'.balance = s.balance)
  | deposited (amount : Amount) (deposits : Deposits A i s s' amount)
  | withdrawn (amount : Amount) (withdraws : Withdraws A i returns s s' amount)
  | charged (q : SendRequest) (m : OutboundMessage) (charges : Charges i s s' before after q m)

end

/-- An instruction that changes no sponsor's balance. -/
def Instruction.Kind.sparesSponsors (k : Instruction.Kind) : Prop :=
  k ≠ .depositSponsor ∧ k ≠ .withdrawSponsor ∧ k ≠ .sendSponsored

/-- **What an instruction makes of the sponsors' records and of their funds.** -/
inductive SponsorStep (A : List Passed) (i : Instruction) (returns : Key → Nat → Prop)
    (before after : Books) : Prop
  | kept (spares : i.kind.sparesSponsors)
      (same : ∀ k, after (.sponsor k) = before (.sponsor k))
      (funds : after.sponsorFunds = before.sponsorFunds)
  | opened (s : Sponsor) (spares : i.kind.sparesSponsors)
      (absent : before (.sponsor s.owner) = none) (stored : after (.sponsor s.owner) = some s)
      (empty : s.balance = 0)
      (others : ∀ k, k ≠ s.owner → after (.sponsor k) = before (.sponsor k))
      (funds : after.sponsorFunds = before.sponsorFunds)
  | changed (s s' : Sponsor) (held : before (.sponsor s.owner) = some s)
      (stored : after (.sponsor s.owner) = some s') (owner : s'.owner = s.owner)
      (others : ∀ k, k ≠ s.owner → after (.sponsor k) = before (.sponsor k))
      (funds : after.sponsorFunds + s.balance.toNat = before.sponsorFunds + s'.balance.toNat)
      (change : SponsorChange A i returns s s' before after)

/-! ## The records one by one -/

section

variable {before after : Books} {b b' : Bridge} {s s' : Sponsor}

theorem Books.sponsorFunds_of_some (h : before .bridge = some b) :
    before.sponsorFunds = b.sponsorFunds.toNat := by
  rw [sponsorFunds, h]

theorem Books.sponsorFunds_congr (h : after .bridge = before .bridge) :
    after.sponsorFunds = before.sponsorFunds := by
  rw [sponsorFunds, sponsorFunds, h]

theorem Books.sponsorFunds_eq (hb : before .bridge = some b) (hb' : after .bridge = some b')
    (h : b'.sponsorFunds = b.sponsorFunds) : after.sponsorFunds = before.sponsorFunds := by
  rw [sponsorFunds_of_some hb, sponsorFunds_of_some hb', h]

/-- What a sponsor takes out of its balance it is paid. -/
theorem Withdraws.of_withdraw {A : List Passed} {returns : Key → Nat → Prop} {owner : AccountId}
    {amount : Amount} {u : Unit} (hsigned : Signed A owner) (hown : s.owner = owner.key)
    (h : Sponsor.withdraw amount s = .ok u s') (hplace : HandedAt A 1 (.sponsor s.owner))
    (hreturns : returns owner.key amount.toNat) :
    Withdraws A ⟨.withdrawSponsor, amount⟩ returns s s' amount := by
  obtain ⟨-, hle, rfl⟩ := Sponsor.withdraw_eq_ok h
  exact ⟨rfl, hown ▸ hsigned.signedBy, hplace, hown ▸ hreturns, Amount.toNat_sub_add hle⟩

/-- A sponsor is charged the fee of the message that is recorded. -/
theorem Charges.of_queued {sender : Key} {q : SendRequest} {now : Slot} {o o' : Outbox}
    {m : OutboundMessage} (h : Outbox.Queued sender q now o m o') (hs : o.sponsor = some s)
    (hs' : o'.sponsor = some s') (bump : UInt8)
    (habsent : before (.outbound o.bridge.nextNonce) = none)
    (hstored : after (.outbound o.bridge.nextNonce) = some { m with bump }) :
    Charges ⟨.sendSponsored, q⟩ s s' before after q { m with bump } := by
  obtain ⟨htarget, hpayer, -, hbalance⟩ := h.charged hs hs'
  obtain ⟨hnonce, -⟩ := Bridge.recordSend_eq_ok h.counted
  have hmessage := h.message
  rw [← hnonce] at habsent hstored
  refine ⟨rfl, htarget, ⟨habsent, hstored⟩, ?_, hpayer, h.fee_le, hbalance⟩
  rw [hmessage]
  exact ⟨rfl, rfl⟩

end

/-! ## What a step keeps -/

namespace SponsorStep

variable {A : List Passed} {i : Instruction} {returns : Key → Nat → Prop} {before after : Books}
  {s : Sponsor}

/-- Sponsors stay at the places of their owners. -/
theorem named (h : SponsorStep A i returns before after) (hnamed : before.SponsorsNamed) :
    after.SponsorsNamed := by
  intro k s hs
  cases h with
  | kept spares same funds => exact hnamed k s (same k ▸ hs)
  | opened s₁ spares absent stored empty others funds =>
    by_cases hk : k = s₁.owner
    · subst hk
      obtain rfl : s₁ = s := Option.some.inj (stored.symm.trans hs)
      rfl
    · exact hnamed k s (others k hk ▸ hs)
  | changed s₁ s₁' held stored owner others funds change =>
    by_cases hk : k = s₁.owner
    · subst hk
      obtain rfl : s₁' = s := Option.some.inj (stored.symm.trans hs)
      exact owner
    · exact hnamed k s (others k hk ▸ hs)

/-- **A sponsor stays and its balance grows**, unless it withdraws or is charged. -/
theorem balance (h : SponsorStep A i returns before after)
    (hs : before (.sponsor s.owner) = some s) :
    ∃ s', after (.sponsor s.owner) = some s' ∧ s'.owner = s.owner ∧
      (s.balance ≤ s'.balance ∨ (∃ amount, Withdraws A i returns s s' amount) ∨
        ∃ q m, Charges i s s' before after q m) := by
  cases h with
  | kept spares same funds => exact ⟨s, (same s.owner).trans hs, rfl, Or.inl (UInt64.le_refl _)⟩
  | opened s₁ spares absent stored empty others funds =>
    have hne : s.owner ≠ s₁.owner := by
      intro heq
      rw [heq, absent] at hs
      cases hs
    exact ⟨s, (others s.owner hne).trans hs, rfl, Or.inl (UInt64.le_refl _)⟩
  | changed s₁ s' held stored owner others funds change =>
    by_cases heq : s.owner = s₁.owner
    · rw [heq] at hs
      obtain rfl : s₁ = s := Option.some.inj (held.symm.trans hs)
      refine ⟨s', stored, owner, ?_⟩
      cases change with
      | retargeted target allowed asked same => exact Or.inl (same ▸ UInt64.le_refl _)
      | deposited amount deposits =>
        have hbalance := deposits.balance
        exact Or.inl (UInt64.le_iff_toNat_le.2 (by omega))
      | withdrawn amount withdraws => exact Or.inr (Or.inl ⟨amount, withdraws⟩)
      | charged q m charges => exact Or.inr (Or.inr ⟨q, m, charges⟩)
    · exact ⟨s, (others s.owner heq).trans hs, rfl, Or.inl (UInt64.le_refl _)⟩

end SponsorStep

/-! ## All instructions -/

variable {env : Environment} {A : List Passed} {spendable : Amount} {before after : Books}
  {i : Instruction} {t : Trace} {returns : Key → Nat → Prop}

/-- **Every instruction makes one step of the sponsors' funds.** -/
theorem Effect.sponsorStep (h : Effect env A spendable before i after t)
    (hreturns : ∀ key amount, t.Returns key amount → returns key amount) :
    SponsorStep A i returns before after := by
  cases h with
  | createBridge received signed absent step =>
    rename_i settings authority b
    refine .kept ⟨nofun, nofun, nofun⟩ (fun k => by simp [Books.put_of_ne]) ?_
    rw [Books.sponsorFunds, Books.sponsorFunds, absent.1]
    obtain ⟨-, -, hfunds, -⟩ := Bridge.create_eq_ok step
    simp [Books.put_of_ne, hfunds]
  | setFeeSchedule signed bridge step =>
    obtain ⟨-, rfl⟩ := Governance.setFeeSchedule_eq_ok step
    exact .kept ⟨nofun, nofun, nofun⟩ (fun k => by simp [Books.put_of_ne])
      (Books.sponsorFunds_eq bridge (Books.put_self ..) rfl)
  | setAuthority signed bridge step =>
    obtain ⟨-, -, rfl⟩ := Governance.setAuthority_eq_ok step
    exact .kept ⟨nofun, nofun, nofun⟩ (fun k => by simp [Books.put_of_ne])
      (Books.sponsorFunds_eq bridge (Books.put_self ..) rfl)
  | openSponsor signed absent =>
    rename_i owner
    refine .opened { ({} : Sponsor) with owner := owner.key, bump := derivedBump }
      ⟨nofun, nofun, nofun⟩ absent (Books.put_self ..) rfl (fun k hk => ?_)
      (Books.sponsorFunds_congr (by simp [Books.put_of_ne]))
    exact Books.put_of_ne _ _ fun h => hk (Place.sponsor.inj h)
  | depositSponsor signed bridge sponsor vault own step books place =>
    rename_i amount owner b b' s s' v
    rw [← own] at sponsor place ⊢
    obtain ⟨hfunds, -⟩ := Bridge.holdSponsorFunds_eq_ok books
    obtain ⟨-, hbalance, hs'⟩ := Sponsor.deposit_eq_ok step
    refine .changed s s' sponsor (Books.put_self ..) (by rw [hs']) (fun k hk => ?_) ?_
      (.deposited amount ⟨rfl, own ▸ signed.signedBy, place, hbalance⟩)
    · have hplace : Place.sponsor k ≠ .sponsor s.owner := fun h => hk (Place.sponsor.inj h)
      simp [Books.put_of_ne, hplace]
    · rw [Books.sponsorFunds_of_some bridge,
        Books.sponsorFunds_of_some (b := b') (by simp [Books.put_of_ne])]
      omega
  | withdrawSponsor signed bridge sponsor vault own step books place =>
    rename_i amount owner b b' s s' v
    rw [← own] at sponsor place ⊢
    obtain ⟨hfunds, -⟩ := Bridge.releaseSponsorFunds_eq_ok books
    obtain ⟨-, -, hs'⟩ := Sponsor.withdraw_eq_ok step
    have hwithdraws : Withdraws A ⟨.withdrawSponsor, amount⟩ returns s s' amount :=
      .of_withdraw signed own step place (hreturns _ _ ⟨owner, rfl, rfl, rfl⟩)
    have hbalance := hwithdraws.balance
    refine .changed s s' sponsor (Books.put_self ..) (by rw [hs']) (fun k hk => ?_) ?_
      (.withdrawn amount hwithdraws)
    · have hplace : Place.sponsor k ≠ .sponsor s.owner := fun h => hk (Place.sponsor.inj h)
      simp [Books.put_of_ne, hplace]
    · rw [Books.sponsorFunds_of_some bridge,
        Books.sponsorFunds_of_some (b := b') (by simp [Books.put_of_ne])]
      omega
  | setSponsoredTarget signed sponsor own step =>
    rename_i target allowed owner s s'
    rw [← own] at sponsor ⊢
    obtain ⟨hs', -, -⟩ := Sponsor.setTarget_eq_ok step
    have hbalance : s'.balance = s.balance := by rw [hs']
    have hfunds : (before.put (.sponsor s.owner) s').sponsorFunds = before.sponsorFunds :=
      Books.sponsorFunds_congr (by simp [Books.put_of_ne])
    refine .changed s s' sponsor (Books.put_self ..) (by rw [hs']) (fun k hk => ?_) ?_
      (.retargeted target allowed rfl hbalance)
    · exact Books.put_of_ne _ _ fun h => hk (Place.sponsor.inj h)
    · rw [hbalance, hfunds]
  | sendMessage signed bridge chain vault absent step owes =>
    rename_i q sender b c v m o owed
    obtain ⟨-, -, -, -, hfunds, -⟩ := Bridge.recordSend_eq_ok (Outbox.queued_of_queue step).counted
    have hsame : o.bridge.sponsorFunds = b.sponsorFunds := UInt64.toNat_inj.1 hfunds
    exact .kept ⟨nofun, nofun, nofun⟩ (fun k => by simp [Books.put_of_ne])
      (Books.sponsorFunds_eq bridge (by simp [Books.put_of_ne]) hsame)
  | sendSponsored signed bridge chain sponsor vault absent step charged =>
    rename_i q sender b c v s s' m o
    have hqueued := Outbox.queued_of_queue step
    obtain ⟨-, -, howner, hbalance⟩ := hqueued.charged rfl charged
    obtain ⟨-, -, -, -, hfunds, -⟩ := Bridge.recordSend_eq_ok hqueued.counted
    refine .changed s s' sponsor (Books.put_self ..) howner (fun k hk => ?_) ?_
      (.charged q _ (.of_queued hqueued rfl charged derivedBump absent (by simp [Books.put_of_ne])))
    · have hplace : Place.sponsor k ≠ .sponsor s.owner := fun h => hk (Place.sponsor.inj h)
      simp [Books.put_of_ne, hplace]
    · rw [Books.sponsorFunds_of_some bridge,
        Books.sponsorFunds_of_some (b := o.bridge) (by simp [Books.put_of_ne])]
      simp only [Option.isSome_some, if_true] at hfunds
      omega
  | confirmDelivery bridge roster message evidence step =>
    have hsame := (Bridge.Settled.of_confirm step).sponsorFunds
    exact .kept ⟨nofun, nofun, nofun⟩ (fun k => by simp [Books.put_of_ne])
      (Books.sponsorFunds_eq bridge (by simp [Books.put_of_ne]) hsame)
  | reclaim signed bridge message vault step =>
    have hsame := (Bridge.Settled.of_reclaim step).sponsorFunds
    exact .kept ⟨nofun, nofun, nofun⟩ (fun k => by simp [Books.put_of_ne])
      (Books.sponsorFunds_eq bridge (by simp [Books.put_of_ne]) hsame)
  | unregisterRelayer signed bridge roster vault step =>
    have hsame := (Bridge.Settled.of_unregister step).sponsorFunds
    exact .kept ⟨nofun, nofun, nofun⟩ (fun k => by simp [Books.put_of_ne])
      (Books.sponsorFunds_eq bridge (by simp [Books.put_of_ne]) hsame)
  | removeRelayer signed bridge roster vault own step =>
    have hsame := (Bridge.Settled.of_remove step).sponsorFunds
    exact .kept ⟨nofun, nofun, nofun⟩ (fun k => by simp [Books.put_of_ne])
      (Books.sponsorFunds_eq bridge (by simp [Books.put_of_ne]) hsame)
  | claimCompensation signed bridge roster vault step =>
    have hsame := (Bridge.Settled.of_claim step).sponsorFunds
    exact .kept ⟨nofun, nofun, nofun⟩ (fun k => by simp [Books.put_of_ne])
      (Books.sponsorFunds_eq bridge (by simp [Books.put_of_ne]) hsame)
  | processMessage given signed bridge =>
    refine .kept ⟨nofun, nofun, nofun⟩ (fun k => ?_) (Books.sponsorFunds_congr ?_)
    · rw [Books.move_of_ne (q := .sponsor k) nofun]
      simp [Books.put_of_ne]
    · rw [Books.move_of_ne (q := .bridge) nofun]
      simp [Books.put_of_ne]
  | processBatch given =>
    exact .kept ⟨nofun, nofun, nofun⟩ (fun k => by simp [Books.put_of_ne, Books.close_of_ne])
      (Books.sponsorFunds_congr (by simp [Books.put_of_ne, Books.close_of_ne]))
  | _ =>
    exact .kept ⟨nofun, nofun, nofun⟩ (fun k => by simp [Books.put_of_ne])
      (Books.sponsorFunds_congr (by simp [Books.put_of_ne]))

end QuorumRelay
