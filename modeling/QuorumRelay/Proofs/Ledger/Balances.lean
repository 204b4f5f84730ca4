import Mathlib.Algebra.BigOperators.Intervals
import Mathlib.Algebra.Order.BigOperators.Group.Finset
import QuorumRelay.Proofs.Ledger.Log
import QuorumRelay.Proofs.Ledger.Prepaid

/-!
# Sponsors' balances and their sum

The bridge's record holds one number for all sponsors, and every sponsor's record
holds one of its own.  Three operations change both, each in two functions that
do not call one another.  `Books.FundsSum` says that the one number is the sum of
the others, and `SponsorStep.fundsSum` that a step keeps it so.

The second half compares a balance with where it came from.  A step of a sponsor's
record is at the same time a step of the log of messages, and a fee that leaves a
balance is the fee of the message that is appended (`Effect.balanceOf_add`).
-/

namespace QuorumRelay

open Finset

namespace Books

/-- What is left of a sponsor's payments; nothing where there is no sponsor. -/
def balanceOf (books : Books) (k : Key) : Nat :=
  match books (.sponsor k) with
  | some s => s.balance.toNat
  | none => 0

/-- **The sponsors' funds are the sum of their balances.** -/
def FundsSum (books : Books) : Prop :=
  ∃ owners : Finset Key, (∀ k, k ∈ owners ↔ ∃ s, books (.sponsor k) = some s) ∧
    books.sponsorFunds = ∑ k ∈ owners, books.balanceOf k

/-- What a sponsor paid for the message of a nonce. -/
def feeAt (books : Books) (k : Key) (n : Nonce) : Nat :=
  match books (.outbound n) with
  | some m => if m.feePayer = .sponsor k then m.fee.toNat else 0
  | none => 0

/-- The fees of all messages that a sponsor paid for. -/
def feesOf (books : Books) (k : Key) : Nat :=
  ∑ n ∈ range books.sentCount, books.feeAt k (.ofNat n)

variable {books before after : Books} {k : Key} {n : Nonce} {s : Sponsor} {m : OutboundMessage}

theorem balanceOf_of_some (h : books (.sponsor k) = some s) :
    books.balanceOf k = s.balance.toNat := by
  rw [balanceOf, h]

theorem balanceOf_congr (h : after (.sponsor k) = before (.sponsor k)) :
    after.balanceOf k = before.balanceOf k := by
  rw [balanceOf, balanceOf, h]

theorem feeAt_of_some (h : books (.outbound n) = some m) :
    books.feeAt k n = if m.feePayer = .sponsor k then m.fee.toNat else 0 := by
  rw [feeAt, h]

theorem feeAt_congr (h : after (.outbound n) = before (.outbound n)) :
    after.feeAt k n = before.feeAt k n := by
  rw [feeAt, feeAt, h]

theorem feesOf_congr (hcount : after.sentCount = before.sentCount)
    (h : ∀ n, after.feeAt k n = before.feeAt k n) : after.feesOf k = before.feesOf k := by
  rw [feesOf, feesOf, hcount]
  exact sum_congr rfl fun n _ => h _

/-- No sponsor has more than all of them. -/
theorem FundsSum.le (h : books.FundsSum) (hs : books (.sponsor k) = some s) :
    s.balance.toNat ≤ books.sponsorFunds := by
  obtain ⟨owners, howners, hfunds⟩ := h
  rw [hfunds, ← balanceOf_of_some hs]
  exact single_le_sum (fun _ _ => Nat.zero_le _) ((howners k).2 ⟨s, hs⟩)

end Books

/-! ## The sum -/

section

variable {A : List Passed} {i : Instruction} {returns : Key → Nat → Prop} {before after : Books}
  {k : Key}

/-- **A step keeps the funds equal to the sum of the balances.** -/
theorem SponsorStep.fundsSum (h : SponsorStep A i returns before after) (hsum : before.FundsSum) :
    after.FundsSum := by
  obtain ⟨owners, howners, hfunds⟩ := hsum
  cases h with
  | kept spares same funds =>
    refine ⟨owners, fun k => by rw [same k, howners k], ?_⟩
    rw [funds, hfunds]
    exact sum_congr rfl fun k _ => (Books.balanceOf_congr (same k)).symm
  | opened s spares absent stored empty others funds =>
    have hnew : s.owner ∉ owners := by
      rintro hmem
      obtain ⟨s', hs'⟩ := (howners _).1 hmem
      cases absent.symm.trans hs'
    refine ⟨insert s.owner owners, fun k => ?_, ?_⟩
    · by_cases hk : k = s.owner
      · subst hk
        exact iff_of_true (mem_insert_self _ _) ⟨s, stored⟩
      · rw [mem_insert, or_iff_right hk, others k hk, howners k]
    · have hzero : after.balanceOf s.owner = 0 := by
        rw [Books.balanceOf_of_some stored, empty]
        rfl
      rw [sum_insert hnew, hzero, Nat.zero_add, funds, hfunds]
      refine sum_congr rfl fun k hk => (Books.balanceOf_congr (others k ?_)).symm
      rintro rfl
      exact hnew hk
  | changed s s' held stored owner others funds change =>
    have hmem : s.owner ∈ owners := (howners _).2 ⟨s, held⟩
    refine ⟨owners, fun k => ?_, ?_⟩
    · by_cases hk : k = s.owner
      · subst hk
        exact iff_of_true hmem ⟨s', stored⟩
      · rw [others k hk, howners k]
    · have hrest : ∑ k ∈ owners.erase s.owner, after.balanceOf k =
          ∑ k ∈ owners.erase s.owner, before.balanceOf k :=
        sum_congr rfl fun k hk => Books.balanceOf_congr (others k (ne_of_mem_erase hk))
      rw [← add_sum_erase _ _ hmem, Books.balanceOf_of_some held] at hfunds
      rw [← add_sum_erase _ _ hmem, Books.balanceOf_of_some stored, hrest]
      omega

end

/-! ## Where a balance came from -/

instance {A : List Passed} {place : Nat} {id : AccountId} : Decidable (HandedAt A place id) :=
  decidable_of_iff (A[place]?.map Passed.id = some id) Option.map_eq_some_iff

/-- An instruction names the account of one sponsor. -/
theorem HandedAt.eq_of_sponsor {A : List Passed} {place : Nat} {owner k : Key}
    (h : HandedAt A place (.sponsor owner)) (h' : HandedAt A place (.sponsor k)) : k = owner := by
  obtain ⟨p, hp, hid⟩ := h
  obtain ⟨p', hp', hid'⟩ := h'
  obtain rfl := Option.some.inj (hp.symm.trans hp')
  exact (AccountId.sponsor.inj (hid.symm.trans hid')).symm

/-- What an instruction deposits for a sponsor, if it is carried out. -/
def Instruction.deposits (k : Key) (A : List Passed) : Instruction → Nat
  | ⟨.depositSponsor, amount⟩ => if HandedAt A 1 (.sponsor k) then amount.toNat else 0
  | _ => 0

/-- What an instruction withdraws for a sponsor, if it is carried out. -/
def Instruction.withdraws (k : Key) (A : List Passed) : Instruction → Nat
  | ⟨.withdrawSponsor, amount⟩ => if HandedAt A 1 (.sponsor k) then amount.toNat else 0
  | _ => 0

section

variable {env : Environment} {A : List Passed} {i : Instruction} {returns : Key → Nat → Prop}
  {sends : OutboundMessage → Prop} {timesOut : Nonce → OutboundMessage → Prop}
  {before after : Books} {nonces : List Nonce} {m : OutboundMessage}

/-- **A message that is recorded adds its fee to those of its payer.** -/
theorem LogStep.feesOf_of_sent (h : LogStep sends timesOut before after nonces)
    (hsent : before (.outbound m.nonce) = none ∧ after (.outbound m.nonce) = some m) (k : Key) :
    after.feesOf k = before.feesOf k + if m.feePayer = .sponsor k then m.fee.toNat else 0 := by
  cases h with
  | kept idle same count =>
    rw [same, hsent.1] at hsent
    cases hsent.2
  | moved n m' status idle held stored others count advances timely =>
    by_cases hn : m.nonce = n
    · rw [hn, held] at hsent
      cases hsent.1
    · rw [others _ hn, hsent.1] at hsent
      cases hsent.2
  | appended m' once sent next count stored others =>
    obtain rfl : m = m' := by
      by_contra hne
      have hn : m.nonce ≠ m'.nonce := fun hn =>
        hne (Option.some.inj (hsent.2.symm.trans (hn ▸ stored)))
      rw [others _ hn, hsent.1] at hsent
      cases hsent.2
    have hlast : UInt64.ofNat before.sentCount = m.nonce := by rw [← next, UInt64.ofNat_toNat]
    rw [Books.feesOf, count, sum_range_succ, hlast, Books.feeAt_of_some stored, Books.feesOf]
    refine congrArg (· + _) (sum_congr rfl fun n hn => Books.feeAt_congr (others _ ?_))
    -- the earlier nonces are below the new one
    rintro heq
    have hlt : n < m.nonce.toNat := next.symm ▸ mem_range.1 hn
    have htoNat : (UInt64.ofNat n).toNat = n :=
      UInt64.toNat_ofNat_of_lt' (Nat.lt_trans hlt m.nonce.toNat_lt_size)
    rw [heq] at htoNat
    omega

/-- **No other instruction adds to the fees that a sponsor paid.** -/
theorem LogStep.feesOf_eq (h : LogStep (Sends env A before i) timesOut before after nonces)
    (hkind : i.kind ≠ .sendSponsored) (hdense : before.Dense) (k : Key) :
    after.feesOf k = before.feesOf k := by
  have hfees := fun m => h.feesOf_of_sent (m := m)
  cases h with
  | kept idle same count =>
    exact Books.feesOf_congr count fun n => Books.feeAt_congr (same n)
  | moved n m status idle held stored others count advances timely =>
    refine Books.feesOf_congr count fun n' => ?_
    by_cases hn : n' = n
    · rw [hn, Books.feeAt_of_some stored, Books.feeAt_of_some held]
    · exact Books.feeAt_congr (others n' hn)
  | appended m once sent next count stored others =>
    have habsent : before (.outbound m.nonce) = none := by
      refine Option.eq_none_iff_forall_ne_some.2 fun m' hm' => ?_
      exact absurd ((hdense m.nonce).1.1 ⟨m', hm'⟩) (by omega)
    have hpayer : m.feePayer ≠ .sponsor k := by
      rcases sent.payer with ⟨-, hpayer⟩ | ⟨hsponsored, -⟩
      · rw [hpayer]
        nofun
      · exact absurd hsponsored hkind
    rw [hfees m ⟨habsent, stored⟩, if_neg hpayer, Nat.add_zero]

/-- An instruction that spares the sponsors' balances deposits and withdraws nothing. -/
theorem Instruction.Kind.sparesSponsors.eq_zero (h : i.kind.sparesSponsors) (k : Key) :
    i.deposits k A = 0 ∧ i.withdraws k A = 0 := by
  obtain ⟨kind, argument⟩ := i
  obtain ⟨hdeposit, hwithdraw, -⟩ := h
  cases kind
  case depositSponsor => exact absurd rfl hdeposit
  case withdrawSponsor => exact absurd rfl hwithdraw
  all_goals exact ⟨rfl, rfl⟩

/-- A sponsor's record changes by what is deposited and withdrawn, or by a fee, and the others do
not. -/
theorem SponsorChange.balanceOf_add {s s' : Sponsor}
    (h : SponsorChange A i returns s s' before after)
    (held : before (.sponsor s.owner) = some s) (stored : after (.sponsor s.owner) = some s')
    (others : ∀ k, k ≠ s.owner → after (.sponsor k) = before (.sponsor k)) (k : Key) :
    i.kind ≠ .sendSponsored ∧
        after.balanceOf k + i.withdraws k A = before.balanceOf k + i.deposits k A ∨
      ∃ q m, Charges i s s' before after q m ∧
        after.balanceOf k + (if m.feePayer = .sponsor k then m.fee.toNat else 0) =
          before.balanceOf k := by
  have hbefore := Books.balanceOf_of_some held
  have hafter := Books.balanceOf_of_some stored
  have hothers := fun hk => Books.balanceOf_congr (others k hk)
  cases h with
  | retargeted target allowed asked same =>
    subst asked
    refine Or.inl ⟨nofun, ?_⟩
    show after.balanceOf k + 0 = before.balanceOf k + 0
    by_cases hk : k = s.owner
    · rw [hk, hbefore, hafter, same]
    · rw [hothers hk]
  | deposited amount deposits =>
    obtain ⟨rfl, -, hnamed, hadded⟩ := deposits
    refine Or.inl ⟨nofun, ?_⟩
    show after.balanceOf k + 0 =
      before.balanceOf k + if HandedAt A 1 (.sponsor k) then amount.toNat else 0
    by_cases hk : k = s.owner
    · rw [hk, hbefore, hafter, if_pos hnamed, hadded, Nat.add_zero]
    · rw [hothers hk, if_neg fun h => hk (hnamed.eq_of_sponsor h)]
  | withdrawn amount withdraws =>
    obtain ⟨rfl, -, hnamed, -, htaken⟩ := withdraws
    refine Or.inl ⟨nofun, ?_⟩
    show after.balanceOf k + (if HandedAt A 1 (.sponsor k) then amount.toNat else 0) =
      before.balanceOf k + 0
    by_cases hk : k = s.owner
    · rw [hk, hbefore, hafter, if_pos hnamed, htaken, Nat.add_zero]
    · rw [hothers hk, if_neg fun h => hk (hnamed.eq_of_sponsor h)]
  | charged q m charges =>
    refine Or.inr ⟨q, m, charges, ?_⟩
    rw [charges.payer]
    by_cases hk : k = s.owner
    · rw [hk, hbefore, hafter, if_pos rfl, charges.balance]
    · rw [hothers hk, if_neg fun h => hk (FeePayer.sponsor.inj h).symm, Nat.add_zero]

/-- **A balance changes by what is deposited and withdrawn, or by a fee.** -/
theorem SponsorStep.balanceOf_add (h : SponsorStep A i returns before after) (k : Key) :
    i.kind ≠ .sendSponsored ∧
        after.balanceOf k + i.withdraws k A = before.balanceOf k + i.deposits k A ∨
      ∃ s s' q m, Charges i s s' before after q m ∧
        after.balanceOf k + (if m.feePayer = .sponsor k then m.fee.toNat else 0) =
          before.balanceOf k := by
  cases h with
  | kept spares same funds =>
    obtain ⟨hdeposits, hwithdraws⟩ := spares.eq_zero (A := A) k
    rw [hdeposits, hwithdraws, Books.balanceOf_congr (same k)]
    exact Or.inl ⟨spares.2.2, rfl⟩
  | opened s spares absent stored empty others funds =>
    obtain ⟨hdeposits, hwithdraws⟩ := spares.eq_zero (A := A) k
    rw [hdeposits, hwithdraws]
    refine Or.inl ⟨spares.2.2, ?_⟩
    by_cases hk : k = s.owner
    · rw [hk, Books.balanceOf_of_some stored, empty, Books.balanceOf, absent]
      rfl
    · rw [Books.balanceOf_congr (others k hk)]
  | changed s s' held stored owner others funds change =>
    exact (change.balanceOf_add held stored others k).imp_right fun hcharged => ⟨s, s', hcharged⟩

/-- **A balance and the fees it was spent on grow by what is deposited, and fall by what is
withdrawn.** -/
theorem SponsorStep.account (h : SponsorStep A i returns before after)
    (hlog : LogStep (Sends env A before i) timesOut before after nonces) (hdense : before.Dense)
    (k : Key) :
    after.balanceOf k + after.feesOf k + i.withdraws k A =
      before.balanceOf k + before.feesOf k + i.deposits k A := by
  rcases h.balanceOf_add k with ⟨hkind, hbalance⟩ | ⟨s, s', q, m, hcharges, hbalance⟩
  · rw [hlog.feesOf_eq hkind hdense]
    omega
  · have hasked := hcharges.asked
    subst hasked
    rw [hlog.feesOf_of_sent hcharges.sent]
    show _ + 0 = _ + 0
    omega

end

end QuorumRelay
