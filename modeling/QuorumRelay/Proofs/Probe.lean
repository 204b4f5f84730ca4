import QuorumRelay.Proofs.Estimate
import QuorumRelay.Proofs.Governance

/-!
# What one estimate says of all others

Before a fee schedule is taken over, one fee is estimated under it: that of the
largest payload, without a compute budget, at the neutral multiplier.  The fee
itself is thrown away; what counts is that there is one.

The probe covers what is below it, because an estimate can only fail by being too
large and because both numbers that have to fit grow with each argument
(`FeeSchedule.Fits.mono`).  It asks for no more than it has to: at the neutral
multiplier scaling changes nothing, so the one number that has to fit is the
unscaled fee (`Governance.setFeeSchedule_eq_ok_iff`).

What is above the probe it does not cover: a compute budget, or a multiplier
above the neutral one, can still make a fee too large.
-/

namespace QuorumRelay

namespace Governance

variable {actor : Key} {fees : FeeSchedule} {b b' : Bridge} {u : Unit}

/-- **A schedule is taken over exactly if** the governing key asks for it and the unscaled fee of
the largest payload fits in 64 bits. -/
theorem setFeeSchedule_eq_ok_iff : setFeeSchedule actor fees b = .ok u b' ↔
    b.council actor = true ∧ fees.raw maxPayloadBytes 0 < UInt64.size ∧ b' = { b with fees } := by
  have hprobe : (∃ fee, fees.estimate FeeSchedule.multiplierUnit maxPayloadBytes 0 = .ok fee) ↔
      fees.raw maxPayloadBytes 0 < UInt64.size := by
    rw [FeeSchedule.exists_estimate_iff, FeeSchedule.Fits, FeeSchedule.scaled_multiplierUnit,
      and_self]
  rw [← hprobe, setFeeSchedule]
  simp only [get_bind, lift_bind_eq_ok, Membership.council_check_eq_ok, modify_eq_ok]
  constructor
  · rintro ⟨-, hcouncil, fee, hfee, rfl⟩
    exact ⟨hcouncil, ⟨fee, hfee⟩, rfl⟩
  · rintro ⟨hcouncil, ⟨fee, hfee⟩, rfl⟩
    exact ⟨(), hcouncil, fee, hfee, rfl⟩

end Governance

namespace FeeSchedule

/-- **An estimate is exact, grows with each argument, and is covered by the probe.**  There is
one exactly if the fee fits in 64 bits before and after scaling, it is the fee rounded down then,
and otherwise the reason is an overflow, which is never one of the 128 bits of the product.  A
message that has an estimate has one, which is no larger, at every smaller multiplier, size and
budget.  Under a schedule that was taken over, every payload up to the largest has an estimate,
without a budget and at multipliers up to the neutral one; and the governing key is refused a
schedule exactly if the unscaled fee of the largest payload does not fit. -/
theorem estimate_exactly :
    (∀ (fees : FeeSchedule) (multiplier : UInt32) (size : Nat) (budget : UInt64),
      (fees.raw size budget < 2 ^ 64 ∧ fees.scaled multiplier size budget < 2 ^ 64 →
        ∃ fee, fees.estimate multiplier size budget = .ok fee ∧
          fee.toNat = fees.raw size budget * multiplier.toNat / 10000) ∧
      (¬ (fees.raw size budget < 2 ^ 64 ∧ fees.scaled multiplier size budget < 2 ^ 64) →
        fees.estimate multiplier size budget = .error (.refused .arithmeticOverflow))) ∧
    (∀ (raw : Amount) (multiplier : UInt32), raw.toNat * multiplier.toNat < 2 ^ 128 ∧
      scale raw multiplier = Amount.fit (raw.toNat * multiplier.toNat / 10000)) ∧
    (∀ (fees : FeeSchedule) (multiplier multiplier' : UInt32) (size size' : Nat)
        (budget budget' : UInt64) (fee : Amount),
      fees.estimate multiplier size budget = .ok fee →
      multiplier' ≤ multiplier → size' ≤ size → budget' ≤ budget →
      ∃ fee', fees.estimate multiplier' size' budget' = .ok fee' ∧ fee' ≤ fee) ∧
    (∀ (actor : Key) (fees : FeeSchedule) (b b' : Bridge),
      Governance.setFeeSchedule actor fees b = .ok () b' →
      ∀ multiplier size, multiplier ≤ 10000 → size ≤ 1024 →
        ∃ fee, fees.estimate multiplier size 0 = .ok fee) ∧
    ∀ (fees : FeeSchedule) (b : Bridge),
      (∃ f b', Governance.setFeeSchedule b.authority fees b = .error f b') ↔
        2 ^ 64 ≤ fees.raw 1024 0 := by
  refine ⟨fun fees multiplier size budget => ⟨fun hfits => ?_, fun hfits => ?_⟩,
    fun raw multiplier => ?_, ?_, ?_, fun fees b => ?_⟩
  · obtain ⟨fee, hfee⟩ := exists_estimate_iff.2 hfits
    exact ⟨fee, hfee, (estimate_eq_ok.1 hfee).2⟩
  · cases h : fees.estimate multiplier size budget with
    | ok fee => exact absurd (exists_estimate_iff.1 ⟨fee, h⟩) hfits
    | error f => rw [estimate_eq_error h]
  · exact ⟨product_lt raw multiplier, scale_eq raw multiplier⟩
  · intro fees multiplier multiplier' size size' budget budget' fee hfee hmultiplier hsize hbudget
    obtain ⟨fee', hfee'⟩ := exists_estimate_iff.2
      ((exists_estimate_iff.1 ⟨fee, hfee⟩).mono hmultiplier hsize hbudget)
    refine ⟨fee', hfee', UInt64.le_iff_toNat_le.2 ?_⟩
    rw [(estimate_eq_ok.1 hfee).2, (estimate_eq_ok.1 hfee').2]
    exact scaled_le_scaled hmultiplier hsize hbudget
  · intro actor fees b b' h multiplier size hmultiplier hsize
    obtain ⟨-, hraw, -⟩ := Governance.setFeeSchedule_eq_ok_iff.1 h
    have hprobe : fees.Fits multiplierUnit maxPayloadBytes 0 :=
      ⟨hraw, by rwa [scaled_multiplierUnit]⟩
    exact exists_estimate_iff.2 (hprobe.mono hmultiplier hsize (UInt64.le_refl 0))
  · have hcouncil : b.council b.authority = true := decide_eq_true rfl
    have haccepted : (∃ u b', Governance.setFeeSchedule b.authority fees b = .ok u b') ↔
        fees.raw 1024 0 < 2 ^ 64 := by
      simp only [Governance.setFeeSchedule_eq_ok_iff, hcouncil, true_and, exists_and_left,
        exists_eq, and_true, exists_const]
      rfl
    rw [← Nat.not_lt, ← haccepted]
    cases Governance.setFeeSchedule b.authority fees b <;> simp

/-- A message of 100 bytes and 1000 units at one and a half times the fee, the message without
its budget at the plain fee, and a schedule that is taken over and one that is not. -/
theorem estimate_exactly_of_schedule :
    let fees : FeeSchedule := { base := 5000, perByte := 10, perComputeUnit := 2 }
    fees.raw 100 1000 = 8000 ∧
      (∃ fee, fees.estimate 15000 100 1000 = .ok fee ∧ fee.toNat = 12000) ∧
      (∃ fee, fees.estimate 10000 100 0 = .ok fee ∧ fee ≤ 12000) ∧
      fees.estimate 4294967295 100 (.ofNat (2 ^ 62)) = .error (.refused .arithmeticOverflow) ∧
      Governance.setFeeSchedule .zero fees {} = .ok () { fees } ∧
      (∃ fee, fees.estimate 9999 1024 0 = .ok fee) ∧
      ∃ f b', Governance.setFeeSchedule .zero { perByte := .ofNat (2 ^ 54) } {} = .error f b' := by
  intro fees
  have hone : fees.estimate 15000 100 1000 = .ok 12000 :=
    estimate_eq_ok.2 ⟨by decide, by decide⟩
  have htaken : Governance.setFeeSchedule .zero fees {} = .ok () { fees } :=
    Governance.setFeeSchedule_eq_ok_iff.2 ⟨rfl, by decide, rfl⟩
  obtain ⟨hexact, -, hmono, hprobe, hrefused⟩ := estimate_exactly
  obtain ⟨fee, hfee, hscaled⟩ := (hexact fees 15000 100 1000).1 (by decide)
  exact ⟨by decide, ⟨fee, hfee, hscaled.trans (by decide)⟩, hmono _ _ _ _ _ _ _ _ hone (by decide)
    (by decide) (by decide), (hexact fees _ _ _).2 (by decide), htaken,
    hprobe _ _ _ _ htaken _ _ (by decide) (by decide), (hrefused _ {}).2 (by decide)⟩

end FeeSchedule
end QuorumRelay
