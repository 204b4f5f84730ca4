import QuorumRelay.FeeSchedule
import QuorumRelay.Proofs.Admission

/-!
# The estimate of a fee

A fee is estimated in six steps, each of which has to fit in the width it is
taken in.  All the parts of the sum are natural numbers, so a part or a partial
sum that does not fit means that the whole does not; and the product with the
multiplier always fits in its 128 bits (`FeeSchedule.scale_eq`).  So the steps ask
for no more than that the unscaled fee fits in 64 bits and the scaled one does
(`FeeSchedule.estimate_eq_ok`).

Both numbers grow with the multiplier, the size and the budget.  So what fits for
one message fits for every smaller one (`FeeSchedule.Fits.mono`).
-/

namespace QuorumRelay

open Condition

namespace FeeSchedule

variable {fees : FeeSchedule} {multiplier multiplier' : UInt32} {size size' : Nat}
  {budget budget' : UInt64} {fee : Amount} {f : Fault}

/-- The fee before it is scaled. -/
def raw (fees : FeeSchedule) (size : Nat) (budget : UInt64) : Nat :=
  fees.base.toNat + fees.perByte.toNat * size + fees.perComputeUnit.toNat * budget.toNat

/-- The fee at a multiplier, rounded down. -/
def scaled (fees : FeeSchedule) (multiplier : UInt32) (size : Nat) (budget : UInt64) : Nat :=
  fees.raw size budget * multiplier.toNat / multiplierUnit.toNat

/-- An estimate exists if the fee fits in 64 bits, before and after it is scaled. -/
def Fits (fees : FeeSchedule) (multiplier : UInt32) (size : Nat) (budget : UInt64) : Prop :=
  fees.raw size budget < UInt64.size ∧ fees.scaled multiplier size budget < UInt64.size

/-- A product of 64 and 32 bits fits in 128. -/
theorem product_lt (raw : Amount) (multiplier : UInt32) :
    raw.toNat * multiplier.toNat < 2 ^ 128 :=
  calc raw.toNat * multiplier.toNat ≤ 2 ^ 64 * 2 ^ 32 :=
        Nat.mul_le_mul (Nat.le_of_lt raw.toNat_lt) (Nat.le_of_lt multiplier.toNat_lt)
    _ < 2 ^ 128 := by decide

/-- Of a scaled fee only the quotient can be too large. -/
theorem scale_eq (raw : Amount) (multiplier : UInt32) :
    scale raw multiplier = Amount.fit (raw.toNat * multiplier.toNat / multiplierUnit.toNat) := by
  have hfits : raw.toNat * multiplier.toNat < UInt64.size * UInt64.size :=
    Nat.lt_of_lt_of_eq (product_lt raw multiplier) (by decide)
  rw [scale]
  simp only [require, if_pos hfits]
  rfl

/-- **An estimate is exact.** -/
theorem estimate_eq_ok : fees.estimate multiplier size budget = .ok fee ↔
    fees.raw size budget < UInt64.size ∧ fee.toNat = fees.scaled multiplier size budget := by
  unfold estimate Amount.times Amount.plus scaled
  simp only [except_bind_eq_ok, scale_eq, Amount.fit_eq_ok_iff]
  constructor
  · rintro ⟨a, ha, b, hb, sum, hsum, total, htotal, hfee⟩
    have hraw : total.toNat = fees.raw size budget := by
      rw [htotal, hsum, ha, hb, raw]
    exact ⟨hraw ▸ total.toNat_lt, hraw ▸ hfee⟩
  · rintro ⟨hraw, hfee⟩
    -- each part is at most the whole
    have hfits : ∀ n ≤ fees.raw size budget, ∃ a : Amount, a.toNat = n := fun n hn =>
      ⟨_, UInt64.toNat_ofNat_of_lt' (Nat.lt_of_le_of_lt hn hraw)⟩
    obtain ⟨a, ha⟩ := hfits (fees.perByte.toNat * size) (by unfold raw; omega)
    obtain ⟨b, hb⟩ := hfits (fees.perComputeUnit.toNat * budget.toNat) (by unfold raw; omega)
    obtain ⟨sum, hsum⟩ := hfits (fees.base.toNat + a.toNat) (by unfold raw; omega)
    obtain ⟨total, htotal⟩ := hfits (sum.toNat + b.toNat) (by unfold raw; omega)
    have hwhole : total.toNat = fees.raw size budget := by
      rw [htotal, hsum, ha, hb, raw]
    exact ⟨a, ha, b, hb, sum, hsum, total, htotal, hwhole ▸ hfee⟩

/-- Where there is no estimate, a number was too large. -/
theorem estimate_eq_error (h : fees.estimate multiplier size budget = .error f) :
    f = .refused .arithmeticOverflow := by
  unfold estimate Amount.times Amount.plus at h
  simp only [except_bind_eq_error, scale_eq, Amount.fit_eq_error_iff] at h
  rcases h with ⟨-, h⟩ | ⟨_, -, ⟨-, h⟩ | ⟨_, -, ⟨-, h⟩ | ⟨_, -, ⟨-, h⟩ | ⟨_, -, -, h⟩⟩⟩⟩ <;>
    exact h

/-- There is an estimate exactly if the fee fits. -/
theorem exists_estimate_iff :
    (∃ fee, fees.estimate multiplier size budget = .ok fee) ↔ fees.Fits multiplier size budget := by
  simp only [estimate_eq_ok, Fits, exists_and_left]
  exact and_congr_right fun _ =>
    ⟨fun ⟨fee, hfee⟩ => hfee ▸ fee.toNat_lt, fun h => ⟨_, UInt64.toNat_ofNat_of_lt' h⟩⟩

theorem estimate_follows : Follows (fees.estimate multiplier size budget)
    [requires (fees.Fits multiplier size budget) .arithmeticOverflow] :=
  .single exists_estimate_iff fun _ => estimate_eq_error

/-! ## Smaller messages -/

theorem raw_le_raw (hsize : size' ≤ size) (hbudget : budget' ≤ budget) :
    fees.raw size' budget' ≤ fees.raw size budget :=
  Nat.add_le_add (Nat.add_le_add_left (Nat.mul_le_mul_left _ hsize) _)
    (Nat.mul_le_mul_left _ (UInt64.le_iff_toNat_le.1 hbudget))

theorem scaled_le_scaled (hmultiplier : multiplier' ≤ multiplier) (hsize : size' ≤ size)
    (hbudget : budget' ≤ budget) :
    fees.scaled multiplier' size' budget' ≤ fees.scaled multiplier size budget :=
  Nat.div_le_div_right
    (Nat.mul_le_mul (raw_le_raw hsize hbudget) (UInt32.le_iff_toNat_le.1 hmultiplier))

/-- **What fits for a message fits for a smaller one.** -/
theorem Fits.mono (h : fees.Fits multiplier size budget) (hmultiplier : multiplier' ≤ multiplier)
    (hsize : size' ≤ size) (hbudget : budget' ≤ budget) :
    fees.Fits multiplier' size' budget' :=
  ⟨Nat.lt_of_le_of_lt (raw_le_raw hsize hbudget) h.1,
    Nat.lt_of_le_of_lt (scaled_le_scaled hmultiplier hsize hbudget) h.2⟩

/-- The neutral multiplier leaves a fee as it is. -/
theorem scaled_multiplierUnit : fees.scaled multiplierUnit size budget = fees.raw size budget :=
  Nat.mul_div_cancel _ (by decide)

end FeeSchedule
end QuorumRelay
