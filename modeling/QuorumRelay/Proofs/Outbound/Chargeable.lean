import QuorumRelay.Proofs.Outbound.Acceptance
import QuorumRelay.Proofs.Probe

/-!
# Fees that can be charged

A fee schedule is taken over by one step and a chain's limits by another, and a
message meets both only when it is queued.  Whether its fee can be charged then
depends on three numbers that the probe of the schedule did not see together: the
size of the payload, which the overall maximum bounds; the compute budget, which
only the limits of the chain bound; and the multiplier, which nothing bounds.

So the probe speaks for the payload alone.  It does not speak for a compute fee,
nor for a multiplier above the neutral one: `FeeSchedule.accepted_yet_blocking` has
a schedule for each of the two that is taken over and then blocks a message that
keeps its chain's limits.

What remains is as much as can be had.  Where there is no compute fee, the
unscaled fee fits; where the multiplier does not raise the fee, the scaled one fits
with it (`FeeSchedule.Accepted.fits`).  A message outside these cases is asked for
just the number that the probe left open, and one that is asked for nothing is
never blocked by its fee (`Outbox.chargeable_of_accepted`).
-/

namespace QuorumRelay

open Condition

/-! ## Schedules and chains that were accepted -/

/-- A schedule that some bridge took over. -/
def FeeSchedule.Accepted (fees : FeeSchedule) : Prop :=
  ∃ actor b b', Governance.setFeeSchedule actor fees b = .ok () b'

/-- A chain with limits that were configured.  Its windows, its pause and its highest nonce may
have changed since. -/
def Chain.Configured (c : Chain) : Prop :=
  ∃ council actor id c₀ c₁, Governance.configureChain council actor id c.limits c₀ = .ok () c₁

namespace Chain

variable {c : Chain} {size : Nat} {budget : UInt64} {u : Unit}

theorem checkLimits_eq_ok : c.checkLimits size budget = .ok u ↔
    size ≤ c.limits.maxMessageBytes.toNat ∧ budget ≤ c.limits.maxComputeBudget := by
  unfold checkLimits
  simp only [except_bind_eq_ok, require_eq_ok, exists_const]

/-- A configured chain takes no payload above the overall maximum. -/
theorem Configured.size_le (hc : c.Configured) (h : c.checkLimits size budget = .ok u) :
    size ≤ maxPayloadBytes := by
  obtain ⟨_, _, _, _, _, hconfigure⟩ := hc
  obtain ⟨-, -, hconfigure⟩ := Governance.configureChain_eq_ok hconfigure
  obtain ⟨-, hlimits, -⟩ := configure_eq_ok hconfigure
  exact Nat.le_trans (checkLimits_eq_ok.1 h).1 (Limits.check_eq_ok.1 hlimits).2.1.2

end Chain

namespace FeeSchedule

variable {fees : FeeSchedule} {multiplier : UInt32} {size : Nat} {budget : UInt64}

/-- What the budget adds to the unscaled fee. -/
def computeFee (fees : FeeSchedule) (budget : UInt64) : Nat :=
  fees.perComputeUnit.toNat * budget.toNat

theorem raw_eq_of_computeFee_eq_zero (h : fees.computeFee budget = 0) :
    fees.raw size budget = fees.raw size 0 := by
  have hzero : fees.perComputeUnit.toNat * budget.toNat = 0 := h
  rw [raw, hzero]
  rfl

/-- A multiplier that does not raise a fee keeps it within the unscaled one. -/
theorem scaled_le_raw (h : multiplier ≤ multiplierUnit) :
    fees.scaled multiplier size budget ≤ fees.raw size budget := by
  have hle : fees.scaled multiplier size budget ≤ fees.scaled multiplierUnit size budget :=
    scaled_le_scaled h (Nat.le_refl size) (UInt64.le_refl budget)
  rwa [scaled_multiplierUnit] at hle

theorem Accepted.raw_lt (h : fees.Accepted) : fees.raw maxPayloadBytes 0 < UInt64.size := by
  obtain ⟨_, _, _, hset⟩ := h
  exact (Governance.setFeeSchedule_eq_ok_iff.1 hset).2.1

/-- **What is left to ask of a fee under a schedule that was taken over**: a compute fee still has
to fit beside the rest, and a fee that the multiplier raises has to fit when it is raised. -/
theorem Accepted.fits (h : fees.Accepted) (hsize : size ≤ maxPayloadBytes)
    (hcompute : fees.computeFee budget ≠ 0 → fees.raw size budget < UInt64.size)
    (hraised : multiplierUnit < multiplier → fees.scaled multiplier size budget < UInt64.size) :
    fees.Fits multiplier size budget := by
  have hraw : fees.raw size budget < UInt64.size := by
    by_cases hzero : fees.computeFee budget = 0
    · calc fees.raw size budget = fees.raw size 0 := raw_eq_of_computeFee_eq_zero hzero
        _ ≤ fees.raw maxPayloadBytes 0 := raw_le_raw hsize (UInt64.le_refl 0)
        _ < UInt64.size := h.raw_lt
    · exact hcompute hzero
  refine ⟨hraw, ?_⟩
  by_cases hle : multiplier ≤ multiplierUnit
  · exact Nat.lt_of_le_of_lt (scaled_le_raw hle) hraw
  · exact hraised (UInt32.not_le.1 hle)

end FeeSchedule

/-! ## Messages that are charged -/

namespace Outbox

/-- What is asked of a request before its fee is estimated. -/
def conditionsBeforeFee (q : SendRequest) (now : Slot) (o : Outbox) : List Condition :=
  requires (o.chain.id = q.destinationChain) .chainMismatch ::
  o.chain.conditions q.payload.length q.computeBudget ++
  o.chain.outbound.conditions now o.bridge.epochLength o.chain.limits.rateLimit 1

/-- What is asked of a request once its fee is known. -/
def conditionsAfterFee (q : SendRequest) (o : Outbox) : List Condition :=
  requires (o.feeOf q ≤ q.maxFee) .insufficientFee ::
  o.sponsor.elim [] (fun s => s.conditions q.target (o.feeOf q)) ++
  o.bridge.conditions (o.feeOf q) q.value o.sponsor.isSome

variable {sender : Key} {q : SendRequest} {now : Slot} {o : Outbox}

/-- The estimate stands between the two. -/
theorem acceptance_eq : acceptance q now o = conditionsBeforeFee q now o ++
    requires (o.bridge.fees.Fits o.chain.limits.feeMultiplier q.payload.length q.computeBudget)
      .arithmeticOverflow :: conditionsAfterFee q o := by
  simp only [acceptance, conditionsBeforeFee, conditionsAfterFee, List.cons_append,
    List.append_assoc, List.nil_append]

/-- **A fee schedule that was taken over blocks no message that it was probed for.**  Under such a
schedule, on a configured chain, a payload and a budget within the limits have an estimate,
provided that a compute fee, if there is one, fits beside the rest, and that the fee fits when the
multiplier raises it.  A request for such a message is then judged by all its other conditions and
never by its fee's arithmetic. -/
theorem chargeable_of_accepted {fees : FeeSchedule} {c : Chain} {size : Nat} {budget : UInt64}
    (hfees : fees.Accepted) (hc : c.Configured) (hlimits : c.checkLimits size budget = .ok ())
    (hcompute : fees.computeFee budget ≠ 0 → fees.raw size budget < 2 ^ 64)
    (hraised : 10000 < c.limits.feeMultiplier →
      fees.scaled c.limits.feeMultiplier size budget < 2 ^ 64) :
    (∀ b : Bridge, b.fees = fees → ∃ fee, b.estimateFee c size budget = .ok fee) ∧
      ∀ (sender : Key) (q : SendRequest) (now : Slot) (o : Outbox),
        o.bridge.fees = fees → o.chain = c → q.payload.length = size → q.computeBudget = budget →
          Follows ((queue sender q now).result o)
            (conditionsBeforeFee q now o ++ conditionsAfterFee q o) := by
  have hfits : fees.Fits c.limits.feeMultiplier size budget :=
    hfees.fits (hc.size_le hlimits) hcompute hraised
  constructor
  · rintro b rfl
    exact FeeSchedule.exists_estimate_iff.2 hfits
  · rintro sender q now o rfl rfl rfl rfl
    have hqueue : Follows ((queue sender q now).result o) (acceptance q now o) := queue_follows
    rw [acceptance_eq] at hqueue
    exact hqueue.leaveOut hfits

end Outbox

/-- A chain that was configured just now. -/
def Chain.connected (multiplier : UInt32) (budget : UInt64) : Chain where
  id := 7
  limits := {
    confirmations := 1, maxMessageBytes := 1024, maxComputeBudget := budget
    feeMultiplier := multiplier, rateLimit := 5 }
  active := true

theorem Chain.configured_connected {multiplier : UInt32} (budget : UInt64) (h : 0 < multiplier) :
    (connected multiplier budget).Configured := by
  refine ⟨fun _ => true, .zero, 7, {}, connected multiplier budget, ?_⟩
  have hbytes : (0 : UInt32) < 1024 := by decide
  have hrate : (0 : UInt32) < 5 := by decide
  have hid : (0 : ChainId) < 7 := by decide
  have hlimits : (connected multiplier budget).limits.check = .ok () :=
    Limits.check_eq_ok.2 ⟨UInt32.le_refl 1, ⟨hbytes, Nat.le_refl maxPayloadBytes⟩, h, hrate⟩
  unfold Governance.configureChain configure
  rw [lift_bind_eq_ok]
  refine ⟨(), rfl, ?_⟩
  rw [get_bind, require_bind_eq_ok, require_bind_eq_ok, lift_bind_eq_ok]
  exact ⟨Or.inl rfl, hid, (), hlimits, rfl⟩

theorem FeeSchedule.accepted_of_raw_lt {fees : FeeSchedule}
    (h : fees.raw maxPayloadBytes 0 < UInt64.size) : fees.Accepted :=
  ⟨.zero, {}, { fees }, Governance.setFeeSchedule_eq_ok_iff.2 ⟨rfl, h, rfl⟩⟩

namespace Outbox

/-- A hundred bytes and a thousand units can be charged at one and a half times the fee. -/
theorem chargeable_of_short :
    let fees : FeeSchedule := { base := 5000, perByte := 10, perComputeUnit := 2 }
    let o : Outbox := ⟨{ fees }, .connected 15000 1000, none⟩
    let q : SendRequest := {
      destinationChain := 7, payload := .replicate 100 0, computeBudget := 1000, maxFee := 12000 }
    fees.Accepted ∧ o.chain.Configured ∧ o.chain.checkLimits 100 1000 = .ok () ∧
      fees.raw 100 1000 < 2 ^ 64 ∧ fees.scaled 15000 100 1000 < 2 ^ 64 ∧
      (∃ fee, o.bridge.estimateFee o.chain 100 1000 = .ok fee) ∧
      Follows ((queue .zero q 1).result o)
        (conditionsBeforeFee q 1 o ++ conditionsAfterFee q o) := by
  intro fees o q
  have hfees : fees.Accepted := FeeSchedule.accepted_of_raw_lt (by decide)
  have hchain : o.chain.Configured := Chain.configured_connected 1000 (by decide)
  have hlimits : o.chain.checkLimits 100 1000 = .ok () :=
    Chain.checkLimits_eq_ok.2 ⟨by decide, by decide⟩
  obtain ⟨hestimate, hqueue⟩ := chargeable_of_accepted hfees hchain hlimits
    (fun _ => by decide) (fun _ => by decide)
  exact ⟨hfees, hchain, hlimits, by decide, by decide, hestimate o.bridge rfl,
    hqueue .zero q 1 o rfl rfl (List.length_replicate ..) rfl⟩

end Outbox

/-! ## Messages that are not -/

/-- A schedule that charges for compute units alone. -/
def FeeSchedule.steep : FeeSchedule := { perComputeUnit := 9223372036854775808 }

/-- A schedule that charges for each message alike. -/
def FeeSchedule.high : FeeSchedule := { base := 9223372036854775808 }

/-- **Two schedules are taken over and then block messages that keep the limits of their chains.**
Under the first, two compute units cost 2^64 before they are halved; under the second, the fee is
2^64 once it is doubled. -/
theorem FeeSchedule.accepted_yet_blocking :
    (Governance.setFeeSchedule .zero steep {} = .ok () { fees := steep } ∧
      (Chain.connected 5000 2).Configured ∧ (Chain.connected 5000 2).checkLimits 0 2 = .ok () ∧
      Bridge.estimateFee { fees := steep } (.connected 5000 2) 0 2 =
        .error (.refused .arithmeticOverflow) ∧
      Outbox.queue .zero { destinationChain := 7, computeBudget := 2 } 1
          ⟨{ fees := steep }, .connected 5000 2, none⟩ =
        .error (.refused .arithmeticOverflow) ⟨{ fees := steep }, .connected 5000 2, none⟩) ∧
    (Governance.setFeeSchedule .zero high {} = .ok () { fees := high } ∧
      (Chain.connected 20000 0).Configured ∧ (Chain.connected 20000 0).checkLimits 0 0 = .ok () ∧
      Bridge.estimateFee { fees := high } (.connected 20000 0) 0 0 =
        .error (.refused .arithmeticOverflow) ∧
      Outbox.queue .zero { destinationChain := 7 } 1
          ⟨{ fees := high }, .connected 20000 0, none⟩ =
        .error (.refused .arithmeticOverflow) ⟨{ fees := high }, .connected 20000 0, none⟩) := by
  refine ⟨⟨?_, Chain.configured_connected 2 (by decide), ?_, ?_, ?_⟩,
    ⟨?_, Chain.configured_connected 0 (by decide), ?_, ?_, ?_⟩⟩
  · exact Governance.setFeeSchedule_eq_ok_iff.2 ⟨rfl, by decide, rfl⟩
  · rfl
  · rfl
  · rfl
  · exact Governance.setFeeSchedule_eq_ok_iff.2 ⟨rfl, by decide, rfl⟩
  · rfl
  · rfl
  · rfl

end QuorumRelay
