import Mathlib.Logic.Relation
import QuorumRelay.Membership
import QuorumRelay.Proofs.Bridge
import QuorumRelay.Proofs.Roster

/-!
# Rosters that the program builds

Joining, leaving, being paid and choosing the threshold are the steps that write
to a roster, next to the credit that a delivery brings.  A roster is *reachable*
if any number of these steps built it from the empty one.  Nothing is assumed of
the steps: each may be asked for by anyone, next to any bridge record, and one
that fails leaves behind what it wrote.

## The two records of one step

Leaving and claiming write to the roster first and to the bridge record after it.
Each is opened here into its two halves, so that what is known of one record is
used without looking at the other.
-/

namespace QuorumRelay

/-- Two bridge records that differ at most in what was paid out of the pool. -/
def Bridge.PaidFrom (b b' : Bridge) : Prop :=
  b' = { b with pool := b'.pool, compensationClaimed := b'.compensationClaimed }

theorem Bridge.PaidFrom.lockedValue {b b' : Bridge} (h : b.PaidFrom b') :
    b'.lockedValue = b.lockedValue := by
  rw [PaidFrom] at h
  rw [h]

namespace Membership

variable {m m' : Membership} {b b' : Bridge} {r r' : Roster} {i : UInt8} {e : Relayer}
  {d : Departure} {f : Fault} {u : Unit} {caller actor : Key} {amount : Amount}

/-! ## Each step in its halves -/

@[simp] theorem council_check_eq_ok {c : Council} : c.check actor = .ok u ↔ c actor = true := by
  unfold Council.check
  exact require_eq_ok

/-- A relayer that leaves is owed its stake and what the pool covers of its earnings. -/
theorem settle_eq_ok (h : settle i e b = .ok d b') :
    d.index = i ∧ d.entry = e ∧ Bridge.payCompensation (min e.earned b.pool) b = .ok () b' ∧
      d.payout.toNat = e.stake.toNat + (min e.earned b.pool).toNat := by
  unfold settle at h
  simp only [get_bind, bind_eq_ok (x := Bridge.payCompensation _), lift_bind_eq_ok,
    Amount.plus_eq_ok, pure_eq_ok] at h
  obtain ⟨_, b₁, hpay, payout, hpayout, rfl, rfl⟩ := h
  exact ⟨rfl, rfl, hpay, hpayout⟩

theorem settle_paidFrom (b : Bridge) (i : UInt8) (e : Relayer) :
    b.PaidFrom ((settle i e).after b) := by
  refine Action.after_induct (fun d b' h => ?_) fun f b' h => ?_
  · exact (Bridge.payCompensation_eq_ok (settle_eq_ok h).2.2.1).2
  · unfold settle at h
    simp only [get_bind, bind_eq_error (x := Bridge.payCompensation _), lift_bind_eq_error,
      pure_ne_error, and_false, exists_false, or_false] at h
    rcases h with hpay | ⟨_, b₁, hpay, -, rfl⟩
    · rw [Bridge.PaidFrom, Bridge.payCompensation_eq_error hpay]
    · exact (Bridge.payCompensation_eq_ok hpay).2

theorem unregister_eq_ok (h : unregister i caller m = .ok d m') :
    ∃ e, Roster.unregister i caller m.roster = .ok e m'.roster ∧
      settle i e m.bridge = .ok d m'.bridge := by
  unfold unregister onRoster onBridge at h
  simp only [bind_eq_ok, Action.on_eq_ok] at h
  obtain ⟨e, -, ⟨r, hleave, rfl⟩, b, hsettle, rfl⟩ := h
  exact ⟨e, hleave, hsettle⟩

theorem remove_eq_ok (h : remove actor i m = .ok d m') :
    m.bridge.council actor = true ∧ ∃ e, Roster.remove i m.roster = .ok e m'.roster ∧
      settle i e m.bridge = .ok d m'.bridge := by
  unfold remove onRoster onBridge at h
  simp only [get_bind, lift_bind_eq_ok, council_check_eq_ok, bind_eq_ok (x := Action.on _ _ _),
    Action.on_eq_ok] at h
  obtain ⟨-, hcouncil, e, -, ⟨r, hleave, rfl⟩, b, hsettle, rfl⟩ := h
  exact ⟨hcouncil, e, hleave, hsettle⟩

theorem claim_eq_ok (h : claim i caller amount m = .ok u m') :
    amount ≤ m.bridge.pool ∧ Roster.debitEarnings i caller amount m.roster = .ok () m'.roster ∧
      Bridge.payCompensation amount m.bridge = .ok () m'.bridge := by
  unfold claim onRoster onBridge at h
  simp only [get_bind, require_bind_eq_ok, bind_eq_ok (x := Action.on _ _ _),
    Action.on_eq_ok] at h
  obtain ⟨hle, _, _, ⟨r, hdebit, rfl⟩, b, hpay, rfl⟩ := h
  exact ⟨hle, hdebit, hpay⟩

theorem register_eq_ok {council : Council} {minimumStake stake : Amount} {owner publicKey : Key}
    {now : Slot}
    (h : register council actor minimumStake owner publicKey stake now r = .ok i r') :
    council actor = true ∧ Roster.register owner publicKey stake minimumStake now r = .ok i r' := by
  unfold register at h
  simp only [lift_bind_eq_ok, council_check_eq_ok] at h
  obtain ⟨-, hcouncil, h⟩ := h
  exact ⟨hcouncil, h⟩

theorem updateThreshold_eq_ok {council : Council} {required : UInt8}
    (h : updateThreshold council actor required r = .ok u r') :
    council actor = true ∧ Roster.setThreshold required r = .ok u r' := by
  unfold updateThreshold at h
  simp only [lift_bind_eq_ok, council_check_eq_ok] at h
  obtain ⟨-, hcouncil, h⟩ := h
  exact ⟨hcouncil, h⟩

/-! ## What is left behind in any case -/

/-- What a step on both records leaves behind: one slot changed and the pool paid. -/
structure Touched (m m' : Membership) : Prop where
  slots : Roster.Change m.roster m'.roster.slots
  books : m.bridge.PaidFrom m'.bridge

/-- Leaving, once the roster has let the relayer go, ends with a changed slot and a paid pool. -/
theorem Touched.of_settle {i : UInt8} {e : Relayer} {f : Fault}
    (hslots : Roster.Change m.roster r.slots)
    (h : (onBridge (settle i e)) { m with roster := r } = .error f m') : Touched m m' := by
  obtain ⟨b, hsettle, rfl⟩ := Action.on_eq_error.1 h
  exact ⟨hslots, Action.after_of_error hsettle ▸ settle_paidFrom m.bridge i e⟩

theorem unregister_touched (m : Membership) (i : UInt8) (caller : Key) :
    Touched m ((unregister i caller).after m) := by
  refine Action.after_induct (fun d m' h => ?_) fun f m' h => ?_
  · obtain ⟨e, hleave, hsettle⟩ := unregister_eq_ok h
    exact ⟨.of_remove (Roster.unregister_eq_ok hleave).2,
      Action.after_of_ok hsettle ▸ settle_paidFrom m.bridge i e⟩
  · unfold unregister onRoster at h
    simp only [bind_eq_error (x := Action.on _ _ _), Action.on_eq_ok, Action.on_eq_error] at h
    rcases h with ⟨r, hleave, rfl⟩ | ⟨e, -, ⟨r, hleave, rfl⟩, h⟩
    · obtain rfl := Roster.unregister_eq_error hleave
      exact ⟨.keep, rfl⟩
    · exact .of_settle (.of_remove (Roster.unregister_eq_ok hleave).2) h

theorem remove_touched (m : Membership) (actor : Key) (i : UInt8) :
    Touched m ((remove actor i).after m) := by
  refine Action.after_induct (fun d m' h => ?_) fun f m' h => ?_
  · obtain ⟨-, e, hleave, hsettle⟩ := remove_eq_ok h
    exact ⟨.of_remove hleave, Action.after_of_ok hsettle ▸ settle_paidFrom m.bridge i e⟩
  · unfold remove onRoster at h
    simp only [get_bind, lift_bind_eq_error, bind_eq_error (x := Action.on _ _ _),
      Action.on_eq_ok, Action.on_eq_error] at h
    rcases h with ⟨-, rfl⟩ | ⟨-, -, ⟨r, hleave, rfl⟩ | ⟨e, -, ⟨r, hleave, rfl⟩, h⟩⟩
    · exact ⟨.keep, rfl⟩
    · obtain rfl := Roster.remove_eq_error hleave
      exact ⟨.keep, rfl⟩
    · exact .of_settle (.of_remove hleave) h

theorem claim_touched (m : Membership) (i : UInt8) (caller : Key) (amount : Amount) :
    Touched m ((claim i caller amount).after m) := by
  refine Action.after_induct (fun _ m' h => ?_) fun f m' h => ?_
  · obtain ⟨-, hdebit, hpay⟩ := claim_eq_ok h
    exact ⟨.of_debitEarnings hdebit, (Bridge.payCompensation_eq_ok hpay).2⟩
  · unfold claim onRoster onBridge at h
    simp only [get_bind, require_bind_eq_error, bind_eq_error (x := Action.on _ _ _),
      Action.on_eq_ok, Action.on_eq_error] at h
    rcases h with ⟨-, -, rfl⟩ | ⟨-, ⟨r, hdebit, rfl⟩ | ⟨_, _, ⟨r, hdebit, rfl⟩, b, hpay, rfl⟩⟩
    · exact ⟨.keep, rfl⟩
    · obtain rfl := Roster.debitEarnings_eq_error hdebit
      exact ⟨.keep, rfl⟩
    · refine ⟨.of_debitEarnings hdebit, ?_⟩
      show m.bridge.PaidFrom b
      rw [Bridge.PaidFrom, Bridge.payCompensation_eq_error hpay]

end Membership

/-! ## Reachable rosters -/

namespace Roster

/-- One step on a roster, asked for by anyone next to any bridge record, and what it left. -/
inductive Step (r : Roster) : Roster → Prop
  | register (council : Council) (actor : Key) (minimumStake : Amount) (owner publicKey : Key)
      (stake : Amount) (now : Slot) :
      Step r ((Membership.register council actor minimumStake owner publicKey stake now).after r)
  | unregister (b : Bridge) (index : UInt8) (caller : Key) :
      Step r ((Membership.unregister index caller).after ⟨b, r⟩).roster
  | remove (b : Bridge) (actor : Key) (index : UInt8) :
      Step r ((Membership.remove actor index).after ⟨b, r⟩).roster
  | updateThreshold (council : Council) (actor : Key) (required : UInt8) :
      Step r ((Membership.updateThreshold council actor required).after r)
  | credit (index : UInt8) (amount : Amount) : Step r ((Roster.credit index amount).after r)
  | claim (b : Bridge) (index : UInt8) (caller : Key) (amount : Amount) :
      Step r ((Membership.claim index caller amount).after ⟨b, r⟩).roster

/-- Rosters that steps build from the empty one. -/
def Reachable (r : Roster) : Prop := Relation.ReflTransGen Step {} r

/-- **Every step changes at most one slot**, whether it gives a result or fails. -/
theorem Step.change {r r' : Roster} (h : Step r r') : Change r r'.slots := by
  cases h with
  | register council actor minimumStake owner publicKey stake now =>
    refine Action.after_induct (P := fun t : Roster => Change r t.slots)
      (fun i r' h => ?_) fun f r' h => ?_
    · exact .of_register_ok (Membership.register_eq_ok h).2
    · unfold Membership.register at h
      rcases lift_bind_eq_error.1 h with ⟨-, rfl⟩ | ⟨-, -, h⟩
      · exact .keep
      · exact .of_register_error h
  | unregister b i caller => exact (Membership.unregister_touched ⟨b, r⟩ i caller).slots
  | remove b actor i => exact (Membership.remove_touched ⟨b, r⟩ actor i).slots
  | updateThreshold council actor required =>
    refine Action.after_induct (P := fun t : Roster => Change r t.slots)
      (fun _ r' h => ?_) fun f r' h => ?_
    · obtain ⟨-, -, rfl⟩ := setThreshold_eq_ok (Membership.updateThreshold_eq_ok h).2
      exact .keep
    · unfold Membership.updateThreshold at h
      rcases lift_bind_eq_error.1 h with ⟨-, rfl⟩ | ⟨-, -, h⟩
      · exact .keep
      · obtain rfl := setThreshold_eq_error h
        exact .keep
  | credit i amount =>
    refine Action.after_induct (P := fun t : Roster => Change r t.slots)
      (fun _ r' h => .of_credit h) fun f r' h => ?_
    obtain rfl := credit_eq_error h
    exact .keep
  | claim b i caller amount => exact (Membership.claim_touched ⟨b, r⟩ i caller amount).slots

/-- **In a reachable roster no two slots have one key.** -/
theorem keysDistinct_of_reachable {r : Roster} (h : Reachable r) : KeysDistinct r.slots := by
  induction h with
  | refl =>
    intro i j e e' hi
    simp at hi
  | tail _ hstep ih => exact hstep.change.keysDistinct ih

end Roster

end QuorumRelay
