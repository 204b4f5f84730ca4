import QuorumRelay.Proofs.Inbound.Process
import QuorumRelay.Proofs.Membership

/-!
# The stakes and the owners of a roster

What the vault owes to relayers that leave is counted nowhere: the program adds
up the stakes of all slots each time it needs the sum.  Here the sum is a natural
number (`Roster.staked`), and each step on a roster is said to add a stake to it,
to take one out, or to leave it.  The steps change one slot at a time, so each of
these is the exchange of one summand.

The second half says the same of the owners of slots: registering is the only
step that brings a new one (`Roster.Owners`).
-/

namespace QuorumRelay
namespace Roster

variable {r r' : Roster} {i : UInt8} {n : Nat} {e : Relayer} {amount : Amount}

/-- The sum of the stakes. -/
def staked (r : Roster) : Nat := (r.relayers.map fun e => e.stake.toNat).sum

/-- What a slot adds to the sum. -/
def stakeIn : Option Relayer → Nat
  | some e => e.stake.toNat
  | none => 0

theorem stakeIn_eq (slot : Option Relayer) : stakeIn slot = slot.elim 0 fun e => e.stake.toNat := by
  cases slot <;> rfl

/-- No stake is more than all. -/
theorem Seated.stake_le (h : r.Seated n e) : e.stake.toNat ≤ r.staked :=
  le_sum_map (fun e : Relayer => e.stake.toNat) (mem_relayers.2 ⟨n, h⟩)

/-! ## Adding them up -/

theorem foldlM_plus_eq_ok {es : List Relayer} {start total : Amount} :
    es.foldlM (fun total entry => total.plus entry.stake) start = .ok total ↔
      total.toNat = start.toNat + (es.map fun e => e.stake.toNat).sum := by
  induction es generalizing start with
  | nil =>
    simp only [List.foldlM_nil, except_pure_eq_ok, List.map_nil, List.sum_nil, Nat.add_zero]
    rw [eq_comm, UInt64.toNat_inj]
  | cons e es ih =>
    simp only [List.foldlM_cons, except_bind_eq_ok, Amount.plus_eq_ok, ih, List.map_cons,
      List.sum_cons]
    constructor
    · rintro ⟨next, hnext, htotal⟩
      omega
    · intro htotal
      have hlt := total.toNat_lt_size
      obtain ⟨next, hnext⟩ := Amount.exists_plus (a := start) (b := e.stake) (by omega)
      have hnext := Amount.plus_eq_ok.1 hnext
      exact ⟨next, hnext, by omega⟩

/-- **The sum of the stakes is exact, where 64 bits hold it.** -/
theorem totalStake_eq_ok {total : Amount} : r.totalStake = .ok total ↔ total.toNat = r.staked := by
  unfold totalStake
  rw [foldlM_plus_eq_ok]
  simp [staked]

theorem exists_totalStake (h : r.staked < UInt64.size) : ∃ total, r.totalStake = .ok total :=
  ⟨UInt64.ofNat r.staked, totalStake_eq_ok.2 (UInt64.toNat_ofNat_of_lt' h)⟩

/-! ## What the steps do to the sum -/

/-- Exchanging a slot exchanges a summand. -/
theorem staked_setSlot {slot : Option Relayer} (h : r.slots[n]? = some slot)
    (slot' : Option Relayer) :
    (r.setSlot n slot').staked + stakeIn slot = r.staked + stakeIn slot' := by
  rw [stakeIn_eq, stakeIn_eq]
  exact sum_relayers_setSlot _ h slot'

/-- A relayer that joins brings its stake. -/
theorem staked_of_register {owner publicKey : Key} {stake minimumStake : Amount} {now : Slot}
    (h : register owner publicKey stake minimumStake now r = .ok i r') :
    r'.staked = r.staked + stake.toNat := by
  obtain ⟨-, -, n, seated, hplace, -, -, rfl⟩ := register_eq_ok h
  exact sum_relayers_place (fun e => e.stake.toNat) hplace

/-- A relayer that leaves takes its stake. -/
theorem staked_of_remove (h : remove i r = .ok e r') : r'.staked + e.stake.toNat = r.staked := by
  obtain ⟨hseated, -, -, rfl⟩ := remove_eq_ok h
  exact staked_setSlot hseated none

theorem staked_of_credit {u : Unit} (h : credit i amount r = .ok u r') : r'.staked = r.staked := by
  obtain ⟨e, earned, hseated, -, rfl⟩ := credit_eq_ok.1 h
  exact Nat.add_right_cancel (staked_setSlot hseated (some { e with earned }))

theorem staked_of_debitEarnings {caller : Key} {u : Unit}
    (h : debitEarnings i caller amount r = .ok u r') : r'.staked = r.staked := by
  obtain ⟨e, hseated, -, -, -, rfl⟩ := debitEarnings_eq_ok h
  exact Nat.add_right_cancel
    (staked_setSlot hseated (some { e with earned := e.earned - amount }))

theorem staked_of_setThreshold {required : UInt8} {u : Unit}
    (h : setThreshold required r = .ok u r') : r'.staked = r.staked := by
  obtain ⟨-, -, rfl⟩ := setThreshold_eq_ok h
  rfl

theorem staked_of_creditSubmitter {s : Inbound.Submission} {count : Nat} {reward : Amount}
    (h : Inbound.creditSubmitter s count r = .ok reward r') : r'.staked = r.staked := by
  rcases Inbound.creditSubmitter_eq_ok h with ⟨rfl, -⟩ | ⟨index, -, -, hcredit⟩
  · rfl
  · exact staked_of_credit hcredit

/-! ## What the steps do to the owners -/

/-- All slots are owned by keys of a kind. -/
def Owners (P : Key → Prop) (r : Roster) : Prop := ∀ n e, r.Seated n e → P e.owner

variable {P : Key → Prop}

/-- Exchanging a slot brings in the owner of the new one at most. -/
theorem Owners.setSlot {slot : Option Relayer} (h : r.Owners P)
    (hslot : ∀ e, slot = some e → P e.owner) : (r.setSlot n slot).Owners P := by
  intro m e' he'
  unfold Seated Roster.setSlot at he'
  rw [List.getElem?_set] at he'
  split at he'
  · obtain ⟨-, he'⟩ := Option.ite_none_right_eq_some.1 he'
    cases he'
    exact hslot e' rfl
  · exact h m e' he'

/-- A relayer that joins brings its owner. -/
theorem Owners.register {owner publicKey : Key} {stake minimumStake : Amount} {now : Slot}
    (h : r.Owners P) (howner : P owner)
    (hstep : register owner publicKey stake minimumStake now r = .ok i r') : r'.Owners P := by
  obtain ⟨-, -, n, seated, hplace, -, -, rfl⟩ := register_eq_ok hstep
  show seated.Owners P
  rcases place_eq_ok hplace with ⟨-, rfl⟩ | ⟨-, -, rfl⟩
  · exact h.setSlot fun e he => by cases he; exact howner
  · intro m e' he'
    rcases seated_extend he' with hold | ⟨-, rfl⟩
    · exact h m e' hold
    · exact howner

theorem Owners.remove (h : r.Owners P) (hstep : remove i r = .ok e r') : r'.Owners P := by
  obtain ⟨-, -, -, rfl⟩ := remove_eq_ok hstep
  show (r.setSlot i.toNat none).Owners P
  exact h.setSlot nofun

theorem Owners.credit {u : Unit} (h : r.Owners P) (hstep : credit i amount r = .ok u r') :
    r'.Owners P := by
  obtain ⟨e, earned, hseated, -, rfl⟩ := credit_eq_ok.1 hstep
  exact h.setSlot fun e' he' => by cases he'; exact h _ e hseated

theorem Owners.debitEarnings {caller : Key} {u : Unit} (h : r.Owners P)
    (hstep : debitEarnings i caller amount r = .ok u r') : r'.Owners P := by
  obtain ⟨e, hseated, -, -, -, rfl⟩ := debitEarnings_eq_ok hstep
  exact h.setSlot fun e' he' => by cases he'; exact h _ e hseated

theorem Owners.setThreshold {required : UInt8} {u : Unit} (h : r.Owners P)
    (hstep : setThreshold required r = .ok u r') : r'.Owners P := by
  obtain ⟨-, -, rfl⟩ := setThreshold_eq_ok hstep
  exact h

theorem Owners.creditSubmitter {s : Inbound.Submission} {count : Nat} {reward : Amount}
    (h : r.Owners P) (hstep : Inbound.creditSubmitter s count r = .ok reward r') :
    r'.Owners P := by
  rcases Inbound.creditSubmitter_eq_ok hstep with ⟨rfl, -⟩ | ⟨index, -, -, hcredit⟩
  · exact h
  · exact h.credit hcredit

end Roster
end QuorumRelay
