import QuorumRelay.Chain
import QuorumRelay.Proofs.Step

/-!
# Admitting messages together and one by one

A rate window takes any number of messages at once.  Within one slot it does not
matter how they are bundled: admitting some messages and then some more is
admitting them all (`RateWindow.accept_add`).  Where the window has run out, the
first bundle starts a new one and the second finds it in force.  For that an
epoch has to be longer than nothing, and there has to be a later slot: at the
very last slot every window has run out, also the one that starts there.
-/

namespace QuorumRelay

/-- Before the very last slot, the slot some slots later is the exact one. -/
theorem Slot.later_le_iff (start count : Slot) {now : Slot} (hnow : now.toNat + 1 < UInt64.size) :
    start.later count ≤ now ↔ start.toNat + count.toNat ≤ now.toNat := by
  have hlater : (start.later count).toNat =
      min (start.toNat + count.toNat) (UInt64.size - 1) :=
    UInt64.toNat_ofNat_of_lt' (by omega)
  rw [UInt64.le_iff_toNat_le, hlater]
  omega

namespace RateWindow

variable {w w' w'' : RateWindow} {now epochLength : Slot} {limit a b count : UInt32}

/-- Messages are admitted if the limit has room for them in the window in force, and are added
to its count. -/
theorem accept_eq_ok : w.accept now epochLength limit count = .ok w' ↔
    w'.start = (w.current now epochLength).start ∧
      w'.count.toNat = (w.current now epochLength).count.toNat + count.toNat ∧
      w'.count.toNat ≤ limit.toNat := by
  unfold accept
  simp only [except_bind_eq_ok, require_eq_ok, except_pure_eq_ok]
  constructor
  · rintro ⟨_, hlt, _, hle, rfl⟩
    have hcount := UInt32.toNat_ofNat_of_lt' hlt
    exact ⟨rfl, hcount, Nat.le_trans (Nat.le_of_eq hcount) hle⟩
  · rintro ⟨hstart, hcount, hle⟩
    refine ⟨(), hcount ▸ w'.count.toNat_lt, (), hcount ▸ hle, ?_⟩
    rw [← hcount, ← hstart, UInt32.ofNat_toNat]

/-- The window in force has not run out. -/
theorem not_later_start_current (hepoch : 0 < epochLength) (hnow : now.toNat + 1 < UInt64.size) :
    ¬ (w.current now epochLength).start.later epochLength ≤ now := by
  unfold current
  split
  · have hpos : 0 < epochLength.toNat := UInt64.lt_iff_toNat_lt.1 hepoch
    rw [Slot.later_le_iff _ _ hnow]
    exact Nat.not_le.2 (Nat.lt_add_of_pos_right hpos)
  · assumption

/-- A window that starts with the one in force is in force. -/
theorem current_of_start (hepoch : 0 < epochLength) (hnow : now.toNat + 1 < UInt64.size)
    (h : w'.start = (w.current now epochLength).start) : w'.current now epochLength = w' := by
  have hruns := not_later_start_current (w := w) hepoch hnow
  rw [← h] at hruns
  exact if_neg hruns

/-- **Admitting messages in two bundles is admitting them at once.** -/
theorem accept_add (hepoch : 0 < epochLength) (hnow : now.toNat + 1 < UInt64.size)
    (hab : a.toNat + b.toNat < UInt32.size) :
    w.accept now epochLength limit (a + b) = .ok w'' ↔
      ∃ w', w.accept now epochLength limit a = .ok w' ∧
        w'.accept now epochLength limit b = .ok w'' := by
  have hsum : (a + b).toNat = a.toNat + b.toNat := by
    rw [UInt32.toNat_add]
    exact Nat.mod_eq_of_lt hab
  simp only [accept_eq_ok, hsum]
  have hlimit := limit.toNat_lt
  constructor
  · rintro ⟨hstart, hcount, hle⟩
    obtain ⟨first, hfirst⟩ : ∃ first : UInt32,
        first.toNat = (w.current now epochLength).count.toNat + a.toNat :=
      ⟨_, UInt32.toNat_ofNat_of_lt' (by show _ < 2 ^ 32; omega)⟩
    refine ⟨⟨w''.start, first⟩, ⟨hstart, hfirst, by show first.toNat ≤ _; omega⟩, ?_⟩
    have hcurrent : (⟨w''.start, first⟩ : RateWindow).current now epochLength =
        ⟨w''.start, first⟩ := current_of_start hepoch hnow hstart
    rw [hcurrent]
    exact ⟨rfl, by show _ = first.toNat + _; omega, hle⟩
  · rintro ⟨w', ⟨hstart', hcount', -⟩, hstart, hcount, hle⟩
    rw [current_of_start hepoch hnow hstart'] at hstart hcount
    exact ⟨hstart.trans hstart', by omega, hle⟩

end RateWindow
end QuorumRelay
