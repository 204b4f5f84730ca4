import QuorumRelay.Proofs.Step
import QuorumRelay.Roster

/-!
# What can happen to a roster

Every step that writes to the roster touches a single slot: a relayer sits down
in it, leaves it, or has its earnings changed.  This file opens each step once
and says what it found and what it wrote; `Roster.Change` then lists the ways in
which a slot can change, whether the step gave a result or not.

A step that fails may have written before it failed.  Registering does: it seats
the relayer before it finds that the count of active relayers is at its end
(`register_eq_error`).  All others fail with the roster as it was.

## No two slots under one key

A quorum counts slots, and what is wanted of it is that it counts keys.  The two
agree because `Roster.register` refuses a key that some slot has already.  A slot
that was left does not bring its old key back: it is overwritten when it is used
again.  So no change lets two slots have one key (`Change.keysDistinct`).
-/

namespace QuorumRelay

namespace Roster

variable {r r' : Roster} {i : UInt8} {n : Nat} {e : Relayer} {f : Fault}

/-! ## Looking at slots -/

/-- A relayer sits in a slot. -/
def Seated (r : Roster) (n : Nat) (e : Relayer) : Prop := r.slots[n]? = some (some e)

theorem relayer?_eq_some : r.relayer? i = some e ↔ r.Seated i.toNat e := by
  unfold relayer? Seated
  cases h : r.slots[i.toNat]? with
  | none => simp
  | some slot => cases slot <;> simp

@[simp] theorem relayer_eq_ok : r.relayer i = .ok e ↔ r.Seated i.toNat e := by
  rw [← relayer?_eq_some]
  unfold relayer
  cases r.relayer? i <;> simp

/-- The relayers are those who sit in some slot. -/
theorem mem_relayers : e ∈ r.relayers ↔ ∃ n, r.Seated n e := by
  unfold relayers Seated
  rw [List.mem_filterMap]
  constructor
  · rintro ⟨slot, hmem, rfl⟩
    exact List.mem_iff_getElem?.1 hmem
  · rintro ⟨n, h⟩
    exact ⟨some e, List.mem_of_getElem? h, rfl⟩

/-- A sum over the relayers may be taken over all slots. -/
theorem sum_relayers_eq (g : Relayer → Nat) (r : Roster) :
    (r.relayers.map g).sum = (r.slots.map fun slot => slot.elim 0 g).sum := by
  unfold relayers
  induction r.slots with
  | nil => rfl
  | cons slot slots ih =>
    cases slot with
    | none => simpa using ih
    | some e => simpa using ih

/-- Exchanging a slot exchanges a summand. -/
theorem sum_relayers_setSlot (g : Relayer → Nat) {slot : Option Relayer}
    (h : r.slots[n]? = some slot) (slot' : Option Relayer) :
    ((r.setSlot n slot').relayers.map g).sum + slot.elim 0 g =
      (r.relayers.map g).sum + slot'.elim 0 g := by
  rw [sum_relayers_eq, sum_relayers_eq]
  exact sum_map_set (fun slot : Option Relayer => slot.elim 0 g) h

/-! ## The steps one by one -/

/-- A relayer is put into a free slot or into a new one. -/
theorem place_eq_ok (h : place e r = .ok n r') :
    (r.slots[n]? = some none ∧ r' = r.setSlot n (some e)) ∨
      (n = r.slots.length ∧ r.slots.length < maxRelayers ∧
        r' = { r with slots := r.slots ++ [some e] }) := by
  unfold place at h
  rw [get_bind] at h
  cases hfree : r.slots.findIdx? Option.isNone with
  | some free =>
    simp only [hfree, set_bind, pure_eq_ok] at h
    obtain ⟨rfl, rfl⟩ := h
    obtain ⟨hlt, hnone, -⟩ := List.findIdx?_eq_some_iff_getElem.1 hfree
    refine Or.inl ⟨?_, rfl⟩
    rw [List.getElem?_eq_getElem hlt, Option.isNone_iff_eq_none.1 hnone]
  | none =>
    simp only [hfree, require_bind_eq_ok, set_bind, pure_eq_ok] at h
    obtain ⟨hlt, rfl, rfl⟩ := h
    exact Or.inr ⟨rfl, hlt, rfl⟩

theorem place_eq_error (h : place e r = .error f r') : r' = r := by
  unfold place at h
  rw [get_bind] at h
  cases hfree : r.slots.findIdx? Option.isNone with
  | some free => simp only [hfree, set_bind, pure_ne_error] at h
  | none =>
    simp only [hfree, require_bind_eq_error, set_bind, pure_ne_error, and_false, or_false] at h
    exact h.2.2.symm

/-- A relayer that sits down adds its part to a sum. -/
theorem sum_relayers_place (g : Relayer → Nat) (h : place e r = .ok n r') :
    (r'.relayers.map g).sum = (r.relayers.map g).sum + g e := by
  rcases place_eq_ok h with ⟨hfree, rfl⟩ | ⟨-, -, rfl⟩
  · exact sum_relayers_setSlot g hfree (some e)
  · rw [sum_relayers_eq, sum_relayers_eq, List.map_append, List.sum_append]
    simp

/-- The ways in which a step changes the slots: none, or one slot. -/
inductive Change (r : Roster) : List (Option Relayer) → Prop
  | keep : Change r r.slots
  /-- A relayer under a new key sits down in an empty slot. -/
  | reuse (n : Nat) (e : Relayer) (free : r.slots[n]? = some none)
      (newKey : ∀ other ∈ r.relayers, other.publicKey ≠ e.publicKey) :
      Change r (r.slots.set n (some e))
  /-- A relayer under a new key gets a new slot. -/
  | extend (e : Relayer) (room : r.slots.length < maxRelayers)
      (newKey : ∀ other ∈ r.relayers, other.publicKey ≠ e.publicKey) :
      Change r (r.slots ++ [some e])
  | vacate (n : Nat) (e : Relayer) (seated : r.Seated n e) : Change r (r.slots.set n none)
  | reearn (n : Nat) (e : Relayer) (earned : Amount) (seated : r.Seated n e) :
      Change r (r.slots.set n (some { e with earned }))

/-- Seating a relayer under a new key is a change of one slot. -/
theorem Change.of_place (hnew : ∀ other ∈ r.relayers, other.publicKey ≠ e.publicKey)
    (h : place e r = .ok n r') : Change r r'.slots := by
  rcases place_eq_ok h with ⟨hfree, rfl⟩ | ⟨-, hroom, rfl⟩
  · exact .reuse n e hfree hnew
  · exact .extend e hroom hnew

variable {owner publicKey : Key} {stake minimumStake amount : Amount} {now : Slot}

/-- Registering seats a relayer with enough stake under a key of its own. -/
theorem register_eq_ok (h : register owner publicKey stake minimumStake now r = .ok i r') :
    minimumStake ≤ stake ∧ (∀ other ∈ r.relayers, other.publicKey ≠ publicKey) ∧
      ∃ n seated, place { owner, publicKey, stake, registeredAt := now } r = .ok n seated ∧
        i = UInt8.ofNat n ∧ seated.active ≠ 255 ∧
        r' = { seated with
          active := seated.active + 1
          required := if seated.required = 0 then 1 else seated.required } := by
  unfold register at h
  simp only [get_bind, require_bind_eq_ok, bind_eq_ok (x := place _)] at h
  obtain ⟨hmin, hnew, n, seated, hplace, h⟩ := h
  by_cases hfull : seated.active = 255
  · simp only [hfull, if_true, throw_bind, reduceCtorEq] at h
  · simp only [hfull, if_false, set_bind, pure_eq_ok] at h
    obtain ⟨rfl, rfl⟩ := h
    refine ⟨hmin, ?_, n, seated, hplace, rfl, hfull, rfl⟩
    intro other hother heq
    exact hnew (List.any_eq_true.2 ⟨other, hother, by simpa using heq⟩)

/-- Where registering fails, the roster is as it was, or the relayer is seated all the same. -/
theorem register_eq_error
    (h : register owner publicKey stake minimumStake now r = .error f r') :
    r' = r ∨ (∀ other ∈ r.relayers, other.publicKey ≠ publicKey) ∧
      ∃ n, place { owner, publicKey, stake, registeredAt := now } r = .ok n r' := by
  unfold register at h
  simp only [get_bind, require_bind_eq_error, bind_eq_error (x := place _)] at h
  rcases h with ⟨-, -, rfl⟩ | ⟨-, ⟨-, -, rfl⟩ | ⟨hnew, hplace | ⟨n, seated, hplace, h⟩⟩⟩
  · exact Or.inl rfl
  · exact Or.inl rfl
  · exact Or.inl (place_eq_error hplace)
  · have hr' : r' = seated := by
      by_cases hfull : seated.active = 255
      · simp only [hfull, if_true, throw_bind, EStateM.Result.error.injEq] at h
        exact h.2.symm
      · simp only [hfull, if_false, set_bind, pure_ne_error] at h
    subst hr'
    refine Or.inr ⟨fun other hother heq => hnew ?_, n, hplace⟩
    exact List.any_eq_true.2 ⟨other, hother, by simpa using heq⟩

/-- Removing empties an occupied slot, if enough relayers remain. -/
theorem remove_eq_ok (h : remove i r = .ok e r') :
    r.Seated i.toNat e ∧ r.active ≠ 0 ∧ r.required ≤ r.active - 1 ∧
      r' = { r.setSlot i.toNat none with active := r.active - 1 } := by
  unfold remove at h
  simp only [get_bind, lift_bind_eq_ok, relayer_eq_ok] at h
  obtain ⟨e', hseated, h⟩ := h
  by_cases hzero : r.active = 0
  · simp only [hzero, if_true, throw_bind, reduceCtorEq] at h
  · simp only [hzero, if_false, require_bind_eq_ok, set_bind, pure_eq_ok] at h
    obtain ⟨henough, rfl, rfl⟩ := h
    exact ⟨hseated, hzero, henough, rfl⟩

theorem remove_eq_error (h : remove i r = .error f r') : r' = r := by
  unfold remove at h
  simp only [get_bind, lift_bind_eq_error] at h
  rcases h with ⟨-, rfl⟩ | ⟨e, -, h⟩
  · rfl
  by_cases hzero : r.active = 0
  · simp only [hzero, if_true, throw_bind, EStateM.Result.error.injEq] at h
    exact h.2.symm
  · simp only [hzero, if_false, require_bind_eq_error, set_bind, pure_ne_error, and_false,
      or_false] at h
    exact h.2.2.symm

@[simp] theorem checkOwner_eq_ok {caller : Key} {u : Unit} :
    r.checkOwner i caller = .ok u ↔ ∃ e, r.Seated i.toNat e ∧ e.owner = caller := by
  unfold checkOwner
  simp only [except_bind_eq_ok, relayer_eq_ok, require_eq_ok]

theorem Seated.unique {e' : Relayer} (h : r.Seated n e) (h' : r.Seated n e') : e' = e := by
  have hsame := h'.symm.trans h
  simpa using hsame

/-- A relayer leaves on its own word only. -/
theorem unregister_eq_ok {caller : Key} (h : unregister i caller r = .ok e r') :
    e.owner = caller ∧ remove i r = .ok e r' := by
  unfold unregister at h
  simp only [get_bind, lift_bind_eq_ok, checkOwner_eq_ok] at h
  obtain ⟨-, ⟨e', hseated, howner⟩, h⟩ := h
  exact ⟨hseated.unique (remove_eq_ok h).1 ▸ howner, h⟩

theorem unregister_eq_error {caller : Key} (h : unregister i caller r = .error f r') :
    r' = r := by
  unfold unregister at h
  simp only [get_bind, lift_bind_eq_error] at h
  rcases h with ⟨-, rfl⟩ | ⟨-, -, h⟩
  · rfl
  · exact remove_eq_error h

theorem setThreshold_eq_ok {required : UInt8} {u : Unit}
    (h : setThreshold required r = .ok u r') :
    1 ≤ required ∧ required ≤ r.active ∧ r' = { r with required } := by
  unfold setThreshold at h
  simp only [get_bind, require_bind_eq_ok, set_eq_ok] at h
  obtain ⟨hpos, hle, rfl⟩ := h
  exact ⟨hpos, hle, rfl⟩

theorem setThreshold_eq_error {required : UInt8} (h : setThreshold required r = .error f r') :
    r' = r := by
  unfold setThreshold at h
  simp only [get_bind, require_bind_eq_error, set_ne_error, and_false, or_false] at h
  rcases h with ⟨-, -, rfl⟩ | ⟨-, -, -, rfl⟩ <;> rfl

/-- An amount is added to the earnings in a slot. -/
def Pays (i : UInt8) (amount : Nat) (r r' : Roster) : Prop :=
  ∃ e earned, r.Seated i.toNat e ∧ earned.toNat = e.earned.toNat + amount ∧
    r' = r.setSlot i.toNat (some { e with earned })

/-- A credit goes to the earnings of a seated relayer. -/
theorem credit_eq_ok {u : Unit} : credit i amount r = .ok u r' ↔ Pays i amount.toNat r r' := by
  unfold credit Pays
  simp only [get_bind, lift_bind_eq_ok, relayer_eq_ok, set_eq_ok, Amount.plus_eq_ok]
  constructor
  · rintro ⟨e, hseated, earned, hearned, rfl⟩
    exact ⟨e, earned, hseated, hearned, rfl⟩
  · rintro ⟨e, earned, hseated, hearned, rfl⟩
    exact ⟨e, hseated, earned, hearned, rfl⟩

theorem credit_eq_error (h : credit i amount r = .error f r') : r' = r := by
  unfold credit at h
  simp only [get_bind, lift_bind_eq_error, set_ne_error, and_false, exists_false, or_false] at h
  rcases h with ⟨-, rfl⟩ | ⟨e, -, -, rfl⟩ <;> rfl

/-- A claim comes out of the earnings of the caller. -/
theorem debitEarnings_eq_ok {caller : Key} {u : Unit}
    (h : debitEarnings i caller amount r = .ok u r') :
    ∃ e, r.Seated i.toNat e ∧ e.owner = caller ∧ 0 < amount ∧ amount ≤ e.earned ∧
      r' = r.setSlot i.toNat (some { e with earned := e.earned - amount }) := by
  unfold debitEarnings at h
  simp only [get_bind, require_bind_eq_ok, lift_bind_eq_ok, relayer_eq_ok, checkOwner_eq_ok,
    set_eq_ok] at h
  obtain ⟨hpos, -, ⟨e', hseated', howner⟩, e, hseated, hle, rfl⟩ := h
  exact ⟨e, hseated, hseated.unique hseated' ▸ howner, hpos, hle, rfl⟩

theorem debitEarnings_eq_error {caller : Key} (h : debitEarnings i caller amount r = .error f r') :
    r' = r := by
  unfold debitEarnings at h
  simp only [get_bind, require_bind_eq_error, lift_bind_eq_error, set_ne_error, and_false,
    or_false] at h
  rcases h with ⟨-, -, rfl⟩ | ⟨-, ⟨-, rfl⟩ | ⟨-, -, ⟨-, rfl⟩ | ⟨e, -, -, -, rfl⟩⟩⟩ <;> rfl

/-! ## The steps as changes of a slot -/

theorem Change.of_register_ok (h : register owner publicKey stake minimumStake now r = .ok i r') :
    Change r r'.slots := by
  obtain ⟨-, hnew, n, seated, hplace, -, -, rfl⟩ := register_eq_ok h
  show Change r seated.slots
  exact .of_place hnew hplace

theorem Change.of_register_error
    (h : register owner publicKey stake minimumStake now r = .error f r') :
    Change r r'.slots := by
  rcases register_eq_error h with rfl | ⟨hnew, n, hplace⟩
  · exact .keep
  · exact .of_place hnew hplace

theorem Change.of_remove (h : remove i r = .ok e r') : Change r r'.slots := by
  obtain ⟨hseated, -, -, rfl⟩ := remove_eq_ok h
  exact .vacate i.toNat e hseated

theorem Change.of_credit {u : Unit} (h : credit i amount r = .ok u r') : Change r r'.slots := by
  obtain ⟨e, earned, hseated, -, rfl⟩ := credit_eq_ok.1 h
  exact .reearn i.toNat e earned hseated

theorem Change.of_debitEarnings {caller : Key} {u : Unit}
    (h : debitEarnings i caller amount r = .ok u r') : Change r r'.slots := by
  obtain ⟨e, hseated, -, -, -, rfl⟩ := debitEarnings_eq_ok h
  exact .reearn i.toNat e _ hseated

/-! ## What every change keeps -/

/-- No two slots have one key. -/
def KeysDistinct (slots : List (Option Relayer)) : Prop :=
  ∀ (i j : Nat) (e e' : Relayer), slots[i]? = some (some e) → slots[j]? = some (some e') →
    e.publicKey = e'.publicKey → i = j

/-- Putting a relayer under a key that no other slot has keeps the keys apart. -/
theorem KeysDistinct.set {slots : List (Option Relayer)} (h : KeysDistinct slots)
    (hnew : ∀ m e', m ≠ n → slots[m]? = some (some e') → e'.publicKey ≠ e.publicKey) :
    KeysDistinct (slots.set n (some e)) := by
  intro i j e₁ e₂ hi hj hkey
  rw [List.getElem?_set] at hi hj
  split at hi <;> split at hj
  · omega
  · rename_i hni hnj
    obtain ⟨-, hi⟩ := Option.ite_none_right_eq_some.1 hi
    cases hi
    exact absurd hkey.symm (hnew j e₂ (Ne.symm hnj) hj)
  · rename_i hni hnj
    obtain ⟨-, hj⟩ := Option.ite_none_right_eq_some.1 hj
    cases hj
    exact absurd hkey (hnew i e₁ (Ne.symm hni) hi)
  · exact h i j e₁ e₂ hi hj hkey

/-- Who sits in a roster with one more slot sat there before or sits in that slot. -/
theorem seated_extend {slots : List (Option Relayer)} {e' : Relayer}
    (h : (slots ++ [some e])[n]? = some (some e')) :
    slots[n]? = some (some e') ∨ n = slots.length ∧ e' = e := by
  rcases Nat.lt_or_ge n slots.length with hn | hn
  · rw [List.getElem?_append_left hn] at h
    exact Or.inl h
  · rw [List.getElem?_append_right hn, List.getElem?_singleton, Option.ite_none_right_eq_some] at h
    obtain ⟨hzero, he⟩ := h
    cases he
    exact Or.inr ⟨by omega, rfl⟩

/-- **The keys of occupied slots stay different**, whatever happens to a slot. -/
theorem Change.keysDistinct {slots : List (Option Relayer)} (hc : Change r slots)
    (h : KeysDistinct r.slots) : KeysDistinct slots := by
  cases hc with
  | keep => exact h
  | reuse n e hfree hnew =>
    refine h.set fun m e' _ he' => hnew e' (mem_relayers.2 ⟨m, he'⟩)
  | extend e hroom hnew =>
    intro i j e₁ e₂ hi hj hkey
    rcases seated_extend hi with hold | ⟨rfl, rfl⟩ <;>
      rcases seated_extend hj with hold' | ⟨rfl, rfl⟩
    · exact h i j e₁ e₂ hold hold' hkey
    · exact absurd hkey (hnew e₁ (mem_relayers.2 ⟨i, hold⟩))
    · exact absurd hkey.symm (hnew e₂ (mem_relayers.2 ⟨j, hold'⟩))
    · rfl
  | vacate n e hseated =>
    intro i j e₁ e₂ hi hj hkey
    have keeps : ∀ (m : Nat) (e' : Relayer), (r.slots.set n none)[m]? = some (some e') →
        r.slots[m]? = some (some e') := by
      intro m e' hm
      rw [List.getElem?_set] at hm
      split at hm
      · split at hm <;> cases hm
      · exact hm
    exact h i j e₁ e₂ (keeps i e₁ hi) (keeps j e₂ hj) hkey
  | reearn n e earned hseated =>
    refine h.set fun m e' hm he' hkey => hm ?_
    exact h m n e' e he' hseated hkey

/-- A roster gets no more slots than it may have. -/
theorem Change.length_le {slots : List (Option Relayer)} (hc : Change r slots) :
    slots.length ≤ max r.slots.length maxRelayers := by
  cases hc with
  | extend e hroom _ =>
    rw [List.length_append]
    exact Nat.le_trans hroom (Nat.le_max_right _ _)
  | keep => exact Nat.le_max_left _ _
  | reuse | vacate | reearn =>
    rw [List.length_set]
    exact Nat.le_max_left _ _

end Roster

end QuorumRelay
