import Mathlib.Order.Bounds.Defs
import QuorumRelay.Proofs.Roster

/-!
# Rosters over runs of calls

A roster keeps two numbers next to its slots, how many are occupied and how many
signatures a quorum needs, and six calls change them.  Here they are called in
any order, by anyone, with anything, and a call that fails is not undone.  What
holds of every roster that comes out is `Roster.WellFormed`.

## Why nothing is ever undone

Registering seats a relayer before it counts it, and the count is kept in eight
bits; so it could fail with the relayer seated and not counted.  It never does,
because there are at most `maxRelayers` slots and the count is that of the
occupied ones.  In the same way removing never counts below zero.  So on a
well-formed roster a call that fails is a refusal, and leaves the roster as it
was (`Roster.WellFormed.refuses`); the fault that stands for a counter out of its
range does not come up.

## Why the last relayer stays

Nobody asks for no signatures at all: the first relayer sets the number to one,
and it is never set to zero again.  A relayer may leave only if as many as a
quorum needs remain, so one always does.
-/

namespace QuorumRelay

/-! ## Steps that refuse -/

/-- The program refuses, and neither aborts nor fails for a reason outside it. -/
def Fault.IsRefusal (f : Fault) : Prop := ∃ reason, f = .refused reason

namespace Action

variable {σ α β : Type} {s : σ}

/-- Where the step fails, it refuses, and leaves the record as it was. -/
def Refuses (step : Action σ α) (s : σ) : Prop :=
  ∀ f t, step s = .error f t → t = s ∧ f.IsRefusal

namespace Refuses

protected theorem of_ne_error {step : Action σ α} (h : ∀ f t, step s ≠ .error f t) :
    step.Refuses s :=
  fun f t heq => absurd heq (h f t)

protected theorem lift_bind {x : Except Fault α} {next : α → Action σ β}
    (hx : ∀ f, x = .error f → f.IsRefusal) (hnext : ∀ a, x = .ok a → (next a).Refuses s) :
    Refuses ((liftM x : Action σ α) >>= next) s := by
  intro f t h
  rcases lift_bind_eq_error.1 h with ⟨hf, rfl⟩ | ⟨a, ha, h⟩
  · exact ⟨rfl, hx f hf⟩
  · exact hnext a ha f t h

protected theorem require_bind {p : Prop} [Decidable p] {reason : Refusal}
    {next : Unit → Action σ β} (hnext : p → (next ()).Refuses s) :
    Refuses ((require p reason : Action σ Unit) >>= next) s := by
  intro f t h
  rcases require_bind_eq_error.1 h with ⟨-, rfl, rfl⟩ | ⟨hp, h⟩
  · exact ⟨rfl, reason, rfl⟩
  · exact hnext hp f t h

/-- What comes after a step that refuses may write, if it cannot fail. -/
protected theorem bind {step : Action σ α} {next : α → Action σ β} (hstep : step.Refuses s)
    (hnext : ∀ a t, step s = .ok a t → ∀ f u, next a t ≠ .error f u) :
    Refuses (step >>= next) s := by
  intro f t h
  rcases bind_eq_error.1 h with h | ⟨a, u, hu, h⟩
  · exact hstep f t h
  · exact absurd h (hnext a u hu f t)

protected theorem discard {step : Action σ α} (h : step.Refuses s) :
    Refuses (discard step) s :=
  fun f t heq => h f t (discard_eq_error.1 heq)

end Refuses
end Action

namespace Roster

variable {r r' : Roster} {i : UInt8} {n : Nat} {e : Relayer} {f : Fault}

theorem isRefusal_of_relayer (h : r.relayer i = .error f) : f.IsRefusal := by
  unfold relayer at h
  split at h
  · cases h
  · cases h
    exact ⟨_, rfl⟩

theorem isRefusal_of_checkOwner {caller : Key} (h : r.checkOwner i caller = .error f) :
    f.IsRefusal := by
  unfold checkOwner at h
  cases hrelayer : r.relayer i with
  | error g =>
    rw [hrelayer] at h
    cases h
    exact isRefusal_of_relayer hrelayer
  | ok e =>
    rw [hrelayer] at h
    exact ⟨_, (require_eq_error.1 h).2⟩

variable {owner publicKey caller : Key} {stake minimumStake amount : Amount} {now : Slot}

theorem place_refuses (e : Relayer) (r : Roster) : (place e).Refuses r := by
  intro f t h
  unfold place at h
  rw [get_bind] at h
  cases hfree : r.slots.findIdx? Option.isNone with
  | some free => simp only [hfree, set_bind, pure_ne_error] at h
  | none =>
    rw [hfree] at h
    exact Action.Refuses.require_bind (fun _ => .of_ne_error fun f t => by simp) f t h

theorem active_of_place (h : place e r = .ok n r') : r'.active = r.active := by
  rcases place_eq_ok h with ⟨-, rfl⟩ | ⟨-, -, rfl⟩ <;> rfl

theorem required_of_place (h : place e r = .ok n r') : r'.required = r.required := by
  rcases place_eq_ok h with ⟨-, rfl⟩ | ⟨-, -, rfl⟩ <;> rfl

/-- Registering refuses, unless the count is at its end. -/
theorem register_refuses (hactive : r.active ≠ 255) :
    (register owner publicKey stake minimumStake now).Refuses r := by
  refine Action.Refuses.require_bind fun _ => .require_bind fun _ =>
    (place_refuses _ r).bind fun n seated hplace f t h => ?_
  rw [get_bind, active_of_place hplace, if_neg hactive] at h
  exact absurd h (by simp)

/-- Removing refuses, unless a relayer sits there that was not counted. -/
theorem remove_refuses (hactive : ∀ e, r.Seated i.toNat e → r.active ≠ 0) :
    (remove i).Refuses r := by
  refine Action.Refuses.lift_bind (fun _ => isRefusal_of_relayer) fun e he => ?_
  rw [if_neg (hactive e (relayer_eq_ok.1 he))]
  exact .require_bind fun _ => .of_ne_error fun f t => by simp

theorem unregister_refuses (hactive : ∀ e, r.Seated i.toNat e → r.active ≠ 0) :
    (unregister i caller).Refuses r :=
  Action.Refuses.lift_bind (fun _ => isRefusal_of_checkOwner) fun _ _ => remove_refuses hactive

theorem setThreshold_refuses (required : UInt8) (r : Roster) :
    (setThreshold required).Refuses r :=
  Action.Refuses.require_bind fun _ => .require_bind fun _ => .of_ne_error fun f t => by simp

theorem credit_refuses (i : UInt8) (amount : Amount) (r : Roster) :
    (credit i amount).Refuses r :=
  Action.Refuses.lift_bind (fun _ => isRefusal_of_relayer) fun _ _ =>
    .lift_bind (fun _ h => ⟨_, (Amount.plus_eq_error.1 h).2⟩) fun _ _ =>
      .of_ne_error fun f t => by simp

theorem debitEarnings_refuses (i : UInt8) (caller : Key) (amount : Amount) (r : Roster) :
    (debitEarnings i caller amount).Refuses r :=
  Action.Refuses.require_bind fun _ => .lift_bind (fun _ => isRefusal_of_checkOwner) fun _ _ =>
    .lift_bind (fun _ => isRefusal_of_relayer) fun _ _ => .require_bind fun _ =>
      .of_ne_error fun f t => by simp

/-! ## Who sits where -/

/-- Nobody sits in a slot; a slot that the roster does not have yet is free too. -/
def Free (r : Roster) (n : Nat) : Prop := ∀ e, ¬ r.Seated n e

theorem free_of_length_le (h : r.slots.length ≤ n) : r.Free n := by
  intro e he
  rw [Seated, List.getElem?_eq_none h] at he
  cases he

/-- A relayer is put into the lowest free slot. -/
theorem isLeast_of_place (h : place e r = .ok n r') : IsLeast {m | r.Free m} n := by
  unfold place at h
  rw [get_bind] at h
  cases hfree : r.slots.findIdx? Option.isNone with
  | some free =>
    simp only [hfree, set_bind, pure_eq_ok] at h
    obtain ⟨rfl, -⟩ := h
    obtain ⟨hlt, hnone, hbelow⟩ := List.findIdx?_eq_some_iff_getElem.1 hfree
    refine ⟨fun e he => ?_, fun m hm => Nat.le_of_not_lt fun hmlt => hbelow m hmlt ?_⟩
    · rw [Seated, List.getElem?_eq_getElem hlt, Option.isNone_iff_eq_none.1 hnone] at he
      cases he
    · cases hslot : r.slots[m] with
      | none => rfl
      | some e =>
        refine absurd ?_ (hm e)
        rw [Seated, List.getElem?_eq_getElem (Nat.lt_trans hmlt hlt), hslot]
  | none =>
    simp only [hfree, require_bind_eq_ok, set_bind, pure_eq_ok] at h
    obtain ⟨-, rfl, -⟩ := h
    refine ⟨free_of_length_le (Nat.le_refl _), fun m hm => Nat.le_of_not_lt fun hmlt => ?_⟩
    have hsome := List.findIdx?_eq_none_iff.1 hfree r.slots[m] (List.getElem_mem hmlt)
    cases hslot : r.slots[m] with
    | none => simp [hslot] at hsome
    | some e =>
      refine hm e ?_
      rw [Seated, List.getElem?_eq_getElem hmlt, hslot]

/-- Exchanging a slot moves nobody in another one. -/
theorem seated_setSlot {slot : Option Relayer} (hn : n < r.slots.length) {m : Nat}
    {e' : Relayer} :
    (r.setSlot n slot).Seated m e' ↔ if m = n then slot = some e' else r.Seated m e' := by
  unfold Seated setSlot
  rw [List.getElem?_set]
  by_cases hm : n = m
  · subst hm
    simp [hn]
  · simp [hm, Ne.symm hm]

theorem Seated.lt_length (h : r.Seated n e) : n < r.slots.length :=
  (List.getElem?_eq_some_iff.1 h).1

/-- A relayer may be exchanged for another. -/
theorem Seated.setSlot (h : r.Seated n e) (e' : Relayer) :
    (r.setSlot n (some e')).Seated n e' :=
  (seated_setSlot h.lt_length).2 (by rw [if_pos rfl])

/-- What is done to one slot leaves the relayers of the others. -/
theorem Seated.setSlot_of_ne {m : Nat} {e' : Relayer} (h : r.Seated n e) (hne : m ≠ n)
    (h' : r.Seated m e') (slot : Option Relayer) : (r.setSlot n slot).Seated m e' :=
  (seated_setSlot h.lt_length).2 (by rwa [if_neg hne])

/-- A relayer that is placed sits there, and the others where they sat. -/
theorem seated_place (h : place e r = .ok n r') {m : Nat} {e' : Relayer} :
    r'.Seated m e' ↔ (m = n ∧ e' = e) ∨ r.Seated m e' := by
  have hfree : r.Free n := (isLeast_of_place h).1
  rcases place_eq_ok h with ⟨hslot, rfl⟩ | ⟨rfl, -, rfl⟩
  · rw [seated_setSlot (List.getElem?_eq_some_iff.1 hslot).1]
    by_cases hm : m = n
    · subst hm
      simp [hfree e', eq_comm]
    · simp [hm]
  · constructor
    · exact fun he => (seated_extend he).symm
    · rintro (⟨rfl, rfl⟩ | he)
      · simp [Seated]
      · exact (List.getElem?_append_left he.lt_length).trans he

/-! ## Calls -/

/-- What a roster can be asked to do. -/
inductive Call where
  | register (owner publicKey : Key) (stake minimumStake : Amount) (now : Slot)
  | unregister (index : UInt8) (caller : Key)
  | remove (index : UInt8)
  | setThreshold (required : UInt8)
  | credit (index : UInt8) (amount : Amount)
  | debitEarnings (index : UInt8) (caller : Key) (amount : Amount)

namespace Call

/-- Make a call, without looking at its result. -/
def run : Call → Action Roster Unit
  | register owner publicKey stake minimumStake now =>
    discard (Roster.register owner publicKey stake minimumStake now)
  | unregister index caller => discard (Roster.unregister index caller)
  | remove index => discard (Roster.remove index)
  | setThreshold required => Roster.setThreshold required
  | credit index amount => Roster.credit index amount
  | debitEarnings index caller amount => Roster.debitEarnings index caller amount

/-- The slot that a call is to empty. -/
def vacates : Call → Option UInt8
  | unregister index _ => some index
  | remove index => some index
  | _ => none

end Call

/-- The roster after calls, of which some may have failed. -/
def afterCalls (r : Roster) (calls : List Call) : Roster :=
  calls.foldl (fun r c => c.run.after r) r

/-- A relayer is the one that it was, whatever it has earned since. -/
def SameRelayer (e e' : Relayer) : Prop :=
  e'.owner = e.owner ∧ e'.publicKey = e.publicKey ∧ e'.stake = e.stake ∧
    e'.registeredAt = e.registeredAt

/-- **The numbers of a roster fit its slots.** -/
structure WellFormed (r : Roster) : Prop where
  /-- The count is that of the occupied slots. -/
  active : r.active.toNat = r.relayers.length
  room : r.slots.length ≤ maxRelayers
  keys : KeysDistinct r.slots
  /-- A quorum never needs more signatures than there are relayers. -/
  enough : r.required ≤ r.active
  /-- Where there are relayers, a quorum needs one of them at least. -/
  asked : r.relayers ≠ [] → 1 ≤ r.required

/-- **What a call can do to a well-formed roster**: nothing, or one of four things. -/
inductive Does (r : Roster) : Call → Roster → Prop
  | refused (c : Call) : Does r c r
  | seated {owner publicKey : Key} {stake minimumStake : Amount} {now : Slot} {n : Nat}
      {s : Roster} (newKey : ∀ other ∈ r.relayers, other.publicKey ≠ publicKey)
      (placed : place { owner, publicKey, stake, registeredAt := now } r = .ok n s) :
      Does r (.register owner publicKey stake minimumStake now)
        { s with active := s.active + 1, required := if s.required = 0 then 1 else s.required }
  | vacated {c : Call} {i : UInt8} {e : Relayer} {s : Roster} (slot : c.vacates = some i)
      (run : c.run r = .ok () s) (seat : r.Seated i.toNat e)
      (enough : r.required ≤ r.active - 1)
      (result : s = { r.setSlot i.toNat none with active := r.active - 1 }) : Does r c s
  | asked {required : UInt8} (pos : 1 ≤ required) (le : required ≤ r.active) :
      Does r (.setThreshold required) { r with required }
  | paid {c : Call} {n : Nat} {e : Relayer} {earned : Amount} (seat : r.Seated n e) :
      Does r c (r.setSlot n (some { e with earned }))

namespace WellFormed

theorem active_le (h : r.WellFormed) : r.active.toNat ≤ maxRelayers := by
  rw [h.active]
  exact Nat.le_trans (List.length_filterMap_le _ _) h.room

theorem active_ne_zero (h : r.WellFormed) (hseat : r.Seated n e) : r.active ≠ 0 := by
  intro hzero
  have hlength := h.active
  rw [hzero] at hlength
  have hnil : r.relayers = [] := List.length_eq_zero_iff.1 hlength.symm
  have hmem := mem_relayers.2 ⟨n, hseat⟩
  rw [hnil] at hmem
  cases hmem

/-- **On a well-formed roster every call that fails is a refusal**, and changes nothing. -/
theorem refuses (h : r.WellFormed) (c : Call) : c.run.Refuses r := by
  have hroom : r.active ≠ 255 := by
    intro hfull
    have hle := h.active_le
    rw [hfull] at hle
    exact absurd hle (by decide)
  have hcounted : ∀ {i : UInt8} (e : Relayer), r.Seated i.toNat e → r.active ≠ 0 :=
    fun _ => h.active_ne_zero
  cases c with
  | register => exact (register_refuses hroom).discard
  | unregister => exact (unregister_refuses hcounted).discard
  | remove => exact (remove_refuses hcounted).discard
  | setThreshold required => exact setThreshold_refuses required r
  | credit index amount => exact credit_refuses index amount r
  | debitEarnings index caller amount => exact debitEarnings_refuses index caller amount r

theorem does (h : r.WellFormed) (c : Call) : Does r c (c.run.after r) := by
  refine Action.after_induct (fun u r' hok => ?_) fun f r' herr => ?_
  · cases c with
    | register owner publicKey stake minimumStake now =>
      obtain ⟨i, hok⟩ := discard_eq_ok.1 hok
      obtain ⟨-, hnew, n, s, hplace, -, -, rfl⟩ := register_eq_ok hok
      exact .seated hnew hplace
    | unregister index caller =>
      obtain ⟨e, hremove⟩ := discard_eq_ok.1 hok
      obtain ⟨hseat, -, henough, hr'⟩ := remove_eq_ok (unregister_eq_ok hremove).2
      exact .vacated rfl hok hseat henough hr'
    | remove index =>
      obtain ⟨e, hremove⟩ := discard_eq_ok.1 hok
      obtain ⟨hseat, -, henough, hr'⟩ := remove_eq_ok hremove
      exact .vacated rfl hok hseat henough hr'
    | setThreshold required =>
      obtain ⟨hpos, hle, rfl⟩ := setThreshold_eq_ok hok
      exact .asked hpos hle
    | credit index amount =>
      obtain ⟨e, earned, hseat, -, rfl⟩ := credit_eq_ok.1 hok
      exact .paid hseat
    | debitEarnings index caller amount =>
      obtain ⟨e, hseat, -, -, -, rfl⟩ := debitEarnings_eq_ok hok
      exact .paid hseat
  · obtain ⟨rfl, -⟩ := h.refuses c f r' herr
    exact .refused c

end WellFormed

theorem length_relayers_place (h : place e r = .ok n r') :
    r'.relayers.length = r.relayers.length + 1 := by
  simpa using sum_relayers_place (fun _ => 1) h

theorem length_relayers_setSlot {slot : Option Relayer} (h : r.slots[n]? = some slot)
    (slot' : Option Relayer) :
    (r.setSlot n slot').relayers.length + slot.elim 0 (fun _ => 1) =
      r.relayers.length + slot'.elim 0 fun _ => 1 := by
  simpa using sum_relayers_setSlot (fun _ => 1) h slot'

theorem Does.change {c : Call} (h : Does r c r') : Change r r'.slots := by
  cases h with
  | refused | asked => exact .keep
  | seated hnew hplace => exact (Change.of_place hnew hplace :)
  | vacated _ _ hseat _ hr' =>
    rw [hr']
    exact .vacate _ _ hseat
  | paid hseat => exact .reearn _ _ _ hseat

theorem one_le_of_ne_zero {b : UInt8} (h : b ≠ 0) : 1 ≤ b :=
  UInt8.le_iff_toNat_le.2 (Nat.pos_of_ne_zero fun hzero => h (UInt8.toNat_inj.1 hzero))

/-- **Every call keeps a roster well-formed**, whether it succeeds or fails. -/
theorem WellFormed.does_wellFormed {c : Call} (h : r.WellFormed) (hc : Does r c r') :
    r'.WellFormed := by
  have hroom : r'.slots.length ≤ maxRelayers :=
    Nat.le_trans hc.change.length_le (Nat.max_le.2 ⟨h.room, Nat.le_refl _⟩)
  have hkeys := hc.change.keysDistinct h.keys
  cases hc with
  | refused => exact h
  | @seated _ _ _ _ _ n s hnew hplace =>
    have hlength := length_relayers_place hplace
    have hcount : s.active.toNat + 1 < 256 := by
      have hle : s.active.toNat ≤ 32 := active_of_place hplace ▸ h.active_le
      omega
    have hnext : (s.active + 1).toNat = s.active.toNat + 1 := by
      rw [UInt8.toNat_add]
      exact Nat.mod_eq_of_lt hcount
    have hrequired : s.required.toNat ≤ s.active.toNat := by
      rw [required_of_place hplace, active_of_place hplace]
      exact UInt8.le_iff_toNat_le.1 h.enough
    refine ⟨?_, hroom, hkeys, UInt8.le_iff_toNat_le.2 ?_, fun _ => ?_⟩
    · rw [hnext, active_of_place hplace, h.active]
      exact hlength.symm
    · rw [hnext]
      split
      · exact Nat.le_add_left 1 _
      · exact Nat.le_succ_of_le hrequired
    · show 1 ≤ if s.required = 0 then 1 else s.required
      split
      · exact UInt8.le_refl 1
      · exact one_le_of_ne_zero ‹_›
  | @vacated _ i e _ _ _ hseat henough hr' =>
    have hlength := length_relayers_setSlot hseat none
    have hpos := h.active_ne_zero hseat
    subst hr'
    have hprev : (r.active - 1).toNat = r.active.toNat - 1 :=
      UInt8.toNat_sub_of_le _ _ (one_le_of_ne_zero hpos)
    refine ⟨?_, hroom, hkeys, henough, fun _ => ?_⟩
    · rw [hprev, h.active]
      exact (Nat.eq_sub_of_add_eq hlength).symm
    · exact h.asked (List.ne_nil_of_mem (mem_relayers.2 ⟨_, hseat⟩))
  | asked hpos hle => exact { h with enough := hle, asked := fun _ => hpos }
  | @paid _ n e earned hseat =>
    have hlength := length_relayers_setSlot hseat (some { e with earned })
    have hsame : (r.setSlot n (some { e with earned })).relayers.length = r.relayers.length :=
      Nat.add_right_cancel hlength
    refine ⟨h.active.trans hsame.symm, hroom, hkeys, h.enough, fun hne => h.asked ?_⟩
    refine fun hnil => hne ?_
    rw [← List.length_eq_zero_iff, hsame, hnil]
    rfl

/-! ## Runs -/

theorem wellFormed_empty : WellFormed {} where
  active := rfl
  room := Nat.zero_le _
  keys := fun i _ _ _ hi => by simp at hi
  enough := UInt8.le_refl 0
  asked := fun hne => absurd rfl hne

/-- Every run keeps a roster well-formed: by induction on the calls. -/
theorem WellFormed.afterCalls (h : r.WellFormed) (calls : List Call) :
    (r.afterCalls calls).WellFormed := by
  induction calls generalizing r with
  | nil => exact h
  | cons c calls ih => exact ih (h.does_wellFormed (h.does c))

/-- A quorum needs no signature exactly where there is no relayer. -/
theorem WellFormed.required_eq_zero_iff (h : r.WellFormed) :
    r.required = 0 ↔ r.relayers = [] := by
  constructor
  · intro hzero
    by_contra hne
    have hpos := h.asked hne
    rw [hzero] at hpos
    exact absurd hpos (by decide)
  · intro hnil
    have hle := UInt8.le_iff_toNat_le.1 h.enough
    rw [h.active, hnil] at hle
    exact UInt8.toNat_inj.1 (Nat.le_zero.1 hle)

/-- Once a quorum needs a signature, it always needs one. -/
theorem Does.required_ne_zero {c : Call} (hc : Does r c r') (h : r.required ≠ 0) :
    r'.required ≠ 0 := by
  cases hc with
  | refused | paid => exact h
  | @seated _ _ _ _ _ n s _ hplace =>
    have hs : s.required ≠ 0 := required_of_place hplace ▸ h
    show (if s.required = 0 then 1 else s.required) ≠ 0
    rw [if_neg hs]
    exact hs
  | vacated _ _ _ _ hr' => exact hr' ▸ h
  | asked hpos _ =>
    rintro rfl
    exact absurd hpos (by decide)

/-- **A roster that has a relayer keeps one.** -/
theorem WellFormed.does_ne_nil {c : Call} (h : r.WellFormed) (hc : Does r c r')
    (hne : r.relayers ≠ []) : r'.relayers ≠ [] := by
  rw [Ne, ← h.required_eq_zero_iff] at hne
  rw [Ne, ← (h.does_wellFormed hc).required_eq_zero_iff]
  exact hc.required_ne_zero hne

theorem WellFormed.afterCalls_ne_nil (h : r.WellFormed) (hne : r.relayers ≠ [])
    (calls : List Call) : (r.afterCalls calls).relayers ≠ [] := by
  induction calls generalizing r with
  | nil => exact hne
  | cons c calls ih =>
    exact ih (h.does_wellFormed (h.does c)) (h.does_ne_nil (h.does c) hne)

/-! ## Seats -/

theorem SameRelayer.refl (e : Relayer) : SameRelayer e e := ⟨rfl, rfl, rfl, rfl⟩

theorem SameRelayer.trans {e₁ e₂ e₃ : Relayer} (h : SameRelayer e₁ e₂) (h' : SameRelayer e₂ e₃) :
    SameRelayer e₁ e₃ :=
  ⟨h'.1.trans h.1, h'.2.1.trans h.2.1, h'.2.2.1.trans h.2.2.1, h'.2.2.2.trans h.2.2.2⟩

/-- **A relayer stays in its slot**, unless the call empties that slot. -/
theorem Does.seated_or_vacates {c : Call} (hc : Does r c r') (hseat : r.Seated n e) :
    (∃ e', SameRelayer e e' ∧ r'.Seated n e') ∨
      ∃ i, c.vacates = some i ∧ i.toNat = n ∧ c.run r = .ok () r' := by
  cases hc with
  | refused | asked => exact .inl ⟨e, .refl e, hseat⟩
  | seated _ hplace => exact .inl ⟨e, .refl e, (seated_place hplace).2 (.inr hseat)⟩
  | @vacated _ i _ _ hslot hrun hother _ hr' =>
    by_cases hn : n = i.toNat
    · exact .inr ⟨i, hslot, hn.symm, hrun⟩
    · rw [hr']
      exact .inl ⟨e, .refl e, hother.setSlot_of_ne hn hseat none⟩
  | @paid _ m other earned hother =>
    by_cases hn : n = m
    · subst hn
      obtain rfl := hseat.unique hother
      exact .inl ⟨{ other with earned }, ⟨rfl, rfl, rfl, rfl⟩, hother.setSlot _⟩
    · exact .inl ⟨e, .refl e, hother.setSlot_of_ne hn hseat _⟩

/-- Somewhere in a run a call empties a slot in which a relayer still sits. -/
def Vacated (r : Roster) (n : Nat) (e : Relayer) (calls : List Call) : Prop :=
  ∃ before c behind i, calls = before ++ c :: behind ∧ c.vacates = some i ∧ i.toNat = n ∧
    (∃ e', SameRelayer e e' ∧ (r.afterCalls before).Seated n e') ∧
    ∃ s, c.run (r.afterCalls before) = .ok () s

/-- **A relayer stays in its slot until it is removed from it.** -/
theorem WellFormed.seated_or_vacated (h : r.WellFormed) (hseat : r.Seated n e)
    (calls : List Call) :
    (∃ e', SameRelayer e e' ∧ (r.afterCalls calls).Seated n e') ∨ Vacated r n e calls := by
  induction calls generalizing r e with
  | nil => exact .inl ⟨e, .refl e, hseat⟩
  | cons c calls ih =>
    rcases (h.does c).seated_or_vacates hseat with ⟨e', hsame, hseat'⟩ | ⟨i, hslot, hn, hrun⟩
    · rcases ih (h.does_wellFormed (h.does c)) hseat' with
        ⟨e'', hsame', hkept⟩ | ⟨before, d, behind, i, rfl, hslot, hn, ⟨e'', hsame', hthere⟩, hrun⟩
      · exact .inl ⟨e'', hsame.trans hsame', hkept⟩
      · exact .inr ⟨c :: before, d, behind, i, rfl, hslot, hn, ⟨e'', hsame.trans hsame', hthere⟩,
          hrun⟩
    · exact .inr ⟨[], c, calls, i, rfl, hslot, hn, ⟨e, .refl e, hseat⟩, _, hrun⟩

/-- A relayer that registers on a well-formed roster gets the lowest free slot. -/
theorem WellFormed.register_isLeast (h : r.WellFormed)
    (hok : register owner publicKey stake minimumStake now r = .ok i r') :
    IsLeast {n | r.Free n} i.toNat ∧
      r'.Seated i.toNat { owner, publicKey, stake, registeredAt := now } := by
  obtain ⟨-, -, n, s, hplace, rfl, -, rfl⟩ := register_eq_ok hok
  have hleast := isLeast_of_place hplace
  have hn : n ≤ r.slots.length := hleast.2 (free_of_length_le (Nat.le_refl _))
  have hindex : (UInt8.ofNat n).toNat = n :=
    Nat.mod_eq_of_lt (Nat.lt_of_le_of_lt (Nat.le_trans hn h.room) (by decide))
  rw [hindex]
  exact ⟨hleast, (seated_place hplace :).2 (.inl ⟨rfl, rfl⟩)⟩

/-- **What holds of a roster after any calls**, of which any may have failed. -/
theorem holds_after_calls (calls : List Call) :
    let r := afterCalls {} calls
    -- the count, the room, the keys and the number of signatures
    (r.active.toNat = r.relayers.length ∧ r.slots.length ≤ maxRelayers ∧
      KeysDistinct r.slots ∧ (r.required = 0 ↔ r.relayers = []) ∧
      (r.relayers ≠ [] → 1 ≤ r.required ∧ r.required ≤ r.active)) ∧
    -- a call that fails is a refusal, so no counter has left its range, and changes nothing
    (∀ (c : Call) f s, c.run r = .error f s → s = r ∧ f.IsRefusal) ∧
    -- a relayer that registers gets the lowest free slot
    (∀ owner publicKey stake minimumStake now i s,
      register owner publicKey stake minimumStake now r = .ok i s →
        IsLeast {n | r.Free n} i.toNat ∧
          s.Seated i.toNat { owner, publicKey, stake, registeredAt := now }) ∧
    ∀ later : List Call,
      -- a roster that has a relayer keeps one
      (r.relayers ≠ [] → (r.afterCalls later).relayers ≠ []) ∧
      -- a relayer stays in its slot until a call empties that slot
      ∀ n e, r.Seated n e →
        (∃ e', SameRelayer e e' ∧ (r.afterCalls later).Seated n e') ∨ Vacated r n e later := by
  have h : (afterCalls {} calls).WellFormed := wellFormed_empty.afterCalls calls
  refine ⟨⟨h.active, h.room, h.keys, h.required_eq_zero_iff, fun hne => ⟨h.asked hne, h.enough⟩⟩,
    h.refuses, fun _ _ _ _ _ _ _ => h.register_isLeast, fun later => ⟨fun hne => ?_, ?_⟩⟩
  · exact h.afterCalls_ne_nil hne later
  · exact fun _ _ hseat => h.seated_or_vacated hseat later

/-- Two relayers register and the first leaves; the one that comes next gets its slot. -/
theorem holds_after_leaving :
    let left : Roster := afterCalls {}
      [.register .zero (.replicate 32 1) 1 0 0, .register .zero (.replicate 32 2) 1 0 0,
        .unregister 0 .zero]
    left.active = 1 ∧ left.required = 1 ∧
      ∃ s, register .zero (.replicate 32 3) 1 0 0 left = .ok 0 s ∧
        IsLeast {n | left.Free n} (0 : UInt8).toNat ∧
        s.Seated 0 { publicKey := .replicate 32 3, stake := 1 } := by
  intro left
  obtain ⟨s, hrun⟩ : ∃ s, register .zero (.replicate 32 3) 1 0 0 left = .ok 0 s := ⟨_, rfl⟩
  exact ⟨rfl, rfl, s, hrun, (holds_after_calls _).2.2.1 _ _ _ _ _ _ _ hrun⟩

end Roster
end QuorumRelay
