import QuorumRelay.Proofs.Inbound.Process

/-!
# Crediting together and one by one

The submitter is credited with one product, and the sum has to fit.  Crediting
some deliveries and then some more is crediting them all (`Credited.add`), for
what else could matter, which slot the submitter has, does not change on the way:
a credit changes the earnings in one slot and nothing that anybody else looks at
(`Roster.faces`).  A quorum is not affected either (`Quorum.check_congr`).

A submitter is looked up by a slot number of eight bits, which names the slot
found only on a roster of at most 256 slots.  Nothing here depends on that: the
number is the same for every credit, whichever slot it names.
-/

namespace QuorumRelay

namespace Roster

variable {r r' r'' : Roster} {n : Nat} {i : UInt8} {e : Relayer}

/-- What there is to see of a roster apart from its earnings, stakes and dates: by slot, the
owner and the key. -/
def faces (r : Roster) : List (Option (Key × Key)) :=
  r.slots.map (Option.map fun e => (e.owner, e.publicKey))

theorem faces_setSlot (hseat : r.Seated n e) {e' : Relayer} (howner : e'.owner = e.owner)
    (hkey : e'.publicKey = e.publicKey) : (r.setSlot n (some e')).faces = r.faces := by
  obtain ⟨hlt, hslot⟩ := List.getElem?_eq_some_iff.1 hseat
  unfold faces setSlot
  rw [List.map_set]
  have hlt' : n < (r.slots.map (Option.map fun e => (e.owner, e.publicKey))).length := by
    rwa [List.length_map]
  have hface : Option.map (fun e => (e.owner, e.publicKey)) (some e') =
      (r.slots.map (Option.map fun e => (e.owner, e.publicKey)))[n] := by
    rw [List.getElem_map, hslot, Option.map_some, Option.map_some, howner, hkey]
  rw [hface, List.set_getElem_self]

theorem indexOfOwner_congr (h : r'.faces = r.faces) (owner : Key) :
    r'.indexOfOwner owner = r.indexOfOwner owner := by
  have hfind : ∀ r : Roster,
      r.slots.findIdx? (fun slot => slot.any fun entry => entry.owner = owner) =
        r.faces.findIdx? fun face => face.any fun p => p.1 = owner := by
    intro r
    unfold faces
    rw [List.findIdx?_map]
    congr 1
    funext slot
    cases slot <;> rfl
  unfold indexOfOwner
  rw [hfind, hfind, h]

theorem map_publicKey_relayer? (r : Roster) (i : UInt8) :
    (r.relayer? i).map Relayer.publicKey = r.faces[i.toNat]?.join.map Prod.snd := by
  unfold relayer? faces
  rw [List.getElem?_map]
  cases r.slots[i.toNat]? with
  | none => rfl
  | some slot => cases slot <;> rfl

theorem Pays.faces (h : Pays i n r r') : r'.faces = r.faces := by
  obtain ⟨e, earned, hseat, -, rfl⟩ := h
  exact faces_setSlot hseat rfl rfl

theorem Pays.required (h : Pays i n r r') : r'.required = r.required := by
  obtain ⟨e, earned, -, -, rfl⟩ := h
  rfl

/-- **Paying an amount in two parts is paying it at once.** -/
theorem Pays.add {a b : Nat} :
    Pays i (a + b) r r'' ↔ ∃ r', Pays i a r r' ∧ Pays i b r' r'' := by
  constructor
  · rintro ⟨e, earned, hseat, hearned, rfl⟩
    have hroom := earned.toNat_lt
    obtain ⟨first, hfirst⟩ : ∃ first : Amount, first.toNat = e.earned.toNat + a :=
      ⟨_, UInt64.toNat_ofNat_of_lt' (by show _ < 2 ^ 64; omega)⟩
    have hlt := (List.getElem?_eq_some_iff.1 hseat).1
    refine ⟨_, ⟨e, first, hseat, hfirst, rfl⟩, { e with earned := first }, earned, ?_, ?_, ?_⟩
    · exact List.getElem?_set_self hlt
    · show _ = first.toNat + b
      omega
    · unfold setSlot
      rw [List.set_set]
  · rintro ⟨r', ⟨e, first, hseat, hfirst, rfl⟩, e', earned, hseat', hearned, rfl⟩
    have hlt := (List.getElem?_eq_some_iff.1 hseat).1
    obtain rfl : e' = { e with earned := first } := by
      have hthere : (r.setSlot i.toNat (some { e with earned := first })).Seated i.toNat
          { e with earned := first } := List.getElem?_set_self hlt
      exact hthere.unique hseat'
    refine ⟨e, earned, hseat, ?_, ?_⟩
    · have hsum : earned.toNat = first.toNat + b := hearned
      omega
    · unfold setSlot
      rw [List.set_set]

/-- An amount is added to the earnings in a slot, if there is a slot and something to add. -/
def Gains (slot : Option UInt8) (amount : Nat) (r r' : Roster) : Prop :=
  match slot with
  | none => r' = r
  | some i => if amount = 0 then r' = r else Pays i amount r r'

@[simp] theorem gains_none {amount : Nat} : Gains none amount r r' ↔ r' = r := Iff.rfl

@[simp] theorem gains_zero {slot : Option UInt8} : Gains slot 0 r r' ↔ r' = r := by
  cases slot <;> rfl

theorem gains_some {amount : Nat} (h : amount ≠ 0) :
    Gains (some i) amount r r' ↔ Pays i amount r r' := by
  simp only [Gains, if_neg h]

theorem Gains.faces {slot : Option UInt8} {amount : Nat} (h : Gains slot amount r r') :
    r'.faces = r.faces ∧ r'.required = r.required := by
  cases slot with
  | none =>
    obtain rfl : r' = r := h
    exact ⟨rfl, rfl⟩
  | some i =>
    by_cases hzero : amount = 0
    · subst hzero
      obtain rfl : r' = r := gains_zero.1 h
      exact ⟨rfl, rfl⟩
    · have hpays := (gains_some hzero).1 h
      exact ⟨hpays.faces, hpays.required⟩

theorem Gains.add {slot : Option UInt8} {a b : Nat} :
    Gains slot (a + b) r r'' ↔ ∃ r', Gains slot a r r' ∧ Gains slot b r' r'' := by
  cases slot with
  | none => simp
  | some i =>
    by_cases ha : a = 0
    · simp [ha]
    by_cases hb : b = 0
    · simp [hb]
    have hab : a + b ≠ 0 := by omega
    simp only [gains_some ha, gains_some hb, gains_some hab]
    exact Pays.add

end Roster

namespace Quorum

variable {r r' : Roster} {digest : Digest} {verify : Verifier} {attestations : List Attestation}

theorem count_congr (h : r'.faces = r.faces) (t : Tally) (a : Attestation) :
    count r' digest verify t a = count r digest verify t a := by
  have hkey : (r'.relayer? a.index).map Relayer.publicKey =
      (r.relayer? a.index).map Relayer.publicKey := by
    rw [Roster.map_publicKey_relayer?, Roster.map_publicKey_relayer?, h]
  unfold count
  cases hr' : r'.relayer? a.index with
  | none =>
    cases hr : r.relayer? a.index with
    | none => rfl
    | some e => simp [hr, hr'] at hkey
  | some e' =>
    cases hr : r.relayer? a.index with
    | none => simp [hr, hr'] at hkey
    | some e =>
      have hsame : e'.publicKey = e.publicKey := by simpa [hr, hr'] using hkey
      simp only [hsame]

/-- **A quorum looks at keys and at the number it needs**, and not at earnings. -/
theorem check_congr (h : r'.faces = r.faces) (hrequired : r'.required = r.required) :
    check r' digest attestations verify = check r digest attestations verify := by
  have hall : ∀ (t : Tally) (seen : List UInt8),
      countAll r' digest verify t seen attestations =
        countAll r digest verify t seen attestations := by
    induction attestations with
    | nil => exact fun _ _ => rfl
    | cons a rest ih =>
      intro t seen
      unfold countAll
      rw [count_congr h]
      simp only [ih]
  unfold check tally
  rw [hrequired]
  simp only [hall]

end Quorum

namespace Inbound

variable {s : Submission} {r r' r'' : Roster} {n : Nat} {total : Amount}

/-- What each delivery earns the submitter: nothing, if it has no slot. -/
def Submission.rewardOn (s : Submission) (r : Roster) : Amount :=
  if (r.indexOfOwner s.submitter).isSome then s.bridge.fees.relayReward else 0

theorem rewardOn_le (s : Submission) (r : Roster) :
    (s.rewardOn r).toNat ≤ s.bridge.fees.relayReward.toNat := by
  unfold Submission.rewardOn
  split
  · exact Nat.le_refl _
  · exact Nat.zero_le _

/-- The roster, once the submitter is credited for a number of deliveries. -/
def Credited (s : Submission) (n : Nat) (r r' : Roster) : Prop :=
  Roster.Gains (r.indexOfOwner s.submitter) (s.bridge.fees.relayReward.toNat * n) r r'

/-- **What a credit does**: the product has to fit, and it goes to the submitter's slot. -/
theorem creditSubmitter_eq_ok_iff : creditSubmitter s n r = .ok total r' ↔
    s.bridge.fees.relayReward.toNat * n < UInt64.size ∧
      total.toNat = (s.rewardOn r).toNat * n ∧ Credited s n r r' := by
  unfold creditSubmitter Submission.rewardOn Credited
  simp only [lift_bind_eq_ok, Amount.times, Amount.fit_eq_ok_iff]
  -- the product, if it fits, is a number that everything is compared with
  have hfits : s.bridge.fees.relayReward.toNat * n < UInt64.size ↔
      ∃ amount : Amount, amount.toNat = s.bridge.fees.relayReward.toNat * n :=
    ⟨fun h => ⟨_, UInt64.toNat_ofNat_of_lt' h⟩, fun ⟨amount, h⟩ => h ▸ amount.toNat_lt⟩
  rw [hfits, ← exists_and_right]
  refine exists_congr fun amount => and_congr_right fun hamount => ?_
  have hzero : ∀ a : Amount, a = 0 ↔ a.toNat = 0 := fun a => by
    rw [← UInt64.toNat_inj]
    rfl
  cases howner : r.indexOfOwner s.submitter with
  | none =>
    rw [Roster.gains_none, Option.isSome_none, if_neg Bool.false_ne_true, UInt64.toNat_zero,
      Nat.zero_mul, ← hzero]
    by_cases h0 : amount = 0
    · simp only [h0, if_true, pure_eq_ok, eq_comm]
    · simp only [h0, if_false, get_bind, howner, pure_eq_ok, eq_comm]
  | some index =>
    rw [Option.isSome_some, if_pos rfl, ← hamount, UInt64.toNat_inj]
    by_cases h0 : amount = 0
    · simp only [h0, UInt64.toNat_zero, Roster.gains_zero, if_true, pure_eq_ok, eq_comm]
    · simp only [h0, Roster.gains_some (mt (hzero amount).2 h0), if_false, get_bind, howner,
        bind_eq_ok, pure_eq_ok]
      constructor
      · rintro ⟨_, _, hcredit, rfl, rfl⟩
        exact ⟨rfl, Roster.credit_eq_ok.1 hcredit⟩
      · rintro ⟨rfl, hpays⟩
        exact ⟨(), r', Roster.credit_eq_ok.2 hpays, rfl, rfl⟩

/-- A credit leaves the slots as they are to see, and the number that a quorum needs. -/
theorem Credited.faces (h : Credited s n r r') : r'.faces = r.faces ∧ r'.required = r.required :=
  Roster.Gains.faces h

theorem Credited.indexOfOwner (h : Credited s n r r') (owner : Key) :
    r'.indexOfOwner owner = r.indexOfOwner owner :=
  Roster.indexOfOwner_congr h.faces.1 owner

theorem Credited.rewardOn (h : Credited s n r r') : s.rewardOn r' = s.rewardOn r := by
  unfold Submission.rewardOn
  rw [h.indexOfOwner]

/-- Crediting no delivery changes nothing. -/
@[simp] theorem credited_zero : Credited s 0 r r' ↔ r' = r := Roster.gains_zero

/-- **Crediting deliveries in two bundles is crediting them at once.** -/
theorem Credited.add {a b : Nat} :
    Credited s (a + b) r r'' ↔ ∃ r', Credited s a r r' ∧ Credited s b r' r'' := by
  unfold Credited
  rw [Nat.mul_add, Roster.Gains.add]
  refine exists_congr fun r' => and_congr_right fun hfirst => ?_
  rw [Credited.indexOfOwner hfirst]

end Inbound
end QuorumRelay
