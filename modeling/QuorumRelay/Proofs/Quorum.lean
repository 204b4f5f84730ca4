import Mathlib.Data.List.Nodup
import QuorumRelay.Proofs.Roster
import QuorumRelay.Quorum.Basic

/-!
# What a quorum stands for

The count of a quorum is a loop with a table of the slots it has seen.  The table
makes the slots different from one another, and apart from it the loop is a plain
count over the list (`countAll_eq_ok_iff`).  What it counts are three kinds of
attestations: those that are signed under the key of a seated relayer, those that
name a slot without one, and the rest (`tallied_counted`).

## From slots to keys

That the slots differ is the loop's doing; that the *keys* differ is the roster's
(`Roster.KeysDistinct`).  Only the two together give what a quorum is for: as many
different keys as the roster asks for have signed (`backed_of_check`).

The counters have eight bits.  None of them can wrap around, since each
attestation moves one counter by one and no more than `maxAttestations` are
looked at.
-/

namespace QuorumRelay

/-- How many attestations have been counted. -/
def Tally.total (t : Tally) : Nat := t.valid.toNat + t.inactive.toNat + t.invalid.toNat

namespace Quorum

variable {roster : Roster} {digest : Digest} {verify : Verifier}
  {attestations as bs : List Attestation} {t t' t'' : Tally} {seen : List UInt8} {a : Attestation}

/-! ## Kinds of attestations -/

/-- An attestation names an occupied slot and is signed under the key in it. -/
def Signed (roster : Roster) (digest : Digest) (verify : Verifier) (a : Attestation) : Prop :=
  ∃ e, roster.Seated a.index.toNat e ∧ verify e.publicKey digest a.signature = true

/-- An attestation names a slot that is empty or does not exist. -/
def Vacant (roster : Roster) (a : Attestation) : Prop :=
  ∀ e, ¬ roster.Seated a.index.toNat e

/-- An attestation names an occupied slot and is not signed under the key in it. -/
def Unsigned (roster : Roster) (digest : Digest) (verify : Verifier) (a : Attestation) : Prop :=
  ¬ Signed roster digest verify a ∧ ¬ Vacant roster a

/-- The attestation together with the relayer that stands behind it, if one does. -/
def backer? (roster : Roster) (digest : Digest) (verify : Verifier) (a : Attestation) :
    Option (Attestation × Relayer) :=
  match roster.relayer? a.index with
  | none => none
  | some entry => if verify entry.publicKey digest a.signature then some (a, entry) else none

/-- The attestations that count, each with its relayer. -/
def backers (roster : Roster) (digest : Digest) (verify : Verifier)
    (attestations : List Attestation) : List (Attestation × Relayer) :=
  attestations.filterMap (backer? roster digest verify)

theorem backer?_eq_some {p : Attestation × Relayer} :
    backer? roster digest verify a = some p ↔
      p.1 = a ∧ roster.Seated a.index.toNat p.2 ∧
        verify p.2.publicKey digest a.signature = true := by
  obtain ⟨b, entry⟩ := p
  rw [← Roster.relayer?_eq_some]
  unfold backer?
  cases roster.relayer? a.index with
  | none => simp
  | some found =>
    by_cases hv : verify found.publicKey digest a.signature = true
    · simp only [hv, if_true, Option.some.injEq, Prod.mk.injEq]
      constructor
      · rintro ⟨rfl, rfl⟩
        exact ⟨rfl, rfl, hv⟩
      · rintro ⟨rfl, rfl, -⟩
        exact ⟨rfl, rfl⟩
    · simp only [hv, if_false, reduceCtorEq, false_iff, not_and, Option.some.injEq]
      rintro - rfl
      exact hv

theorem backed_of_mem_backers {p : Attestation × Relayer}
    (h : p ∈ backers roster digest verify attestations) :
    roster.Seated p.1.index.toNat p.2 ∧ verify p.2.publicKey digest p.1.signature = true := by
  obtain ⟨a, -, ha⟩ := List.mem_filterMap.1 h
  obtain ⟨rfl, hseated, hv⟩ := backer?_eq_some.1 ha
  exact ⟨hseated, hv⟩

/-- What counts is part of the list, in its order. -/
theorem map_fst_backers_sublist (roster : Roster) (digest : Digest) (verify : Verifier)
    (attestations : List Attestation) :
    ((backers roster digest verify attestations).map Prod.fst).Sublist attestations := by
  induction attestations with
  | nil => exact .slnil
  | cons a rest ih =>
    unfold backers at ih ⊢
    cases ha : backer? roster digest verify a with
    | none =>
      rw [List.filterMap_cons_none ha]
      exact ih.cons a
    | some p =>
      obtain ⟨hp, -⟩ := backer?_eq_some.1 ha
      rw [List.filterMap_cons_some ha, List.map_cons, hp]
      exact ih.cons_cons a

theorem isSome_backer? :
    (backer? roster digest verify a).isSome = true ↔ Signed roster digest verify a := by
  rw [Option.isSome_iff_exists]
  constructor
  · rintro ⟨p, hp⟩
    obtain ⟨-, hseated, hv⟩ := backer?_eq_some.1 hp
    exact ⟨p.2, hseated, hv⟩
  · rintro ⟨e, hseated, hv⟩
    exact ⟨(a, e), backer?_eq_some.2 ⟨rfl, hseated, hv⟩⟩

theorem isNone_relayer? : (roster.relayer? a.index).isNone = true ↔ Vacant roster a := by
  rw [Option.isNone_iff_eq_none, Option.eq_none_iff_forall_ne_some]
  exact forall_congr' fun e => not_congr Roster.relayer?_eq_some

instance : Decidable (Signed roster digest verify a) := decidable_of_iff _ isSome_backer?

instance : Decidable (Vacant roster a) := decidable_of_iff _ isNone_relayer?

instance : Decidable (Unsigned roster digest verify a) :=
  inferInstanceAs (Decidable (_ ∧ _))

/-- What counts is what is signed. -/
theorem length_backers : (backers roster digest verify attestations).length =
    attestations.countP fun a => Signed roster digest verify a := by
  rw [backers, List.length_filterMap_eq_countP]
  refine List.countP_congr fun a _ => ?_
  rw [isSome_backer?, decide_eq_true_eq]

/-! ## The count -/

/-- **A tally goes up by the attestations of a list**, each kind on its own counter. -/
structure Tallied (roster : Roster) (digest : Digest) (verify : Verifier) (t : Tally)
    (as : List Attestation) (t' : Tally) : Prop where
  valid : t'.valid.toNat = t.valid.toNat + as.countP fun a => Signed roster digest verify a
  inactive : t'.inactive.toNat = t.inactive.toNat + as.countP fun a => Vacant roster a
  invalid : t'.invalid.toNat = t.invalid.toNat + as.countP fun a => Unsigned roster digest verify a
  required : t'.required = t.required

theorem Tallied.append (h : Tallied roster digest verify t as t')
    (h' : Tallied roster digest verify t' bs t'') :
    Tallied roster digest verify t (as ++ bs) t'' := by
  refine ⟨?_, ?_, ?_, h'.required.trans h.required⟩
  · rw [h'.valid, h.valid, List.countP_append, Nat.add_assoc]
  · rw [h'.inactive, h.inactive, List.countP_append, Nat.add_assoc]
  · rw [h'.invalid, h.invalid, List.countP_append, Nat.add_assoc]

theorem toNat_add_one {n : UInt8} (h : n.toNat < 255) : (n + 1).toNat = n.toNat + 1 := by
  rw [UInt8.toNat_add]
  show (n.toNat + 1) % 256 = _
  omega

/-- **One attestation moves one counter by one.** -/
theorem tallied_count (hroom : t.total < 255) :
    Tallied roster digest verify t [a] (count roster digest verify t a) := by
  rw [Tally.total] at hroom
  cases hr : roster.relayer? a.index with
  | none =>
    have hvacant : Vacant roster a := isNone_relayer?.1 (by rw [hr]; rfl)
    have hunsigned : ¬ Signed roster digest verify a := fun ⟨e, hseated, _⟩ => hvacant e hseated
    simp only [count, hr]
    refine ⟨?_, ?_, ?_, rfl⟩
    · simp [hunsigned]
    · simp [hvacant, toNat_add_one (n := t.inactive) (by omega)]
    · simp [Unsigned, hvacant]
  | some e =>
    have hseated : roster.Seated a.index.toNat e := Roster.relayer?_eq_some.1 hr
    have hoccupied : ¬ Vacant roster a := fun hvacant => hvacant e hseated
    by_cases hv : verify e.publicKey digest a.signature = true
    · have hsigned : Signed roster digest verify a := ⟨e, hseated, hv⟩
      simp only [count, hr, hv, if_true]
      refine ⟨?_, ?_, ?_, rfl⟩
      · simp [hsigned, toNat_add_one (n := t.valid) (by omega)]
      · simp [hoccupied]
      · simp [Unsigned, hsigned]
    · have hunsigned : ¬ Signed roster digest verify a := by
        rintro ⟨e', hseated', hv'⟩
        obtain rfl := hseated.unique hseated'
        exact hv hv'
      simp only [count, hr, hv]
      refine ⟨?_, ?_, ?_, rfl⟩
      · simp [hunsigned]
      · simp [hoccupied]
      · simp [Unsigned, hunsigned, hoccupied, toNat_add_one (n := t.invalid) (by omega)]

/-- Every attestation is of exactly one kind. -/
theorem countP_kinds (roster : Roster) (digest : Digest) (verify : Verifier)
    (as : List Attestation) :
    (as.countP fun a => Signed roster digest verify a) + (as.countP fun a => Vacant roster a) +
      (as.countP fun a => Unsigned roster digest verify a) = as.length := by
  induction as with
  | nil => rfl
  | cons a as ih =>
    rw [List.countP_cons, List.countP_cons, List.countP_cons, List.length_cons]
    by_cases hvacant : Vacant roster a
    · have hsigned : ¬ Signed roster digest verify a := fun ⟨e, hseated, _⟩ => hvacant e hseated
      have hunsigned : ¬ Unsigned roster digest verify a := fun h => h.2 hvacant
      simp only [hvacant, hsigned, hunsigned, decide_true, decide_false, if_true,
        Bool.false_eq_true, if_false]
      omega
    · by_cases hsigned : Signed roster digest verify a
      · have hunsigned : ¬ Unsigned roster digest verify a := fun h => h.1 hsigned
        simp only [hvacant, hsigned, hunsigned, decide_true, decide_false, if_true,
          Bool.false_eq_true, if_false]
        omega
      · have hunsigned : Unsigned roster digest verify a := ⟨hsigned, hvacant⟩
        simp only [hvacant, hsigned, hunsigned, decide_true, decide_false, if_true,
          Bool.false_eq_true, if_false]
        omega

theorem Tallied.total_eq (h : Tallied roster digest verify t as t') :
    t'.total = t.total + as.length := by
  rw [Tally.total, h.valid, h.inactive, h.invalid, ← countP_kinds roster digest verify as,
    Tally.total]
  omega

/-- **A list is counted, each kind on its own counter**, where there is room for all of it. -/
theorem tallied_foldl (hroom : t.total + as.length ≤ 255) :
    Tallied roster digest verify t as (as.foldl (count roster digest verify) t) := by
  induction as generalizing t with
  | nil => exact ⟨rfl, rfl, rfl, rfl⟩
  | cons a as ih =>
    rw [List.length_cons] at hroom
    have hfirst : Tallied roster digest verify t [a] (count roster digest verify t a) :=
      tallied_count (by omega)
    have htotal := hfirst.total_eq
    rw [List.length_singleton] at htotal
    exact hfirst.append (ih (by omega))

/-- The count of a list of attestations that name different slots. -/
def counted (roster : Roster) (digest : Digest) (attestations : List Attestation)
    (verify : Verifier) : Tally :=
  attestations.foldl (count roster digest verify) { required := roster.required }

/-- **What a tally says**, of a list that is not too long. -/
theorem tallied_counted (hlen : attestations.length ≤ maxAttestations) :
    Tallied roster digest verify { required := roster.required } attestations
      (counted roster digest attestations verify) := by
  refine tallied_foldl ?_
  show 0 + attestations.length ≤ 255
  rw [maxAttestations, maxRelayers] at hlen
  omega

/-! ## The loop -/

/-- A list of attestations names no slot that was seen, and none twice. -/
def NamesNew (seen : List UInt8) (attestations : List Attestation) : Prop :=
  (attestations.map Attestation.index).Nodup ∧ ∀ a ∈ attestations, a.index ∉ seen

theorem namesNew_cons {a : Attestation} :
    NamesNew seen (a :: attestations) ↔ a.index ∉ seen ∧ NamesNew (a.index :: seen) attestations := by
  unfold NamesNew
  rw [List.map_cons, List.nodup_cons, List.forall_mem_cons]
  constructor
  · rintro ⟨⟨hnew, hnodup⟩, ha, hrest⟩
    refine ⟨ha, hnodup, fun b hb hmem => ?_⟩
    rcases List.mem_cons.1 hmem with heq | hseen
    · exact hnew (heq ▸ List.mem_map_of_mem hb)
    · exact hrest b hb hseen
  · rintro ⟨ha, hnodup, hrest⟩
    refine ⟨⟨fun hmem => ?_, hnodup⟩, ha, fun b hb hseen => ?_⟩
    · obtain ⟨b, hb, hindex⟩ := List.mem_map.1 hmem
      exact hrest b hb (hindex ▸ List.mem_cons_self)
    · exact hrest b hb (List.mem_cons_of_mem _ hseen)

theorem namesNew_nil : NamesNew [] attestations ↔ (attestations.map Attestation.index).Nodup := by
  simp [NamesNew]

/-- **The loop counts plainly, and sees every slot once.** -/
theorem countAll_eq_ok_iff : countAll roster digest verify t seen attestations = .ok t' ↔
    NamesNew seen attestations ∧ attestations.foldl (count roster digest verify) t = t' := by
  -- the table grows with the list, so what is said of it is said of every table
  induction attestations generalizing t seen with
  | nil => simp [countAll, NamesNew]
  | cons a rest ih =>
    rw [countAll, except_bind_eq_ok, namesNew_cons]
    simp only [require_eq_ok, ih, List.foldl_cons, exists_const, and_assoc]

theorem tally_eq_ok_iff : tally roster digest attestations verify = .ok t ↔
    attestations.length ≤ maxAttestations ∧ (attestations.map Attestation.index).Nodup ∧
      counted roster digest attestations verify = t := by
  rw [tally, except_bind_eq_ok]
  simp only [require_eq_ok, countAll_eq_ok_iff, namesNew_nil, exists_const]
  rfl

/-- A quorum is a tally that is enough. -/
theorem check_eq_ok_iff : check roster digest attestations verify = .ok t ↔
    tally roster digest attestations verify = .ok t ∧ 1 ≤ roster.required ∧
      roster.required ≤ t.valid := by
  rw [check, except_bind_eq_ok]
  constructor
  · rintro ⟨t', htally, h⟩
    obtain ⟨hlen, -, hcounted⟩ := tally_eq_ok_iff.1 htally
    have hrequired : t'.required = roster.required := hcounted ▸ (tallied_counted hlen).required
    by_cases hmet : t'.isMet = true
    · rw [if_pos hmet, except_pure_eq_ok] at h
      subst h
      rw [Tally.isMet, Bool.and_eq_true, decide_eq_true_eq, decide_eq_true_eq, hrequired] at hmet
      exact ⟨htally, hmet⟩
    · rw [if_neg hmet] at h
      cases h
  · rintro ⟨htally, henough⟩
    obtain ⟨hlen, -, hcounted⟩ := tally_eq_ok_iff.1 htally
    have hrequired : t.required = roster.required := hcounted ▸ (tallied_counted hlen).required
    have hmet : t.isMet = true := by
      rw [Tally.isMet, Bool.and_eq_true, decide_eq_true_eq, decide_eq_true_eq, hrequired]
      exact henough
    exact ⟨t, htally, by rw [if_pos hmet]; rfl⟩

/-! ## Quorums of keys -/

/-- A digest is backed: the roster asks for at least one signature, and as many as it asks for
are there, of relayers in different slots, under different keys. -/
structure Backed (roster : Roster) (digest : Digest) (attestations : List Attestation)
    (verify : Verifier) : Prop where
  asked : 1 ≤ roster.required
  signed : ∃ signers : List (Attestation × Relayer),
    roster.required.toNat ≤ signers.length ∧
    (signers.map Prod.fst).Sublist attestations ∧
    (signers.map fun s => s.1.index).Nodup ∧
    (signers.map fun s => s.2.publicKey).Nodup ∧
    ∀ s ∈ signers, roster.Seated s.1.index.toNat s.2 ∧
      verify s.2.publicKey digest s.1.signature = true

/-- Relayers in different slots have different keys. -/
theorem nodup_publicKeys (hkeys : Roster.KeysDistinct roster.slots)
    {signers : List (Attestation × Relayer)}
    (hseated : ∀ s ∈ signers, roster.Seated s.1.index.toNat s.2)
    (hslots : (signers.map fun s => s.1.index).Nodup) :
    (signers.map fun s => s.2.publicKey).Nodup := by
  refine List.pairwise_map.2 ((List.pairwise_map.1 hslots).imp_of_mem ?_)
  intro s s' hs hs' hne hkey
  refine hne (UInt8.toNat_inj.1 ?_)
  exact hkeys _ _ _ _ (hseated s hs) (hseated s' hs') hkey

/-- **A count that is enough is a digest that is backed.** -/
theorem backed_of_check (hkeys : Roster.KeysDistinct roster.slots)
    (h : check roster digest attestations verify = .ok t) :
    Backed roster digest attestations verify := by
  obtain ⟨htally, hasked, hle⟩ := check_eq_ok_iff.1 h
  obtain ⟨hlen, hnodup, rfl⟩ := tally_eq_ok_iff.1 htally
  have hbacked : ∀ s ∈ backers roster digest verify attestations,
      roster.Seated s.1.index.toNat s.2 ∧ verify s.2.publicKey digest s.1.signature = true :=
    fun s hs => backed_of_mem_backers hs
  have hsub := map_fst_backers_sublist roster digest verify attestations
  have hslots : ((backers roster digest verify attestations).map fun s => s.1.index).Nodup := by
    have hmap := hnodup.sublist (hsub.map Attestation.index)
    rwa [List.map_map] at hmap
  refine ⟨hasked, backers roster digest verify attestations, ?_, hsub, hslots,
    nodup_publicKeys hkeys (fun s hs => (hbacked s hs).1) hslots, hbacked⟩
  rw [UInt8.le_iff_toNat_le, (tallied_counted hlen).valid, ← length_backers] at hle
  simpa using hle

end Quorum
end QuorumRelay
