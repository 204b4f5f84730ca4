import QuorumRelay.Proofs.Admission

/-!
# The tally counts exactly

A list of attestations is refused for its length or for a slot that it names
twice, and is counted otherwise.  Neither of the two reasons looks at the order
of the list, and neither do the counters: each of them is the number of
attestations of one kind (`Quorum.Tallied`).  That the loop stops at the first
slot it has seen before does not show, since it gives the same reason wherever it
stops.

A quorum is a tally that is enough, so what has one keeps it when an attestation
is added: the counter of what is signed does not go down.  It is the two refusals
that an addition has to avoid.
-/

namespace QuorumRelay
namespace Quorum

variable {roster : Roster} {digest : Digest} {verify : Verifier}
  {attestations attestations' : List Attestation} {t t' : Tally} {a : Attestation}

/-- A tally is its counters. -/
theorem Tallied.unique {start : Tally} (h : Tallied roster digest verify start attestations t)
    (h' : Tallied roster digest verify start attestations t') : t = t' := by
  obtain ⟨valid, inactive, invalid, required⟩ := t
  obtain ⟨valid', inactive', invalid', required'⟩ := t'
  obtain rfl : valid = valid' := UInt8.toNat_inj.1 (h.valid.trans h'.valid.symm)
  obtain rfl : inactive = inactive' := UInt8.toNat_inj.1 (h.inactive.trans h'.inactive.symm)
  obtain rfl : invalid = invalid' := UInt8.toNat_inj.1 (h.invalid.trans h'.invalid.symm)
  obtain rfl : required = required' := h.required.trans h'.required.symm
  rfl

/-- A list is counted as any other order of it. -/
theorem Tallied.perm {start : Tally} (h : Tallied roster digest verify start attestations t)
    (hperm : attestations.Perm attestations') :
    Tallied roster digest verify start attestations' t where
  valid := hperm.countP_eq _ ▸ h.valid
  inactive := hperm.countP_eq _ ▸ h.inactive
  invalid := hperm.countP_eq _ ▸ h.invalid
  required := h.required

theorem tally_eq_too_many :
    tally roster digest attestations verify = .error (.refused .tooManyAttestations) ↔
      maxAttestations < attestations.length := by
  rw [tally_follows.fails]
  simp

theorem tally_eq_duplicate :
    tally roster digest attestations verify = .error (.refused .duplicateSigner) ↔
      attestations.length ≤ maxAttestations ∧ ¬ (attestations.map Attestation.index).Nodup := by
  rw [tally_follows.fails]
  simp

/-- **The order of a list does not matter to its tally.** -/
theorem tally_perm (hperm : attestations.Perm attestations') :
    tally roster digest attestations' verify = tally roster digest attestations verify := by
  have hlen : attestations'.length = attestations.length := hperm.length_eq.symm
  have hnodup : (attestations'.map Attestation.index).Nodup ↔
      (attestations.map Attestation.index).Nodup := (hperm.map _).nodup_iff.symm
  by_cases hmany : maxAttestations < attestations.length
  · rw [tally_eq_too_many.2 hmany, tally_eq_too_many.2 (hlen ▸ hmany)]
  · have hle : attestations.length ≤ maxAttestations := Nat.le_of_not_lt hmany
    by_cases htwice : (attestations.map Attestation.index).Nodup
    · rw [tally_eq_ok_iff.2 ⟨hle, htwice, rfl⟩, tally_eq_ok_iff]
      refine ⟨hlen ▸ hle, hnodup.2 htwice, ?_⟩
      exact (tallied_counted (hlen ▸ hle)).unique ((tallied_counted hle).perm hperm)
    · rw [tally_eq_duplicate.2 ⟨hle, htwice⟩, tally_eq_duplicate.2 ⟨hlen ▸ hle, mt hnodup.1 htwice⟩]

/-- A digest has a quorum exactly if asking for one does not fail. -/
theorem holds_iff : holds roster digest attestations verify = true ↔
    ∃ t, check roster digest attestations verify = .ok t := by
  rw [holds, check]
  cases tally roster digest attestations verify with
  | error f => simp [bind, Except.bind]
  | ok t => by_cases hmet : t.isMet = true <;> simp [bind, Except.bind, hmet, throw, throwThe,
      MonadExceptOf.throw, pure, Except.pure]

/-- A digest has a quorum exactly if the list is in order and enough of it is signed. -/
theorem exists_check_iff : (∃ t, check roster digest attestations verify = .ok t) ↔
    attestations.length ≤ maxAttestations ∧ (attestations.map Attestation.index).Nodup ∧
      1 ≤ roster.required ∧ roster.required.toNat ≤
        attestations.countP fun a => Signed roster digest verify a := by
  simp only [check_eq_ok_iff, tally_eq_ok_iff]
  constructor
  · rintro ⟨t, ⟨hlen, hnodup, rfl⟩, hasked, henough⟩
    rw [UInt8.le_iff_toNat_le, (tallied_counted hlen).valid] at henough
    exact ⟨hlen, hnodup, hasked, by simpa using henough⟩
  · rintro ⟨hlen, hnodup, hasked, henough⟩
    refine ⟨_, ⟨hlen, hnodup, rfl⟩, hasked, ?_⟩
    rw [UInt8.le_iff_toNat_le, (tallied_counted hlen).valid]
    simpa using henough

/-- **An attestation that names a new slot does not undo a quorum**, if the list has room. -/
theorem exists_check_append (h : ∃ t, check roster digest attestations verify = .ok t)
    (hnew : a.index ∉ attestations.map Attestation.index)
    (hroom : attestations.length < maxAttestations) :
    ∃ t, check roster digest (attestations ++ [a]) verify = .ok t := by
  obtain ⟨-, hnodup, hasked, henough⟩ := exists_check_iff.1 h
  refine exists_check_iff.2 ⟨?_, ?_, hasked, ?_⟩
  · rw [List.length_append, List.length_singleton]
    omega
  · rw [List.map_append, List.map_singleton, List.nodup_append]
    refine ⟨hnodup, List.nodup_singleton _, ?_⟩
    rintro i hi j hj rfl
    exact hnew (List.mem_singleton.1 hj ▸ hi)
  · rw [List.countP_append]
    omega

/-- **The tally counts exactly, in any order.**  A list that is too long is refused for that,
another one that names a slot twice is refused for that, and every other one is counted: how many
of its attestations are signed under the key of an occupied slot, how many name a slot that is
empty or does not exist, and how many are left, which together are all of them.  So the order of
the list does not matter.  A digest has a quorum exactly if asking for one succeeds, which is if
the roster asks for at least one signature and as many are counted; and it keeps its quorum when
an attestation for a new slot is added to a list that has room for it. -/
theorem tally_exactly (roster : Roster) (digest : Digest) (verify : Verifier)
    (attestations : List Attestation) :
    (tally roster digest attestations verify = .error (.refused .tooManyAttestations) ↔
      32 < attestations.length) ∧
    (tally roster digest attestations verify = .error (.refused .duplicateSigner) ↔
      attestations.length ≤ 32 ∧ ¬ (attestations.map Attestation.index).Nodup) ∧
    (attestations.length ≤ 32 → (attestations.map Attestation.index).Nodup →
      ∃ t, tally roster digest attestations verify = .ok t ∧
        t.valid.toNat = (attestations.countP fun a => Signed roster digest verify a) ∧
        t.inactive.toNat = (attestations.countP fun a => Vacant roster a) ∧
        t.invalid.toNat = (attestations.countP fun a => Unsigned roster digest verify a) ∧
        t.valid.toNat + t.inactive.toNat + t.invalid.toNat = attestations.length ∧
        t.required = roster.required) ∧
    (∀ attestations', attestations.Perm attestations' →
      tally roster digest attestations' verify = tally roster digest attestations verify) ∧
    (holds roster digest attestations verify = true ↔
      ∃ t, check roster digest attestations verify = .ok t) ∧
    (∀ t, check roster digest attestations verify = .ok t ↔
      tally roster digest attestations verify = .ok t ∧ 1 ≤ roster.required ∧
        roster.required ≤ t.valid) ∧
    ∀ a, holds roster digest attestations verify = true →
      a.index ∉ attestations.map Attestation.index → attestations.length + 1 ≤ 32 →
      holds roster digest (attestations ++ [a]) verify = true := by
  refine ⟨tally_eq_too_many, tally_eq_duplicate, ?_, ?_, holds_iff, fun t => check_eq_ok_iff, ?_⟩
  · intro hlen hnodup
    have hcounted : Tallied roster digest verify { required := roster.required } attestations
        (counted roster digest attestations verify) := tallied_counted hlen
    refine ⟨_, tally_eq_ok_iff.2 ⟨hlen, hnodup, rfl⟩, ?_, ?_, ?_, ?_, hcounted.required⟩
    · exact hcounted.valid.trans (Nat.zero_add _)
    · exact hcounted.inactive.trans (Nat.zero_add _)
    · exact hcounted.invalid.trans (Nat.zero_add _)
    · exact hcounted.total_eq.trans (Nat.zero_add _)
  · exact fun attestations' hperm => tally_perm hperm
  · intro a hholds hnew hroom
    exact holds_iff.2 (exists_check_append (holds_iff.1 hholds) hnew hroom)

/-- Of three attestations one is signed, one is not, and one names an empty slot: they are counted
as one of each in both directions, and a fourth for a slot far behind the last does no harm. -/
theorem tally_exactly_of_three :
    let roster : Roster := { required := 1, active := 2, slots := [some {}, none, some {}] }
    let good : Signature := .replicate 64 1
    let verify : Verifier := fun _ _ signature => signature = good
    let attestations : List Attestation := [⟨0, good⟩, ⟨1, good⟩, ⟨2, .zero⟩]
    (∃ t, tally roster .zero attestations verify = .ok t ∧
      t.valid.toNat + t.inactive.toNat + t.invalid.toNat = 3 ∧ t.valid.toNat = 1) ∧
      tally roster .zero attestations.reverse verify = tally roster .zero attestations verify ∧
      tally roster .zero (attestations ++ attestations) verify =
        .error (.refused .duplicateSigner) ∧
      holds roster .zero (attestations ++ [⟨200, good⟩]) verify = true := by
  intro roster good verify attestations
  obtain ⟨-, -, hcounted, hperm, -, -, hadded⟩ := tally_exactly roster .zero verify attestations
  obtain ⟨-, htwice, -⟩ := tally_exactly roster .zero verify (attestations ++ attestations)
  obtain ⟨t, ht, hvalid, -, -, htotal, -⟩ := hcounted (by decide) (by decide)
  refine ⟨⟨t, ht, htotal, hvalid.trans (by decide)⟩, hperm _ attestations.reverse_perm.symm,
    htwice.2 ⟨by decide, by decide⟩, hadded _ (by decide) (by decide) (by decide)⟩

end Quorum
end QuorumRelay
