import QuorumRelay.Chain
import QuorumRelay.Proofs.Conditions
import QuorumRelay.Proofs.Quorum

/-!
# What chains and quorums ask for

The checks that both directions of traffic share, each with the conditions that
it goes by: a chain's pause, its limits on a message, its rate window, and a
quorum over a digest.

A rate window can refuse for two reasons.  The count may leave its 32 bits, and
it may pass the limit; the first is looked at first, although the second is what
a limit is for.

A quorum that falls short reports how it was counted, and where no slot stands
twice that is the plain count over the list (`Quorum.counted`).
-/

namespace QuorumRelay

open Condition

/-! ## Amounts -/

namespace Amount

variable {a b c : Amount}

/-- A sum that fits is the true one. -/
theorem toNat_add (h : a.toNat + b.toNat < UInt64.size) : (a + b).toNat = a.toNat + b.toNat := by
  rw [UInt64.toNat_add]
  exact Nat.mod_eq_of_lt h

/-- A sum that was computed fits, and is the sum. -/
theorem eq_add_of_toNat (h : c.toNat = a.toNat + b.toNat) :
    a.toNat + b.toNat < UInt64.size ∧ c = a + b := by
  have hfits : a.toNat + b.toNat < UInt64.size := h ▸ c.toNat_lt
  exact ⟨hfits, UInt64.toNat_inj.1 (h.trans (toNat_add hfits).symm)⟩

theorem fit_follows {value : Nat} :
    Follows (fit value) [requires (value < UInt64.size) .arithmeticOverflow] where
  passes := by
    simp only [fit_eq_ok_iff, allHold_cons, holds_requires, allHold_nil, and_true]
    refine ⟨?_, fun h => ⟨_, UInt64.toNat_ofNat_of_lt' h⟩⟩
    rintro ⟨a, rfl⟩
    exact a.toNat_lt
  fails f := by
    simp [fit_eq_error_iff]

theorem plus_follows :
    Follows (a.plus b) [requires (a.toNat + b.toNat < UInt64.size) .arithmeticOverflow] :=
  fit_follows

end Amount

/-! ## Rate windows -/

namespace RateWindow

variable {w : RateWindow} {now epochLength : Slot} {limit count : UInt32}

/-- The messages that the window in force holds, with some more. -/
def total (w : RateWindow) (now epochLength : Slot) (count : UInt32) : Nat :=
  (w.current now epochLength).count.toNat + count.toNat

/-- What a window asks for: its count fits, and stays within the limit. -/
def conditions (w : RateWindow) (now epochLength : Slot) (limit count : UInt32) :
    List Condition :=
  [requires (w.total now epochLength count < UInt32.size) .arithmeticOverflow,
   requires (w.total now epochLength count ≤ limit.toNat) .rateLimited]

/-- The window in force with some more messages. -/
def grown (w : RateWindow) (now epochLength : Slot) (count : UInt32) : RateWindow where
  start := (w.current now epochLength).start
  count := UInt32.ofNat (w.total now epochLength count)

theorem accept_follows :
    Follows (w.accept now epochLength limit count) (w.conditions now epochLength limit count) :=
  .bind (C := [_]) .require fun _ _ => .bind (C := [_]) .require fun _ _ => .pure _

theorem eq_grown_of_accept {w' : RateWindow} (h : w.accept now epochLength limit count = .ok w') :
    w' = w.grown now epochLength count := by
  unfold accept at h
  simp only [except_bind_eq_ok, require_eq_ok, except_pure_eq_ok] at h
  obtain ⟨-, -, -, -, rfl⟩ := h
  rfl

end RateWindow

/-! ## Chains -/

theorem Nonce.max_of_le {a b : Nonce} (h : a ≤ b) : max a b = b := if_pos h

theorem Nonce.max_of_ge {a b : Nonce} (h : b ≤ a) : max a b = a := by
  show (if a ≤ b then b else a) = a
  split
  · exact UInt64.le_antisymm h ‹_›
  · rfl

namespace Chain

variable {c : Chain} {size : Nat} {budget : UInt64}

/-- What a chain asks for of each message, in either direction. -/
def conditions (c : Chain) (size : Nat) (budget : UInt64) : List Condition :=
  [requires (c.active = true) .chainPaused,
   requires (size ≤ c.limits.maxMessageBytes.toNat) .messageTooLarge,
   requires (budget ≤ c.limits.maxComputeBudget) .computeBudgetExceeded]

/-- The highest nonce seen is the higher one. -/
theorem recordInboundNonce_eq (nonce : Nonce) (c : Chain) :
    recordInboundNonce nonce c = { c with highestInbound := max c.highestInbound nonce } := by
  unfold recordInboundNonce
  by_cases h : c.highestInbound < nonce
  · rw [if_pos h, Nonce.max_of_le (UInt64.le_of_lt h)]
  · rw [if_neg h, Nonce.max_of_ge (UInt64.not_lt.1 h)]

theorem checkActive_follows : Follows c.checkActive [requires (c.active = true) .chainPaused] :=
  .require

theorem checkLimits_follows : Follows (c.checkLimits size budget) (c.conditions size budget).tail :=
  .bind (C := [_]) .require fun _ _ => .require

end Chain

/-! ## Quorums -/

namespace Quorum

variable {roster : Roster} {digest : Digest} {verify : Verifier} {attestations : List Attestation}
  {t : Tally} {seen : List UInt8}

/-- What a quorum asks for: no more attestations than a roster has slots, no slot named twice,
and as many backed attestations as the roster needs, which needs at least one. -/
def conditions (roster : Roster) (digest : Digest) (attestations : List Attestation)
    (verify : Verifier) : List Condition :=
  [requires (attestations.length ≤ maxAttestations) .tooManyAttestations,
   requires (attestations.map Attestation.index).Nodup .duplicateSigner,
   .of (1 ≤ roster.required ∧
      roster.required.toNat ≤ (backers roster digest verify attestations).length)
    (.quorumNotMet (counted roster digest attestations verify))]

/-- The loop refuses a slot that is named twice, and refuses nothing else. -/
theorem countAll_follows : Follows (countAll roster digest verify t seen attestations)
    [requires (NamesNew seen attestations) .duplicateSigner] := by
  -- the table grows along the list, so what is said of it is said of every table
  induction attestations generalizing t seen with
  | nil =>
    refine (Follows.pure t).congr ?_ fun f => ?_ <;> simp [NamesNew]
  | cons a rest ih =>
    have hrow : Follows (countAll roster digest verify t seen (a :: rest))
        [requires (a.index ∉ seen) .duplicateSigner,
          requires (NamesNew (a.index :: seen) rest) .duplicateSigner] :=
      .bind (C := [_]) .require fun _ _ => ih
    rw [namesNew_cons]
    exact hrow.join

/-- **What a tally is refused for.** -/
theorem tally_follows : Follows (tally roster digest attestations verify)
    [requires (attestations.length ≤ maxAttestations) .tooManyAttestations,
     requires (attestations.map Attestation.index).Nodup .duplicateSigner] := by
  rw [← namesNew_nil]
  exact .bind (C := [_]) .require fun _ _ => countAll_follows

/-- The count is enough exactly if enough attestations are backed. -/
theorem isMet_counted (h : tally roster digest attestations verify = .ok t) :
    t.isMet = true ↔ 1 ≤ roster.required ∧
      roster.required.toNat ≤ (backers roster digest verify attestations).length := by
  obtain ⟨hlen, -, rfl⟩ := tally_eq_ok_iff.1 h
  have hcount : Tallied roster digest verify { required := roster.required } attestations
      (counted roster digest attestations verify) := tallied_counted hlen
  have hvalid : (counted roster digest attestations verify).valid.toNat =
      (backers roster digest verify attestations).length := by
    rw [hcount.valid, length_backers]
    exact Nat.zero_add _
  rw [Tally.isMet, Bool.and_eq_true, decide_eq_true_eq, decide_eq_true_eq, hcount.required,
    UInt8.le_iff_toNat_le (a := roster.required), hvalid]

/-- **What a quorum is refused for**, and in which order. -/
theorem check_follows : Follows (check roster digest attestations verify)
    (conditions roster digest attestations verify) := by
  refine .bind (C := [_, _]) tally_follows fun t ht => ?_
  rw [← isMet_counted ht, (tally_eq_ok_iff.1 ht).2.2]
  by_cases h : t.isMet = true
  · rw [if_pos h]
    refine (Follows.pure t).congr ?_ fun f => ?_ <;> simp [h]
  · rw [if_neg h]
    constructor
    · simp [h, throw, throwThe, MonadExceptOf.throw]
    · simp [h, throw, throwThe, MonadExceptOf.throw, eq_comm]

end Quorum
end QuorumRelay
