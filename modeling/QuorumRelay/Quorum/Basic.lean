import QuorumRelay.Inbound.Message
import QuorumRelay.Quorum.Evidence
import QuorumRelay.Roster

/-!
# Quorums

A digest has a quorum when enough relayers that are registered now have signed
it.  Each attestation names a slot; naming one slot twice rejects the whole list,
so every valid signature comes from a slot of its own.  A relayer that has left
counts for nothing, even if it signed before it left.
-/

namespace QuorumRelay

/-- Most attestations in one list. -/
def maxAttestations : Nat := maxRelayers

namespace Quorum

/-- Count one attestation. -/
def count (roster : Roster) (digest : Digest) (verify : Verifier) (t : Tally) (a : Attestation) :
    Tally :=
  match roster.relayer? a.index with
  | none => { t with inactive := t.inactive + 1 }
  | some entry =>
    if verify entry.publicKey digest a.signature then { t with valid := t.valid + 1 }
    else { t with invalid := t.invalid + 1 }

/-- Count attestations one by one, refusing a slot that was seen before. -/
def countAll (roster : Roster) (digest : Digest) (verify : Verifier) :
    Tally → List UInt8 → List Attestation → Except Fault Tally
  | t, _, [] => .ok t
  | t, seen, a :: rest => do
    require (a.index ∉ seen) .duplicateSigner
    countAll roster digest verify (count roster digest verify t a) (a.index :: seen) rest

/-- The count of a list of attestations over a digest. -/
def tally (roster : Roster) (digest : Digest) (attestations : List Attestation)
    (verify : Verifier) : Except Fault Tally := do
  require (attestations.length ≤ maxAttestations) .tooManyAttestations
  countAll roster digest verify { required := roster.required } [] attestations

/-- Whether a digest has a quorum. -/
def holds (roster : Roster) (digest : Digest) (attestations : List Attestation)
    (verify : Verifier) : Bool :=
  match tally roster digest attestations verify with
  | .ok t => t.isMet
  | .error _ => false

/-- The count of a quorum; a count that falls short is the reason for refusal. -/
def check (roster : Roster) (digest : Digest) (attestations : List Attestation)
    (verify : Verifier) : Except Fault Tally := do
  let t ← tally roster digest attestations verify
  if t.isMet then return t else throw (.quorumNotMet t)

end Quorum

end QuorumRelay
