import QuorumRelay.Proofs.Evidence
import QuorumRelay.Proofs.Inbound.Batch
import QuorumRelay.Proofs.Keccak
import QuorumRelay.Proofs.Membership
import QuorumRelay.Proofs.Outbound.Queue
import QuorumRelay.Proofs.Quorum

/-!
# What is accepted is backed

Three steps act on the word of relayers: executing a message, executing a batch,
and confirming that an outbound message was delivered.  They ask for a quorum
over three different digests.  This file puts together what the other files say
of rosters, of the count and of the three steps.

## The statement, and what it leaves out

Whenever one of the steps gives a result, its digest is backed: the roster of
that moment asks for at least one signature, and as many as it asks for are among
the attestations, of relayers that sit in different slots under different keys.
Without that, the step fails and leaves everything as it was, so no destination
is called and no status changes on the word of too few.

Rosters are those that the program's own steps can build (`Roster.Reachable`);
for others the keys of two slots might be one.  What a relayer's key has signed
is what the verifier accepts, and the verifier that reads the transaction accepts
what is written there byte for byte.  That the host's Ed25519 program would not
let a wrong signature pass is the host's affair.
-/

namespace QuorumRelay

open Quorum (Backed)

/-- **Nothing is accepted without a quorum of different keys.**  For every roster that the
program's steps can build: what executing a message, executing a batch or confirming a delivery
accepts is backed, and each of them leaves everything as it was if it is not.  Of the verifier
that reads the log of the transaction, every signature it accepts is recorded there. -/
theorem accepted_is_backed {roster : Roster} (hroster : Roster.Reachable roster) :
    (∀ {ω : Type} (s : Inbound.Submission) (executor : Executor ω) (m : InboundMessage)
      (attestations : List Attestation) (st : Inbound.State ω), st.roster = roster →
      (∀ o st', Inbound.process s executor m attestations st = .ok o st' →
        Digest.ofMessage s.bridge.hostChain s.bridge.identity m = .ok o.digest ∧
          Backed roster o.digest attestations s.verify) ∧
      ∀ f st', Inbound.process s executor m attestations st = .error f st' →
        st' = st ∨ ∃ d, Digest.ofMessage s.bridge.hostChain s.bridge.identity m = .ok d ∧
          Backed roster d attestations s.verify) ∧
    (∀ {ω : Type} (s : Inbound.Submission) (executors : List (Executor ω))
      (messages : List InboundMessage) (attestations : List Attestation)
      (st : Inbound.BatchState ω), st.roster = roster →
      (∀ o st', Inbound.processBatch s executors messages attestations st = .ok o st' →
        ∃ ds, Inbound.digests s.bridge messages = .ok ds ∧ o.digest = Digest.ofBatch ds ∧
          Backed roster o.digest attestations s.verify) ∧
      ∀ f st', Inbound.processBatch s executors messages attestations st = .error f st' →
        st' = st ∨ ∃ ds, Inbound.digests s.bridge messages = .ok ds ∧
          Backed roster (Digest.ofBatch ds) attestations s.verify) ∧
    (∀ (attestations : List Attestation) (verify : Verifier) (s : Settlement),
      (∀ d s', Settlement.confirm roster attestations verify s = .ok d s' →
        d = s.confirmationDigest ∧ Backed roster d attestations verify) ∧
      ∀ f s', Settlement.confirm roster attestations verify s = .error f s' →
        s' = s ∨ Backed roster s.confirmationDigest attestations verify) ∧
    ∀ (log : InstructionLog) (proven : List ProvenSignature), Evidence.load log = .ok proven →
      ∀ publicKey digest signature,
        Evidence.verifier proven publicKey digest signature = true →
        Evidence.Recorded log ⟨publicKey, signature, digest.toList⟩ := by
  have hkeys := Roster.keysDistinct_of_reachable hroster
  refine ⟨?_, ?_, ?_, ?_⟩
  · rintro ω s executor m attestations st rfl
    refine ⟨fun o st' h => ?_, fun f st' h => ?_⟩
    · have hp := Inbound.processed_of_process h
      obtain ⟨t, hquorum⟩ := hp.quorum
      exact ⟨hp.digest, Quorum.backed_of_check hkeys hquorum⟩
    · refine (Inbound.eq_of_process_eq_error h).imp_right ?_
      rintro ⟨d, t, hdigest, hquorum⟩
      exact ⟨d, hdigest, Quorum.backed_of_check hkeys hquorum⟩
  · rintro ω s executors messages attestations st rfl
    refine ⟨fun o st' h => ?_, fun f st' h => ?_⟩
    · obtain ⟨ds, hb⟩ := Inbound.batched_of_processBatch h
      obtain ⟨t, hquorum⟩ := hb.quorum
      exact ⟨ds, hb.digests, hb.digest, Quorum.backed_of_check hkeys hquorum⟩
    · refine (Inbound.eq_of_processBatch_eq_error h).imp_right ?_
      rintro ⟨ds, t, hds, hquorum⟩
      exact ⟨ds, hds, Quorum.backed_of_check hkeys hquorum⟩
  · intro attestations verify s
    refine ⟨fun d s' h => ?_, fun f s' h => ?_⟩
    · obtain ⟨rfl, ⟨t, hquorum⟩, -⟩ := Settlement.confirm_eq_ok h
      exact ⟨rfl, Quorum.backed_of_check hkeys hquorum⟩
    · refine (Settlement.confirm_eq_error h).imp_right ?_
      rintro ⟨⟨t, hquorum⟩, -⟩
      exact Quorum.backed_of_check hkeys hquorum
  · intro log proven hload publicKey digest signature hv
    exact Evidence.recorded_of_verifier hload hv

/-- The governor admits a relayer with a key of its own. -/
def Roster.admitted (n : UInt8) (r : Roster) : Roster :=
  (Membership.register (fun _ => true) .zero 0 (.replicate 32 n) (.replicate 32 n) 1 0).after r

/-- A roster of two relayers, both of whom have to sign. -/
def Roster.pair : Roster :=
  (Membership.updateThreshold (fun _ => true) .zero 2).after (admitted 6 (admitted 5 {}))

/-- A message that a relayer has picked up. -/
def Settlement.pickedUp : Settlement where
  bridge := { hostChain := 1, lockedValue := 9 }
  message := { nonce := 3, destinationChain := 2, value := 5, status := .relayed }

/-- The digest that confirms its delivery. -/
def Settlement.pickedUpDigest : Digest :=
  .ofNat 32 0x8c510d21664bb56c2831fdd99df6cd6e5d457cf5e28764940a4a7dbb2111b479

/-- The two relayers' signatures over it. -/
def Settlement.countersignatures : List ProvenSignature :=
  [⟨.replicate 32 5, .replicate 64 1, pickedUpDigest.toList⟩,
   ⟨.replicate 32 6, .replicate 64 2, pickedUpDigest.toList⟩]

/-- A transaction that proves them before the running instruction. -/
def Settlement.countersigned : InstructionLog where
  instructions := [⟨ed25519Program, Evidence.encode countersignatures⟩]
  current := 1

theorem Settlement.confirmationDigest_pickedUp :
    pickedUp.confirmationDigest = pickedUpDigest := by
  delta confirmationDigest Digest.ofConfirmation
  rw [Keccak.keccak256_eq]
  decide +kernel

theorem Roster.reachable_pair : Reachable pair := by
  have hfirst : Reachable (admitted 5 {}) := .tail .refl (.register ..)
  have hsecond : Reachable (admitted 6 (admitted 5 {})) := .tail hfirst (.register ..)
  exact .tail hsecond (.updateThreshold ..)

open Settlement in
/-- Two relayers confirm the delivery of a message together: their signatures, from different slots
and under different keys, back it and are recorded in the transaction.  Neither the signature of one
nor that of the one in the place of the other's is enough. -/
theorem confirmed_by_pair :
    let verify := Evidence.verifier countersignatures
    Evidence.load countersigned = .ok countersignatures ∧
      (∃ s', Settlement.confirm Roster.pair
          [⟨0, .replicate 64 1⟩, ⟨1, .replicate 64 2⟩] verify pickedUp = .ok pickedUpDigest s' ∧
        s'.message.status = .confirmed ∧ s'.bridge.lockedValue = 4) ∧
      Backed Roster.pair pickedUpDigest [⟨0, .replicate 64 1⟩, ⟨1, .replicate 64 2⟩] verify ∧
      Evidence.Recorded countersigned
        ⟨.replicate 32 6, .replicate 64 2, pickedUpDigest.toList⟩ ∧
      Settlement.confirm Roster.pair [⟨0, .replicate 64 1⟩] verify pickedUp =
        .error (.quorumNotMet { valid := 1, required := 2 }) pickedUp ∧
      Settlement.confirm Roster.pair [⟨0, .replicate 64 1⟩, ⟨1, .replicate 64 1⟩] verify pickedUp =
        .error (.quorumNotMet { valid := 1, invalid := 1, required := 2 }) pickedUp := by
  intro verify
  have hload : Evidence.load countersigned = .ok countersignatures := by decide +kernel
  obtain ⟨-, -, hconfirm, hrecorded⟩ := accepted_is_backed Roster.reachable_pair
  obtain ⟨s', hrun, hstatus, hlocked⟩ : ∃ s', Settlement.confirm Roster.pair
      [⟨0, .replicate 64 1⟩, ⟨1, .replicate 64 2⟩] verify pickedUp = .ok pickedUpDigest s' ∧
      s'.message.status = .confirmed ∧ s'.bridge.lockedValue = 4 := by
    unfold Settlement.confirm
    rw [get_bind, confirmationDigest_pickedUp]
    exact ⟨_, rfl, rfl, rfl⟩
  refine ⟨hload, ⟨s', hrun, hstatus, hlocked⟩, ((hconfirm _ _ _).1 _ _ hrun).2,
    hrecorded countersigned _ hload _ _ _ ?_, ?_, ?_⟩
  · decide +kernel
  · unfold Settlement.confirm
    rw [get_bind, confirmationDigest_pickedUp]
    rfl
  · unfold Settlement.confirm
    rw [get_bind, confirmationDigest_pickedUp]
    rfl

end QuorumRelay
