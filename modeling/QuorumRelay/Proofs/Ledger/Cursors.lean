import Mathlib.Data.List.Chain
import QuorumRelay.Proofs.Ledger.Effect

/-!
# What becomes of a sender's cursor

The cursor of a sender on a chain is created once and only moves on.  This file
says so for one instruction: `CursorStep` lists the three things that can happen
to one cursor, and `Effect.cursorStep` finds one of them in each of the
twenty-four cases of an effect.

## Which cursor a message moves

Executing a message takes any cursor that it is handed; the account is not named
by its seeds.  On a strict chain the record has to bear the message's chain and
sender.  `Books.Named` says that a cursor bears what its place is named for, so
the place is the message's too, and the sender's own cursor is the one that is
looked at and moved.  Where the chain is not strict any cursor may be handed
over, of this sender or of another; it is written back as it was.

Opening a cursor writes its chain and sender if they are not there yet, and that
can happen to a cursor which has been used only if the sender's hash is zero.
The last nonce is left alone in any case.
-/

namespace QuorumRelay

namespace Books

/-- A chain asks for the order of nonces. -/
def strict (books : Books) (source : ChainId) : Bool :=
  match books (.chain source) with
  | some c => c.limits.strictOrdering
  | none => false

/-- Writing back what was found changes nothing. -/
theorem move_found {books : Books} {found : Option (ChainId × Digest × Cursor)}
    (h : ∀ source senderKey k, found = some (source, senderKey, k) →
      books (.cursor source senderKey) = some k) :
    books.move found (found.map fun k => k.2.2) = books := by
  cases found with
  | none => rfl
  | some found =>
    obtain ⟨source, senderKey, k⟩ := found
    exact Function.update_eq_self_iff.2 (h source senderKey k rfl).symm

/-- **Cursors are where their chains and senders say.** -/
def Named (books : Books) : Prop :=
  ∀ source senderKey c, books (.cursor source senderKey) = some c →
    c.sourceChain = source ∧ c.senderKey = senderKey

end Books

/-- The nonce of the message that an instruction executed by itself, if it is a message of this
sender and its chain was strict. -/
def Instruction.ordered (i : Instruction) (before : Books) (attempts : List Digest)
    (source : ChainId) (senderKey : Digest) : List Nonce :=
  match i with
  | ⟨.processMessage, digest, m, _⟩ =>
    if digest ∈ attempts ∧ m.sourceChain = source ∧ Digest.ofSender m.sender = senderKey ∧
        before.strict source = true then [m.sourceNonce] else []
  | _ => []

/-- **What an instruction makes of the cursor of one sender on one chain.**  It gives `nonces` in
order to that sender. -/
inductive CursorStep (before after : Books) (nonces : List Nonce) (source : ChainId)
    (senderKey : Digest) : Prop
  | kept (idle : nonces = [])
      (same : after (.cursor source senderKey) = before (.cursor source senderKey))
  | opened (c c' : Cursor) (idle : nonces = [])
      (held : before.Holds (.cursor source senderKey) c)
      (stored : after (.cursor source senderKey) = some c')
      (last : c'.lastNonce = c.lastNonce)
      (named : c'.sourceChain = source ∧ c'.senderKey = senderKey)
  | advanced (c : Cursor) (n : Nonce) (once : nonces = [n])
      (held : before (.cursor source senderKey) = some c)
      (above : ∀ last, c.lastNonce = some last → last < n)
      (stored : after (.cursor source senderKey) = some (c.advance n))

section

variable {before after : Books} {nonces more : List Nonce} {source : ChainId} {senderKey : Digest}

/-! ## What a step keeps -/

/-- Cursors stay where their chains and senders say. -/
theorem CursorStep.named (h : ∀ source senderKey, ∃ nonces,
    CursorStep before after nonces source senderKey) (hnamed : before.Named) : after.Named := by
  intro source senderKey c hc
  obtain ⟨nonces, hstep⟩ := h source senderKey
  cases hstep with
  | kept idle same => exact hnamed source senderKey c (same ▸ hc)
  | opened c₀ c' idle held stored last named =>
    rw [stored] at hc
    cases hc
    exact named
  | advanced c₀ n once held above stored =>
    rw [stored] at hc
    cases hc
    exact hnamed source senderKey c₀ held

/-- The cursor holds the last of the nonces; without a cursor there was none. -/
def Books.Tracks (books : Books) (nonces : List Nonce) (source : ChainId) (senderKey : Digest) :
    Prop :=
  match books (.cursor source senderKey) with
  | some c => c.lastNonce = nonces.getLast?
  | none => nonces = []

theorem Books.tracks_of_some {books : Books} {c : Cursor}
    (h : books (.cursor source senderKey) = some c) :
    books.Tracks nonces source senderKey ↔ c.lastNonce = nonces.getLast? := by
  rw [Tracks, h]

theorem Books.tracks_of_none {books : Books} (h : books (.cursor source senderKey) = none) :
    books.Tracks nonces source senderKey ↔ nonces = [] := by
  rw [Tracks, h]

/-- **The cursor goes on holding the last nonce.** -/
theorem CursorStep.tracks (h : CursorStep before after more source senderKey)
    (htracks : before.Tracks nonces source senderKey) :
    after.Tracks (nonces ++ more) source senderKey := by
  cases h with
  | kept idle same =>
    rw [idle, List.append_nil, Books.Tracks, same]
    exact htracks
  | opened c c' idle held stored last named =>
    rw [idle, List.append_nil, Books.tracks_of_some stored, last]
    rcases held with hheld | ⟨hnone, rfl⟩
    · exact (Books.tracks_of_some hheld).1 htracks
    · rw [(Books.tracks_of_none hnone).1 htracks]
      rfl
  | advanced c n once held above stored =>
    rw [once, Books.tracks_of_some stored, List.getLast?_concat]
    rfl

/-- **The nonces go on growing.** -/
theorem CursorStep.isChain (h : CursorStep before after more source senderKey)
    (htracks : before.Tracks nonces source senderKey) (hchain : nonces.IsChain (· < ·)) :
    (nonces ++ more).IsChain (· < ·) := by
  cases h with
  | kept idle | opened _ _ idle =>
    rw [idle, List.append_nil]
    exact hchain
  | advanced c n once held above stored =>
    have hlast := (Books.tracks_of_some held).1 htracks
    subst once
    refine List.isChain_append.2 ⟨hchain, List.isChain_singleton n, fun last hmem next hnext => ?_⟩
    obtain rfl : n = next := by simpa using hnext
    exact above last (hlast.trans hmem)

/-- **A nonce that a cursor holds is never lowered**, and the cursor is never taken away. -/
theorem CursorStep.exists_le (h : CursorStep before after more source senderKey) {c : Cursor}
    (hc : before (.cursor source senderKey) = some c) :
    ∃ c', after (.cursor source senderKey) = some c' ∧
      ∀ n, c.lastNonce = some n → ∃ n', c'.lastNonce = some n' ∧ n ≤ n' := by
  cases h with
  | kept idle same => exact ⟨c, same.trans hc, fun n hn => ⟨n, hn, UInt64.le_refl n⟩⟩
  | opened c₀ c' idle held stored last named =>
    refine ⟨c', stored, fun n hn => ⟨n, ?_, UInt64.le_refl n⟩⟩
    rcases held with hheld | ⟨hnone, -⟩
    · obtain rfl : c₀ = c := by simpa [hc] using hheld.symm
      exact last.trans hn
    · rw [hnone] at hc
      cases hc
  | advanced c₀ n once held above stored =>
    obtain rfl : c₀ = c := by simpa [hc] using held.symm
    exact ⟨c₀.advance n, stored, fun last hlast => ⟨n, rfl, UInt64.le_of_lt (above last hlast)⟩⟩

end

/-! ## All instructions -/

/-- On a strict chain a message comes with its sender's cursor, and goes beyond it. -/
theorem Inbound.exists_cursor_of_checkOrder {c : Chain} {cursor : Option Cursor}
    {m : InboundMessage} (hstrict : c.limits.strictOrdering = true)
    (h : checkOrder c cursor m = .ok ()) :
    ∃ k, cursor = some k ∧
      (k.sourceChain = m.sourceChain ∧ k.senderKey = Digest.ofSender m.sender) ∧
      ∀ last, k.lastNonce = some last → last < m.sourceNonce := by
  unfold checkOrder at h
  rw [if_pos hstrict] at h
  cases cursor with
  | none => cases h
  | some k =>
    unfold Cursor.checkMatches Cursor.checkNonce at h
    simp only [except_bind_eq_ok, require_eq_ok, exists_const] at h
    obtain ⟨hmatches, hnonce⟩ := h
    refine ⟨k, rfl, hmatches, fun last hlast => ?_⟩
    rw [hlast] at hnonce
    exact require_eq_ok.1 hnonce

variable {env : Environment} {A : List Passed} {spendable : Amount} {before after : Books}
  {i : Instruction} {t : Trace}

/-- **Every instruction leaves a cursor alone, opens it, or moves it on.** -/
theorem Effect.cursorStep (h : Effect env A spendable before i after t) (hnamed : before.Named)
    (source : ChainId) (senderKey : Digest) :
    CursorStep before after (i.ordered before t.attempts source senderKey) source senderKey := by
  cases h with
  | openCursor hsigned hheld hchecked =>
    rename_i source' sender payer c
    by_cases hplace : Place.cursor source senderKey = .cursor source' (Digest.ofSender sender)
    · cases hplace
      refine .opened c _ rfl hheld (Books.put_self ..) ?_ ?_
      · split <;> rfl
      · split
        · exact ⟨rfl, rfl⟩
        · rename_i hused
          rcases hheld with hheld | ⟨-, rfl⟩
          · exact hnamed _ _ c hheld
          · exact absurd rfl hused
    · exact .kept rfl (Books.put_of_ne _ _ hplace)
  | processMessage given hsigned hbridge hchain hroster hheld hvault hcursor hnonzero hown hproven
      hliquid hstep hpaid =>
    rename_i digest m attestations submitter b c r receipt v cursor proven liquidity executor world
      o s payments
    have hothers : ∀ chain roster receipt source senderKey,
        (((before.put (.chain m.sourceChain) chain).put .roster roster).put (.receipt digest)
          receipt) (.cursor source senderKey) = before (.cursor source senderKey) :=
      fun _ _ _ _ _ => by simp [Books.put_of_ne]
    have hstrict : before.strict m.sourceChain = c.limits.strictOrdering := by
      rw [Books.strict, hchain]
    have hmoved := hstep.cursor
    cases horder : c.limits.strictOrdering with
    | true =>
      -- the cursor that was handed over is the message's own
      obtain ⟨k, hk, hmatches, habove⟩ := Inbound.exists_cursor_of_checkOrder horder hstep.order
      obtain ⟨⟨source', senderKey', k'⟩, rfl, rfl⟩ := Option.map_eq_some_iff.1 hk
      have hcursor' := hcursor source' senderKey' _ rfl
      obtain ⟨rfl, rfl⟩ := hnamed source' senderKey' _ hcursor'
      have hmoved : s.cursor = some (k'.advance m.sourceNonce) := by
        rw [hmoved, if_pos horder]
        rfl
      rw [hmoved, Books.move]
      by_cases hplace : Place.cursor source senderKey = .cursor k'.sourceChain k'.senderKey
      · cases hplace
        refine .advanced k' m.sourceNonce (if_pos ?_) hcursor' habove (Books.put_self ..)
        exact ⟨List.mem_singleton.2 rfl, hmatches.1.symm, hmatches.2.symm,
          by rw [hmatches.1, hstrict, horder]⟩
      · refine .kept (if_neg ?_) ((Books.put_of_ne _ _ hplace).trans (hothers _ _ _ _ _))
        rintro ⟨-, hsource, hsender, -⟩
        exact hplace (by rw [hmatches.1, hmatches.2, hsource, hsender])
    | false =>
      -- whatever cursor was handed over is written back as it was
      have hmoved : s.cursor = cursor.map fun k => k.2.2 := by
        rw [hmoved, if_neg (by simp [horder])]
      have hidle : Instruction.ordered ⟨.processMessage, digest, m, attestations⟩ before [digest]
          source senderKey = [] := by
        refine if_neg ?_
        rintro ⟨-, hsource, -, hasked⟩
        rw [← hsource, hstrict, horder] at hasked
        cases hasked
      refine .kept hidle ?_
      rw [hmoved, Books.move_found fun source senderKey k hfound => ?_]
      · exact hothers _ _ _ source senderKey
      · exact (hothers _ _ _ source senderKey).trans (hcursor source senderKey k hfound)
  | processBatch given hsigned hbridge hchain hroster hvault hheld hproven hliquid hstep hpaid =>
    refine .kept rfl ?_
    rw [Books.put_of_ne _ _ (by simp), Books.put_of_ne _ _ (by simp),
      Books.close_of_ne (q := .cursor source senderKey) nofun]
  | _ => exact .kept rfl (by simp [Books.put_of_ne])

/-- **No batch is executed on a strict chain.** -/
theorem Effect.not_strict_of_batch {messages : List InboundMessage}
    {attestations : List Attestation} {extras : List UInt8}
    (h : Effect env A spendable before ⟨.processBatch, messages, attestations, extras⟩ after t)
    {m : InboundMessage} (hm : m ∈ messages) : before.strict m.sourceChain = false := by
  cases h with
  | processBatch given hsigned hbridge hchain hroster hvault hheld hproven hliquid hstep hpaid =>
    rw [hstep.chains m hm, Books.strict, hchain]
    exact hstep.unordered

end QuorumRelay
