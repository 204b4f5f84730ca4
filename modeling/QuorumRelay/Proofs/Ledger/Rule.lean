import QuorumRelay.Proofs.Ledger.Bridge
import QuorumRelay.Proofs.Ledger.Slots

/-!
# What is governed

The governing key has a say in four places: who governs and what is charged, in
the bridge's record; which chains there are and with what limits; how many have
to sign; and who sits in the roster.  The same records also hold what traffic
changes, such as windows, nonces and balances.  `Books.RuleKept` compares what is
governed and looks past the rest.

`Effect.ruleKept` says that without the governing key's signature all of it stays
as it was, except that a relayer may leave.  What was chosen when the bridge was
created stays in any case (`Effect.bridgeStep`).

## Leaving

A relayer leaves on its own word, so a slot that empties is no breach of the
rule.  Who may have left is a parameter of the comparison, since along a run it
depends on every instruction that came in between.
-/

namespace QuorumRelay

/-- Two records of a chain agree in all but its traffic. -/
def Chain.SameRule (c c' : Chain) : Prop :=
  c'.id = c.id ∧ c'.limits = c.limits ∧ c'.active = c.active

/-- **Two rosters agree in what a quorum needs and in who sits where**, except for owners that
vacated their slots. -/
structure Roster.SameRule (r r' : Roster) (vacates : Nat → Key → Prop) : Prop where
  required : r'.required = r.required
  seated : ∀ n e', r'.Seated n e' → ∃ e, r.Seated n e ∧ Roster.SameRelayer e e'
  stays : ∀ n e, r.Seated n e →
    (∃ e', r'.Seated n e' ∧ Roster.SameRelayer e e') ∨ r'.Free n ∧ vacates n e.owner

/-- **Nothing that is governed has changed**, except for owners that vacated their slots. -/
structure Books.RuleKept (before after : Books) (vacates : Nat → Key → Prop) : Prop where
  bridge : ∀ b, before .bridge = some b → ∃ b', after .bridge = some b' ∧ b.SameRule b'
  chains : ∀ n, Option.Rel Chain.SameRule (before (.chain n)) (after (.chain n))
  roster : ∀ r, before .roster = some r →
    ∃ r', after .roster = some r' ∧ r.SameRule r' vacates

/-! ## The records one by one -/

namespace Chain.SameRule

variable {c c' c'' : Chain}

theorem refl (c : Chain) : c.SameRule c := ⟨rfl, rfl, rfl⟩

theorem trans (h : c.SameRule c') (h' : c'.SameRule c'') : c.SameRule c'' :=
  ⟨h'.1.trans h.1, h'.2.1.trans h.2.1, h'.2.2.trans h.2.2⟩

/-- Where one chain is rewritten under its rule, every chain keeps its rule. -/
theorem rel_of_rewritten {before after : Books} {id : ChainId} (hrule : c.SameRule c')
    (hc : before (.chain id) = some c) (hc' : after (.chain id) = some c')
    (hothers : ∀ n, n ≠ id → after (.chain n) = before (.chain n)) (n : ChainId) :
    Option.Rel Chain.SameRule (before (.chain n)) (after (.chain n)) := by
  by_cases hn : n = id
  · subst hn
    rw [hc, hc']
    exact .some hrule
  · rw [hothers n hn]
    cases before (.chain n) with
    | none => exact .none
    | some c => exact .some (.refl c)

end Chain.SameRule

namespace Roster.SameRule

variable {r r' r'' : Roster} {vacates vacates' : Nat → Key → Prop} {n : Nat} {e : Relayer}

theorem refl (r : Roster) : r.SameRule r vacates where
  required := rfl
  seated _ e he := ⟨e, he, .refl e⟩
  stays _ e he := Or.inl ⟨e, he, .refl e⟩

/-- What a relayer has earned is not governed. -/
theorem of_earned (hseat : r.Seated n e) (earned : Amount) :
    r.SameRule (r.setSlot n (some { e with earned })) vacates where
  required := rfl
  seated m e' he' := by
    rw [seated_setSlot hseat.lt_length] at he'
    split at he'
    case isTrue hm =>
      cases he'
      exact ⟨e, hm ▸ hseat, rfl, rfl, rfl, rfl⟩
    case isFalse => exact ⟨e', he', .refl e'⟩
  stays m e' he' := by
    refine Or.inl ?_
    by_cases hm : m = n
    · subst hm
      obtain rfl := hseat.unique he'
      exact ⟨{ e' with earned }, hseat.setSlot _, rfl, rfl, rfl, rfl⟩
    · exact ⟨e', hseat.setSlot_of_ne hm he' _, .refl e'⟩

/-- A slot is vacated. -/
theorem of_vacated (hseat : r.Seated n e) (active : UInt8) (hvacates : vacates n e.owner) :
    r.SameRule { r.setSlot n none with active } vacates where
  required := rfl
  seated m e' he' := by
    have he' := (seated_setSlot hseat.lt_length).1 he'
    split at he'
    · cases he'
    · exact ⟨e', he', .refl e'⟩
  stays m e' he' := by
    by_cases hm : m = n
    · subst hm
      obtain rfl := hseat.unique he'
      refine Or.inr ⟨fun e'' he'' => ?_, hvacates⟩
      have he'' := (seated_setSlot hseat.lt_length).1 he''
      rw [if_pos rfl] at he''
      cases he''
    · exact Or.inl ⟨e', hseat.setSlot_of_ne hm he' none, .refl e'⟩

theorem mono (h : r.SameRule r' vacates)
    (hvacates : ∀ n owner, vacates n owner → vacates' n owner) : r.SameRule r' vacates' where
  required := h.required
  seated := h.seated
  stays n e he := (h.stays n e he).imp_right fun hleft => ⟨hleft.1, hvacates n e.owner hleft.2⟩

theorem trans (h : r.SameRule r' vacates) (h' : r'.SameRule r'' vacates') :
    r.SameRule r'' fun n owner => vacates n owner ∨ vacates' n owner where
  required := h'.required.trans h.required
  seated n e'' he'' := by
    obtain ⟨e', he', hsame'⟩ := h'.seated n e'' he''
    obtain ⟨e, he, hsame⟩ := h.seated n e' he'
    exact ⟨e, he, hsame.trans hsame'⟩
  stays n e he := by
    rcases h.stays n e he with ⟨e', he', hsame⟩ | ⟨hfree, hvacates⟩
    · rcases h'.stays n e' he' with ⟨e'', he'', hsame'⟩ | ⟨hfree, hvacates⟩
      · exact Or.inl ⟨e'', he'', hsame.trans hsame'⟩
      · exact Or.inr ⟨hfree, Or.inr (hsame.1 ▸ hvacates)⟩
    · -- a slot that was vacated is not taken again
      refine Or.inr ⟨fun e'' he'' => ?_, Or.inl hvacates⟩
      obtain ⟨e', he', -⟩ := h'.seated n e'' he''
      exact hfree e' he'

end Roster.SameRule

namespace Books.RuleKept

variable {before middle after : Books} {vacates vacates' : Nat → Key → Prop}

theorem refl (books : Books) : books.RuleKept books vacates where
  bridge b hb := ⟨b, hb, rfl, rfl⟩
  chains n := by
    cases books (.chain n) with
    | none => exact .none
    | some c => exact .some (.refl c)
  roster r hr := ⟨r, hr, .refl r⟩

theorem mono (h : before.RuleKept after vacates)
    (hvacates : ∀ n owner, vacates n owner → vacates' n owner) :
    before.RuleKept after vacates' where
  bridge := h.bridge
  chains := h.chains
  roster r hr := by
    obtain ⟨r', hr', hrule⟩ := h.roster r hr
    exact ⟨r', hr', hrule.mono hvacates⟩

theorem trans (h : before.RuleKept middle vacates) (h' : middle.RuleKept after vacates') :
    before.RuleKept after fun n owner => vacates n owner ∨ vacates' n owner where
  bridge b hb := by
    obtain ⟨b', hb', hrule⟩ := h.bridge b hb
    obtain ⟨b'', hb'', hrule'⟩ := h'.bridge b' hb'
    exact ⟨b'', hb'', hrule'.1.trans hrule.1, hrule'.2.trans hrule.2⟩
  chains n := by
    have hfirst := h.chains n
    have hlast := h'.chains n
    revert hfirst hlast
    generalize before (.chain n) = c, middle (.chain n) = c', after (.chain n) = c''
    rintro (hrule | -) hlast
    · cases hlast with
      | some hrule' => exact .some (hrule.trans hrule')
    · cases hlast
      exact .none
  roster r hr := by
    obtain ⟨r', hr', hrule⟩ := h.roster r hr
    obtain ⟨r'', hr'', hrule'⟩ := h'.roster r' hr'
    exact ⟨r'', hr'', hrule.trans hrule'⟩

end Books.RuleKept

/-- A message that is queued leaves what its chain was configured with. -/
theorem Outbox.Queued.sameRule {sender : Key} {q : SendRequest} {now : Slot} {o o' : Outbox}
    {m : OutboundMessage} (h : Outbox.Queued sender q now o m o') :
    o.chain.SameRule o'.chain := by
  obtain ⟨w, -, hchain⟩ := h.window
  rw [hchain]
  exact ⟨rfl, rfl, rfl⟩

/-! ## All instructions -/

/-- The owner of a slot leaves it by an instruction. -/
def Vacates (A : List Passed) (i : Instruction) (n : Nat) (owner : Key) : Prop :=
  ∃ index, i = ⟨.unregisterRelayer, index⟩ ∧ index.toNat = n ∧ SignedBy A owner

section

variable {A : List Passed} {b : Bridge} {i : Instruction} {returns : Key → Nat → Prop}
  {r r' : Roster}

theorem RosterStep.sameRule (h : RosterStep A b i returns r r')
    (hunsigned : ¬ SignedBy A b.authority) : r.SameRule r' (Vacates A i) := by
  cases h with
  | kept => exact .refl r
  | asked _ authorized | joined authorized => exact absurd authorized hunsigned
  | left leaves =>
    rename_i n e
    rw [leaves.result]
    rcases leaves.asked with ⟨hi, hsigned⟩ | ⟨-, hsigned⟩
    · exact .of_vacated leaves.seat _ ⟨n, hi, rfl, hsigned⟩
    · exact absurd hsigned hunsigned
  | claimed claims =>
    rw [claims.result]
    exact .of_earned claims.seat _
  | credited pays =>
    obtain ⟨e, earned, hseat, -, rfl⟩ := pays
    exact .of_earned hseat earned

end

variable {env : Environment} {A : List Passed} {spendable : Amount} {before after : Books}
  {i : Instruction} {t : Trace} {b : Bridge}

/-- **Without the governing key no chain is added, and none changes but by its traffic.** -/
theorem Effect.chainsKept (h : Effect env A spendable before i after t)
    (hb : before .bridge = some b) (hunsigned : ¬ SignedBy A b.authority) (n : ChainId) :
    Option.Rel Chain.SameRule (before (.chain n)) (after (.chain n)) := by
  cases h with
  | createBridge received signed absent step =>
    rw [absent.1] at hb
    cases hb
  | configureChain signed bridge chain step =>
    rename_i id limits authority b₁ c c'
    obtain rfl : b₁ = b := by simpa [hb] using bridge.symm
    obtain ⟨hcouncil, -⟩ := Governance.configureChain_eq_ok step
    exact absurd (Governance.signedBy_of_council signed hcouncil) hunsigned
  | setChainActive signed bridge chain step =>
    rename_i id active authority b₁ c c'
    obtain rfl : b₁ = b := by simpa [hb] using bridge.symm
    obtain ⟨hcouncil, -⟩ := Governance.setChainActive_eq_ok step
    exact absurd (Governance.signedBy_of_council signed hcouncil) hunsigned
  | sendMessage signed bridge chain vault absent step owes =>
    rename_i q sender b₁ c v m o owed
    have hrule := (Outbox.queued_of_queue step).sameRule
    refine hrule.rel_of_rewritten chain (by simp [Books.put_of_ne]) (fun k hk => ?_) n
    have hplace : Place.chain k ≠ .chain q.destinationChain := fun h => hk (Place.chain.inj h)
    simp [Books.put_of_ne, hplace]
  | sendSponsored signed bridge chain sponsor vault absent step charged =>
    rename_i q sender b₁ c v s s' m o
    have hrule := (Outbox.queued_of_queue step).sameRule
    refine hrule.rel_of_rewritten chain (by simp [Books.put_of_ne]) (fun k hk => ?_) n
    have hplace : Place.chain k ≠ .chain q.destinationChain := fun h => hk (Place.chain.inj h)
    simp [Books.put_of_ne, hplace]
  | processMessage given signed bridge chain roster receiptHeld vault cursorHeld named own evidence
      liquid step payment =>
    rename_i digest m attestations submitter b₁ c r receipt v cursor proven liquidity executor
      world o s payments
    obtain ⟨w, -, hchain⟩ := step.window
    have hrule : c.SameRule s.chain := by
      obtain ⟨nonce, hnonce⟩ := Chain.exists_recordInboundNonce m.sourceNonce { c with inbound := w }
      rw [hchain, hnonce]
      exact ⟨rfl, rfl, rfl⟩
    refine hrule.rel_of_rewritten chain ?_ (fun k hk => ?_) n
    · rw [Books.move_of_ne (q := .chain m.sourceChain) nofun]
      simp [Books.put_of_ne]
    · have hplace : Place.chain k ≠ .chain m.sourceChain := fun h => hk (Place.chain.inj h)
      rw [Books.move_of_ne (q := .chain k) nofun]
      simp [Books.put_of_ne, hplace]
  | processBatch given signed bridge chain roster vault receiptsHeld evidence liquid step payment =>
    rename_i messages attestations extras submitter b₁ c r v receipts ds proven liquidity executors
      world o s payments
    obtain ⟨-, w, nonce, -, hchain⟩ := step.admitted
    have hrule : c.SameRule s.chain := by
      rw [hchain]
      exact ⟨rfl, rfl, rfl⟩
    refine hrule.rel_of_rewritten chain (by simp [Books.put_of_ne]) (fun k hk => ?_) n
    have hplace : Place.chain k ≠ .chain c.id := fun h => hk (Place.chain.inj h)
    simp [Books.put_of_ne, Books.close_of_ne, hplace]
  | _ =>
    have hkept : before.RuleKept before fun _ _ => False := .refl before
    simpa [Books.put_of_ne] using hkept.chains n

/-- **Without the governing key nothing that is governed changes**, except that relayers leave. -/
theorem Effect.ruleKept (h : Effect env A spendable before i after t)
    (hb : before .bridge = some b) (hunsigned : ¬ SignedBy A b.authority) :
    before.RuleKept after (Vacates A i) where
  bridge b₁ hb₁ := by
    obtain rfl : b₁ = b := by simpa [hb] using hb₁.symm
    obtain ⟨b', hb', hstep⟩ := h.bridgeStep hb
    exact ⟨b', hb', hstep.sameRule hunsigned⟩
  chains := h.chainsKept hb hunsigned
  roster r hr := by
    obtain ⟨r', hr', hstep⟩ := h.rosterStep (fun _ _ => id) hb hr
    exact ⟨r', hr', hstep.sameRule hunsigned⟩

end QuorumRelay
