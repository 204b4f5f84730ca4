import QuorumRelay.Proofs.Ledger.Commit

/-!
# Messages that are received, committed
-/

namespace QuorumRelay

namespace Exec

variable {env : Environment} {A : List Passed} {m : Machine}

theorem openReceipt_ends (hk : m.ledger.Kept) (hA : HostSigned A) (digest : Digest) :
    Ends A (Exec.openReceipt digest) m (fun _ m' => Commits env A ⟨.openReceipt, digest⟩ m m')
      fun _ => True := by
  unfold Exec.openReceipt
  refine .takeFresh fun _ _ _ => ?_
  refine .takeSigner fun payer _ hp hsigned => ?_
  refine .takeSystemProgram fun _ => ?_
  refine .initIfNeeded fun hplace r l hopened => ?_
  refine .checkWritable ?_
  refine .check (fun _ hnonzero => ?_) fun _ _ => trivial
  refine .last (.heldSave (.receipt digest) hplace (.pure ?_))
  have hothers := Ledger.lamports_of_opened (.receipt digest) hopened
    (hA.ne_vault hp hsigned) (by simp)
  have hholds := Ledger.holds_of_opened (.receipt digest) hopened
  have howns := Ledger.owns_of_opened (.receipt digest) hopened
  have hamends := (Ledger.Amends.refl m.ledger).extend
    (Ledger.extends_of_opened (.receipt digest) hopened)
  have hamends := hamends.write (.receipt digest) (v := r.bind digest derivedBump) howns trivial
    nofun
  have heffect : Effect env A (m.ledger.spendable .vault) m.ledger.books _ _ _ :=
    .openReceipt ⟨payer, hp, hsigned, rfl⟩ hholds (require_eq_ok.1 hnonzero)
  exact .of_unpaid hk hamends heffect nofun (by simp [hothers]) (by simp)

theorem openCursor_ends (hk : m.ledger.Kept) (hA : HostSigned A) (source : ChainId)
    (sender : List UInt8) :
    Ends A (Exec.openCursor source sender) m
      (fun _ m' => Commits env A ⟨.openCursor, source, sender⟩ m m') fun _ => True := by
  unfold Exec.openCursor
  refine .takeFresh fun _ _ _ => ?_
  refine .takeSigner fun payer _ hp hsigned => ?_
  refine .takeSystemProgram fun _ => ?_
  refine .initIfNeeded fun hplace c l hopened => ?_
  refine .checkWritable ?_
  refine .check (fun _ hnamed => ?_) fun _ _ => trivial
  have hothers := Ledger.lamports_of_opened (.cursor source (Digest.ofSender sender)) hopened
    (hA.ne_vault hp hsigned) (by simp)
  have hamends := (Ledger.Amends.refl m.ledger).extend
    (Ledger.extends_of_opened (.cursor source (Digest.ofSender sender)) hopened)
  have howns := Ledger.owns_of_opened (.cursor source (Digest.ofSender sender)) hopened
  have heffect : Effect env A (m.ledger.spendable .vault) m.ledger.books
      ⟨.openCursor, source, sender⟩ _ _ := .openCursor ⟨payer, hp, hsigned, rfl⟩
    (Ledger.holds_of_opened (.cursor source (Digest.ofSender sender)) hopened) hnamed
  by_cases hzero : c.senderKey = .zero
  · rw [if_pos hzero] at heffect
    simp only [hzero, if_true]
    refine .note (.last (.heldSave (.cursor source (Digest.ofSender sender)) hplace (.pure ?_)))
    exact .of_unpaid hk
      (hamends.write (.cursor source (Digest.ofSender sender)) howns trivial nofun) heffect nofun
      (by simp [hothers]) (by simp)
  · rw [if_neg hzero] at heffect
    simp only [hzero, if_false]
    refine .last (.heldSave (.cursor source (Digest.ofSender sender)) hplace (.pure ?_))
    exact .of_unpaid hk
      (hamends.write (.cursor source (Digest.ofSender sender)) howns trivial nofun) heffect nofun
      (by simp [hothers]) (by simp)

/-- A record that may be left out is checked if it is there. -/
theorem Ends.either {α σ : Type} {Q : α → Machine → Prop} {E : Refusal → Prop} {x : Exec α}
    (rest : Unit → Exec α)
    (hx : x = rest () ∨ ∃ held : Held σ, x = held.checkWritable >>= rest)
    (h : Ends A (rest ()) m Q E) : Ends A x m Q E := by
  obtain rfl | ⟨held, rfl⟩ := hx
  · exact h
  · exact .heldWritable h

/-- A mark that was not written ends the instruction. -/
theorem Ends.checkMarked {α : Type} {Q : α → Machine → Prop} {E : Refusal → Prop}
    {o : Inbound.Outcome} {k : Unit → Exec α} (h : Ends A (k ()) m Q E) :
    Ends A (Exec.checkMarked o >>= k) m Q E := by
  unfold Exec.checkMarked
  split
  · exact .fail nofun
  · exact .ret h

/-- Noting a failure touches the log alone. -/
theorem Ends.noteFailure {α : Type} {Q : α → Machine → Prop} {E : Refusal → Prop}
    {o : Inbound.Outcome} {k : Unit → Exec α}
    (h : ∀ notices, Ends A (k ()) (m.logging notices) Q E) :
    Ends A (Exec.noteFailure o >>= k) m Q E := by
  unfold Exec.noteFailure
  cases o.failure with
  | none => exact h m.notices
  | some cause => exact .note (h _)

theorem processMessage_ends (hk : m.ledger.Kept) (hA : HostSigned A)
    (hd : env.destinations.Lawful) (digest : Digest) (message : InboundMessage)
    (attestations : List Attestation) :
    Ends A (Exec.processMessage env digest message attestations) m
      (fun _ m' => Commits env A ⟨.processMessage, digest, message, attestations⟩ m m')
      fun _ => True := by
  unfold Exec.processMessage
  refine .takeRecord fun _ b _ _ hb => ?_
  refine .takeRecord fun _ c _ _ hc => ?_
  refine .takeRecord fun _ r _ _ hr => ?_
  refine .takeFresh fun _ _ _ => ?_
  refine .takeOptional fun cursor _ hcursor => ?_
  refine .takeRecord fun _ v _ _ hv => ?_
  refine .take fun executor _ _ => ?_
  refine .take fun program _ _ => ?_
  refine .take fun inbox _ _ => ?_
  refine .take fun instructions _ _ => ?_
  refine .takeSigner fun submitter _ hp hsigned => ?_
  refine .takeSystemProgram fun _ => ?_
  refine .initIfNeeded fun hplace receipt l hopened => ?_
  refine .heldSeeds fun hbridge => ?_
  refine .heldSeeds fun hchain => ?_
  refine .heldWritable ?_
  refine .heldSeeds fun hroster => ?_
  refine .heldWritable ?_
  extract_lets opened rest
  refine .either (σ := Cursor) rest ?_ ?_
  · cases cursor with
    | none => exact .inl rfl
    | some held => exact .inr ⟨held, rfl⟩
  refine .heldSeeds fun hvault => ?_
  refine .heldWritable ?_
  refine .checkSeeds fun _ => ?_
  refine .checkWritable ?_
  refine .checkAddress fun _ => ?_
  refine .checkWritable ?_
  refine .check (fun _ hverify => ?_) fun _ _ => trivial
  refine .check (fun proven hproven => ?_) fun _ _ => trivial
  refine .get ?_
  refine .check (fun liquidity hliquidity => ?_) fun _ _ => trivial
  have hb' := Ledger.books_of_load .bridge hb hbridge
  have hc' := Ledger.books_of_load (.chain message.sourceChain) hc hchain
  have hr' := Ledger.books_of_load .roster hr hroster
  have hv' := Ledger.books_of_load .vault hv hvault
  have hkeeps := Ledger.extends_of_opened (.receipt digest) hopened
  have hlamports := Ledger.lamports_of_opened (.receipt digest) hopened
    (hA.ne_vault hp hsigned) (by simp)
  have hliquid := liquid_of_liquidity hliquidity
  rw [Machine.holding_ledger, Ledger.spendable_congr hlamports
    (congrArg List.length (hkeeps.stays .vault (Ledger.owns_of_entry hv')).2)] at hliquid
  refine .within (fun o s hstep => ?_) fun _ _ _ => trivial
  have hprocessed := Inbound.processed_of_process hstep
  have hleads : ∀ forwarded, Route.Leads m.ledger
      ⟨program.id, (l.account program.id).executable, inbox.id, forwarded⟩ :=
    fun _ => Ledger.executable_of_opened (.receipt digest) hopened
  obtain ⟨ps, given, hforwarded, hps, hreaches⟩ := hprocessed.forwarded (D := (· = digest))
    hd hplace rfl (hleads _) (hkeeps.owns (Ledger.owns_of_entry hv'))
  have hinboxes : ∀ program, ¬ Signed A (.inbox program) →
      l.lamports (.inbox program) = m.ledger.lamports (.inbox program) := fun program hunsigned =>
    Ledger.lamports_of_opened (.receipt digest) hopened
      (fun heq => hunsigned ⟨submitter, hp, hsigned, heq.symm⟩) nofun
  refine ⟨hforwarded.remaining, ?_⟩
  refine .checkMarked (.noteFailure fun notices => ?_)
  refine .emit (.note ?_)
  refine .heldSave (.chain message.sourceChain) hchain ?_
  refine .heldSave .roster hroster ?_
  refine .heldSave (.receipt digest) hplace ?_
  obtain ⟨hnonzero, hown⟩ := Digest.verify_eq_ok hverify
  have hdigest : o.digest = digest := by
    have hsame := hown.symm.trans hprocessed.digest
    simpa using hsame.symm
  rw [hdigest] at hforwarded
  have hchange := Inbound.creditSubmitter_change hprocessed.credited
  have hopen := (Ledger.Amends.refl m.ledger).extend hkeeps
  have hagree := ((hopen.agreeBut hforwarded.marks).put (.chain message.sourceChain) s.chain).put
    .roster s.roster
  have hamends := hopen.mark hforwarded.marks
  have hamends := hamends.change (.chain message.sourceChain) (v := s.chain) hc' trivial nofun
  have hamends := hamends.change .roster (v := s.roster) hr'
    (hchange.fits (Ledger.fits_of_entry hr')) nofun
  have hamends := hamends.write (.receipt digest) (v := s.receipt.note o.sourceChain o.sourceNonce
    o.succeeded submitter.id.key env.slot) (Ledger.owns_write.2 (Ledger.owns_write.2
      (hforwarded.marks.owns (Ledger.owns_of_opened (.receipt digest) hopened)))) trivial nofun
  rw [hagree.put_receipt] at hamends
  have hsigned' : Signed A submitter.id := ⟨submitter, hp, hsigned, rfl⟩
  have hholds := Ledger.holds_of_opened (.receipt digest) hopened
  cases cursor with
  | none =>
    have heffect : Effect env A (m.ledger.spendable .vault) m.ledger.books
        ⟨.processMessage, digest, message, attestations⟩ _ _ :=
      .processMessage given hsigned' hb' hc' hr' hholds hv'
        (show ∀ source senderKey k, none = some (source, senderKey, k) → _ by rintro _ _ _ ⟨⟩)
        hnonzero hown hproven hliquid hprocessed hps
    refine .last (.pure ?_)
    exact .of_forwarded hk hforwarded hreaches hamends heffect (by simp) (by simp [hlamports])
      hinboxes ⟨by simp, rfl, rfl, rfl⟩
  | some held =>
    obtain ⟨source, senderKey, hid⟩ := hk.exists_sender_of_load (hcursor held rfl)
    have hheld := Ledger.books_of_load (.cursor source senderKey) (hcursor held rfl) hid
    have heffect : Effect env A (m.ledger.spendable .vault) m.ledger.books
        ⟨.processMessage, digest, message, attestations⟩ _ _ :=
      .processMessage given hsigned' hb' hc' hr' hholds hv'
        (show ∀ a b k, some (source, senderKey, held.value) = some (a, b, k) →
          m.ledger.books (.cursor a b) = some k by rintro _ _ _ ⟨⟩; exact hheld)
        hnonzero hown hproven hliquid hprocessed hps
    cases hs : s.cursor with
    | none =>
      rw [hs] at heffect
      refine .last (.pure ?_)
      exact .of_forwarded hk hforwarded hreaches hamends heffect (by simp) (by simp [hlamports])
        hinboxes ⟨by simp, rfl, rfl, rfl⟩
    | some k =>
      rw [hs] at heffect
      refine .last (.heldSave (.cursor source senderKey) hid (.pure ?_))
      exact .of_forwarded hk hforwarded hreaches
        (hamends.change (.cursor source senderKey) hheld trivial nofun) heffect (by simp)
        (by simp [hlamports]) hinboxes ⟨by simp, rfl, rfl, rfl⟩

end Exec
end QuorumRelay
