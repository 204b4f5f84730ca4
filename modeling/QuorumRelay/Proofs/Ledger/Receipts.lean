import Mathlib.Data.List.Nodup
import QuorumRelay.Proofs.Ledger.Effect
import QuorumRelay.Proofs.Ledger.Marking

/-!
# What becomes of a receipt

The receipt of a digest is created once, marked once, and never unmarked.  This
file says so for one instruction: `ReceiptStep` lists the three things that can
happen to the receipt of one digest, and `Effect.receiptStep` finds one of them
in each of the twenty-four cases of an effect.

Two of the three cases touch nothing that was marked, and in the third the mark
was not there before.  So whether an instruction may begin a delivery can be read
off the books, and what it leaves in the books is what the next instruction
reads: this is all that is needed to count deliveries over whole runs.

## The invariant

`Books.Bound` ties the three parts of a receipt together: the receipt at the
place of a digest bears that digest.  Opening a receipt does it, marking keeps
it, and the zero digest, which stands for an unbound receipt, has no receipt at
all, because opening it is refused.
-/

namespace QuorumRelay

/-- **What an instruction makes of the receipt of one digest.** -/
inductive ReceiptStep (before after : Books) (attempts : List Digest) (d : Digest) : Prop
  | kept (idle : d ∉ attempts) (same : after (.receipt d) = before (.receipt d))
  | opened (r : Receipt) (idle : d ∉ attempts) (held : before.Holds (.receipt d) r)
      (nonzero : d ≠ .zero) (bound : after (.receipt d) = some (r.bind d derivedBump))
  | executed (r : Receipt) (once : attempts.count d = 1)
      (fresh : ∀ r, before (.receipt d) = some r → r.processed = false) (nonzero : d ≠ .zero)
      (stored : after (.receipt d) = some r) (digest : r.digest = d)
      (processed : r.processed = true)

namespace Books

/-- A digest is marked where its receipt says that it was executed. -/
def marked (books : Books) (d : Digest) : Bool :=
  match books (.receipt d) with
  | some r => r.contains d
  | none => false

variable {books : Books} {submitter : Key} {now : Slot}
  {closing : List (Digest × Receipt × Inbound.MemberResult)} {d : Digest}

theorem marked_eq_true :
    books.marked d = true ↔
      ∃ r, books (.receipt d) = some r ∧ r.processed = true ∧ r.digest = d := by
  unfold marked
  cases books (.receipt d) <;> simp

/-! ## The receipts of a batch -/

/-- A receipt whose member was not executed stays as it was. -/
theorem close_of_skipped (h : ∀ r o, (d, r, .executed o) ∉ closing) :
    books.close submitter now closing (.receipt d) = books (.receipt d) := by
  induction closing generalizing books with
  | nil => rfl
  | cons first closing ih =>
    obtain ⟨d', r, result⟩ := first
    have hrest : ∀ r o, (d, r, .executed o) ∉ closing := fun r o hmem =>
      h r o (List.mem_cons_of_mem _ hmem)
    cases result with
    | skipped _ => exact ih hrest
    | executed o =>
      rw [close, ih hrest]
      refine put_of_ne _ _ fun heq => h r o ?_
      cases heq
      exact List.mem_cons_self

/-- A receipt whose member was executed is noted. -/
theorem close_of_executed {r : Receipt} {o : Inbound.Outcome}
    (hnodup : (closing.map Prod.fst).Nodup) (h : (d, r, .executed o) ∈ closing) :
    books.close submitter now closing (.receipt d) =
      some (r.note o.sourceChain o.sourceNonce o.succeeded submitter now) := by
  induction closing generalizing books with
  | nil => cases h
  | cons first closing ih =>
    obtain ⟨d', r', result⟩ := first
    rw [List.map_cons, List.nodup_cons] at hnodup
    rcases List.mem_cons.1 h with heq | hmem
    · cases heq
      rw [close, close_of_skipped, put_self]
      exact fun _ _ hmem => hnodup.1 (List.mem_map.2 ⟨_, hmem, rfl⟩)
    · cases result with
      | skipped _ => exact ih hnodup.2 hmem
      | executed o' => exact ih hnodup.2 hmem

/-- Closing receipts does the same with the same record. -/
theorem close_congr {books' : Books} {q : Place} (h : books q = books' q) :
    books.close submitter now closing q = books'.close submitter now closing q := by
  induction closing generalizing books books' with
  | nil => exact h
  | cons first closing ih =>
    obtain ⟨d, r, result⟩ := first
    cases result with
    | skipped _ => exact ih h
    | executed o =>
      rw [close, close]
      refine ih ?_
      by_cases hq : q = .receipt d
      · subst hq
        rw [put_self, put_self]
      · rw [put_of_ne _ _ hq, put_of_ne _ _ hq, h]

/-- Books that differ in the receipts that are closed are the same afterwards. -/
theorem AgreeBut.close {D : Digest → Prop} {books' : Books} (h : books.AgreeBut D books')
    (hnodup : (closing.map Prod.fst).Nodup) (hD : ∀ d, D d → ∃ r o, (d, r, .executed o) ∈ closing) :
    books.close submitter now closing = books'.close submitter now closing := by
  funext q
  by_cases hq : ∀ d, D d → q ≠ .receipt d
  · exact close_congr (h q hq)
  · push Not at hq
    obtain ⟨d, hd, rfl⟩ := hq
    obtain ⟨r, o, hmem⟩ := hD d hd
    rw [close_of_executed hnodup hmem, close_of_executed hnodup hmem]

end Books

/-! ## What a step keeps -/

section

variable {before after : Books} {attempts : List Digest} {d : Digest}

/-- **A digest that is marked is not begun again**, and stays marked. -/
theorem ReceiptStep.of_marked (h : ReceiptStep before after attempts d)
    (hmarked : before.marked d = true) : d ∉ attempts ∧ after.marked d = true := by
  obtain ⟨r, hr, hprocessed, hdigest⟩ := Books.marked_eq_true.1 hmarked
  cases h with
  | kept idle same =>
    refine ⟨idle, Books.marked_eq_true.2 ⟨r, ?_, hprocessed, hdigest⟩⟩
    rw [same, hr]
  | opened r₀ idle held nonzero bound =>
    rcases held with hheld | ⟨hnone, -⟩
    · obtain rfl : r₀ = r := by simpa [hr] using hheld.symm
      rw [Receipt.bind_of_digest_ne_zero (hdigest ▸ nonzero)] at bound
      exact ⟨idle, Books.marked_eq_true.2 ⟨r₀, bound, hprocessed, hdigest⟩⟩
    · rw [hnone] at hr
      cases hr
  | executed r' once fresh nonzero stored digest processed =>
    rw [fresh r hr] at hprocessed
    cases hprocessed

/-- **A digest that is begun is begun once**, was not marked before, and is from then on. -/
theorem ReceiptStep.of_mem (h : ReceiptStep before after attempts d) (hd : d ∈ attempts) :
    attempts.count d = 1 ∧ before.marked d = false ∧ after.marked d = true := by
  cases h with
  | kept idle => exact absurd hd idle
  | opened r idle => exact absurd hd idle
  | executed r once fresh nonzero stored digest processed =>
    refine ⟨once, ?_, Books.marked_eq_true.2 ⟨r, stored, processed, digest⟩⟩
    rw [Bool.eq_false_iff, ne_eq, Books.marked_eq_true]
    rintro ⟨r', hr', hprocessed, -⟩
    rw [fresh r' hr'] at hprocessed
    cases hprocessed

/-- Receipts stay where their digests say. -/
theorem ReceiptStep.bound (h : ∀ d, ReceiptStep before after attempts d) (hbound : before.Bound) :
    after.Bound := by
  intro d r hr
  cases h d with
  | kept idle same => exact hbound d r (same ▸ hr)
  | opened r₀ idle held nonzero bound =>
    rw [bound] at hr
    cases hr
    refine ⟨?_, nonzero⟩
    rcases held with hheld | ⟨-, rfl⟩
    · obtain ⟨hdigest, -⟩ := hbound d r₀ hheld
      rw [Receipt.bind_of_digest_ne_zero (hdigest ▸ nonzero)]
      exact hdigest
    · rfl
  | executed r' once fresh nonzero stored digest processed =>
    rw [stored] at hr
    cases hr
    exact ⟨digest, nonzero⟩

end

/-! ## All instructions -/

variable {env : Environment} {A : List Passed} {spendable : Amount} {before after : Books}
  {i : Instruction} {t : Trace}

/-- A receipt that is marked for the first time. -/
theorem ReceiptStep.of_insert {attempts : List Digest} {d : Digest} {receipt receipt' : Receipt}
    (stored : Receipt) (hinsert : Receipt.insert d (receipt.bind d derivedBump) = .ok () receipt')
    (honce : attempts.count d = 1) (hheld : before.Holds (.receipt d) receipt)
    (hnonzero : d ≠ .zero) (hafter : after (.receipt d) = some stored)
    (hdigest : stored.digest = receipt'.digest)
    (hprocessed : stored.processed = receipt'.processed) :
    ReceiptStep before after attempts d := by
  obtain ⟨hfresh, -, rfl⟩ := Receipt.insert_eq_ok.1 hinsert
  rw [Receipt.processed_bind] at hfresh
  refine .executed stored honce (fun r hr => ?_) hnonzero hafter hdigest hprocessed
  rcases hheld with hheld | ⟨hnone, -⟩
  · rw [hheld] at hr
    cases hr
    exact hfresh
  · rw [hnone] at hr
    cases hr

/-- **Every instruction leaves a receipt alone, opens it, or executes its digest once.** -/
theorem Effect.receiptStep (h : Effect env A spendable before i after t) (hbound : before.Bound)
    (d : Digest) : ReceiptStep before after t.attempts d := by
  cases h with
  | openReceipt hsigned hheld hnonzero =>
    rename_i digest payer r
    by_cases hd : d = digest
    · subst hd
      exact .opened r (by simp) hheld hnonzero (Books.put_self ..)
    · exact .kept (by simp) (Books.put_of_ne _ _ (by simpa using hd))
  | processMessage given hsigned hbridge hchain hroster hheld hvault hcursor hnonzero hown hproven
      hliquid hstep hpaid =>
    rename_i digest m attestations submitter b c r receipt v cursor proven liquidity executor world
      o s payments
    have hdigest : o.digest = digest := by simpa using hstep.digest.symm.trans hown
    by_cases hd : d = digest
    · subst hd
      have hmarked := hstep.marked
      rw [hdigest] at hmarked
      refine .of_insert (s.receipt.note o.sourceChain o.sourceNonce o.succeeded submitter.key
        env.slot) hmarked (by simp) hheld hnonzero ?_ rfl rfl
      rw [Books.move_of_ne (q := .receipt d) nofun, Books.put_self]
    · have hne : Place.receipt d ≠ .receipt digest := by simpa using hd
      refine .kept (by simpa using hd) ?_
      rw [Books.move_of_ne (q := .receipt d) nofun, Books.put_of_ne _ _ hne]
      simp [Books.put_of_ne]
  | processBatch given hsigned hbridge hchain hroster hvault hheld hproven hliquid hstep hpaid =>
    rename_i messages attestations extras submitter b c r v receipts ds proven liquidity executors
      world o s payments
    have hlater : ∀ books : Books, ((books.put (.chain c.id) s.chain).put .roster s.roster)
        (.receipt d) = books (.receipt d) := fun books => by simp [Books.put_of_ne]
    by_cases hd : d ∈ Inbound.executedDigests messages ds receipts executors
    · obtain ⟨receipt, receipt', outcome, hmem, hmem', hinsert⟩ := hstep.marked hd
      have hreceipt := List.forall₂_zip hheld hmem
      obtain ⟨hbinds, hnonzero⟩ := hbound d receipt hreceipt
      have hbind : receipt.bind d derivedBump = receipt :=
        Receipt.bind_of_digest_ne_zero (hbinds ▸ hnonzero)
      rw [← hbind] at hinsert
      refine .of_insert (receipt'.note outcome.sourceChain outcome.sourceNonce outcome.succeeded
        submitter.key env.slot) hinsert
        (List.count_eq_one_of_mem hstep.nodup_executedDigests hd) (Or.inl hreceipt) hnonzero ?_
        rfl rfl
      rw [hlater, Books.close_of_executed hstep.nodup_closing hmem']
    · refine .kept hd ?_
      rw [hlater, Books.close_of_skipped fun r outcome hmem => hd (hstep.mem_executedDigests hmem)]
  | _ => exact .kept (by simp) (by simp [Books.put_of_ne])

end QuorumRelay
