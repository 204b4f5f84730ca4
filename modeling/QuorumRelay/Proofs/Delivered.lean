import QuorumRelay.Proofs.Ledger.Run

/-!
# Messages are delivered once

A message is known by its digest, and delivering it is guarded by a record, the
receipt of the digest.  Three instructions write receipts, and they find them in
different ways: two name the receipt's account by its seeds, and a batch takes
any account of the program that reads as a receipt of the digest.  That there is
no second such account is nowhere checked.

`Ledger.delivered_once` is about all runs from a ledger on which the program owns
nothing.  Instructions come in any order, from anybody, and others do in between
what the host lets them do.

## What counts as a delivery

A delivery is counted where it begins, before the value is paid.  So a delivery
whose payment falls short, or whose destination program fails, counts like any
other; one that is undone because its instruction fails does not.
-/

namespace QuorumRelay

namespace Ledger

/-- **Every digest is delivered at most once, over any run.**  A move that begins its delivery
finds the receipt unmarked and leaves it marked; only one account can read as its receipt; and a
receipt that is marked stays so, with its digest. -/
theorem delivered_once {l : Ledger} (hfresh : l.Fresh) {past : List Move}
    (hpast : ∀ m ∈ past, m.Allowed) (d : Digest) :
    (l.begun past).count d ≤ 1 ∧
      (∀ m : Move, m.Allowed → d ∈ (l.moves past).begins m →
        (∀ r, Receipt.record.load ((l.moves past).account (.receipt d)) = .ok r →
          r.processed = false) ∧
        ∃ r, Receipt.record.load (((l.moves past).move m).account (.receipt d)) = .ok r ∧
          r.processed = true ∧ r.digest = d) ∧
      (∀ id r, Receipt.record.load ((l.moves past).account id) = .ok r → r.digest = d →
        id = .receipt d) ∧
      ∀ r, Receipt.record.load ((l.moves past).account (.receipt d)) = .ok r →
        r.processed = true → ∀ later : List Move, (∀ m ∈ later, m.Allowed) →
          ∃ r', Receipt.record.load (((l.moves past).moves later).account (.receipt d)) = .ok r' ∧
            r'.processed = true ∧ r'.digest = r.digest := by
  have hs := hfresh.sound.moves hpast
  have hplace : ∀ r, Receipt.record.load ((l.moves past).account (.receipt d)) = .ok r →
      (l.moves past).books (.receipt d) = some r ∧ r.digest = d := fun r hr =>
    have hbooks := entry_of_load (p := .receipt d) hr
    ⟨hbooks, (hs.bound d r hbooks).1⟩
  refine ⟨hfresh.sound.count_begun_le_one hpast d, fun m hm hd => ?_, fun id r hr hdigest => ?_,
    fun r hr hprocessed later hlater => ?_⟩
  · obtain ⟨-, hbefore, hafter⟩ := (hs.receiptStep hm d).of_mem hd
    constructor
    · intro r hr
      obtain ⟨hbooks, hdigest⟩ := hplace r hr
      rw [Bool.eq_false_iff, ne_eq, Books.marked_eq_true] at hbefore
      exact Bool.eq_false_iff.2 fun hprocessed => hbefore ⟨r, hbooks, hprocessed, hdigest⟩
    · obtain ⟨r, hbooks, hprocessed, hdigest⟩ := Books.marked_eq_true.1 hafter
      exact ⟨r, load_receipt hbooks, hprocessed, hdigest⟩
  · rw [(hs.kept.receipt_of_load hs.bound hr).1, hdigest]
  · obtain ⟨hbooks, hdigest⟩ := hplace r hr
    have hmarked := Books.marked_eq_true.2 ⟨r, hbooks, hprocessed, hdigest⟩
    obtain ⟨r', hr', hprocessed', hdigest'⟩ :=
      Books.marked_eq_true.1 (hs.marked_moves hlater hmarked).2
    exact ⟨r', load_receipt hr', hprocessed', hdigest'.trans hdigest.symm⟩

/-- The receipts of the two messages are open before the batch. -/
theorem exists_load_readying : ∃ r, Receipt.record.load
    ((hosting.moves Move.readying).account (.receipt Move.firstDigest)) = .ok r := by
  have hopen : ((hosting.moves Move.readying).books (.receipt Move.firstDigest)).isSome = true := by
    simp only [Move.readying, Move.founding, Move.connecting, Move.registering,
      Move.openingReceipt, moves_cons, moves_nil]
    repeat rw [move_byFounder_exec]
    any_goals exact trivial
    decide +kernel
  obtain ⟨r, hr⟩ := Option.isSome_iff_exists.1 hopen
  exact ⟨r, load_receipt hr⟩

/-- Two messages are delivered in a batch.  The delivery of the first is begun once, on a receipt
that was open and unmarked, and leaves it marked, whatever comes later. -/
theorem delivered_once_in_batch :
    (hosting.begun (Move.readying ++ [.delivering])).count Move.firstDigest = 1 ∧
      (∃ r, Receipt.record.load
          ((hosting.moves Move.readying).account (.receipt Move.firstDigest)) = .ok r ∧
        r.processed = false) ∧
      (∃ r, Receipt.record.load (((hosting.moves Move.readying).move .delivering).account
          (.receipt Move.firstDigest)) = .ok r ∧
        r.processed = true ∧ r.digest = Move.firstDigest) ∧
      (∀ id r, Receipt.record.load
          (((hosting.moves Move.readying).move .delivering).account id) = .ok r →
        r.digest = Move.firstDigest → id = .receipt Move.firstDigest) ∧
      ∀ later : List Move, (∀ m ∈ later, m.Allowed) →
        ∃ r, Receipt.record.load ((((hosting.moves Move.readying).move .delivering).moves
            later).account (.receipt Move.firstDigest)) = .ok r ∧
          r.processed = true ∧ r.digest = Move.firstDigest := by
  have hpast : ∀ m ∈ Move.readying ++ [.delivering], m.Allowed :=
    List.forall_mem_append.2 ⟨Move.allowed_readying,
      List.forall_mem_singleton.2 Move.allowed_delivering⟩
  have hdelivery := (delivered_once fresh_hosting Move.allowed_readying Move.firstDigest).2.1
  obtain ⟨honce, -, hplace, hstays⟩ := delivered_once fresh_hosting hpast Move.firstDigest
  have hbegins := begins_delivering
  have hallowed := Move.allowed_delivering
  obtain ⟨r, hopen⟩ := exists_load_readying
  rw [begun_append, begun] at honce ⊢
  rw [moves_append, moves_cons, moves_nil] at hplace hstays
  -- from here on it does not matter how the batch was readied, nor how it is written
  generalize hosting.moves Move.readying = l at *
  generalize Move.delivering = m at *
  have hbegun : Move.firstDigest ∈ l.begins m := by rw [hbegins]; exact List.mem_cons_self
  obtain ⟨hunmarked, r', hr', hprocessed, hdigest⟩ := hdelivery m hallowed hbegun
  refine ⟨Nat.le_antisymm honce (List.count_pos_iff.2 ?_), ⟨r, hopen, hunmarked r hopen⟩,
    ⟨r', hr', hprocessed, hdigest⟩, hplace, fun later hlater => ?_⟩
  · exact List.mem_append_right _ (List.mem_append_left _ hbegun)
  · obtain ⟨r'', hr'', hprocessed', hdigest'⟩ := hstays r' hr' hprocessed later hlater
    exact ⟨r'', hr'', hprocessed', hdigest'.trans hdigest⟩

end Ledger
end QuorumRelay
