import QuorumRelay.Proofs.Codec.Instructions
import QuorumRelay.Proofs.Ledger.Rule
import QuorumRelay.Proofs.Ledger.Run

/-!
# Only the governing key governs

The instructions of the governor are handed an account that has to sign, and the
steps that they run compare its key with the one in the bridge's record.  The
comparison is made in one place and the choice of the key in another, once for
each instruction, so a single instruction that passed the wrong key would let
anybody govern.

`Ledger.governed_of_run` is about every ledger that a run from nothing leads to
and about everything that can happen to it next: not only the instructions of
the governor, but all of them, and what others do in between.

## Handing over

The governing key is part of what it governs.  Once it is replaced the old key is
a key like any other, and this holds for as long as the new one does not sign:
the last part of the theorem follows a run of moves from there, all of which the
old key may sign.
-/

namespace QuorumRelay

/-- A key signs for a move. -/
def Move.SignedBy : Move → Key → Prop
  | .run _ _ accounts, key => QuorumRelay.SignedBy accounts key
  | .outside _, _ => False

/-- The owner of a slot leaves it in a move. -/
def Move.Vacates (move : Move) (n : Nat) (owner : Key) : Prop :=
  ∃ env data accounts i, move = .run env data accounts ∧ Instruction.decode data = .ok i ∧
    QuorumRelay.Vacates accounts i n owner

namespace Ledger

variable {l : Ledger} {move : Move} {ms : List Move} {b : Bridge}

/-- **What was chosen when the bridge was created stays in every move.** -/
theorem Sound.sameCharter (hs : l.Sound) (hm : move.Allowed) (hb : l.books .bridge = some b) :
    ∃ b', (l.move move).books .bridge = some b' ∧ b.SameCharter b' := by
  cases move with
  | outside change => exact ⟨b, (congrFun (hm l).keeps.books _).trans hb, ⟨rfl, rfl, rfl, rfl, rfl⟩⟩
  | run env data accounts =>
    show ∃ b', (l.run env data accounts).ledger.books .bridge = some b' ∧ b.SameCharter b'
    rcases hs.carriesOut hm with ⟨f, notices, hrun⟩ | ⟨i, t, hrun⟩
    · rw [hrun]
      exact ⟨b, hb, ⟨rfl, rfl, rfl, rfl, rfl⟩⟩
    · obtain ⟨b', hb', hstep⟩ := hrun.effect.bridgeStep hb
      exact ⟨b', hb', hstep.sameCharter⟩

/-- **A move that the governing key does not sign leaves what is governed.** -/
theorem Sound.ruleKept (hs : l.Sound) (hm : move.Allowed) (hb : l.books .bridge = some b)
    (hunsigned : ¬ move.SignedBy b.authority) :
    l.books.RuleKept (l.move move).books move.Vacates := by
  cases move with
  | outside change =>
    have hbooks : (l.move (.outside change)).books = l.books := (hm l).keeps.books
    rw [hbooks]
    exact .refl _
  | run env data accounts =>
    show l.books.RuleKept (l.run env data accounts).ledger.books _
    rcases hs.carriesOut hm with ⟨f, notices, hrun⟩ | ⟨i, t, hrun⟩
    · rw [hrun]
      exact .refl _
    · exact (hrun.effect.ruleKept hb hunsigned).mono fun n owner hvacates =>
        ⟨env, data, accounts, i, rfl, hrun.decoded, hvacates⟩

/-- **So do any number of them.** -/
theorem Sound.ruleKept_moves (hs : l.Sound) (hb : l.books .bridge = some b)
    (h : ∀ m ∈ ms, m.Allowed ∧ ¬ m.SignedBy b.authority) :
    l.books.RuleKept (l.moves ms).books fun n owner => ∃ m ∈ ms, m.Vacates n owner := by
  induction ms generalizing l b with
  | nil => exact .refl _
  | cons move ms ih =>
    rw [List.forall_mem_cons] at h
    have hfirst := hs.ruleKept h.1.1 hb h.1.2
    obtain ⟨b', hb', hrule⟩ := hfirst.bridge b hb
    -- the governing key is the same after the first move
    have hrest := ih (hs.move h.1.1) hb' (by rw [hrule.1]; exact h.2)
    refine (hfirst.trans hrest).mono fun n owner hvacates => ?_
    rcases hvacates with hvacates | ⟨m, hm, hvacates⟩
    · exact ⟨move, List.mem_cons_self, hvacates⟩
    · exact ⟨m, List.mem_cons_of_mem _ hm, hvacates⟩

/-- **Only the governing key governs, over any run.**  Whatever happens next to a bridge, what was
chosen when it was created stays, and only the account of a chain reads as a chain's record.  If
the governing key has not signed, it still governs and charges the same fees; the same chains are
there with the same limits, open or paused as before; a quorum needs as many signatures; and the
same relayers sit in the same slots with the same stakes, except for those that left by an
instruction which they signed themselves.  When the key is replaced the new one governs at once,
and what the old one signs from then on changes nothing of this unless the new one signs too. -/
theorem governed_of_run {l : Ledger} (hfresh : l.Fresh) {past : List Move}
    (hpast : ∀ move ∈ past, move.Allowed) {b : Bridge}
    (hb : Bridge.record.load ((l.moves past).account .bridge) = .ok b) :
    (∀ move : Move, move.Allowed →
      (∃ b', Bridge.record.load (((l.moves past).move move).account .bridge) = .ok b' ∧
        b.SameCharter b') ∧
      (∀ id c, Chain.record.load (((l.moves past).move move).account id) = .ok c →
        ∃ n, id = .chain n) ∧
      (¬ move.SignedBy b.authority →
        (l.moves past).books.RuleKept ((l.moves past).move move).books move.Vacates)) ∧
    ∀ (env : Environment) (data : List UInt8) (accounts : List Passed) (new : Key),
      (Move.run env data accounts).Allowed → Instruction.decode data = .ok ⟨.setAuthority, new⟩ →
      ∀ value, ((l.moves past).run env data accounts).result = .ok value →
        let l' := ((l.moves past).run env data accounts).ledger
        (∃ b', Bridge.record.load (l'.account .bridge) = .ok b' ∧ b'.authority = new) ∧
        ∀ later : List Move, (∀ move ∈ later, move.Allowed ∧ ¬ move.SignedBy new) →
          l'.books.RuleKept (l'.moves later).books
            fun n owner => ∃ move ∈ later, move.Vacates n owner := by
  have hs := hfresh.sound.moves hpast
  have hheld : (l.moves past).books .bridge = some b := entry_of_load (p := .bridge) hb
  refine ⟨fun move hmove => ⟨?_, fun id c hc => ?_, fun hunsigned => ?_⟩, ?_⟩
  · obtain ⟨b', hb', hcharter⟩ := hs.sameCharter hmove hheld
    exact ⟨b', load_bridge hb', hcharter⟩
  · exact (hs.move hmove).kept.exists_chain_of_load hc
  · exact hs.ruleKept hmove hheld hunsigned
  · intro env data accounts new hallowed hdecode value hvalue
    rcases hs.carriesOut hallowed with ⟨f, notices, hrun⟩ | ⟨i, t, hrun⟩
    · rw [hrun] at hvalue
      cases hvalue
    · obtain rfl : ⟨.setAuthority, new⟩ = i := Except.ok.inj (hdecode.symm.trans hrun.decoded)
      obtain ⟨b', hb', rfl⟩ := hrun.effect.authority_of_setAuthority
      have hs' := hs.move hallowed
      exact ⟨⟨b', load_bridge hb', rfl⟩, fun later hlater => hs'.ruleKept_moves hb' hlater⟩

end Ledger

/-- The key that the bridge is handed to. -/
def Move.successor : Key := .replicate 32 8

/-- The founder hands the bridge over. -/
def Move.succeeding : Move := byFounder ⟨.setAuthority, successor⟩ [.bridge, founder]

namespace Ledger

/-- The founder hands the bridge over.  From then on the successor governs, and where the founder
tries to configure a chain nothing is governed differently. -/
theorem governed_after_succession :
    (∃ b, Bridge.record.load ((funded.moves [.founding, .succeeding]).account .bridge) = .ok b ∧
      b.authority = Move.successor) ∧
    (funded.moves [.founding, .succeeding]).books.RuleKept
      (funded.moves [.founding, .succeeding, .connecting]).books
      fun n owner => ∃ move ∈ [Move.connecting], move.Vacates n owner := by
  have hdecoded : Instruction.decode (Instruction.encode ⟨.setAuthority, Move.successor⟩) =
      .ok ⟨.setAuthority, Move.successor⟩ :=
    Instruction.decode_encode _ trivial
  have hkeys : ((funded.move .founding).books .bridge).map Bridge.authority = some founder.key ∧
      (((funded.move .founding).move .succeeding).books .bridge).map Bridge.authority =
        some Move.successor ∧ founder.key ≠ Move.successor := by
    rw [Move.succeeding, move_byFounder_exec _ ⟨.setAuthority, Move.successor⟩ _ trivial]
    decide +kernel
  obtain ⟨hbefore, hafter, hne⟩ := hkeys
  obtain ⟨b, hb, -⟩ := Option.map_eq_some_iff.1 hbefore
  have hfounding := Move.allowed_byFounder ⟨.createBridge,
    { hostChain := 1, epochLength := 1, reclaimAfter := 1 }⟩
    [.bridge, .vault, .roster, .executor, founder, .systemProgram]
  have hsucceeding := Move.allowed_byFounder ⟨.setAuthority, Move.successor⟩ [.bridge, founder]
  have hpast : ∀ move ∈ [Move.founding], move.Allowed := List.forall_mem_singleton.2 hfounding
  have hgoverned := (governed_of_run fresh_funded hpast (load_bridge hb)).2 _ _ _ _ hsucceeding
    hdecoded
  have hrun := (fresh_funded.sound.move (m := .founding) hfounding).carriesOut hsucceeding
  have hunsigned : ¬ Move.connecting.SignedBy Move.successor := by
    rintro ⟨id, ⟨p, hp, hsigned, rfl⟩, hkey⟩
    obtain ⟨id, -, rfl⟩ := List.mem_map.1 hp
    obtain rfl : id = founder := by simpa using hsigned
    exact hne hkey
  -- from here on it does not matter how the bridge was founded
  simp only [moves_cons, moves_nil] at hgoverned ⊢
  generalize funded.move .founding = l at hbefore hafter hgoverned hrun ⊢
  have hmove := l.move_byFounder ⟨.setAuthority, Move.successor⟩ [.bridge, founder]
  rw [← hmove] at hgoverned
  rw [Move.succeeding] at hafter ⊢
  rcases hrun with ⟨f, notices, hrun⟩ | ⟨i, t, hrun⟩
  · -- a run that fails leaves the old key in the books
    rw [hmove, hrun, hbefore] at hafter
    exact absurd (Option.some.inj hafter) hne
  · obtain ⟨value, hvalue⟩ := hrun.result
    obtain ⟨hbridge, hkept⟩ := hgoverned value hvalue
    have hlast := hkept [.connecting]
      (List.forall_mem_singleton.2 ⟨Move.allowed_byFounder _ _, hunsigned⟩)
    rw [moves_cons, moves_nil] at hlast
    exact ⟨hbridge, hlast⟩

end Ledger
end QuorumRelay
