import QuorumRelay.Proofs.AppendOnly
import QuorumRelay.Proofs.Codec.Instructions
import QuorumRelay.Proofs.Ledger.Balances

/-!
# What sponsors prepaid

Sponsors pay into one vault, and the bridge's record holds the sum of what is
left.  A withdrawal and a sponsored message are checked against the sponsor's own
balance, and then taken out of the sum as well; nothing compares the two, and the
second subtraction would fail if the sum had fallen behind.

`Ledger.prepaid_of_run` says that it never does, over any run from nothing.  The
sum is that of the balances, and a balance is what was deposited for the sponsor
and neither withdrawn nor spent on the fees of its own messages.  So what one
sponsor withdraws or spends is never another's.
-/

namespace QuorumRelay
namespace Ledger

variable {l : Ledger} {move : Move} {ms : List Move} {k : Key}

/-- An amount of the instruction that a move carries out; nothing if it carries out none. -/
def carried (amount : List Passed → Instruction → Nat) (l : Ledger) : Move → Nat
  | .run env data accounts =>
    match Instruction.decode data, (l.run env data accounts).result with
    | .ok i, .ok _ => amount accounts i
    | _, _ => 0
  | .outside _ => 0

/-- The sum of an amount over a row of moves. -/
def total (amount : List Passed → Instruction → Nat) (l : Ledger) : List Move → Nat
  | [] => 0
  | move :: ms => l.carried amount move + (l.move move).total amount ms

/-- What was deposited for a sponsor. -/
def deposited (l : Ledger) (k : Key) (ms : List Move) : Nat :=
  l.total (Instruction.deposits k) ms

/-- What was withdrawn for a sponsor. -/
def withdrawn (l : Ledger) (k : Key) (ms : List Move) : Nat :=
  l.total (Instruction.withdraws k) ms

/-! ## Moves -/

/-- **A move leaves the books, or it makes one step of the sponsors' funds and of the log.** -/
inductive Prepays (l : Ledger) : Move → Prop
  | idle {move : Move} (same : (l.move move).books = l.books)
      (nothing : ∀ amount, l.carried amount move = 0) : Prepays l move
  | step {env : Environment} {data : List UInt8} {accounts : List Passed} {i : Instruction}
      {nonces : List Nonce} (decoded : Instruction.decode data = .ok i)
      (sponsors : SponsorStep accounts i (l.Returned (l.move (.run env data accounts))) l.books
        (l.move (.run env data accounts)).books)
      (log : LogStep (Sends env accounts l.books i) (TimesOut env accounts l.books i) l.books
        (l.move (.run env data accounts)).books nonces)
      (amounts : ∀ amount, l.carried amount (.run env data accounts) = amount accounts i) :
      Prepays l (.run env data accounts)

theorem Sound.prepays (hs : l.Sound) (hm : move.Allowed) : l.Prepays move := by
  cases move with
  | outside change => exact .idle (hm l).keeps.books fun _ => rfl
  | run env data accounts =>
    rcases hs.carriesOut hm with ⟨f, notices, hrun⟩ | ⟨i, t, hrun⟩
    · refine .idle ?_ fun amount => ?_
      · rw [Ledger.move, hrun]
      · rw [carried, hrun]
        cases Instruction.decode data <;> rfl
    · refine .step hrun.decoded (hrun.effect.sponsorStep fun _ _ => hrun.pays.returned)
        hrun.effect.logStep fun amount => ?_
      obtain ⟨value, hvalue⟩ := hrun.result
      rw [carried, hrun.decoded, hvalue]

namespace Prepays

theorem sponsorsNamed (h : l.Prepays move) (hnamed : l.books.SponsorsNamed) :
    (l.move move).books.SponsorsNamed := by
  cases h with
  | idle same nothing => rwa [same]
  | step decoded sponsors log amounts => exact sponsors.named hnamed

theorem fundsSum (h : l.Prepays move) (hsum : l.books.FundsSum) :
    (l.move move).books.FundsSum := by
  cases h with
  | idle same nothing => rwa [same]
  | step decoded sponsors log amounts => exact sponsors.fundsSum hsum

theorem account (h : l.Prepays move) (hdense : l.books.Dense) (k : Key) :
    (l.move move).books.balanceOf k + (l.move move).books.feesOf k +
        l.carried (Instruction.withdraws k) move =
      l.books.balanceOf k + l.books.feesOf k + l.carried (Instruction.deposits k) move := by
  cases h with
  | idle same nothing => rw [same, nothing, nothing]
  | step decoded sponsors log amounts =>
    rw [amounts, amounts]
    exact sponsors.account log hdense k

end Prepays

/-! ## Runs -/

/-- **Along a run sponsors stay where they are, and their funds the sum of their balances.** -/
theorem Sound.sponsors_moves (hs : l.Sound) (h : ∀ m ∈ ms, m.Allowed)
    (hnamed : l.books.SponsorsNamed) (hsum : l.books.FundsSum) :
    (l.moves ms).books.SponsorsNamed ∧ (l.moves ms).books.FundsSum := by
  induction ms generalizing l with
  | nil => exact ⟨hnamed, hsum⟩
  | cons move ms ih =>
    rw [List.forall_mem_cons] at h
    have hstep := hs.prepays h.1
    exact ih (hs.move h.1) h.2 (hstep.sponsorsNamed hnamed) (hstep.fundsSum hsum)

/-- **Along a run a balance and its fees grow by the deposits and fall by the withdrawals.** -/
theorem Sound.account_moves (hs : l.Sound) (h : ∀ m ∈ ms, m.Allowed) (hdense : l.books.Dense)
    (k : Key) :
    (l.moves ms).books.balanceOf k + (l.moves ms).books.feesOf k + l.withdrawn k ms =
      l.books.balanceOf k + l.books.feesOf k + l.deposited k ms := by
  induction ms generalizing l with
  | nil => rfl
  | cons move ms ih =>
    rw [List.forall_mem_cons] at h
    have hfirst := (hs.prepays h.1).account hdense k
    have hrest := ih (hs.move h.1) h.2 ((hs.logStep h.1).dense hdense)
    rw [withdrawn, deposited] at hrest ⊢
    rw [moves_cons, total, total]
    omega

theorem Fresh.sponsors (h : l.Fresh) : l.books.SponsorsNamed ∧ l.books.FundsSum := by
  constructor
  · intro k s hs
    rw [h.books_eq_none] at hs
    cases hs
  · refine ⟨∅, fun k => ?_, ?_⟩
    · rw [h.books_eq_none]
      simp
    · rw [Books.sponsorFunds, h.books_eq_none, Finset.sum_empty]

/-- A sponsor is at its own place, wherever it is looked for. -/
theorem sponsor_of_load (hk : l.Kept) (hnamed : l.books.SponsorsNamed) {id : AccountId}
    {s : Sponsor} (h : Sponsor.record.load (l.account id) = .ok s) :
    id = .sponsor s.owner ∧ l.books (.sponsor s.owner) = some s := by
  obtain ⟨owner, rfl⟩ := hk.exists_owner_of_load h
  have hbooks : l.books (.sponsor owner) = some s := entry_of_load (p := .sponsor owner) h
  obtain rfl := hnamed owner s hbooks
  exact ⟨rfl, hbooks⟩

/-- **The sponsors' funds are the sum of their balances, over any run**, and a balance is what was
deposited for the sponsor, less what was withdrawn for it and less the fees of the messages that it
paid for.  So a withdrawal that the sponsor's balance covers is never refused by the bridge's books,
and neither is a message whose fee it covers: where the books refuse it, they would refuse it also
if its sender paid.  And whatever is done next, a sponsor loses only what it withdraws itself, and
the fee of a message to a destination on its own list. -/
theorem prepaid_of_run {l : Ledger} (hfresh : l.Fresh) {past : List Move}
    (hpast : ∀ move ∈ past, move.Allowed) {b : Bridge}
    (hb : Bridge.record.load ((l.moves past).account .bridge) = .ok b) :
    (∃ owners : Finset Key,
      (∀ k, k ∈ owners ↔
        ∃ s, Sponsor.record.load ((l.moves past).account (.sponsor k)) = .ok s) ∧
      b.sponsorFunds.toNat = ∑ k ∈ owners, (l.moves past).books.balanceOf k) ∧
    (∀ k, (l.moves past).books.balanceOf k + (l.moves past).books.feesOf k + l.withdrawn k past =
      l.deposited k past) ∧
    ∀ id s, Sponsor.record.load ((l.moves past).account id) = .ok s →
      id = .sponsor s.owner ∧ (l.moves past).books.balanceOf s.owner = s.balance.toNat ∧
      (∀ amount s', Sponsor.withdraw amount s = .ok () s' →
        ∃ b', Bridge.releaseSponsorFunds amount b = .ok () b') ∧
      (∀ target fee, s.checkCanPay target fee = .ok () → ∀ value f b',
        Bridge.recordSend fee value true b = .error f b' →
          Bridge.recordSend fee value false b = .error f b') ∧
      ∀ env data accounts i value, (Move.run env data accounts).Allowed →
        Instruction.decode data = .ok i →
        ((l.moves past).run env data accounts).result = .ok value →
        let l' := ((l.moves past).run env data accounts).ledger
        ∃ s', Sponsor.record.load (l'.account id) = .ok s' ∧
          (s.balance ≤ s'.balance ∨
            (∃ amount, Withdraws accounts i ((l.moves past).Returned l') s s' amount) ∨
            ∃ q m, Charges i s s' (l.moves past).books l'.books q m) := by
  have hs := hfresh.sound.moves hpast
  obtain ⟨hnamed, hsum⟩ := hfresh.sound.sponsors_moves hpast hfresh.sponsors.1 hfresh.sponsors.2
  have hfunds : (l.moves past).books.sponsorFunds = b.sponsorFunds.toNat :=
    Books.sponsorFunds_of_some (entry_of_load (p := .bridge) hb)
  refine ⟨?_, fun k => ?_, fun id s hload => ?_⟩
  · obtain ⟨owners, howners, heq⟩ := hsum
    refine ⟨owners, fun k => (howners k).trans ?_, hfunds.symm.trans heq⟩
    exact exists_congr fun s => ⟨load_sponsor, entry_of_load (p := .sponsor k)⟩
  · have haccount := hfresh.sound.account_moves hpast hfresh.dense k
    have hnone : l.books.balanceOf k = 0 ∧ l.books.feesOf k = 0 := by
      rw [Books.balanceOf, Books.feesOf, Books.sentCount, hfresh.books_eq_none,
        hfresh.books_eq_none]
      exact ⟨rfl, rfl⟩
    omega
  · obtain ⟨rfl, hheld⟩ := sponsor_of_load hs.kept hnamed hload
    -- what this sponsor can spend is part of what they all have
    have hle : s.balance ≤ b.sponsorFunds := by
      rw [UInt64.le_iff_toNat_le, ← hfunds]
      exact hsum.le hheld
    refine ⟨rfl, Books.balanceOf_of_some hheld, fun amount s' hwithdraw => ?_,
      fun target fee hpay value f b' hrefused => ?_,
      fun env data accounts i value hallowed hdecode hvalue => ?_⟩
    · exact Bridge.exists_releaseSponsorFunds
        (UInt64.le_trans (Sponsor.withdraw_eq_ok hwithdraw).2.1 hle)
    · have hfee := (Sponsor.checkCanPay_eq_ok.1 hpay).2
      exact Bridge.recordSend_of_sponsored (UInt64.le_trans hfee hle) hrefused
    · rcases hs.carriesOut hallowed with ⟨f, notices, hrun⟩ | ⟨i', t, hrun⟩
      · rw [hrun] at hvalue
        cases hvalue
      · obtain rfl : i = i' := Except.ok.inj (hdecode.symm.trans hrun.decoded)
        have hstep := hrun.effect.sponsorStep fun _ _ => hrun.pays.returned
        obtain ⟨s', hs', -, hspent⟩ := hstep.balance hheld
        exact ⟨s', load_sponsor hs', hspent⟩

end Ledger

/-- A sponsor has prepaid. -/
def Move.firstDeposit : List Move := [founding, sponsoring, prepaying]

theorem Move.allowed_firstDeposit : ∀ move ∈ firstDeposit, move.Allowed := by
  simp only [firstDeposit, List.forall_mem_cons]
  exact ⟨allowed_byFounder _ _, allowed_byFounder _ _, allowed_byFounder _ _, nofun⟩

namespace Ledger

/-- The first deposit is made. -/
theorem moves_firstDeposit :
    ((funded.moves Move.firstDeposit).books .bridge).map Bridge.sponsorFunds = some 7 ∧
      ((funded.moves Move.firstDeposit).books (.sponsor founder.key)).map Sponsor.balance =
        some 7 := by
  simp only [Move.firstDeposit, Move.founding, Move.sponsoring,
    Move.prepaying, moves_cons, moves_nil]
  repeat rw [move_byFounder_exec]
  any_goals exact trivial
  decide +kernel

/-- After one deposit there is one sponsor's balance in the books, and it can be withdrawn. -/
theorem prepaid_after_deposit :
    ∃ b s, Bridge.record.load ((funded.moves Move.firstDeposit).account .bridge) = .ok b ∧
      Sponsor.record.load
        ((funded.moves Move.firstDeposit).account (.sponsor founder.key)) = .ok s ∧
      b.sponsorFunds = 7 ∧ s.balance = 7 ∧
      7 + (funded.moves Move.firstDeposit).books.feesOf founder.key +
          funded.withdrawn founder.key Move.firstDeposit =
        funded.deposited founder.key Move.firstDeposit ∧
      ∃ b', Bridge.releaseSponsorFunds 7 b = .ok () b' := by
  obtain ⟨hbridge, hsponsor⟩ := moves_firstDeposit
  obtain ⟨b, hb, hfunds⟩ := Option.map_eq_some_iff.1 hbridge
  obtain ⟨s, hs, hbalance⟩ := Option.map_eq_some_iff.1 hsponsor
  obtain ⟨-, haccount, hsponsors⟩ :=
    prepaid_of_run fresh_funded Move.allowed_firstDeposit (load_bridge hb)
  obtain ⟨hplace, hheld, hrelease, -⟩ := hsponsors _ s (load_sponsor hs)
  have hwithdraw : Sponsor.withdraw 7 s = .ok () { s with balance := s.balance - 7 } := by
    unfold Sponsor.withdraw
    simp only [get_bind, require_bind_eq_ok, set_eq_ok, hbalance]
    decide
  have hfounder := haccount founder.key
  rw [Books.balanceOf_of_some hs, hbalance, show (7 : Amount).toNat = 7 from rfl] at hfounder
  exact ⟨b, s, load_bridge hb, load_sponsor hs, hfunds, hbalance, hfounder,
    hrelease 7 _ hwithdraw⟩

end Ledger
end QuorumRelay
