import QuorumRelay.Ledger.Batching
import QuorumRelay.Proofs.Ledger.Commit

/-!
# How the accounts of a batch are allotted

A batch is handed one list of accounts.  The first `batchFixedAccounts` of them
are its own, and the others belong to its members, one member after the other.
How many each member has is said by whoever submits the batch, so where the
accounts of a member start depends on the numbers of all the members before it
(`memberStart`).  A number that is wrong by one would give every later member
its neighbour's receipt or program.

It cannot happen unnoticed, because the members use up the list: what they are
given, one after the other, is the list (`Allotted.whole`).  `Exec.takeBatch` is
the part of receiving a batch that takes its accounts, and `takeBatch_ends` says
what it found if it found anything.

## Positions

`memberStart extras i` is the sum of the numbers before the place `i`, and each
position below the whole sum lies in the stretch of one member and no other
(`existsUnique_memberStart`).
-/

namespace QuorumRelay

/-- Accounts that every batch has, before those of its members. -/
def batchFixedAccounts : Nat := 7

/-- How many accounts a member has that passes on a given number. -/
def memberAccounts (extra : UInt8) : Nat := memberFixedAccounts + extra.toNat

/-- Where the accounts of the member at a place start. -/
def memberStart (extras : List UInt8) (i : Nat) : Nat :=
  ((extras.take i).map memberAccounts).sum

section

variable {extra : UInt8} {extras : List UInt8} {i p : Nat}

@[simp] theorem memberStart_zero (extras : List UInt8) : memberStart extras 0 = 0 := rfl

@[simp] theorem memberStart_cons_succ (extra : UInt8) (extras : List UInt8) (i : Nat) :
    memberStart (extra :: extras) (i + 1) = memberAccounts extra + memberStart extras i := by
  rw [memberStart, List.take_succ_cons, List.map_cons, List.sum_cons, memberStart]

end

namespace MemberAccounts

variable {accounts rest : List Passed} {a : MemberAccounts} {extra : Nat}

/-- The accounts of a member in the order in which they are handed over. -/
def all (a : MemberAccounts) : List Passed := a.receipt :: a.program :: a.inbox :: a.forwarded

theorem split?_eq_some :
    split? accounts extra = some (a, rest) ↔
      accounts = a.all ++ rest ∧ a.forwarded.length = extra := by
  constructor
  · intro h
    unfold split? at h
    split at h
    · split at h
      · obtain ⟨rfl, rfl⟩ := Prod.mk.inj (Option.some.inj h)
        refine ⟨?_, List.length_take_of_le ‹_›⟩
        rw [all, List.cons_append, List.cons_append, List.cons_append, List.take_append_drop]
      · cases h
    · cases h
  · rintro ⟨rfl, rfl⟩
    obtain ⟨receipt, program, inbox, forwarded⟩ := a
    simp [split?, all]

end MemberAccounts

namespace Exec

/-! ## Members -/

/-- **Members with the accounts that they were given**, in order and with none left over.  Each
receipt was read from the member's own account and bears the digest of the member's message. -/
inductive Allotted (b : Bridge) (l : Ledger) : List (InboundMessage × UInt8) → List Passed →
    List (MemberAccounts × Receipt) → Prop
  | nil : Allotted b l [] [] []
  | cons {message : InboundMessage} {extra : UInt8} {mine : MemberAccounts} {receipt : Receipt}
      {ms : List (InboundMessage × UInt8)} {rest : List Passed}
      {found : List (MemberAccounts × Receipt)}
      (count : mine.forwarded.length = extra.toNat)
      (digest : Digest.ofMessage b.hostChain b.identity message = .ok receipt.digest)
      (loaded : Receipt.record.load (l.account mine.receipt.id) = .ok receipt)
      (others : Allotted b l ms rest found) :
      Allotted b l ((message, extra) :: ms) (mine.all ++ rest) ((mine, receipt) :: found)

namespace Allotted

variable {b : Bridge} {l : Ledger} {ms : List (InboundMessage × UInt8)} {accounts : List Passed}
  {found : List (MemberAccounts × Receipt)}

theorem length_eq (h : Allotted b l ms accounts found) : found.length = ms.length := by
  induction h with
  | nil => rfl
  | cons _ _ _ _ ih => rw [List.length_cons, List.length_cons, ih]

theorem length_all {a : MemberAccounts} {extra : UInt8} (h : a.forwarded.length = extra.toNat) :
    a.all.length = memberAccounts extra := by
  simp only [MemberAccounts.all, List.length_cons, h, memberAccounts, memberFixedAccounts]
  omega

/-- **The member at a place has the accounts from its start on**, and the receipt of its own
message. -/
theorem member (h : Allotted b l ms accounts found) {i : Nat} {message : InboundMessage}
    {extra : UInt8} {a : MemberAccounts} {receipt : Receipt} (hm : ms[i]? = some (message, extra))
    (ha : found[i]? = some (a, receipt)) :
    (accounts.drop (memberStart (ms.map Prod.snd) i)).take (memberAccounts extra) = a.all ∧
      a.forwarded.length = extra.toNat ∧
      Digest.ofMessage b.hostChain b.identity message = .ok receipt.digest ∧
      Receipt.record.load (l.account a.receipt.id) = .ok receipt := by
  induction h generalizing i with
  | nil => simp at hm
  | @cons message' extra' mine receipt' ms rest found count digest loaded _ ih =>
    cases i with
    | zero =>
      rw [List.getElem?_cons_zero, Option.some.injEq, Prod.mk.injEq] at hm ha
      obtain ⟨rfl, rfl⟩ := hm
      obtain ⟨rfl, rfl⟩ := ha
      refine ⟨?_, count, digest, loaded⟩
      rw [memberStart_zero, List.drop_zero, List.take_left' (length_all count)]
    | succ i =>
      rw [List.getElem?_cons_succ] at hm ha
      obtain ⟨hslice, hrest⟩ := ih hm ha
      refine ⟨?_, hrest⟩
      rw [List.map_cons, memberStart_cons_succ, ← length_all count, List.drop_append,
        List.drop_eq_nil_of_le (Nat.le_add_right _ _), List.nil_append, Nat.add_sub_cancel_left]
      exact hslice

end Allotted

variable {A : List Passed} {m : Machine} {b : Bridge}

/-- **Each member is given its accounts**, if there are as many as the members ask for. -/
theorem Ends.allot {α : Type} {Q : α → Machine → Prop} {E : Refusal → Prop}
    {ms : List (InboundMessage × UInt8)} {accounts : List Passed}
    {k : List (MemberAccounts × Receipt) → Exec α} (hE : ∀ r, E r)
    (h : ∀ found, Allotted b m.ledger ms accounts found → Ends A (k found) m Q E) :
    Ends A (Exec.takeMembers b ms accounts >>= k) m Q E := by
  induction ms generalizing accounts k with
  | nil =>
    unfold Exec.takeMembers
    refine .assoc (.check (fun _ hnone => ?_) fun r _ => hE r)
    obtain rfl := require_eq_ok.1 hnone
    exact h [] .nil
  | cons first ms ih =>
    obtain ⟨message, extra⟩ := first
    unfold Exec.takeMembers
    cases hsplit : MemberAccounts.split? accounts extra.toNat with
    | none => exact .fail fun r _ => hE r
    | some split =>
      obtain ⟨mine, rest⟩ := split
      obtain ⟨rfl, hcount⟩ := MemberAccounts.split?_eq_some.1 hsplit
      refine .assoc (.check (fun d hd => ?_) fun r _ => hE r)
      unfold Exec.takeReceipt
      refine .assoc (.assoc (.account ?_))
      cases hload : Receipt.record.load (m.ledger.account mine.receipt.id) with
      | error f => exact .fail fun r _ => hE r
      | ok receipt =>
        refine .assoc (.check (fun _ hdigest => ?_) fun r _ => hE r)
        obtain rfl : receipt.digest = d := require_eq_ok.1 hdigest
        exact .assoc (ih fun found hfound =>
          h ((mine, receipt) :: found) (.cons hcount hd hload hfound))

/-! ## The accounts of a batch -/

/-- What the execution of a batch is given of its accounts. -/
structure BatchAccounts where
  bridge : Held Bridge
  chain : Held Chain
  roster : Held Roster
  submitter : Passed
  /-- The accounts of each member, and the receipt that was found in one of them. -/
  members : List (MemberAccounts × Receipt)

/-- Take the accounts of a batch and of its members, and the receipts. -/
def takeBatch (messages : List InboundMessage) (extras : List UInt8) : Exec BatchAccounts := do
  let bridge ← takeRecord "bridge" Bridge.record
  let chain ← takeRecord "chain" Chain.record
  let roster ← takeRecord "relayers" Roster.record
  let vault ← takeRecord "vault" Vault.record
  let executor ← take "executor"
  let instructions ← take "instructions"
  let submitter ← takeSigner "submitter"
  bridge.checkSeeds .bridge
  chain.checkSeeds (.chain chain.value.id)
  chain.checkWritable
  roster.checkSeeds .roster
  roster.checkWritable
  vault.checkSeeds .vault
  vault.checkWritable
  checkSeeds "executor" executor .executor
  checkAddress "instructions" instructions .instructionLog
  checkWritable "submitter" submitter
  check (require (messages ≠ [] ∧ messages.length ≤ maxBatchSize) .invalidBatchSize)
  check (require (extras.length = messages.length) .missingBatchAccounts)
  let members ← takeMembers bridge.value (messages.zip extras) (← get).remaining
  return { bridge, chain, roster, submitter, members }

/-- Execute a batch whose accounts have been taken. -/
def executeBatch (env : Environment) (messages : List InboundMessage)
    (attestations : List Attestation) (t : BatchAccounts) : Exec Unit := do
  let proven ← check (Evidence.load env.log)
  let before ← get
  let liquidity ← check (before.ledger.liquidity t.bridge.value t.roster.value)
  let submission : Inbound.Submission := {
    bridge := t.bridge.value
    verify := Evidence.verifier proven
    submitter := t.submitter.id.key
    liquidity
    now := env.slot }
  let executors := t.members.map fun (a, receipt) =>
    (routeOf before.ledger a).executor env a.receipt.id receipt
  let (outcome, s) ← within
    (Inbound.processBatch submission executors messages attestations)
    (fun world => {
      chain := t.chain.value
      roster := t.roster.value
      receipts := t.members.map Prod.snd
      world })
    Inbound.BatchState.world
  outcome.results.forM checkMemberMarked
  (messages.zip outcome.results).forM fun (m, r) => noteMember m r
  (messages.zip ((t.members.map Prod.fst).zip (s.receipts.zip outcome.results))).forM
    fun (m, a, receipt, r) => closeMember env t.submitter.id.key m a receipt r
  note (.batchProcessed messages.length s.chain.id outcome.executedCount)
  t.chain.save Chain.record s.chain
  t.roster.save Roster.record s.roster

/-- Receiving a batch is taking its accounts and executing it. -/
theorem processBatch_eq (env : Environment) (messages : List InboundMessage)
    (attestations : List Attestation) (extras : List UInt8) :
    Exec.processBatch env messages attestations extras =
      takeBatch messages extras >>= executeBatch env messages attestations := by
  unfold Exec.processBatch takeBatch executeBatch
  simp only [bind_assoc, pure_bind]

/-- **What was taken for a batch**: the records at their places, an account that signed, and for
every member what it needs. -/
structure Taken (A : List Passed) (l : Ledger) (messages : List InboundMessage)
    (extras : List UInt8) (accounts : List Passed) (t : BatchAccounts) : Prop where
  bridge : l.books .bridge = some t.bridge.value
  chain : l.books (.chain t.chain.value.id) = some t.chain.value
  chainId : t.chain.id = .chain t.chain.value.id
  roster : l.books .roster = some t.roster.value
  rosterId : t.roster.id = .roster
  vault : ∃ v, l.books .vault = some v
  signed : Signed A t.submitter.id
  size : messages ≠ [] ∧ messages.length ≤ maxBatchSize
  counts : extras.length = messages.length
  members : Allotted t.bridge.value l (messages.zip extras) accounts t.members

/-- **A batch that gets past its accounts** has taken its own from the front of the list, and all
the others are its members'. -/
theorem takeBatch_ends (messages : List InboundMessage) (extras : List UInt8) :
    Ends A (takeBatch messages extras) m
      (fun t m' => m' = m.handing (m.remaining.drop batchFixedAccounts) ∧
        batchFixedAccounts ≤ m.remaining.length ∧
        Taken A m.ledger messages extras (m.remaining.drop batchFixedAccounts) t)
      fun _ => True := by
  unfold takeBatch
  refine .takeFirstRecord fun p₁ b rest₁ hrest₁ hb => ?_
  refine .takeFirstRecord fun p₂ c rest₂ hrest₂ hc => ?_
  refine .takeFirstRecord fun p₃ r rest₃ hrest₃ hr => ?_
  refine .takeFirstRecord fun p₄ v rest₄ hrest₄ hv => ?_
  refine .takeFirst fun executor rest₅ hrest₅ _ => ?_
  refine .takeFirst fun instructions rest₆ hrest₆ _ => ?_
  refine .takeFirstSigner fun submitter rest hrest hp hsigned => ?_
  refine .heldSeeds fun hbridge => ?_
  refine .heldSeeds fun hchain => ?_
  refine .heldWritable ?_
  refine .heldSeeds fun hroster => ?_
  refine .heldWritable ?_
  refine .heldSeeds fun hvault => ?_
  refine .heldWritable ?_
  refine .checkSeeds fun _ => ?_
  refine .checkAddress fun _ => ?_
  refine .checkWritable ?_
  refine .check (fun _ hsize => ?_) fun _ _ => trivial
  refine .check (fun _ hcounts => ?_) fun _ _ => trivial
  refine .get ?_
  refine .allot (fun _ => trivial) fun found hfound => .pure ?_
  simp only [Machine.handing_remaining] at hrest₂ hrest₃ hrest₄ hrest₅ hrest₆ hrest
  -- the seven accounts of the batch, one after the other
  have hall : m.remaining =
      p₁ :: p₂ :: p₃ :: p₄ :: executor :: instructions :: submitter :: rest := by
    rw [hrest₁, hrest₂, hrest₃, hrest₄, hrest₅, hrest₆, hrest]
  have hmembers : m.remaining.drop batchFixedAccounts = rest := by
    rw [hall]
    rfl
  rw [hmembers, hall]
  exact ⟨rfl, Nat.le_add_left _ _, {
    bridge := Ledger.books_of_load .bridge hb hbridge
    chain := Ledger.books_of_load (.chain c.id) hc hchain
    chainId := hchain
    roster := Ledger.books_of_load .roster hr hroster
    rosterId := hroster
    vault := ⟨v, Ledger.books_of_load .vault hv hvault⟩
    signed := ⟨submitter, hp, hsigned, rfl⟩
    size := require_eq_ok.1 hsize
    counts := require_eq_ok.1 hcounts
    members := hfound }⟩

end Exec
end QuorumRelay
