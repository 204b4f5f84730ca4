import QuorumRelay.Proofs.Codec.Instructions
import QuorumRelay.Proofs.Keccak
import QuorumRelay.Proofs.Ledger.Program

/-!
# Runs of the ledger

A ledger is moved by two kinds of things: instructions of the program, in any
order, and whatever others do with what is theirs.  `Move.Allowed` says what the
host lets through, and it is all that is asked of a run.  Nobody signs for the
vault; what the program owns is written and debited by the program alone, also
while a destination program runs; and a failed instruction is undone, which is
part of `Ledger.run`.

Along a run the invariant of the ledger is kept (`Ledger.Sound.moves`), and the
receipt of a digest makes one of its three steps with each move
(`Ledger.Sound.receiptStep`).

The last two sections hold ledgers and moves that theorems about runs are applied
to: a bridge that is founded, and one that delivers two messages.
-/

namespace QuorumRelay

/-- What can happen to a ledger next. -/
inductive Move where
  /-- The program is run on data and accounts. -/
  | run (env : Environment) (data : List UInt8) (accounts : List Passed)
  /-- Others change the ledger. -/
  | outside (change : Ledger → Ledger)

/-- **What the host lets through.** -/
def Move.Allowed : Move → Prop
  | run env _ accounts => HostSigned accounts ∧ env.destinations.Lawful
  | outside change => ∀ l : Ledger, l.Outside (change l)

namespace Ledger

/-- The ledger after a move. -/
def move (l : Ledger) : Move → Ledger
  | .run env data accounts => (l.run env data accounts).ledger
  | .outside change => change l

/-- The ledger after several moves. -/
def moves (l : Ledger) (ms : List Move) : Ledger := ms.foldl move l

/-- The digests whose delivery is begun in a move. -/
def begins (l : Ledger) : Move → List Digest
  | .run env data accounts => (l.run env data accounts).attempts
  | .outside _ => []

/-- The digests whose delivery is begun in a row of moves, with repetitions. -/
def begun (l : Ledger) : List Move → List Digest
  | [] => []
  | m :: ms => l.begins m ++ (l.move m).begun ms

variable {l : Ledger} {m : Move} {ms : List Move} {d : Digest}

@[simp] theorem moves_nil (l : Ledger) : l.moves [] = l := by
  rw [moves, List.foldl_nil]

@[simp] theorem moves_cons (l : Ledger) (m : Move) (ms : List Move) :
    l.moves (m :: ms) = (l.move m).moves ms := by
  rw [moves, List.foldl_cons, moves]

theorem begins_run (l : Ledger) (env : Environment) (data : List UInt8) (accounts : List Passed) :
    l.begins (.run env data accounts) = (l.run env data accounts).attempts := by
  rw [begins]

theorem moves_append (l : Ledger) (ms ms' : List Move) :
    l.moves (ms ++ ms') = (l.moves ms).moves ms' := List.foldl_append ..

/-- **What is collected along a run** is what is collected along its first moves, and then along
the others. -/
theorem collected_append {α : Type} {f : Ledger → List Move → List α}
    {g : Ledger → Move → List α} (hnil : ∀ l, f l [] = [])
    (hcons : ∀ l m ms, f l (m :: ms) = g l m ++ f (l.move m) ms) (l : Ledger)
    (ms ms' : List Move) : f l (ms ++ ms') = f l ms ++ f (l.moves ms) ms' := by
  induction ms generalizing l with
  | nil => rw [List.nil_append, hnil, List.nil_append, moves_nil]
  | cons m ms ih => rw [List.cons_append, hcons, hcons, ih, List.append_assoc, moves_cons]

theorem begun_append (l : Ledger) (ms ms' : List Move) :
    l.begun (ms ++ ms') = l.begun ms ++ (l.moves ms).begun ms' :=
  collected_append (fun _ => rfl) (fun _ _ _ => rfl) l ms ms'

/-- **Every move keeps the invariant.** -/
theorem Sound.move (hs : l.Sound) (hm : m.Allowed) : (l.move m).Sound := by
  cases m with
  | outside change => exact hs.outside (hm l)
  | run env data accounts =>
    show (l.run env data accounts).ledger.Sound
    rcases l.run_cases env data accounts with ⟨f, notices, hrun, -⟩ | ⟨i, value, m, -, hexec, hrun⟩
    · rw [hrun]
      exact hs
    · rw [hrun]
      exact (commits_of_exec hs hm.1 hm.2 hexec).sound hs hm.1.union

/-- **An instruction that a run carried out**, with what it did. -/
structure CarriesOut (l : Ledger) (env : Environment) (data : List UInt8) (accounts : List Passed)
    (i : Instruction) (t : Trace) : Prop where
  decoded : Instruction.decode data = .ok i
  result : ∃ value, (l.run env data accounts).result = .ok value
  effect : Effect env accounts (l.spendable .vault) l.books i
    (l.run env data accounts).ledger.books t
  attempts : (l.run env data accounts).attempts = t.attempts
  payments : (l.run env data accounts).payments = t.payments
  events : (l.run env data accounts).events = t.events
  vault : (l.run env data accounts).ledger.lamports .vault + t.returned + paid t.payments =
    l.lamports .vault + t.received + t.given
  quiet : env.destinations.Quiet → t.given = 0
  pays : Pays env accounts l t (l.run env data accounts).ledger

/-- **A run fails and leaves no trace, or it carries out an instruction.** -/
theorem Sound.carriesOut {env : Environment} {data : List UInt8} {accounts : List Passed}
    (hs : l.Sound) (hm : (Move.run env data accounts).Allowed) :
    (∃ f notices, l.run env data accounts = { result := .error f, ledger := l, notices }) ∨
      ∃ i t, l.CarriesOut env data accounts i t := by
  rcases l.run_cases env data accounts with ⟨f, notices, hrun, -⟩ | ⟨i, value, m, hi, hexec, hrun⟩
  · exact Or.inl ⟨f, notices, hrun⟩
  · obtain ⟨t, heffect, hattempts, hpayments, hevents, hmoney, hquiet, hpays⟩ :=
      (commits_of_exec hs hm.1 hm.2 hexec).effect
    refine Or.inr ⟨i, t, hi, ?_, ?_, ?_, ?_, ?_, ?_, hquiet, ?_⟩ <;> rw [hrun]
    · exact ⟨value, rfl⟩
    · exact heffect.of_union
    · exact hattempts
    · exact hpayments
    · exact hevents
    · exact hmoney
    · exact hpays.of_union

/-- **Every move is a step of each receipt.** -/
theorem Sound.receiptStep (hs : l.Sound) (hm : m.Allowed) (d : Digest) :
    ReceiptStep l.books (l.move m).books (l.begins m) d := by
  cases m with
  | outside change => exact .kept List.not_mem_nil (congrFun (hm l).keeps.books _)
  | run env data accounts =>
    show ReceiptStep l.books (l.run env data accounts).ledger.books
      (l.run env data accounts).attempts d
    rcases hs.carriesOut hm with ⟨f, notices, hrun⟩ | ⟨i, t, hrun⟩
    · rw [hrun]
      exact .kept List.not_mem_nil rfl
    · rw [hrun.attempts]
      exact hrun.effect.receiptStep hs.bound d

theorem Sound.moves (hs : l.Sound) (h : ∀ m ∈ ms, m.Allowed) : (l.moves ms).Sound := by
  induction ms generalizing l with
  | nil => exact hs
  | cons m ms ih =>
    rw [List.forall_mem_cons] at h
    exact ih (hs.move h.1) h.2

/-- **A digest that is marked stays so**, and is not begun any more. -/
theorem Sound.marked_moves (hs : l.Sound) (h : ∀ m ∈ ms, m.Allowed)
    (hmarked : l.books.marked d = true) : d ∉ l.begun ms ∧ (l.moves ms).books.marked d = true := by
  induction ms generalizing l with
  | nil => exact ⟨List.not_mem_nil, hmarked⟩
  | cons m ms ih =>
    rw [List.forall_mem_cons] at h
    obtain ⟨hidle, hmarked⟩ := (hs.receiptStep h.1 d).of_marked hmarked
    obtain ⟨hrest, hmarked⟩ := ih (hs.move h.1) h.2 hmarked
    exact ⟨by simp [begun, hidle, hrest], hmarked⟩

/-- **No digest is begun twice in a run.** -/
theorem Sound.count_begun_le_one (hs : l.Sound) (h : ∀ m ∈ ms, m.Allowed) (d : Digest) :
    (l.begun ms).count d ≤ 1 := by
  induction ms generalizing l with
  | nil => exact Nat.zero_le 1
  | cons m ms ih =>
    rw [List.forall_mem_cons] at h
    rw [begun, List.count_append]
    by_cases hd : d ∈ l.begins m
    · -- From here on the digest is marked.
      obtain ⟨honce, -, hmarked⟩ := (hs.receiptStep h.1 d).of_mem hd
      obtain ⟨hrest, -⟩ := (hs.move h.1).marked_moves h.2 hmarked
      have hzero := List.count_eq_zero_of_not_mem hrest
      omega
    · rw [List.count_eq_zero_of_not_mem hd, Nat.zero_add]
      exact ih (hs.move h.1) h.2

end Ledger

/-! ## How a run starts -/

/-- An account that pays for others. -/
def founder : AccountId := .keyed (.replicate 32 7)

/-- A ledger on which somebody has lamports and the program has nothing. -/
def Ledger.funded : Ledger := Ledger.empty.put founder { lamports := 1000000000000 }

/-- What others own does not make a ledger less fresh. -/
theorem Ledger.Fresh.put {l : Ledger} (h : l.Fresh) {a : Account} (ha : a.owner ≠ .bridgeProgram)
    (id : AccountId) : (l.put id a).Fresh := by
  intro other howns
  by_cases hid : other = id
  · unfold Owns at howns
    rw [hid, account_put_self] at howns
    exact ha howns
  · unfold Owns at howns
    rw [account_put_of_ne l a hid] at howns
    exact h other howns

theorem Ledger.fresh_empty : Ledger.empty.Fresh :=
  fun _ (howns : AccountId.systemProgram = .bridgeProgram) => nomatch howns

theorem Ledger.fresh_funded : Ledger.funded.Fresh := fresh_empty.put (by decide) founder

/-- Nothing was proven before, and destination programs do nothing. -/
def Move.unproven : Environment where
  slot := 1
  log := { instructions := [], current := 0 }
  destinations := .ofFaults fun _ => none

/-- Accounts as the founder hands them in: all may be written, and it signs for its own. -/
def Move.handed (accounts : List AccountId) : List Passed :=
  accounts.map fun id => { id, signer := id = founder, writable := true }

/-- The founder runs an instruction. -/
def Move.byFounder (i : Instruction) (accounts : List AccountId) : Move :=
  .run unproven i.encode (handed accounts)

/-- The founder may sign. -/
theorem Move.hostSigned_handed (accounts : List AccountId) : HostSigned (handed accounts) := by
  intro p hp hsigned
  obtain ⟨id, -, rfl⟩ := List.mem_map.1 hp
  obtain rfl : id = founder := by simpa using hsigned
  have hkey : founder.key ≠ AccountId.vault.key := by decide +kernel
  exact hkey

theorem Move.allowed_byFounder (i : Instruction) (accounts : List AccountId) :
    (byFounder i accounts).Allowed :=
  ⟨hostSigned_handed accounts, Destinations.lawful_ofFaults fun _ => none⟩

theorem Ledger.move_byFounder (l : Ledger) (i : Instruction) (accounts : List AccountId) :
    l.move (.byFounder i accounts) =
      (l.run Move.unproven i.encode (Move.handed accounts)).ledger := rfl

/-- What an instruction does to the ledger, once its data has been read. -/
theorem Ledger.move_run_exec (l : Ledger) (env : Environment) (i : Instruction)
    (accounts : List Passed) (h : i.kind.Fits i.args) :
    l.move (.run env i.encode accounts) = (l.report (i.exec env (l.start accounts))).ledger :=
  congrArg Report.ledger (run_of_decode (i.decode_encode h))

/-- What the founder does to the ledger, once the data has been read. -/
theorem Ledger.move_byFounder_exec (l : Ledger) (i : Instruction) (accounts : List AccountId)
    (h : i.kind.Fits i.args) :
    l.move (.byFounder i accounts) =
      (l.report (i.exec Move.unproven (l.start (Move.handed accounts)))).ledger :=
  l.move_run_exec _ i _ h

/-- The bridge is created. -/
def Move.founding : Move :=
  byFounder ⟨.createBridge, { hostChain := 1, epochLength := 1, reclaimAfter := 1 }⟩
    [.bridge, .vault, .roster, .executor, founder, .systemProgram]

/-- A chain is configured that takes short messages, so many at a time. -/
def Move.connecting (rateLimit : UInt32 := 1) (strictOrdering : Bool := false) : Move :=
  byFounder ⟨.configureChain, 2, {
    confirmations := 1, maxMessageBytes := 1, maxComputeBudget := 1, feeMultiplier := 1
    rateLimit, strictOrdering }⟩ [.bridge, .chain 2, founder, .systemProgram]

/-- The founder sends some lamports to the chain, and pays a fee of up to two. -/
def Move.sending : Move :=
  byFounder ⟨.sendMessage, { destinationChain := 2, value := 5, maxFee := 2 }⟩
    [.bridge, .chain 2, .outbound 0, .vault, founder, .systemProgram]

/-- The founder opens an account to pay for messages. -/
def Move.sponsoring : Move :=
  byFounder ⟨.openSponsor, ()⟩ [.sponsor founder.key, founder, .systemProgram]

/-- The founder prepays some lamports. -/
def Move.prepaying : Move :=
  byFounder ⟨.depositSponsor, (7 : Amount)⟩
    [.bridge, .sponsor founder.key, .vault, founder, .systemProgram]

/-! ## A run with deliveries -/

/-- The keys of destination programs. -/
def Move.programKey (n : UInt8) : Key := .replicate 32 n

/-- A message to a program. -/
def Move.messageTo (sourceNonce : Nonce) (program : Key) : InboundMessage where
  sourceChain := 2
  sourceNonce
  sender := [1]
  destination := Address.ofKey program

/-- Two messages to two programs. -/
def Move.twoMessages : List InboundMessage :=
  [messageTo 1 (programKey 9), messageTo 2 (programKey 10)]

/-- The digest of the first. -/
def Move.firstDigest : Digest :=
  .ofNat 32 0x1651e69724fa05fe4887739891c088d2bdc316ba071ef728dc9e4667a501f560

/-- The digest of the second. -/
def Move.secondDigest : Digest :=
  .ofNat 32 0xa80b4cf99dc11d0286af7d3ed09ce79566f1f9c3336ae62719000ac559a51001

/-- A relayer is registered. -/
def Move.registering : Move :=
  byFounder ⟨.registerRelayer, .replicate 32 5, (1 : Amount)⟩
    [.bridge, .roster, .vault, founder, founder, .systemProgram]

/-- A receipt is opened. -/
def Move.openingReceipt (d : Digest) : Move :=
  byFounder ⟨.openReceipt, d⟩ [.receipt d, founder, .systemProgram]

/-- Everything is ready for the two messages. -/
def Move.readying : List Move :=
  [founding, connecting 2, registering, openingReceipt firstDigest, openingReceipt secondDigest]

theorem Move.allowed_readying : ∀ move ∈ readying, move.Allowed := by
  simp only [readying, List.forall_mem_cons]
  exact ⟨allowed_byFounder _ _, allowed_byFounder _ _, allowed_byFounder _ _,
    allowed_byFounder _ _, allowed_byFounder _ _, nofun⟩

/-- The relayer signed a digest. -/
def Move.signing (d : Digest) : Environment where
  slot := 1
  log := {
    instructions := [⟨ed25519Program, Evidence.encode [⟨.replicate 32 5, .zero, d.toList⟩]⟩]
    current := 1 }
  destinations := .ofFaults fun _ => none

/-- The accounts of a message that is handed in by itself.  The program's own account in the place
of the cursor stands for none. -/
def Move.relayAccounts (d : Digest) (program : Key) (cursor : AccountId) : List Passed :=
  handed [.bridge, .chain 2, .roster, .receipt d, cursor, .vault, .executor, .keyed program,
    .inbox program, .instructionLog, founder, .systemProgram]

/-- A message that the relayer signed is handed in by itself. -/
def Move.relaying (d : Digest) (m : InboundMessage) (program : Key) (cursor : AccountId) : Move :=
  .run (signing d) (Instruction.encode ⟨.processMessage, d, m, [{}]⟩)
    (relayAccounts d program cursor)

theorem Move.allowed_relaying (d : Digest) (m : InboundMessage) (program : Key)
    (cursor : AccountId) : (relaying d m program cursor).Allowed :=
  ⟨hostSigned_handed _, Destinations.lawful_ofFaults fun _ => none⟩

/-- The relayer signed the digest of the batch with the two messages. -/
def Move.signedBatch : Environment :=
  signing (.ofNat 32 0xc5fc73aaac06374279818a9bc74e7a895e158edd174f6e5777c7b63000baca7d)

/-- The accounts of the batch.  The first message passes one on to its program. -/
def Move.batchAccounts : List Passed :=
  handed [.bridge, .chain 2, .roster, .vault, .executor, .instructionLog, founder,
    .receipt firstDigest, .keyed (programKey 9), .inbox (programKey 9), .executor,
    .receipt secondDigest, .keyed (programKey 10), .inbox (programKey 10)]

/-- The two messages are handed in as a batch. -/
def Move.delivering : Move :=
  .run signedBatch (Instruction.encode ⟨.processBatch, twoMessages, [{}], [1, 0]⟩) batchAccounts

theorem Move.allowed_delivering : delivering.Allowed :=
  ⟨hostSigned_handed _, Destinations.lawful_ofFaults fun _ => none⟩

theorem Move.fits_twoMessages :
    Instruction.Kind.Fits .processBatch (twoMessages, [{}], [1, 0]) :=
  ⟨⟨by decide, List.forall_mem_cons.2 ⟨by decide, List.forall_mem_singleton.2 (by decide)⟩⟩,
    by decide, by decide⟩

theorem Move.decode_twoMessages :
    Instruction.decode (Instruction.encode ⟨.processBatch, twoMessages, [{}], [1, 0]⟩) =
      .ok ⟨.processBatch, twoMessages, [{}], [1, 0]⟩ :=
  Instruction.decode_encode _ fits_twoMessages

namespace Ledger

/-- A ledger with two destination programs. -/
def hosting : Ledger :=
  (funded.put (.keyed (Move.programKey 9)) (.ofProgram true)).put (.keyed (Move.programKey 10))
    (.ofProgram true)

theorem fresh_hosting : hosting.Fresh := (fresh_funded.put (by decide) _).put (by decide) _

/-- The answer of the batch, and the deliveries that it begins. -/
theorem run_delivering :
    ((hosting.moves Move.readying).run Move.signedBatch
        (Instruction.encode ⟨.processBatch, Move.twoMessages, [{}], [1, 0]⟩)
        Move.batchAccounts).result = .ok none ∧
      ((hosting.moves Move.readying).run Move.signedBatch
        (Instruction.encode ⟨.processBatch, Move.twoMessages, [{}], [1, 0]⟩)
        Move.batchAccounts).attempts = [Move.firstDigest, Move.secondDigest] := by
  rw [run_of_decode Move.decode_twoMessages]
  simp only [Move.readying, Move.founding, Move.connecting, Move.registering,
    Move.openingReceipt, moves_cons, moves_nil]
  repeat rw [move_byFounder_exec]
  any_goals exact trivial
  -- down to the hashes, which are computed by rows
  delta Instruction.exec Exec.createBridge Exec.processBatch Exec.takeMembers Exec.takeMembers._f
    Inbound.processBatch Inbound.digests Route.executor Route.prepare Digest.ofMessage
    Digest.messagePreimage Digest.ofBatch Move.twoMessages Move.messageTo Address.ofKey
  rw [Keccak.keccak256_eq]
  decide +kernel

/-- Both messages are executed. -/
theorem begins_delivering :
    (hosting.moves Move.readying).begins .delivering = [Move.firstDigest, Move.secondDigest] := by
  rw [Move.delivering, begins_run]
  exact run_delivering.2

end Ledger
end QuorumRelay
