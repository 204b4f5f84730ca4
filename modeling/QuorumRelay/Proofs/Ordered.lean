import QuorumRelay.Proofs.Ledger.Cursors
import QuorumRelay.Proofs.Ledger.Run

/-!
# Messages of one sender come in order

A chain may ask that the messages of each of its senders are executed in the
order of their nonces.  The last nonce of a sender is kept in a cursor, and three
things could get in the way of the order: a second cursor of the same sender, a
cursor that is reset, and messages that pass by the cursor.

The account of a cursor is named by its chain and sender only where it is opened;
executing a message takes any account that reads as a cursor of the message's
chain and sender.  That there is one such account is a fact about how cursors
come to be (`Books.Named`), and no instruction looks for a second.

`Ledger.nonces_in_order` is about all runs from a ledger on which the program owns
nothing.  The governor may switch the order on and off at any time: what counts
for a message is whether its chain was strict when it was executed.  Messages that
are executed while it is not are out of this order, and move no cursor.
-/

namespace QuorumRelay

/-- Nothing is given in order by an instruction that executes nothing. -/
theorem Instruction.ordered_of_idle (i : Instruction) (before : Books) (source : ChainId)
    (senderKey : Digest) : i.ordered before [] source senderKey = [] := by
  unfold ordered
  split
  · exact if_neg fun h => List.not_mem_nil h.1
  · rfl

namespace Ledger

variable {l : Ledger} {m : Move} {ms : List Move} {d : Digest} {source : ChainId}
  {senderKey : Digest} {nonces : List Nonce}

/-! ## Moves -/

/-- The nonce of a message of a sender, if a move executes it by itself on a strict chain. -/
def orders (l : Ledger) (source : ChainId) (senderKey : Digest) : Move → List Nonce
  | .run env data accounts =>
    match Instruction.decode data with
    | .ok i => i.ordered l.books (l.run env data accounts).attempts source senderKey
    | .error _ => []
  | .outside _ => []

/-- The nonces of the messages of a sender, in the order in which a row of moves executes them by
themselves while their chain is strict. -/
def ordered (l : Ledger) (source : ChainId) (senderKey : Digest) : List Move → List Nonce
  | [] => []
  | m :: ms => l.orders source senderKey m ++ (l.move m).ordered source senderKey ms

theorem orders_of_idle {env : Environment} {data : List UInt8} {accounts : List Passed}
    (h : (l.run env data accounts).attempts = []) :
    l.orders source senderKey (.run env data accounts) = [] := by
  simp only [orders, h]
  split
  · exact Instruction.ordered_of_idle ..
  · rfl

theorem orders_of_decode {env : Environment} {data : List UInt8} {accounts : List Passed}
    {i : Instruction} (h : Instruction.decode data = .ok i) :
    l.orders source senderKey (.run env data accounts) =
      i.ordered l.books (l.run env data accounts).attempts source senderKey := by
  simp only [orders, h]

/-- Nothing is given in order by an instruction that brings no message of its own. -/
theorem orders_of_ne {env : Environment} {data : List UInt8} {accounts : List Passed}
    {i : Instruction} (h : Instruction.decode data = .ok i) (hkind : i.kind ≠ .processMessage) :
    l.orders source senderKey (.run env data accounts) = [] := by
  rw [orders_of_decode h]
  obtain ⟨kind, args⟩ := i
  cases kind with
  | processMessage => exact absurd rfl hkind
  | _ => rfl

/-- A message that is executed by itself on a strict chain comes in order. -/
theorem orders_of_begins {env : Environment} {data : List UInt8} {accounts : List Passed}
    {message : InboundMessage} {attestations : List Attestation}
    (h : Instruction.decode data = .ok ⟨.processMessage, d, message, attestations⟩)
    (hbegun : d ∈ l.begins (.run env data accounts))
    (hstrict : l.books.strict message.sourceChain = true) :
    l.orders message.sourceChain (Digest.ofSender message.sender) (.run env data accounts) =
      [message.sourceNonce] := by
  rw [orders_of_decode h]
  exact if_pos ⟨hbegun, rfl, rfl, hstrict⟩

/-- **Every move is a step of each cursor.** -/
theorem Sound.cursorStep (hs : l.Sound) (hm : m.Allowed) (hnamed : l.books.Named)
    (source : ChainId) (senderKey : Digest) :
    CursorStep l.books (l.move m).books (l.orders source senderKey m) source senderKey := by
  cases m with
  | outside change => exact .kept rfl (congrFun (hm l).keeps.books _)
  | run env data accounts =>
    show CursorStep l.books (l.run env data accounts).ledger.books
      (l.orders source senderKey (.run env data accounts)) source senderKey
    rcases l.run_cases env data accounts with
      ⟨f, notices, hrun, -⟩ | ⟨i, value, m, hi, hexec, hrun⟩
    · rw [orders_of_idle (by rw [hrun]), hrun]
      exact .kept rfl rfl
    · obtain ⟨t, heffect, hattempts, -⟩ := (commits_of_exec hs hm.1 hm.2 hexec).effect
      rw [orders_of_decode hi, hrun, show m.attempts = t.attempts from hattempts]
      exact heffect.cursorStep hnamed source senderKey

theorem Sound.named_move (hs : l.Sound) (hm : m.Allowed) (hnamed : l.books.Named) :
    (l.move m).books.Named :=
  CursorStep.named (fun source senderKey => ⟨_, hs.cursorStep hm hnamed source senderKey⟩) hnamed

/-! ## Runs -/

theorem ordered_append (l : Ledger) (ms ms' : List Move) :
    l.ordered source senderKey (ms ++ ms') =
      l.ordered source senderKey ms ++ (l.moves ms).ordered source senderKey ms' :=
  collected_append (f := fun l => l.ordered source senderKey) (fun _ => rfl) (fun _ _ _ => rfl) l
    ms ms'

theorem Sound.named_moves (hs : l.Sound) (h : ∀ m ∈ ms, m.Allowed) (hnamed : l.books.Named) :
    (l.moves ms).books.Named := by
  induction ms generalizing l with
  | nil => exact hnamed
  | cons m ms ih =>
    rw [List.forall_mem_cons] at h
    exact ih (hs.move h.1) h.2 (hs.named_move h.1 hnamed)

/-- **Along a run the nonces grow, and the cursor holds the last of them.** -/
theorem Sound.tracks_moves (hs : l.Sound) (h : ∀ m ∈ ms, m.Allowed) (hnamed : l.books.Named)
    (htracks : l.books.Tracks nonces source senderKey) (hchain : nonces.IsChain (· < ·)) :
    (l.moves ms).books.Tracks (nonces ++ l.ordered source senderKey ms) source senderKey ∧
      (nonces ++ l.ordered source senderKey ms).IsChain (· < ·) := by
  induction ms generalizing l nonces with
  | nil =>
    rw [ordered, List.append_nil]
    exact ⟨htracks, hchain⟩
  | cons m ms ih =>
    rw [List.forall_mem_cons] at h
    have hstep := hs.cursorStep h.1 hnamed source senderKey
    rw [ordered, ← List.append_assoc]
    exact ih (hs.move h.1) h.2 (hs.named_move h.1 hnamed) (hstep.tracks htracks)
      (hstep.isChain htracks hchain)

/-- **A cursor stays, and its nonce is never lowered.** -/
theorem Sound.exists_le_moves (hs : l.Sound) (h : ∀ m ∈ ms, m.Allowed) (hnamed : l.books.Named)
    {c : Cursor} (hc : l.books (.cursor source senderKey) = some c) :
    ∃ c', (l.moves ms).books (.cursor source senderKey) = some c' ∧
      ∀ n, c.lastNonce = some n → ∃ n', c'.lastNonce = some n' ∧ n ≤ n' := by
  induction ms generalizing l c with
  | nil => exact ⟨c, hc, fun n hn => ⟨n, hn, UInt64.le_refl n⟩⟩
  | cons m ms ih =>
    rw [List.forall_mem_cons] at h
    obtain ⟨c₁, hc₁, hle₁⟩ := (hs.cursorStep h.1 hnamed source senderKey).exists_le hc
    obtain ⟨c₂, hc₂, hle₂⟩ := ih (hs.move h.1) h.2 (hs.named_move h.1 hnamed) hc₁
    refine ⟨c₂, hc₂, fun n hn => ?_⟩
    obtain ⟨n₁, hn₁, hle⟩ := hle₁ n hn
    obtain ⟨n₂, hn₂, hle'⟩ := hle₂ n₁ hn₁
    exact ⟨n₂, hn₂, UInt64.le_trans hle hle'⟩

/-- **A batch that names a strict chain executes nothing**, and fails. -/
theorem Sound.batch_on_strict (hs : l.Sound) {env : Environment} {data : List UInt8}
    {accounts : List Passed} (hm : (Move.run env data accounts).Allowed)
    {messages : List InboundMessage} {attestations : List Attestation} {extras : List UInt8}
    (hdecode : Instruction.decode data = .ok ⟨.processBatch, messages, attestations, extras⟩)
    {message : InboundMessage} (hmem : message ∈ messages)
    (hstrict : l.books.strict message.sourceChain = true) :
    (l.run env data accounts).attempts = [] ∧ (l.run env data accounts).ledger = l := by
  rcases l.run_cases env data accounts with
    ⟨f, notices, hrun, -⟩ | ⟨i, value, m, hi, hexec, -⟩
  · rw [hrun]
    exact ⟨rfl, rfl⟩
  · obtain rfl : _ = i := Except.ok.inj (hdecode.symm.trans hi)
    obtain ⟨t, heffect, -⟩ := (commits_of_exec hs hm.1 hm.2 hexec).effect
    have hfalse := heffect.not_strict_of_batch hmem
    exact absurd (hstrict.symm.trans hfalse) nofun

theorem Fresh.named (h : l.Fresh) : l.books.Named := by
  intro source senderKey c hc
  rw [h.books_eq_none] at hc
  cases hc

/-- **The messages of a sender are executed in the order of their nonces, over any run.**  While
their chain is strict, the nonces of those that are executed by themselves grow, and no batch that
names the chain executes anything.  Only one account can read as the sender's cursor; it holds the
last of the nonces, and there is none before the first unless it was opened; and from then on it is
never taken away, and its nonce never lowered. -/
theorem nonces_in_order {l : Ledger} (hfresh : l.Fresh) {past : List Move}
    (hpast : ∀ m ∈ past, m.Allowed) (source : ChainId) (senderKey : Digest) :
    (l.ordered source senderKey past).Pairwise (· < ·) ∧
      (∀ env data accounts messages attestations extras,
        (Move.run env data accounts).Allowed →
        Instruction.decode data = .ok ⟨.processBatch, messages, attestations, extras⟩ →
        (∃ m ∈ messages, m.sourceChain = source) →
        (l.moves past).books.strict source = true →
        ((l.moves past).run env data accounts).attempts = [] ∧
          ((l.moves past).run env data accounts).ledger = l.moves past) ∧
      (∀ id c, Cursor.record.load ((l.moves past).account id) = .ok c →
        c.sourceChain = source → c.senderKey = senderKey → id = .cursor source senderKey) ∧
      (∀ c, Cursor.record.load ((l.moves past).account (.cursor source senderKey)) = .ok c →
        c.lastNonce = (l.ordered source senderKey past).getLast?) ∧
      ((∀ c, Cursor.record.load ((l.moves past).account (.cursor source senderKey)) ≠ .ok c) →
        l.ordered source senderKey past = []) ∧
      ∀ c, Cursor.record.load ((l.moves past).account (.cursor source senderKey)) = .ok c →
        ∀ later : List Move, (∀ m ∈ later, m.Allowed) →
          ∃ c', Cursor.record.load
              (((l.moves past).moves later).account (.cursor source senderKey)) = .ok c' ∧
            ∀ n, c.lastNonce = some n → ∃ n', c'.lastNonce = some n' ∧ n ≤ n' := by
  have hs := hfresh.sound.moves hpast
  have hnamed := hfresh.sound.named_moves hpast hfresh.named
  have hstart : l.books.Tracks [] source senderKey :=
    (Books.tracks_of_none (hfresh.books_eq_none _)).2 rfl
  obtain ⟨htracks, hchain⟩ :=
    hfresh.sound.tracks_moves hpast hfresh.named hstart List.isChain_nil
  rw [List.nil_append] at htracks hchain
  refine ⟨?_, ?_, ?_, ?_, ?_, ?_⟩
  · have htrans : IsTrans Nonce (· < ·) := ⟨fun _ _ _ => UInt64.lt_trans⟩
    exact List.isChain_iff_pairwise.1 hchain
  · rintro env data accounts messages attestations extras hm hdecode ⟨m, hmem, rfl⟩ hstrict
    exact hs.batch_on_strict hm hdecode hmem hstrict
  · rintro id c hc rfl rfl
    obtain ⟨source, senderKey, rfl⟩ := hs.kept.exists_sender_of_load hc
    obtain ⟨hsource, hsender⟩ := hnamed source senderKey c
      (entry_of_load (p := .cursor source senderKey) hc)
    rw [hsource, hsender]
  · intro c hc
    exact (Books.tracks_of_some (entry_of_load (p := .cursor source senderKey) hc)).1 htracks
  · intro hnone
    refine (Books.tracks_of_none ?_).1 htracks
    cases hc : (l.moves past).books (.cursor source senderKey) with
    | none => rfl
    | some c => exact absurd (load_cursor hc) (hnone c)
  · intro c hc later hlater
    obtain ⟨c', hc', hle⟩ := hs.exists_le_moves hlater hnamed
      (entry_of_load (p := .cursor source senderKey) hc)
    exact ⟨c', load_cursor hc', hle⟩

end Ledger

/-! ## Two messages in order -/

/-- The hash of the sender of the two messages. -/
def Move.senderDigest : Digest :=
  .ofNat 32 0x5fe7f977e71dba2ea1a68e21057beebb9be2ac30c6410aa38d4f3fbe41dcffd2

/-- The cursor of the sender is opened. -/
def Move.openingCursor : Move :=
  byFounder ⟨.openCursor, 2, [1]⟩ [.cursor 2 senderDigest, founder, .systemProgram]

/-- The first message is handed in. -/
def Move.relayingFirst : Move :=
  relaying firstDigest (messageTo 1 (programKey 9)) (programKey 9) (.cursor 2 senderDigest)

/-- The second message is handed in. -/
def Move.relayingSecond : Move :=
  relaying secondDigest (messageTo 2 (programKey 10)) (programKey 10) (.cursor 2 senderDigest)

/-- Everything is ready for messages in order. -/
def Move.readyingOrder : List Move := [founding, connecting 2 true, registering, openingCursor]

/-- The two messages are handed in by themselves, in order. -/
def Move.inOrder : List Move := readyingOrder ++ [relayingFirst, relayingSecond]

theorem Move.allowed_inOrder : ∀ move ∈ inOrder, move.Allowed := by
  simp only [inOrder, readyingOrder, List.cons_append, List.nil_append, List.forall_mem_cons]
  exact ⟨allowed_byFounder _ _, allowed_byFounder _ _, allowed_byFounder _ _,
    allowed_byFounder _ _, allowed_relaying .., allowed_relaying .., nofun⟩

theorem Move.fits_relaying (d : Digest) (nonce : Nonce) (program : Key) :
    Instruction.Kind.Fits .processMessage (d, messageTo nonce program, [{}]) :=
  ⟨⟨Nat.one_lt_two_pow (by decide), Nat.two_pow_pos 32⟩, by decide⟩

theorem Move.decode_relaying (d : Digest) (nonce : Nonce) (program : Key) :
    Instruction.decode (Instruction.encode ⟨.processMessage, d, messageTo nonce program, [{}]⟩) =
      .ok ⟨.processMessage, d, messageTo nonce program, [{}]⟩ :=
  Instruction.decode_encode _ (fits_relaying d nonce program)

namespace Ledger

/-- The sender of the messages has the hash that their cursor is opened for. -/
theorem ofSender_messageTo : Digest.ofSender [1] = Move.senderDigest := by
  rw [Digest.ofSender, Keccak.keccak256_eq]
  decide +kernel

/-- Each of the two messages is executed when it is handed in, on a strict chain. -/
theorem begins_inOrder :
    ((hosting.moves Move.readyingOrder).books.strict 2 = true ∧
      (hosting.moves Move.readyingOrder).begins Move.relayingFirst = [Move.firstDigest]) ∧
    (((hosting.moves Move.readyingOrder).move Move.relayingFirst).books.strict 2 = true ∧
      ((hosting.moves Move.readyingOrder).move Move.relayingFirst).begins Move.relayingSecond =
        [Move.secondDigest]) ∧
    ((hosting.moves Move.inOrder).books.strict 2 = true ∧
      ((hosting.moves Move.inOrder).books (.cursor 2 Move.senderDigest)).isSome = true) := by
  simp only [Move.inOrder, Move.readyingOrder, Move.relayingFirst, Move.relayingSecond,
    Move.relaying, Move.founding, Move.connecting, Move.registering, Move.openingCursor,
    List.cons_append, List.nil_append, moves_cons, moves_nil, begins_run]
  rw [run_of_decode (Move.decode_relaying _ _ _), run_of_decode (Move.decode_relaying _ _ _)]
  repeat rw [move_byFounder_exec]
  repeat rw [move_run_exec]
  any_goals first
    | exact trivial
    | exact Move.fits_relaying _ _ _
    | exact Nat.one_lt_two_pow (by decide)
  -- down to the hashes, which are computed by rows
  delta Instruction.exec Exec.createBridge Exec.openCursor Exec.processMessage Inbound.process
    Inbound.checkOrder Digest.verify Digest.ofMessage Digest.messagePreimage Digest.ofSender
    Route.executor Route.prepare Move.messageTo Address.ofKey
  rw [Keccak.keccak256_eq]
  decide +kernel

/-- What the founder readies executes nothing. -/
theorem ordered_readyingOrder :
    hosting.ordered 2 Move.senderDigest Move.readyingOrder = [] := by
  have hidle : ∀ (l : Ledger) i accounts, i.kind.Fits i.args → i.kind ≠ .processMessage →
      l.orders 2 Move.senderDigest (.byFounder i accounts) = [] :=
    fun l i accounts hfits hkind => orders_of_ne (i.decode_encode hfits) hkind
  simp only [Move.readyingOrder, ordered, List.append_eq_nil_iff]
  exact ⟨hidle _ _ _ trivial nofun, hidle _ _ _ trivial nofun, hidle _ _ _ trivial nofun,
    hidle _ _ _ (Nat.one_lt_two_pow (by decide)) nofun, trivial⟩

theorem orders_relaying {l : Ledger} {d : Digest} {nonce : Nonce} {program : Key}
    {cursor : AccountId}
    (hbegun : l.begins (.relaying d (Move.messageTo nonce program) program cursor) = [d])
    (hstrict : l.books.strict 2 = true) :
    l.orders 2 Move.senderDigest (.relaying d (Move.messageTo nonce program) program cursor) =
      [nonce] := by
  have hmem : d ∈ l.begins (.relaying d (Move.messageTo nonce program) program cursor) := by
    rw [hbegun]
    exact List.mem_singleton_self d
  have horders := orders_of_begins (Move.decode_relaying d nonce program) hmem hstrict
  rwa [show (Move.messageTo nonce program).sender = [1] from rfl, ofSender_messageTo] at horders

/-- The two messages are executed in the order of their nonces. -/
theorem ordered_inOrder : hosting.ordered 2 Move.senderDigest Move.inOrder = [1, 2] := by
  obtain ⟨⟨hstrict₁, hbegun₁⟩, ⟨hstrict₂, hbegun₂⟩, -⟩ := begins_inOrder
  rw [Move.inOrder, ordered_append, ordered_readyingOrder, List.nil_append]
  generalize hosting.moves Move.readyingOrder = l at *
  rw [ordered, ordered, ordered, Move.relayingSecond, orders_relaying hbegun₂ hstrict₂,
    Move.relayingFirst, orders_relaying hbegun₁ hstrict₁]
  rfl

/-- Two messages are executed in the order of their nonces.  The sender's cursor, which only its own
account can hold, has the nonce of the second, whatever comes later is not below it, and no batch
that names the chain executes anything. -/
theorem nonces_in_order_of_two :
    hosting.ordered 2 Move.senderDigest Move.inOrder = [1, 2] ∧
      (hosting.ordered 2 Move.senderDigest Move.inOrder).Pairwise (· < ·) ∧
      (∃ c, Cursor.record.load
          ((hosting.moves Move.inOrder).account (.cursor 2 Move.senderDigest)) = .ok c ∧
        c.lastNonce = some 2 ∧
        ∀ later : List Move, (∀ m ∈ later, m.Allowed) →
          ∃ c' n', Cursor.record.load (((hosting.moves Move.inOrder).moves later).account
              (.cursor 2 Move.senderDigest)) = .ok c' ∧
            c'.lastNonce = some n' ∧ 2 ≤ n') ∧
      (∀ id c, Cursor.record.load ((hosting.moves Move.inOrder).account id) = .ok c →
        c.sourceChain = 2 → c.senderKey = Move.senderDigest → id = .cursor 2 Move.senderDigest) ∧
      ∀ env data accounts messages attestations extras, (Move.run env data accounts).Allowed →
        Instruction.decode data = .ok ⟨.processBatch, messages, attestations, extras⟩ →
        (∃ m ∈ messages, m.sourceChain = 2) →
        ((hosting.moves Move.inOrder).run env data accounts).attempts = [] ∧
          ((hosting.moves Move.inOrder).run env data accounts).ledger =
            hosting.moves Move.inOrder := by
  obtain ⟨-, -, hstrict, hopened⟩ := begins_inOrder
  obtain ⟨hpairwise, hbatch, hplace, hlast, -, hstays⟩ :=
    nonces_in_order fresh_hosting Move.allowed_inOrder 2 Move.senderDigest
  have hordered := ordered_inOrder
  -- from here on it does not matter how the messages were executed
  generalize hosting.ordered 2 Move.senderDigest Move.inOrder = nonces at *
  generalize hosting.moves Move.inOrder = l at *
  obtain ⟨c, hc⟩ := Option.isSome_iff_exists.1 hopened
  have hload := load_cursor hc
  have hnonce : c.lastNonce = some 2 := by
    rw [hlast c hload, hordered]
    rfl
  refine ⟨hordered, hpairwise, ⟨c, hload, hnonce, fun later hlater => ?_⟩, hplace,
    fun env data accounts messages attestations extras hm hdecode hmem =>
      hbatch env data accounts messages attestations extras hm hdecode hmem hstrict⟩
  obtain ⟨c', hload', hle⟩ := hstays c hload later hlater
  obtain ⟨n', hn', hle⟩ := hle 2 hnonce
  exact ⟨c', n', hload', hn', hle⟩

end Ledger
end QuorumRelay
