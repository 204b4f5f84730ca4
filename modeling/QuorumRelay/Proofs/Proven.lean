import QuorumRelay.Proofs.Layout

/-!
# What is loaded from the log

The log of a transaction's instructions is read up to the running instruction, and
of what is found there only the data of Ed25519 instructions is looked at
(`Evidence.evidence`).  Nothing else of the log has a say: loading is a function of
that list (`Evidence.load_eq`), so it is the same for every log that agrees on it,
whatever other programs were called in between and whatever comes later.

Since reading data is settled by its layout (`Evidence.parse_eq_ok_iff`), loading is
settled too.  It succeeds exactly if all evidence is of the right layout, and the
verifier then accepts exactly the signatures that some record says.  These are the
signatures of which the bytes of the log are evidence (`Evidence.mem_iff_recorded`),
all of them and no others.
-/

namespace QuorumRelay
namespace Evidence

variable {log : InstructionLog} {data : List UInt8} {proven : List ProvenSignature} {f : Fault}

/-! ## The part of the log that counts -/

/-- **The evidence in a log**: the data of the Ed25519 instructions below the running one, in
their order. -/
def evidence (log : InstructionLog) : List (List UInt8) :=
  ((log.instructions.take log.current).filter fun i => i.program = ed25519Program).map (·.data)

theorem mem_evidence : data ∈ evidence log ↔ ∃ k < log.current, ∃ i,
    log.instructions[k]? = some i ∧ i.program = ed25519Program ∧ i.data = data := by
  have htake : ∀ i, i ∈ log.instructions.take log.current ↔
      ∃ k < log.current, log.instructions[k]? = some i := by
    intro i
    rw [List.mem_iff_getElem?]
    simp only [List.getElem?_take, Option.ite_none_right_eq_some]
  rw [evidence, List.mem_map]
  simp only [List.mem_filter, decide_eq_true_eq, htake]
  constructor
  · rintro ⟨i, ⟨⟨k, hlt, hk⟩, hprogram⟩, hdata⟩
    exact ⟨k, hlt, i, hk, hprogram, hdata⟩
  · rintro ⟨k, hlt, i, hk, hprogram, hdata⟩
    exact ⟨i, ⟨⟨k, hlt, hk⟩, hprogram⟩, hdata⟩

/-- What one instruction proves. -/
def ofLogged (i : LoggedInstruction) : Except Fault (List ProvenSignature) :=
  if i.program = ed25519Program then parse i.data else .ok []

/-- Looking the instructions up by their numbers is going through them, as long as there are
instructions with these numbers. -/
theorem mapM_ofInstruction {k : Nat} (hk : k ≤ log.instructions.length) :
    (List.range k).mapM (ofInstruction log) = (log.instructions.take k).mapM ofLogged := by
  induction k with
  | zero => rfl
  | succ k ih =>
    have hlook : log.instructions[k]? = some log.instructions[k] := List.getElem?_eq_getElem hk
    have hone : ofInstruction log k = ofLogged log.instructions[k] := by
      rw [ofInstruction, hlook]
      rfl
    rw [List.range_succ, List.take_add_one, hlook, Option.toList_some, List.mapM_append,
      List.mapM_append, ih (Nat.le_of_succ_le hk), List.mapM_cons, List.mapM_cons, hone]
    rfl

/-- Instructions of other programs prove nothing, and refuse nothing. -/
theorem flatten_mapM_ofLogged (is : List LoggedInstruction) :
    List.flatten <$> is.mapM ofLogged = List.flatten <$>
      ((is.filter fun i => i.program = ed25519Program).map (·.data)).mapM parse := by
  induction is with
  | nil => rfl
  | cons i is ih =>
    by_cases hprogram : i.program = ed25519Program
    · have hone : ofLogged i = parse i.data := if_pos hprogram
      rw [List.filter_cons_of_pos (by simpa using hprogram), List.map_cons, List.mapM_cons,
        List.mapM_cons, hone]
      cases parse i.data with
      | error e => rfl
      | ok proofs =>
        have hjoin : ∀ x : Except Fault (List (List ProvenSignature)), List.flatten <$>
            (x >>= fun found => pure (proofs :: found)) = (proofs ++ ·) <$> List.flatten <$> x := by
          intro x
          cases x <;> rfl
        exact (hjoin _).trans ((congrArg _ ih).trans (hjoin _).symm)
    · have hone : ofLogged i = .ok [] := if_neg hprogram
      rw [List.filter_cons_of_neg (by simpa using hprogram), ← ih, List.mapM_cons, hone]
      cases is.mapM ofLogged <;> rfl

/-- **Loading reads the evidence and nothing else.** -/
theorem load_eq (hkey : log.key = instructionLogKey)
    (hcurrent : log.current ≤ log.instructions.length) :
    load log = List.flatten <$> (evidence log).mapM parse := by
  rw [evidence, ← flatten_mapM_ofLogged, ← mapM_ofInstruction hcurrent, load, require, if_pos hkey]
  cases (List.range log.current).mapM (ofInstruction log) <;> rfl

/-! ## What loading gives -/

section

variable (hkey : log.key = instructionLogKey) (hcurrent : log.current ≤ log.instructions.length)

include hkey hcurrent

/-- **Loading succeeds exactly if all evidence is of the right layout.** -/
theorem exists_load_iff :
    (∃ proven, load log = .ok proven) ↔ ∀ data ∈ evidence log, WellFormed data := by
  rw [load_eq hkey hcurrent]
  simp only [except_map_eq_ok, except_mapM_eq_ok]
  constructor
  · rintro ⟨proven, found, hfound, -⟩ data hdata
    obtain ⟨k, hk⟩ := List.mem_iff_getElem?.1 hdata
    obtain ⟨proofs, -, hparse⟩ := forall₂_getElem? hfound hk
    exact exists_parse_iff.1 ⟨proofs, hparse⟩
  · intro hwell
    choose! proofs hproofs using fun data hdata => exists_parse_iff.2 (hwell data hdata)
    exact ⟨_, (evidence log).map proofs,
      List.forall₂_map_right_iff.2 (List.forall₂_same.2 hproofs), rfl⟩

/-- **The first evidence of another layout is what loading fails at.** -/
theorem load_eq_error_iff : load log = .error f ↔ ∃ before data after,
    evidence log = before ++ data :: after ∧ (∀ earlier ∈ before, WellFormed earlier) ∧
      parse data = .error f := by
  rw [load_eq hkey hcurrent, except_map_eq_error, except_mapM_eq_error]
  simp only [exists_parse_iff]

/-- **What is proven is what the evidence says.** -/
theorem mem_of_load (h : load log = .ok proven) {p : ProvenSignature} :
    p ∈ proven ↔ ∃ data ∈ evidence log, ∃ n < announced data, Says data n p := by
  rw [load_eq hkey hcurrent, except_map_eq_ok] at h
  obtain ⟨found, hfound, rfl⟩ := h
  rw [except_mapM_eq_ok] at hfound
  rw [List.mem_flatten]
  constructor
  · rintro ⟨proofs, hproofs, hp⟩
    obtain ⟨k, hk⟩ := List.mem_iff_getElem?.1 hproofs
    obtain ⟨data, hdata, hparse⟩ := forall₂_getElem? hfound.flip hk
    obtain ⟨n, hn⟩ := List.mem_iff_getElem?.1 hp
    obtain ⟨-, hlen, hsaid⟩ := parse_eq_ok_iff.1 hparse
    refine ⟨data, List.mem_of_getElem? hdata, n, ?_, hsaid n p hn⟩
    rw [← hlen]
    exact (List.getElem?_eq_some_iff.1 hn).1
  · rintro ⟨data, hdata, n, hn, hp⟩
    obtain ⟨k, hk⟩ := List.mem_iff_getElem?.1 hdata
    obtain ⟨proofs, hproofs, hparse⟩ := forall₂_getElem? hfound hk
    obtain ⟨-, hlen, hsaid⟩ := parse_eq_ok_iff.1 hparse
    rw [← hlen] at hn
    obtain rfl := (hsaid n _ (List.getElem?_eq_getElem hn)).unique hp
    exact ⟨proofs, List.mem_of_getElem? hproofs, List.getElem_mem hn⟩

/-- **Everything that is recorded in the log is proven**, once the log can be loaded at all. -/
theorem mem_iff_recorded (h : load log = .ok proven) {p : ProvenSignature} :
    p ∈ proven ↔ Recorded log p := by
  constructor
  · exact (recorded_of_load h).2 p
  · rintro ⟨k, hk, i, hi, hprogram, n, hwritten⟩
    have hdata : i.data ∈ evidence log := mem_evidence.2 ⟨k, hk, i, hi, hprogram, rfl⟩
    obtain ⟨hn, hsaid⟩ := hwritten.says
    exact (mem_of_load hkey hcurrent h).2 ⟨i.data, hdata, n, hn, hsaid⟩

end

theorem verifier_eq_true {key : Key} {digest : Digest} {signature : Signature} :
    verifier proven key digest signature = true ↔ ⟨key, signature, digest.toList⟩ ∈ proven := by
  rw [verifier, List.any_eq_true]
  simp only [Bool.and_eq_true, decide_eq_true_eq]
  constructor
  · rintro ⟨p, hp, ⟨rfl, rfl⟩, hmessage⟩
    rwa [← hmessage]
  · exact fun hp => ⟨_, hp, ⟨rfl, rfl⟩, rfl⟩

/-- **The evidence in a genuine log is read exactly as it is laid out.**  Loading succeeds exactly
if every instruction of the Ed25519 program below the running one has data of the right layout,
and else fails at the first that has not.  The verifier then accepts exactly what a record says
that one of them announces, of a message of 32 bytes.  No other instruction has a say.  Reading
data never fails but as malformed, so never for a place outside it, and data that is laid out for
a list of signatures says that list. -/
theorem load_exactly :
    (∀ log : InstructionLog, log.key = instructionLogKey →
      log.current ≤ log.instructions.length →
      ((∃ proven, load log = .ok proven) ↔ ∀ data ∈ evidence log, WellFormed data) ∧
      (∀ f, load log = .error f ↔ ∃ before data after,
        evidence log = before ++ data :: after ∧ (∀ earlier ∈ before, WellFormed earlier) ∧
          ¬ WellFormed data ∧ parse data = .error f) ∧
      (∀ proven, load log = .ok proven → ∀ key digest signature,
        verifier proven key digest signature = true ↔
          ∃ data ∈ evidence log, ∃ n < announced data,
            Says data n ⟨key, signature, digest.toList⟩ ∧ field data n 5 = 32) ∧
      ∀ other : InstructionLog, other.key = instructionLogKey →
        other.current ≤ other.instructions.length → evidence other = evidence log →
          load other = load log) ∧
    (∀ data f, parse data = .error f ↔
      ¬ WellFormed data ∧ f = .refused .invalidEd25519Instruction) ∧
    (∀ data proofs, parse data = .ok proofs ↔ WellFormed data ∧
      proofs.length = announced data ∧ ∀ n p, proofs[n]? = some p → Says data n p) ∧
    ∀ proofs, proofs.length ≤ 255 → PlacesFit proofs → parse (encode proofs) = .ok proofs := by
  refine ⟨fun log hkey hcurrent => ⟨exists_load_iff hkey hcurrent, fun f => ?_, ?_, ?_⟩,
    fun data f => parse_eq_error_iff, fun data proofs => parse_eq_ok_iff,
    fun proofs => parse_encode⟩
  · rw [load_eq_error_iff hkey hcurrent]
    have hbad : ∀ data, parse data = .error f ↔ ¬ WellFormed data ∧ parse data = .error f :=
      fun data => ⟨fun h => ⟨(parse_eq_error_iff.1 h).1, h⟩, And.right⟩
    simp only [← hbad]
  · intro proven hload key digest signature
    have hwell : ∀ data ∈ evidence log, WellFormed data :=
      (exists_load_iff hkey hcurrent).1 ⟨proven, hload⟩
    rw [verifier_eq_true, mem_of_load hkey hcurrent hload]
    constructor
    · rintro ⟨data, hdata, n, hn, hsaid⟩
      have hsize := hsaid.size_eq ((hwell data hdata).placed n hn)
      rw [digest.length_toList] at hsize
      exact ⟨data, hdata, n, hn, hsaid, hsize⟩
    · rintro ⟨data, hdata, n, hn, hsaid, -⟩
      exact ⟨data, hdata, n, hn, hsaid⟩
  · intro other hkey' hcurrent' hsame
    rw [load_eq hkey hcurrent, load_eq hkey' hcurrent', hsame]

/-- A transfer before a proof, both below the running instruction, and data without a header behind
it: the proof is loaded, what it proves is accepted and nothing else, and without the last
instruction the same is loaded.  Where the running instruction is a later one, nothing is. -/
theorem load_exactly_of_one :
    let p : ProvenSignature := ⟨.zero, .zero, List.replicate 32 0⟩
    let log : InstructionLog :=
      { instructions := [⟨.zero, [1]⟩, ⟨ed25519Program, encode [p]⟩, ⟨ed25519Program, [1]⟩],
        current := 2 }
    parse (encode [p]) = .ok [p] ∧
      (∃ proven, load log = .ok proven ∧
        verifier proven .zero .zero .zero = true ∧
        verifier proven (.replicate 32 1) .zero .zero = false) ∧
      load { log with instructions := log.instructions.take 2 } = load log ∧
      load { log with current := 3 } = .error (.refused .invalidEd25519Instruction) := by
  intro p log
  obtain ⟨hlog, -, hparse, hencode⟩ := load_exactly
  have hfit : PlacesFit [p] := by
    intro k q hq
    cases k with
    | zero =>
      obtain rfl : p = q := by simpa using hq
      decide
    | succ k => cases hq
  have hp : parse (encode [p]) = .ok [p] := hencode [p] (by decide) hfit
  obtain ⟨hwell, hlen, hsaid⟩ := (hparse _ _).1 hp
  have hevidence : evidence log = [encode [p]] := by decide
  obtain ⟨hok, -, hverifier, hother⟩ := hlog log rfl (by decide)
  obtain ⟨proven, hproven⟩ := hok.2 (by rw [hevidence]; simpa using hwell)
  refine ⟨hp, ⟨proven, hproven, ?_, ?_⟩, hother _ rfl (by decide) (by decide), ?_⟩
  · refine (hverifier proven hproven _ _ _).2 ⟨encode [p], ?_, 0, ?_, hsaid 0 p rfl, by decide⟩
    · exact hevidence ▸ List.mem_singleton_self _
    · exact Nat.lt_of_lt_of_eq Nat.one_pos hlen
  · rw [Bool.eq_false_iff, ne_eq, hverifier proven hproven]
    rintro ⟨data, hdata, n, hn, hn', -⟩
    rw [hevidence, List.mem_singleton] at hdata
    subst hdata
    obtain rfl : n = 0 := Nat.lt_one_iff.1 (Nat.lt_of_lt_of_eq hn hlen.symm)
    exact absurd (congrArg ProvenSignature.publicKey (hn'.unique (hsaid 0 p rfl))) (by decide)
  · obtain ⟨-, hbad, -⟩ := hlog { log with current := 3 } rfl (by decide)
    refine (hbad _).2 ⟨[encode [p]], [1], [], by decide, by simpa using hwell, fun h => ?_, rfl⟩
    exact absurd h.header (by decide)

end Evidence
end QuorumRelay
