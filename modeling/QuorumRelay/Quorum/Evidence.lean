import QuorumRelay.Amount
import QuorumRelay.Codec

/-!
# Evidence of signatures

The program does not check Ed25519 signatures itself.  The host's Ed25519 program
does, in instructions that stand earlier in the same transaction, and the log of
the transaction's instructions is proof that it did: had a signature been wrong,
the transaction would not have got this far.  What is left to do is to read the
data of those instructions exactly as that program reads it, and to accept only
what it checked.

## Layout of an Ed25519 instruction

A count byte and a padding byte, then one record of seven 16-bit integers for
each signature, which say where the signature, the key and the message lie.  Each
place is an offset and the number of the instruction whose data it is in; only
places in the instruction itself, marked by the number `0xFFFF`, are accepted.
-/

namespace QuorumRelay

/-- The key of the host's Ed25519 program. -/
def ed25519Program : Key :=
  .ofNat 32 0x037d46d67c93fbbe12f9428f838d40ff0570744927f48a64fcca704480000000

/-- The key of the account that holds the transaction's instructions. -/
def instructionLogKey : Key :=
  .ofNat 32 0x06a7d517187bd16635dad40455fdc2c0c124c68f215675a5dbbacb5f08000000

/-- An instruction of the transaction, as far as evidence needs it. -/
structure LoggedInstruction where
  program : Key
  data : List UInt8
  deriving DecidableEq

/-- The account with the instructions of the transaction. -/
structure InstructionLog where
  /-- The key of the account; evidence is read from the genuine one only. -/
  key : Key := instructionLogKey
  instructions : List LoggedInstruction
  /-- The number of the instruction that is running. -/
  current : Nat
  deriving DecidableEq

/-- A signature that the Ed25519 program has checked. -/
structure ProvenSignature where
  publicKey : Key
  signature : Signature
  message : List UInt8
  deriving DecidableEq

namespace Evidence

/-- Bytes before the first record. -/
def headerSize : Nat := 2

/-- Bytes of a record. -/
def recordSize : Nat := 14

/-- The number that stands for the instruction the record is in. -/
def here : UInt16 := 0xFFFF

/-- Where the parts of one signature lie. -/
structure Record where
  signatureOffset : UInt16
  signatureInstruction : UInt16
  keyOffset : UInt16
  keyInstruction : UInt16
  messageOffset : UInt16
  messageSize : UInt16
  messageInstruction : UInt16
  deriving DecidableEq

/-- The written form of a record. -/
def Record.codec : Codec Record :=
  (Codec.u16.pair <| Codec.u16.pair <| Codec.u16.pair <| Codec.u16.pair <| Codec.u16.pair <|
    Codec.u16.pair Codec.u16).map
    (fun (a, b, c, d, e, f, g) => ⟨a, b, c, d, e, f, g⟩)
    (fun r => (r.signatureOffset, r.signatureInstruction, r.keyOffset, r.keyInstruction,
      r.messageOffset, r.messageSize, r.messageInstruction))

/-- Every way in which evidence can be malformed is refused alike. -/
def malformed {α : Type} : Except Fault α :=
  .error (.refused .invalidEd25519Instruction)

/-- A stretch of the data that has to lie inside it. -/
def slice (data : List UInt8) (offset size : Nat) : Except Fault (List UInt8) :=
  if offset + size ≤ data.length then .ok ((data.drop offset).take size) else malformed

/-- A stretch of the data of known size. -/
def bytesAt (n : Nat) (data : List UInt8) (offset : Nat) : Except Fault (Bytes n) :=
  match Bytes.split? (n := n) (data.drop offset) with
  | some (found, _) => .ok found
  | none => malformed

/-- The record with a given number. -/
def recordAt (data : List UInt8) (index : Nat) : Except Fault Record := do
  let written ← slice data (headerSize + index * recordSize) recordSize
  match Record.codec.read written with
  | .ok (r, _) => return r
  | .error _ => malformed

/-- The signature that the record with a given number points to. -/
def signatureAt (data : List UInt8) (index : Nat) : Except Fault ProvenSignature := do
  let r ← recordAt data index
  require (r.signatureInstruction = here ∧ r.keyInstruction = here ∧ r.messageInstruction = here)
    .invalidEd25519Instruction
  let signature ← bytesAt 64 data r.signatureOffset.toNat
  let publicKey ← bytesAt 32 data r.keyOffset.toNat
  let message ← slice data r.messageOffset.toNat r.messageSize.toNat
  return ⟨publicKey, signature, message⟩

/-- All signatures of an Ed25519 instruction. -/
def parse (data : List UInt8) : Except Fault (List ProvenSignature) :=
  match data with
  | count :: _ :: _ => (List.range count.toNat).mapM (signatureAt data)
  | _ => malformed

/-- The signatures proven by the instruction with a given number; instructions of
other programs prove nothing. -/
def ofInstruction (log : InstructionLog) (index : Nat) : Except Fault (List ProvenSignature) :=
  match log.instructions[index]? with
  | none => .error (.host .invalidArgument)
  | some i => if i.program = ed25519Program then parse i.data else .ok []

/-- The signatures proven before the running instruction. -/
def load (log : InstructionLog) : Except Fault (List ProvenSignature) := do
  require (log.key = instructionLogKey) .invalidEd25519Instruction
  let found ← (List.range log.current).mapM (ofInstruction log)
  return found.flatten

/-- The bytes of one signature in the data of a well-formed instruction. -/
def body (p : ProvenSignature) : List UInt8 :=
  p.publicKey.toList ++ p.signature.toList ++ p.message

/-- The record of a signature whose bytes start at an offset. -/
def recordFor (p : ProvenSignature) (offset : Nat) : Record where
  signatureOffset := UInt16.ofNat (offset + 32)
  signatureInstruction := here
  keyOffset := UInt16.ofNat offset
  keyInstruction := here
  messageOffset := UInt16.ofNat (offset + 96)
  messageSize := UInt16.ofNat p.message.length
  messageInstruction := here

/-- The records of signatures whose bytes stand one after the other from an offset on. -/
def recordsFrom : List ProvenSignature → Nat → List Record
  | [], _ => []
  | p :: rest, offset => recordFor p offset :: recordsFrom rest (offset + (body p).length)

/-- The data of an instruction that proves a list of signatures: the count, the
records, then the bytes of each signature. -/
def encode (proofs : List ProvenSignature) : List UInt8 :=
  let start := headerSize + proofs.length * recordSize
  UInt8.ofNat proofs.length :: 0 ::
    ((recordsFrom proofs start).flatMap Record.codec.write ++ proofs.flatMap body)

end Evidence

/-- Whether a key signed a digest. -/
abbrev Verifier := Key → Digest → Signature → Bool

/-- A signature is good if exactly it was proven. -/
def Evidence.verifier (proven : List ProvenSignature) : Verifier :=
  fun publicKey digest signature =>
    proven.any fun p =>
      p.publicKey = publicKey && p.signature = signature && p.message = digest.toList

end QuorumRelay
