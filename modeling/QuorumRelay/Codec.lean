import QuorumRelay.Bytes

/-!
# Binary format of values

Every value that is stored or sent is written by one rule: fields in order,
integers with the little end first, one byte for a truth value, a 32-bit count
before a list, a tag byte before an optional value.  A `Codec` holds both
directions of the rule for one type, and the combinators build the codec of a
record from those of its fields, so writing and reading cannot drift apart.

Reading takes what it needs from the front and hands back the rest; bytes left
over are the caller's business.
-/

namespace QuorumRelay

/-- Why bytes are not the written form of a value. -/
inductive ReadFault where
  /-- The bytes end before the value does. -/
  | tooShort
  /-- A truth value is written as neither 0 nor 1. -/
  | notBool (byte : UInt8)
  /-- No alternative has this tag. -/
  | unknownTag (byte : UInt8)
  deriving DecidableEq

/-- The written form of the values of a type, and how it is read back. -/
structure Codec (α : Type) where
  write : α → List UInt8
  read : List UInt8 → Except ReadFault (α × List UInt8)

namespace Codec

variable {α β : Type}

/-- A byte string of known length stands for itself. -/
def bytes (n : Nat) : Codec (Bytes n) where
  write a := a.toList
  read input :=
    match Bytes.split? input with
    | some found => .ok found
    | none => .error .tooShort

/-- The same bytes, seen as another type. -/
def map (c : Codec α) (view : α → β) (back : β → α) : Codec β where
  write b := c.write (back b)
  read input := do
    let (a, rest) ← c.read input
    return (view a, rest)

/-- Two values, one after the other. -/
def pair (c : Codec α) (d : Codec β) : Codec (α × β) where
  write p := c.write p.1 ++ d.write p.2
  read input := do
    let (a, rest) ← c.read input
    let (b, rest) ← d.read rest
    return ((a, b), rest)

/-- One byte. -/
def u8 : Codec UInt8 where
  write x := [x]
  read
    | [] => .error .tooShort
    | x :: rest => .ok (x, rest)

/-- A 16-bit integer. -/
def u16 : Codec UInt16 :=
  (bytes 2).map (fun b => UInt16.ofNat (ofLittleEndian b.toList))
    (fun x => ⟨littleEndian 2 x.toNat, length_littleEndian ..⟩)

/-- A 32-bit integer. -/
def u32 : Codec UInt32 :=
  (bytes 4).map (fun b => UInt32.ofNat (ofLittleEndian b.toList))
    (fun x => ⟨littleEndian 4 x.toNat, length_littleEndian ..⟩)

/-- A 64-bit integer. -/
def u64 : Codec UInt64 :=
  (bytes 8).map (fun b => UInt64.ofNat (ofLittleEndian b.toList))
    (fun x => ⟨littleEndian 8 x.toNat, length_littleEndian ..⟩)

/-- A truth value is one byte, 0 or 1. -/
def bool : Codec Bool where
  write
    | false => [0]
    | true => [1]
  read
    | [] => .error .tooShort
    | b :: rest =>
      if b = 0 then .ok (false, rest)
      else if b = 1 then .ok (true, rest)
      else .error (.notBool b)

/-- An optional value is the tag 0, or the tag 1 and the value. -/
def option (c : Codec α) : Codec (Option α) where
  write
    | none => [0]
    | some a => 1 :: c.write a
  read
    | [] => .error .tooShort
    | b :: rest =>
      if b = 0 then .ok (none, rest)
      else if b = 1 then do
        let (a, rest) ← c.read rest
        return (some a, rest)
      else .error (.unknownTag b)

/-- A given number of values, one after the other. -/
def readMany (c : Codec α) : Nat → List UInt8 → Except ReadFault (List α × List UInt8)
  | 0, input => .ok ([], input)
  | count + 1, input => do
    let (a, rest) ← c.read input
    let (as, rest) ← readMany c count rest
    return (a :: as, rest)

/-- A list is its 32-bit length and its elements. -/
def list (c : Codec α) : Codec (List α) where
  write as := u32.write (UInt32.ofNat as.length) ++ as.flatMap c.write
  read input := do
    let (count, rest) ← u32.read input
    readMany c count.toNat rest

/-- A byte string of any length is its 32-bit length and its bytes. -/
def byteString : Codec (List UInt8) := list u8

end Codec

end QuorumRelay
