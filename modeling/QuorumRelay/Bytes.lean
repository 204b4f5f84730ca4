/-!
# Byte strings of a fixed length

Keys, digests, addresses and signatures are byte strings whose length is part of
what they are.  `Bytes n` keeps the length in the type, so a reader of a value
never has to check it again, and two values are equal exactly when their bytes
are.

## Integers as bytes

Integers are written in either byte order: little end first inside records, big
end first inside the preimages of digests.  `littleEndian` and `ofLittleEndian`
are inverse to each other below the bound that the width allows, and the other
order is the reverse.
-/

namespace QuorumRelay

/-- A byte string of exactly `n` bytes. -/
structure Bytes (n : Nat) where
  toList : List UInt8
  length_toList : toList.length = n
  deriving DecidableEq

namespace Bytes

variable {n : Nat}

@[ext] theorem ext {a b : Bytes n} (h : a.toList = b.toList) : a = b := by
  cases a; cases b; cases h; rfl

/-- The string of `n` equal bytes. -/
def replicate (n : Nat) (b : UInt8) : Bytes n :=
  ⟨List.replicate n b, List.length_replicate⟩

/-- The string of `n` zero bytes. -/
def zero : Bytes n := replicate n 0

instance : Inhabited (Bytes n) := ⟨zero⟩

/-- The bytes as a string of length `n`, if that is their number. -/
def ofList? (bytes : List UInt8) : Option (Bytes n) :=
  if h : bytes.length = n then some ⟨bytes, h⟩ else none

/-- The first `n` bytes and the rest, if there are as many. -/
def split? (bytes : List UInt8) : Option (Bytes n × List UInt8) :=
  if h : n ≤ bytes.length then
    some (⟨bytes.take n, by rw [List.length_take]; omega⟩, bytes.drop n)
  else
    none

@[simp] theorem split?_append (a : Bytes n) (rest : List UInt8) :
    split? (a.toList ++ rest) = some (a, rest) := by
  have h := a.length_toList
  have hle : n ≤ (a.toList ++ rest).length := by rw [List.length_append]; omega
  rw [split?, dif_pos hle]
  congr 2
  · exact Bytes.ext (by simp [← h])
  · simp [← h]

theorem eq_append_of_split? {bytes rest : List UInt8} {a : Bytes n}
    (h : split? bytes = some (a, rest)) : bytes = a.toList ++ rest := by
  unfold split? at h
  split at h
  · cases h
    exact (List.take_append_drop n bytes).symm
  · cases h

/-- The first `k` bytes of a longer string. -/
def take (k : Nat) (a : Bytes n) (h : k ≤ n := by decide) : Bytes k :=
  ⟨a.toList.take k, by rw [List.length_take, a.length_toList]; omega⟩

/-- The last `k` bytes of a longer string. -/
def takeLast (k : Nat) (a : Bytes n) (h : k ≤ n := by decide) : Bytes k :=
  ⟨a.toList.drop (n - k), by rw [List.length_drop, a.length_toList]; omega⟩

end Bytes

/-- The lowest `width` bytes of a number, lowest first. -/
def littleEndian : Nat → Nat → List UInt8
  | 0, _ => []
  | width + 1, value => UInt8.ofNat value :: littleEndian width (value / 256)

/-- The number that bytes stand for, lowest first. -/
def ofLittleEndian : List UInt8 → Nat
  | [] => 0
  | b :: rest => b.toNat + 256 * ofLittleEndian rest

/-- The lowest `width` bytes of a number, highest first. -/
def bigEndian (width value : Nat) : List UInt8 :=
  (littleEndian width value).reverse

/-- The number that bytes stand for, highest first. -/
def ofBigEndian (bytes : List UInt8) : Nat :=
  ofLittleEndian bytes.reverse

@[simp] theorem length_littleEndian (width value : Nat) :
    (littleEndian width value).length = width := by
  induction width generalizing value with
  | zero => rfl
  | succ w ih => simp [littleEndian, ih]

@[simp] theorem length_bigEndian (width value : Nat) :
    (bigEndian width value).length = width := by
  simp [bigEndian]

/-- The `n` bytes of a number, highest first. -/
def Bytes.ofNat (n value : Nat) : Bytes n :=
  ⟨bigEndian n value, length_bigEndian n value⟩

/-- An account key or an Ed25519 public key. -/
abbrev Key := Bytes 32

/-- A 32-byte hash. -/
abbrev Digest := Bytes 32

/-- An address of a remote chain, and the form a host key takes there. -/
abbrev Address := Bytes 20

/-- An Ed25519 signature. -/
abbrev Signature := Bytes 64

end QuorumRelay
