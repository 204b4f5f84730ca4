import QuorumRelay.Bytes

/-!
# Keccak-256

The hash that remote chains compute over messages.  It is the sponge over the
1600-bit permutation with a rate of 136 bytes and the padding `01 … 80`, which
differs from the later standard's padding in its first byte.

The state is a vector of 25 lanes; lane `x + 5 * y` stands at column `x` of row
`y`.
-/

namespace QuorumRelay
namespace Keccak

/-- The permutation's state. -/
abbrev State := Vector UInt64 25

/-- Bytes that one block of input fills. -/
def rate : Nat := 136

/-- The constant that each round adds to lane 0. -/
def roundConstants : List UInt64 :=
  [0x0000000000000001, 0x0000000000008082, 0x800000000000808a, 0x8000000080008000,
   0x000000000000808b, 0x0000000080000001, 0x8000000080008081, 0x8000000000008009,
   0x000000000000008a, 0x0000000000000088, 0x0000000080008009, 0x000000008000000a,
   0x000000008000808b, 0x800000000000008b, 0x8000000000008089, 0x8000000000008003,
   0x8000000000008002, 0x8000000000000080, 0x000000000000800a, 0x800000008000000a,
   0x8000000080008081, 0x8000000000008080, 0x0000000080000001, 0x8000000080008008]

/-- How far each lane is rotated, by the lane's position before it moves. -/
def rotations : Vector UInt64 25 :=
  #v[0, 1, 62, 28, 27, 36, 44, 6, 55, 20, 3, 10, 43, 25, 39, 41, 45, 15, 21, 8, 18, 2, 61, 56, 14]

/-- Rotation to the left; by 0 it is the identity, since shift amounts count modulo 64. -/
def rotateLeft (lane count : UInt64) : UInt64 :=
  (lane <<< count) ||| (lane >>> (64 - count))

/-- The position of a column and a row, both taken modulo 5. -/
def position (x y : Nat) : Fin 25 :=
  ⟨x % 5 + 5 * (y % 5), by omega⟩

/-- The lane at a column and a row. -/
def lane (s : State) (x y : Nat) : UInt64 :=
  s.get (position x y)

/-- Exclusive or of a column. -/
def columnParity (s : State) (x : Nat) : UInt64 :=
  lane s x 0 ^^^ lane s x 1 ^^^ lane s x 2 ^^^ lane s x 3 ^^^ lane s x 4

/-- Each lane takes the parities of its two neighbouring columns. -/
def mixColumns (s : State) : State :=
  let parities : Vector UInt64 5 := Vector.ofFn fun x => columnParity s x
  let parity := fun (x : Nat) => parities.get ⟨x % 5, Nat.mod_lt x (by decide)⟩
  Vector.ofFn fun i =>
    s.get i ^^^ parity (i.val + 4) ^^^ rotateLeft (parity (i.val + 1)) 1

/-- Lanes are rotated and moved: the lane for column `x` and row `y` comes from
column `x + 3 * y` and row `x`. -/
def spread (s : State) : State :=
  Vector.ofFn fun i =>
    let x := i.val % 5
    let y := i.val / 5
    let source := position (x + 3 * y) x
    rotateLeft (s.get source) (rotations.get source)

/-- Each lane is combined with the next two of its row. -/
def mixRows (s : State) : State :=
  Vector.ofFn fun i =>
    let x := i.val % 5
    let y := i.val / 5
    s.get i ^^^ (~~~ lane s (x + 1) y &&& lane s (x + 2) y)

/-- One round of the permutation. -/
def round (s : State) (constant : UInt64) : State :=
  let mixed := mixRows (spread (mixColumns s))
  mixed.set 0 (mixed[0] ^^^ constant)

/-- The permutation. -/
def permute (s : State) : State :=
  roundConstants.foldl round s

/-- The input followed by the padding that fills its last block. -/
def pad (bytes : List UInt8) : List UInt8 :=
  let missing := rate - bytes.length % rate
  if missing = 1 then
    bytes ++ [0x81]
  else
    bytes ++ 0x01 :: (List.replicate (missing - 2) 0x00 ++ [0x80])

/-- The consecutive full blocks of `size` elements. -/
def blocks {α : Type} (size : Nat) (items : List α) : List (List α) :=
  (List.range (items.length / size)).map fun i => (items.drop (size * i)).take size

/-- A block is added to the first lanes, then the state is permuted. -/
def absorb (s : State) (block : List UInt8) : State :=
  let words := (blocks 8 block).toArray
  permute <| Vector.ofFn fun i =>
    s.get i ^^^ UInt64.ofNat (ofLittleEndian (words.getD i []))

end Keccak

/-- Keccak-256 of a byte string. -/
def keccak256 (bytes : List UInt8) : Digest :=
  let s := (Keccak.blocks Keccak.rate (Keccak.pad bytes)).foldl Keccak.absorb
    (Vector.replicate 25 0)
  ⟨littleEndian 8 s[0].toNat ++ littleEndian 8 s[1].toNat ++ littleEndian 8 s[2].toNat ++
    littleEndian 8 s[3].toNat, by simp⟩

end QuorumRelay
