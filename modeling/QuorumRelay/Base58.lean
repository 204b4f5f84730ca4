import QuorumRelay.Bytes

/-!
# Base 58

The text form of keys: the number that the bytes stand for, in base 58 with an
alphabet free of look-alikes, after one `1` for each leading zero byte.
-/

namespace QuorumRelay
namespace Base58

/-- The digits, by value. -/
def alphabet : List Char :=
  "123456789ABCDEFGHJKLMNPQRSTUVWXYZabcdefghijkmnopqrstuvwxyz".toList

/-- The digits of a number, lowest first, none for 0. -/
def digits (value : Nat) : List Char :=
  if h : value = 0 then
    []
  else
    have : value / 58 < value := Nat.div_lt_self (Nat.pos_of_ne_zero h) (by decide)
    alphabet.getD (value % 58) '1' :: digits (value / 58)
termination_by value

/-- The text form of a byte string. -/
def encode (bytes : List UInt8) : String :=
  let zeros := (bytes.takeWhile (· == 0)).map fun _ => '1'
  String.ofList (zeros ++ (digits (ofBigEndian bytes)).reverse)

end Base58

/-- The text form of a key. -/
def Bytes.toBase58 {n : Nat} (a : Bytes n) : String :=
  Base58.encode a.toList

end QuorumRelay
