import ChainKeys.Bytes

/-!
Base-128 numbers, least significant group first, with the high bit set on every byte but the
last. A 64-bit number has at most ten bytes and the tenth is at most 1; a number can be padded
with zero groups, and `encode` writes the shortest form.
-/

namespace ChainKeys.Varint

def encode (n : Nat) : Bytes :=
  if n < 128 then [UInt8.ofNat n] else UInt8.ofNat (n % 128 + 128) :: encode (n / 128)

/-- Reads a number of at most `groups` bytes, of which the last may carry one bit only. -/
def decodeWithin : (groups : Nat) → Bytes → Option (Nat × Bytes)
  | 0, _ => none
  | _, [] => none
  | g + 1, b :: rest =>
    if b < 128 then (if g = 0 ∧ 1 < b then none else some (b.toNat, rest))
    else (decodeWithin g rest).map fun (v, rest) => (b.toNat - 128 + 128 * v, rest)

def decode (bs : Bytes) : Option (Nat × Bytes) := decodeWithin 10 bs

/-- The signed reading of an unsigned number: even numbers count up from 0, odd ones down
from -1. -/
def zigzag (n : Nat) : Int := if n % 2 = 0 then (n / 2 : Nat) else -((n / 2 + 1 : Nat) : Int)

def unzigzag (i : Int) : Nat := if 0 ≤ i then 2 * i.toNat else 2 * (-i).toNat - 1

end ChainKeys.Varint
