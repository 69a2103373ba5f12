/-!
Byte strings, and the numbers they spell.

A byte string is a list, so that every layer above is a function on lists; numbers are `Nat`
and are cut to width only when they are written.
-/

namespace ChainKeys

abbrev Bytes := List UInt8

namespace Bytes

/-- The number whose base-256 digits, most significant first, are `bs`. -/
def toNatBE (bs : Bytes) : Nat := bs.foldl (fun n b => n * 256 + b.toNat) 0

/-- The last `width` base-256 digits of `n`, most significant first. -/
def ofNatBE : (width n : Nat) → Bytes
  | 0, _ => []
  | w + 1, n => ofNatBE w (n / 256) ++ [UInt8.ofNat n]

/-- The number whose base-256 digits, least significant first, are `bs`. -/
def toNatLE (bs : Bytes) : Nat := bs.foldr (fun b n => n * 256 + b.toNat) 0

/-- The last `width` base-256 digits of `n`, least significant first. -/
def ofNatLE : (width n : Nat) → Bytes
  | 0, _ => []
  | w + 1, n => UInt8.ofNat n :: ofNatLE w (n / 256)

@[simp] theorem length_ofNatBE (w n : Nat) : (ofNatBE w n).length = w := by
  induction w generalizing n with
  | zero => rfl
  | succ w ih => simp [ofNatBE, ih]

@[simp] theorem length_ofNatLE (w n : Nat) : (ofNatLE w n).length = w := by
  induction w generalizing n with
  | zero => rfl
  | succ w ih => simp [ofNatLE, ih]

/-- The first `count` pieces of `size` bytes each. -/
def chunks (size : Nat) : (count : Nat) → Bytes → List Bytes
  | 0, _ => []
  | n + 1, bs => bs.take size :: chunks size n (bs.drop size)

/-- Lexicographic order, a proper start before the longer string. -/
def lt : Bytes → Bytes → Bool
  | [], [] => false
  | [], _ :: _ => true
  | _ :: _, [] => false
  | a :: as, b :: bs => if a = b then lt as bs else decide (a < b)

def le (as bs : Bytes) : Bool := !lt bs as

end Bytes

end ChainKeys
