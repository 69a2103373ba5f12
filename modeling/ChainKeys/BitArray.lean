import ChainKeys.Bytes

/-!
Fixed-length bit arrays in bytes, first bit highest. `extra` counts the bits used in the last
byte and is 0 when all eight are. `toList` is the array as booleans.
-/

namespace ChainKeys

structure BitArray where
  extra : UInt8
  bytes : Bytes
  deriving DecidableEq, Repr

namespace BitArray

def empty : BitArray := ⟨0, []⟩

/-- All bits clear. -/
def zeros (n : Nat) : BitArray := ⟨UInt8.ofNat (n % 8), List.replicate ((n + 7) / 8) 0⟩

def length (a : BitArray) : Nat :=
  if a.extra = 0 then a.bytes.length * 8 else (a.bytes.length - 1) * 8 + a.extra.toNat

def mask (i : Nat) : UInt8 := 0x80 >>> UInt8.ofNat (i % 8)

/-- The bit at `i`, clear beyond the end. -/
def get (a : BitArray) (i : Nat) : Bool :=
  i < a.length && a.bytes.getD (i / 8) 0 &&& mask i ≠ 0

def setByte (b : UInt8) (i : Nat) (v : Bool) : UInt8 := if v then b ||| mask i else b &&& ~~~mask i

/-- Sets the bit at `i`, which must not lie beyond the end. -/
def set? (a : BitArray) (i : Nat) (v : Bool) : Option BitArray :=
  if i < a.length then
    some { a with bytes := a.bytes.set (i / 8) (setByte (a.bytes.getD (i / 8) 0) i v) }
  else none

/-- Sets the bit at `i`; nothing changes beyond the end. -/
def set (a : BitArray) (i : Nat) (v : Bool) : BitArray := (a.set? i v).getD a

def onesOf (b : UInt8) : Nat := ((List.range 8).filter fun k => b.toNat.testBit k).length

/-- How many bits of the bytes are set, the unused ones included. -/
def countOnes (a : BitArray) : Nat := a.bytes.foldr (fun b n => onesOf b + n) 0

def toList (a : BitArray) : List Bool := (List.range a.length).map a.get

end BitArray

end ChainKeys
