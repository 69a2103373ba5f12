/-!
Unsigned numbers in decimal text: an optional plus sign and at least one ASCII digit.
-/

namespace ChainKeys.Decimal

def isDigit (c : Char) : Bool := '0' ≤ c && c ≤ '9'

def ofDigits (cs : List Char) : Nat := cs.foldl (fun n c => n * 10 + (c.toNat - 48)) 0

def readDigits (cs : List Char) : Option Nat :=
  if cs.isEmpty || !cs.all isDigit then none else some (ofDigits cs)

def read (s : String) : Option Nat :=
  match s.toList with
  | '+' :: rest => readDigits rest
  | cs => readDigits cs

/-- Numbers below `bound` only. -/
def readBelow (bound : Nat) (s : String) : Option Nat := (read s).filter (· < bound)

def readWord32 (s : String) : Option UInt32 := (readBelow UInt32.size s).map UInt32.ofNat

def readWord64 (s : String) : Option UInt64 := (readBelow UInt64.size s).map UInt64.ofNat

/-- Half way from the largest number of binary64 to the next power of two. -/
def floatBound : Nat := Nat.pow 2 1024 - Nat.pow 2 970

/-- Whether `n * 10 ^ e` lies below the point from which binary64 rounds to infinity. The first
two tests keep the power of ten small. -/
def isFinite (n : Nat) (e : Int) : Bool :=
  let places := (Nat.toDigits 10 n).length
  if n = 0 || places + e ≤ 300 then true
  else if 310 < places + e then false
  else if 0 ≤ e then n * Nat.pow 10 e.toNat < floatBound
  else n < floatBound * Nat.pow 10 (-e).toNat

end ChainKeys.Decimal
