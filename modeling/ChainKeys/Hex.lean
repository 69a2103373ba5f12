import ChainKeys.Utf8
import ChainKeys.Quote

/-!
Hexadecimal text, two digits a byte. Digits of either case are read; an odd count of bytes is
reported before any bad digit.
-/

namespace ChainKeys.Hex

inductive Error
  | oddLength
  | badDigit (byte : UInt8) (position : Nat)
  deriving DecidableEq, Repr

def Error.message : Error → String
  | .oddLength => "Odd number of digits"
  | .badDigit b p =>
    "Invalid character " ++ Quote.char (Char.ofNat b.toNat) ++ " at position " ++ toString p

def digit (n : Nat) : Char := if n < 10 then Char.ofNat (48 + n) else Char.ofNat (87 + n)

def upperDigit (n : Nat) : Char := if n < 10 then Char.ofNat (48 + n) else Char.ofNat (55 + n)

def encodeWith (digit : Nat → Char) (bs : Bytes) : List Char :=
  bs.flatMap fun b => [digit (b.toNat / 16), digit (b.toNat % 16)]

def encode (bs : Bytes) : String := String.ofList (encodeWith digit bs)

def encodeUpper (bs : Bytes) : String := String.ofList (encodeWith upperDigit bs)

def value? (b : UInt8) : Option Nat :=
  if 48 ≤ b ∧ b ≤ 57 then some (b.toNat - 48)
  else if 97 ≤ b ∧ b ≤ 102 then some (b.toNat - 87)
  else if 65 ≤ b ∧ b ≤ 70 then some (b.toNat - 55)
  else none

def decodePairs (position : Nat) : Bytes → Except Error Bytes
  | [] => .ok []
  | [_] => .error .oddLength
  | a :: b :: rest =>
    match value? a, value? b with
    | some x, some y => (decodePairs (position + 2) rest).map (UInt8.ofNat (16 * x + y) :: ·)
    | none, _ => .error (.badDigit a position)
    | _, none => .error (.badDigit b (position + 1))

def decodeBytes (bs : Bytes) : Except Error Bytes :=
  if bs.length % 2 = 1 then .error .oddLength else decodePairs 0 bs

def decode (s : String) : Except Error Bytes := decodeBytes (Utf8.encode s)

/-- Lower-case hexadecimal digits of a number, none leading zero. -/
def ofNat (n : Nat) : String := String.ofList (Nat.toDigits 16 n)

end ChainKeys.Hex
