import ChainKeys.Bytes
import ChainKeys.Utf8
import ChainKeys.Hex

/-!
Bech32 text: a prefix, the separator `1`, symbols of five bits each, and six symbols of
checksum. The separator is the last `1`, so a prefix may hold further ones. Letters are all of
one case; the checksum is taken over the lower-case prefix.
-/

namespace ChainKeys.Bech32

abbrev Symbol := Fin 32

def charset : List Char := "qpzry9x8gf2tvdw0s3jn54khce6mua7l".toList

def Symbol.toChar (s : Symbol) : Char := charset.getD s.val 'q'

/-- Symbols are read in either case. -/
def Symbol.ofChar? (c : Char) : Option Symbol :=
  (List.finRange 32).find? fun s => s.toChar = c.toLower

/-! ### Bits -/

/-- The `width` low bits of `n`, highest first. -/
def bitsOf : (width n : Nat) → List Bool
  | 0, _ => []
  | w + 1, n => n.testBit w :: bitsOf w n

def ofBits (bits : List Bool) : Nat := bits.foldl (fun n b => 2 * n + b.toNat) 0

/-- Five bits a symbol, the last filled up with zeros. -/
def symbolsOfBits (bits : List Bool) : List Symbol :=
  match bits with
  | a :: b :: c :: d :: e :: rest => Fin.ofNat 32 (ofBits [a, b, c, d, e]) :: symbolsOfBits rest
  | [] => []
  | short => [Fin.ofNat 32 (ofBits (short ++ List.replicate (5 - short.length) false))]

/-- Eight bits a byte; what is left over is dropped, whatever it holds. -/
def bytesOfBits (bits : List Bool) : Bytes :=
  match bits with
  | a :: b :: c :: d :: e :: f :: g :: h :: rest =>
    UInt8.ofNat (ofBits [a, b, c, d, e, f, g, h]) :: bytesOfBits rest
  | _ => []

def symbolsOfBytes (bs : Bytes) : List Symbol :=
  symbolsOfBits (bs.flatMap fun b => bitsOf 8 b.toNat)

def bytesOfSymbols (ss : List Symbol) : Bytes :=
  bytesOfBits (ss.flatMap fun s => bitsOf 5 s.val)

/-! ### Checksum -/

/-- The remainder of `top * x^6` by the generator, for a coefficient `top` of five bits. -/
def reduction (top : Nat) : Nat :=
  (if top.testBit 0 then 0x3b6a57b2 else 0) ^^^ (if top.testBit 1 then 0x26508e6d else 0)
    ^^^ (if top.testBit 2 then 0x1ea119fa else 0) ^^^ (if top.testBit 3 then 0x3d4233dd else 0)
    ^^^ (if top.testBit 4 then 0x2a1462b3 else 0)

/-- The remainder, six coefficients of five bits, after one more symbol. -/
def residueStep (r v : Nat) : Nat := ((r % 0x2000000) <<< 5) ^^^ v ^^^ reduction (r / 0x2000000)

def residue (values : List Nat) : Nat := values.foldl residueStep 1

/-- The prefix as the checksum sees it: high bits, a zero, low bits. -/
def expand (hrp : List Char) : List Nat :=
  hrp.map (fun c => c.toLower.toNat / 32) ++ 0 :: hrp.map fun c => c.toLower.toNat % 32

inductive Variant
  | bech32
  | bech32m
  deriving DecidableEq, Repr

def Variant.target : Variant → Nat
  | bech32 => 1
  | bech32m => 0x2bc830a3

def checksum (variant : Variant) (hrp : List Char) (data : List Symbol) : List Symbol :=
  let r := residue (expand hrp ++ data.map (·.val) ++ List.replicate 6 0) ^^^ variant.target
  [25, 20, 15, 10, 5, 0].map fun k => Fin.ofNat 32 (r >>> k)

def isIntact (variant : Variant) (hrp : List Char) (symbols : List Symbol) : Bool :=
  residue (expand hrp ++ symbols.map (·.val)) = variant.target

/-! ### Prefixes -/

inductive PrefixError
  | empty
  | tooLong (bytes : Nat)
  | nonAscii (char : Char)
  | badByte (byte : Nat)
  | mixedCase
  deriving DecidableEq, Repr

def PrefixError.message : PrefixError → String
  | empty => "hrp is empty, must have at least 1 character"
  | tooLong n => "hrp is too long, found " ++ toString n ++ " characters, must be <= 126"
  | nonAscii c => "found non-ASCII character: " ++ String.singleton c
  | badByte b => "byte value is not valid US-ASCII: '" ++ Hex.ofNat b ++ "'"
  | mixedCase => "hrp cannot mix upper and lower case"

def maxPrefix : Nat := 83

/-- Looks for the first fault, given which cases have been seen. -/
def scanPrefix (upper lower : Bool) : List Char → Except PrefixError Unit
  | [] => .ok ()
  | c :: rest =>
    if 128 ≤ c.toNat then .error (.nonAscii c)
    else if c.toNat < 33 ∨ 126 < c.toNat then .error (.badByte c.toNat)
    else if (c.isLower && upper) || (c.isUpper && lower) then .error .mixedCase
    else scanPrefix (upper || c.isUpper) (lower || c.isLower) rest

def checkPrefix (hrp : String) : Except PrefixError Unit :=
  let bytes := (Utf8.encode hrp).length
  if bytes = 0 then .error .empty
  else if maxPrefix < bytes then .error (.tooLong bytes)
  else scanPrefix false false hrp.toList

/-! ### Texts -/

inductive EncodeError
  | badPrefix (error : PrefixError)
  | tooLong
  deriving DecidableEq, Repr

def EncodeError.message : EncodeError → String
  | badPrefix e => e.message
  | tooLong => "encode error"

/-- The most characters a text may have, prefix, separator and checksum included. -/
def maxLength : Nat := 1023

def lowerCase (s : String) : String := String.ofList (s.toList.map Char.toLower)

/-- The text of a byte string, in lower case whatever the case of the prefix. -/
def encode (hrp : String) (data : Bytes) : Except EncodeError String := do
  (checkPrefix hrp).mapError .badPrefix
  let symbols := symbolsOfBytes data
  if maxLength < hrp.length + 1 + symbols.length + 6 then throw .tooLong
  let low := hrp.toList.map Char.toLower
  let sum := checksum .bech32 low symbols
  pure (String.ofList (low ++ '1' :: (symbols ++ sum).map Symbol.toChar))

inductive DecodeError
  /-- No prefix, separator and symbols in one case. -/
  | malformed
  /-- The symbols, or the length of the text, do not fit the checksum. -/
  | notIntact
  deriving DecidableEq, Repr

/-- Cuts a text at its last `1`. -/
def splitLast (cs : List Char) : Option (List Char × List Char) :=
  let back := cs.reverse
  match back.dropWhile (· ≠ '1') with
  | [] => none
  | _ :: front => some (front.reverse, (back.takeWhile (· ≠ '1')).reverse)

structure Parts where
  hrp : List Char
  symbols : List Symbol

def parse (s : String) : Except DecodeError Parts :=
  let cs := s.toList
  match splitLast cs with
  | none => .error .malformed
  | some (hrp, rest) =>
    if cs.any Char.isUpper && cs.any Char.isLower then .error .malformed
    else match rest.mapM Symbol.ofChar?, checkPrefix (String.ofList hrp) with
      | some symbols, .ok () => .ok ⟨hrp, symbols⟩
      | _, _ => .error .malformed

/-- Reads a text whose checksum is of one of the given variants; the prefix keeps its case. -/
def decode (variants : List Variant) (s : String) : Except DecodeError (String × Bytes) := do
  let parts ← parse s
  let short := parts.symbols.length < 6
  let long := maxLength < parts.hrp.length + 1 + parts.symbols.length
  if short || long || !variants.any (isIntact · parts.hrp parts.symbols) then throw .notIntact
  let data := parts.symbols.take (parts.symbols.length - 6)
  pure (String.ofList parts.hrp, bytesOfSymbols data)

end ChainKeys.Bech32
