import ChainKeys.Bech32

/-!
Account addresses: twenty bytes, written as forty hexadecimal digits or as bech32 text under
any prefix. Addresses are ordered byte by byte.
-/

namespace ChainKeys

structure Address where
  bytes : Bytes
  length_eq : bytes.length = 20
  deriving DecidableEq, Repr

inductive AddressError
  | wrongLength (actual : Nat)
  | badPrefix (error : Bech32.EncodeError)
  | badText (error : Bech32.DecodeError)
  deriving DecidableEq, Repr

def AddressError.message : AddressError → String
  | wrongLength n => "invalid address length: expected 20 bytes, got " ++ toString n
  | badPrefix e => "bech32 error: " ++ e.message
  | badText .malformed => "bech32 error: parsing failed"
  | badText .notIntact => "bech32 error: no valid bech32 or bech32m checksum"

namespace Address

def ofBytes (bs : Bytes) : Except AddressError Address :=
  if h : bs.length = 20 then .ok ⟨bs, h⟩ else .error (.wrongLength bs.length)

@[ext] theorem ext_bytes {a b : Address} (h : a.bytes = b.bytes) : a = b := by
  cases a
  cases b
  cases h
  rfl

/-- The first twenty bytes of a digest. -/
def ofDigest (digest : Bytes) : Except AddressError Address :=
  if 20 ≤ digest.length then ofBytes (digest.take 20) else .error (.wrongLength digest.length)

def le (a b : Address) : Bool := Bytes.le a.bytes b.bytes

def toHex (a : Address) : String := Hex.encodeUpper a.bytes

def toBech32 (a : Address) (hrp : String) : Except AddressError String :=
  (Bech32.encode hrp a.bytes).mapError .badPrefix

/-- Reads bech32 text, with the older checksum or the newer one. -/
def ofBech32 (s : String) : Except AddressError (String × Address) := do
  let (hrp, bs) ← (Bech32.decode [.bech32m, .bech32] s).mapError .badText
  let a ← ofBytes bs
  pure (hrp, a)

/-- Forty hexadecimal digits, and any other text as bech32. -/
def parse (s : String) : Except AddressError Address :=
  match Hex.decode s with
  | .ok bs => if h : bs.length = 20 then .ok ⟨bs, h⟩ else (ofBech32 s).map (·.2)
  | .error _ => (ofBech32 s).map (·.2)

end Address

end ChainKeys
