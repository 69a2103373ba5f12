import ChainKeys.Amino
import ChainKeys.Bech32

/-!
Public keys as bech32 text over their binary form.
-/

namespace ChainKeys.KeyText

inductive Error
  | badPrefix (error : Bech32.EncodeError)
  | badText (error : Bech32.DecodeError)
  | badKey (error : Amino.Error)
  | otherPrefix (expected actual : String)
  deriving DecidableEq, Repr

def Error.message : Error → String
  | badPrefix e => "bech32 error: " ++ e.message
  | badText .malformed => "bech32 error: parse failed"
  | badText .notIntact => "bech32 error: invalid checksum"
  | badKey e => "format error: " ++ e.message
  | otherPrefix expected actual =>
    "unexpected bech32 prefix: expected " ++ expected ++ ", got " ++ actual

def encode (r : Amino.Registry) (k : PublicKey) (hrp : String) : Except Error String :=
  (Bech32.encode hrp (Amino.encode r k)).mapError .badPrefix

def decode (r : Amino.Registry) (s : String) : Except Error (String × PublicKey) := do
  let (hrp, bs) ← (Bech32.decode [.bech32] s).mapError .badText
  let k ← (Amino.decode r bs).mapError .badKey
  pure (hrp, k)

/-- Reads a text that stands under a given prefix, letter for letter. -/
def decodeUnder (r : Amino.Registry) (expected s : String) : Except Error PublicKey := do
  let (hrp, k) ← decode r s
  if hrp = expected then pure k else throw (.otherPrefix expected hrp)

end ChainKeys.KeyText
