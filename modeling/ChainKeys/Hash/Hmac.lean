import ChainKeys.Hash.Sha256

/-!
Keyed hashing over SHA-256.
-/

namespace ChainKeys.Hmac

/-- A key of one block: a longer one is hashed, a shorter one filled up with zeros. -/
def blockKey (key : Bytes) : Bytes :=
  let key := if 64 < key.length then Sha256.hash key else key
  key ++ List.replicate (64 - key.length) 0

def sha256 (key msg : Bytes) : Bytes :=
  let k := blockKey key
  Sha256.hash (k.map (· ^^^ 0x5c) ++ Sha256.hash (k.map (· ^^^ 0x36) ++ msg))

end ChainKeys.Hmac
