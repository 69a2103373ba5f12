import ChainKeys.Address
import ChainKeys.Amino
import ChainKeys.Hash.Ripemd160
import ChainKeys.Hash.Sha256

/-!
The address of a public key: a hash of the key, or for a threshold key of its binary form, so
that order and threshold count.
-/

namespace ChainKeys

namespace Address

def ofSha256 (bs : Bytes) : Address := ⟨(Sha256.hash bs).take 20, by simp⟩

def ofSingle (k : SingleKey) : Address :=
  match k.algorithm with
  | .secp256k1 => ⟨Ripemd160.hash (Sha256.hash k.bytes), by simp⟩
  | .ed25519 | .sr25519 => ofSha256 k.bytes

def ofKey (r : Amino.Registry) : PublicKey → Address
  | .single k => ofSingle k
  | .threshold k => ofSha256 (Amino.encodeThreshold r k)

end Address

end ChainKeys
