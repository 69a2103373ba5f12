import ChainKeys.KeyAddress
import ChainKeys.Proofs.Address

/-!
Addresses of keys as text. Twenty bytes leave room for every prefix, so which prefixes an address
has a text under does not depend on the key; and the address is read back from either of its
forms.
-/

namespace ChainKeys.Address

open Bech32

lemma exists_toBech32_iff (a : Address) (hrp : String) :
    (∃ s, a.toBech32 hrp = .ok s) ↔ IsPrefix hrp := by
  simp only [toBech32, mapError_eq_ok_iff, encode_eq_ok_iff, a.length_eq, exists_and_left,
    exists_eq, and_true]
  refine and_iff_left_of_imp fun h => ?_
  have hshort := (isPrefix_iff.mp h).2.2.1
  omega

/-- **Texts of addresses**. The address of a key has a text under every prefix, and is read back
from it together with the prefix in lower case; and every address is read back from its
hexadecimal digits. -/
theorem text_ofKey_exact (r : Amino.Registry) (p : PublicKey) (hrp : String) :
    ((∃ s, (ofKey r p).toBech32 hrp = .ok s) ↔ IsPrefix hrp) ∧
      (∀ s, (ofKey r p).toBech32 hrp = .ok s → ofBech32 s = .ok (lowerCase hrp, ofKey r p)) ∧
      ∀ a : Address, parse a.toHex = .ok a := by
  refine ⟨exists_toBech32_iff (ofKey r p) hrp, fun s hs => ofBech32_toBech32 hs, fun a => ?_⟩
  exact parse_of_spelled (Hex.decode_encodeUpper a.bytes)

end ChainKeys.Address
