import ChainKeys.KeyText
import ChainKeys.Proofs.Amino.RoundTrip
import ChainKeys.Proofs.Bech32.RoundTrip

/-!
Keys as text. A key has a text under every prefix that leaves room for its binary form, and the
key is read back from it together with the prefix in lower case.
-/

namespace ChainKeys.KeyText

open Bech32 (IsPrefix lowerCase)

/-- The prefix, the separator, a symbol for every five bits and six more find room in a text. -/
def HasRoom (r : Amino.Registry) (k : PublicKey) (hrp : String) : Prop :=
  (Utf8.encode hrp).length + 1 + (8 * (Amino.encode r k).length + 4) / 5 + 6 ≤ 1023

instance (r : Amino.Registry) (k : PublicKey) (hrp : String) : Decidable (HasRoom r k hrp) :=
  inferInstanceAs (Decidable (_ ≤ 1023))

lemma encode_eq_ok_iff {r : Amino.Registry} {k : PublicKey} {hrp s : String} :
    encode r k hrp = .ok s ↔
      (IsPrefix hrp ∧ HasRoom r k hrp) ∧ s = Bech32.text hrp (Amino.encode r k) := by
  rw [encode, mapError_eq_ok_iff, Bech32.encode_eq_ok_iff, and_assoc]
  refine and_congr_right fun h => ?_
  rw [HasRoom, h.length_encode]

/-- A key that is read back from its binary form is read back from its text. -/
lemma decode_of_encode {r : Amino.Registry} {k : PublicKey} {hrp s : String}
    (hk : Amino.decode r (Amino.encode r k) = .ok k) (hs : encode r k hrp = .ok s) :
    decode r s = .ok (lowerCase hrp, k) := by
  obtain ⟨⟨hpre, hroom⟩, rfl⟩ := encode_eq_ok_iff.mp hs
  rw [HasRoom, hpre.length_encode] at hroom
  have hdata : Bech32.decode [.bech32] (Bech32.text hrp (Amino.encode r k)) =
      .ok (lowerCase hrp, Amino.encode r k) :=
    Bech32.decode_text (by simp) hpre hroom
  rw [decode, hdata]
  simp [Except.mapError, bind, Except.bind, hk, pure, Except.pure]

/-- **Texts of keys**: which keys have one under which prefix, and that it is read back. -/
theorem encode_exact {r : Amino.Registry} (hr : r.Distinct) (k : PublicKey) (hrp : String) :
    ((∃ s, encode r k hrp = .ok s) ↔ IsPrefix hrp ∧ HasRoom r k hrp) ∧
      ∀ s, encode r k hrp = .ok s → decode r s = .ok (lowerCase hrp, k) := by
  constructor
  · simp only [encode_eq_ok_iff, exists_and_left, exists_eq, and_true]
  · intro s hs
    exact decode_of_encode (hr.decode_encode k) hs

def separators (n : Nat) : String := String.ofList (List.replicate n '1')

def fifteen : PublicKey :=
  .threshold ⟨8, List.replicate 15 ⟨.secp256k1, 2 :: List.replicate 32 7, by decide⟩⟩

/-- A prefix of 46 separators leaves just enough room for a key of 15 members. -/
theorem encode_exact_full :
    (∃ s, encode .cosmos fifteen (separators 46) = .ok s ∧
      decode .cosmos s = .ok (separators 46, fifteen)) ∧
      ¬ ∃ s, encode .cosmos fifteen (separators 47) = .ok s := by
  have hdistinct : Amino.Registry.cosmos.Distinct := by decide
  obtain ⟨hdomain, hread⟩ := encode_exact hdistinct fifteen (separators 46)
  obtain ⟨s, hs⟩ := hdomain.mpr ⟨by decide, by decide +kernel⟩
  refine ⟨⟨s, hs, hread s hs⟩, fun h => ?_⟩
  have hroom := ((encode_exact hdistinct fifteen (separators 47)).1.mp h).2
  exact absurd hroom (by decide +kernel)

end ChainKeys.KeyText
