import ChainKeys.Proofs.Bech32.Canonical
import ChainKeys.Proofs.KeyText

/-!
Other spellings of the text of a key. The text may come in upper case, and its last data symbols
may hold bits that stand for nothing; but under one prefix, and but for the letter case, only one
spelling of a key is exact, and this is the one that is written. A reader that expects a prefix
compares it letter for letter, with the prefix in the case of the text.
-/

namespace ChainKeys.KeyText

open Bech32 (IsExact lowerCase upperCase recase Recases)

variable {r : Amino.Registry} {k : PublicKey} {hrp s : String}

/-! ### Exact texts -/

lemma decode_eq_ok_iff : decode r s = .ok (hrp, k) ↔
    ∃ bs, Bech32.decode [.bech32] s = .ok (hrp, bs) ∧ Amino.decode r bs = .ok k := by
  constructor
  · intro h
    obtain ⟨⟨hrp', bs⟩, hbytes, h⟩ := bind_eq_ok h
    obtain ⟨k', hk, h⟩ := bind_eq_ok h
    obtain ⟨rfl, rfl⟩ := Prod.mk.inj (Except.ok.inj h)
    exact ⟨bs, mapError_eq_ok hbytes, mapError_eq_ok hk⟩
  · rintro ⟨bs, hbytes, hk⟩
    rw [decode, hbytes]
    simp [Except.mapError, bind, Except.bind, hk, pure, Except.pure]

lemma decode_recase {f : Char → Char} (hf : Recases f) (h : decode r s = .ok (hrp, k)) :
    decode r (recase f s) = .ok (recase f hrp, k) := by
  obtain ⟨bs, hbytes, hk⟩ := decode_eq_ok_iff.mp h
  exact decode_eq_ok_iff.mpr ⟨bs, Bech32.decode_recase hf hbytes, hk⟩

/-- The text written for a key that was read, against the text it was read from. -/
lemma encode_of_decode_text (h : decode r s = .ok (hrp, k)) :
    encode r k hrp = .ok (Bech32.text hrp (Amino.encode r k)) ∧
      (Bech32.text hrp (Amino.encode r k) = lowerCase s ↔ IsExact s) := by
  obtain ⟨bs, hbytes, hk⟩ := decode_eq_ok_iff.mp h
  obtain ⟨rfl, -⟩ := Amino.decode_eq_ok_iff.mp hk
  obtain ⟨htext, hexact⟩ := Bech32.encode_eq_lowerCase_iff hbytes
  exact ⟨mapError_eq_ok_iff.mpr htext, hexact⟩

lemma decode_encode_of_decode (h : decode r s = .ok (hrp, k)) :
    Amino.decode r (Amino.encode r k) = .ok k := by
  obtain ⟨bs, -, hk⟩ := decode_eq_ok_iff.mp h
  rwa [(Amino.decode_eq_ok_iff.mp hk).1]

/-- Prefixes that differ in letter case only give the same text. -/
lemma text_congr {hrp' : String} (h : lowerCase hrp' = lowerCase hrp) (data : Bytes) :
    Bech32.text hrp' data = Bech32.text hrp data := by
  rw [← String.toList_inj, Bech32.toList_text, Bech32.toList_text, h]

/-- **Exact texts**. A key that was read has a text under the prefix it was read under, which is
read back and is exact. The text it was read from is this one, in lower case, just when it is
exact too; so exact texts of one key under one prefix differ in letter case only. -/
theorem respelled_iff (h : decode r s = .ok (hrp, k)) :
    (∃ t, encode r k hrp = .ok t ∧ decode r t = .ok (lowerCase hrp, k) ∧ IsExact t) ∧
      (encode r k hrp = .ok (lowerCase s) ↔ IsExact s) ∧
      ∀ s' hrp', decode r s' = .ok (hrp', k) → lowerCase hrp' = lowerCase hrp →
        IsExact s → IsExact s' → lowerCase s' = lowerCase s := by
  obtain ⟨hwritten, hexact⟩ := encode_of_decode_text h
  have hread := decode_of_encode (decode_encode_of_decode h) hwritten
  refine ⟨⟨_, hwritten, hread, ?_⟩, ?_, fun s' hrp' h' hcase hs hs' => ?_⟩
  · rw [← (encode_of_decode_text hread).2, Bech32.lowerCase_text]
    exact text_congr (Bech32.lowerCase_lowerCase hrp) _
  · rw [hwritten, Except.ok.injEq, hexact]
  · calc lowerCase s' = Bech32.text hrp' (Amino.encode r k) :=
          ((encode_of_decode_text h').2.mpr hs').symm
      _ = Bech32.text hrp (Amino.encode r k) := text_congr hcase _
      _ = lowerCase s := hexact.mpr hs

def sampleKey : PublicKey :=
  .single ⟨.secp256k1, [0x03, 0x8c, 0xb5, 0x98, 0xee, 0x54, 0x13, 0x0d, 0x34, 0xf8, 0xe0, 0x81,
    0x8e, 0x77, 0x87, 0xaa, 0x06, 0x13, 0x9a, 0x0e, 0x2d, 0x00, 0x26, 0xca, 0xdb, 0x66, 0x2b,
    0x55, 0xcf, 0x16, 0x85, 0x9a, 0x67], by decide⟩

def plainText : String :=
  "wasmpub1addwnpepqwxttx8w2sfs6d8cuzqcuau84grp8xsw95qzdjkmvc44tnckskdxw3zw2km"

lemma encode_plainText : encode .cosmos sampleKey "WASMPUB" = .ok plainText := by decide +kernel

lemma encode_plainText_lower : encode .cosmos sampleKey "wasmpub" = .ok plainText := by
  obtain ⟨-, htext⟩ := encode_eq_ok_iff.mp encode_plainText
  have hcase : lowerCase "wasmpub" = lowerCase "WASMPUB" := by decide
  exact encode_eq_ok_iff.mpr ⟨⟨by decide, by decide⟩, htext.trans (text_congr hcase _).symm⟩

lemma decode_plainText : decode .cosmos plainText = .ok ("wasmpub", sampleKey) := by
  have hr : Amino.Registry.cosmos.Distinct := by decide
  have hlower : lowerCase "WASMPUB" = "wasmpub" := by decide
  exact hlower ▸ decode_of_encode (hr.decode_encode sampleKey) encode_plainText

lemma decode_upperCase_plainText :
    decode .cosmos (upperCase plainText) = .ok ("WASMPUB", sampleKey) := by
  have hupper : upperCase "wasmpub" = "WASMPUB" := by decide
  exact hupper ▸ decode_recase Bech32.recases_toUpper decode_plainText

theorem respelled_plainText :
    decode .cosmos (upperCase plainText) = .ok ("WASMPUB", sampleKey) ∧
      encode .cosmos sampleKey "WASMPUB" = .ok (lowerCase (upperCase plainText)) := by
  have h := decode_upperCase_plainText
  exact ⟨h, (respelled_iff h).2.1.mpr (by decide +kernel)⟩

/-- The last of the 305 bits before the checksum stands for nothing, and is set. -/
def paddedText : String :=
  "wasmpub1addwnpepqwxttx8w2sfs6d8cuzqcuau84grp8xsw95qzdjkmvc44tnckskdx0v56ltf"

theorem respelled_paddedText : Amino.Registry.cosmos.Distinct ∧
    decode .cosmos paddedText = .ok ("wasmpub", sampleKey) ∧
      encode .cosmos sampleKey "wasmpub" ≠ .ok (lowerCase paddedText) := by
  have hother : plainText ≠ lowerCase paddedText := by decide +kernel
  refine ⟨by decide, by decide +kernel, ?_⟩
  rw [encode_plainText_lower]
  exact fun h => hother (Except.ok.inj h)

/-! ### Expected prefixes -/

lemma decodeUnder_of_decode (h : decode r s = .ok (hrp, k)) (expected : String) :
    decodeUnder r expected s =
      if hrp = expected then .ok k else .error (.otherPrefix expected hrp) := by
  rw [decodeUnder, h]
  rfl

/-- **Expected prefixes**. The text of a key is read under the prefix it was written for in lower
case, its upper-case form under this prefix in upper case, and neither under any other prefix, in
particular not under one that differs in more than the letter case. -/
theorem decodeUnder_exact (hr : r.Distinct) (hs : encode r k hrp = .ok s) :
    (∀ expected, decodeUnder r expected s = if lowerCase hrp = expected then .ok k
        else .error (.otherPrefix expected (lowerCase hrp))) ∧
      (∀ expected, decodeUnder r expected (upperCase s) = if upperCase hrp = expected then .ok k
        else .error (.otherPrefix expected (upperCase hrp))) ∧
      ∀ expected, lowerCase expected ≠ lowerCase hrp →
        decodeUnder r expected s = .error (.otherPrefix expected (lowerCase hrp)) ∧
          decodeUnder r expected (upperCase s) =
            .error (.otherPrefix expected (upperCase hrp)) := by
  have hlow := decode_of_encode (hr.decode_encode k) hs
  have hup : decode r (upperCase s) = .ok (upperCase hrp, k) := by
    have h := decode_recase Bech32.recases_toUpper hlow
    rwa [← upperCase, ← upperCase, Bech32.upperCase_lowerCase] at h
  refine ⟨decodeUnder_of_decode hlow, decodeUnder_of_decode hup, fun expected hne => ?_⟩
  rw [decodeUnder_of_decode hlow, decodeUnder_of_decode hup, if_neg, if_neg]
  · exact ⟨rfl, rfl⟩
  · rintro rfl
    exact hne (Bech32.lowerCase_upperCase hrp)
  · rintro rfl
    exact hne (Bech32.lowerCase_lowerCase hrp)

theorem decodeUnder_exact_plainText :
    encode .cosmos sampleKey "WASMPUB" = .ok plainText ∧
      decodeUnder .cosmos "wasmpub" plainText = .ok sampleKey ∧
      decodeUnder .cosmos "WASMPUB" (upperCase plainText) = .ok sampleKey ∧
      decodeUnder .cosmos "cosmospub" plainText = .error (.otherPrefix "cosmospub" "wasmpub") := by
  have hr : Amino.Registry.cosmos.Distinct := by decide
  have hlower : lowerCase "WASMPUB" = "wasmpub" := by decide
  obtain ⟨hplain, hupper, hother⟩ := decodeUnder_exact hr encode_plainText
  rw [hlower] at hplain hother
  exact ⟨encode_plainText, hplain "wasmpub", hupper "WASMPUB", (hother "cosmospub" (by decide)).1⟩

/-- A prefix in the other letter case is refused, also the very one the text was written for. -/
theorem decodeUnder_otherCase :
    encode .cosmos sampleKey "WASMPUB" = .ok plainText ∧
      decodeUnder .cosmos "WASMPUB" plainText = .error (.otherPrefix "WASMPUB" "wasmpub") ∧
      encode .cosmos sampleKey "wasmpub" = .ok plainText ∧
      decodeUnder .cosmos "wasmpub" (upperCase plainText) =
        .error (.otherPrefix "wasmpub" "WASMPUB") := by
  refine ⟨encode_plainText, ?_, encode_plainText_lower, ?_⟩
  · exact decodeUnder_of_decode decode_plainText "WASMPUB"
  · exact decodeUnder_of_decode decode_upperCase_plainText "wasmpub"

end ChainKeys.KeyText
