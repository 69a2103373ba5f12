import ChainKeys.Base64
import ChainKeys.Proofs.Utf8

/-!
Byte strings are read back from base64, and from no text but the one they are written as. A group
of four digits holds the three bytes it was made from, and the two short groups at the end are
told by their padding, which is no digit.
-/

namespace ChainKeys.Base64

lemma value?_toChar {n : Nat} (h : n < 64) : value? (toChar n) = some n := by
  have hall : ∀ n : Fin 64, value? (toChar n.val) = some n.val := by decide +kernel
  exact hall ⟨n, h⟩

lemma toChar_ne_pad {n : Nat} (h : n < 64) : toChar n ≠ '=' := by
  have hall : ∀ n : Fin 64, toChar n.val ≠ '=' := by decide +kernel
  exact hall ⟨n, h⟩

lemma value?_eq_some {c : Char} {n : Nat} (h : value? c = some n) : c = toChar n ∧ n < 64 := by
  have hascii : c.toNat < 128 := by
    unfold value? at h
    simp only [Char.le_def, UInt32.le_iff_toNat_le, Char.toNat_val] at h
    split_ifs at h with h1 h2 h3 h4 h5
    · exact Nat.lt_of_le_of_lt h1.2 (by decide)
    · exact Nat.lt_of_le_of_lt h2.2 (by decide)
    · exact Nat.lt_of_le_of_lt h3.2 (by decide)
    · exact h4 ▸ by decide
    · exact h5 ▸ by decide
  have hall : ∀ n ∈ value? c, c = toChar n ∧ n < 64 := Utf8.forall_ascii hascii (by decide +kernel)
  exact hall n h

section

variable {x y z w : Nat} (hx : x < 64) (hy : y < 64) (hz : z < 64) (hw : w < 64)

include hx hy

lemma decodeChars_one (hzero : y % 16 = 0) :
    decodeChars [toChar x, toChar y, '=', '='] = some [UInt8.ofNat (x * 4 + y / 16)] := by
  simp [decodeChars, value?_toChar hx, value?_toChar hy, hzero]

include hz

lemma decodeChars_two (hzero : z % 4 = 0) : decodeChars [toChar x, toChar y, toChar z, '='] =
    some [UInt8.ofNat (x * 4 + y / 16), UInt8.ofNat (y % 16 * 16 + z / 4)] := by
  simp [decodeChars, value?_toChar hx, value?_toChar hy, value?_toChar hz, toChar_ne_pad hz, hzero]

include hw

/-- Four digits, none of them padding, and a further text. -/
lemma decodeChars_three (rest : List Char) :
    decodeChars (toChar x :: toChar y :: toChar z :: toChar w :: rest) =
      (decodeChars rest).map fun bs => UInt8.ofNat (x * 4 + y / 16)
        :: UInt8.ofNat (y % 16 * 16 + z / 4) :: UInt8.ofNat (z % 4 * 64 + w) :: bs := by
  cases h : decodeChars rest <;>
    simp [decodeChars, value?_toChar hx, value?_toChar hy, value?_toChar hz, value?_toChar hw,
      toChar_ne_pad hw, h]

end

lemma decodeChars_encodeChars (bs : Bytes) : decodeChars (encodeChars bs) = some bs := by
  have hbyte : ∀ (n : Nat) (b : UInt8), n = b.toNat → UInt8.ofNat n = b := by
    rintro n b rfl
    exact UInt8.ofNat_toNat
  fun_induction encodeChars bs with
  | case1 => rfl
  | case2 a =>
    have ha := a.toNat_lt
    rw [decodeChars_one (by omega) (by omega) (by omega), hbyte _ a (by omega)]
  | case3 a b =>
    have ha := a.toNat_lt
    have hb := b.toNat_lt
    rw [decodeChars_two (by omega) (by omega) (by omega) (by omega), hbyte _ a (by omega),
      hbyte _ b (by omega)]
  | case4 a b c rest ih =>
    have ha := a.toNat_lt
    have hb := b.toNat_lt
    have hc := c.toNat_lt
    rw [decodeChars_three (by omega) (by omega) (by omega) (by omega), ih, Option.map_some,
      hbyte _ a (by omega), hbyte _ b (by omega), hbyte _ c (by omega)]

/-- The digits of a group are those of the bytes that it is read as. -/
lemma eq_encodeChars_of_decodeChars {cs : List Char} {bs : Bytes} (h : decodeChars cs = some bs) :
    cs = encodeChars bs := by
  have hdigit : ∀ {m n : Nat}, m = n → toChar m = toChar n := fun h => h ▸ rfl
  fun_induction decodeChars cs generalizing bs with
  | case1 =>
    obtain rfl := Option.some.inj h
    rfl
  | case2 a b =>
    simp only [Option.bind_eq_bind, Option.bind_eq_some_iff] at h
    obtain ⟨x, hx, y, hy, h⟩ := h
    split_ifs at h with hzero
    obtain rfl := Option.some.inj h
    obtain ⟨rfl, hx⟩ := value?_eq_some hx
    obtain ⟨rfl, hy⟩ := value?_eq_some hy
    rw [encodeChars, Utf8.toNat_byte (by omega), hdigit (by omega : (x * 4 + y / 16) / 4 = x),
      hdigit (by omega : (x * 4 + y / 16) % 4 * 16 = y)]
  | case3 a b c =>
    simp only [Option.bind_eq_bind, Option.bind_eq_some_iff] at h
    obtain ⟨x, hx, y, hy, z, hz, h⟩ := h
    split_ifs at h with hzero
    obtain rfl := Option.some.inj h
    obtain ⟨rfl, hx⟩ := value?_eq_some hx
    obtain ⟨rfl, hy⟩ := value?_eq_some hy
    obtain ⟨rfl, hz⟩ := value?_eq_some hz
    rw [encodeChars, Utf8.toNat_byte (by omega), Utf8.toNat_byte (by omega),
      hdigit (by omega : (x * 4 + y / 16) / 4 = x),
      hdigit (by omega : (x * 4 + y / 16) % 4 * 16 + (y % 16 * 16 + z / 4) / 16 = y),
      hdigit (by omega : (y % 16 * 16 + z / 4) % 16 * 4 = z)]
  | case4 a b c d rest _ _ ih =>
    simp only [Option.bind_eq_bind, Option.bind_eq_some_iff] at h
    obtain ⟨x, hx, y, hy, z, hz, w, hw, more, hmore, h⟩ := h
    obtain rfl := Option.some.inj h
    obtain ⟨rfl, hx⟩ := value?_eq_some hx
    obtain ⟨rfl, hy⟩ := value?_eq_some hy
    obtain ⟨rfl, hz⟩ := value?_eq_some hz
    obtain ⟨rfl, hw⟩ := value?_eq_some hw
    rw [encodeChars, ← ih hmore, Utf8.toNat_byte (by omega), Utf8.toNat_byte (by omega),
      Utf8.toNat_byte (by omega), hdigit (by omega : (x * 4 + y / 16) / 4 = x),
      hdigit (by omega : (x * 4 + y / 16) % 4 * 16 + (y % 16 * 16 + z / 4) / 16 = y),
      hdigit (by omega : (y % 16 * 16 + z / 4) % 16 * 4 + (z % 4 * 64 + w) / 64 = z),
      hdigit (by omega : (z % 4 * 64 + w) % 64 = w)]
  | case5 => simp at h

/-- **Canonicity**: a byte string is read from the one text it is written as. -/
theorem decode_eq_some_iff {s : String} {bs : Bytes} : decode s = some bs ↔ s = encode bs := by
  constructor
  · intro h
    rw [encode, ← eq_encodeChars_of_decodeChars h, String.ofList_toList]
  · rintro rfl
    rw [decode, encode, String.toList_ofList, decodeChars_encodeChars]

/-- **Round trip**: a byte string is read back from its base64 text. -/
theorem decode_encode (bs : Bytes) : decode (encode bs) = some bs :=
  decode_eq_some_iff.mpr rfl

end ChainKeys.Base64
