import ChainKeys.Proofs.Signing
import Mathlib.Tactic.Push

/-!
How many byte strings a secret can be loaded from.

Every key has 32 bytes that it is loaded from, and an ed25519 key is loaded from nothing else. A
secp256k1 key is a number, and a string of 24 bytes or more spells a number even when some of its
zeros at the front are missing. What is missing may as well have stood at the end: the bytes that
are left of a secret that was cut short then load as the key of another number.
-/

namespace ChainKeys

open Secp256k1 (order order_lt)

/-- The lengths in which a secret may be given. -/
def Algorithm.TakesSecretOf : Algorithm → Nat → Prop
  | secp256k1, length => 24 ≤ length ∧ length ≤ 32
  | ed25519, length => length = 32
  | sr25519, _ => False

namespace SecretKey

variable {a b : Algorithm} {x y : Bytes} {sk other : SecretKey}

/-! ### The bytes of a key -/

/-- The 32 bytes of a key. -/
def toBytes : SecretKey → Bytes
  | secp256k1 secret _ _ => Bytes.ofNatBE 32 secret
  | ed25519 seed _ => seed

lemma length_toBytes (sk : SecretKey) : sk.toBytes.length = 32 := by
  cases sk with
  | secp256k1 secret hpos hlt => exact Bytes.length_ofNatBE 32 secret
  | ed25519 seed hlen => exact hlen

lemma takesSecretOf_algorithm (sk : SecretKey) : sk.algorithm.TakesSecretOf 32 := by
  cases sk with
  | secp256k1 secret hpos hlt => exact ⟨by decide, le_refl 32⟩
  | ed25519 seed hlen => exact rfl

/-! ### Loading -/

lemma ofBytes_secp256k1_eq_ok_iff {secret : Nat} {hpos : 0 < secret} {hlt : secret < order} :
    ofBytes .secp256k1 x = .ok (.secp256k1 secret hpos hlt) ↔
      (24 ≤ x.length ∧ x.length ≤ 32) ∧ Bytes.toNatBE x = secret := by
  unfold ofBytes
  dsimp only
  split_ifs with h
  · rw [Except.ok.injEq, secp256k1.injEq, iff_and_self]
    exact fun _ => h.1
  · constructor
    · rintro ⟨⟩
    · rintro ⟨hlen, rfl⟩
      exact absurd ⟨hlen, hpos, hlt⟩ h

lemma ofBytes_ed25519_eq_ok_iff {seed : Bytes} {hlen : seed.length = 32} :
    ofBytes .ed25519 x = .ok (.ed25519 seed hlen) ↔ x = seed := by
  unfold ofBytes
  dsimp only
  split_ifs with h
  · rw [Except.ok.injEq, ed25519.injEq]
  · constructor
    · rintro ⟨⟩
    · rintro rfl
      exact absurd hlen h

lemma algorithm_of_ofBytes (h : ofBytes a x = .ok sk) : sk.algorithm = a := by
  cases a with
  | sr25519 => exact nomatch h
  | secp256k1 | ed25519 =>
    unfold ofBytes at h
    dsimp only at h
    split_ifs at h
    cases h
    rfl

/-- A key is loaded from its 32 bytes, and from what gives these bytes with zeros in front. -/
lemma ofBytes_eq_ok_iff : ofBytes a x = .ok sk ↔
    sk.algorithm = a ∧ a.TakesSecretOf x.length ∧ x.leftpad 32 0 = sk.toBytes := by
  rw [← and_iff_right_of_imp algorithm_of_ofBytes, and_congr_right_iff]
  rintro rfl
  cases sk with
  | secp256k1 secret hpos hlt =>
    refine ofBytes_secp256k1_eq_ok_iff.trans (and_congr_right fun hlen => ?_)
    exact (Bytes.leftpad_eq_ofNatBE_iff hlen.2 (Nat.lt_trans hlt order_lt)).symm
  | ed25519 seed hseed =>
    refine ofBytes_ed25519_eq_ok_iff.trans ⟨?_, ?_⟩
    · rintro rfl
      exact ⟨hseed, Bytes.leftpad_of_length hseed⟩
    · rintro ⟨hlen, h⟩
      rwa [Bytes.leftpad_of_length hlen] at h

lemma ofBytes_toBytes (sk : SecretKey) : ofBytes sk.algorithm sk.toBytes = .ok sk := by
  rw [ofBytes_eq_ok_iff, length_toBytes]
  exact ⟨rfl, takesSecretOf_algorithm sk, Bytes.leftpad_of_length (length_toBytes sk)⟩

/-- The strings of one key differ in nothing but zeros in front. -/
lemma ofBytes_eq_ok_iff_of_ofBytes (hx : ofBytes a x = .ok sk) : ofBytes b y = .ok sk ↔
    b = a ∧ b.TakesSecretOf y.length ∧ y.leftpad 32 0 = x.leftpad 32 0 := by
  obtain ⟨halg, -, hbytes⟩ := ofBytes_eq_ok_iff.mp hx
  rw [ofBytes_eq_ok_iff, halg, hbytes, eq_comm (a := a)]

lemma eq_of_length_eq (hx : ofBytes a x = .ok sk) (hy : ofBytes b y = .ok sk)
    (hlen : y.length = x.length) : y = x :=
  (Bytes.leftpad_inj_of_length hlen).mp ((ofBytes_eq_ok_iff_of_ofBytes hx).mp hy).2.2

lemma length_of_ofBytes (hx : ofBytes a x = .ok sk) (ha : a ≠ .secp256k1) : x.length = 32 := by
  obtain ⟨-, hlen, -⟩ := ofBytes_eq_ok_iff.mp hx
  cases a with
  | secp256k1 => exact absurd rfl ha
  | ed25519 => exact hlen
  | sr25519 => exact hlen.elim

/-! ### Secrets cut short -/

/-- Whatever has at most 31 bytes, at least 24 and not all of them zero, is a secret. -/
lemma exists_ofBytes_secp256k1_iff (hlen : x.length < 32) :
    (∃ sk, ofBytes .secp256k1 x = .ok sk) ↔ 24 ≤ x.length ∧ ∃ byte ∈ x, byte ≠ 0 := by
  have hlt : Bytes.toNatBE x < order :=
    calc Bytes.toNatBE x < 256 ^ x.length := Bytes.toNatBE_lt x
      _ ≤ 256 ^ 31 := Nat.pow_le_pow_right (by decide) (by omega)
      _ < order := by decide
  have hpos : 0 < Bytes.toNatBE x ↔ ∃ byte ∈ x, byte ≠ 0 := by
    rw [Nat.pos_iff_ne_zero, Ne, Bytes.toNatBE_eq_zero_iff]
    push Not
    rfl
  rw [← hpos]
  constructor
  · rintro ⟨sk, hsk⟩
    have halg := algorithm_of_ofBytes hsk
    cases sk with
    | ed25519 seed hseed => exact nomatch halg
    | secp256k1 secret hsecret hsmall =>
      obtain ⟨⟨hlow, -⟩, rfl⟩ := ofBytes_secp256k1_eq_ok_iff.mp hsk
      exact ⟨hlow, hsecret⟩
  · rintro ⟨hlow, hsecret⟩
    exact ⟨.secp256k1 _ hsecret hlt, ofBytes_secp256k1_eq_ok_iff.mpr ⟨⟨hlow, hlen.le⟩, rfl⟩⟩

/-- A secret that was cut short, where it is taken at all, is the secret of another key: without
its last digits its number is a smaller one. -/
lemma ne_of_ofBytes_take {n : Nat} (hx : ofBytes a x = .ok sk) (hn : n < x.length)
    (hcut : ofBytes a (x.take n) = .ok other) : other ≠ sk := by
  rintro rfl
  have halg := algorithm_of_ofBytes hx
  cases other with
  | ed25519 seed hseed =>
    obtain rfl := halg
    have hwhole := length_of_ofBytes hx nofun
    have hstart := length_of_ofBytes hcut nofun
    rw [List.length_take_of_le hn.le] at hstart
    omega
  | secp256k1 secret hpos hlt =>
    obtain rfl := halg
    obtain ⟨-, hwhole⟩ := ofBytes_secp256k1_eq_ok_iff.mp hx
    obtain ⟨-, hstart⟩ := ofBytes_secp256k1_eq_ok_iff.mp hcut
    have hsmaller := Bytes.toNatBE_take_lt hn (hwhole ▸ hpos)
    exact hsmaller.ne (hstart.trans hwhole.symm)

lemma exists_ofBytes_take_iff {n : Nat} (hx : ofBytes a x = .ok sk) (hn : n < x.length) :
    (∃ other, ofBytes a (x.take n) = .ok other) ↔
      a = .secp256k1 ∧ 24 ≤ n ∧ ∃ byte ∈ x.take n, byte ≠ 0 := by
  have hcut : (x.take n).length = n := List.length_take_of_le hn.le
  by_cases ha : a = .secp256k1
  · subst ha
    obtain ⟨-, ⟨-, hlen⟩, -⟩ := ofBytes_eq_ok_iff.mp hx
    rw [exists_ofBytes_secp256k1_iff (by omega), hcut, eq_self, true_and]
  · refine iff_of_false ?_ fun h => ha h.1
    rintro ⟨other, hother⟩
    have hwhole := length_of_ofBytes hx ha
    have hstart := length_of_ofBytes hother ha
    omega

/-- **Loading**: a key is loaded from its 32 bytes, and from another string only when this is too
short by some zeros in front, and the key is of secp256k1. So no two strings of one length load as
one key, nor any two for ed25519, where a secret that was cut short is refused. For secp256k1 it is
refused where less than 24 bytes are left or only zeros, and otherwise it loads as another key. -/
theorem ofBytes_exact {a : Algorithm} {x : Bytes} {sk : SecretKey} (hx : ofBytes a x = .ok sk) :
    ofBytes a sk.toBytes = .ok sk ∧
    (x.length = 32 ↔ x = sk.toBytes) ∧ (a ≠ .secp256k1 → x.length = 32) ∧
    (∀ b y, ofBytes b y = .ok sk ↔
      b = a ∧ b.TakesSecretOf y.length ∧ y.leftpad 32 0 = x.leftpad 32 0) ∧
    (∀ b y, ofBytes b y = .ok sk → (y = x ↔ a ≠ .secp256k1 ∨ y.length = x.length)) ∧
    ∀ n < x.length,
      ((∃ other, ofBytes a (x.take n) = .ok other) ↔
        a = .secp256k1 ∧ 24 ≤ n ∧ ∃ byte ∈ x.take n, byte ≠ 0) ∧
      ∀ other, ofBytes a (x.take n) = .ok other → other ≠ sk := by
  have hown : ofBytes a sk.toBytes = .ok sk := algorithm_of_ofBytes hx ▸ ofBytes_toBytes sk
  refine ⟨hown, ⟨?_, ?_⟩, length_of_ofBytes hx, ?_, ?_, fun n hn => ⟨?_, ?_⟩⟩
  · intro hlen
    exact eq_of_length_eq hown hx (hlen.trans (length_toBytes sk).symm)
  · rintro rfl
    exact length_toBytes sk
  · intro b y
    exact ofBytes_eq_ok_iff_of_ofBytes hx
  · intro b y hy
    refine ⟨fun h => .inr (congrArg List.length h), ?_⟩
    rintro (ha | hlen)
    · obtain ⟨rfl, -⟩ := (ofBytes_eq_ok_iff_of_ofBytes hx).mp hy
      exact eq_of_length_eq hx hy ((length_of_ofBytes hy ha).trans (length_of_ofBytes hx ha).symm)
    · exact eq_of_length_eq hx hy hlen
  · exact exists_ofBytes_take_iff hx hn
  · intro other hcut
    exact ne_of_ofBytes_take hx hn hcut

/-- One byte less than a secret has. -/
def shortSecret : Bytes := List.replicate 31 1

/-- The number that these bytes spell, as a key. -/
def shortKey : SecretKey := .secp256k1 (Bytes.toNatBE shortSecret) (by decide) (by decide)

/-- A byte short, a secret is loaded, as it is with the zero in front; a byte shorter still, it is
another key. -/
theorem ofBytes_exact_shortSecret :
    ofBytes .secp256k1 shortSecret = .ok shortKey ∧
      ofBytes .secp256k1 (0 :: shortSecret) = .ok shortKey ∧
      ∃ other, ofBytes .secp256k1 (shortSecret.take 30) = .ok other ∧ other ≠ shortKey := by
  have hload : ofBytes .secp256k1 shortSecret = .ok shortKey := by decide +kernel
  obtain ⟨-, -, -, hsame, -, hcut⟩ := ofBytes_exact hload
  obtain ⟨htaken, hother⟩ := hcut 30 (by decide)
  obtain ⟨other, hload'⟩ := htaken.mpr ⟨rfl, by decide, 1, by decide, by decide⟩
  refine ⟨hload, (hsame _ _).mpr ⟨rfl, ?_, by decide⟩, other, hload', hother other hload'⟩
  exact ⟨by decide, by decide⟩

/-- Two strings are loaded as one key, and one of them is what is left of a secret of 32 bytes
when its last byte is lost. The whole secret has another public key. -/
theorem ofBytes_shortSecret :
    ofBytes .secp256k1 shortSecret = .ok shortKey ∧
      ofBytes .secp256k1 (0 :: shortSecret) = .ok shortKey ∧
      shortSecret ≠ 0 :: shortSecret ∧ shortSecret.length ≠ 32 ∧
      ∃ whole, ofBytes .secp256k1 (shortSecret ++ [1]) = .ok whole ∧
        whole.publicKey ≠ shortKey.publicKey := by
  refine ⟨by decide +kernel, by decide +kernel, by decide, by decide, ?_⟩
  exact ⟨.secp256k1 (Bytes.toNatBE (shortSecret ++ [1])) (by decide) (by decide),
    by decide +kernel, by decide +kernel⟩

end SecretKey

end ChainKeys
