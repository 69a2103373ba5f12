import ChainKeys.Proofs.Bytes
import ChainKeys.Proofs.Except
import ChainKeys.Signing

/-!
Of the two signatures that go with one `r`, the one with the lower `s` is made and taken.

The group order is odd, so of a number from 1 up and its negative just one is in the lower half.
Signing ends with a choice of that one and checking begins with it, each on its own; so a
signature that was taken is lost by turning it over, and one that was made always gets past the
check.
-/

namespace ChainKeys

namespace Secp256k1

/-! ### The lower half -/

lemma order_eq : order = (order - 1) / 2 + (order - 1) / 2 + 1 := by decide

lemma one_lt_order : 1 < order := by decide

lemma order_lt : order < 256 ^ 32 := by decide

lemma isLow_iff {s : Nat} : isLow s = true ↔ s ≤ (order - 1) / 2 := decide_eq_true_iff

/-- A low number has a high negative. -/
lemma isLow_negative {s : Nat} (h : isLow s = true) : isLow (order - s) = false := by
  have horder := order_eq
  rw [isLow_iff] at h
  rw [← Bool.not_eq_true, isLow_iff]
  omega

/-- A high number has a low negative. -/
lemma isLow_lower (s : Scalar) : isLow (lower s).val = true := by
  unfold lower
  split_ifs with hlow
  · exact hlow
  · have horder := order_eq
    rw [isLow_iff] at hlow ⊢
    have hnegative : (0 - s).val = (order - s.val) % order := by
      rw [Fin.sub_def, Fin.val_zero, Nat.add_zero]
    rw [hnegative, Nat.mod_eq_of_lt (by omega)]
    omega

/-! ### Signatures as pairs -/

/-- The first number of a signature. -/
def rOf (sig : Bytes) : Nat := Bytes.toNatBE (sig.take 32)

/-- The second number of a signature. -/
def sOf (sig : Bytes) : Nat := Bytes.toNatBE (sig.drop 32)

/-- The signature with the same first number and the negative of the second. -/
def mirror (sig : Bytes) : Bytes := sig.take 32 ++ Bytes.ofNatBE 32 (order - sOf sig)

lemma readSignature_eq_some {sig : Bytes} {r s : Nat} (h : readSignature sig = some (r, s)) :
    sig.length = 64 ∧ (r = rOf sig ∧ s = sOf sig) ∧ 0 < r ∧ r < order ∧ 0 < s ∧ s < order := by
  unfold readSignature at h
  dsimp only at h
  split_ifs at h with hlen hrange
  obtain ⟨rfl, rfl⟩ := Prod.mk.inj (Option.some.inj h)
  exact ⟨hlen, ⟨rfl, rfl⟩, hrange⟩

/-- All that is asked of a signature but that its second number is low. -/
def satisfies (x y : Coordinate) (msg sig : Bytes) : Bool :=
  match readSignature sig with
  | some (r, s) => holds x y (digest msg) r s
  | none => false

lemma accepts_eq (x y : Coordinate) (msg sig : Bytes) :
    accepts x y msg sig = (isLow (sOf sig) && satisfies x y msg sig) := by
  unfold accepts satisfies
  cases hread : readSignature sig with
  | none => exact (Bool.and_false _).symm
  | some pair =>
    obtain ⟨r, s⟩ := pair
    obtain rfl := (readSignature_eq_some hread).2.1.2
    rfl

lemma sOf_mirror {sig : Bytes} (hlen : sig.length = 64) :
    sOf (mirror sig) = order - sOf sig := by
  have hfits : order - sOf sig < 256 ^ 32 := Nat.lt_of_le_of_lt (Nat.sub_le _ _) order_lt
  have hhalf : (sig.take 32).length = 32 := by simp [hlen]
  rw [sOf, mirror, List.drop_left' hhalf, Bytes.toNatBE_ofNatBE, Nat.mod_eq_of_lt hfits]

/-- What is accepted has both numbers in range, the second in the lower half. -/
lemma range_of_accepts {x y : Coordinate} {msg sig : Bytes} (h : accepts x y msg sig = true) :
    sig.length = 64 ∧ (1 ≤ rOf sig ∧ rOf sig ≤ order - 1) ∧
      1 ≤ sOf sig ∧ sOf sig ≤ (order - 1) / 2 := by
  rw [accepts_eq, Bool.and_eq_true, isLow_iff] at h
  obtain ⟨hlow, hholds⟩ := h
  unfold satisfies at hholds
  cases hread : readSignature sig with
  | none =>
    rw [hread] at hholds
    exact nomatch hholds
  | some pair =>
    obtain ⟨hlen, ⟨hr, hs⟩, hr0, hrn, hs0, -⟩ := readSignature_eq_some hread
    rw [hr] at hr0 hrn
    rw [hs] at hs0
    exact ⟨hlen, ⟨hr0, by omega⟩, hs0, hlow⟩

lemma not_accepts_mirror {x y : Coordinate} {msg sig : Bytes} (h : accepts x y msg sig = true)
    (msg' : Bytes) : accepts x y msg' (mirror sig) = false := by
  have hlen := (range_of_accepts h).1
  rw [accepts_eq, Bool.and_eq_true] at h
  rw [accepts_eq, sOf_mirror hlen, isLow_negative h.1, Bool.false_and]

lemma length_sign (secret : Nat) (msg : Bytes) : (sign secret msg).length = 64 := by
  unfold sign
  dsimp only
  rw [List.length_append, Bytes.length_ofNatBE, Bytes.length_ofNatBE]

lemma isLow_sign (secret : Nat) (msg : Bytes) : isLow (sOf (sign secret msg)) = true := by
  unfold sign
  dsimp only
  rw [sOf, List.drop_left' (Bytes.length_ofNatBE 32 _), Bytes.toNatBE_ofNatBE,
    Nat.mod_eq_of_lt (Nat.lt_trans (Fin.is_lt _) order_lt)]
  exact isLow_lower _

end Secp256k1

open Secp256k1

variable {k : SingleKey} {msg sig : Bytes}

lemma SingleKey.verify_of_readPoint (halg : k.algorithm = .secp256k1) {x y : Coordinate}
    (hpoint : readPoint k.bytes = some (x, y)) :
    k.verify msg sig = if accepts x y msg sig then .ok () else .error .rejected := by
  simp [SingleKey.verify, halg, hpoint]

/-- A secp256k1 key that accepts spells a point, and the point accepts. -/
lemma SingleKey.accepts_of_verify (halg : k.algorithm = .secp256k1)
    (h : k.verify msg sig = .ok ()) :
    ∃ x y, readPoint k.bytes = some (x, y) ∧ accepts x y msg sig = true := by
  cases hpoint : readPoint k.bytes with
  | none => simp [SingleKey.verify, halg, hpoint] at h
  | some point =>
    obtain ⟨x, y⟩ := point
    rw [verify_of_readPoint halg hpoint] at h
    split_ifs at h with haccepts
    exact ⟨x, y, rfl, haccepts⟩

/-- **Malleability**: a signature that a secp256k1 key accepts has its numbers in range, the
second in the lower half, and with the negative of the second it is rejected for every message.
What a secp256k1 secret signs has a second number in the lower half, so that all that counts when
it is checked is what else is asked. -/
theorem verify_lower_half :
    (∀ (k : SingleKey) (msg sig : Bytes), k.algorithm = .secp256k1 → k.verify msg sig = .ok () →
      sig.length = 64 ∧ (1 ≤ rOf sig ∧ rOf sig ≤ order - 1) ∧
        (1 ≤ sOf sig ∧ sOf sig ≤ (order - 1) / 2) ∧
        ∀ msg', k.verify msg' (mirror sig) = .error .rejected) ∧
    ∀ (sk : SecretKey) (msg : Bytes), sk.algorithm = .secp256k1 →
      (sk.sign msg).length = 64 ∧ sOf (sk.sign msg) ≤ (order - 1) / 2 ∧
        ∀ x y msg', accepts x y msg' (sk.sign msg) = satisfies x y msg' (sk.sign msg) := by
  constructor
  · intro k msg sig halg hverify
    obtain ⟨x, y, hpoint, haccepts⟩ := SingleKey.accepts_of_verify halg hverify
    obtain ⟨hlen, hr, hs⟩ := range_of_accepts haccepts
    refine ⟨hlen, hr, hs, fun msg' => ?_⟩
    rw [SingleKey.verify_of_readPoint halg hpoint, not_accepts_mirror haccepts]
    rfl
  · intro sk msg halg
    cases sk with
    | ed25519 seed h => exact nomatch halg
    | secp256k1 secret hpos hlt =>
      have hlow := isLow_sign secret msg
      refine ⟨length_sign secret msg, isLow_iff.mp hlow, fun x y msg' => ?_⟩
      rw [accepts_eq, SecretKey.sign, hlow, Bool.true_and]

/-- The secret whose point is the generator. -/
def unitSecret : SecretKey := .secp256k1 1 Nat.one_pos one_lt_order

/-- What this secret makes of a message with the nonce 1. -/
def unitSignature (msg : Bytes) : Bytes :=
  let r := Fin.ofNat order Point.generator.x.val
  Bytes.ofNatBE 32 r.val ++ Bytes.ofNatBE 32 (lower (digest msg + r)).val

/-- Turned over, the signature still satisfies the equation, and is rejected nonetheless. -/
theorem verify_lower_half_unitSecret :
    unitSecret.publicKey.verify [42] (unitSignature [42]) = .ok () ∧
      satisfies Point.generator.x Point.generator.y [42] (mirror (unitSignature [42])) = true ∧
      unitSecret.publicKey.verify [42] (mirror (unitSignature [42])) = .error .rejected ∧
      sOf (unitSecret.sign [42]) ≤ (order - 1) / 2 := by
  have hverify : unitSecret.publicKey.verify [42] (unitSignature [42]) = .ok () := by
    decide +kernel
  have hmirror : satisfies Point.generator.x Point.generator.y [42]
      (mirror (unitSignature [42])) = true := by decide +kernel
  obtain ⟨-, -, -, hrejected⟩ := verify_lower_half.1 _ [42] _ rfl hverify
  obtain ⟨-, hlow, -⟩ := verify_lower_half.2 unitSecret [42] rfl
  exact ⟨hverify, hmirror, hrejected [42], hlow⟩

end ChainKeys
