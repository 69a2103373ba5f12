import ChainKeys.KeyAddress
import ChainKeys.Proofs.Amino.RoundTrip

/-!
When two keys share an address.

An address is a hash of a byte string: the bytes of a single key, or the binary form of a
threshold key. The binary form is shorter than every single key as long as there are no members,
and longer with the first of them; and it determines the key. So the same bytes are hashed for
two keys only if one is an ed25519 and the other an sr25519 key, and all else is a collision of
hashes.
-/

namespace ChainKeys.Address

/-! ### What is hashed -/

/-- The bytes that the address of a key is a hash of. -/
def hashed (r : Amino.Registry) : PublicKey → Bytes
  | .single k => k.bytes
  | .threshold k => Amino.encode r (.threshold k)

/-- The keys that are hashed twice. -/
def IsSecp256k1 : PublicKey → Prop
  | .single k => k.algorithm = .secp256k1
  | .threshold _ => False

variable {r : Amino.Registry} {p q : PublicKey}

lemma bytes_ofKey_secp256k1 (h : IsSecp256k1 p) :
    (ofKey r p).bytes = Ripemd160.hash (Sha256.hash (hashed r p)) := by
  cases p with
  | single k =>
    rw [IsSecp256k1] at h
    simp [ofKey, ofSingle, h, hashed]
  | threshold k => exact h.elim

lemma bytes_ofKey_of_not_secp256k1 (h : ¬IsSecp256k1 p) :
    (ofKey r p).bytes = (Sha256.hash (hashed r p)).take 20 := by
  cases p with
  | single k =>
    rw [IsSecp256k1] at h
    rw [ofKey, ofSingle, hashed]
    cases halg : k.algorithm with
    | secp256k1 => exact absurd halg h
    | ed25519 => rfl
    | sr25519 => rfl
  | threshold k => rfl

/-! ### Lengths -/

lemma length_encodeMember (m : SingleKey) : 39 ≤ (Amino.encodeMember r m).length := by
  have hnumber := Varint.length_encode_pos (Amino.encodeSingle r m).length
  have hkey : 32 ≤ m.algorithm.keyLength := by cases m.algorithm <;> decide
  rw [Amino.encodeMember, List.length_cons, List.length_append, Amino.length_encodeSingle]
  rw [Amino.length_encodeSingle] at hnumber
  omega

/-- Without members at most ten bytes, with members at least 45. -/
lemma length_hashed_threshold (k : ThresholdKey) :
    (hashed r (.threshold k)).length ≤ 10 ∨ 45 ≤ (hashed r (.threshold k)).length := by
  have hpos := Varint.length_encode_pos k.threshold.toNat
  have hlt : k.threshold.toNat < 128 ^ (4 + 1) :=
    Nat.lt_trans k.threshold.toNat_lt_size (by decide)
  have hshort := Varint.length_encode_le hlt
  rw [hashed, Amino.encode_threshold, Amino.thresholdFields, List.length_append,
    r.length_threshold, List.length_cons, List.length_append]
  rcases hmembers : k.members with _ | ⟨m, ms⟩
  · exact .inl (by simp only [List.flatMap_nil, List.length_nil]; omega)
  · have hmember := length_encodeMember (r := r) m
    rw [List.flatMap_cons, List.length_append]
    exact .inr (by omega)

lemma hashed_threshold_ne_single (k : ThresholdKey) (m : SingleKey) :
    hashed r (.threshold k) ≠ hashed r (.single m) := by
  intro h
  have hsingle : (hashed r (.single m)).length = m.algorithm.keyLength := m.length_bytes
  have hkey : m.algorithm.keyLength = 33 ∨ m.algorithm.keyLength = 32 := by
    cases m.algorithm <;> decide
  have hthreshold := length_hashed_threshold (r := r) k
  rw [h, hsingle] at hthreshold
  omega

/-! ### Keys that are hashed alike -/

/-- The same bytes, once as an ed25519 and once as an sr25519 key. -/
def Twins (p q : PublicKey) : Prop :=
  ∃ k l : SingleKey, p = .single k ∧ q = .single l ∧ k.bytes = l.bytes ∧
    (k.algorithm = .ed25519 ∧ l.algorithm = .sr25519 ∨
      k.algorithm = .sr25519 ∧ l.algorithm = .ed25519)

lemma Twins.ne (h : Twins p q) : p ≠ q := by
  rintro rfl
  obtain ⟨k, l, hk, hl, -, halg⟩ := h
  obtain rfl := PublicKey.single.inj (hk.symm.trans hl)
  rcases halg with ⟨hed, hsr⟩ | ⟨hsr, hed⟩ <;> exact nomatch hed.symm.trans hsr

lemma Twins.hashed_eq (h : Twins p q) : hashed r p = hashed r q := by
  obtain ⟨k, l, rfl, rfl, hbytes, -⟩ := h
  exact hbytes

lemma Twins.not_secp256k1 (h : Twins p q) : ¬IsSecp256k1 p ∧ ¬IsSecp256k1 q := by
  obtain ⟨k, l, rfl, rfl, -, halg⟩ := h
  rw [IsSecp256k1, IsSecp256k1]
  rcases halg with ⟨hk, hl⟩ | ⟨hk, hl⟩ <;> simp [hk, hl]

/-- Bytes of one length belong to a secp256k1 key alone, the others to one of two algorithms. -/
lemma twins_of_bytes_eq {k l : SingleKey} (hbytes : k.bytes = l.bytes) (hne : k ≠ l) :
    Twins (.single k) (.single l) := by
  have hlength : k.algorithm.keyLength = l.algorithm.keyLength := by
    rw [← k.length_bytes, ← l.length_bytes, hbytes]
  have halg : k.algorithm ≠ l.algorithm := by
    intro h
    cases k
    cases l
    cases h
    cases hbytes
    exact hne rfl
  refine ⟨k, l, rfl, rfl, hbytes, ?_⟩
  generalize k.algorithm = a at hlength halg ⊢
  generalize l.algorithm = b at hlength halg ⊢
  cases a <;> cases b <;> simp_all [Algorithm.keyLength]

lemma hashed_threshold_inj (hr : r.Distinct) {k l : ThresholdKey} :
    hashed r (.threshold k) = hashed r (.threshold l) ↔ k = l :=
  ⟨fun h => PublicKey.threshold.inj (hr.encode_injective h), fun h => h ▸ rfl⟩

/-- What is hashed determines the key, twins apart. -/
lemma hashed_eq_iff (hr : r.Distinct) : hashed r p = hashed r q ↔ p = q ∨ Twins p q := by
  constructor
  · intro h
    cases p with
    | single k =>
      cases q with
      | single l =>
        by_cases hkl : k = l
        · exact .inl (congrArg PublicKey.single hkl)
        · exact .inr (twins_of_bytes_eq h hkl)
      | threshold l => exact absurd h.symm (hashed_threshold_ne_single l k)
    | threshold k =>
      cases q with
      | single l => exact absurd h (hashed_threshold_ne_single k l)
      | threshold l => exact .inl (congrArg PublicKey.threshold ((hashed_threshold_inj hr).mp h))
  · rintro (rfl | htwins)
    · rfl
    · exact htwins.hashed_eq

/-! ### Collisions -/

/-- How two keys can come to share an address. -/
inductive Collision (r : Amino.Registry) (p q : PublicKey) : Prop
  | twins (same : Twins p q)
  | secp256k1 (hp : IsSecp256k1 p) (hq : IsSecp256k1 q) (differ : hashed r p ≠ hashed r q)
      (collide : Ripemd160.hash (Sha256.hash (hashed r p)) =
        Ripemd160.hash (Sha256.hash (hashed r q)))
  | left (hp : IsSecp256k1 p) (hq : ¬IsSecp256k1 q)
      (collide : Ripemd160.hash (Sha256.hash (hashed r p)) = (Sha256.hash (hashed r q)).take 20)
  | right (hp : ¬IsSecp256k1 p) (hq : IsSecp256k1 q)
      (collide : (Sha256.hash (hashed r p)).take 20 = Ripemd160.hash (Sha256.hash (hashed r q)))
  | sha256 (hp : ¬IsSecp256k1 p) (hq : ¬IsSecp256k1 q) (differ : hashed r p ≠ hashed r q)
      (collide : (Sha256.hash (hashed r p)).take 20 = (Sha256.hash (hashed r q)).take 20)

namespace Collision

lemma ne (h : Collision r p q) : p ≠ q := by
  rintro rfl
  cases h with
  | twins same => exact same.ne rfl
  | secp256k1 _ _ differ => exact differ rfl
  | left hp hq => exact hq hp
  | right hp hq => exact hp hq
  | sha256 _ _ differ => exact differ rfl

lemma ofKey_eq (h : Collision r p q) : ofKey r p = ofKey r q := by
  apply ext_bytes
  cases h with
  | twins same =>
    obtain ⟨hp, hq⟩ := same.not_secp256k1
    rw [bytes_ofKey_of_not_secp256k1 hp, bytes_ofKey_of_not_secp256k1 hq, same.hashed_eq]
  | secp256k1 hp hq _ collide =>
    rwa [bytes_ofKey_secp256k1 hp, bytes_ofKey_secp256k1 hq]
  | left hp hq collide =>
    rwa [bytes_ofKey_secp256k1 hp, bytes_ofKey_of_not_secp256k1 hq]
  | right hp hq collide =>
    rwa [bytes_ofKey_of_not_secp256k1 hp, bytes_ofKey_secp256k1 hq]
  | sha256 hp hq _ collide =>
    rwa [bytes_ofKey_of_not_secp256k1 hp, bytes_ofKey_of_not_secp256k1 hq]

lemma of_ofKey_eq (hr : r.Distinct) (hne : p ≠ q) (h : ofKey r p = ofKey r q) :
    Collision r p q := by
  by_cases htwins : Twins p q
  · exact .twins htwins
  have hdiffer : hashed r p ≠ hashed r q := fun hsame =>
    ((hashed_eq_iff hr).mp hsame).elim hne htwins
  have hbytes := congrArg Address.bytes h
  by_cases hp : IsSecp256k1 p <;> by_cases hq : IsSecp256k1 q
  · rw [bytes_ofKey_secp256k1 hp, bytes_ofKey_secp256k1 hq] at hbytes
    exact .secp256k1 hp hq hdiffer hbytes
  · rw [bytes_ofKey_secp256k1 hp, bytes_ofKey_of_not_secp256k1 hq] at hbytes
    exact .left hp hq hbytes
  · rw [bytes_ofKey_of_not_secp256k1 hp, bytes_ofKey_secp256k1 hq] at hbytes
    exact .right hp hq hbytes
  · rw [bytes_ofKey_of_not_secp256k1 hp, bytes_ofKey_of_not_secp256k1 hq] at hbytes
    exact .sha256 hp hq hdiffer hbytes

end Collision

/-- **Shared addresses**: different keys share an address just when they are twins or two hashes
collide. The bytes hashed for threshold keys are never those of another key. -/
theorem collision_iff :
    (∀ p q, p ≠ q ∧ ofKey .cosmos p = ofKey .cosmos q ↔ Collision .cosmos p q) ∧
      (∀ k l, hashed .cosmos (.threshold k) = hashed .cosmos (.threshold l) ↔ k = l) ∧
      ∀ k m, hashed .cosmos (.threshold k) ≠ hashed .cosmos (.single m) := by
  have hr : Amino.Registry.cosmos.Distinct := by decide
  refine ⟨fun p q => ⟨fun h => .of_ofKey_eq hr h.1 h.2, fun h => ⟨h.ne, h.ofKey_eq⟩⟩, ?_,
    hashed_threshold_ne_single⟩
  intro k l
  exact hashed_threshold_inj hr

end ChainKeys.Address
