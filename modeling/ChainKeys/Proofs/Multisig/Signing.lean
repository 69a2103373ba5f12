import ChainKeys.Proofs.Multisig.Combine
import ChainKeys.Proofs.Multisig.Creation
import Mathlib.Data.List.Nodup

/-!
From secrets to an accepted threshold signature.

Creating the key may reorder the members, and the map of signatures forgets who put them there;
what ties the two together is that distinct members have distinct addresses.
-/

namespace ChainKeys.MultiSignature

variable {keys signers : List SecretKey} {msg : Bytes}

/-- A threshold within the members makes a usable key of them. -/
lemma create_ok {members : List SingleKey} {threshold : UInt32} (hpos : 1 ≤ threshold.toNat)
    (hle : threshold.toNat ≤ members.length) (keepOrder : Bool) :
    ∃ k, ThresholdKey.create members threshold keepOrder = .ok k ∧ k.validate = .ok () ∧
      k.threshold = threshold ∧ k.members.Perm members := by
  have hzero : threshold ≠ 0 := by
    rintro rfl
    simp at hpos
  have htaken : ¬ThresholdKey.Refused threshold members := by
    simpa [ThresholdKey.Refused, hzero] using hle
  obtain ⟨k, hk⟩ := ThresholdKey.exists_create htaken keepOrder
  obtain ⟨hthreshold, hperm⟩ := ThresholdKey.perm_of_create hk
  exact ⟨k, hk, ThresholdKey.validate_of_create hk, hthreshold, hperm⟩

/-- The address under which a signer's signature is put. -/
def addressOf (sk : SecretKey) : Address := .ofSingle sk.publicKey

/-- What the signers make of a message. -/
def signAll (msg : Bytes) (signers : List SecretKey) : Signatures :=
  Signatures.putAll [] (signers.map fun sk => (addressOf sk, sk.sign msg))

lemma map_fst_entries (msg : Bytes) (signers : List SecretKey) :
    (signers.map fun sk => (addressOf sk, sk.sign msg)).map Prod.fst = signers.map addressOf := by
  rw [List.map_map]
  rfl

lemma addressOf_inj (hkeys : (keys.map addressOf).Nodup) {a b : SecretKey} (ha : a ∈ keys)
    (hb : b ∈ keys) (h : addressOf a = addressOf b) : a = b :=
  List.inj_on_of_nodup_map hkeys ha hb h

/-- Each key finds its own signature, and only if it signed. -/
lemma get?_signAll (msg : Bytes) (hkeys : (keys.map addressOf).Nodup) (hsigners : signers.Nodup)
    (hsub : signers ⊆ keys) {sk : SecretKey} (hsk : sk ∈ keys) :
    (signAll msg signers).get? (addressOf sk)
      = if sk ∈ signers then some (sk.sign msg) else none := by
  by_cases hsigned : sk ∈ signers
  · rw [if_pos hsigned]
    refine Signatures.get?_putAll_of_mem ?_ (List.mem_map.mpr ⟨sk, hsigned, rfl⟩)
    rw [map_fst_entries]
    exact hsigners.map_on fun a ha b hb => addressOf_inj hkeys (hsub ha) (hsub hb)
  · rw [if_neg hsigned]
    refine Signatures.get?_putAll_of_notMem ?_
    rw [map_fst_entries, List.mem_map]
    rintro ⟨a, ha, heq⟩
    exact hsigned (addressOf_inj hkeys (hsub ha) hsk heq ▸ ha)

/-- As many signatures are collected as there are signers, whatever the order of the members. -/
lemma length_signatures_signAll (hkeys : (keys.map addressOf).Nodup) (hsigners : signers.Nodup)
    (hsub : signers ⊆ keys) {k : ThresholdKey}
    (hperm : k.members.Perm (keys.map SecretKey.publicKey)) :
    (combine k (signAll msg signers)).signatures.length = signers.length := by
  have hsigned : ∀ sk ∈ keys,
      ((signAll msg signers).get? (.ofSingle sk.publicKey)).isSome = decide (sk ∈ signers) := by
    intro sk hsk
    have hget := get?_signAll msg hkeys hsigners hsub hsk
    rw [addressOf] at hget
    rw [hget]
    split <;> simp_all
  have hsame : (keys.filter fun sk => decide (sk ∈ signers)).Perm signers := by
    rw [List.perm_ext_iff_of_nodup (hkeys.of_map.filter _) hsigners]
    intro sk
    rw [List.mem_filter, decide_eq_true_iff]
    exact ⟨And.right, fun h => ⟨hsub h, h⟩⟩
  rw [length_signatures_combine, (hperm.filter _).length_eq, List.filter_map, List.length_map]
  exact (congrArg List.length (List.filter_congr hsigned)).trans hsame.length_eq

/-- **The pipeline**: any set of signers of a threshold key over distinct addresses is accepted
when it reaches the threshold and told how far it got otherwise, and signatures of anyone else
change nothing. -/
theorem verify_signed {threshold : UInt32} (keepOrder : Bool)
    (hkeys : (keys.map addressOf).Nodup)
    (hpos : 1 ≤ threshold.toNat) (hle : threshold.toNat ≤ keys.length)
    (hsigners : signers.Nodup) (hsub : signers ⊆ keys)
    (hsign : ∀ sk ∈ signers, sk.publicKey.verify msg (sk.sign msg) = .ok ()) :
    ∃ k, ThresholdKey.create (keys.map SecretKey.publicKey) threshold keepOrder = .ok k ∧
      verify k msg (combine k (signAll msg signers)) =
        (if threshold.toNat ≤ signers.length then .ok ()
        else .error (.insufficient threshold signers.length)) ∧
      ∀ others : List (Address × Bytes), (∀ e ∈ others, e.1 ∉ keys.map addressOf) →
        combine k ((signAll msg signers).putAll others) = combine k (signAll msg signers) := by
  have hlength : (keys.map SecretKey.publicKey).length = keys.length := List.length_map _
  obtain ⟨k, hcreate, hvalid, hthreshold, hperm⟩ := create_ok hpos (hlength ▸ hle) keepOrder
  have hmember : ∀ a ∈ k.members, ∃ sk ∈ keys, sk.publicKey = a := fun a ha =>
    List.mem_map.mp (hperm.mem_iff.mp ha)
  refine ⟨k, hcreate, ?_, fun others hothers => ?_⟩
  · have haccept : ∀ a ∈ k.members, ∀ sig,
        (signAll msg signers).get? (.ofSingle a) = some sig → a.verify msg sig = .ok () := by
      intro a ha sig hsig
      obtain ⟨sk, hsk, rfl⟩ := hmember a ha
      rw [← addressOf, get?_signAll msg hkeys hsigners hsub hsk] at hsig
      split at hsig
      · rename_i hsigned
        rw [← Option.some.inj hsig]
        exact hsign sk hsigned
      · cases hsig
    rw [verify_combine hvalid haccept, length_signatures_signAll hkeys hsigners hsub hperm,
      hthreshold]
  · refine combine_congr fun a ha => Signatures.get?_putAll_of_notMem fun hin => ?_
    obtain ⟨sk, hsk, rfl⟩ := hmember a ha
    obtain ⟨e, he, heq⟩ := List.mem_map.mp hin
    exact hothers e he (heq ▸ List.mem_map_of_mem hsk)

/-- A signer on each of the two curves. -/
def twoSigners : List SecretKey :=
  [.secp256k1 1 (by decide) (by decide), .ed25519 (List.replicate 32 7) (by decide)]

/-- One of the two signers is enough for a threshold of one, and too few for two. -/
theorem verify_signed_one_of_two :
    (∃ k, ThresholdKey.create (twoSigners.map SecretKey.publicKey) 1 false = .ok k ∧
      verify k [42] (combine k (signAll [42] (twoSigners.drop 1))) = .ok ()) ∧
    (∃ k, ThresholdKey.create (twoSigners.map SecretKey.publicKey) 2 true = .ok k ∧
      verify k [42] (combine k (signAll [42] (twoSigners.drop 1)))
        = .error (.insufficient 2 1)) := by
  have hkeys : (twoSigners.map addressOf).Nodup := by decide +kernel
  have hsigners : (twoSigners.drop 1).Nodup := by decide +kernel
  have hsub : twoSigners.drop 1 ⊆ twoSigners := List.drop_subset 1 twoSigners
  have hsign : ∀ sk ∈ twoSigners.drop 1, sk.publicKey.verify [42] (sk.sign [42]) = .ok () := by
    have hbool : ∀ sk ∈ twoSigners.drop 1,
        rejects [42] ((sk.publicKey, 0), sk.sign [42]) = false := by decide +kernel
    exact fun sk hsk => rejects_eq_false.mp (hbool sk hsk)
  obtain ⟨k, hk, hverify, -⟩ := verify_signed false hkeys (by decide : 1 ≤ (1 : UInt32).toNat)
    (by decide) hsigners hsub hsign
  obtain ⟨k', hk', hverify', -⟩ := verify_signed true hkeys (by decide : 1 ≤ (2 : UInt32).toNat)
    (by decide) hsigners hsub hsign
  exact ⟨⟨k, hk, hverify⟩, ⟨k', hk', hverify'⟩⟩

end ChainKeys.MultiSignature
