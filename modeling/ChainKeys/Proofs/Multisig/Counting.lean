import ChainKeys.Proofs.Multisig.Combine
import ChainKeys.Proofs.Multisig.Order
import Mathlib.Algebra.BigOperators.Group.List.Lemmas
import Mathlib.Data.List.Perm.Subperm

/-!
How often one signature counts.

A member finds its signature by its address, so the signature of an address counts once for each
member that has it. Nothing keeps members from having one address: a member may be repeated, and
two keys may share theirs. Where the addresses differ, and only there, a threshold is reached by
as many different signers.
-/

namespace ChainKeys

namespace Signatures

/-- The different addresses that have a signature. -/
def signers (s : Signatures) : List Address := (s.map Prod.fst).dedup

lemma mem_signers {s : Signatures} {a : Address} : a ∈ s.signers ↔ (s.get? a).isSome := by
  rw [signers, List.mem_dedup, get?, List.lookup_isSome_iff, List.mem_map]
  constructor
  · rintro ⟨e, he, rfl⟩
    exact ⟨e, he, beq_self_eq_true _⟩
  · rintro ⟨e, he, heq⟩
    exact ⟨e, he, (eq_of_beq heq).symm⟩

end Signatures

namespace MultiSignature

/-- The addresses of the members, in their order. -/
def addresses (members : List SingleKey) : List Address := members.map .ofSingle

/-- For how many members the signature of an address is taken: those with this address whose bit
is set. -/
def uses (k : ThresholdKey) (m : MultiSignature) (a : Address) : Nat :=
  ((chosen m.bits k.members.zipIdx).filter fun e => Address.ofSingle e.1 = a).length

/-- The different addresses whose signatures the members find. -/
def suppliers (k : ThresholdKey) (sigs : Signatures) : List Address :=
  (addresses k.members).dedup.filter fun a => (sigs.get? a).isSome

variable {k : ThresholdKey} {sigs : Signatures} {a : Address}

lemma count_addresses (members : List SingleKey) (a : Address) :
    (addresses members).count a = (members.filter fun b => Address.ofSingle b = a).length := by
  rw [addresses, List.count, List.countP_map, List.countP_eq_length_filter]
  rfl

lemma uses_combine (k : ThresholdKey) (sigs : Signatures) (a : Address) :
    uses k (combine k sigs) a =
      if a ∈ sigs.signers then (addresses k.members).count a else 0 := by
  have hfilter : uses k (combine k sigs) a = (k.members.filter fun b =>
      decide (Address.ofSingle b = a) && (sigs.get? (.ofSingle b)).isSome).length := by
    rw [uses, chosen_combine, List.filter_filter]
    exact length_filter_zipIdx (fun b =>
      decide (Address.ofSingle b = a) && (sigs.get? (.ofSingle b)).isSome) k.members
  rw [hfilter, count_addresses]
  split_ifs with hsigned
  · refine congrArg List.length (List.filter_congr fun b _ => ?_)
    by_cases hb : Address.ofSingle b = a
    · simpa [hb] using Signatures.mem_signers.mp hsigned
    · simp [hb]
  · rw [List.length_eq_zero_iff, List.filter_eq_nil_iff]
    intro b _ hb
    rw [Bool.and_eq_true, decide_eq_true_iff] at hb
    exact hsigned (hb.1 ▸ Signatures.mem_signers.mpr hb.2)

/-- Every supplier's signature is there as often as members have its address. -/
lemma length_signatures_eq_sum (k : ThresholdKey) (sigs : Signatures) :
    (combine k sigs).signatures.length =
      ((suppliers k sigs).map fun a => (addresses k.members).count a).sum := by
  rw [length_signatures_combine, suppliers, List.sum_map_count_dedup_filter_eq_countP, addresses,
    List.countP_map, List.countP_eq_length_filter]
  rfl

lemma length_suppliers_le (k : ThresholdKey) (sigs : Signatures) :
    (suppliers k sigs).length ≤ sigs.signers.length := by
  have hnodup : (suppliers k sigs).Nodup := (List.nodup_dedup _).filter _
  refine (hnodup.subperm fun a ha => ?_).length_le
  exact Signatures.mem_signers.mpr (List.mem_filter.mp ha).2

/-- Where the addresses differ there is one signature from each supplier. -/
lemma length_signatures_eq_suppliers (hnodup : (addresses k.members).Nodup) (sigs : Signatures) :
    (combine k sigs).signatures.length = (suppliers k sigs).length := by
  have hone : ∀ a ∈ suppliers k sigs, (addresses k.members).count a = 1 := fun a ha =>
    List.count_eq_one_of_mem hnodup (List.mem_dedup.mp (List.mem_filter.mp ha).1)
  rw [length_signatures_eq_sum, List.map_congr_left hone]
  simp

/-- The map in which a single address has a signature. -/
lemma length_signatures_single (k : ThresholdKey) (a : Address) (sig : Bytes) :
    (combine k [(a, sig)]).signatures.length = (addresses k.members).count a := by
  rw [length_signatures_combine, count_addresses]
  refine congrArg List.length (List.filter_congr fun b _ => ?_)
  by_cases hb : Address.ofSingle b = a
  · simp [Signatures.get?, hb]
  · simp [Signatures.get?, List.lookup_cons, hb, beq_false_of_ne hb]

lemma nodup_addresses_iff (k : ThresholdKey) :
    (addresses k.members).Nodup ↔
      ∀ sigs, (combine k sigs).signatures.length ≤ sigs.signers.length := by
  constructor
  · intro hnodup sigs
    rw [length_signatures_eq_suppliers hnodup]
    exact length_suppliers_le k sigs
  · intro h
    refine List.nodup_iff_count_le_one.mpr fun a => ?_
    have hsingle := h [(a, [])]
    rw [length_signatures_single] at hsingle
    simpa [Signatures.signers] using hsingle

/-- **What a signature counts for**: as many members as have its address. So no signature counts
twice, whatever the map, exactly when the members of a key were given with different addresses;
and then as many different addresses as the threshold says have signed for a signature that
meets it. -/
theorem combine_counts {members : List SingleKey} {threshold : UInt32} {keepOrder : Bool}
    (h : ThresholdKey.create members threshold keepOrder = .ok k) :
    (∀ sigs a, uses k (combine k sigs) a =
      if a ∈ sigs.signers then (addresses members).count a else 0) ∧
    ((addresses members).Nodup ↔
      ∀ sigs, (combine k sigs).signatures.length ≤ sigs.signers.length) ∧
    ((addresses members).Nodup → ∀ sigs,
      (∀ a, uses k (combine k sigs) a ≤ 1) ∧
      ((combine k sigs).meets k = true → threshold.toNat ≤ (suppliers k sigs).length)) := by
  obtain ⟨hthreshold, hperm⟩ := ThresholdKey.perm_of_create h
  have haddresses : (addresses k.members).Perm (addresses members) := hperm.map _
  have huses : ∀ sigs a, uses k (combine k sigs) a =
      if a ∈ sigs.signers then (addresses members).count a else 0 := fun sigs a => by
    rw [uses_combine, haddresses.count_eq]
  refine ⟨huses, ?_, fun hnodup sigs => ⟨fun a => ?_, fun hmeets => ?_⟩⟩
  · rw [← haddresses.nodup_iff]
    exact nodup_addresses_iff k
  · rw [huses]
    split_ifs
    · exact List.nodup_iff_count_le_one.mp hnodup a
    · exact Nat.zero_le 1
  · rw [meets, decide_eq_true_iff, hthreshold,
      length_signatures_eq_suppliers (haddresses.nodup_iff.mpr hnodup)] at hmeets
    exact hmeets

open ThresholdKey (edZero secpZero)

def twoMembers : ThresholdKey := ⟨2, [edZero, secpZero]⟩

def twoSignatures : Signatures := [(.ofSingle secpZero, [2]), (.ofSingle edZero, [1])]

theorem combine_counts_two :
    ThresholdKey.create [edZero, secpZero] 2 true = .ok twoMembers ∧
      (addresses [edZero, secpZero]).Nodup ∧
      (combine twoMembers twoSignatures).meets twoMembers = true ∧
      2 ≤ (suppliers twoMembers twoSignatures).length := by
  have hcreate : ThresholdKey.create [edZero, secpZero] 2 true = .ok twoMembers := rfl
  have hnodup : (addresses [edZero, secpZero]).Nodup := by decide +kernel
  have hmeets : (combine twoMembers twoSignatures).meets twoMembers = true := by decide +kernel
  exact ⟨hcreate, hnodup, hmeets,
    (((combine_counts hcreate).2.2 hnodup twoSignatures).2 hmeets)⟩

/-- A key may have the same member twice, and then the one signature of its address counts for
two members and meets a threshold of two. -/
theorem combine_counts_repeated_twice :
    ¬ ∀ (members : List SingleKey) (threshold : UInt32) (keepOrder : Bool) (k : ThresholdKey)
      (sigs : Signatures), ThresholdKey.create members threshold keepOrder = .ok k →
      (∀ a, uses k (combine k sigs) a ≤ 1) ∧
      (combine k sigs).signatures.length ≤ sigs.signers.length ∧
      ((combine k sigs).meets k = true → threshold.toNat ≤ (suppliers k sigs).length) := by
  intro h
  have hcount := (h [edZero, edZero] 2 true ⟨2, [edZero, edZero]⟩ [(.ofSingle edZero, [1])] rfl).2.1
  rw [length_signatures_single] at hcount
  simp [addresses, Signatures.signers] at hcount

end MultiSignature

end ChainKeys
