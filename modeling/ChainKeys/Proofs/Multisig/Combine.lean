import ChainKeys.Proofs.Multisig.Acceptance
import Mathlib.Data.List.Basic

/-!
What `combine` makes of a map of signatures.

The walk over the members sets a bit and appends a signature at the same step, so the set members
and the signatures are two readings of one list: the members the map has a signature for.
-/

namespace ChainKeys

namespace Signatures

lemma get?_remove (s : Signatures) {a b : Address} (h : b ≠ a) :
    (s.remove a).get? b = s.get? b := by
  unfold get? remove
  induction s with
  | nil => rfl
  | cons e s ih =>
    obtain ⟨c, sig⟩ := e
    rw [List.filter_cons]
    by_cases hc : c = a
    · rw [if_neg (by simp [hc]), ih, List.lookup_cons, hc, beq_false_of_ne h]
    · rw [if_pos (by simp [hc]), List.lookup_cons, List.lookup_cons, ih]

lemma get?_put_self (s : Signatures) (a : Address) (sig : Bytes) :
    (s.put a sig).get? a = some sig := by
  simp [put, get?]

lemma get?_put_of_ne (s : Signatures) {a b : Address} (h : b ≠ a) (sig : Bytes) :
    (s.put a sig).get? b = s.get? b := by
  rw [put, get?, List.lookup_cons, beq_false_of_ne h]
  exact s.get?_remove h

def putAll (s : Signatures) (entries : List (Address × Bytes)) : Signatures :=
  entries.foldl (fun s e => s.put e.1 e.2) s

lemma get?_putAll_of_notMem {s : Signatures} {entries : List (Address × Bytes)} {a : Address}
    (h : a ∉ entries.map Prod.fst) : (s.putAll entries).get? a = s.get? a := by
  induction entries generalizing s with
  | nil => rfl
  | cons e entries ih =>
    rw [List.map_cons, List.mem_cons, not_or] at h
    exact (ih h.2).trans (s.get?_put_of_ne h.1 e.2)

lemma get?_putAll_of_mem {s : Signatures} {entries : List (Address × Bytes)} {a : Address}
    {sig : Bytes} (hnodup : (entries.map Prod.fst).Nodup) (h : (a, sig) ∈ entries) :
    (s.putAll entries).get? a = some sig := by
  induction entries generalizing s with
  | nil => cases h
  | cons e entries ih =>
    rw [List.map_cons, List.nodup_cons] at hnodup
    rcases List.mem_cons.mp h with rfl | hrest
    · exact (get?_putAll_of_notMem hnodup.1).trans (s.get?_put_self a sig)
    · exact ih hnodup.2 hrest

end Signatures

namespace MultiSignature

variable {k : ThresholdKey} {sigs : Signatures} {msg : Bytes}

/-- What the map has for a member. -/
def found (sigs : Signatures) (e : SingleKey × Nat) : Option Bytes := sigs.get? (.ofSingle e.1)

/-- **The walk.** Bits and signatures after the entries, whatever stood there before. -/
lemma foldl_visit (sigs : Signatures) {bits : BitArray} {n : Nat} (hbits : bits.Clean n)
    (acc : List Bytes) (entries : List (SingleKey × Nat)) (hlt : ∀ e ∈ entries, e.2 < n) :
    (entries.foldl (visit sigs) (bits, acc)).1.Clean n ∧
    (∀ i, (entries.foldl (visit sigs) (bits, acc)).1.get i = true ↔
      bits.get i = true ∨ ∃ e ∈ entries, e.2 = i ∧ (found sigs e).isSome) ∧
    (entries.foldl (visit sigs) (bits, acc)).2 = acc ++ entries.filterMap (found sigs) := by
  induction entries generalizing bits acc with
  | nil => simpa using hbits
  | cons e entries ih =>
    have hrest : ∀ e' ∈ entries, e'.2 < n := fun e' h => hlt e' (List.mem_cons_of_mem e h)
    rw [List.foldl_cons, List.filterMap_cons]
    cases hsig : found sigs e with
    | none =>
      have hvisit : visit sigs (bits, acc) e = (bits, acc) := by
        simp only [visit, show sigs.get? (.ofSingle e.1) = none from hsig]
      rw [hvisit]
      obtain ⟨hclean, hget, hlist⟩ := ih hbits acc hrest
      exact ⟨hclean, by simpa [hsig] using hget, hlist⟩
    | some sig =>
      have hvisit : visit sigs (bits, acc) e = (bits.set e.2 true, acc ++ [sig]) := by
        simp only [visit, show sigs.get? (.ofSingle e.1) = some sig from hsig]
      rw [hvisit]
      obtain ⟨hclean, hget, hlist⟩ := ih (hbits.set e.2 true) (acc ++ [sig]) hrest
      refine ⟨hclean, fun i => ?_, by simpa using hlist⟩
      rw [hget, hbits.get_set (hlt e List.mem_cons_self)]
      by_cases hi : e.2 = i
      · simp [hi, hsig]
      · simp [hi]

lemma combine_layout (k : ThresholdKey) (sigs : Signatures) :
    (combine k sigs).bits.Clean k.members.length ∧
    (∀ i, (combine k sigs).bits.get i = true ↔
      ∃ e ∈ k.members.zipIdx, e.2 = i ∧ (found sigs e).isSome) ∧
    (combine k sigs).signatures = k.members.zipIdx.filterMap (found sigs) := by
  have hlt : ∀ e ∈ k.members.zipIdx, e.2 < k.members.length := by
    intro e he
    exact (List.getElem?_eq_some_iff.mp (List.mem_zipIdx_iff_getElem?.mp he)).1
  obtain ⟨hclean, hget, hlist⟩ :=
    foldl_visit sigs (BitArray.Clean.zeros k.members.length) [] k.members.zipIdx hlt
  refine ⟨hclean, fun i => (hget i).trans ?_, hlist⟩
  simp [BitArray.get_zeros]

/-- What the map has for the member at a position, if there is such a member. -/
def foundAt (k : ThresholdKey) (sigs : Signatures) (i : Nat) : Option Bytes :=
  k.members[i]?.bind fun a => sigs.get? (.ofSingle a)

lemma found_eq_foundAt {e : SingleKey × Nat} (he : e ∈ k.members.zipIdx) :
    found sigs e = foundAt k sigs e.2 := by
  rw [foundAt, List.mem_zipIdx_iff_getElem?.mp he]
  rfl

lemma get_bits_combine (k : ThresholdKey) (sigs : Signatures) (i : Nat) :
    (combine k sigs).bits.get i = (foundAt k sigs i).isSome := by
  obtain ⟨-, hget, -⟩ := combine_layout k sigs
  rw [Bool.eq_iff_iff, hget]
  constructor
  · rintro ⟨e, he, rfl, hsome⟩
    rwa [← found_eq_foundAt he]
  · intro hsome
    rcases hmember : k.members[i]? with _ | a
    · simp [foundAt, hmember] at hsome
    · have he : (a, i) ∈ k.members.zipIdx := List.mem_zipIdx_iff_getElem?.mpr hmember
      exact ⟨(a, i), he, rfl, by rwa [found_eq_foundAt he]⟩

lemma chosen_combine (k : ThresholdKey) (sigs : Signatures) :
    chosen (combine k sigs).bits k.members.zipIdx
      = k.members.zipIdx.filter fun e => (found sigs e).isSome := by
  refine List.filter_congr fun e he => ?_
  rw [get_bits_combine, found_eq_foundAt he]

lemma zip_filter_filterMap {α β : Type} (f : α → Option β) (l : List α) :
    ∀ p ∈ (l.filter fun a => (f a).isSome).zip (l.filterMap f), f p.1 = some p.2 := by
  induction l with
  | nil => simp
  | cons a l ih =>
    cases ha : f a with
    | none => simpa [ha] using ih
    | some b => simpa [ha] using ih

lemma length_filter_zipIdx {α : Type} (p : α → Bool) (l : List α) :
    (l.zipIdx.filter fun e => p e.1).length = (l.filter p).length := by
  conv_rhs => rw [← List.zipIdx_map_fst 0 l, List.filter_map, List.length_map]
  rfl

/-- The signatures are what the map has for the members, in their order. -/
lemma signatures_combine (k : ThresholdKey) (sigs : Signatures) :
    (combine k sigs).signatures = k.members.filterMap fun a => sigs.get? (.ofSingle a) := by
  obtain ⟨-, -, hlist⟩ := combine_layout k sigs
  rw [hlist]
  conv_rhs => rw [← List.zipIdx_map_fst 0 k.members, List.filterMap_map]
  rfl

/-- The bits tell for which members the map has a signature. -/
lemma toList_bits_combine (k : ThresholdKey) (sigs : Signatures) :
    (combine k sigs).bits.toList = k.members.map fun a => (sigs.get? (.ofSingle a)).isSome := by
  have hlength := (combine_layout k sigs).1.length
  refine List.ext_getElem (by simp [BitArray.toList, hlength]) fun i _ hi => ?_
  rw [List.length_map] at hi
  simp [BitArray.toList, get_bits_combine, foundAt, hi]

lemma length_signatures_combine (k : ThresholdKey) (sigs : Signatures) :
    (combine k sigs).signatures.length
      = (k.members.filter fun a => (sigs.get? (.ofSingle a)).isSome).length := by
  rw [signatures_combine, List.length_filterMap_eq_countP, List.countP_eq_length_filter]

/-- Members only matter through what the map has for them. -/
lemma combine_congr {s t : Signatures}
    (h : ∀ a ∈ k.members, s.get? (.ofSingle a) = t.get? (.ofSingle a)) :
    combine k s = combine k t := by
  have hvisit : k.members.zipIdx.foldl (visit s) (BitArray.zeros k.members.length, [])
      = k.members.zipIdx.foldl (visit t) (BitArray.zeros k.members.length, []) := by
    refine List.foldl_ext _ _ _ fun acc e he => ?_
    rw [visit, visit, h e.1 (List.fst_mem_of_mem_zipIdx he)]
  simp only [combine, hvisit]

lemma length_chosen_combine (k : ThresholdKey) (sigs : Signatures) :
    (chosen (combine k sigs).bits k.members.zipIdx).length
      = (combine k sigs).signatures.length := by
  obtain ⟨-, -, hlist⟩ := combine_layout k sigs
  rw [chosen_combine, hlist, List.length_filterMap_eq_countP, List.countP_eq_length_filter]

lemma countOnes_combine (k : ThresholdKey) (sigs : Signatures) :
    (combine k sigs).bits.countOnes = (combine k sigs).signatures.length := by
  obtain ⟨hclean, -, -⟩ := combine_layout k sigs
  rw [hclean.countOnes, ← map_snd_chosen hclean.length, List.length_map, length_chosen_combine]

/-- Each signature meets the member it was found for. -/
lemma verifyMembers_combine
    (haccept : ∀ a ∈ k.members, ∀ sig, sigs.get? (.ofSingle a) = some sig →
      a.verify msg sig = .ok ()) :
    verifyMembers (combine k sigs).bits msg k.members.zipIdx (combine k sigs).signatures
      = .ok () := by
  obtain ⟨-, -, hlist⟩ := combine_layout k sigs
  have hnone : ((chosen (combine k sigs).bits k.members.zipIdx).zip
      (combine k sigs).signatures).find? (rejects msg) = none := by
    rw [List.find?_eq_none, chosen_combine, hlist]
    intro p hp
    have hfound := zip_filter_filterMap (found sigs) k.members.zipIdx p hp
    have hmem : p.1 ∈ k.members.zipIdx := List.mem_of_mem_filter (List.of_mem_zip hp).1
    simpa [rejects_eq_false] using haccept _ (List.fst_mem_of_mem_zipIdx hmem) _ hfound
  rw [verifyMembers_eq _ _ _ _ (length_chosen_combine k sigs).le, hnone]
  rfl

/-- When every member that has a signature accepts it, only the threshold can fail. -/
lemma verify_combine (hvalid : k.validate = .ok ())
    (haccept : ∀ a ∈ k.members, ∀ sig, sigs.get? (.ofSingle a) = some sig →
      a.verify msg sig = .ok ()) :
    verify k msg (combine k sigs) =
      if k.threshold.toNat ≤ (combine k sigs).signatures.length then .ok ()
      else .error (.insufficient k.threshold (combine k sigs).signatures.length) := by
  have hlength := (combine_layout k sigs).1.length
  rw [verify_eq, hvalid, hlength, countOnes_combine, verifyMembers_combine haccept]
  by_cases henough : k.threshold.toNat ≤ (combine k sigs).signatures.length
  · simp [henough]
  · simp [henough, Nat.not_le.mp henough]

end MultiSignature

end ChainKeys
