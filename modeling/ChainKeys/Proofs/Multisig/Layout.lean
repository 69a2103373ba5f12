import ChainKeys.Proofs.BitArray.Booleans
import ChainKeys.Proofs.Multisig.Combine

/-!
Where a signature stands in what `combine` returns.

Signatures carry no names there: whose they are is told by the bits, as the signature of a set
position has as many others before it as positions before it are set. So what was combined can be
read back, and the result knows the map through its members and in no other way.
-/

namespace ChainKeys.MultiSignature

variable {k : ThresholdKey} {sigs others : Signatures}

lemma map_filter_isSome {α β : Type} (f : α → Option β) (l : List α) :
    (l.filter fun a => (f a).isSome).map f = (l.filterMap f).map some := by
  induction l with
  | nil => rfl
  | cons a l ih =>
    cases ha : f a with
    | none => simpa [ha] using ih
    | some b => simpa [ha] using ih

/-- The signatures are what the map has for the set positions, in their order. -/
lemma map_some_signatures (k : ThresholdKey) (sigs : Signatures) :
    (combine k sigs).signatures.map some =
      (combine k sigs).bits.ones.map (foundAt k sigs) := by
  obtain ⟨hclean, -, hlist⟩ := combine_layout k sigs
  have hfound : ∀ e ∈ chosen (combine k sigs).bits k.members.zipIdx,
      found sigs e = (foundAt k sigs ∘ Prod.snd) e :=
    fun e he => found_eq_foundAt (List.mem_of_mem_filter he)
  calc (combine k sigs).signatures.map some
      = (k.members.zipIdx.filter fun e => (found sigs e).isSome).map (found sigs) := by
        rw [hlist, map_filter_isSome]
    _ = (chosen (combine k sigs).bits k.members.zipIdx).map (foundAt k sigs ∘ Prod.snd) := by
        rw [← chosen_combine, List.map_congr_left hfound]
    _ = (combine k sigs).bits.ones.map (foundAt k sigs) := by
        rw [← List.map_map, map_snd_chosen hclean.length]

/-- The signature of a set position stands behind those of the set positions before it. -/
lemma getElem?_signatures_rank {i : Nat} (hi : (combine k sigs).bits.get i = true) :
    (combine k sigs).signatures[(combine k sigs).bits.rank i]? = foundAt k sigs i := by
  have hat := congrArg (fun l => l[(combine k sigs).bits.rank i]?) (map_some_signatures k sigs)
  simp only [List.getElem?_map, BitArray.getElem?_ones_rank hi, Option.map_some] at hat
  obtain ⟨sig, hsig, hfound⟩ := Option.map_eq_some_iff.mp hat
  rw [hsig, hfound]

/-- What the map has for a member can be read off the result. -/
lemma foundAt_of_combine_eq (h : combine k others = combine k sigs) (i : Nat) :
    foundAt k others i = foundAt k sigs i := by
  have hnone : ∀ s, (combine k s).bits.get i = false → foundAt k s i = none := by
    intro s hs
    rw [get_bits_combine] at hs
    simpa using hs
  cases hi : (combine k sigs).bits.get i with
  | true => rw [← getElem?_signatures_rank hi, ← h, getElem?_signatures_rank (h ▸ hi)]
  | false => rw [hnone sigs hi, hnone others (h ▸ hi)]

lemma combine_eq_iff :
    combine k others = combine k sigs ↔
      ∀ a ∈ k.members, others.get? (.ofSingle a) = sigs.get? (.ofSingle a) := by
  refine ⟨fun h a ha => ?_, combine_congr⟩
  obtain ⟨i, hi⟩ := List.getElem?_of_mem ha
  have hat := foundAt_of_combine_eq h i
  rwa [foundAt, foundAt, hi] at hat

/-- **The layout** of a combined signature: a bit for each member, set just where the map has a
signature for the member there; the signatures of the set positions in their order, so that each
stands at the place that the set positions before it leave; as many modes as signatures and set
bits. Another map gives the same result just when it has the same for each member. -/
theorem combine_exact (k : ThresholdKey) (sigs : Signatures) :
    let m := combine k sigs
    m.bits.length = k.members.length ∧
    (∀ i, m.bits.get i = (foundAt k sigs i).isSome) ∧
    m.signatures.map some = m.bits.ones.map (foundAt k sigs) ∧
    (∀ i, m.bits.get i = true → m.signatures[m.bits.rank i]? = foundAt k sigs i) ∧
    m.signatures.length = m.bits.countOnes ∧
    m.modes = List.replicate m.bits.countOnes .legacyAminoJson ∧
    ∀ others, combine k others = m ↔
      ∀ a ∈ k.members, others.get? (.ofSingle a) = sigs.get? (.ofSingle a) := by
  intro m
  have hcount : m.bits.countOnes = m.signatures.length := countOnes_combine k sigs
  have hmodes : m.modes = List.replicate m.bits.countOnes .legacyAminoJson := by
    rw [hcount]
    exact List.map_const' ..
  exact ⟨(combine_layout k sigs).1.length, get_bits_combine k sigs, map_some_signatures k sigs,
    fun i hi => getElem?_signatures_rank hi, hcount.symm, hmodes, fun _ => combine_eq_iff⟩

end ChainKeys.MultiSignature
