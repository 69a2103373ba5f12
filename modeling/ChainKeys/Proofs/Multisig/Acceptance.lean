import ChainKeys.Multisig
import ChainKeys.Proofs.BitArray
import Mathlib.Order.Bounds.Basic
import Mathlib.Tactic.SplitIfs

/-!
Which threshold signatures are accepted.

The loop over the members keeps a list of signatures that shrinks by one at each set bit, so the
signature it holds at the `j`-th set position is the `j`-th. What it does is thus read off the
pairs of set members and signatures alone: it is content with all of them, or names the first
pair that is wrong.
-/

namespace ChainKeys.MultiSignature

variable {k : ThresholdKey} {msg : Bytes} {m : MultiSignature} {n : Nat}

/-- The members whose bits are set, with their positions. -/
def chosen (bits : BitArray) (entries : List (SingleKey × Nat)) : List (SingleKey × Nat) :=
  entries.filter fun e => bits.get e.2

/-- Whether a member turns down its signature. -/
def rejects (msg : Bytes) (p : (SingleKey × Nat) × Bytes) : Bool :=
  match p.1.1.verify msg p.2 with
  | .ok () => false
  | .error _ => true

lemma rejects_eq_false {p : (SingleKey × Nat) × Bytes} :
    rejects msg p = false ↔ p.1.1.verify msg p.2 = .ok () := by
  unfold rejects
  split <;> simp_all

/-- What the loop says of the first pair that is wrong, if any. -/
def verdict : Option ((SingleKey × Nat) × Bytes) → Except Error Unit
  | none => .ok ()
  | some p => .error (.member p.1.2)

/-- **The loop.** With a signature for each set bit, it finds the first that is wrong. -/
lemma verifyMembers_eq (bits : BitArray) (msg : Bytes) (entries : List (SingleKey × Nat))
    (sigs : List Bytes) (h : (chosen bits entries).length ≤ sigs.length) :
    verifyMembers bits msg entries sigs
      = verdict (((chosen bits entries).zip sigs).find? (rejects msg)) := by
  induction entries generalizing sigs with
  | nil => rfl
  | cons e entries ih =>
    obtain ⟨member, i⟩ := e
    by_cases hbit : bits.get i = true
    · -- A set bit takes the next signature, and there is one.
      have hchosen : chosen bits ((member, i) :: entries) = (member, i) :: chosen bits entries :=
        List.filter_cons_of_pos hbit
      rw [hchosen] at h ⊢
      cases sigs with
      | nil => simp at h
      | cons sig sigs =>
        have hrest := ih sigs (by simpa using h)
        rw [verifyMembers, if_pos hbit, List.zip_cons_cons, List.find?_cons]
        cases hv : member.verify msg sig with
        | ok u => simpa [rejects, hv] using hrest
        | error e => simp [rejects, hv, verdict]
    · have hchosen : chosen bits ((member, i) :: entries) = chosen bits entries :=
        List.filter_cons_of_neg hbit
      rw [hchosen] at h ⊢
      rw [verifyMembers.eq_def]
      simp only [if_neg hbit]
      exact ih sigs h

lemma map_snd_chosen {bits : BitArray} {members : List SingleKey}
    (h : bits.length = members.length) :
    (chosen bits members.zipIdx).map Prod.snd = bits.ones := by
  have hrange : members.zipIdx.map Prod.snd = List.range members.length := by
    rw [List.zipIdx_map_snd, List.range_eq_range']
  rw [BitArray.ones, h, ← hrange, List.filter_map]
  rfl

lemma getElem?_of_mem_chosen {bits : BitArray} {members : List SingleKey}
    {e : SingleKey × Nat} (h : e ∈ chosen bits members.zipIdx) : members[e.2]? = some e.1 :=
  List.mem_zipIdx_iff_getElem?.mp (List.mem_of_mem_filter h)

/-! ### The shape -/

/-- A signature that has the shape its key asks for, whoever made it. -/
structure Fits (k : ThresholdKey) (m : MultiSignature) : Prop where
  valid : k.validate = .ok ()
  length : m.bits.length = k.members.length
  count : m.bits.ones.length = m.signatures.length
  enough : k.threshold.toNat ≤ m.bits.ones.length

lemma verify_eq (k : ThresholdKey) (msg : Bytes) (m : MultiSignature) :
    verify k msg m =
      match k.validate with
      | .error e => .error (.badKey e)
      | .ok () =>
        if m.bits.length ≠ k.members.length then
          .error (.wrongBits m.bits.length k.members.length)
        else if m.bits.countOnes ≠ m.signatures.length then
          .error (.wrongCount m.bits.countOnes m.signatures.length)
        else if m.signatures.length < k.threshold.toNat then
          .error (.insufficient k.threshold m.signatures.length)
        else verifyMembers m.bits msg k.members.zipIdx m.signatures := by
  unfold verify
  cases k.validate <;> rfl

lemma verify_of_fits (hm : m.bits.Clean n) (h : Fits k m) (msg : Bytes) :
    verify k msg m = verifyMembers m.bits msg k.members.zipIdx m.signatures := by
  have hcount : m.bits.countOnes = m.signatures.length := hm.countOnes.trans h.count
  have henough := h.enough
  rw [h.count] at henough
  simp [verify_eq, h.valid, h.length, hcount, Nat.not_lt.mpr henough]

/-- A fault in the shape is not blamed on a member. -/
lemma verify_of_not_fits (hm : m.bits.Clean n) (h : ¬Fits k m) (msg : Bytes) :
    ∃ e, verify k msg m = .error e ∧ e ≠ .missing ∧ ∀ i, e ≠ .member i := by
  rw [verify_eq]
  split
  · exact ⟨_, rfl, by simp, by simp⟩
  · rename_i hvalid
    split_ifs with hlength hcount hfew
    · exact ⟨_, rfl, by simp, by simp⟩
    · exact ⟨_, rfl, by simp, by simp⟩
    · exact ⟨_, rfl, by simp, by simp⟩
    · rw [hm.countOnes, not_not] at hcount
      exact absurd ⟨hvalid, not_not.mp hlength, hcount, by omega⟩ h

/-! ### The signatures -/

/-- The `j`-th set position is a member's, who takes the `j`-th signature. -/
def Accepted (k : ThresholdKey) (msg : Bytes) (m : MultiSignature) (j : Nat) : Prop :=
  ∃ i member sig, m.bits.ones[j]? = some i ∧ k.members[i]? = some member ∧
    m.signatures[j]? = some sig ∧ member.verify msg sig = .ok ()

/-- The set positions whose signatures are not accepted. -/
def failing (k : ThresholdKey) (msg : Bytes) (m : MultiSignature) : Set Nat :=
  {i | ∃ j, m.bits.ones[j]? = some i ∧ ¬Accepted k msg m j}

def pairs (k : ThresholdKey) (m : MultiSignature) : List ((SingleKey × Nat) × Bytes) :=
  (chosen m.bits k.members.zipIdx).zip m.signatures

lemma Fits.length_chosen (h : Fits k m) :
    (chosen m.bits k.members.zipIdx).length = m.signatures.length := by
  rw [← h.count, ← map_snd_chosen h.length, List.length_map]

lemma Fits.length_pairs (h : Fits k m) : (pairs k m).length = m.signatures.length := by
  rw [pairs, List.length_zip, h.length_chosen, Nat.min_self]

lemma Fits.ones_getElem? (h : Fits k m) {j : Nat} (hj : j < (pairs k m).length) :
    m.bits.ones[j]? = some (pairs k m)[j].1.2 := by
  have hlt : j < (chosen m.bits k.members.zipIdx).length := by
    rw [h.length_chosen, ← h.length_pairs]
    exact hj
  simp [← map_snd_chosen h.length, pairs, List.getElem?_eq_getElem hlt]

lemma Fits.accepted_iff (h : Fits k m) {j : Nat} (hj : j < (pairs k m).length) :
    Accepted k msg m j ↔ rejects msg (pairs k m)[j] = false := by
  have hlt : j < m.signatures.length := h.length_pairs ▸ hj
  have hmem : (pairs k m)[j].1 ∈ chosen m.bits k.members.zipIdx :=
    (List.of_mem_zip (List.getElem_mem hj)).1
  have hmember := getElem?_of_mem_chosen hmem
  have hone := h.ones_getElem? hj
  have hsig : m.signatures[j]? = some (pairs k m)[j].2 := by simp [pairs, hlt]
  rw [rejects_eq_false]
  constructor
  · rintro ⟨i, member, sig, hi, hm, hs, hok⟩
    obtain rfl : i = _ := Option.some.inj (hi.symm.trans hone)
    obtain rfl : member = _ := Option.some.inj (hm.symm.trans hmember)
    obtain rfl : sig = _ := Option.some.inj (hs.symm.trans hsig)
    exact hok
  · intro hok
    exact ⟨_, _, _, hone, hmember, hsig, hok⟩

lemma Fits.verify_eq_verdict (hm : m.bits.Clean n) (h : Fits k m) (msg : Bytes) :
    verify k msg m = verdict ((pairs k m).find? (rejects msg)) := by
  rw [verify_of_fits hm h, verifyMembers_eq _ _ _ _ h.length_chosen.le, pairs]

lemma Fits.verify_eq_ok_iff (hm : m.bits.Clean n) (h : Fits k m) :
    verify k msg m = .ok () ↔ ∀ j < m.signatures.length, Accepted k msg m j := by
  rw [h.verify_eq_verdict hm, ← h.length_pairs]
  cases hfind : (pairs k m).find? (rejects msg) with
  | none =>
    rw [List.find?_eq_none] at hfind
    refine iff_of_true rfl fun j hj => (h.accepted_iff hj).mpr ?_
    simpa using hfind _ (List.getElem_mem hj)
  | some p =>
    obtain ⟨hp, j, hj, rfl, -⟩ := List.find?_eq_some_iff_getElem.mp hfind
    refine iff_of_false (by simp [verdict]) fun hall => ?_
    have := (h.accepted_iff hj).mp (hall j hj)
    rw [hp] at this
    cases this

/-- The first wrong pair is at the least position, as the positions rise. -/
lemma Fits.verify_eq_member_iff (hm : m.bits.Clean n) (h : Fits k m) (i : Nat) :
    verify k msg m = .error (.member i) ↔ IsLeast (failing k msg m) i := by
  have hpairs : ∀ {i j}, m.bits.ones[j]? = some i →
      ∃ hj : j < (pairs k m).length, (pairs k m)[j].1.2 = i := by
    intro i j hone
    obtain ⟨hj, -⟩ := List.getElem?_eq_some_iff.mp hone
    have hj' : j < (pairs k m).length := by rwa [h.length_pairs, ← h.count]
    exact ⟨hj', Option.some.inj ((h.ones_getElem? hj').symm.trans hone)⟩
  rw [h.verify_eq_verdict hm]
  cases hfind : (pairs k m).find? (rejects msg) with
  | none =>
    rw [List.find?_eq_none] at hfind
    refine iff_of_false (by simp [verdict]) ?_
    rintro ⟨⟨j, hone, hnot⟩, -⟩
    obtain ⟨hj, -⟩ := hpairs hone
    refine hnot ((h.accepted_iff hj).mpr ?_)
    simpa using hfind _ (List.getElem_mem hj)
  | some p =>
    obtain ⟨hp, j, hj, rfl, hbefore⟩ := List.find?_eq_some_iff_getElem.mp hfind
    have hleast : IsLeast (failing k msg m) (pairs k m)[j].1.2 := by
      refine ⟨⟨j, h.ones_getElem? hj, ?_⟩, ?_⟩
      · rw [h.accepted_iff hj, hp]
        decide
      · rintro i' ⟨j', hone, hnot⟩
        obtain ⟨hj', -⟩ := hpairs hone
        rw [h.accepted_iff hj'] at hnot
        refine BitArray.ones_mono (Nat.not_lt.mp fun hlt => ?_) (h.ones_getElem? hj) hone
        exact hnot (by simpa using hbefore j' hlt)
    constructor
    · intro heq
      obtain rfl : (pairs k m)[j].1.2 = i := by simpa [verdict] using heq
      exact hleast
    · intro hi
      rw [verdict, hleast.unique hi]

/-- **Exact acceptance**: on any array made by writes to a fresh one, a signature is accepted
just when it fits its key and each of the set members, in order, accepts the signature in its
place. No signature is ever missing, and a member is blamed just when the shape is right and it
is the first whose signature fails. -/
theorem verify_exact (k : ThresholdKey) (msg : Bytes) (n : Nat) (writes : List (Nat × Bool))
    (signatures : List Bytes) (modes : List SignMode) :
    let m : MultiSignature := ⟨.built n writes, signatures, modes⟩
    (m.bits.ones.Pairwise (· < ·) ∧ ∀ i, i ∈ m.bits.ones ↔ m.bits.get i = true) ∧
    (verify k msg m = .ok () ↔
      Fits k m ∧ ∀ j < m.signatures.length, Accepted k msg m j) ∧
    verify k msg m ≠ .error .missing ∧
    ∀ i, verify k msg m = .error (.member i) ↔ Fits k m ∧ IsLeast (failing k msg m) i := by
  intro m
  have hm : m.bits.Clean n := BitArray.clean_built n writes
  refine ⟨⟨m.bits.ones_pairwise, fun _ => BitArray.mem_ones⟩, ?_⟩
  by_cases h : Fits k m
  · refine ⟨?_, ?_, fun i => ?_⟩
    · rw [h.verify_eq_ok_iff hm]
      exact (and_iff_right h).symm
    · rw [h.verify_eq_verdict hm]
      cases (pairs k m).find? (rejects msg) <;> simp [verdict]
    · rw [h.verify_eq_member_iff hm]
      exact (and_iff_right h).symm
  · obtain ⟨e, he, hmissing, hmember⟩ := verify_of_not_fits hm h msg
    rw [he]
    exact ⟨iff_of_false (by simp) fun hall => h hall.1, by simpa using hmissing,
      fun i => iff_of_false (by simpa using hmember i) fun hall => h hall.1⟩

end ChainKeys.MultiSignature
