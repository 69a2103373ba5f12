import ChainKeys.Proofs.Multisig.Order

/-!
What creating a threshold key promises.

A sorting of the members is told by three facts: it loses and doubles no member, addresses do not
fall, and each address keeps its members in the order given. No other list has all three, so the
key is settled by them, and a list that is in order is its own sorting.
-/

namespace ChainKeys.ThresholdKey

variable {members others : List SingleKey} {threshold : UInt32} {keepOrder : Bool}
  {k : ThresholdKey}

/-- From member to member the address does not fall, as a byte string. -/
def InOrder (members : List SingleKey) : Prop :=
  members.Pairwise fun a b => (Address.ofSingle a).bytes ≤ (Address.ofSingle b).bytes

/-- What sorting the members may make of them. -/
structure IsSorting (members others : List SingleKey) : Prop where
  perm : others.Perm members
  inOrder : InOrder others
  stable : ∀ a, sharing a others = sharing a members

lemma inOrder_iff : InOrder members ↔ members.Pairwise fun a b => byAddress a b = true := by
  have hle : ∀ a b, byAddress a b = true ↔
      (Address.ofSingle a).bytes ≤ (Address.ofSingle b).bytes := fun _ _ => Bytes.le_iff
  simp only [InOrder, hle]

lemma isSorting_sorted (members : List SingleKey) : IsSorting members (sorted members) where
  perm := perm_sorted members
  inOrder := inOrder_iff.mpr (pairwise_sorted members)
  stable a := sharing_sorted a members

lemma isSorting_iff : IsSorting members others ↔ others = sorted members := by
  constructor
  · intro h
    refine eq_of_sharing_eq (inOrder_iff.mp h.inOrder) (pairwise_sorted members) fun a => ?_
    rw [h.stable, sharing_sorted]
  · rintro rfl
    exact isSorting_sorted members

lemma sorted_eq_self_iff : sorted members = members ↔ InOrder members := by
  constructor
  · intro h
    rw [← h]
    exact (isSorting_sorted members).inOrder
  · intro h
    exact List.mergeSort_of_pairwise (inOrder_iff.mp h)

/-- What is not refused can be used. -/
lemma validate_eq_ok_iff : k.validate = .ok () ↔ ¬Refused k.threshold k.members := by
  simp [validate, isValid, Refused]

/-! ### Creating -/

lemma exists_create (h : ¬Refused threshold members) (keepOrder : Bool) :
    ∃ k, create members threshold keepOrder = .ok k := by
  rw [create_eq, if_neg h]
  exact ⟨_, rfl⟩

lemma create_eq_ok_iff :
    create members threshold keepOrder = .ok k ↔
      ¬Refused threshold members ∧ k.threshold = threshold ∧
        if keepOrder then k.members = members else IsSorting members k.members := by
  obtain ⟨t, ms⟩ := k
  rw [create_eq]
  by_cases hrefused : Refused threshold members
  · simp [hrefused]
  · cases keepOrder <;> simp [hrefused, isSorting_iff, eq_comm]

/-- The members that were counted are those of the key. -/
lemma not_refused_of_create (h : create members threshold keepOrder = .ok k) :
    ¬Refused k.threshold k.members := by
  obtain ⟨rfl, hperm⟩ := perm_of_create h
  exact mt (Refused.perm hperm).mp (create_eq_ok_iff.mp h).1

lemma validate_of_create (h : create members threshold keepOrder = .ok k) :
    k.validate = .ok () :=
  validate_eq_ok_iff.mpr (not_refused_of_create h)

/-- Sorting once more changes nothing where nothing is out of order. -/
lemma create_again_iff (h : create members threshold keepOrder = .ok k) :
    create k.members k.threshold false = .ok k ↔ InOrder k.members := by
  have hagain : create k.members k.threshold false = .ok k ↔ IsSorting k.members k.members := by
    simp [create_eq_ok_iff, not_refused_of_create h]
  rw [hagain, isSorting_iff, eq_comm, sorted_eq_self_iff]

/-- **Creating a key** is refused, with the threshold and the count of the members, exactly when
the threshold is zero or above that count. Otherwise there is a key, and only one that it can be:
it has this threshold, and as members the ones given if their order is to be kept, or else their
sorting. It can be used, and sorting its members once more gives the same key exactly when they
are in order. -/
theorem create_exact (members : List SingleKey) (threshold : UInt32) (keepOrder : Bool) :
    (∀ e, create members threshold keepOrder = .error e ↔
      Refused threshold members ∧ e = .badThreshold threshold members.length) ∧
    (¬Refused threshold members → ∃ k, create members threshold keepOrder = .ok k) ∧
    (∀ k, create members threshold keepOrder = .ok k ↔
      ¬Refused threshold members ∧ k.threshold = threshold ∧
        if keepOrder then k.members = members else IsSorting members k.members) ∧
    ∀ k, create members threshold keepOrder = .ok k →
      k.validate = .ok () ∧
      (create k.members k.threshold false = .ok k ↔ InOrder k.members) := by
  have herror : ∀ e, create members threshold keepOrder = .error e ↔
      Refused threshold members ∧ e = .badThreshold threshold members.length := by
    intro e
    rw [create_eq_error_iff, eq_comm]
  exact ⟨herror, fun h => exists_create h keepOrder, fun _ => create_eq_ok_iff,
    fun _ h => ⟨validate_of_create h, create_again_iff h⟩⟩

end ChainKeys.ThresholdKey
