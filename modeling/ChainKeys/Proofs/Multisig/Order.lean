import ChainKeys.KeyText
import ChainKeys.Multisig
import ChainKeys.Proofs.Amino.RoundTrip
import ChainKeys.Proofs.Bytes

/-!
How far a threshold key depends on the order in which its members were given.

Members are sorted by address, and the sort is stable: members of one address stay as they were
given. So the order is lost exactly up to what each address has of it, which is all of it when
different members have different addresses. An ed25519 and an sr25519 key of the same bytes have
the same one.
-/

namespace ChainKeys

namespace Address

lemma le_trans {a b c : Address} (hab : a.le b = true) (hbc : b.le c = true) : a.le c = true :=
  Bytes.le_trans hab hbc

lemma le_total (a b : Address) : (a.le b || b.le a) = true :=
  Bytes.le_total a.bytes b.bytes

lemma le_antisymm {a b : Address} (hab : a.le b = true) (hba : b.le a = true) : a = b :=
  ext_bytes (List.le_antisymm (Bytes.le_iff.mp hab) (Bytes.le_iff.mp hba))

lemma le_refl (a : Address) : a.le a = true := by
  simpa using le_total a a

end Address

/-! ### Sorting by address -/

namespace ThresholdKey

/-- The members of an address, in their order. -/
def sharing (a : Address) (members : List SingleKey) : List SingleKey :=
  members.filter fun k => Address.ofSingle k = a

def byAddress (a b : SingleKey) : Bool := Address.le (.ofSingle a) (.ofSingle b)

def sorted (members : List SingleKey) : List SingleKey := members.mergeSort byAddress

lemma byAddress_trans (a b c : SingleKey) (hab : byAddress a b = true)
    (hbc : byAddress b c = true) : byAddress a c = true :=
  Address.le_trans hab hbc

lemma byAddress_total (a b : SingleKey) : (byAddress a b || byAddress b a) = true :=
  Address.le_total (.ofSingle a) (.ofSingle b)

lemma mem_sharing {a : Address} {members : List SingleKey} {k : SingleKey} :
    k ∈ sharing a members ↔ k ∈ members ∧ Address.ofSingle k = a := by
  simp [sharing]

lemma sharing_cons_self (k : SingleKey) (members : List SingleKey) :
    sharing (.ofSingle k) (k :: members) = k :: sharing (.ofSingle k) members := by
  simp [sharing]

lemma mem_iff_of_sharing_eq {l m : List SingleKey} (h : ∀ a, sharing a l = sharing a m)
    (k : SingleKey) : k ∈ l ↔ k ∈ m := by
  have hk : k ∈ sharing (.ofSingle k) l ↔ k ∈ sharing (.ofSingle k) m := by rw [h]
  simpa [mem_sharing] using hk

lemma perm_sorted (members : List SingleKey) : (sorted members).Perm members :=
  List.mergeSort_perm members byAddress

lemma pairwise_sorted (members : List SingleKey) :
    (sorted members).Pairwise fun a b => byAddress a b = true :=
  List.pairwise_mergeSort byAddress_trans byAddress_total members

/-- The sort is stable: an address keeps its members in their order. -/
lemma sharing_sorted (a : Address) (members : List SingleKey) :
    sharing a (sorted members) = sharing a members := by
  have htied : (sharing a members).Pairwise fun x y => byAddress x y = true := by
    refine List.pairwise_of_forall_mem_list fun x hx y hy => ?_
    rw [byAddress, (mem_sharing.mp hx).2, (mem_sharing.mp hy).2]
    exact Address.le_refl a
  have hsub : (sharing a members).Sublist (sorted members) :=
    List.sublist_mergeSort byAddress_trans byAddress_total htied List.filter_sublist
  have hkept : (sharing a members).Sublist (sharing a (sorted members)) := by
    have h := hsub.filter fun k => Address.ofSingle k = a
    simpa only [sharing, List.filter_filter, Bool.and_self] using h
  exact (hkept.eq_of_length ((perm_sorted members).filter _).length_eq.symm).symm

/-- The first member of a sorted list has the least address. -/
lemma byAddress_of_mem {a : SingleKey} {l : List SingleKey}
    (h : (a :: l).Pairwise fun x y => byAddress x y = true) {k : SingleKey} (hk : k ∈ a :: l) :
    byAddress a k = true := by
  rcases List.mem_cons.mp hk with rfl | hk
  · exact Address.le_refl _
  · exact List.rel_of_pairwise_cons h hk

/-- A sorted list is made up of what each address has. -/
lemma eq_of_sharing_eq {l m : List SingleKey}
    (hl : l.Pairwise fun a b => byAddress a b = true)
    (hm : m.Pairwise fun a b => byAddress a b = true)
    (h : ∀ a, sharing a l = sharing a m) : l = m := by
  induction l generalizing m with
  | nil =>
    cases m with
    | nil => rfl
    | cons b m => simpa using mem_iff_of_sharing_eq h b
  | cons a l ih =>
    cases m with
    | nil => simpa using mem_iff_of_sharing_eq h a
    | cons b m =>
      -- Both heads have the least address, so each is the first member of it.
      have hab : Address.ofSingle a = Address.ofSingle b :=
        Address.le_antisymm
          (byAddress_of_mem hl ((mem_iff_of_sharing_eq h b).mpr List.mem_cons_self))
          (byAddress_of_mem hm ((mem_iff_of_sharing_eq h a).mp List.mem_cons_self))
      have hfirst := h (.ofSingle a)
      rw [sharing_cons_self, hab, sharing_cons_self] at hfirst
      obtain ⟨rfl, -⟩ := List.cons.inj hfirst
      have hrest : ∀ c, sharing c l = sharing c m := by
        intro c
        have hc := h c
        by_cases hac : Address.ofSingle a = c
        · subst hac
          simpa [sharing_cons_self] using hc
        · simpa [sharing, hac] using hc
      rw [ih hl.of_cons hm.of_cons hrest]

/-! ### Keys of given members -/

/-- What no key is made of. -/
def Refused (threshold : UInt32) (members : List SingleKey) : Prop :=
  threshold = 0 ∨ members.length < threshold.toNat

instance (threshold : UInt32) (members : List SingleKey) : Decidable (Refused threshold members) :=
  inferInstanceAs (Decidable (_ ∨ _))

lemma create_eq (members : List SingleKey) (threshold : UInt32) (keepOrder : Bool) :
    create members threshold keepOrder =
      if Refused threshold members then .error (.badThreshold threshold members.length)
      else .ok ⟨threshold, if keepOrder then members else sorted members⟩ :=
  rfl

lemma create_eq_error_iff {members : List SingleKey} {threshold : UInt32} {keepOrder : Bool}
    {e : KeyError} :
    create members threshold keepOrder = .error e ↔
      Refused threshold members ∧ .badThreshold threshold members.length = e := by
  rw [create_eq]
  split_ifs with hrefused <;> simp [hrefused]

/-- No member is lost, added or doubled. -/
lemma perm_of_create {members : List SingleKey} {threshold : UInt32} {keepOrder : Bool}
    {k : ThresholdKey} (h : create members threshold keepOrder = .ok k) :
    k.threshold = threshold ∧ k.members.Perm members := by
  rw [create_eq] at h
  split_ifs at h with hrefused hkeep
  · obtain rfl := Except.ok.inj h
    exact ⟨rfl, .refl _⟩
  · obtain rfl := Except.ok.inj h
    exact ⟨rfl, perm_sorted members⟩

variable {members others : List SingleKey}

lemma Refused.perm {threshold : UInt32} (h : members.Perm others) :
    Refused threshold members ↔ Refused threshold others := by
  rw [Refused, Refused, h.length_eq]

lemma create_eq_iff (h : members.Perm others) (threshold : UInt32) :
    create members threshold false = create others threshold false ↔
      Refused threshold members ∨ ∀ a, sharing a members = sharing a others := by
  rw [create_eq, create_eq, h.length_eq]
  by_cases hrefused : Refused threshold members
  · simp [hrefused, (Refused.perm h).mp hrefused]
  · rw [if_neg hrefused, if_neg (mt (Refused.perm h).mpr hrefused)]
    simp only [Bool.false_eq_true, if_false, Except.ok.injEq, mk.injEq, true_and, hrefused,
      false_or]
    constructor
    · intro heq a
      rw [← sharing_sorted, heq, sharing_sorted]
    · intro hsame
      refine eq_of_sharing_eq (pairwise_sorted members) (pairwise_sorted others) fun a => ?_
      rw [sharing_sorted, sharing_sorted, hsame]

/-- Different members have different addresses. -/
def ToldApart (members : List SingleKey) : Prop :=
  ∀ a ∈ members, ∀ b ∈ members, Address.ofSingle a = Address.ofSingle b → a = b

instance (members : List SingleKey) : Decidable (ToldApart members) :=
  inferInstanceAs (Decidable (∀ a ∈ members, ∀ b ∈ members, _ → _))

/-- Then an address has one member, so often as it is repeated. -/
lemma ToldApart.sharing_eq (happart : ToldApart members) (h : members.Perm others) (a : Address) :
    sharing a members = sharing a others := by
  refine (h.filter _).eq_of_pairwise (fun x y hx hy _ _ => ?_)
    (List.pairwise_of_forall fun _ _ => True.intro) (List.pairwise_of_forall fun _ _ => True.intro)
  obtain ⟨hx, hxa⟩ := mem_sharing.mp hx
  obtain ⟨hy, hya⟩ := mem_sharing.mp hy
  exact happart x hx y (h.mem_iff.mpr hy) (hxa.trans hya.symm)

/-- What others see of a key: its binary form, its text and its address. -/
def views (r : Amino.Registry) (hrp : String) (k : ThresholdKey) :
    Bytes × Except KeyText.Error String × Address :=
  (Amino.encode r (.threshold k), KeyText.encode r (.threshold k) hrp,
    Address.ofKey r (.threshold k))

lemma binary_injective {r : Amino.Registry} (hr : r.Distinct) :
    Function.Injective fun k : ThresholdKey => Amino.encode r (.threshold k) := fun _ _ h =>
  PublicKey.threshold.inj (hr.encode_injective h)

/-- **Members in another order** are refused alike, and make the same threshold key exactly when
each address has its members in the same order. Where different members have different addresses
it is always the same key, with the same binary form, text and address; and a key that is not the
same has another binary form. -/
theorem create_reordered (h : members.Perm others) (threshold : UInt32) :
    (∀ e, create members threshold false = .error e ↔
      create others threshold false = .error e) ∧
    (create members threshold false = create others threshold false ↔
      Refused threshold members ∨ ∀ a, sharing a members = sharing a others) ∧
    (ToldApart members →
      create members threshold false = create others threshold false ∧
      ∀ r hrp, (create members threshold false).map (views r hrp) =
        (create others threshold false).map (views r hrp)) ∧
    ∀ r : Amino.Registry, r.Distinct →
      ((create members threshold false).map (fun k => Amino.encode r (.threshold k)) =
          (create others threshold false).map (fun k => Amino.encode r (.threshold k)) ↔
        create members threshold false = create others threshold false) := by
  refine ⟨fun e => ?_, create_eq_iff h threshold, fun happart => ?_, fun r hr =>
    map_inj (binary_injective hr)⟩
  · rw [create_eq_error_iff, create_eq_error_iff, Refused.perm h, h.length_eq]
  · have hsame := (create_eq_iff h threshold).mpr (.inr (happart.sharing_eq h))
    exact ⟨hsame, fun r hrp => by rw [hsame]⟩

def edZero : SingleKey := ⟨.ed25519, List.replicate 32 0, by decide⟩

def srZero : SingleKey := ⟨.sr25519, List.replicate 32 0, by decide⟩

def secpZero : SingleKey := ⟨.secp256k1, 2 :: List.replicate 32 0, by decide⟩

theorem create_reordered_repeated :
    [edZero, secpZero, edZero].Perm [secpZero, edZero, edZero] ∧
      ToldApart [edZero, secpZero, edZero] ∧
      create [edZero, secpZero, edZero] 2 false = create [secpZero, edZero, edZero] 2 false := by
  have hperm : [edZero, secpZero, edZero].Perm [secpZero, edZero, edZero] := by decide
  have happart : ToldApart [edZero, secpZero, edZero] := by decide +kernel
  exact ⟨hperm, happart, ((create_reordered hperm 2).2.2.1 happart).1⟩

/-- The address of a key that is not on the secp256k1 curve does not tell its algorithm. -/
lemma ofSingle_eq_of_bytes_eq {a b : SingleKey} (ha : a.algorithm ≠ .secp256k1)
    (hb : b.algorithm ≠ .secp256k1) (h : a.bytes = b.bytes) :
    Address.ofSingle a = Address.ofSingle b := by
  have hsha : ∀ k : SingleKey, k.algorithm ≠ .secp256k1 →
      Address.ofSingle k = Address.ofSha256 k.bytes := by
    intro k hk
    unfold Address.ofSingle
    split
    · exact absurd ‹_› hk
    all_goals rfl
  rw [hsha a ha, hsha b hb, h]

/-- Two keys of the same bytes under the two other algorithms keep the order they were given in,
so they make one threshold key in one order and another in the other. -/
theorem create_ordered_twins :
    ¬ ∀ (members others : List SingleKey) (threshold : UInt32), members.Perm others →
      ((∃ e, create members threshold false = .error e) ∧
        ∃ e, create others threshold false = .error e) ∨
      create members threshold false = create others threshold false := by
  intro h
  have htwins : Address.ofSingle srZero = Address.ofSingle edZero :=
    ofSingle_eq_of_bytes_eq (by decide) (by decide) rfl
  have hperm : [edZero, srZero].Perm [srZero, edZero] := .swap _ _ _
  have hvalid : ¬Refused 1 [edZero, srZero] := by decide
  rcases h _ _ 1 hperm with ⟨⟨e, he⟩, -⟩ | hsame
  · exact hvalid (create_eq_error_iff.mp he).1
  · rcases (create_eq_iff hperm 1).mp hsame with hrefused | hsharing
    · exact hvalid hrefused
    · have hboth := hsharing (.ofSingle edZero)
      simp only [sharing, htwins, List.filter_cons_of_pos, decide_true, List.filter_nil] at hboth
      exact absurd (List.cons.inj hboth).1 (by decide)

end ThresholdKey

end ChainKeys
